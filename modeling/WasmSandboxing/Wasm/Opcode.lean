import Mathlib.Init

namespace WasmSandboxing
namespace Wasm

/-!
# Opcodes

The operators of the first WebAssembly version by the class of expression
that carries them, with the columns of `opcode.def` that the validator and
the C writer read: the result type, the parameter types and, for an access,
its width in bytes.
-/

/-- The value types of `Type`. -/
inductive ValueType where
  | i32 | i64 | f32 | f64
  deriving DecidableEq, Repr

/-- Loads, which take an `i32` address. -/
inductive LoadOpcode where
  | i32Load | i64Load | f32Load | f64Load | i32Load8S | i32Load8U | i32Load16S | i32Load16U
  | i64Load8S | i64Load8U | i64Load16S | i64Load16U | i64Load32S | i64Load32U
  deriving DecidableEq, Repr

namespace LoadOpcode

def resultType : LoadOpcode -> ValueType
  | i32Load | i32Load8S | i32Load8U | i32Load16S | i32Load16U => .i32
  | i64Load | i64Load8S | i64Load8U | i64Load16S | i64Load16U | i64Load32S | i64Load32U => .i64
  | f32Load => .f32
  | f64Load => .f64

def memorySize : LoadOpcode -> Nat
  | i32Load | f32Load | i64Load32S | i64Load32U => 4
  | i64Load | f64Load => 8
  | i32Load8S | i32Load8U | i64Load8S | i64Load8U => 1
  | i32Load16S | i32Load16U | i64Load16S | i64Load16U => 2

end LoadOpcode

/-- Stores, which take an `i32` address and a value. -/
inductive StoreOpcode where
  | i32Store | i64Store | f32Store | f64Store | i32Store8 | i32Store16 | i64Store8 | i64Store16
  | i64Store32
  deriving DecidableEq, Repr

namespace StoreOpcode

def paramType2 : StoreOpcode -> ValueType
  | i32Store | i32Store8 | i32Store16 => .i32
  | i64Store | i64Store8 | i64Store16 | i64Store32 => .i64
  | f32Store => .f32
  | f64Store => .f64

def memorySize : StoreOpcode -> Nat
  | i32Store | f32Store | i64Store32 => 4
  | i64Store | f64Store => 8
  | i32Store8 | i64Store8 => 1
  | i32Store16 | i64Store16 => 2

end StoreOpcode

/-- Operators of a unary expression. -/
inductive UnaryOpcode where
  | i32Clz | i32Ctz | i32Popcnt | i64Clz | i64Ctz | i64Popcnt | f32Abs | f32Neg | f32Ceil
  | f32Floor | f32Trunc | f32Nearest | f32Sqrt | f64Abs | f64Neg | f64Ceil | f64Floor | f64Trunc
  | f64Nearest | f64Sqrt
  deriving DecidableEq, Repr

namespace UnaryOpcode

def resultType : UnaryOpcode -> ValueType
  | i32Clz | i32Ctz | i32Popcnt => .i32
  | i64Clz | i64Ctz | i64Popcnt => .i64
  | f32Abs | f32Neg | f32Ceil | f32Floor | f32Trunc | f32Nearest | f32Sqrt => .f32
  | f64Abs | f64Neg | f64Ceil | f64Floor | f64Trunc | f64Nearest | f64Sqrt => .f64

def paramType1 (opcode : UnaryOpcode) : ValueType := opcode.resultType

end UnaryOpcode

/-- Operators of a binary expression. -/
inductive BinaryOpcode where
  | i32Add | i32Sub | i32Mul | i32DivS | i32DivU | i32RemS | i32RemU | i32And | i32Or | i32Xor
  | i32Shl | i32ShrS | i32ShrU | i32Rotl | i32Rotr | i64Add | i64Sub | i64Mul | i64DivS | i64DivU
  | i64RemS | i64RemU | i64And | i64Or | i64Xor | i64Shl | i64ShrS | i64ShrU | i64Rotl | i64Rotr
  | f32Add | f32Sub | f32Mul | f32Div | f32Min | f32Max | f32Copysign | f64Add | f64Sub | f64Mul
  | f64Div | f64Min | f64Max | f64Copysign
  deriving DecidableEq, Repr

namespace BinaryOpcode

def resultType : BinaryOpcode -> ValueType
  | i32Add | i32Sub | i32Mul | i32DivS | i32DivU | i32RemS | i32RemU | i32And | i32Or | i32Xor
  | i32Shl | i32ShrS | i32ShrU | i32Rotl | i32Rotr => .i32
  | i64Add | i64Sub | i64Mul | i64DivS | i64DivU | i64RemS | i64RemU | i64And | i64Or | i64Xor
  | i64Shl | i64ShrS | i64ShrU | i64Rotl | i64Rotr => .i64
  | f32Add | f32Sub | f32Mul | f32Div | f32Min | f32Max | f32Copysign => .f32
  | f64Add | f64Sub | f64Mul | f64Div | f64Min | f64Max | f64Copysign => .f64

def paramType1 (opcode : BinaryOpcode) : ValueType := opcode.resultType

def paramType2 (opcode : BinaryOpcode) : ValueType := opcode.resultType

end BinaryOpcode

/-- Operators of a comparison. -/
inductive CompareOpcode where
  | i32Eq | i32Ne | i32LtS | i32LtU | i32GtS | i32GtU | i32LeS | i32LeU | i32GeS | i32GeU | i64Eq
  | i64Ne | i64LtS | i64LtU | i64GtS | i64GtU | i64LeS | i64LeU | i64GeS | i64GeU | f32Eq | f32Ne
  | f32Lt | f32Gt | f32Le | f32Ge | f64Eq | f64Ne | f64Lt | f64Gt | f64Le | f64Ge
  deriving DecidableEq, Repr

namespace CompareOpcode

def resultType (_opcode : CompareOpcode) : ValueType := .i32

def paramType1 : CompareOpcode -> ValueType
  | i32Eq | i32Ne | i32LtS | i32LtU | i32GtS | i32GtU | i32LeS | i32LeU | i32GeS | i32GeU => .i32
  | i64Eq | i64Ne | i64LtS | i64LtU | i64GtS | i64GtU | i64LeS | i64LeU | i64GeS | i64GeU => .i64
  | f32Eq | f32Ne | f32Lt | f32Gt | f32Le | f32Ge => .f32
  | f64Eq | f64Ne | f64Lt | f64Gt | f64Le | f64Ge => .f64

def paramType2 (opcode : CompareOpcode) : ValueType := opcode.paramType1

end CompareOpcode

/-- Operators of a conversion, the tests for zero among them. -/
inductive ConvertOpcode where
  | i32Eqz | i64Eqz | i32WrapI64 | i32TruncSF32 | i32TruncUF32 | i32TruncSF64 | i32TruncUF64
  | i64ExtendSI32 | i64ExtendUI32 | i64TruncSF32 | i64TruncUF32 | i64TruncSF64 | i64TruncUF64
  | f32ConvertSI32 | f32ConvertUI32 | f32ConvertSI64 | f32ConvertUI64 | f32DemoteF64
  | f64ConvertSI32 | f64ConvertUI32 | f64ConvertSI64 | f64ConvertUI64 | f64PromoteF32
  | i32ReinterpretF32 | i64ReinterpretF64 | f32ReinterpretI32 | f64ReinterpretI64
  deriving DecidableEq, Repr

namespace ConvertOpcode

def resultType : ConvertOpcode -> ValueType
  | i32Eqz | i64Eqz | i32WrapI64 | i32TruncSF32 | i32TruncUF32 | i32TruncSF64 | i32TruncUF64
  | i32ReinterpretF32 => .i32
  | i64ExtendSI32 | i64ExtendUI32 | i64TruncSF32 | i64TruncUF32 | i64TruncSF64 | i64TruncUF64
  | i64ReinterpretF64 => .i64
  | f32ConvertSI32 | f32ConvertUI32 | f32ConvertSI64 | f32ConvertUI64 | f32DemoteF64
  | f32ReinterpretI32 => .f32
  | f64ConvertSI32 | f64ConvertUI32 | f64ConvertSI64 | f64ConvertUI64 | f64PromoteF32
  | f64ReinterpretI64 => .f64

def paramType1 : ConvertOpcode -> ValueType
  | i32Eqz | i64ExtendSI32 | i64ExtendUI32 | f32ConvertSI32 | f32ConvertUI32 | f64ConvertSI32
  | f64ConvertUI32 | f32ReinterpretI32 => .i32
  | i64Eqz | i32WrapI64 | f32ConvertSI64 | f32ConvertUI64 | f64ConvertSI64 | f64ConvertUI64
  | f64ReinterpretI64 => .i64
  | i32TruncSF32 | i32TruncUF32 | i64TruncSF32 | i64TruncUF32 | f64PromoteF32
  | i32ReinterpretF32 => .f32
  | i32TruncSF64 | i32TruncUF64 | i64TruncSF64 | i64TruncUF64 | f32DemoteF64
  | i64ReinterpretF64 => .f64

end ConvertOpcode

end Wasm
end WasmSandboxing
