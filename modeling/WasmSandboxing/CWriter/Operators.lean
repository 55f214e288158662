import WasmSandboxing.CWriter.Macros
import WasmSandboxing.CWriter.Statement
import WasmSandboxing.Wasm.Labels

namespace WasmSandboxing
namespace CWriter

open CLang WasmRt Wasm

/-!
# Operators

The statement written for a unary, binary, comparing or converting expression.
Operands are the variables on top of the type stack, and the result goes to
the position of the lowest operand, in the variable of the result's type.
-/

/-- `Write(SignedType)`. -/
def signedType : ValueType -> Option CType
  | .i32 => some .s32
  | .i64 => some .s64
  | .f32 | .f64 => none

def getShiftMask : ValueType -> Option Nat
  | .i32 => some 31
  | .i64 => some 63
  | .f32 | .f64 => none

section Patterns

variable {S : Scheme}

/-- What one expression adds to the output: a command and the state after it. -/
abbrev Written (S : Scheme) := Option (Command S × WriterState S)

def writeSimpleUnaryExpr (resultType : ValueType) (op : CExpr S -> CExpr S)
    (state : WriterState S) : Written S := do
  let operand <- state.operand 0
  let command := .assign (state.stackVar 0 resultType) (op (.var operand))
  let state <- state.dropTypes 1
  some (command, state.pushType resultType)

/-- With `AssignOp::Allowed` the operator is written as a compound assignment. -/
def infixCommand (target right : CVar S) (op : BinaryOp) (assignAllowed : Bool)
    (state : WriterState S) : Option (Command S) :=
  if assignAllowed then some (.compound op target (.var right))
  else (state.operand 1).map fun left => .assign target (.binary op (.var left) (.var right))

def writeInfixBinaryExpr (resultType : ValueType) (op : BinaryOp) (assignAllowed : Bool)
    (state : WriterState S) : Written S := do
  let right <- state.operand 0
  let command <- infixCommand (state.stackVar 1 resultType) right op assignAllowed state
  let state <- state.dropTypes 2
  some (command, state.pushType resultType)

def writePrefixBinaryExpr (resultType : ValueType) (op : CExpr S -> CExpr S -> CExpr S)
    (state : WriterState S) : Written S := do
  let left <- state.operand 1
  let right <- state.operand 0
  let command := .assign (state.stackVar 1 resultType) (op (.var left) (.var right))
  let state <- state.dropTypes 2
  some (command, state.pushType resultType)

def writeSignedBinaryExpr (resultType type : ValueType) (op : BinaryOp) (state : WriterState S) :
    Written S := do
  let signed <- signedType type
  let left <- state.operand 1
  let right <- state.operand 0
  let command := .assign (state.stackVar 1 resultType)
    (.cast (cType type) (.binary op (.cast signed (.var left)) (.cast signed (.var right))))
  let state <- state.dropTypes 2
  some (command, state.pushType resultType)

/-- The count of a shift: `StackVar(0) & GetShiftMask(type)`. -/
def maskedCount (type : ValueType) (state : WriterState S) : Option (CExpr S) := do
  let mask <- getShiftMask type
  let right <- state.operand 0
  some (.binary .bitand (.var right) (Macros.int mask))

/-- A left or an unsigned right shift; the operand keeps its type. -/
def writeShift (type : ValueType) (op : BinaryOp) (state : WriterState S) : Written S := do
  let left <- state.operand 1
  let count <- maskedCount type state
  let command := .compound op left count
  let state <- state.dropTypes 1
  some (command, state)

def writeSignedShift (type : ValueType) (state : WriterState S) : Written S := do
  let signed <- signedType type
  let left <- state.operand 1
  let count <- maskedCount type state
  let command := .assign left (.cast (cType type) (.binary .shr (.cast signed (.var left)) count))
  let state <- state.dropTypes 1
  some (command, state)

end Patterns

variable {S : Scheme}

/-- `Write(BinaryExpr)`. -/
def writeBinary (opcode : BinaryOpcode) : WriterState S -> Written S :=
  match opcode with
  | .i32Add | .i64Add | .f32Add | .f64Add => writeInfixBinaryExpr opcode.resultType .add true
  | .i32Sub | .i64Sub | .f32Sub | .f64Sub => writeInfixBinaryExpr opcode.resultType .sub true
  | .i32Mul | .i64Mul | .f32Mul | .f64Mul => writeInfixBinaryExpr opcode.resultType .mul true
  | .i32DivS => writePrefixBinaryExpr opcode.resultType Macros.i32DivS
  | .i64DivS => writePrefixBinaryExpr opcode.resultType Macros.i64DivS
  | .i32DivU | .i64DivU => writePrefixBinaryExpr opcode.resultType Macros.divU
  | .f32Div | .f64Div => writeInfixBinaryExpr opcode.resultType .div true
  | .i32RemS => writePrefixBinaryExpr opcode.resultType Macros.i32RemS
  | .i64RemS => writePrefixBinaryExpr opcode.resultType Macros.i64RemS
  | .i32RemU | .i64RemU => writePrefixBinaryExpr opcode.resultType Macros.remU
  | .i32And | .i64And => writeInfixBinaryExpr opcode.resultType .bitand true
  | .i32Or | .i64Or => writeInfixBinaryExpr opcode.resultType .bitor true
  | .i32Xor | .i64Xor => writeInfixBinaryExpr opcode.resultType .bitxor true
  | .i32Shl | .i64Shl => writeShift opcode.resultType .shl
  | .i32ShrS | .i64ShrS => writeSignedShift opcode.resultType
  | .i32ShrU | .i64ShrU => writeShift opcode.resultType .shr
  | .i32Rotl => writePrefixBinaryExpr opcode.resultType Macros.i32Rotl
  | .i64Rotl => writePrefixBinaryExpr opcode.resultType Macros.i64Rotl
  | .i32Rotr => writePrefixBinaryExpr opcode.resultType Macros.i32Rotr
  | .i64Rotr => writePrefixBinaryExpr opcode.resultType Macros.i64Rotr
  | .f32Min => writePrefixBinaryExpr opcode.resultType (Macros.fmin .signbitf)
  | .f64Min => writePrefixBinaryExpr opcode.resultType (Macros.fmin .signbit)
  | .f32Max => writePrefixBinaryExpr opcode.resultType (Macros.fmax .signbitf)
  | .f64Max => writePrefixBinaryExpr opcode.resultType (Macros.fmax .signbit)
  | .f32Copysign => writePrefixBinaryExpr opcode.resultType (.call2 .copysignf)
  | .f64Copysign => writePrefixBinaryExpr opcode.resultType (.call2 .copysign)

/-- `Write(CompareExpr)`. -/
def writeCompare (opcode : CompareOpcode) : WriterState S -> Written S :=
  match opcode with
  | .i32Eq | .i64Eq | .f32Eq | .f64Eq => writeInfixBinaryExpr opcode.resultType .eq false
  | .i32Ne | .i64Ne | .f32Ne | .f64Ne => writeInfixBinaryExpr opcode.resultType .ne false
  | .i32LtS | .i64LtS => writeSignedBinaryExpr opcode.resultType opcode.paramType1 .lt
  | .i32LtU | .i64LtU | .f32Lt | .f64Lt => writeInfixBinaryExpr opcode.resultType .lt false
  | .i32LeS | .i64LeS => writeSignedBinaryExpr opcode.resultType opcode.paramType1 .le
  | .i32LeU | .i64LeU | .f32Le | .f64Le => writeInfixBinaryExpr opcode.resultType .le false
  | .i32GtS | .i64GtS => writeSignedBinaryExpr opcode.resultType opcode.paramType1 .gt
  | .i32GtU | .i64GtU | .f32Gt | .f64Gt => writeInfixBinaryExpr opcode.resultType .gt false
  | .i32GeS | .i64GeS => writeSignedBinaryExpr opcode.resultType opcode.paramType1 .ge
  | .i32GeU | .i64GeU | .f32Ge | .f64Ge => writeInfixBinaryExpr opcode.resultType .ge false

/-- The prefix operator that `Write(ConvertExpr)` writes before its operand. -/
def convertOperator : ConvertOpcode -> CExpr S -> CExpr S
  | .i32Eqz, x | .i64Eqz, x => .unary .not x
  | .i64ExtendSI32, x => .cast .u64 (.cast .s64 (.cast .s32 x))
  | .i64ExtendUI32, x => .cast .u64 x
  | .i32WrapI64, x => .cast .u32 x
  | .i32TruncSF32, x => Macros.i32TruncSF32 x
  | .i64TruncSF32, x => Macros.i64TruncSF32 x
  | .i32TruncSF64, x => Macros.i32TruncSF64 x
  | .i64TruncSF64, x => Macros.i64TruncSF64 x
  | .i32TruncUF32, x => Macros.i32TruncUF32 x
  | .i64TruncUF32, x => Macros.i64TruncUF32 x
  | .i32TruncUF64, x => Macros.i32TruncUF64 x
  | .i64TruncUF64, x => Macros.i64TruncUF64 x
  | .f32ConvertSI32, x => .cast .f32 (.cast .s32 x)
  | .f32ConvertSI64, x => .cast .f32 (.cast .s64 x)
  | .f32ConvertUI32, x | .f32DemoteF64, x | .f32ConvertUI64, x => .cast .f32 x
  | .f64ConvertSI32, x => .cast .f64 (.cast .s32 x)
  | .f64ConvertSI64, x => .cast .f64 (.cast .s64 x)
  | .f64ConvertUI32, x | .f64PromoteF32, x | .f64ConvertUI64, x => .cast .f64 x
  | .f32ReinterpretI32, x => .call1 .f32OfU32 x
  | .i32ReinterpretF32, x => .call1 .u32OfF32 x
  | .f64ReinterpretI64, x => .call1 .f64OfU64 x
  | .i64ReinterpretF64, x => .call1 .u64OfF64 x

/-- `Write(ConvertExpr)`. -/
def writeConvert (opcode : ConvertOpcode) (state : WriterState S) : Written S :=
  writeSimpleUnaryExpr opcode.resultType (convertOperator opcode) state

/-- The prefix operator that `Write(UnaryExpr)` writes before its operand. -/
def unaryOperator : UnaryOpcode -> CExpr S -> CExpr S
  | .i32Clz, x => Macros.i32Clz x
  | .i64Clz, x => Macros.i64Clz x
  | .i32Ctz, x => Macros.i32Ctz x
  | .i64Ctz, x => Macros.i64Ctz x
  | .i32Popcnt, x => Macros.i32Popcnt x
  | .i64Popcnt, x => Macros.i64Popcnt x
  | .f32Neg, x | .f64Neg, x => .unary .neg x
  | .f32Abs, x => .call1 .fabsf x
  | .f64Abs, x => .call1 .fabs x
  | .f32Sqrt, x => .call1 .sqrtf x
  | .f64Sqrt, x => .call1 .sqrt x
  | .f32Ceil, x => .call1 .ceilf x
  | .f64Ceil, x => .call1 .ceil x
  | .f32Floor, x => .call1 .floorf x
  | .f64Floor, x => .call1 .floor x
  | .f32Trunc, x => .call1 .truncf x
  | .f64Trunc, x => .call1 .trunc x
  | .f32Nearest, x => .call1 .nearbyintf x
  | .f64Nearest, x => .call1 .nearbyint x

/-- `Write(UnaryExpr)`. -/
def writeUnary (opcode : UnaryOpcode) (state : WriterState S) : Written S :=
  writeSimpleUnaryExpr opcode.resultType (unaryOperator opcode) state

/-- `Write(Const)`.  The decimal digits written for a finite float are enough
to read the same value back. -/
def constant : Value -> CExpr S
  | .i32 bits => .lit (.u32 bits)
  | .i64 bits => .lit (.u64 bits)
  | .f32 bits =>
      match CValue.single bits with
      | .nan => .call1 .f32OfU32 (.lit (.u32 bits))
      | .infinite negative =>
          let infinity := .lit (.f32 0x7F800000#32)
          if negative then .unary .neg infinity else infinity
      | .finite _ =>
          if bits = 0x80000000#32 then .unary .neg (.lit (.f32 0#32)) else .lit (.f32 bits)
  | .f64 bits =>
      match CValue.double bits with
      | .nan => .call1 .f64OfU64 (.lit (.u64 bits))
      | .infinite negative =>
          let infinity := .lit (.f32 0x7F800000#32)
          if negative then .unary .neg infinity else infinity
      | .finite _ =>
          if bits = 0x8000000000000000#64 then .unary .neg (.lit (.f64 0#64))
          else .lit (.f64 bits)

/-- A constant is pushed and assigned to its variable. -/
def writeConst (value : Value) (state : WriterState S) : Command S × WriterState S :=
  let state := state.pushType value.type
  (.assign (state.stackVar 0 value.type) (constant value), state)

end CWriter
end WasmSandboxing
