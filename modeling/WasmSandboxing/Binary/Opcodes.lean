import WasmSandboxing.Binary.Reader

namespace WasmSandboxing
namespace Binary

/-!
# The opcodes of a function body

Every opcode of `opcode.def` that `ReadFunctionBody` handles, with the
immediates it reads behind the opcode, the callback it makes of them and the
feature that it asks for.  Opcodes of one row are read alike; their codes
follow one another.
-/

/-- The expressions without a list of expressions of their own. -/
inductive ExprType where
  | atomicLoad | atomicRmw | atomicRmwCmpxchg | atomicStore | atomicWait | atomicWake | binary
  | br | brIf | brTable | call | callIndirect | compare | const | convert | drop | getGlobal
  | getLocal | load | memoryGrow | memorySize | nop | rethrow | return_ | select | setGlobal
  | setLocal | simdLaneOp | simdShuffleOp | store | teeLocal | ternary | throw | unary
  | unreachable
  deriving DecidableEq, Repr

/-- The expressions that hold other expressions. -/
inductive ConstructType where
  | block | loop | if_ | ifExcept | try_
  deriving DecidableEq, Repr

/-- What the delegate is called with. -/
inductive Callback where
  | expr (type : ExprType)
  | construct (type : ConstructType)
  | onElse
  | onCatch
  | onEnd
  deriving DecidableEq, Repr

/-- What stands behind an opcode. -/
inductive Immediate where
  | index (desc : String)
  | funcIndex (desc : String)
  | sigIndex (desc : String)
  | reserved (desc : String)
  | blockType (desc : String)
  | targets
  | s32 (desc : String)
  | s64 (desc : String)
  | f32 (desc : String)
  | f64 (desc : String)
  | v128 (desc : String)
  | u8 (desc : String)

def memoryAccess (desc : String) : List Immediate :=
  [.index (desc ++ " alignment"), .index (desc ++ " offset")]

/-- The features that `ReadFunctionBody` checks. -/
inductive Feature where
  | always | exceptions | satFloatToInt | signExtension | simd

/-- `Opcode::IsEnabled`, for the opcodes whose feature is checked. -/
def Features.enabled (features : Features) : Feature -> Bool
  | .always => true
  | .exceptions => features.exceptions
  | .satFloatToInt => features.satFloatToInt
  | .signExtension => features.signExtension
  | .simd => features.simd

/-- The opcodes of one case, by prefix and code. -/
structure OpcodeCase where
  first : Nat
  last : Nat
  immediates : List Immediate
  callback : Callback
  feature : Feature

def opcodeCases : List OpcodeCase := [
  ⟨0x00, 0x00, [], .expr .unreachable, .always⟩,  -- Unreachable
  ⟨0x01, 0x01, [], .expr .nop, .always⟩,  -- Nop
  ⟨0x02, 0x02, [.blockType "block signature type"], .construct .block, .always⟩,  -- Block
  ⟨0x03, 0x03, [.blockType "loop signature type"], .construct .loop, .always⟩,  -- Loop
  ⟨0x04, 0x04, [.blockType "if signature type"], .construct .if_, .always⟩,  -- If
  ⟨0x05, 0x05, [], .onElse, .always⟩,  -- Else
  ⟨0x06, 0x06, [.blockType "try signature type"], .construct .try_, .exceptions⟩,  -- Try
  ⟨0x07, 0x07, [], .onCatch, .exceptions⟩,  -- Catch
  ⟨0x08, 0x08, [.index "exception index"], .expr .throw, .exceptions⟩,  -- Throw
  ⟨0x09, 0x09, [], .expr .rethrow, .exceptions⟩,  -- Rethrow
  ⟨0x0a, 0x0a, [.blockType "if signature type", .index "exception index"],
    .construct .ifExcept, .exceptions⟩,  -- IfExcept
  ⟨0x0b, 0x0b, [], .onEnd, .always⟩,  -- End
  ⟨0x0c, 0x0c, [.index "br depth"], .expr .br, .always⟩,  -- Br
  ⟨0x0d, 0x0d, [.index "br_if depth"], .expr .brIf, .always⟩,  -- BrIf
  ⟨0x0e, 0x0e, [.targets], .expr .brTable, .always⟩,  -- BrTable
  ⟨0x0f, 0x0f, [], .expr .return_, .always⟩,  -- Return
  ⟨0x10, 0x10, [.funcIndex "call function index"], .expr .call, .always⟩,  -- Call
  ⟨0x11, 0x11, [.sigIndex "call_indirect signature index", .reserved "call_indirect reserved"],
    .expr .callIndirect, .always⟩,  -- CallIndirect
  ⟨0x1a, 0x1a, [], .expr .drop, .always⟩,  -- Drop
  ⟨0x1b, 0x1b, [], .expr .select, .always⟩,  -- Select
  ⟨0x20, 0x20, [.index "get_local local index"], .expr .getLocal, .always⟩,  -- GetLocal
  ⟨0x21, 0x21, [.index "set_local local index"], .expr .setLocal, .always⟩,  -- SetLocal
  ⟨0x22, 0x22, [.index "tee_local local index"], .expr .teeLocal, .always⟩,  -- TeeLocal
  ⟨0x23, 0x23, [.index "get_global global index"], .expr .getGlobal, .always⟩,  -- GetGlobal
  ⟨0x24, 0x24, [.index "set_global global index"], .expr .setGlobal, .always⟩,  -- SetGlobal
  ⟨0x28, 0x35, memoryAccess "load", .expr .load, .always⟩,  -- I32Load .. I64Load32U
  ⟨0x36, 0x3e, memoryAccess "store", .expr .store, .always⟩,  -- I32Store .. I64Store32
  ⟨0x3f, 0x3f, [.reserved "memory.size reserved"], .expr .memorySize, .always⟩,  -- MemorySize
  ⟨0x40, 0x40, [.reserved "memory.grow reserved"], .expr .memoryGrow, .always⟩,  -- MemoryGrow
  ⟨0x41, 0x41, [.s32 "i32.const value"], .expr .const, .always⟩,  -- I32Const
  ⟨0x42, 0x42, [.s64 "i64.const value"], .expr .const, .always⟩,  -- I64Const
  ⟨0x43, 0x43, [.f32 "f32.const value"], .expr .const, .always⟩,  -- F32Const
  ⟨0x44, 0x44, [.f64 "f64.const value"], .expr .const, .always⟩,  -- F64Const
  ⟨0x45, 0x45, [], .expr .convert, .always⟩,  -- I32Eqz
  ⟨0x46, 0x4f, [], .expr .compare, .always⟩,  -- I32Eq .. I32GeU
  ⟨0x50, 0x50, [], .expr .convert, .always⟩,  -- I64Eqz
  ⟨0x51, 0x66, [], .expr .compare, .always⟩,  -- I64Eq .. F64Ge
  ⟨0x67, 0x69, [], .expr .unary, .always⟩,  -- I32Clz .. I32Popcnt
  ⟨0x6a, 0x78, [], .expr .binary, .always⟩,  -- I32Add .. I32Rotr
  ⟨0x79, 0x7b, [], .expr .unary, .always⟩,  -- I64Clz .. I64Popcnt
  ⟨0x7c, 0x8a, [], .expr .binary, .always⟩,  -- I64Add .. I64Rotr
  ⟨0x8b, 0x91, [], .expr .unary, .always⟩,  -- F32Abs .. F32Sqrt
  ⟨0x92, 0x98, [], .expr .binary, .always⟩,  -- F32Add .. F32Copysign
  ⟨0x99, 0x9f, [], .expr .unary, .always⟩,  -- F64Abs .. F64Sqrt
  ⟨0xa0, 0xa6, [], .expr .binary, .always⟩,  -- F64Add .. F64Copysign
  ⟨0xa7, 0xbf, [], .expr .convert, .always⟩,  -- I32WrapI64 .. F64ReinterpretI64
  ⟨0xc0, 0xc4, [], .expr .unary, .signExtension⟩,  -- I32Extend8S .. I64Extend32S
  ⟨0xfc00, 0xfc07, [], .expr .convert, .satFloatToInt⟩,  -- I32TruncSSatF32 .. I64TruncUSatF64
  ⟨0xfd00, 0xfd00, [.v128 "v128.const value"], .expr .const, .simd⟩,  -- V128Const
  ⟨0xfd01, 0xfd01, memoryAccess "load", .expr .load, .always⟩,  -- V128Load
  ⟨0xfd02, 0xfd02, memoryAccess "store", .expr .store, .always⟩,  -- V128Store
  ⟨0xfd03, 0xfd08, [], .expr .unary, .simd⟩,  -- I8X16Splat .. F64X2Splat
  ⟨0xfd09, 0xfd16, [.u8 "Lane idx"],
    .expr .simdLaneOp, .simd⟩,  -- I8X16ExtractLaneS .. F64X2ReplaceLane
  ⟨0xfd17, 0xfd17, [.v128 "Lane idx [16]"], .expr .simdShuffleOp, .simd⟩,  -- V8X16Shuffle
  ⟨0xfd18, 0xfd22, [], .expr .binary, .simd⟩,  -- I8X16Add .. I32X4Mul
  ⟨0xfd23, 0xfd26, [], .expr .unary, .simd⟩,  -- I8X16Neg .. I64X2Neg
  ⟨0xfd27, 0xfd3d, [], .expr .binary, .simd⟩,  -- I8X16AddSaturateS .. V128Xor
  ⟨0xfd3e, 0xfd3e, [], .expr .unary, .simd⟩,  -- V128Not
  ⟨0xfd3f, 0xfd3f, [], .expr .ternary, .simd⟩,  -- V128BitSelect
  ⟨0xfd40, 0xfd47, [], .expr .unary, .simd⟩,  -- I8X16AnyTrue .. I64X2AllTrue
  ⟨0xfd48, 0xfd71, [], .expr .compare, .simd⟩,  -- I8X16Eq .. F64X2Ge
  ⟨0xfd72, 0xfd75, [], .expr .unary, .simd⟩,  -- F32X4Neg .. F64X2Abs
  ⟨0xfd76, 0xfd81, [], .expr .binary, .simd⟩,  -- F32X4Min .. F64X2Mul
  ⟨0xfd82, 0xfd83, [], .expr .unary, .simd⟩,  -- F32X4Sqrt .. F64X2Sqrt
  ⟨0xfd84, 0xfd8b, [], .expr .convert, .simd⟩,  -- F32X4ConvertSI32X4 .. I64X2TruncUF64X2Sat
  ⟨0xfe00, 0xfe00, memoryAccess "load", .expr .atomicWake, .always⟩,  -- AtomicWake
  ⟨0xfe01, 0xfe02, memoryAccess "load",
    .expr .atomicWait, .always⟩,  -- I32AtomicWait .. I64AtomicWait
  ⟨0xfe10, 0xfe16, memoryAccess "load",
    .expr .atomicLoad, .always⟩,  -- I32AtomicLoad .. I64AtomicLoad32U
  ⟨0xfe17, 0xfe1d, memoryAccess "store",
    .expr .atomicStore, .always⟩,  -- I32AtomicStore .. I64AtomicStore32
  ⟨0xfe1e, 0xfe47, memoryAccess "memory",
    .expr .atomicRmw, .always⟩,  -- I32AtomicRmwAdd .. I64AtomicRmw32UXchg
  ⟨0xfe48, 0xfe4e, memoryAccess "memory",
    .expr .atomicRmwCmpxchg, .always⟩  -- I32AtomicRmwCmpxchg .. I64AtomicRmw32UCmpxchg
]

/-- The case of an opcode, if `ReadFunctionBody` has one. -/
def opcodeCase (prefixCode : Nat) : Option OpcodeCase :=
  opcodeCases.find? fun row => decide (row.first ≤ prefixCode) && decide (prefixCode ≤ row.last)

end Binary
end WasmSandboxing
