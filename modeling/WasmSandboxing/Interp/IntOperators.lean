import WasmSandboxing.Interp.Thread
import Mathlib.Algebra.Ring.Int.Defs

namespace WasmSandboxing
namespace Interp

open Wasm

/-!
# Integer operators

The functions that `Binop`, `BinopTrap` and `Unop` are called with for an
integer opcode.  An instance of a template is at 32 or at 64 bits, and where
the signedness of `T` matters there is one definition for each.
-/

section Templates

variable {width : Nat}

/-- `ToRep(bool)` -/
def toRep (truth : Bool) : BitVec 32 := if truth then 1 else 0

/-- `std::numeric_limits<T>::min()` of a signed `T` -/
def least (width : Nat) : ℤ := -2 ^ (width - 1)

def isNormalDivRemS (width : Nat) (lhs rhs : ℤ) : Bool := !(lhs == least width && rhs == -1)

/-- The quotient of a normal division is in range. -/
def intDivS (lhsRep rhsRep : BitVec width) : Except Result (BitVec width) :=
  let lhs := lhsRep.toInt
  let rhs := rhsRep.toInt
  if rhs = 0 then .error .trapIntegerDivideByZero
  else if !isNormalDivRemS width lhs rhs then .error .trapIntegerOverflow
  else .ok (BitVec.ofInt width (lhs.tdiv rhs))

def intRemS (lhsRep rhsRep : BitVec width) : Except Result (BitVec width) :=
  let lhs := lhsRep.toInt
  let rhs := rhsRep.toInt
  if rhs = 0 then .error .trapIntegerDivideByZero
  else if isNormalDivRemS width lhs rhs then .ok (BitVec.ofInt width (lhs.tmod rhs))
  else .ok 0

def intDivU (lhsRep rhsRep : BitVec width) : Except Result (BitVec width) :=
  if rhsRep = 0 then .error .trapIntegerDivideByZero else .ok (lhsRep / rhsRep)

def intRemU (lhsRep rhsRep : BitVec width) : Except Result (BitVec width) :=
  if rhsRep = 0 then .error .trapIntegerDivideByZero else .ok (lhsRep % rhsRep)

/-- `FromRep<T>(rhs_rep) & mask` -/
def amount (rhsRep : BitVec width) : Nat := (rhsRep &&& BitVec.ofNat width (width - 1)).toNat

def intShl (lhsRep rhsRep : BitVec width) : BitVec width := lhsRep <<< amount rhsRep

/-- `IntShr<T>` for an unsigned `T` -/
def intShrU (lhsRep rhsRep : BitVec width) : BitVec width := lhsRep >>> amount rhsRep

/-- `IntShr<T>` for a signed `T` -/
def intShrS (lhsRep rhsRep : BitVec width) : BitVec width := lhsRep.sshiftRight (amount rhsRep)

def intRotl (lhsRep rhsRep : BitVec width) : BitVec width :=
  if amount rhsRep = 0 then lhsRep
  else (lhsRep <<< amount rhsRep) ||| (lhsRep >>> (width - 1 + 1 - amount rhsRep))

def intRotr (lhsRep rhsRep : BitVec width) : BitVec width :=
  if amount rhsRep = 0 then lhsRep
  else (lhsRep >>> amount rhsRep) ||| (lhsRep <<< (width - 1 + 1 - amount rhsRep))

/-- `Clz`, `x ? __builtin_clz(x) : sizeof(x) * 8` -/
def clz (x : BitVec width) : BitVec width := if x = 0 then BitVec.ofNat width width else x.clz

def ctz (x : BitVec width) : BitVec width := if x = 0 then BitVec.ofNat width width else x.ctz

def popcount (x : BitVec width) : BitVec width := x.cpop

/-- `Eq<T>` and its like for an unsigned `T` -/
def compareU (holds : ℤ -> ℤ -> Bool) (lhsRep rhsRep : BitVec width) : BitVec 32 :=
  toRep (holds lhsRep.toNat rhsRep.toNat)

/-- `Lt<T>` and its like for a signed `T` -/
def compareS (holds : ℤ -> ℤ -> Bool) (lhsRep rhsRep : BitVec width) : BitVec 32 :=
  toRep (holds lhsRep.toInt rhsRep.toInt)

def intEqz (vRep : BitVec width) : BitVec 32 := toRep (vRep == 0)

end Templates

/-! ## Instances -/

/-- `PopRep` and `PushRep` at a number of bits. -/
structure RepType where
  width : Nat
  fromValue : Value -> BitVec width
  toValue : BitVec width -> Value

namespace RepType

def u32 : RepType := ⟨32, Value.i32, Value.ofI32⟩

def u64 : RepType := ⟨64, id, id⟩

variable (type : RepType)

/-- `Binop` -/
def binop (func : BitVec type.width -> BitVec type.width -> BitVec type.width) (lhs rhs : Value) :
    Except Result Value :=
  .ok (type.toValue (func (type.fromValue lhs) (type.fromValue rhs)))

/-- `BinopTrap` -/
def binopTrap
    (func : BitVec type.width -> BitVec type.width -> Except Result (BitVec type.width))
    (lhs rhs : Value) : Except Result Value :=
  (func (type.fromValue lhs) (type.fromValue rhs)).map type.toValue

/-- `Binop` with a result of 32 bits. -/
def relop (func : BitVec type.width -> BitVec type.width -> BitVec 32) (lhs rhs : Value) :
    Except Result Value :=
  .ok (.ofI32 (func (type.fromValue lhs) (type.fromValue rhs)))

/-- `Push<T>(func(Pop<T>()))` -/
def unop (func : BitVec type.width -> BitVec type.width) (value : Value) : Except Result Value :=
  .ok (type.toValue (func (type.fromValue value)))

end RepType

section Dispatch

open RepType

variable (others : Numerics)

/-- The integer cases of `Thread::Run`. -/
def runBinary : BinaryOpcode -> Value -> Value -> Except Result Value
  | .i32Add => u32.binop (· + ·)
  | .i32Sub => u32.binop (· - ·)
  | .i32Mul => u32.binop (· * ·)
  | .i32DivS => u32.binopTrap intDivS
  | .i32DivU => u32.binopTrap intDivU
  | .i32RemS => u32.binopTrap intRemS
  | .i32RemU => u32.binopTrap intRemU
  | .i32And => u32.binop (· &&& ·)
  | .i32Or => u32.binop (· ||| ·)
  | .i32Xor => u32.binop (· ^^^ ·)
  | .i32Shl => u32.binop intShl
  | .i32ShrU => u32.binop intShrU
  | .i32ShrS => u32.binop intShrS
  | .i32Rotr => u32.binop intRotr
  | .i32Rotl => u32.binop intRotl
  | .i64Add => u64.binop (· + ·)
  | .i64Sub => u64.binop (· - ·)
  | .i64Mul => u64.binop (· * ·)
  | .i64DivS => u64.binopTrap intDivS
  | .i64DivU => u64.binopTrap intDivU
  | .i64RemS => u64.binopTrap intRemS
  | .i64RemU => u64.binopTrap intRemU
  | .i64And => u64.binop (· &&& ·)
  | .i64Or => u64.binop (· ||| ·)
  | .i64Xor => u64.binop (· ^^^ ·)
  | .i64Shl => u64.binop intShl
  | .i64ShrU => u64.binop intShrU
  | .i64ShrS => u64.binop intShrS
  | .i64Rotr => u64.binop intRotr
  | .i64Rotl => u64.binop intRotl
  | opcode => others.binary opcode

def runCompare : CompareOpcode -> Value -> Value -> Except Result Value
  | .i32Eq => u32.relop (compareU fun lhs rhs => lhs == rhs)
  | .i32Ne => u32.relop (compareU fun lhs rhs => lhs != rhs)
  | .i32LtS => u32.relop (compareS fun lhs rhs => lhs < rhs)
  | .i32LeS => u32.relop (compareS fun lhs rhs => lhs ≤ rhs)
  | .i32LtU => u32.relop (compareU fun lhs rhs => lhs < rhs)
  | .i32LeU => u32.relop (compareU fun lhs rhs => lhs ≤ rhs)
  | .i32GtS => u32.relop (compareS fun lhs rhs => lhs > rhs)
  | .i32GeS => u32.relop (compareS fun lhs rhs => lhs ≥ rhs)
  | .i32GtU => u32.relop (compareU fun lhs rhs => lhs > rhs)
  | .i32GeU => u32.relop (compareU fun lhs rhs => lhs ≥ rhs)
  | .i64Eq => u64.relop (compareU fun lhs rhs => lhs == rhs)
  | .i64Ne => u64.relop (compareU fun lhs rhs => lhs != rhs)
  | .i64LtS => u64.relop (compareS fun lhs rhs => lhs < rhs)
  | .i64LeS => u64.relop (compareS fun lhs rhs => lhs ≤ rhs)
  | .i64LtU => u64.relop (compareU fun lhs rhs => lhs < rhs)
  | .i64LeU => u64.relop (compareU fun lhs rhs => lhs ≤ rhs)
  | .i64GtS => u64.relop (compareS fun lhs rhs => lhs > rhs)
  | .i64GeS => u64.relop (compareS fun lhs rhs => lhs ≥ rhs)
  | .i64GtU => u64.relop (compareU fun lhs rhs => lhs > rhs)
  | .i64GeU => u64.relop (compareU fun lhs rhs => lhs ≥ rhs)
  | opcode => others.compare opcode

def runUnary : UnaryOpcode -> Value -> Except Result Value
  | .i32Clz => u32.unop clz
  | .i32Ctz => u32.unop ctz
  | .i32Popcnt => u32.unop popcount
  | .i64Clz => u64.unop clz
  | .i64Ctz => u64.unop ctz
  | .i64Popcnt => u64.unop popcount
  | opcode => others.unary opcode

def runConvert : ConvertOpcode -> Value -> Except Result Value
  | .i32Eqz => fun value => .ok (.ofI32 (intEqz value.i32))
  | .i64Eqz => fun value => .ok (.ofI32 (intEqz value))
  | .i32WrapI64 => fun value => .ok (.ofI32 (value.setWidth 32))
  | .i64ExtendSI32 => fun value => .ok (value.i32.signExtend 64)
  | .i64ExtendUI32 => fun value => .ok (value.i32.setWidth 64)
  | opcode => others.convert opcode

/-- The operators of the interpreter, with those on floats left open. -/
def withIntegers : Numerics where
  unary := runUnary others
  binary := runBinary others
  compare := runCompare others
  convert := runConvert others

end Dispatch

instance : Inhabited Numerics where
  default :=
    { unary := fun _ _ => .ok 0
      binary := fun _ _ _ => .ok 0
      compare := fun _ _ _ => .ok 0
      convert := fun _ _ => .ok 0 }

end Interp
end WasmSandboxing
