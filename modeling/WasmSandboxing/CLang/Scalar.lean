import WasmSandboxing.Foundation.Float

namespace WasmSandboxing
namespace CLang

open Foundation

/-!
# Scalar C expressions

The arithmetic types of an LP64 machine after integer promotion, the usual
arithmetic conversions, and expressions over them.  Signed overflow, division
by zero, a shift by the width or more, a conversion of an unrepresentable
float and a read of an uninitialised variable are undefined: an evaluation
that would do one of them stops with `undefined` and gives no value.
-/

/-- `int`, `unsigned`, `long`, `unsigned long`, `float` and `double`, in the
order of the usual arithmetic conversions. -/
inductive CType where
  | s32 | u32 | s64 | u64 | f32 | f64
  deriving DecidableEq, Repr

namespace CType

def rank : CType -> Nat
  | s32 => 0 | u32 => 1 | s64 => 2 | u64 => 3 | f32 => 4 | f64 => 5

/-- The type both operands of an arithmetic operator are converted to.  Every
`unsigned` value is a `long`, so the conversions follow the rank. -/
def common (first second : CType) : CType :=
  if first.rank ≤ second.rank then second else first

/-- Whether an integer is in the range of an integer type. -/
def represents : CType -> ℤ -> Bool
  | s32, n => decide (-2 ^ 31 ≤ n ∧ n < 2 ^ 31)
  | u32, n => decide (0 ≤ n ∧ n < 2 ^ 32)
  | s64, n => decide (-2 ^ 63 ≤ n ∧ n < 2 ^ 63)
  | u64, n => decide (0 ≤ n ∧ n < 2 ^ 64)
  | f32, _ => false
  | f64, _ => false

end CType

inductive CValue where
  | s32 (bits : BitVec 32)
  | u32 (bits : BitVec 32)
  | s64 (bits : BitVec 64)
  | u64 (bits : BitVec 64)
  | f32 (bits : BitVec 32)
  | f64 (bits : BitVec 64)
  deriving DecidableEq, Repr

namespace CValue

def type : CValue -> CType
  | s32 _ => .s32 | u32 _ => .u32 | s64 _ => .s64 | u64 _ => .u64 | f32 _ => .f32 | f64 _ => .f64

/-- The result of a comparison or a logical operator. -/
def ofBool (truth : Bool) : CValue := s32 (if truth then 1 else 0)

def single (bits : BitVec 32) : FloatValue := FloatFormat.single.decode bits.toNat
def double (bits : BitVec 64) : FloatValue := FloatFormat.double.decode bits.toNat

/-- A decimal literal without suffix has the first of `int` and `long` that
represents it. -/
def decimal (number : Nat) : CValue :=
  if number < 2 ^ 31 then s32 (BitVec.ofNat 32 number) else s64 (BitVec.ofNat 64 number)

/-- Compares unequal to zero; a NaN does. -/
def truth : CValue -> Bool
  | s32 bits | u32 bits => decide (bits ≠ 0)
  | s64 bits | u64 bits => decide (bits ≠ 0)
  | f32 bits => !FloatValue.eq (single bits) (.finite 0)
  | f64 bits => !FloatValue.eq (double bits) (.finite 0)

/-- Conversion of an integer: modulo the width of an integer type, to nearest
in a floating type. -/
def ofInt (target : CType) (number : ℤ) : CValue :=
  match target with
  | .s32 => s32 (BitVec.ofInt 32 number)
  | .u32 => u32 (BitVec.ofInt 32 number)
  | .s64 => s64 (BitVec.ofInt 64 number)
  | .u64 => u64 (BitVec.ofInt 64 number)
  | .f32 => f32 (BitVec.ofNat 32 (FloatFormat.single.roundInt number))
  | .f64 => f64 (BitVec.ofNat 64 (FloatFormat.double.roundInt number))

/-- Conversion of a float to an integer type: the fraction is dropped, and a
value outside the type is undefined. -/
def ofFloat (target : CType) : FloatValue -> Option CValue
  | .finite value =>
      if target.represents (truncate value) then some (ofInt target (truncate value)) else none
  | _ => none

def convert (fpu : FloatUnit) (target : CType) : CValue -> Option CValue
  | s32 bits => some (ofInt target bits.toInt)
  | u32 bits => some (ofInt target bits.toNat)
  | s64 bits => some (ofInt target bits.toInt)
  | u64 bits => some (ofInt target bits.toNat)
  | f32 bits =>
      match target with
      | .f32 => some (f32 bits)
      | .f64 => some (f64 (fpu.promote bits))
      | _ => ofFloat target (single bits)
  | f64 bits =>
      match target with
      | .f32 => some (f32 (fpu.demote bits))
      | .f64 => some (f64 bits)
      | _ => ofFloat target (double bits)

/-- A conversion to a value's own type leaves it alone. -/
@[simp] theorem convert_type (fpu : FloatUnit) (value : CValue) :
    value.convert fpu value.type = some value := by
  cases value <;> simp [convert, type, ofInt, BitVec.ofInt_toInt]

end CValue

/-! ## Operators -/

inductive BinaryOp where
  | add | sub | mul | div | rem | bitand | bitor | bitxor | shl | shr
  | eq | ne | lt | le | gt | ge
  deriving DecidableEq, Repr

/-- One arithmetic operator at unsigned, signed and floating operands of equal
type.  `none` is undefined behaviour, or no such operator. -/
structure Arithmetic where
  unsigned : forall {width : Nat}, BitVec width -> BitVec width -> Option (BitVec width)
  signed : forall {width : Nat}, BitVec width -> BitVec width -> Option (BitVec width)
  floating : forall {width : Nat},
    FloatArithmetic width -> BitVec width -> BitVec width -> Option (BitVec width)

namespace Arithmetic

/-- A signed result exists when it is representable. -/
def checked {width : Nat} (number : ℤ) : Option (BitVec width) :=
  if -2 ^ (width - 1) ≤ number ∧ number < 2 ^ (width - 1) then some (BitVec.ofInt width number)
  else none

def apply (fpu : FloatUnit) (operator : Arithmetic) : CValue -> CValue -> Option CValue
  | .s32 first, .s32 second => (operator.signed first second).map .s32
  | .u32 first, .u32 second => (operator.unsigned first second).map .u32
  | .s64 first, .s64 second => (operator.signed first second).map .s64
  | .u64 first, .u64 second => (operator.unsigned first second).map .u64
  | .f32 first, .f32 second => (operator.floating fpu.single first second).map .f32
  | .f64 first, .f64 second => (operator.floating fpu.double first second).map .f64
  | _, _ => none

def add : Arithmetic where
  unsigned first second := some (first + second)
  signed first second := checked (first.toInt + second.toInt)
  floating unit first second := some (unit.add first second)

def sub : Arithmetic where
  unsigned first second := some (first - second)
  signed first second := checked (first.toInt - second.toInt)
  floating unit first second := some (unit.sub first second)

def mul : Arithmetic where
  unsigned first second := some (first * second)
  signed first second := checked (first.toInt * second.toInt)
  floating unit first second := some (unit.mul first second)

/-- Integer division truncates; the least value divided by `-1` overflows. -/
def div : Arithmetic where
  unsigned first second := if second = 0 then none else some (first / second)
  signed first second :=
    if second = 0 then none else checked (first.toInt.tdiv second.toInt)
  floating unit first second := some (unit.div first second)

/-- A remainder is undefined where the quotient is. -/
def rem : Arithmetic where
  unsigned first second := if second = 0 then none else some (first % second)
  signed {width} first second :=
    if second = 0 then none
    else (checked (first.toInt.tdiv second.toInt) : Option (BitVec width)).bind
      fun _ => checked (first.toInt.tmod second.toInt)
  floating _ _ _ := none

def bitand : Arithmetic where
  unsigned first second := some (first &&& second)
  signed first second := some (first &&& second)
  floating _ _ _ := none

def bitor : Arithmetic where
  unsigned first second := some (first ||| second)
  signed first second := some (first ||| second)
  floating _ _ _ := none

def bitxor : Arithmetic where
  unsigned first second := some (first ^^^ second)
  signed first second := some (first ^^^ second)
  floating _ _ _ := none

end Arithmetic

/-- A comparison on integers and on floats. -/
structure Comparison where
  integer : ℤ -> ℤ -> Bool
  floating : FloatValue -> FloatValue -> Bool

namespace Comparison

def apply (comparison : Comparison) : CValue -> CValue -> Option CValue
  | .s32 first, .s32 second => some (.ofBool (comparison.integer first.toInt second.toInt))
  | .u32 first, .u32 second => some (.ofBool (comparison.integer first.toNat second.toNat))
  | .s64 first, .s64 second => some (.ofBool (comparison.integer first.toInt second.toInt))
  | .u64 first, .u64 second => some (.ofBool (comparison.integer first.toNat second.toNat))
  | .f32 first, .f32 second =>
      some (.ofBool (comparison.floating (CValue.single first) (CValue.single second)))
  | .f64 first, .f64 second =>
      some (.ofBool (comparison.floating (CValue.double first) (CValue.double second)))
  | _, _ => none

def eq : Comparison := ⟨fun first second => decide (first = second), FloatValue.eq⟩
def ne : Comparison :=
  ⟨fun first second => decide (first ≠ second), fun first second => !FloatValue.eq first second⟩
def lt : Comparison := ⟨fun first second => decide (first < second), FloatValue.lt⟩
def le : Comparison := ⟨fun first second => decide (first ≤ second), FloatValue.le⟩
def gt : Comparison := ⟨fun first second => decide (second < first), fun first second =>
  FloatValue.lt second first⟩
def ge : Comparison := ⟨fun first second => decide (second ≤ first), fun first second =>
  FloatValue.le second first⟩

end Comparison

/-- The shift count of a shift of a `width`-bit operand. -/
def shiftCount (width : Nat) (count : CValue) : Option Nat :=
  let number : Option ℤ := match count with
    | .s32 bits => some bits.toInt
    | .u32 bits => some bits.toNat
    | .s64 bits => some bits.toInt
    | .u64 bits => some bits.toNat
    | .f32 _ | .f64 _ => none
  number.bind fun number =>
    if 0 ≤ number ∧ number < width then some number.toNat else none

/-- A left shift of a signed operand must keep its value's range. -/
def shiftLeft (value count : CValue) : Option CValue :=
  match value with
  | .u32 bits => (shiftCount 32 count).map fun count => .u32 (bits <<< count)
  | .u64 bits => (shiftCount 64 count).map fun count => .u64 (bits <<< count)
  | .s32 bits => (shiftCount 32 count).bind fun count =>
      if bits.toInt < 0 then none else (Arithmetic.checked (bits.toInt * 2 ^ count)).map .s32
  | .s64 bits => (shiftCount 64 count).bind fun count =>
      if bits.toInt < 0 then none else (Arithmetic.checked (bits.toInt * 2 ^ count)).map .s64
  | .f32 _ | .f64 _ => none

/-- A right shift of a signed operand is arithmetic, as compilers for LP64
machines define it. -/
def shiftRight (value count : CValue) : Option CValue :=
  match value with
  | .u32 bits => (shiftCount 32 count).map fun count => .u32 (bits >>> count)
  | .u64 bits => (shiftCount 64 count).map fun count => .u64 (bits >>> count)
  | .s32 bits => (shiftCount 32 count).map fun count => .s32 (bits.sshiftRight count)
  | .s64 bits => (shiftCount 64 count).map fun count => .s64 (bits.sshiftRight count)
  | .f32 _ | .f64 _ => none

namespace BinaryOp

def isShift : BinaryOp -> Bool
  | shl | shr => true
  | _ => false

def isComparison : BinaryOp -> Bool
  | eq | ne | lt | le | gt | ge => true
  | _ => false

/-- The operator at operands of equal type, or at any two for a shift. -/
def apply (fpu : FloatUnit) : BinaryOp -> CValue -> CValue -> Option CValue
  | add => Arithmetic.add.apply fpu
  | sub => Arithmetic.sub.apply fpu
  | mul => Arithmetic.mul.apply fpu
  | div => Arithmetic.div.apply fpu
  | rem => Arithmetic.rem.apply fpu
  | bitand => Arithmetic.bitand.apply fpu
  | bitor => Arithmetic.bitor.apply fpu
  | bitxor => Arithmetic.bitxor.apply fpu
  | shl => shiftLeft
  | shr => shiftRight
  | eq => Comparison.eq.apply
  | ne => Comparison.ne.apply
  | lt => Comparison.lt.apply
  | le => Comparison.le.apply
  | gt => Comparison.gt.apply
  | ge => Comparison.ge.apply

/-- The type of the result at operands of the given types. -/
def type (operator : BinaryOp) (first second : CType) : CType :=
  if operator.isComparison then .s32
  else if operator.isShift then first
  else first.common second

/-- Convert the operands as the operator requires, then apply it. -/
def run (fpu : FloatUnit) (operator : BinaryOp) (first second : CValue) : Option CValue :=
  if operator.isShift then operator.apply fpu first second
  else
    let common := first.type.common second.type
    (first.convert fpu common).bind fun first =>
      (second.convert fpu common).bind fun second => operator.apply fpu first second

end BinaryOp

inductive UnaryOp where
  | neg | not
  deriving DecidableEq, Repr

namespace UnaryOp

def run : UnaryOp -> CValue -> Option CValue
  | neg, .s32 bits => (Arithmetic.checked (-bits.toInt)).map .s32
  | neg, .u32 bits => some (.u32 (-bits))
  | neg, .s64 bits => (Arithmetic.checked (-bits.toInt)).map .s64
  | neg, .u64 bits => some (.u64 (-bits))
  | neg, .f32 bits => some (.f32 (bits ^^^ 0x80000000#32))
  | neg, .f64 bits => some (.f64 (bits ^^^ 0x8000000000000000#64))
  | not, value => some (.ofBool (!value.truth))

def type : UnaryOp -> CType -> CType
  | neg, operand => operand
  | not, _ => .s32

end UnaryOp

/-! ## Library functions -/

/-- Unary functions of the compiler and of `math.h`, and reinterpretations by
`memcpy`. -/
inductive Function1 where
  | clz | clzll | ctz | ctzll | popcount | popcountll
  | fabsf | fabs | sqrtf | sqrt | ceilf | ceil | floorf | floor | truncf | trunc
  | nearbyintf | nearbyint | signbitf | signbit
  | u32OfF32 | f32OfU32 | u64OfF64 | f64OfU64
  deriving DecidableEq, Repr

inductive Function2 where
  | copysignf | copysign
  deriving DecidableEq, Repr

namespace Function1

def parameter : Function1 -> CType
  | clz | ctz | popcount | f32OfU32 => .u32
  | clzll | ctzll | popcountll | f64OfU64 => .u64
  | fabsf | sqrtf | ceilf | floorf | truncf | nearbyintf | signbitf | u32OfF32 => .f32
  | fabs | sqrt | ceil | floor | trunc | nearbyint | signbit | u64OfF64 => .f64

def result : Function1 -> CType
  | clz | clzll | ctz | ctzll | popcount | popcountll | signbitf | signbit => .s32
  | fabsf | sqrtf | ceilf | floorf | truncf | nearbyintf | f32OfU32 => .f32
  | fabs | sqrt | ceil | floor | trunc | nearbyint | f64OfU64 => .f64
  | u32OfF32 => .u32
  | u64OfF64 => .u64

/-- Counting the leading or trailing zeros of zero is undefined. -/
def apply (fpu : FloatUnit) : Function1 -> CValue -> Option CValue
  | clz, .u32 bits => if bits = 0 then none else some (.s32 bits.clz)
  | clzll, .u64 bits => if bits = 0 then none else some (.s32 (bits.clz.setWidth 32))
  | ctz, .u32 bits => if bits = 0 then none else some (.s32 bits.ctz)
  | ctzll, .u64 bits => if bits = 0 then none else some (.s32 (bits.ctz.setWidth 32))
  | popcount, .u32 bits => some (.s32 bits.cpop)
  | popcountll, .u64 bits => some (.s32 (bits.cpop.setWidth 32))
  | fabsf, .f32 bits => some (.f32 (bits &&& 0x7FFFFFFF#32))
  | fabs, .f64 bits => some (.f64 (bits &&& 0x7FFFFFFFFFFFFFFF#64))
  | sqrtf, .f32 bits => some (.f32 (fpu.single.sqrt bits))
  | sqrt, .f64 bits => some (.f64 (fpu.double.sqrt bits))
  | ceilf, .f32 bits => some (.f32 (fpu.single.ceil bits))
  | ceil, .f64 bits => some (.f64 (fpu.double.ceil bits))
  | floorf, .f32 bits => some (.f32 (fpu.single.floor bits))
  | floor, .f64 bits => some (.f64 (fpu.double.floor bits))
  | truncf, .f32 bits => some (.f32 (fpu.single.trunc bits))
  | trunc, .f64 bits => some (.f64 (fpu.double.trunc bits))
  | nearbyintf, .f32 bits => some (.f32 (fpu.single.nearest bits))
  | nearbyint, .f64 bits => some (.f64 (fpu.double.nearest bits))
  | signbitf, .f32 bits => some (.ofBool bits.msb)
  | signbit, .f64 bits => some (.ofBool bits.msb)
  | u32OfF32, .f32 bits => some (.u32 bits)
  | f32OfU32, .u32 bits => some (.f32 bits)
  | u64OfF64, .f64 bits => some (.u64 bits)
  | f64OfU64, .u64 bits => some (.f64 bits)
  | _, _ => none

end Function1

namespace Function2

def parameter : Function2 -> CType
  | copysignf => .f32
  | copysign => .f64

def result (function : Function2) : CType := function.parameter

def apply : Function2 -> CValue -> CValue -> Option CValue
  | copysignf, .f32 first, .f32 second =>
      some (.f32 ((first &&& 0x7FFFFFFF#32) ||| (second &&& 0x80000000#32)))
  | copysign, .f64 first, .f64 second =>
      some (.f64 ((first &&& 0x7FFFFFFFFFFFFFFF#64) ||| (second &&& 0x8000000000000000#64)))
  | _, _, _ => none

end Function2

/-! ## Expressions -/

/-- Expressions over variables `Var`, with traps that carry a `Code`.  A trap
is the call of a function that does not return, in a position of type `int`. -/
inductive Expr (Var : Type u) (Code : Type v) where
  | var (name : Var)
  | lit (value : CValue)
  | unary (operator : UnaryOp) (operand : Expr Var Code)
  | binary (operator : BinaryOp) (left right : Expr Var Code)
  | and (left right : Expr Var Code)
  | or (left right : Expr Var Code)
  | cast (target : CType) (operand : Expr Var Code)
  | cond (condition yes no : Expr Var Code)
  | call1 (function : Function1) (argument : Expr Var Code)
  | call2 (function : Function2) (first second : Expr Var Code)
  | trap (code : Code)
  deriving DecidableEq, Repr

/-- Why an evaluation gave no value. -/
inductive Stop (Code : Type v) where
  | trap (code : Code)
  | undefined
  deriving DecidableEq, Repr

namespace Expr

variable {Var : Type u} {Code : Type v}

/-- The variables in the order of the text. -/
def vars : Expr Var Code -> List Var
  | var name => [name]
  | lit _ | trap _ => []
  | unary _ operand | cast _ operand | call1 _ operand => vars operand
  | binary _ left right | and left right | or left right | call2 _ left right =>
      vars left ++ vars right
  | cond condition yes no => vars condition ++ (vars yes ++ vars no)

/-- The static type, given the declared types of the variables. -/
def typeOf (declared : Var -> CType) : Expr Var Code -> CType
  | var name => declared name
  | lit value => value.type
  | unary operator operand => operator.type (typeOf declared operand)
  | binary operator left right => operator.type (typeOf declared left) (typeOf declared right)
  | and _ _ | or _ _ => .s32
  | cast target _ => target
  | cond _ yes no => (typeOf declared yes).common (typeOf declared no)
  | call1 function _ => function.result
  | call2 function _ _ => function.result
  | trap _ => .s32

@[simp] theorem ok_bind (value : CValue) (next : CValue -> Except (Stop Code) CValue) :
    (Except.ok value >>= next) = next value := rfl

@[simp] theorem error_bind (reason : Stop Code) (next : CValue -> Except (Stop Code) CValue) :
    (Except.error reason >>= next) = .error reason := rfl

/-- A missing value is undefined behaviour. -/
def defined (result : Option CValue) : Except (Stop Code) CValue :=
  match result with
  | some value => .ok value
  | none => .error .undefined

@[simp] theorem defined_some (value : CValue) :
    (defined (some value) : Except (Stop Code) CValue) = .ok value := rfl

@[simp] theorem defined_none : (defined none : Except (Stop Code) CValue) = .error .undefined := rfl

/-- Evaluate in a valuation that is `none` at uninitialised variables.  The
branch of a conditional that is not selected is not evaluated, and the selected
one is converted to the common type of both. -/
def eval (fpu : FloatUnit) (declared : Var -> CType) (valuation : Var -> Option CValue) :
    Expr Var Code -> Except (Stop Code) CValue
  | var name => defined (valuation name)
  | lit value => .ok value
  | unary operator operand => do
      let operand <- eval fpu declared valuation operand
      defined (operator.run operand)
  | binary operator left right => do
      let left <- eval fpu declared valuation left
      let right <- eval fpu declared valuation right
      defined (operator.run fpu left right)
  | and left right => do
      let left <- eval fpu declared valuation left
      if left.truth then
        let right <- eval fpu declared valuation right
        pure (.ofBool right.truth)
      else pure (.ofBool false)
  | or left right => do
      let left <- eval fpu declared valuation left
      if left.truth then pure (.ofBool true)
      else
        let right <- eval fpu declared valuation right
        pure (.ofBool right.truth)
  | cast target operand => do
      let operand <- eval fpu declared valuation operand
      defined (operand.convert fpu target)
  | cond condition yes no => do
      let common := (typeOf declared yes).common (typeOf declared no)
      let condition <- eval fpu declared valuation condition
      let selected <- if condition.truth then eval fpu declared valuation yes
        else eval fpu declared valuation no
      defined (selected.convert fpu common)
  | call1 function argument => do
      let argument <- eval fpu declared valuation argument
      let argument <- defined (argument.convert fpu function.parameter)
      defined (function.apply fpu argument)
  | call2 function first second => do
      let first <- eval fpu declared valuation first
      let second <- eval fpu declared valuation second
      let first <- defined (first.convert fpu function.parameter)
      let second <- defined (second.convert fpu function.parameter)
      defined (function.apply first second)
  | trap code => .error (.trap code)

end Expr

end CLang
end WasmSandboxing
