import Mathlib.Data.Rat.Floor
import Mathlib.Algebra.Order.Field.Power
import Mathlib.Tactic.Linarith
import Mathlib.Tactic.NormNum
import Mathlib.Tactic.Positivity

namespace WasmSandboxing
namespace Foundation

/-!
# Binary interchange floats

Only what conversions and comparisons need: the value of a bit pattern, the
order on values, rounding an integer to a format, and truncation.  Arithmetic
that rounds a rational result is left to the machine, see `FloatUnit`.
-/

/-- A binary interchange format by the widths of its two fields. -/
structure FloatFormat where
  exponentBits : Nat
  mantissaBits : Nat
  deriving DecidableEq, Repr

namespace FloatFormat

def single : FloatFormat := ⟨8, 23⟩
def double : FloatFormat := ⟨11, 52⟩

def bias (format : FloatFormat) : Nat := 2 ^ (format.exponentBits - 1) - 1

def mantissa (format : FloatFormat) (bits : Nat) : Nat := bits % 2 ^ format.mantissaBits

def exponent (format : FloatFormat) (bits : Nat) : Nat :=
  bits / 2 ^ format.mantissaBits % 2 ^ format.exponentBits

/-- The sign bit, which zeros and NaNs carry as well. -/
def signbit (format : FloatFormat) (bits : Nat) : Bool :=
  bits / 2 ^ (format.mantissaBits + format.exponentBits) % 2 == 1

end FloatFormat

/-- What a bit pattern denotes.  The sign of zero and the payload of a NaN are
read from the bits where an operation depends on them. -/
inductive FloatValue where
  | nan
  | infinite (negative : Bool)
  | finite (value : ℚ)
  deriving DecidableEq

namespace FloatValue

def isNaN : FloatValue -> Bool
  | .nan => true
  | _ => false

/-- IEEE equality: a NaN is equal to nothing. -/
def eq : FloatValue -> FloatValue -> Bool
  | .finite first, .finite second => decide (first = second)
  | .infinite first, .infinite second => first == second
  | _, _ => false

/-- IEEE order: a NaN is unordered. -/
def lt : FloatValue -> FloatValue -> Bool
  | .finite first, .finite second => decide (first < second)
  | .infinite true, .finite _ => true
  | .finite _, .infinite false => true
  | .infinite true, .infinite false => true
  | _, _ => false

def le (first second : FloatValue) : Bool := lt first second || eq first second

@[simp] theorem eq_self (value : FloatValue) : eq value value = !value.isNaN := by
  cases value <;> simp [eq, isNaN]

@[simp] theorem lt_finite (first second : ℚ) :
    lt (.finite first) (.finite second) = decide (first < second) := rfl

@[simp] theorem eq_finite (first second : ℚ) :
    eq (.finite first) (.finite second) = decide (first = second) := rfl

@[simp] theorem le_finite (first second : ℚ) :
    le (.finite first) (.finite second) = decide (first ≤ second) := by
  simp [le, le_iff_lt_or_eq]

end FloatValue

namespace FloatFormat

/-- The magnitude of a finite pattern.  A subnormal has no implicit bit and
the exponent of the least normal. -/
def magnitude (format : FloatFormat) (bits : Nat) : ℚ :=
  if format.exponent bits = 0 then
    format.mantissa bits * (2 : ℚ) ^ (1 - (format.bias + format.mantissaBits : ℤ))
  else
    (2 ^ format.mantissaBits + format.mantissa bits : Nat) *
      (2 : ℚ) ^ ((format.exponent bits : ℤ) - (format.bias + format.mantissaBits : ℤ))

def decode (format : FloatFormat) (bits : Nat) : FloatValue :=
  if format.exponent bits = 2 ^ format.exponentBits - 1 then
    if format.mantissa bits = 0 then .infinite (format.signbit bits) else .nan
  else .finite (if format.signbit bits then -format.magnitude bits else format.magnitude bits)

/-- The quiet NaN with the sign clear and no further payload. -/
def canonicalNaN (format : FloatFormat) : Nat :=
  (2 ^ format.exponentBits - 1) * 2 ^ format.mantissaBits + 2 ^ (format.mantissaBits - 1)

/-- Round a natural number to nearest, ties to even.  A carry out of the
mantissa increments the exponent field, which is the next binade. -/
def roundNat (format : FloatFormat) (number : Nat) : Nat :=
  if number = 0 then 0
  else
    let binade := Nat.log2 number
    let significand :=
      if binade ≤ format.mantissaBits then number * 2 ^ (format.mantissaBits - binade)
      else
        let dropped := binade - format.mantissaBits
        let quotient := number / 2 ^ dropped
        let remainder := number % 2 ^ dropped
        let half := 2 ^ (dropped - 1)
        if remainder > half ∨ (remainder = half ∧ quotient % 2 = 1) then quotient + 1
        else quotient
    (format.bias + binade) * 2 ^ format.mantissaBits + significand - 2 ^ format.mantissaBits

/-- Convert an integer: round its magnitude and set the sign. -/
def roundInt (format : FloatFormat) (number : ℤ) : Nat :=
  if number < 0 then
    2 ^ (format.mantissaBits + format.exponentBits) + format.roundNat number.natAbs
  else format.roundNat number.natAbs

example : single.roundInt (-1) = 0xBF800000 := by decide
example : single.roundInt 2147483647 = 0x4F000000 := by decide
example : double.roundInt 2147483647 = 0x41DFFFFFFFC00000 := by decide

/-- A scaled significand that reaches the full significand's bound has a
nonnegative exponent, so it is an integer. -/
private theorem scaled_integral (bits significand : Nat) (exponent : ℤ)
    (bound : significand < 2 ^ bits)
    (large : (2 : ℚ) ^ bits ≤ significand * (2 : ℚ) ^ exponent) :
    ∃ whole : ℤ, (significand : ℚ) * (2 : ℚ) ^ exponent = whole := by
  rcases le_or_gt 0 exponent with nonnegative | negative
  · lift exponent to Nat using nonnegative
    exact ⟨significand * 2 ^ exponent, by push_cast; rfl⟩
  · exfalso
    have small : (2 : ℚ) ^ exponent ≤ 1 := zpow_le_one_of_nonpos₀ one_le_two negative.le
    have bounded : (significand : ℚ) < 2 ^ bits := by exact_mod_cast bound
    have product : (significand : ℚ) * (2 : ℚ) ^ exponent ≤ significand :=
      mul_le_of_le_one_right (Nat.cast_nonneg _) small
    linarith

private theorem magnitude_integral (format : FloatFormat) (bits : Nat)
    (large : (2 : ℚ) ^ (format.mantissaBits + 1) ≤ format.magnitude bits) :
    ∃ whole : ℤ, format.magnitude bits = whole := by
  have mantissaBound : format.mantissa bits < 2 ^ format.mantissaBits :=
    Nat.mod_lt _ (Nat.two_pow_pos _)
  have twice : 2 ^ (format.mantissaBits + 1) = 2 * 2 ^ format.mantissaBits := Nat.pow_succ'
  by_cases subnormal : format.exponent bits = 0
  · rw [magnitude, if_pos subnormal] at large ⊢
    exact scaled_integral _ _ _ (by omega) large
  · rw [magnitude, if_neg subnormal] at large ⊢
    exact scaled_integral _ _ _ (by omega) large

/-- A finite value beyond the exactly representable integers is an integer:
the spacing of the format there is at least one. -/
theorem integral_of_large (format : FloatFormat) (bits : Nat) (value : ℚ)
    (decoded : format.decode bits = .finite value)
    (large : (2 : ℚ) ^ (format.mantissaBits + 1) ≤ |value|) :
    ∃ whole : ℤ, value = whole := by
  have nonnegative : 0 ≤ format.magnitude bits := by
    unfold magnitude
    split <;> positivity
  unfold decode at decoded
  split at decoded
  · split at decoded <;> cases decoded
  · cases decoded
    split at large
    · rw [abs_neg, abs_of_nonneg nonnegative] at large
      rcases magnitude_integral format bits large with ⟨whole, same⟩
      exact ⟨-whole, by rw [if_pos ‹_›, same]; push_cast; rfl⟩
    · rw [abs_of_nonneg nonnegative] at large
      rcases magnitude_integral format bits large with ⟨whole, same⟩
      exact ⟨whole, by rw [if_neg ‹_›, same]⟩

end FloatFormat

/-- The value an integer conversion keeps: the fractional part is dropped. -/
def truncate (value : ℚ) : ℤ := if 0 ≤ value then ⌊value⌋ else ⌈value⌉

/-- The rounding operations of one format, as the machine computes them. -/
structure FloatArithmetic (width : Nat) where
  add : BitVec width -> BitVec width -> BitVec width
  sub : BitVec width -> BitVec width -> BitVec width
  mul : BitVec width -> BitVec width -> BitVec width
  div : BitVec width -> BitVec width -> BitVec width
  sqrt : BitVec width -> BitVec width
  ceil : BitVec width -> BitVec width
  floor : BitVec width -> BitVec width
  trunc : BitVec width -> BitVec width
  nearest : BitVec width -> BitVec width
  deriving Inhabited

/-- The machine's floating point unit.  A program and its translation run on
the same one; nothing is assumed of its rounding except that widening keeps
the infinities and gives a quiet NaN for one. -/
structure FloatUnit where
  single : FloatArithmetic 32
  double : FloatArithmetic 64
  demote : BitVec 64 -> BitVec 32
  promote : BitVec 32 -> BitVec 64
  promote_canonicalNaN :
    promote (BitVec.ofNat 32 FloatFormat.single.canonicalNaN) =
      BitVec.ofNat 64 FloatFormat.double.canonicalNaN
  promote_infinity : promote 0x7F800000#32 = 0x7FF0000000000000#64
  promote_negInfinity : promote 0xFF800000#32 = 0xFFF0000000000000#64

instance : Inhabited FloatUnit where
  default :=
    { single := default
      double := default
      demote := fun _ => BitVec.ofNat 32 FloatFormat.single.canonicalNaN
      promote := fun bits =>
        if bits = 0x7F800000#32 then 0x7FF0000000000000#64
        else if bits = 0xFF800000#32 then 0xFFF0000000000000#64
        else BitVec.ofNat 64 FloatFormat.double.canonicalNaN
      promote_canonicalNaN := rfl
      promote_infinity := rfl
      promote_negInfinity := rfl }

end Foundation
end WasmSandboxing
