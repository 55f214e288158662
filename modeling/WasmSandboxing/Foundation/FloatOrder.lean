import WasmSandboxing.Foundation.Float

namespace WasmSandboxing
namespace Foundation

/-!
# The order of bit patterns

Without its sign bit, a larger pattern has a larger magnitude; the patterns
from the one of infinity on are no numbers.
-/

namespace FloatFormat

variable (format : FloatFormat)

/-- The patterns without a sign. -/
def signUnit : Nat := 2 ^ (format.mantissaBits + format.exponentBits)

/-- The pattern of infinity, without a sign. -/
def infinity : Nat := (2 ^ format.exponentBits - 1) * 2 ^ format.mantissaBits

/-- A pattern by its sign and what it has below. -/
def signed (negative : Bool) (bits : Nat) : Nat :=
  if negative then format.signUnit + bits else bits

theorem signUnit_eq : format.signUnit = 2 ^ format.mantissaBits * 2 ^ format.exponentBits :=
  Nat.pow_add 2 format.mantissaBits format.exponentBits

variable {format} {bits field low : Nat} {negative : Bool}

theorem exponent_fields (isMantissa : low < 2 ^ format.mantissaBits)
    (isExponent : field < 2 ^ format.exponentBits) :
    format.exponent (2 ^ format.mantissaBits * field + low) = field := by
  rw [exponent, Nat.mul_add_div (Nat.two_pow_pos _), Nat.div_eq_of_lt isMantissa, Nat.add_zero,
    Nat.mod_eq_of_lt isExponent]

theorem mantissa_fields (isMantissa : low < 2 ^ format.mantissaBits) :
    format.mantissa (2 ^ format.mantissaBits * field + low) = low := by
  rw [mantissa, Nat.mul_add_mod, Nat.mod_eq_of_lt isMantissa]

theorem magnitude_fields (isMantissa : low < 2 ^ format.mantissaBits)
    (isExponent : field < 2 ^ format.exponentBits) :
    format.magnitude (2 ^ format.mantissaBits * field + low) =
      if field = 0 then low * (2 : ℚ) ^ (1 - (format.bias + format.mantissaBits : ℤ))
      else (2 ^ format.mantissaBits + low : Nat) *
        (2 : ℚ) ^ ((field : ℤ) - (format.bias + format.mantissaBits : ℤ)) := by
  rw [magnitude, exponent_fields isMantissa isExponent, mantissa_fields isMantissa]

/-- The fields of a pattern without a sign. -/
theorem fields_of_lt (inside : bits < format.signUnit) :
    exists field low, field < 2 ^ format.exponentBits ∧ low < 2 ^ format.mantissaBits ∧
      bits = 2 ^ format.mantissaBits * field + low := by
  refine ⟨bits / 2 ^ format.mantissaBits, bits % 2 ^ format.mantissaBits, ?_,
    Nat.mod_lt _ (Nat.two_pow_pos _), (Nat.div_add_mod _ _).symm⟩
  rw [signUnit_eq] at inside
  exact Nat.div_lt_of_lt_mul inside

theorem magnitude_nonneg (format : FloatFormat) (bits : Nat) : 0 ≤ format.magnitude bits := by
  unfold magnitude
  split <;> positivity

/-- The next pattern has the next magnitude, also where the exponent goes up. -/
theorem magnitude_lt_succ (inside : bits + 1 < format.signUnit) :
    format.magnitude bits < format.magnitude (bits + 1) := by
  rcases fields_of_lt (Nat.lt_of_succ_lt inside) with ⟨field, low, isExponent, isMantissa, rfl⟩
  rw [magnitude_fields isMantissa isExponent]
  by_cases sameField : low + 1 < 2 ^ format.mantissaBits
  · rw [Nat.add_assoc, magnitude_fields sameField isExponent]
    split
    · exact mul_lt_mul_of_pos_right (by push_cast; linarith) (by positivity)
    · exact mul_lt_mul_of_pos_right (by push_cast; linarith) (by positivity)
  · have top : low + 1 = 2 ^ format.mantissaBits := by omega
    have next : 2 ^ format.mantissaBits * field + low + 1 =
        2 ^ format.mantissaBits * (field + 1) + 0 := by
      rw [Nat.add_assoc, top, Nat.mul_add, Nat.mul_one, Nat.add_zero]
    rw [next, signUnit_eq] at inside
    have above : field + 1 < 2 ^ format.exponentBits :=
      Nat.lt_of_mul_lt_mul_left (Nat.lt_of_le_of_lt (Nat.le_add_right _ 0) inside)
    rw [next, magnitude_fields (Nat.two_pow_pos _) above, if_neg (Nat.succ_ne_zero field)]
    have unit : (low : ℚ) + 1 = 2 ^ format.mantissaBits := by exact_mod_cast top
    by_cases subnormal : field = 0
    · rw [if_pos subnormal, subnormal]
      refine mul_lt_mul_of_pos_right ?_ (by positivity)
      push_cast
      linarith
    · rw [if_neg subnormal]
      have double : ((field + 1 : Nat) : ℤ) - (format.bias + format.mantissaBits : ℤ) =
          ((field : ℤ) - (format.bias + format.mantissaBits : ℤ)) + 1 := by
        push_cast
        ring
      rw [double, zpow_add_one₀ two_ne_zero, mul_comm _ (2 : ℚ), ← mul_assoc]
      refine mul_lt_mul_of_pos_right ?_ (by positivity)
      push_cast
      linarith

theorem magnitude_lt_of_lt {first second : Nat} (order : first < second)
    (inside : second < format.signUnit) : format.magnitude first < format.magnitude second := by
  induction second, order using Nat.le_induction with
  | base => exact magnitude_lt_succ inside
  | succ second order inductionHypothesis =>
      exact lt_trans (inductionHypothesis (Nat.lt_of_succ_lt inside)) (magnitude_lt_succ inside)

theorem magnitude_lt_iff {first second : Nat} (firstInside : first < format.signUnit)
    (secondInside : second < format.signUnit) :
    format.magnitude first < format.magnitude second ↔ first < second := by
  refine ⟨fun larger => Nat.not_le.mp fun order => ?_, (magnitude_lt_of_lt · secondInside)⟩
  rcases Nat.lt_or_eq_of_le order with order | same
  · exact lt_asymm larger (magnitude_lt_of_lt order firstInside)
  · exact lt_irrefl _ (same ▸ larger)

theorem magnitude_le_iff {first second : Nat} (firstInside : first < format.signUnit)
    (secondInside : second < format.signUnit) :
    format.magnitude first ≤ format.magnitude second ↔ first ≤ second := by
  rw [← not_lt, ← Nat.not_lt, magnitude_lt_iff secondInside firstInside]

/-! ## With a sign -/

theorem infinity_lt (format : FloatFormat) : format.infinity < format.signUnit := by
  rw [signUnit_eq, infinity, Nat.mul_comm]
  exact Nat.mul_lt_mul_of_pos_left (Nat.sub_lt (Nat.two_pow_pos _) Nat.one_pos) (Nat.two_pow_pos _)

theorem fields_signed (negative : Bool) (bits : Nat) :
    format.exponent (format.signed negative bits) = format.exponent bits ∧
      format.mantissa (format.signed negative bits) = format.mantissa bits := by
  cases negative with
  | false => exact ⟨rfl, rfl⟩
  | true =>
      change format.exponent (format.signUnit + bits) = _ ∧
        format.mantissa (format.signUnit + bits) = _
      rw [signUnit_eq, exponent, exponent, mantissa, mantissa,
        Nat.mul_add_div (Nat.two_pow_pos _), Nat.add_mod_left, Nat.mul_add_mod]
      exact ⟨rfl, rfl⟩

theorem magnitude_signed (negative : Bool) (bits : Nat) :
    format.magnitude (format.signed negative bits) = format.magnitude bits := by
  rw [magnitude, magnitude, (fields_signed negative bits).1, (fields_signed negative bits).2]

theorem signbit_signed (negative : Bool) (inside : bits < format.signUnit) :
    format.signbit (format.signed negative bits) = negative := by
  have unit : 0 < format.signUnit := Nat.two_pow_pos _
  cases negative with
  | false =>
      change (bits / format.signUnit % 2 == 1) = false
      rw [Nat.div_eq_of_lt inside]
      rfl
  | true =>
      change ((format.signUnit + bits) / format.signUnit % 2 == 1) = true
      rw [Nat.add_div_left _ unit, Nat.div_eq_of_lt inside]
      rfl

/-- Every pattern of the width is one without a sign, with or without it. -/
theorem signed_of_lt (inside : bits < 2 * format.signUnit) :
    exists negative low, low < format.signUnit ∧ bits = format.signed negative low := by
  by_cases below : bits < format.signUnit
  · exact ⟨false, bits, below, rfl⟩
  · refine ⟨true, bits - format.signUnit, by omega, ?_⟩
    change bits = format.signUnit + (bits - format.signUnit)
    omega

theorem decode_signed (negative : Bool) (inside : bits < format.signUnit) :
    format.decode (format.signed negative bits) =
      if bits < format.infinity then
        .finite (if negative then -format.magnitude bits else format.magnitude bits)
      else if bits = format.infinity then .infinite negative
      else .nan := by
  rw [decode, signbit_signed negative inside, magnitude_signed, (fields_signed negative bits).1,
    (fields_signed negative bits).2]
  rcases fields_of_lt inside with ⟨field, low, isExponent, isMantissa, rfl⟩
  rw [exponent_fields isMantissa isExponent, mantissa_fields isMantissa, infinity,
    Nat.mul_comm (2 ^ format.exponentBits - 1)]
  by_cases top : field = 2 ^ format.exponentBits - 1
  · rw [if_pos top, top, if_neg (Nat.not_lt.mpr (Nat.le_add_right _ _))]
    by_cases none_ : low = 0
    · rw [if_pos none_, if_pos (by rw [none_, Nat.add_zero])]
    · rw [if_neg none_, if_neg (by omega)]
  · have below : 2 ^ format.mantissaBits * (field + 1) ≤
        2 ^ format.mantissaBits * (2 ^ format.exponentBits - 1) :=
      Nat.mul_le_mul_left _ (by omega)
    rw [Nat.mul_add, Nat.mul_one] at below
    have finite_ : 2 ^ format.mantissaBits * field + low <
        2 ^ format.mantissaBits * (2 ^ format.exponentBits - 1) := by omega
    rw [if_neg top, if_pos finite_]

end FloatFormat

end Foundation
end WasmSandboxing
