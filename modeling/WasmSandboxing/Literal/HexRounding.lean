import WasmSandboxing.Literal.HexFloats

namespace WasmSandboxing
namespace Literal

open Foundation FloatTraits

/-!
# Shifting a significand

What the parser's shifts do to a significand that they can hold exactly, and
how the fields are put together.
-/

namespace FloatTraits

/-- Widths in which the arithmetic of the parser and the writer has room. -/
structure Lawful (traits : FloatTraits) : Prop where
  sig : 4 ≤ traits.kSigBits
  room : traits.kSigBits + 6 ≤ traits.kBits
  nybbles : 4 * (traits.kBits / 4) = traits.kBits
  buffer : 12 + traits.kBits / 4 ≤ traits.kMaxHexBufferSize
  exponents : traits.kMaxExp + traits.kSigBits < 2000
  early : (traits.kMaxExp + traits.kSigBits) / 10 + traits.kSigBits + 4 < traits.kMaxExp

theorem lawful_float : float.Lawful := by constructor <;> decide
theorem lawful_double : double.Lawful := by constructor <;> decide

/-! ## The length of a number -/

theorem bitLength_le_iff (number bound : Nat) :
    bitLength number ≤ bound ↔ number < 2 ^ bound := by
  rw [bitLength]
  split
  · rename_i zero
    rw [zero]
    exact iff_of_true (Nat.zero_le _) (Nat.two_pow_pos _)
  · rename_i nonzero
    rw [Nat.succ_le_iff, ← Nat.log2_lt nonzero]

theorem lt_bitLength_iff (number bound : Nat) :
    bound < bitLength number ↔ 2 ^ bound ≤ number := by
  rw [← Nat.not_le, bitLength_le_iff, Nat.not_lt]

theorem bitLength_eq {number bound : Nat} (lower : 2 ^ bound ≤ number)
    (upper : number < 2 ^ (bound + 1)) : bitLength number = bound + 1 :=
  Nat.le_antisymm ((bitLength_le_iff _ _).mpr upper) ((lt_bitLength_iff _ _).mpr lower)

end FloatTraits

section Shifts

variable {traits : FloatTraits} {number quotient : Nat}

theorem shiftLeft_exact {shift : Nat} (fits : number * 2 ^ shift < 2 ^ traits.kBits) :
    traits.shiftLeft number shift = number * 2 ^ shift :=
  Nat.mod_eq_of_lt fits

/-- Nothing is rounded where nothing is shifted out. -/
theorem shiftAndRound_exact {shift : Nat} (positive : 0 < shift)
    (fits : (quotient + 1) * 2 ^ shift ≤ 2 ^ traits.kBits) :
    shiftAndRoundToNearest traits (quotient * 2 ^ shift) shift = some quotient := by
  have half : 2 ^ (shift - 1) < 2 ^ shift := Nat.pow_lt_pow_right (by decide) (by omega)
  have unit := Nat.two_pow_pos shift
  have positiveInt : (0 : Int) < shift := by exact_mod_cast positive
  rw [Nat.add_mul, Nat.one_mul] at fits
  rw [shiftAndRoundToNearest, if_pos positiveInt, Int.toNat_natCast]
  dsimp only
  rw [Option.some.injEq, Nat.shiftRight_eq_div_pow]
  split
  · rw [Nat.mod_eq_of_lt (by omega), Nat.mul_comm, Nat.mul_add_div unit,
      Nat.div_eq_of_lt half, Nat.add_zero]
  · exact Nat.mul_div_cancel _ unit

theorem align_exact {value bits place : Nat} (length : number < 2 ^ bits)
    (same : number * 2 ^ place = value * 2 ^ bits) (bitsFit : bits ≤ traits.kBits)
    (placeFits : place ≤ traits.kBits) : align traits number bits place = some value := by
  have small : value < 2 ^ place := by
    refine Nat.lt_of_mul_lt_mul_right (a := 2 ^ bits) ?_
    rw [← same, Nat.mul_comm (2 ^ place)]
    exact Nat.mul_lt_mul_of_pos_right length (Nat.two_pow_pos _)
  rw [align]
  split
  · rename_i longer
    rcases Nat.exists_eq_add_of_lt longer with ⟨more, total⟩
    have extra : ((bits : Int) - place) = ((more + 1 : Nat) : Int) := by omega
    have shifted : number = value * 2 ^ (more + 1) := by
      refine Nat.eq_of_mul_eq_mul_right (Nat.two_pow_pos place) ?_
      rw [same, total, Nat.mul_assoc, ← Nat.pow_add]
      congr 2
      omega
    rw [extra, shifted]
    refine shiftAndRound_exact (Nat.succ_pos _) ?_
    refine Nat.le_trans (Nat.mul_le_mul_right _ small) ?_
    rw [← Nat.pow_add]
    exact Nat.pow_le_pow_right (by decide) (by omega)
  · rename_i notLonger
    rcases Nat.exists_eq_add_of_le (Nat.not_lt.mp notLonger) with ⟨more, total⟩
    have extra : place - bits = more := by omega
    have shifted : number * 2 ^ more = value := by
      refine Nat.eq_of_mul_eq_mul_right (Nat.two_pow_pos bits) ?_
      rw [← same, total, Nat.pow_add, Nat.mul_assoc, Nat.mul_comm (2 ^ more)]
    rw [extra, shiftLeft_exact, shifted]
    rw [shifted]
    exact Nat.lt_of_lt_of_le small (Nat.pow_le_pow_right (by decide) placeFits)

end Shifts

/-! ## Putting a float together -/

section Make

variable {traits : FloatTraits}

/-- The bits of a float by its fields. -/
def fields (traits : FloatTraits) (sign : Bool) (field sig : Nat) : Nat :=
  sign.toNat * 2 ^ traits.kSignShift + (field * 2 ^ traits.kSigBits + sig)

theorem kExpBits_eq (lawful : traits.Lawful) :
    traits.kSignShift = traits.kExpBits + traits.kSigBits := by
  have room := lawful.room
  rw [kSignShift, kExpBits]
  omega

theorem kMaxExp_eq (lawful : traits.Lawful) :
    2 * traits.kMaxExp = 2 ^ traits.kExpBits ∧ 0 < traits.kMaxExp := by
  have room := lawful.room
  have split : traits.kExpBits = (traits.kExpBits - 1) + 1 := by
    rw [kExpBits]
    omega
  rw [kMaxExp]
  constructor
  · rw [split, pow_succ, Nat.add_sub_cancel]
    ring
  · exact_mod_cast Nat.two_pow_pos (traits.kExpBits - 1)

theorem make_fields (lawful : traits.Lawful) {sign : Bool} {exp : Int} {field sig : Nat}
    (isField : exp + traits.kExpBias = field) (fieldFits : field < 2 ^ traits.kExpBits)
    (sigFits : sig < 2 ^ traits.kSigBits) :
    make traits sign exp sig = some (fields traits sign field sig) := by
  have max := kMaxExp_eq lawful
  have fits : (field : Int) < 2 ^ traits.kExpBits := by exact_mod_cast fieldFits
  have bias : traits.kExpBias = traits.kMaxExp - 1 := by
    rw [kExpBias, kMinExp]
    omega
  have least : traits.kMinExp = -traits.kMaxExp + 1 := rfl
  have lower : field <<< traits.kSigBits ||| sig = field * 2 ^ traits.kSigBits + sig := by
    rw [Nat.shiftLeft_eq, Nat.mul_comm, Nat.two_pow_add_eq_or_of_lt sigFits]
  have lowerFits : field * 2 ^ traits.kSigBits + sig < 2 ^ traits.kSignShift := by
    rw [kExpBits_eq lawful, Nat.pow_add]
    have scaled := Nat.mul_le_mul_right (2 ^ traits.kSigBits) (Nat.succ_le_of_lt fieldFits)
    rw [Nat.succ_mul] at scaled
    omega
  rw [make, if_pos]
  · rw [isField, Int.toNat_natCast, Nat.or_assoc, lower, Nat.shiftLeft_eq, Nat.mul_comm,
      ← Nat.two_pow_add_eq_or_of_lt lowerFits, Nat.mul_comm]
    rfl
  · refine ⟨by omega, by omega, ?_⟩
    rw [kSigMask]
    omega

theorem kMinExp_field (traits : FloatTraits) :
    traits.kMinExp + traits.kExpBias = ((0 : Nat) : Int) := by
  rw [kExpBias]
  exact Int.add_right_neg _

theorem make_zero (lawful : traits.Lawful) (sign : Bool) :
    make traits sign traits.kMinExp 0 = some (fields traits sign 0 0) :=
  make_fields lawful (kMinExp_field traits) (Nat.two_pow_pos _) (Nat.two_pow_pos _)

theorem and_kSigMask {number : Nat} : number &&& traits.kSigMask = number % 2 ^ traits.kSigBits :=
  Nat.and_two_pow_sub_one_eq_mod _ _

/-- A normal number with no bits beyond its significand. -/
theorem roundHex_normal (lawful : traits.Lawful) {sign : Bool} {number sig field : Nat}
    {exponent : Int} (bitsFit : bitLength number ≤ traits.kBits)
    (same : number * 2 ^ traits.kSigPlusOneBits =
      (2 ^ traits.kSigBits + sig) * 2 ^ bitLength number)
    (sigFits : sig < 2 ^ traits.kSigBits) (isField : exponent + traits.kExpBias = field)
    (isNormal : traits.kMinExp < exponent) (isFinite : exponent < traits.kMaxExp) :
    roundHex traits sign number exponent = some (some (fields traits sign field sig)) := by
  have room := lawful.room
  have max := kMaxExp_eq lawful
  have bias : traits.kExpBias = traits.kMaxExp - 1 := by
    rw [kExpBias, kMinExp]
    omega
  have fieldFits : field < 2 ^ traits.kExpBits := by
    have fits : (field : Int) < 2 ^ traits.kExpBits := by omega
    exact_mod_cast fits
  have aligned : align traits number (bitLength number) traits.kSigPlusOneBits =
      some (2 ^ traits.kSigBits + sig) :=
    align_exact ((bitLength_le_iff _ _).mp (Nat.le_refl _)) same bitsFit
      (by rw [kSigPlusOneBits]; omega)
  have inMask : ¬ traits.kSigPlusOneMask < 2 ^ traits.kSigBits + sig := by
    rw [kSigPlusOneMask, kSigPlusOneBits, Nat.pow_succ]
    omega
  rw [roundHex]
  rw [if_neg (Int.not_le.mpr isNormal), aligned, Option.bind_some,
    if_neg (fun both => inMask both.2), roundNormal, if_neg (Int.not_le.mpr isFinite),
    and_kSigMask, Nat.add_mod_left, Nat.mod_eq_of_lt sigFits,
    make_fields lawful isField fieldFits sigFits, Option.map_some]

/-- A subnormal number that needs no rounding. -/
theorem roundHex_subnormal (lawful : traits.Lawful) {sign : Bool} {number sig shift : Nat}
    {exponent : Int} (bitsFit : bitLength number ≤ traits.kBits)
    (same : number * 2 ^ traits.kSigBits = sig * 2 ^ shift * 2 ^ bitLength number)
    (sigFits : sig < 2 ^ traits.kSigBits) (positive : 0 < sig)
    (isSubnormal : exponent = traits.kMinExp - shift) (short : shift < traits.kSigBits) :
    roundHex traits sign number exponent = some (some (fields traits sign 0 sig)) := by
  have room := lawful.room
  have length : number < 2 ^ bitLength number := (bitLength_le_iff _ _).mp (Nat.le_refl _)
  have aligned : align traits number (bitLength number) traits.kSigBits = some (sig * 2 ^ shift) :=
    align_exact length same bitsFit (by omega)
  have small : sig * 2 ^ shift < 2 ^ traits.kSigBits := by
    refine Nat.lt_of_mul_lt_mul_right (a := 2 ^ bitLength number) ?_
    rw [← same, Nat.mul_comm (2 ^ traits.kSigBits)]
    exact Nat.mul_lt_mul_of_pos_right length (Nat.two_pow_pos _)
  have shifted : traits.kMinExp - exponent = shift := by omega
  have shortInt : (shift : Int) < traits.kSigBits := by exact_mod_cast short
  have rounded : (if (shift : Int) = 0 then some (sig * 2 ^ shift)
      else (shiftAndRoundToNearest traits (sig * 2 ^ shift) shift).map (· &&& traits.kSigMask)) =
        some sig := by
    split
    · rename_i zero
      have isZero : shift = 0 := by exact_mod_cast zero
      rw [isZero, Nat.pow_zero, Nat.mul_one]
    · rename_i nonzero
      rw [shiftAndRound_exact (by omega), Option.map_some, and_kSigMask, Nat.mod_eq_of_lt sigFits]
      have shiftFits : 2 ^ shift ≤ 2 ^ traits.kSigBits :=
        Nat.pow_le_pow_right (by decide) (Nat.le_of_lt short)
      have twice : 2 ^ traits.kSigBits * 2 ≤ 2 ^ traits.kBits := by
        rw [← Nat.pow_succ]
        exact Nat.pow_le_pow_right (by decide) (by omega)
      rw [Nat.add_mul, Nat.one_mul]
      omega
  rw [roundHex]
  rw [if_pos (by omega), aligned, Option.bind_some, shifted, roundSubnormal, if_pos shortInt,
    rounded, Option.bind_some, if_pos (Nat.ne_of_gt positive),
    make_fields lawful (kMinExp_field traits) (Nat.two_pow_pos _) sigFits, Option.map_some]

end Make

end Literal
end WasmSandboxing
