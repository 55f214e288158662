import WasmSandboxing.Foundation.FloatOrder

namespace WasmSandboxing
namespace Foundation

/-!
# Truncation into an integer format

The fraction is dropped, and what remains has to be in the range of the
format.  A range test on the float itself can end above or below at an integer
that is in range, or strictly before the first that is not.
-/

section Truncate

variable {value : ℚ} {bound : ℤ}

theorem le_truncate_iff (nonpositive : bound ≤ 0) :
    bound ≤ truncate value ↔ (bound : ℚ) - 1 < value := by
  have cast : (bound : ℚ) ≤ 0 := by exact_mod_cast nonpositive
  rw [truncate]
  split
  · rename_i nonnegative
    exact ⟨fun _ => by linarith, fun _ => le_trans nonpositive (Int.floor_nonneg.mpr nonnegative)⟩
  · exact Int.le_ceil_iff

theorem truncate_le_iff (nonnegative : 0 ≤ bound) :
    truncate value ≤ bound ↔ value < (bound : ℚ) + 1 := by
  have cast : (0 : ℚ) ≤ bound := by exact_mod_cast nonnegative
  rw [truncate]
  split
  · exact Int.floor_le_iff
  · rename_i negative
    have small : value < 0 := not_le.mp negative
    refine ⟨fun _ => by linarith, fun _ => le_trans ?_ nonnegative⟩
    exact Int.ceil_le.mpr (by push_cast; exact le_of_lt small)

theorem truncate_mono {first second : ℚ} (order : first ≤ second) :
    truncate first ≤ truncate second := by
  rw [truncate, truncate]
  split
  · rw [if_pos (le_trans ‹_› order)]
    exact Int.floor_le_floor order
  · split
    · refine le_trans (Int.ceil_le.mpr ?_) (Int.floor_nonneg.mpr ‹_›)
      push_cast
      exact le_of_lt (not_le.mp ‹_›)
    · exact Int.ceil_le_ceil order

theorem truncate_intCast (number : ℤ) : truncate (number : ℚ) = number := by
  rw [truncate]
  split
  · exact Int.floor_intCast number
  · exact Int.ceil_intCast number

end Truncate

/-! ## Integer formats -/

inductive IntFormat where
  | s32 | u32 | s64 | u64
  deriving DecidableEq, Repr

namespace IntFormat

def width : IntFormat -> Nat
  | s32 | u32 => 32
  | s64 | u64 => 64

def isSigned : IntFormat -> Bool
  | s32 | s64 => true
  | u32 | u64 => false

/-- `std::numeric_limits<R>::min()` -/
def least (type : IntFormat) : ℤ := if type.isSigned then -2 ^ (type.width - 1) else 0

/-- `std::numeric_limits<R>::max()` -/
def greatest (type : IntFormat) : ℤ :=
  if type.isSigned then 2 ^ (type.width - 1) - 1 else 2 ^ type.width - 1

def represents (type : IntFormat) (number : ℤ) : Bool :=
  decide (type.least ≤ number ∧ number ≤ type.greatest)

/-- The number that a word of the format stands for. -/
def number (type : IntFormat) (bits : BitVec type.width) : ℤ :=
  if type.isSigned then bits.toInt else bits.toNat

theorem least_nonpositive (type : IntFormat) : type.least ≤ 0 := by
  cases type <;> decide

theorem greatest_nonnegative (type : IntFormat) : 0 ≤ type.greatest := by
  cases type <;> decide

theorem number_ofInt {type : IntFormat} {value : ℤ} (inRange : type.represents value = true) :
    type.number (BitVec.ofInt type.width value) = value := by
  rw [represents, decide_eq_true_iff, least, greatest] at inRange
  have positive : 0 < type.width := by cases type <;> decide
  rw [number]
  split
  · rw [if_pos ‹_›, if_pos ‹_›] at inRange
    exact BitVec.toInt_ofInt_eq_self positive inRange.1 (by omega)
  · rw [if_neg ‹_›, if_neg ‹_›] at inRange
    rw [BitVec.toNat_ofInt, Int.emod_eq_of_lt inRange.1 (by push_cast; omega)]
    exact Int.toNat_of_nonneg inRange.1

/-- The value of a float without its fraction, where the format has it. -/
def truncation (type : IntFormat) : FloatValue -> Option ℤ
  | .finite value => if type.represents (truncate value) then some (truncate value) else none
  | _ => none

/-- The nearest number of the format, and zero for a NaN. -/
def saturation (type : IntFormat) : FloatValue -> ℤ
  | .nan => 0
  | .infinite negative => if negative then type.least else type.greatest
  | .finite value => max type.least (min type.greatest (truncate value))

theorem represents_saturation (type : IntFormat) (value : FloatValue) :
    type.represents (type.saturation value) = true := by
  have least := type.least_nonpositive
  have greatest := type.greatest_nonnegative
  rw [represents, decide_eq_true_iff]
  cases value with
  | nan => exact ⟨least, greatest⟩
  | infinite negative => cases negative <;> simp [saturation] <;> omega
  | finite value => exact ⟨le_max_left _ _, max_le (by omega) (min_le_left _ _)⟩

theorem saturation_mono (type : IntFormat) {first second : FloatValue}
    (order : FloatValue.le first second = true) :
    type.saturation first ≤ type.saturation second := by
  have bounds := fun value => of_decide_eq_true (type.represents_saturation value)
  cases first with
  | nan => cases second <;> cases order
  | infinite negative =>
      cases negative with
      | true => exact (bounds second).1
      | false =>
          cases second with
          | nan | finite _ => cases order
          | infinite other =>
              cases other with
              | true => cases order
              | false => exact le_refl _
  | finite value =>
      cases second with
      | nan => cases order
      | infinite negative =>
          cases negative with
          | true => cases order
          | false => exact (bounds (.finite value)).2
      | finite other =>
          rw [FloatValue.le_finite, decide_eq_true_eq] at order
          exact max_le_max le_rfl (min_le_min le_rfl (truncate_mono order))

theorem saturation_of_represents {type : IntFormat} {value : ℚ}
    (represents : type.represents (truncate value) = true) :
    type.saturation (.finite value) = truncate value := by
  have range := of_decide_eq_true represents
  rw [saturation, min_eq_right range.2, max_eq_right range.1]

theorem saturation_of_le {type : IntFormat} {value : ℚ} (below : value ≤ type.least) :
    type.saturation (.finite value) = type.least := by
  have small := truncate_mono below
  rw [truncate_intCast] at small
  exact max_eq_left (le_trans (min_le_right _ _) small)

theorem saturation_of_ge {type : IntFormat} {value : ℚ} (above : type.greatest ≤ value) :
    type.saturation (.finite value) = type.greatest := by
  have large := truncate_mono above
  rw [truncate_intCast] at large
  rw [saturation, min_eq_left large]
  exact max_eq_right (le_trans type.least_nonpositive type.greatest_nonnegative)

/-! ## Range tests -/

/-- How a test ends at a limit of the range: before the first number that is
out of range, or at the last that is in range. -/
inductive Test where
  | below | upTo

namespace Test

/-- The limit that a test above compares with. -/
def high (type : IntFormat) : Test -> ℤ
  | below => type.greatest + 1
  | upTo => type.greatest

/-- The limit that a test below compares with. -/
def low (type : IntFormat) : Test -> ℤ
  | below => type.least - 1
  | upTo => type.least

/-- One value against another, as the test says. -/
def holds (first second : ℚ) : Test -> Prop
  | below => first < second
  | upTo => first ≤ second

def upper (type : IntFormat) (value : ℚ) (test : Test) : Prop :=
  test.holds value (test.high type)

def lower (type : IntFormat) (value : ℚ) (test : Test) : Prop :=
  test.holds (test.low type) value

theorem upper_lt {type : IntFormat} {value : ℚ} {test : Test} (holds : test.upper type value) :
    value < type.greatest + 1 := by
  cases test with
  | below => exact_mod_cast holds
  | upTo => exact lt_of_le_of_lt holds (lt_add_one _)

theorem lower_lt {type : IntFormat} {value : ℚ} {test : Test} (holds : test.lower type value) :
    (type.least : ℚ) - 1 < value := by
  cases test with
  | below => exact_mod_cast holds
  | upTo => exact lt_of_lt_of_le (sub_one_lt _) holds

theorem ge_of_not_upper {type : IntFormat} {value : ℚ} {test : Test}
    (fails : ¬ test.upper type value) : type.greatest ≤ value := by
  cases test with
  | below =>
      have above : (type.greatest : ℚ) + 1 ≤ value := by exact_mod_cast not_lt.mp fails
      linarith
  | upTo => exact le_of_lt (not_le.mp fails)

theorem le_of_not_lower {type : IntFormat} {value : ℚ} {test : Test}
    (fails : ¬ test.lower type value) : value ≤ type.least := by
  cases test with
  | below =>
      have below : value ≤ (type.least : ℚ) - 1 := by exact_mod_cast not_lt.mp fails
      linarith
  | upTo => exact le_of_lt (not_le.mp fails)

theorem lower_of_nonneg (type : IntFormat) {value : ℚ} (test : Test) (nonnegative : 0 ≤ value) :
    test.lower type value := by
  have least : (type.least : ℚ) ≤ 0 := by exact_mod_cast type.least_nonpositive
  cases test with
  | below => exact lt_of_lt_of_le (by push_cast [low]; linarith) nonnegative
  | upTo => exact le_trans least nonnegative

theorem upper_of_nonpos (type : IntFormat) {value : ℚ} (test : Test) (nonpositive : value ≤ 0) :
    test.upper type value := by
  have greatest : (0 : ℚ) ≤ type.greatest := by exact_mod_cast type.greatest_nonnegative
  cases test with
  | below => exact lt_of_le_of_lt nonpositive (by push_cast [high]; linarith)
  | upTo => exact le_trans nonpositive greatest

theorem le_of_holds {test : Test} {first second : ℚ} (holds : test.holds first second) :
    first ≤ second := by
  cases test with
  | below => exact le_of_lt holds
  | upTo => exact holds

theorem holds_add (test : Test) (unit first second : ℚ) :
    test.holds (unit + first) (unit + second) ↔ test.holds first second := by
  cases test with
  | below => exact add_lt_add_iff_left unit
  | upTo => exact add_le_add_iff_left unit

theorem holds_neg (test : Test) (first second : ℚ) :
    test.holds (-first) (-second) ↔ test.holds second first := by
  cases test with
  | below => exact neg_lt_neg_iff
  | upTo => exact neg_le_neg_iff

end Test

/-- A test that stops at the greatest number, where the float format has it. -/
def highTest (format : FloatFormat) (type : IntFormat) : Test :=
  if type.width ≤ format.mantissaBits then .upTo else .below

def lowTest (type : IntFormat) : Test :=
  if type.isSigned then .upTo else .below

def Tested (format : FloatFormat) (type : IntFormat) (value : ℚ) : Prop :=
  (highTest format type).upper type value ∧ (lowTest type).lower type value

/-- Between a limit of the range and the first integer out of it. -/
def BesideLimit (type : IntFormat) (value : ℚ) : Prop :=
  ((type.greatest : ℚ) < value ∧ value < type.greatest + 1) ∨
    (type.isSigned = true ∧ (type.least : ℚ) - 1 < value ∧ value < type.least)

def AwayFromLimits (type : IntFormat) (value : FloatValue) : Prop :=
  forall rational, value = .finite rational -> ¬ BesideLimit type rational

section Tests

variable {format : FloatFormat} {type : IntFormat} {value : ℚ}

theorem represents_truncate_iff :
    type.represents (truncate value) = true ↔
      (type.least : ℚ) - 1 < value ∧ value < type.greatest + 1 := by
  rw [represents, decide_eq_true_iff, le_truncate_iff type.least_nonpositive,
    truncate_le_iff type.greatest_nonnegative]

theorem Tested.represents (tested : Tested format type value) :
    type.represents (truncate value) = true :=
  represents_truncate_iff.mpr ⟨Test.lower_lt tested.2, Test.upper_lt tested.1⟩

/-- No float lies between two integers where it does not hold all of them. -/
theorem not_between {bits : Nat} {bound : ℤ} (decoded : format.decode bits = .finite value)
    (large : 2 ^ (format.mantissaBits + 1) ≤ |value|) (above : (bound : ℚ) < value) :
    ¬ value < bound + 1 := by
  rcases format.integral_of_large bits value decoded large with ⟨whole, rfl⟩
  intro below
  have atLeast : bound < whole := by exact_mod_cast above
  have atMost : whole < bound + 1 := by exact_mod_cast below
  omega

theorem large_of_above {greatest : ℤ} (large : 2 ^ (format.mantissaBits + 1) ≤ greatest)
    (above : (greatest : ℚ) < value) : 2 ^ (format.mantissaBits + 1) ≤ |value| := by
  have cast : (2 : ℚ) ^ (format.mantissaBits + 1) ≤ greatest := by exact_mod_cast large
  exact le_trans (le_trans cast (le_of_lt above)) (le_abs_self value)

theorem large_of_below {least : ℤ} (large : least ≤ -2 ^ (format.mantissaBits + 1))
    (below : value < (least : ℚ)) : 2 ^ (format.mantissaBits + 1) ≤ |value| := by
  have cast : (least : ℚ) ≤ -2 ^ (format.mantissaBits + 1) := by exact_mod_cast large
  have negated := neg_abs_le value
  linarith

/-- The tests let through what truncation fits, unless it is beside a limit. -/
theorem tested_iff {bits : Nat} (decoded : format.decode bits = .finite value)
    (large : format.mantissaBits < type.width -> 2 ^ (format.mantissaBits + 1) ≤ type.greatest) :
    (Tested format type value ↔ type.represents (truncate value) = true) ↔
      ¬ BesideLimit type value := by
  have least : (type.least : ℚ) ≤ 0 := by exact_mod_cast type.least_nonpositive
  have greatest : (0 : ℚ) ≤ type.greatest := by exact_mod_cast type.greatest_nonnegative
  rw [represents_truncate_iff]
  constructor
  · rintro exactly (⟨above, below⟩ | ⟨signed, above, below⟩)
    · have upper := (exactly.mpr ⟨by linarith, below⟩).1
      rw [highTest] at upper
      split at upper
      · exact absurd above (not_lt.mpr upper)
      · exact not_between decoded (large_of_above (large (by omega)) above) above below
    · have lower := (exactly.mpr ⟨above, by linarith⟩).2
      rw [lowTest, if_pos signed] at lower
      exact absurd below (not_lt.mpr lower)
  · refine fun apart => ⟨fun tested => represents_truncate_iff.mp tested.represents, ?_⟩
    rintro ⟨lower, upper⟩
    constructor
    · rw [highTest]
      split
      · exact not_lt.mp fun above => apart (.inl ⟨above, upper⟩)
      · exact_mod_cast upper
    · rw [lowTest]
      split
      · exact not_lt.mp fun below => apart (.inr ⟨‹_›, lower, below⟩)
      · exact_mod_cast lower

/-- A wide format has its limits where the floats are integers. -/
theorem awayFromLimits_of_wide {bits : Nat}
    (large : 2 ^ (format.mantissaBits + 1) ≤ type.greatest)
    (largeBelow : type.isSigned = true -> type.least ≤ -2 ^ (format.mantissaBits + 1)) :
    type.AwayFromLimits (format.decode bits) := by
  rintro rational decoded (⟨above, below⟩ | ⟨signed, above, below⟩)
  · exact not_between decoded (large_of_above large above) above below
  · have next : ((type.least - 1 : ℤ) : ℚ) = type.least - 1 := by push_cast; rfl
    refine not_between decoded (large_of_below (largeBelow signed) below) (next ▸ above) ?_
    rw [next]
    linarith

end Tests

/-- A trap where the format does not have the truncated value, else that value. -/
structure Exactly (type : IntFormat) (value : FloatValue) (traps : Prop) (gives : ℤ -> Prop) :
    Prop where
  traps : type.truncation value = none -> traps
  gives : forall number, type.truncation value = some number -> gives number

/-- A conversion that traps where its tests fail is exact away from the limits. -/
theorem exactly_iff {format : FloatFormat} {type : IntFormat} {bits : Nat} {traps : Prop}
    {gives : ℤ -> Prop} (apart : traps -> forall number, ¬ gives number)
    (passes : forall value, format.decode bits = .finite value -> Tested format type value ->
      gives (truncate value))
    (fails : (forall value, format.decode bits = .finite value -> ¬ Tested format type value) ->
      traps)
    (large : format.mantissaBits < type.width -> 2 ^ (format.mantissaBits + 1) ≤ type.greatest) :
    type.Exactly (format.decode bits) traps gives ↔ type.AwayFromLimits (format.decode bits) := by
  have onFinite : forall value, format.decode bits = .finite value ->
      (type.truncation (format.decode bits) = some (truncate value) ↔
        type.represents (truncate value) = true) := by
    intro value decoded
    rw [decoded, truncation]
    split
    · exact iff_of_true rfl ‹_›
    · exact iff_of_false (fun impossible => by cases impossible) ‹_›
  constructor
  · rintro exactly value decoded
    refine (tested_iff decoded large).mp ⟨Tested.represents, fun represents => ?_⟩
    have given := exactly.gives _ ((onFinite value decoded).mpr represents)
    by_contra notTested
    refine apart (fails fun other also => ?_) _ given
    rw [decoded, FloatValue.finite.injEq] at also
    exact also ▸ notTested
  · intro away
    refine ⟨fun none_ => fails fun value decoded tested => ?_, fun number fits => ?_⟩
    · rw [(onFinite value decoded).mpr tested.represents] at none_
      cases none_
    · cases decoded : format.decode bits with
      | nan | infinite _ =>
          rw [decoded] at fits
          cases fits
      | finite value =>
          rw [decoded, truncation] at fits
          split at fits
          · rw [← Option.some.inj fits]
            exact passes value decoded
              (((tested_iff decoded large).mpr (away value decoded)).mpr ‹_›)
          · cases fits

end IntFormat

end Foundation
end WasmSandboxing
