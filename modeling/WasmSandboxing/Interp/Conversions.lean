import WasmSandboxing.Foundation.Truncation
import WasmSandboxing.Interp.Thread

namespace WasmSandboxing
namespace Interp

open Foundation

/-!
# Float to integer

`IntTrunc` and `IntTruncSat` on bit patterns.  The range of a conversion is a
comparison of patterns; a cast of a float that its type does not hold is
undefined.
-/

/-- The constants of `FloatTraits<T>` that the conversions use. -/
structure FloatTraits (width : Nat) where
  format : FloatFormat
  kInf : BitVec width
  kNegInf : BitVec width
  kNegOne : BitVec width
  kNegZero : BitVec width
  kSignMask : BitVec width

namespace FloatTraits

def float : FloatTraits 32 where
  format := .single
  kInf := 0x7f800000
  kNegInf := 0xff800000
  kNegOne := 0xbf800000
  kNegZero := 0x80000000
  kSignMask := 0x80000000

def double : FloatTraits 64 where
  format := .double
  kInf := 0x7ff0000000000000
  kNegInf := 0xfff0000000000000
  kNegOne := 0xbff0000000000000
  kNegZero := 0x8000000000000000
  kSignMask := 0x8000000000000000

variable {width : Nat} (traits : FloatTraits width)

def isNan (bits : BitVec width) : Bool :=
  (traits.kInf.ult bits && bits.ult traits.kNegZero) || traits.kNegInf.ult bits

def decode (bits : BitVec width) : FloatValue := traits.format.decode bits.toNat

/-- `bits < limit` or `bits <= limit` -/
def within (test : IntFormat.Test) (bits limit : BitVec width) : Bool :=
  match test with
  | .below => bits.ult limit
  | .upTo => bits.ule limit

/-- The patterns before a limit, and those from the negative zero on before another. -/
def inRange (high : IntFormat.Test) (highLimit : BitVec width) (low : IntFormat.Test)
    (lowLimit : BitVec width) (bits : BitVec width) : Bool :=
  within high bits highLimit || (traits.kNegZero.ule bits && within low bits lowLimit)

end FloatTraits

/-! ## The source's ranges -/

open FloatTraits IntFormat

/-- `IsConversionInRange<R, float>` -/
def isConversionInRangeFloat : IntFormat -> BitVec 32 -> Bool
  | .s32 => float.inRange .below 0x4f000000 .upTo 0xcf000000
  | .s64 => float.inRange .below 0x5f000000 .upTo 0xdf000000
  | .u32 => float.inRange .below 0x4f800000 .below float.kNegOne
  | .u64 => float.inRange .below 0x5f800000 .below float.kNegOne

/-- `IsConversionInRange<R, double>` -/
def isConversionInRangeDouble : IntFormat -> BitVec 64 -> Bool
  | .s32 => double.inRange .upTo 0x41dfffffffc00000 .upTo 0xc1e0000000000000
  | .s64 => double.inRange .below 0x43e0000000000000 .upTo 0xc3e0000000000000
  | .u32 => double.inRange .upTo 0x41efffffffe00000 .below double.kNegOne
  | .u64 => double.inRange .below 0x43f0000000000000 .below double.kNegOne

section Operators

variable {width : Nat} (traits : FloatTraits width) (type : IntFormat)
  (isConversionInRange : BitVec width -> Bool)

/-- `static_cast<R>(FromRep<T>(v_rep))` -/
def staticCast (bits : BitVec width) : Except Outcome (BitVec type.width) :=
  match type.truncation (traits.decode bits) with
  | some number => .ok (BitVec.ofInt type.width number)
  | none => .error .undefined

def intTrunc (vRep : BitVec width) : Except Outcome (BitVec type.width) :=
  if traits.isNan vRep then trap .trapInvalidConversionToInteger
  else if !isConversionInRange vRep then trap .trapIntegerOverflow
  else staticCast traits type vRep

def intTruncSat (vRep : BitVec width) : Except Outcome (BitVec type.width) :=
  if traits.isNan vRep then .ok 0
  else if !isConversionInRange vRep then
    if vRep &&& traits.kSignMask != 0 then .ok (BitVec.ofInt type.width type.least)
    else .ok (BitVec.ofInt type.width type.greatest)
  else staticCast traits type vRep

end Operators

/-! ## Patterns and values -/

namespace FloatTraits

variable {width : Nat} {traits : FloatTraits width}

/-- The constants are what their names say. -/
structure Lawful (traits : FloatTraits width) : Prop where
  positive : 0 < width
  range : 2 * traits.format.signUnit = 2 ^ width
  unit : traits.format.signUnit = 2 ^ (width - 1)
  inf : traits.kInf.toNat = traits.format.infinity
  negInf : traits.kNegInf.toNat = traits.format.signUnit + traits.format.infinity
  negZero : traits.kNegZero.toNat = traits.format.signUnit
  signMask : traits.kSignMask = BitVec.twoPow width (width - 1)

theorem lawful_float : float.Lawful where
  positive := by decide
  range := by decide
  unit := by decide
  inf := by decide
  negInf := by decide
  negZero := by decide
  signMask := by decide

theorem lawful_double : double.Lawful where
  positive := by decide
  range := by decide
  unit := by decide
  inf := by decide
  negInf := by decide
  negZero := by decide
  signMask := by decide

theorem within_iff (test : Test) (bits limit : BitVec width) :
    within test bits limit = true ↔ test.holds bits.toNat limit.toNat := by
  cases test with
  | below => exact BitVec.ult_iff_lt.trans (BitVec.lt_def.trans Nat.cast_lt.symm)
  | upTo => exact BitVec.ule_iff_le.trans (BitVec.le_def.trans Nat.cast_le.symm)

/-- A pattern with its sign apart. -/
theorem Lawful.split (lawful : traits.Lawful) (bits : BitVec width) :
    exists negative pattern, pattern < traits.format.signUnit ∧
      bits.toNat = traits.format.signed negative pattern :=
  FloatFormat.signed_of_lt (lawful.range ▸ bits.isLt)

theorem isNan_iff (lawful : traits.Lawful) (bits : BitVec width) :
    traits.isNan bits = true ↔ traits.decode bits = .nan := by
  rcases lawful.split bits with ⟨negative, pattern, inside, same⟩
  have infinite := FloatFormat.infinity_lt traits.format
  have isAbove : traits.isNan bits = true ↔ traits.format.infinity < pattern := by
    rw [isNan, Bool.or_eq_true, Bool.and_eq_true, BitVec.ult_iff_lt, BitVec.ult_iff_lt,
      BitVec.ult_iff_lt, BitVec.lt_def, BitVec.lt_def, BitVec.lt_def, same, lawful.inf,
      lawful.negInf, lawful.negZero]
    cases negative with
    | false =>
        change (_ < pattern ∧ pattern < _) ∨ _ < pattern ↔ _
        omega
    | true =>
        change (_ < traits.format.signUnit + pattern ∧ traits.format.signUnit + pattern < _) ∨
          _ < traits.format.signUnit + pattern ↔ _
        omega
  rw [isAbove, decode, same, FloatFormat.decode_signed negative inside]
  split
  · exact ⟨fun above => by omega, fun impossible => nomatch impossible⟩
  · split
    · exact ⟨fun above => by omega, fun impossible => nomatch impossible⟩
    · exact ⟨fun _ => rfl, fun _ => by omega⟩

theorem signed_iff (lawful : traits.Lawful) (bits : BitVec width) :
    (bits &&& traits.kSignMask != 0) = true ↔ traits.format.signUnit ≤ bits.toNat := by
  rw [lawful.signMask, BitVec.and_twoPow, bne_iff_ne, lawful.unit, ← decide_eq_true_iff (p := _ ≤ _),
    ← BitVec.msb_eq_decide, BitVec.msb_eq_getLsbD_last]
  have nonzero : BitVec.twoPow width (width - 1) ≠ 0 := by
    intro zero
    have number := congrArg BitVec.toNat zero
    rw [BitVec.toNat_twoPow_of_lt (Nat.sub_lt lawful.positive Nat.one_pos)] at number
    exact absurd number (Nat.ne_of_gt (Nat.two_pow_pos _))
  cases bits.getLsbD (width - 1) with
  | false => exact ⟨fun impossible => absurd rfl impossible, fun impossible => nomatch impossible⟩
  | true => exact ⟨fun _ => rfl, fun _ => nonzero⟩

/-- Limits that are the patterns of the numbers a test compares with. -/
structure Limits (traits : FloatTraits width) (type : IntFormat) (high : Test)
    (highLimit : BitVec width) (low : Test) (lowLimit : BitVec width) : Prop where
  highFinite : highLimit.toNat < traits.format.infinity
  high : traits.format.magnitude highLimit.toNat = high.high type
  lowNegative : traits.format.signUnit ≤ lowLimit.toNat
  lowFinite : lowLimit.toNat < traits.format.signUnit + traits.format.infinity
  low : traits.format.magnitude (lowLimit.toNat - traits.format.signUnit) = -low.low type

section Ranges

variable {type : IntFormat} {high low : Test} {highLimit lowLimit : BitVec width}

/-- A pattern up to a finite one is finite, and its magnitude is up to that one's. -/
theorem holds_iff (test : Test) {pattern limit : Nat} (inside : pattern < traits.format.signUnit)
    (finite_ : limit < traits.format.infinity) :
    test.holds pattern limit ↔ pattern < traits.format.infinity ∧
      test.holds (traits.format.magnitude pattern) (traits.format.magnitude limit) := by
  have limitInside := Nat.lt_trans finite_ (FloatFormat.infinity_lt traits.format)
  cases test with
  | below =>
      refine Iff.trans Nat.cast_lt ?_
      rw [Test.holds, FloatFormat.magnitude_lt_iff inside limitInside]
      exact ⟨fun below => ⟨Nat.lt_trans below finite_, below⟩, And.right⟩
  | upTo =>
      refine Iff.trans Nat.cast_le ?_
      rw [Test.holds, FloatFormat.magnitude_le_iff inside limitInside]
      exact ⟨fun upTo => ⟨Nat.lt_of_le_of_lt upTo finite_, upTo⟩, And.right⟩

theorem inRange_iff (lawful : traits.Lawful)
    (limits : traits.Limits type high highLimit low lowLimit) (bits : BitVec width) :
    traits.inRange high highLimit low lowLimit bits = true ↔ exists value,
      traits.decode bits = .finite value ∧ high.upper type value ∧ low.lower type value := by
  rcases lawful.split bits with ⟨negative, pattern, inside, same⟩
  have nonnegative := traits.format.magnitude_nonneg pattern
  have decoded := FloatFormat.decode_signed negative inside
  rcases Nat.exists_eq_add_of_le limits.lowNegative with ⟨lowPattern, lowSame⟩
  have lowFinite : lowPattern < traits.format.infinity :=
    Nat.lt_of_add_lt_add_left (lowSame ▸ limits.lowFinite)
  have lowMagnitude := limits.low
  rw [lowSame, Nat.add_sub_cancel_left] at lowMagnitude
  have finite_iff : forall value, traits.decode bits = .finite value ↔
      pattern < traits.format.infinity ∧
        value = if negative then -traits.format.magnitude pattern
          else traits.format.magnitude pattern := by
    intro value
    rw [decode, same, decoded]
    split
    · rw [FloatValue.finite.injEq, eq_comm]
      exact (and_iff_right ‹_›).symm
    · refine ⟨fun impossible => ?_, fun finite_ => absurd finite_.1 ‹_›⟩
      split at impossible <;> cases impossible
  simp only [finite_iff, inRange, Bool.or_eq_true, Bool.and_eq_true, within_iff, BitVec.ule_iff_le, BitVec.le_def, same, lawful.negZero]
  cases negative with
  | false =>
      change high.holds (pattern : Nat) highLimit.toNat ∨ (_ ≤ pattern ∧ _) ↔ _
      rw [holds_iff high inside limits.highFinite, limits.high]
      constructor
      · rintro (⟨finite_, upper⟩ | ⟨isNegative, _⟩)
        · exact ⟨_, ⟨finite_, rfl⟩, upper, low.lower_of_nonneg type nonnegative⟩
        · omega
      · rintro ⟨value, ⟨finite_, rfl⟩, upper, _⟩
        exact .inl ⟨finite_, upper⟩
  | true =>
      change high.holds ((traits.format.signUnit + pattern : Nat) : ℚ) highLimit.toNat ∨
        (_ ≤ traits.format.signUnit + pattern ∧
          low.holds ((traits.format.signUnit + pattern : Nat) : ℚ) lowLimit.toNat) ↔ _
      rw [lowSame, Nat.cast_add, Nat.cast_add, Test.holds_add, holds_iff low inside lowFinite,
        lowMagnitude, ← Test.holds_neg low, neg_neg]
      constructor
      · rintro (above | ⟨_, finite_, lower⟩)
        · have order : traits.format.signUnit + pattern ≤ highLimit.toNat := by
            exact_mod_cast Test.le_of_holds above
          have highFinite := limits.highFinite
          have infinite := FloatFormat.infinity_lt traits.format
          omega
        · exact ⟨_, ⟨finite_, rfl⟩, high.upper_of_nonpos type (neg_nonpos.mpr nonnegative), lower⟩
      · rintro ⟨value, ⟨finite_, rfl⟩, _, lower⟩
        exact .inr ⟨Nat.le_add_right _ _, finite_, lower⟩

end Ranges

end FloatTraits

/-! ## Every row of the two tables -/

theorem isConversionInRangeFloat_iff (type : IntFormat) (bits : BitVec 32) :
    isConversionInRangeFloat type bits = true ↔
      exists value, float.decode bits = .finite value ∧ Tested .single type value := by
  have lawful := lawful_float
  cases type with
  | s32 => exact inRange_iff lawful (by constructor <;> decide +kernel) bits
  | u32 => exact inRange_iff lawful (by constructor <;> decide +kernel) bits
  | s64 => exact inRange_iff lawful (by constructor <;> decide +kernel) bits
  | u64 => exact inRange_iff lawful (by constructor <;> decide +kernel) bits

theorem isConversionInRangeDouble_iff (type : IntFormat) (bits : BitVec 64) :
    isConversionInRangeDouble type bits = true ↔
      exists value, double.decode bits = .finite value ∧ Tested .double type value := by
  have lawful := lawful_double
  cases type with
  | s32 => exact inRange_iff lawful (by constructor <;> decide +kernel) bits
  | u32 => exact inRange_iff lawful (by constructor <;> decide +kernel) bits
  | s64 => exact inRange_iff lawful (by constructor <;> decide +kernel) bits
  | u64 => exact inRange_iff lawful (by constructor <;> decide +kernel) bits

/-! ## The conversions -/

def TruncatesExactly (type : IntFormat) (value : FloatValue)
    (outcome : Except Outcome (BitVec type.width)) : Prop :=
  type.Exactly value (exists result, outcome = trap result)
    fun number => outcome = .ok (BitVec.ofInt type.width number)

section Conversions

variable {width : Nat} {traits : FloatTraits width} {type : IntFormat}
  {isConversionInRange : BitVec width -> Bool} (lawful : traits.Lawful)
  (ranged : forall bits, isConversionInRange bits = true ↔
    exists value, traits.decode bits = .finite value ∧ Tested traits.format type value)

include lawful ranged

omit lawful in
/-- What a range test lets through, the cast is defined on. -/
theorem staticCast_of_inRange {bits : BitVec width} (inRange : isConversionInRange bits = true) :
    exists value, traits.decode bits = .finite value ∧
      type.truncation (.finite value) = some (truncate value) ∧
      staticCast traits type bits = .ok (BitVec.ofInt type.width (truncate value)) := by
  rcases (ranged bits).mp inRange with ⟨value, decoded, tested⟩
  have fits : type.truncation (.finite value) = some (truncate value) := if_pos tested.represents
  exact ⟨value, decoded, fits, by rw [staticCast, decoded, fits]⟩

theorem not_nan_of_inRange {bits : BitVec width} (inRange : isConversionInRange bits = true) :
    traits.isNan bits = false := by
  rcases (ranged bits).mp inRange with ⟨value, decoded, _⟩
  rw [Bool.eq_false_iff, ne_eq, isNan_iff lawful, decoded]
  exact fun impossible => nomatch impossible

theorem intTrunc_exact_iff
    (large : traits.format.mantissaBits < type.width ->
      2 ^ (traits.format.mantissaBits + 1) ≤ type.greatest) (bits : BitVec width) :
    TruncatesExactly type (traits.decode bits)
        (intTrunc traits type isConversionInRange bits) ↔
      AwayFromLimits type (traits.decode bits) := by
  refine exactly_iff ?_ (fun value decoded tested => ?_) (fun notTested => ?_) large
  · rintro ⟨result, trapped⟩ number given
    rw [trapped] at given
    cases given
  · have inRange := (ranged bits).mpr ⟨value, decoded, tested⟩
    rcases staticCast_of_inRange ranged inRange with ⟨other, also, _, made⟩
    change traits.decode bits = _ at decoded
    rw [decoded, FloatValue.finite.injEq] at also
    rw [intTrunc, not_nan_of_inRange lawful ranged inRange, inRange, if_neg Bool.false_ne_true,
      Bool.not_true, if_neg Bool.false_ne_true, made, also]
  · have outside : isConversionInRange bits = false := by
      rw [Bool.eq_false_iff]
      intro inRange
      rcases (ranged bits).mp inRange with ⟨value, decoded, tested⟩
      exact notTested value decoded tested
    rw [intTrunc, outside, Bool.not_false, if_pos rfl]
    split
    · exact ⟨_, rfl⟩
    · exact ⟨_, rfl⟩

theorem intTruncSat_clamps (bits : BitVec width) :
    intTruncSat traits type isConversionInRange bits =
      .ok (BitVec.ofInt type.width (type.saturation (traits.decode bits))) := by
  cases isNaN : traits.isNan bits with
  | true =>
      rw [intTruncSat, isNaN, if_pos rfl, (isNan_iff lawful bits).mp isNaN]
      rfl
  | false =>
      cases inRange : isConversionInRange bits with
      | true =>
          rcases staticCast_of_inRange ranged inRange with ⟨value, decoded, fits, made⟩
          rw [intTruncSat, isNaN, inRange, if_neg Bool.false_ne_true, Bool.not_true,
            if_neg Bool.false_ne_true, made, decoded, saturation_of_represents]
          rw [truncation] at fits
          split at fits
          · assumption
          · cases fits
      | false =>
          rw [intTruncSat, isNaN, inRange, if_neg Bool.false_ne_true, Bool.not_false, if_pos rfl]
          rcases lawful.split bits with ⟨negative, pattern, inside, same⟩
          have nonnegative := traits.format.magnitude_nonneg pattern
          have sign : (bits &&& traits.kSignMask != 0) = negative := by
            rw [Bool.eq_iff_iff, signed_iff lawful, same]
            cases negative with
            | false => exact ⟨fun above => absurd inside (Nat.not_lt.mpr above), fun impossible => by cases impossible⟩
            | true => exact ⟨fun _ => rfl, fun _ => Nat.le_add_right _ _⟩
          have decoded := FloatFormat.decode_signed negative inside
          rw [← same] at decoded
          change traits.decode bits = _ at decoded
          have notTested : forall value, traits.decode bits = .finite value ->
              ¬ Tested traits.format type value := by
            intro value decoded tested
            rw [(ranged bits).mpr ⟨value, decoded, tested⟩] at inRange
            cases inRange
          have notNan : traits.decode bits ≠ .nan := by
            rw [ne_eq, ← isNan_iff lawful, isNaN]
            exact Bool.false_ne_true
          rw [sign]
          split at decoded
          · have apart := notTested _ decoded
            rw [decoded]
            -- A negative value passes the test above, so that it fails the one below.
            cases negative with
            | false =>
                have fails := fun upper => apart ⟨upper, Test.lower_of_nonneg type _ nonnegative⟩
                rw [saturation_of_ge (Test.ge_of_not_upper fails)]
                rfl
            | true =>
                have fails := fun lower =>
                  apart ⟨Test.upper_of_nonpos type _ (neg_nonpos.mpr nonnegative), lower⟩
                rw [saturation_of_le (Test.le_of_not_lower fails)]
                rfl
          · split at decoded
            · rw [decoded]
              cases negative <;> rfl
            · exact absurd decoded notNan

end Conversions

def intTruncFloat (type : IntFormat) : BitVec 32 -> Except Outcome (BitVec type.width) :=
  intTrunc float type (isConversionInRangeFloat type)

def intTruncDouble (type : IntFormat) : BitVec 64 -> Except Outcome (BitVec type.width) :=
  intTrunc double type (isConversionInRangeDouble type)

def intTruncSatFloat (type : IntFormat) : BitVec 32 -> Except Outcome (BitVec type.width) :=
  intTruncSat float type (isConversionInRangeFloat type)

def intTruncSatDouble (type : IntFormat) : BitVec 64 -> Except Outcome (BitVec type.width) :=
  intTruncSat double type (isConversionInRangeDouble type)

theorem intTruncFloat_exact_iff (type : IntFormat) (bits : BitVec 32) :
    TruncatesExactly type (float.decode bits) (intTruncFloat type bits) ↔
      AwayFromLimits type (float.decode bits) :=
  intTrunc_exact_iff lawful_float (isConversionInRangeFloat_iff type)
    (by cases type <;> decide) bits

theorem intTruncDouble_exact_iff (type : IntFormat) (bits : BitVec 64) :
    TruncatesExactly type (double.decode bits) (intTruncDouble type bits) ↔
      AwayFromLimits type (double.decode bits) :=
  intTrunc_exact_iff lawful_double (isConversionInRangeDouble_iff type)
    (by cases type <;> decide) bits

section Saturation

variable {width : Nat}

/-- A conversion that clamps, and so keeps the order. -/
structure Saturates (traits : FloatTraits width)
    (convert : (type : IntFormat) -> BitVec width -> Except Outcome (BitVec type.width)) :
    Prop where
  clamps : forall type bits, convert type bits =
    .ok (BitVec.ofInt type.width (type.saturation (traits.decode bits)))
  monotone : forall type first second,
    FloatValue.le (traits.decode first) (traits.decode second) = true ->
      exists lower upper, convert type first = .ok lower ∧ convert type second = .ok upper ∧
        type.number lower ≤ type.number upper

theorem Saturates.of_clamps {traits : FloatTraits width}
    {convert : (type : IntFormat) -> BitVec width -> Except Outcome (BitVec type.width)}
    (clamps : forall type bits, convert type bits =
      .ok (BitVec.ofInt type.width (type.saturation (traits.decode bits)))) :
    Saturates traits convert where
  clamps := clamps
  monotone := by
    intro type first second order
    refine ⟨_, _, clamps type first, clamps type second, ?_⟩
    rw [number_ofInt (type.represents_saturation _), number_ofInt (type.represents_saturation _)]
    exact type.saturation_mono order

end Saturation

theorem intTruncSat_saturates :
    Saturates float intTruncSatFloat ∧ Saturates double intTruncSatDouble := by
  constructor
  · exact .of_clamps fun type bits =>
      intTruncSat_clamps lawful_float (isConversionInRangeFloat_iff type) bits
  · exact .of_clamps fun type bits =>
      intTruncSat_clamps lawful_double (isConversionInRangeDouble_iff type) bits

end Interp
end WasmSandboxing
