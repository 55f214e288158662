import WasmSandboxing.CWriter.Macros
import WasmSandboxing.Interp.Conversions

namespace WasmSandboxing
namespace CWriter

open Foundation CLang WasmRt

/-!
# Float to integer

The macros of a truncating conversion test the float against the limits of the
integer type, converted to the float's type, and then cast it.  Their range
tests are those of the interpreter.
-/

/-- The C type of an integer format. -/
def formatType : IntFormat -> CType
  | .s32 => .s32
  | .u32 => .u32
  | .s64 => .s64
  | .u64 => .u64

/-- A result of a truncating conversion, which is an unsigned value. -/
def resultValue : (type : IntFormat) -> BitVec type.width -> CValue
  | .s32, bits | .u32, bits => .u32 bits
  | .s64, bits | .u64, bits => .u64 bits

namespace Macros

variable {Var : Type}

/-- `I32_TRUNC_S_F32` and its like, by the type of the result. -/
def truncF32 : IntFormat -> Expr Var Trap -> Expr Var Trap
  | .s32 => i32TruncSF32
  | .u32 => i32TruncUF32
  | .s64 => i64TruncSF32
  | .u64 => i64TruncUF32

/-- `I32_TRUNC_S_F64` and its like, by the type of the result. -/
def truncF64 : IntFormat -> Expr Var Trap -> Expr Var Trap
  | .s32 => i32TruncSF64
  | .u32 => i32TruncUF64
  | .s64 => i64TruncSF64
  | .u64 => i64TruncUF64

end Macros

namespace Macros

variable {Var : Type}

/-- What `TRUNC_S` and `TRUNC_U` share. -/
def rangeChecked (ft : CType) (minop maxop : BinaryOp) (min max x result : Expr Var Trap) :
    Expr Var Trap :=
  .cond (unlikely (.binary .ne x x)) (.trap .invalidConversion)
    (.cond (unlikely (.or (.binary minop x (.cast ft min)) (.binary maxop x (.cast ft max))))
      (.trap .intOverflow) result)

end Macros

/-! ## Evaluation -/

section Evaluation

variable {width : Nat} {Var : Type} {fpu : FloatUnit} {declared : Var -> CType}
  {valuation : Var -> Option CValue}

/-- How the bits of a floating type are a value, and what they denote. -/
structure IsFloat (fpu : FloatUnit) (wrap : BitVec width -> CValue)
    (value : BitVec width -> FloatValue) : Prop where
  compare : forall {op : BinaryOp} {comparison : Comparison}, op.isShift = false ->
    op.apply fpu = comparison.apply -> forall first second,
      op.run fpu (wrap first) (wrap second) =
        some (.ofBool (comparison.floating (value first) (value second)))
  convert : forall (type : IntFormat) bits,
    (wrap bits).convert fpu (formatType type) = CValue.ofFloat (formatType type) (value bits)

theorem isFloat_f32 (fpu : FloatUnit) : IsFloat fpu .f32 CValue.single where
  compare := by
    intro op comparison notShift applies first second
    rw [BinaryOp.run, notShift, if_neg Bool.false_ne_true, applies]
    rfl
  convert := by
    intro type bits
    cases type <;> rfl

theorem isFloat_f64 (fpu : FloatUnit) : IsFloat fpu .f64 CValue.double where
  compare := by
    intro op comparison notShift applies first second
    rw [BinaryOp.run, notShift, if_neg Bool.false_ne_true, applies]
    rfl
  convert := by
    intro type bits
    cases type <;> rfl

@[simp] theorem truth_ofBool (truth : Bool) : (CValue.ofBool truth).truth = truth := by
  cases truth <;> rfl

section Guards

variable {condition left right result : Expr Var Trap} {truth : Bool} {value : CValue}

theorem eval_unlikely
    (evaluates : condition.eval fpu declared valuation = .ok (.ofBool truth)) :
    (Macros.unlikely condition).eval fpu declared valuation = .ok (.ofBool truth) := by
  simp only [Macros.unlikely, Expr.eval, evaluates, Expr.ok_bind, UnaryOp.run, Expr.defined_some,
    truth_ofBool, Bool.not_not]

theorem eval_or {also : Bool} (evaluates : left.eval fpu declared valuation = .ok (.ofBool truth))
    (alsoEvaluates : right.eval fpu declared valuation = .ok (.ofBool also)) :
    (Expr.or left right).eval fpu declared valuation = .ok (.ofBool (truth || also)) := by
  rw [Expr.eval, evaluates, Expr.ok_bind, truth_ofBool]
  cases truth with
  | true => rfl
  | false =>
      rw [if_neg Bool.false_ne_true, alsoEvaluates, Expr.ok_bind, truth_ofBool]
      rfl

theorem eval_guard_true {code : Trap}
    (evaluates : condition.eval fpu declared valuation = .ok (.ofBool true)) :
    (Expr.cond (Macros.unlikely condition) (.trap code) result).eval fpu declared valuation =
      .error (.trap code) := by
  rw [Expr.eval, eval_unlikely evaluates]
  rfl

theorem eval_guard_false {code : Trap}
    (evaluates : condition.eval fpu declared valuation = .ok (.ofBool false))
    (gives : result.eval fpu declared valuation = .ok value)
    (typed : result.typeOf declared = value.type) :
    (Expr.cond (Macros.unlikely condition) (.trap code) result).eval fpu declared valuation =
      .ok value := by
  have common : CType.common .s32 value.type = value.type := if_pos (Nat.zero_le _)
  rw [Expr.eval, eval_unlikely evaluates, Expr.ok_bind, truth_ofBool, if_neg Bool.false_ne_true,
    gives, Expr.ok_bind, typed]
  change Expr.defined (value.convert fpu (CType.common .s32 value.type)) = _
  rw [common, CValue.convert_type]
  rfl

end Guards

section Checked

variable {wrap : BitVec width -> CValue} {value : BitVec width -> FloatValue}
  {bits low high : BitVec width} {ft : CType} {min max x result : Expr Var Trap}

theorem eval_compare {op : BinaryOp} {comparison : Comparison} {left right : Expr Var Trap}
    {first second : BitVec width} (isFloat : IsFloat fpu wrap value)
    (applies : op.isShift = false ∧ op.apply fpu = comparison.apply)
    (evaluates : left.eval fpu declared valuation = .ok (wrap first))
    (alsoEvaluates : right.eval fpu declared valuation = .ok (wrap second)) :
    (Expr.binary op left right).eval fpu declared valuation =
      .ok (.ofBool (comparison.floating (value first) (value second))) := by
  rw [Expr.eval, evaluates, alsoEvaluates, Expr.ok_bind, Expr.ok_bind,
    isFloat.compare applies.1 applies.2, Expr.defined_some]

end Checked

end Evaluation

/-! ## Range tests -/

open IntFormat

/-- The operator that finds a value beyond the upper limit of a test. -/
def maxop : Test -> BinaryOp
  | .below => .ge
  | .upTo => .gt

/-- The operator that finds a value beyond the lower limit of a test. -/
def minop : Test -> BinaryOp
  | .below => .le
  | .upTo => .lt

def maxComparison : Test -> Comparison
  | .below => .ge
  | .upTo => .gt

def minComparison : Test -> Comparison
  | .below => .le
  | .upTo => .lt

theorem maxop_applies (fpu : FloatUnit) (test : Test) :
    (maxop test).isShift = false ∧ (maxop test).apply fpu = (maxComparison test).apply := by
  cases test <;> exact ⟨rfl, rfl⟩

theorem minop_applies (fpu : FloatUnit) (test : Test) :
    (minop test).isShift = false ∧ (minop test).apply fpu = (minComparison test).apply := by
  cases test <;> exact ⟨rfl, rfl⟩

theorem maxComparison_iff (test : Test) (value limit : ℚ) :
    (maxComparison test).floating (.finite value) (.finite limit) = true ↔
      ¬ test.holds value limit := by
  cases test with
  | below =>
      change FloatValue.le (.finite limit) (.finite value) = true ↔ _
      rw [FloatValue.le_finite, decide_eq_true_iff]
      exact not_lt.symm
  | upTo => exact decide_eq_true_iff.trans not_le.symm

theorem minComparison_iff (test : Test) (value limit : ℚ) :
    (minComparison test).floating (.finite value) (.finite limit) = true ↔
      ¬ test.holds limit value := by
  cases test with
  | below =>
      change FloatValue.le (.finite value) (.finite limit) = true ↔ _
      rw [FloatValue.le_finite, decide_eq_true_iff]
      exact not_lt.symm
  | upTo => exact decide_eq_true_iff.trans not_le.symm

section Checked

variable {width : Nat} {Var : Type} {fpu : FloatUnit} {declared : Var -> CType}
  {valuation : Var -> Option CValue} {wrap : BitVec width -> CValue}
  {value : BitVec width -> FloatValue} {ft : CType} {min max : Expr Var Trap} {format : FloatFormat}
  {type : IntFormat}

/-- The limits of a macro, converted to the floating type, are those of the tests. -/
structure LimitsAre (fpu : FloatUnit) (declared : Var -> CType)
    (valuation : Var -> Option CValue) (wrap : BitVec width -> CValue)
    (value : BitVec width -> FloatValue) (ft : CType) (min max : Expr Var Trap)
    (format : FloatFormat) (type : IntFormat) : Prop where
  low : exists bits, (Expr.cast ft min).eval fpu declared valuation = .ok (wrap bits) ∧
    value bits = .finite ((lowTest type).low type)
  high : exists bits, (Expr.cast ft max).eval fpu declared valuation = .ok (wrap bits) ∧
    value bits = .finite ((highTest format type).high type)

variable {x result : Expr Var Trap} {bits : BitVec width} {out : CValue}

/-- The two conditions of a macro. -/
theorem eval_conditions (isFloat : IsFloat fpu wrap value)
    (limits : LimitsAre fpu declared valuation wrap value ft min max format type)
    (evaluates : x.eval fpu declared valuation = .ok (wrap bits)) :
    (Expr.binary .ne x x).eval fpu declared valuation = .ok (.ofBool (value bits).isNaN) ∧
    (Expr.or (.binary (minop (lowTest type)) x (.cast ft min))
      (.binary (maxop (highTest format type)) x (.cast ft max))).eval fpu declared valuation =
        .ok (.ofBool
          ((minComparison (lowTest type)).floating (value bits)
              (.finite ((lowTest type).low type)) ||
            (maxComparison (highTest format type)).floating (value bits)
              (.finite ((highTest format type).high type)))) := by
  rcases limits.low with ⟨lowBits, evaluatesLow, lowIs⟩
  rcases limits.high with ⟨highBits, evaluatesHigh, highIs⟩
  have differs : BinaryOp.isShift .ne = false ∧ BinaryOp.apply fpu .ne = Comparison.ne.apply :=
    ⟨rfl, rfl⟩
  constructor
  · rw [eval_compare isFloat differs evaluates evaluates]
    change Except.ok (CValue.ofBool (!FloatValue.eq _ _)) = _
    rw [FloatValue.eq_self, Bool.not_not]
  · rw [← lowIs, ← highIs]
    exact eval_or (eval_compare isFloat (minop_applies fpu _) evaluates evaluatesLow)
      (eval_compare isFloat (maxop_applies fpu _) evaluates evaluatesHigh)

theorem rangeChecked_passes {rational : ℚ} (isFloat : IsFloat fpu wrap value)
    (limits : LimitsAre fpu declared valuation wrap value ft min max format type)
    (evaluates : x.eval fpu declared valuation = .ok (wrap bits))
    (isFinite : value bits = .finite rational) (tested : Tested format type rational)
    (gives : result.eval fpu declared valuation = .ok out)
    (typed : result.typeOf declared = out.type) :
    (Macros.rangeChecked ft (minop (lowTest type)) (maxop (highTest format type)) min max x
      result).eval fpu declared valuation = .ok out := by
  rcases eval_conditions isFloat limits evaluates with ⟨isNumber, inside⟩
  have low := mt (minComparison_iff (lowTest type) rational _).mp (not_not.mpr tested.2)
  have high := mt (maxComparison_iff (highTest format type) rational _).mp (not_not.mpr tested.1)
  rw [isFinite] at isNumber inside
  rw [Bool.eq_false_iff.mpr low, Bool.eq_false_iff.mpr high] at inside
  have common : CType.common .s32 out.type = out.type := if_pos (Nat.zero_le _)
  refine eval_guard_false isNumber (eval_guard_false inside gives typed) ?_
  change CType.common .s32 (result.typeOf declared) = out.type
  rw [typed, common]

theorem rangeChecked_fails (isFloat : IsFloat fpu wrap value)
    (limits : LimitsAre fpu declared valuation wrap value ft min max format type)
    (evaluates : x.eval fpu declared valuation = .ok (wrap bits))
    (notTested : forall rational, value bits = .finite rational -> ¬ Tested format type rational) :
    exists code, (Macros.rangeChecked ft (minop (lowTest type)) (maxop (highTest format type)) min
      max x result).eval fpu declared valuation = .error (.trap code) := by
  rcases eval_conditions isFloat limits evaluates with ⟨isNumber, inside⟩
  -- A trap of the second guard comes through the first.
  have second : forall {outside : Bool}, outside = true -> (value bits).isNaN = false ->
      (Expr.or (.binary (minop (lowTest type)) x (.cast ft min))
        (.binary (maxop (highTest format type)) x (.cast ft max))).eval fpu declared valuation =
          .ok (.ofBool outside) ->
      (Macros.rangeChecked ft (minop (lowTest type)) (maxop (highTest format type)) min max x
        result).eval fpu declared valuation = .error (.trap .intOverflow) := by
    rintro outside rfl notNaN evaluates
    rw [notNaN] at isNumber
    rw [Macros.rangeChecked, Expr.eval, eval_unlikely isNumber, Expr.ok_bind, truth_ofBool,
      if_neg Bool.false_ne_true, eval_guard_true evaluates]
    rfl
  cases decoded : value bits with
  | nan =>
      rw [decoded] at isNumber
      exact ⟨_, eval_guard_true isNumber⟩
  | infinite negative =>
      refine ⟨_, second ?_ (by rw [decoded]; rfl) inside⟩
      rw [decoded]
      cases negative with
      | false => cases highTest format type <;> exact Bool.or_true _
      | true => cases lowTest type <;> rfl
  | finite rational =>
      refine ⟨_, second ?_ (by rw [decoded]; rfl) inside⟩
      rw [decoded, Bool.or_eq_true, minComparison_iff, maxComparison_iff, ← not_and_or]
      exact fun tested => notTested rational decoded ⟨tested.2, tested.1⟩

end Checked

/-! ## The eight macros -/

section Eight

variable {width : Nat} {Var : Type} {fpu : FloatUnit} {declared : Var -> CType}
  {valuation : Var -> Option CValue} {x : Expr Var Trap}

/-- The `min` of a macro; the unsigned ones have the literal `-1`. -/
def minLimit : IntFormat -> Expr Var Trap
  | .s32 => Macros.int32Min
  | .s64 => Macros.int64Min
  | .u32 | .u64 => Macros.minusOne

/-- The `max` of a macro. -/
def maxLimit : IntFormat -> Expr Var Trap
  | .s32 => Macros.int32Max
  | .u32 => Macros.uint32Max
  | .s64 => Macros.int64Max
  | .u64 => Macros.uint64Max

/-- `(ut)(st)(x)` or `(ut)(x)` -/
def castResult : IntFormat -> Expr Var Trap -> Expr Var Trap
  | .s32, x => .cast .u32 (.cast .s32 x)
  | .u32, x => .cast .u32 x
  | .s64, x => .cast .u64 (.cast .s64 x)
  | .u64, x => .cast .u64 x

theorem truncF32_eq (type : IntFormat) (x : Expr Var Trap) :
    Macros.truncF32 type x = Macros.rangeChecked .f32 (minop (lowTest type))
      (maxop (highTest .single type)) (minLimit type) (maxLimit type) x (castResult type x) := by
  cases type <;> rfl

theorem truncF64_eq (type : IntFormat) (x : Expr Var Trap) :
    Macros.truncF64 type x = Macros.rangeChecked .f64 (minop (lowTest type))
      (maxop (highTest .double type)) (minLimit type) (maxLimit type) x (castResult type x) := by
  cases type <;> rfl

theorem limits_f32 (type : IntFormat) : LimitsAre fpu declared valuation .f32 CValue.single .f32
    (minLimit type) (maxLimit type) .single type := by
  cases type with
  | s32 => exact ⟨⟨_, rfl, by decide +kernel⟩, ⟨_, rfl, by decide +kernel⟩⟩
  | u32 => exact ⟨⟨_, rfl, by decide +kernel⟩, ⟨_, rfl, by decide +kernel⟩⟩
  | s64 => exact ⟨⟨_, rfl, by decide +kernel⟩, ⟨_, rfl, by decide +kernel⟩⟩
  | u64 => exact ⟨⟨_, rfl, by decide +kernel⟩, ⟨_, rfl, by decide +kernel⟩⟩

theorem limits_f64 (type : IntFormat) : LimitsAre fpu declared valuation .f64 CValue.double .f64
    (minLimit type) (maxLimit type) .double type := by
  cases type with
  | s32 => exact ⟨⟨_, rfl, by decide +kernel⟩, ⟨_, rfl, by decide +kernel⟩⟩
  | u32 => exact ⟨⟨_, rfl, by decide +kernel⟩, ⟨_, rfl, by decide +kernel⟩⟩
  | s64 => exact ⟨⟨_, rfl, by decide +kernel⟩, ⟨_, rfl, by decide +kernel⟩⟩
  | u64 => exact ⟨⟨_, rfl, by decide +kernel⟩, ⟨_, rfl, by decide +kernel⟩⟩

theorem ofFloat_formatType {type : IntFormat} {rational : ℚ}
    (represents : type.represents (truncate rational) = true) :
    CValue.ofFloat (formatType type) (.finite rational) =
      some (CValue.ofInt (formatType type) (truncate rational)) := by
  have range := of_decide_eq_true represents
  have inType : (formatType type).represents (truncate rational) = true := by
    cases type with
    | s32 => exact decide_eq_true ⟨range.1, Int.lt_of_le_sub_one range.2⟩
    | u32 => exact decide_eq_true ⟨range.1, Int.lt_of_le_sub_one range.2⟩
    | s64 => exact decide_eq_true ⟨range.1, Int.lt_of_le_sub_one range.2⟩
    | u64 => exact decide_eq_true ⟨range.1, Int.lt_of_le_sub_one range.2⟩
  exact if_pos inType

theorem eval_castResult {type : IntFormat} {wrap : BitVec width -> CValue}
    {value : BitVec width -> FloatValue} {bits : BitVec width} {rational : ℚ}
    (isFloat : IsFloat fpu wrap value) (evaluates : x.eval fpu declared valuation = .ok (wrap bits))
    (isFinite : value bits = .finite rational)
    (represents : type.represents (truncate rational) = true) :
    (castResult type x).eval fpu declared valuation =
      .ok (resultValue type (BitVec.ofInt type.width (truncate rational))) := by
  have cast : (Expr.cast (formatType type) x).eval fpu declared valuation =
      .ok (CValue.ofInt (formatType type) (truncate rational)) := by
    rw [Expr.eval, evaluates, Expr.ok_bind, isFloat.convert, isFinite,
      ofFloat_formatType represents]
    rfl
  cases type with
  | u32 | u64 => exact cast
  | s32 =>
      rw [castResult, Expr.eval, show CType.s32 = formatType .s32 from rfl, cast]
      change Except.ok (CValue.u32 (BitVec.ofInt 32 (BitVec.ofInt 32 _).toInt)) = _
      rw [BitVec.ofInt_toInt]
      rfl
  | s64 =>
      rw [castResult, Expr.eval, show CType.s64 = formatType .s64 from rfl, cast]
      change Except.ok (CValue.u64 (BitVec.ofInt 64 (BitVec.ofInt 64 _).toInt)) = _
      rw [BitVec.ofInt_toInt]
      rfl

/-- A trap where the format has no such number, else the number. -/
def TruncatesExactly (type : IntFormat) (value : FloatValue)
    (outcome : Except (Stop Trap) CValue) : Prop :=
  type.Exactly value (exists code, outcome = .error (.trap code))
    fun number => outcome = .ok (resultValue type (BitVec.ofInt type.width number))

theorem rangeChecked_exact_iff {type : IntFormat} {wrap : BitVec width -> CValue}
    {format : FloatFormat} {ft : CType} {bits : BitVec width}
    (isFloat : IsFloat fpu wrap fun bits => format.decode bits.toNat)
    (limits : LimitsAre fpu declared valuation wrap (fun bits => format.decode bits.toNat) ft
      (minLimit type) (maxLimit type) format type)
    (large : format.mantissaBits < type.width -> 2 ^ (format.mantissaBits + 1) ≤ type.greatest)
    (evaluates : x.eval fpu declared valuation = .ok (wrap bits)) :
    TruncatesExactly type (format.decode bits.toNat)
        ((Macros.rangeChecked ft (minop (lowTest type)) (maxop (highTest format type))
          (minLimit type) (maxLimit type) x (castResult type x)).eval fpu declared valuation) ↔
      AwayFromLimits type (format.decode bits.toNat) := by
  refine exactly_iff ?_ (fun rational decoded tested => ?_) (fun notTested => ?_) large
  · rintro ⟨code, trapped⟩ number given
    rw [trapped] at given
    cases given
  · have given := eval_castResult isFloat evaluates decoded tested.represents
    refine rangeChecked_passes isFloat limits evaluates decoded tested given ?_
    cases type <;> rfl
  · exact rangeChecked_fails isFloat limits evaluates notTested

end Eight

/-! ## Both implementations -/

open Interp (intTruncFloat intTruncDouble)

/-- The interpreter and the macro, for an `f32`. -/
def ExactFloat (fpu : FloatUnit) (type : IntFormat) (bits : BitVec 32) : Prop :=
  Interp.TruncatesExactly type (CValue.single bits) (intTruncFloat type bits) ∧
    TruncatesExactly type (CValue.single bits)
      ((Macros.truncF32 type (.var ())).eval fpu (fun _ => .f32) (fun _ => some (.f32 bits)))

/-- The interpreter and the macro, for an `f64`. -/
def ExactDouble (fpu : FloatUnit) (type : IntFormat) (bits : BitVec 64) : Prop :=
  Interp.TruncatesExactly type (CValue.double bits) (intTruncDouble type bits) ∧
    TruncatesExactly type (CValue.double bits)
      ((Macros.truncF64 type (.var ())).eval fpu (fun _ => .f64) (fun _ => some (.f64 bits)))

/-- Only a fraction beside a limit is trapped without need; neither an `f32` nor
a 64-bit integer type has one there. -/
theorem truncation_exact_iff (fpu : FloatUnit) (type : IntFormat) :
    (forall bits, ExactFloat fpu type bits) ∧
    (forall bits, type.width = 64 -> ExactDouble fpu type bits) ∧
    forall bits, ExactDouble fpu type bits ↔ AwayFromLimits type (CValue.double bits) := by
  have onFloat : forall bits, ExactFloat fpu type bits ↔
      AwayFromLimits type (CValue.single bits) := by
    intro bits
    have macro_ := rangeChecked_exact_iff (isFloat_f32 fpu) (limits_f32 type)
      (by cases type <;> decide) (show (Expr.var ()).eval fpu (fun _ => .f32)
        (fun _ => some (.f32 bits)) = .ok (.f32 bits) from rfl)
    rw [← truncF32_eq] at macro_
    exact ⟨fun exactly => macro_.mp exactly.2,
      fun away => ⟨(Interp.intTruncFloat_exact_iff type bits).mpr away, macro_.mpr away⟩⟩
  have onDouble : forall bits, ExactDouble fpu type bits ↔
      AwayFromLimits type (CValue.double bits) := by
    intro bits
    have macro_ := rangeChecked_exact_iff (isFloat_f64 fpu) (limits_f64 type)
      (by cases type <;> decide) (show (Expr.var ()).eval fpu (fun _ => .f64)
        (fun _ => some (.f64 bits)) = .ok (.f64 bits) from rfl)
    rw [← truncF64_eq] at macro_
    exact ⟨fun exactly => macro_.mp exactly.2,
      fun away => ⟨(Interp.intTruncDouble_exact_iff type bits).mpr away, macro_.mpr away⟩⟩
  refine ⟨fun bits => (onFloat bits).mpr ?_, fun bits wide => (onDouble bits).mpr ?_, onDouble⟩
  · exact awayFromLimits_of_wide (by cases type <;> decide) (by cases type <;> decide)
  · refine awayFromLimits_of_wide ?_ ?_
    · cases type with
      | s32 | u32 => cases wide
      | s64 | u64 => decide
    · cases type with
      | s32 | u32 => cases wide
      | s64 | u64 => decide

/-- `2147483647.5` becomes `2147483647`, but both of them trap. -/
theorem truncation_traps_needlessly :
    CValue.double 0x41dfffffffe00000 = .finite (2147483647 + 1 / 2) ∧
    IntFormat.s32.truncation (CValue.double 0x41dfffffffe00000) = some 2147483647 ∧
    intTruncDouble .s32 0x41dfffffffe00000 = Interp.trap .trapIntegerOverflow ∧
    (Macros.truncF64 .s32 (.var ())).eval default (fun _ => .f64)
      (fun _ => some (.f64 0x41dfffffffe00000)) = .error (.trap .intOverflow) ∧
    ¬ ExactDouble default .s32 0x41dfffffffe00000 := by
  have fits : IntFormat.s32.truncation (CValue.double 0x41dfffffffe00000) = some 2147483647 := by
    decide +kernel
  have traps : intTruncDouble .s32 0x41dfffffffe00000 = Interp.trap .trapIntegerOverflow := by
    decide
  refine ⟨by decide +kernel, fits, traps, by decide +kernel, fun exactly => ?_⟩
  have given := exactly.1.gives _ fits
  rw [traps] at given
  cases given

end CWriter
end WasmSandboxing
