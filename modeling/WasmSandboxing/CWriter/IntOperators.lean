import WasmSandboxing.CWriter.Conversions
import WasmSandboxing.CWriter.Operators
import WasmSandboxing.Interp.IntOperators

namespace WasmSandboxing
namespace CWriter

open Foundation CLang WasmRt Wasm

/-!
# Integer operators

The statement for an integer operator assigns what the interpreter pushes, and
traps where the interpreter does.  A 32-bit and a 64-bit operator differ in the
types of their operands only.
-/

/-- How the bits of an integer are an unsigned and a signed value. -/
structure IsInteger {width : Nat} (fpu : FloatUnit) (unsigned signed : BitVec width -> CValue)
    (ut st : CType) : Prop where
  wide : 32 ≤ width ∧ width ≤ 64
  unsignedType : forall bits, (unsigned bits).type = ut
  signedType : forall bits, (signed bits).type = st
  toSigned : forall bits, (unsigned bits).convert fpu st = some (signed bits)
  toUnsigned : forall bits, (signed bits).convert fpu ut = some (unsigned bits)
  ofInt : forall number, CValue.ofInt ut number = unsigned (BitVec.ofInt width number)
  ofIntSigned : forall number, CValue.ofInt st number = signed (BitVec.ofInt width number)
  commonUnsigned : ut.common .s32 = ut ∧ CType.common .s32 ut = ut
  commonSigned : st.common .s32 = st ∧ CType.common .s32 st = st
  arithmetic : forall (operator : Arithmetic) first second,
    operator.apply fpu (unsigned first) (unsigned second) =
        (operator.unsigned first second).map unsigned ∧
      operator.apply fpu (signed first) (signed second) =
        (operator.signed first second).map signed
  comparison : forall (comparison : Comparison) first second,
    comparison.apply (unsigned first) (unsigned second) =
        some (.ofBool (comparison.integer first.toNat second.toNat)) ∧
      comparison.apply (signed first) (signed second) =
        some (.ofBool (comparison.integer first.toInt second.toInt))
  truth : forall bits, (unsigned bits).truth = decide (bits ≠ 0)
  narrow : forall bits, (unsigned bits).convert fpu .u32 = some (.u32 (bits.setWidth 32))
  masked : forall bits : BitVec width,
    (bits &&& BitVec.ofNat width (width - 1)).toNat = bits.toNat % width
  complement : forall bits : BitVec width,
    ((BitVec.ofNat width (width - 1) - bits + BitVec.ofNat width 1) &&&
      BitVec.ofNat width (width - 1)).toNat = (width - bits.toNat % width) % width
  shiftLeft : forall bits count, count.toNat < width ->
    CLang.shiftLeft (unsigned bits) (unsigned count) = some (unsigned (bits <<< count.toNat))
  shiftRight : forall bits count, count.toNat < width ->
    CLang.shiftRight (unsigned bits) (unsigned count) = some (unsigned (bits >>> count.toNat)) ∧
      CLang.shiftRight (signed bits) (unsigned count) =
        some (signed (bits.sshiftRight count.toNat))

theorem isInteger_i32 (fpu : FloatUnit) : IsInteger fpu .u32 .s32 .u32 .s32 where
  wide := by decide
  unsignedType _ := rfl
  signedType _ := rfl
  toSigned bits := by simp [CValue.convert, CValue.ofInt]
  toUnsigned bits := by simp [CValue.convert, CValue.ofInt]
  ofInt _ := rfl
  ofIntSigned _ := rfl
  commonUnsigned := ⟨rfl, rfl⟩
  commonSigned := ⟨rfl, rfl⟩
  arithmetic _ _ _ := ⟨rfl, rfl⟩
  comparison _ _ _ := ⟨rfl, rfl⟩
  truth _ := rfl
  narrow bits := by simp [CValue.convert, CValue.ofInt]
  masked bits := by
    rw [BitVec.toNat_and]
    exact Nat.and_two_pow_sub_one_eq_mod _ 5
  complement bits := by
    have bound := bits.isLt
    rw [BitVec.toNat_and, BitVec.toNat_add, BitVec.toNat_sub]
    refine (Nat.and_two_pow_sub_one_eq_mod _ 5).trans ?_
    simp only [BitVec.toNat_ofNat]
    omega
  shiftLeft bits count small := by
    have range : (0 : ℤ) ≤ count.toNat ∧ (count.toNat : ℤ) < (32 : Nat) := by omega
    simp only [CLang.shiftLeft, shiftCount, Option.bind_some, if_pos range, Option.map_some,
      Int.toNat_natCast]
  shiftRight bits count small := by
    have range : (0 : ℤ) ≤ count.toNat ∧ (count.toNat : ℤ) < (32 : Nat) := by omega
    simp only [CLang.shiftRight, shiftCount, Option.bind_some, if_pos range, Option.map_some,
      Int.toNat_natCast, and_self]

theorem isInteger_i64 (fpu : FloatUnit) : IsInteger fpu .u64 .s64 .u64 .s64 where
  wide := by decide
  unsignedType _ := rfl
  signedType _ := rfl
  toSigned bits := by simp [CValue.convert, CValue.ofInt]
  toUnsigned bits := by simp [CValue.convert, CValue.ofInt]
  ofInt _ := rfl
  ofIntSigned _ := rfl
  commonUnsigned := ⟨rfl, rfl⟩
  commonSigned := ⟨rfl, rfl⟩
  arithmetic _ _ _ := ⟨rfl, rfl⟩
  comparison _ _ _ := ⟨rfl, rfl⟩
  truth _ := rfl
  narrow bits := by
    rw [CValue.convert, CValue.ofInt, BitVec.ofInt_natCast]
    rfl
  masked bits := by
    rw [BitVec.toNat_and]
    exact Nat.and_two_pow_sub_one_eq_mod _ 6
  complement bits := by
    have bound := bits.isLt
    rw [BitVec.toNat_and, BitVec.toNat_add, BitVec.toNat_sub]
    refine (Nat.and_two_pow_sub_one_eq_mod _ 6).trans ?_
    simp only [BitVec.toNat_ofNat]
    omega
  shiftLeft bits count small := by
    have range : (0 : ℤ) ≤ count.toNat ∧ (count.toNat : ℤ) < (64 : Nat) := by omega
    simp only [CLang.shiftLeft, shiftCount, Option.bind_some, if_pos range, Option.map_some,
      Int.toNat_natCast]
  shiftRight bits count small := by
    have range : (0 : ℤ) ≤ count.toNat ∧ (count.toNat : ℤ) < (64 : Nat) := by omega
    simp only [CLang.shiftRight, shiftCount, Option.bind_some, if_pos range, Option.map_some,
      Int.toNat_natCast, and_self]

section Running

variable {width : Nat} {fpu : FloatUnit} {unsigned signed : BitVec width -> CValue}
  {ut st : CType} {op : BinaryOp}

theorem common_self (type : CType) : type.common type = type := if_pos (Nat.le_refl _)

/-- An operator other than a shift on operands with a common type. -/
theorem run_of_convert {first second left right : CValue} {common : CType}
    (notShift : op.isShift = false) (same : first.type.common second.type = common)
    (toLeft : first.convert fpu common = some left)
    (toRight : second.convert fpu common = some right) :
    op.run fpu first second = op.apply fpu left right := by
  simp only [BinaryOp.run, notShift, Bool.false_eq_true, if_false, same, toLeft, toRight,
    Option.bind_some]

variable (integer : IsInteger fpu unsigned signed ut st) (bits other : BitVec width)
include integer

theorem IsInteger.keepUnsigned : (unsigned bits).convert fpu ut = some (unsigned bits) := by
  have same := CValue.convert_type fpu (unsigned bits)
  rwa [integer.unsignedType] at same

theorem IsInteger.keepSigned : (signed bits).convert fpu st = some (signed bits) := by
  have same := CValue.convert_type fpu (signed bits)
  rwa [integer.signedType] at same

theorem IsInteger.runUnsigned (notShift : op.isShift = false) :
    op.run fpu (unsigned bits) (unsigned other) =
      op.apply fpu (unsigned bits) (unsigned other) :=
  run_of_convert notShift (by rw [integer.unsignedType, integer.unsignedType, common_self])
    (integer.keepUnsigned bits) (integer.keepUnsigned other)

theorem IsInteger.runSigned (notShift : op.isShift = false) :
    op.run fpu (signed bits) (signed other) = op.apply fpu (signed bits) (signed other) :=
  run_of_convert notShift (by rw [integer.signedType, integer.signedType, common_self])
    (integer.keepSigned bits) (integer.keepSigned other)

/-- An `int` beside an unsigned operand is converted to the type of that. -/
theorem IsInteger.runUnsignedInt (notShift : op.isShift = false) (number : BitVec 32) :
    op.run fpu (unsigned bits) (.s32 number) =
      op.apply fpu (unsigned bits) (unsigned (BitVec.ofInt width number.toInt)) :=
  run_of_convert notShift (by rw [integer.unsignedType]; exact integer.commonUnsigned.1)
    (integer.keepUnsigned bits) (congrArg some (integer.ofInt _))

theorem IsInteger.runIntUnsigned (notShift : op.isShift = false) (number : BitVec 32) :
    op.run fpu (.s32 number) (unsigned bits) =
      op.apply fpu (unsigned (BitVec.ofInt width number.toInt)) (unsigned bits) :=
  run_of_convert notShift (by rw [integer.unsignedType]; exact integer.commonUnsigned.2)
    (congrArg some (integer.ofInt _)) (integer.keepUnsigned bits)

theorem IsInteger.runSignedInt (notShift : op.isShift = false) (number : BitVec 32) :
    op.run fpu (signed bits) (.s32 number) =
      op.apply fpu (signed bits) (signed (BitVec.ofInt width number.toInt)) :=
  run_of_convert notShift (by rw [integer.signedType]; exact integer.commonSigned.1)
    (integer.keepSigned bits) (congrArg some (integer.ofIntSigned _))

end Running

section Evaluating

variable {width : Nat} {Var : Type} {fpu : FloatUnit} {declared : Var -> CType}
  {valuation : Var -> Option CValue} {unsigned signed : BitVec width -> CValue} {ut st : CType}
  {x y : Expr Var Trap} {lhs rhs : BitVec width}

/-- An expression with its type and its value. -/
structure Operand (fpu : FloatUnit) (declared : Var -> CType) (valuation : Var -> Option CValue)
    (x : Expr Var Trap) (type : CType) (value : CValue) : Prop where
  evaluates : x.eval fpu declared valuation = .ok value
  typed : x.typeOf declared = type

theorem toInt_small {number : Nat} (small : number < 2 ^ 31) :
    (BitVec.ofNat 32 number).toInt = number := by
  rw [BitVec.toInt_eq_toNat_of_lt] <;> rw [BitVec.toNat_ofNat] <;> omega

theorem operand_int {number : Nat} (small : number < 2 ^ 31) :
    Operand fpu declared valuation (Macros.int number) .s32 (.s32 (BitVec.ofNat 32 number)) where
  evaluates := by rw [Macros.int, Expr.eval, CValue.decimal, if_pos small]
  typed := by rw [Macros.int, Expr.typeOf, CValue.decimal, if_pos small]; rfl

theorem operand_minusOne :
    Operand fpu declared valuation Macros.minusOne .s32 (.s32 (-1#32)) where
  evaluates := rfl
  typed := rfl

/-- An operator whose result is defined. -/
theorem Operand.binary (op : BinaryOp) {xt yt : CType} {first second value : CValue}
    (left : Operand fpu declared valuation x xt first)
    (right : Operand fpu declared valuation y yt second)
    (runs : op.run fpu first second = some value) :
    Operand fpu declared valuation (.binary op x y) (op.type xt yt) value where
  evaluates := by
    rw [Expr.eval, left.evaluates, Expr.ok_bind, right.evaluates, Expr.ok_bind, runs]
    rfl
  typed := by rw [Expr.typeOf, left.typed, right.typed]

theorem Operand.convert {type target : CType} {value converted : CValue}
    (operand : Operand fpu declared valuation x type value)
    (converts : value.convert fpu target = some converted) :
    Operand fpu declared valuation (.cast target x) target converted where
  evaluates := by
    rw [Expr.eval, operand.evaluates, Expr.ok_bind, converts]
    rfl
  typed := rfl

/-- A conditional whose branches have a common type. -/
theorem Operand.cond {condition yes no : Expr Var Trap} {held : CValue} {yt nt common : CType}
    {value : CValue} (tested : condition.eval fpu declared valuation = .ok held)
    (yesTyped : yes.typeOf declared = yt) (noTyped : no.typeOf declared = nt)
    (same : yt.common nt = common)
    (selected : ((if held.truth then yes else no).eval fpu declared valuation >>= fun value =>
      Expr.defined (value.convert fpu common)) = .ok value) :
    Operand fpu declared valuation (.cond condition yes no) common value where
  evaluates := by
    subst yesTyped noTyped same
    rw [Expr.eval, tested, Expr.ok_bind, ← selected]
    cases held.truth <;> rfl
  typed := by rw [Expr.typeOf, yesTyped, noTyped, same]

/-- A conditional that traps. -/
theorem cond_traps {condition yes no : Expr Var Trap} {truth : Bool} {code : Trap}
    (tested : condition.eval fpu declared valuation = .ok (.ofBool truth))
    (selected : (if truth then yes else no).eval fpu declared valuation = .error (.trap code)) :
    (Expr.cond condition yes no).eval fpu declared valuation = .error (.trap code) := by
  rw [Expr.eval, tested, Expr.ok_bind, truth_ofBool]
  cases truth with
  | true =>
      rw [if_pos rfl] at selected
      simp only [if_true, selected, Expr.error_bind]
  | false =>
      rw [if_neg Bool.false_ne_true] at selected
      simp only [Bool.false_eq_true, if_false, selected, Expr.error_bind]

end Evaluating

/-! ## The macros -/

/-- The traps of a division. -/
def cTrap : Interp.Result -> Stop Trap
  | .trapIntegerDivideByZero => .trap .divByZero
  | .trapIntegerOverflow => .trap .intOverflow
  | _ => .undefined

/-- A result of the interpreter's division as one of C. -/
def cOutcome {Rep : Type} (wrap : Rep -> CValue) (result : Except Interp.Result Rep) :
    Except (Stop Trap) CValue :=
  (result.map wrap).mapError cTrap

section Macros

variable {width : Nat} {Var : Type} {fpu : FloatUnit} {declared : Var -> CType}
  {valuation : Var -> Option CValue} {unsigned signed : BitVec width -> CValue} {ut st : CType}
  {x y : Expr Var Trap} {lhs rhs : BitVec width}
  (integer : IsInteger fpu unsigned signed ut st)
include integer

theorem IsInteger.toInt_int (number : BitVec 32) :
    (BitVec.ofInt width number.toInt).toInt = number.toInt :=
  BitVec.toInt_signExtend_of_le integer.wide.1

/-- `(y) == 0` for an unsigned operand. -/
theorem IsInteger.eval_zero (right : Operand fpu declared valuation y ut (unsigned rhs)) :
    (Expr.binary .eq y (Macros.int 0)).eval fpu declared valuation =
      .ok (.ofBool (decide (rhs = 0))) := by
  refine (right.binary .eq (operand_int (by decide)) ?_).evaluates
  rw [integer.runUnsignedInt rhs rfl, toInt_small (by decide)]
  refine ((integer.comparison .eq rhs _).1).trans ?_
  have same : ((rhs.toNat : ℤ) = ((BitVec.ofInt width (0 : Nat)).toNat : ℤ)) ↔ rhs = 0 := by
    rw [Int.natCast_inj, BitVec.toNat_inj]
    rfl
  exact congrArg (fun truth => some (CValue.ofBool truth)) (decide_eq_decide.mpr same)

/-- `(y) == literal` for a signed operand. -/
theorem IsInteger.eval_eqInt {literal : Expr Var Trap} {number : BitVec 32}
    (right : Operand fpu declared valuation y st (signed rhs))
    (constant : Operand fpu declared valuation literal .s32 (.s32 number)) :
    (Expr.binary .eq y literal).eval fpu declared valuation =
      .ok (.ofBool (decide (rhs.toInt = number.toInt))) := by
  refine (right.binary .eq constant ?_).evaluates
  rw [integer.runSignedInt rhs rfl]
  refine ((integer.comparison .eq rhs _).2).trans ?_
  rw [integer.toInt_int]
  rfl

theorem IsInteger.eval_divremU {op : BinaryOp} (arithmetic : Arithmetic) (quotient : BitVec width)
    (left : Operand fpu declared valuation x ut (unsigned lhs))
    (right : Operand fpu declared valuation y ut (unsigned rhs))
    (plain : op.isShift = false ∧ op.isComparison = false)
    (applies : op.apply fpu = arithmetic.apply fpu)
    (divides : rhs ≠ 0 -> arithmetic.unsigned lhs rhs = some quotient) :
    (Macros.divremU op x y).eval fpu declared valuation =
      if rhs = 0 then .error (.trap .divByZero) else .ok (unsigned quotient) := by
  have tested := integer.eval_zero right
  by_cases zero : rhs = 0
  · rw [decide_eq_true zero] at tested
    rw [if_pos zero]
    exact eval_guard_true tested
  · rw [decide_eq_false zero] at tested
    rw [if_neg zero]
    have runs : op.run fpu (unsigned lhs) (unsigned rhs) = some (unsigned quotient) := by
      rw [integer.runUnsigned lhs rhs plain.1, applies, (integer.arithmetic arithmetic lhs rhs).1,
        divides zero, Option.map_some]
    have result := left.binary op right runs
    refine eval_guard_false tested result.evaluates ?_
    rw [result.typed, integer.unsignedType, BinaryOp.type, plain.1, plain.2,
      if_neg Bool.false_ne_true, if_neg Bool.false_ne_true, common_self]

theorem IsInteger.eval_divU (left : Operand fpu declared valuation x ut (unsigned lhs))
    (right : Operand fpu declared valuation y ut (unsigned rhs)) :
    (Macros.divU x y).eval fpu declared valuation =
      cOutcome unsigned (Interp.intDivU lhs rhs) := by
  rw [Macros.divU, integer.eval_divremU .div (lhs / rhs) left right ⟨rfl, rfl⟩ rfl
    (fun zero => if_neg zero), Interp.intDivU]
  split <;> rfl

theorem IsInteger.eval_remU (left : Operand fpu declared valuation x ut (unsigned lhs))
    (right : Operand fpu declared valuation y ut (unsigned rhs)) :
    (Macros.remU x y).eval fpu declared valuation =
      cOutcome unsigned (Interp.intRemU lhs rhs) := by
  rw [Macros.remU, integer.eval_divremU .rem (lhs % rhs) left right ⟨rfl, rfl⟩ rfl
    (fun zero => if_neg zero), Interp.intRemU]
  split <;> rfl

/-! ### Signed division -/

omit integer in
theorem eval_and {left right : Expr Var Trap} {truth also : Bool}
    (evaluates : left.eval fpu declared valuation = .ok (.ofBool truth))
    (alsoEvaluates : right.eval fpu declared valuation = .ok (.ofBool also)) :
    (Expr.and left right).eval fpu declared valuation = .ok (.ofBool (truth && also)) := by
  rw [Expr.eval, evaluates, Expr.ok_bind, truth_ofBool]
  cases truth with
  | false => rfl
  | true =>
      rw [if_pos rfl, alsoEvaluates, Expr.ok_bind, truth_ofBool]
      rfl

/-- `(x) == min && (y) == -1` -/
theorem IsInteger.eval_overflow {min : Expr Var Trap} {minBits : BitVec width}
    (left : Operand fpu declared valuation x st (signed lhs))
    (right : Operand fpu declared valuation y st (signed rhs))
    (limit : Operand fpu declared valuation min st (signed minBits))
    (least : minBits.toInt = Interp.least width) :
    (Expr.and (.binary .eq x min) (.binary .eq y Macros.minusOne)).eval fpu declared valuation =
      .ok (.ofBool (!Interp.isNormalDivRemS width lhs.toInt rhs.toInt)) := by
  have first : (Expr.binary .eq x min).eval fpu declared valuation =
      .ok (.ofBool (decide (lhs.toInt = Interp.least width))) := by
    refine (left.binary .eq limit ?_).evaluates
    rw [integer.runSigned lhs minBits rfl, ← least]
    exact (integer.comparison .eq lhs minBits).2
  rw [eval_and first (integer.eval_eqInt right operand_minusOne), Interp.isNormalDivRemS,
    Bool.not_not]
  rfl

/-- The quotient or the remainder of a normal division. -/
theorem IsInteger.operand_divremS (op : BinaryOp) (arithmetic : Arithmetic) {number : ℤ}
    (left : Operand fpu declared valuation x st (signed lhs))
    (right : Operand fpu declared valuation y st (signed rhs))
    (plain : op.isShift = false) (applies : op.apply fpu = arithmetic.apply fpu)
    (divides : arithmetic.signed lhs rhs = some (BitVec.ofInt width number)) :
    Operand fpu declared valuation (.cast ut (.binary op x y)) ut
      (unsigned (BitVec.ofInt width number)) := by
  refine (left.binary op right ?_).convert (integer.toUnsigned _)
  rw [integer.runSigned lhs rhs plain, applies, (integer.arithmetic arithmetic lhs rhs).2,
    divides, Option.map_some]

omit integer in
theorem toInt_range (bits : BitVec width) :
    -2 ^ (width - 1) ≤ bits.toInt ∧ bits.toInt < 2 ^ (width - 1) :=
  ⟨BitVec.le_toInt bits, BitVec.toInt_lt⟩

omit integer in
/-- A normal quotient is in range. -/
theorem checked_tdiv (notZero : rhs.toInt ≠ 0)
    (normal : Interp.isNormalDivRemS width lhs.toInt rhs.toInt = true) :
    (Arithmetic.checked (lhs.toInt.tdiv rhs.toInt) : Option (BitVec width)) =
      some (BitVec.ofInt width (lhs.toInt.tdiv rhs.toInt)) := by
  rcases toInt_range lhs with ⟨low, high⟩
  refine if_pos ?_
  by_cases minusOne : rhs.toInt = -1
  · have notLeast : lhs.toInt ≠ -2 ^ (width - 1) := by
      intro same
      rw [Interp.isNormalDivRemS, Interp.least, same, minusOne] at normal
      simp at normal
    rw [minusOne, Int.tdiv_neg, Int.tdiv_one]
    omega
  · by_cases one : rhs.toInt = 1
    · rw [one, Int.tdiv_one]
      exact ⟨low, high⟩
    · have half : (lhs.toInt.tdiv rhs.toInt).natAbs ≤ lhs.toInt.natAbs / 2 := by
        rw [Int.natAbs_tdiv]
        exact Nat.div_le_div_left (by omega) (by decide)
      omega

omit integer in
theorem checked_tmod : (Arithmetic.checked (lhs.toInt.tmod rhs.toInt) : Option (BitVec width)) =
      some (BitVec.ofInt width (lhs.toInt.tmod rhs.toInt)) := by
  rcases toInt_range lhs with ⟨low, high⟩
  refine if_pos ?_
  rcases Int.le_total 0 lhs.toInt with positive | negative
  · have below := Int.tmod_nonneg rhs.toInt positive
    have above := Int.natAbs_tmod lhs.toInt rhs.toInt
    have less := Nat.mod_le lhs.toInt.natAbs rhs.toInt.natAbs
    omega
  · have below := Int.natAbs_tmod lhs.toInt rhs.toInt
    have less := Nat.mod_le lhs.toInt.natAbs rhs.toInt.natAbs
    have sign := Int.tmod_nonneg rhs.toInt (Int.neg_nonneg.mpr negative)
    rw [Int.neg_tmod] at sign
    omega

omit integer in
theorem ne_zero_of_toInt (notZero : rhs.toInt ≠ 0) : rhs ≠ 0 := by
  rintro rfl
  exact notZero BitVec.toInt_zero

theorem IsInteger.eval_divS {min : Expr Var Trap} {minBits : BitVec width}
    (left : Operand fpu declared valuation x st (signed lhs))
    (right : Operand fpu declared valuation y st (signed rhs))
    (limit : Operand fpu declared valuation min st (signed minBits))
    (least : minBits.toInt = Interp.least width) :
    (Macros.divS ut min x y).eval fpu declared valuation =
      cOutcome unsigned (Interp.intDivS lhs rhs) := by
  have zero : (Expr.binary .eq y (Macros.int 0)).eval fpu declared valuation =
      .ok (.ofBool (decide (rhs.toInt = 0))) := integer.eval_eqInt right (operand_int (by decide))
  have overflow := integer.eval_overflow left right limit least
  rw [Interp.intDivS]
  by_cases isZero : rhs.toInt = 0
  · rw [decide_eq_true isZero] at zero
    rw [if_pos isZero]
    exact eval_guard_true zero
  · rw [decide_eq_false isZero] at zero
    rw [if_neg isZero]
    cases normal : Interp.isNormalDivRemS width lhs.toInt rhs.toInt with
    | false =>
        rw [normal] at overflow
        exact cond_traps (eval_unlikely zero) (eval_guard_true overflow)
    | true =>
        rw [normal] at overflow
        have quotient := integer.operand_divremS .div .div left right rfl rfl
          ((if_neg (ne_zero_of_toInt isZero)).trans (checked_tdiv isZero normal))
        refine eval_guard_false zero (eval_guard_false overflow quotient.evaluates ?_) ?_
        · rw [quotient.typed, integer.unsignedType]
        · rw [integer.unsignedType]
          exact integer.commonUnsigned.2

theorem IsInteger.eval_remS {min : Expr Var Trap} {minBits : BitVec width}
    (left : Operand fpu declared valuation x st (signed lhs))
    (right : Operand fpu declared valuation y st (signed rhs))
    (limit : Operand fpu declared valuation min st (signed minBits))
    (least : minBits.toInt = Interp.least width) :
    (Macros.remS ut min x y).eval fpu declared valuation =
      cOutcome unsigned (Interp.intRemS lhs rhs) := by
  have zero : (Expr.binary .eq y (Macros.int 0)).eval fpu declared valuation =
      .ok (.ofBool (decide (rhs.toInt = 0))) := integer.eval_eqInt right (operand_int (by decide))
  have overflow := eval_unlikely (integer.eval_overflow left right limit least)
  have literal : Operand fpu declared valuation (Macros.int 0) .s32 (.s32 (BitVec.ofNat 32 0)) :=
    operand_int (by decide)
  rw [Interp.intRemS]
  by_cases isZero : rhs.toInt = 0
  · rw [decide_eq_true isZero] at zero
    rw [if_pos isZero]
    exact eval_guard_true zero
  · rw [decide_eq_false isZero] at zero
    rw [if_neg isZero]
    cases normal : Interp.isNormalDivRemS width lhs.toInt rhs.toInt with
    | false =>
        rw [normal] at overflow
        have nothing : Operand fpu declared valuation _ ut (unsigned 0) :=
          Operand.cond overflow literal.typed
          (show (Expr.cast ut (.binary .rem x y)).typeOf declared = ut from rfl)
          integer.commonUnsigned.2 (by
            rw [Bool.not_false, truth_ofBool, if_pos rfl, literal.evaluates, Expr.ok_bind]
            exact congrArg Expr.defined (congrArg some (integer.ofInt 0)))
        refine eval_guard_false zero nothing.evaluates ?_
        rw [nothing.typed, integer.unsignedType]
    | true =>
        rw [normal] at overflow
        have inRange : (Arithmetic.rem.signed lhs rhs) =
            some (BitVec.ofInt width (lhs.toInt.tmod rhs.toInt)) := by
          refine (if_neg (ne_zero_of_toInt isZero)).trans ?_
          rw [checked_tdiv isZero normal, Option.bind_some, checked_tmod]
        have remainder := integer.operand_divremS .rem .rem left right rfl rfl inRange
        have selected := Operand.cond overflow literal.typed remainder.typed
          integer.commonUnsigned.2 (by
            rw [Bool.not_true, truth_ofBool, if_neg Bool.false_ne_true, remainder.evaluates,
              Expr.ok_bind,
              integer.keepUnsigned]
            rfl)
        refine eval_guard_false zero selected.evaluates ?_
        rw [selected.typed, integer.unsignedType]

/-! ### Shifts and rotations -/

/-- The `int` that is the mask of a shift count. -/
def maskBits (width : Nat) : BitVec width := BitVec.ofNat width (width - 1)

omit integer in
theorem amount_eq (bits : BitVec width) :
    Interp.amount bits = (bits &&& maskBits width).toNat := rfl

theorem IsInteger.amount_eq_mod (bits : BitVec width) :
    Interp.amount bits = bits.toNat % width := integer.masked bits

theorem IsInteger.amount_lt (bits : BitVec width) : Interp.amount bits < width := by
  rw [integer.amount_eq_mod]
  exact Nat.mod_lt _ (Nat.lt_of_lt_of_le (by decide) integer.wide.1)

theorem IsInteger.mask_small : width - 1 < 2 ^ 31 := by
  have wide := integer.wide.2
  omega

theorem IsInteger.ofInt_mask :
    BitVec.ofInt width (BitVec.ofNat 32 (width - 1)).toInt = maskBits width := by
  rw [toInt_small integer.mask_small, BitVec.ofInt_natCast]
  rfl

omit integer in
theorem ofInt_one : BitVec.ofInt width (BitVec.ofNat 32 1).toInt = BitVec.ofNat width 1 := by
  rw [toInt_small (by decide), BitVec.ofInt_natCast]

/-- `(y) & (mask)` -/
theorem IsInteger.operand_masked (right : Operand fpu declared valuation y ut (unsigned rhs)) :
    Operand fpu declared valuation (.binary .bitand y (Macros.int (width - 1))) ut
      (unsigned (rhs &&& maskBits width)) := by
  have masked := right.binary .bitand (operand_int integer.mask_small) (by
    rw [integer.runUnsignedInt rhs rfl, integer.ofInt_mask]
    exact (integer.arithmetic .bitand rhs _).1)
  exact ⟨masked.evaluates, masked.typed.trans integer.commonUnsigned.1⟩

/-- `((mask) - (y) + 1) & (mask)` -/
theorem IsInteger.operand_complement
    (right : Operand fpu declared valuation y ut (unsigned rhs)) :
    Operand fpu declared valuation (Macros.complement y (Macros.int (width - 1))) ut
      (unsigned ((maskBits width - rhs + BitVec.ofNat width 1) &&& maskBits width)) := by
  have difference : Operand fpu declared valuation
      (.binary .sub (Macros.int (width - 1)) y) ut (unsigned (maskBits width - rhs)) := by
    have subtracted := (operand_int integer.mask_small).binary .sub right (by
      rw [integer.runIntUnsigned rhs rfl, integer.ofInt_mask]
      exact (integer.arithmetic .sub _ rhs).1)
    exact ⟨subtracted.evaluates, subtracted.typed.trans integer.commonUnsigned.2⟩
  have next : Operand fpu declared valuation
      (.binary .add (.binary .sub (Macros.int (width - 1)) y) (Macros.int 1)) ut
      (unsigned (maskBits width - rhs + BitVec.ofNat width 1)) := by
    have added := difference.binary .add (operand_int (show 1 < 2 ^ 31 by decide)) (by
      rw [integer.runUnsignedInt _ rfl, ofInt_one]
      exact (integer.arithmetic .add _ _).1)
    exact ⟨added.evaluates, added.typed.trans integer.commonUnsigned.1⟩
  exact integer.operand_masked next

/-- `(x) << (count)` and `(x) >> (count)` -/
theorem IsInteger.operand_shifts {count : Expr Var Trap} {bits : BitVec width}
    (left : Operand fpu declared valuation x ut (unsigned lhs))
    (right : Operand fpu declared valuation count ut (unsigned bits))
    (small : bits.toNat < width) :
    Operand fpu declared valuation (.binary .shl x count) ut (unsigned (lhs <<< bits.toNat)) ∧
      Operand fpu declared valuation (.binary .shr x count) ut (unsigned (lhs >>> bits.toNat)) :=
  ⟨left.binary .shl right (integer.shiftLeft lhs bits small),
    left.binary .shr right (integer.shiftRight lhs bits small).1⟩

theorem IsInteger.operand_or {first second : BitVec width}
    (left : Operand fpu declared valuation x ut (unsigned first))
    (right : Operand fpu declared valuation y ut (unsigned second)) :
    Operand fpu declared valuation (.binary .bitor x y) ut (unsigned (first ||| second)) := by
  have joined := left.binary .bitor right (by
    rw [integer.runUnsigned first second rfl]
    exact (integer.arithmetic .bitor first second).1)
  exact ⟨joined.evaluates, joined.typed.trans (common_self ut)⟩

/-- The two shift counts of a rotation add up to the width, or are zero. -/
theorem IsInteger.complement_amount (bits : BitVec width) :
    ((maskBits width - bits + BitVec.ofNat width 1) &&& maskBits width).toNat =
      if Interp.amount bits = 0 then 0 else width - 1 + 1 - Interp.amount bits := by
  have wide := integer.wide.1
  refine (integer.complement bits).trans ?_
  rw [integer.amount_eq_mod]
  have below : bits.toNat % width < width := Nat.mod_lt _ (by omega)
  split
  case isTrue zero => rw [zero, Nat.sub_zero, Nat.mod_self]
  case isFalse positive =>
    rw [Nat.mod_eq_of_lt (by omega)]
    omega

theorem IsInteger.complement_lt (bits : BitVec width) :
    ((maskBits width - bits + BitVec.ofNat width 1) &&& maskBits width).toNat < width := by
  rw [integer.complement_amount]
  have wide := integer.wide.1
  have below := integer.amount_lt bits
  split <;> omega

theorem IsInteger.operand_rotl (left : Operand fpu declared valuation x ut (unsigned lhs))
    (right : Operand fpu declared valuation y ut (unsigned rhs)) :
    Operand fpu declared valuation (Macros.rotl x y (Macros.int (width - 1))) ut
      (unsigned (Interp.intRotl lhs rhs)) := by
  have high := (integer.operand_shifts left (integer.operand_masked right)
    (integer.amount_lt rhs)).1
  have low := (integer.operand_shifts left (integer.operand_complement right)
    (integer.complement_lt rhs)).2
  have joined := integer.operand_or high low
  have same : lhs <<< (rhs &&& maskBits width).toNat |||
      lhs >>> ((maskBits width - rhs + BitVec.ofNat width 1) &&& maskBits width).toNat =
        Interp.intRotl lhs rhs := by
    rw [integer.complement_amount, ← amount_eq, Interp.intRotl]
    split
    case isTrue zero => rw [zero, BitVec.shiftLeft_zero, BitVec.ushiftRight_zero, BitVec.or_self]
    case isFalse => rfl
  rw [same] at joined
  exact joined

theorem IsInteger.operand_rotr (left : Operand fpu declared valuation x ut (unsigned lhs))
    (right : Operand fpu declared valuation y ut (unsigned rhs)) :
    Operand fpu declared valuation (Macros.rotr x y (Macros.int (width - 1))) ut
      (unsigned (Interp.intRotr lhs rhs)) := by
  have low := (integer.operand_shifts left (integer.operand_masked right)
    (integer.amount_lt rhs)).2
  have high := (integer.operand_shifts left (integer.operand_complement right)
    (integer.complement_lt rhs)).1
  have joined := integer.operand_or low high
  have same : lhs >>> (rhs &&& maskBits width).toNat |||
      lhs <<< ((maskBits width - rhs + BitVec.ofNat width 1) &&& maskBits width).toNat =
        Interp.intRotr lhs rhs := by
    rw [integer.complement_amount, ← amount_eq, Interp.intRotr]
    split
    case isTrue zero => rw [zero, BitVec.shiftLeft_zero, BitVec.ushiftRight_zero, BitVec.or_self]
    case isFalse => rfl
  rw [same] at joined
  exact joined

end Macros

/-! ## Emitted statements -/

/-- A value of the interpreter as the value of a variable. -/
def valueOf : ValueType -> Interp.Value -> CValue
  | .i32, value => .u32 value.i32
  | .i64, value => .u64 value
  | .f32, value => .f32 value.i32
  | .f64, value => .f64 value

section Statements

variable {S : Scheme}

/-- Execute an emitted assignment: the variable and the value that it is given. -/
def runAssignment (fpu : FloatUnit) (declared : CVar S -> CType)
    (valuation : CVar S -> Option CValue) : Command S -> Except (Stop Trap) (CVar S × CValue)
  | .assign target value => do
      let value <- value.eval fpu declared valuation
      let value <- Expr.defined (value.convert fpu (declared target))
      .ok (target, value)
  | .compound operator target value => do
      let value <- (Expr.binary operator (.var target) value).eval fpu declared valuation
      let value <- Expr.defined (value.convert fpu (declared target))
      .ok (target, value)
  | _ => .error .undefined

/-- The same value, or the same kind of trap. -/
inductive SameOutcome (target : CVar S) (resultType : ValueType) :
    Except Interp.Result Interp.Value -> Except (Stop Trap) (CVar S × CValue) -> Prop
  | value (value : Interp.Value) :
      SameOutcome target resultType (.ok value) (.ok (target, valueOf resultType value))
  | divideByZero :
      SameOutcome target resultType (.error .trapIntegerDivideByZero) (.error (.trap .divByZero))
  | overflow :
      SameOutcome target resultType (.error .trapIntegerOverflow) (.error (.trap .intOverflow))

/-- The statement assigns the result to the variable at the height of the
operands, or traps. -/
def Agrees (fpu : FloatUnit) (declared : CVar S -> CType) (valuation : CVar S -> Option CValue)
    (below : List ValueType) (resultType : ValueType) (written : Written S)
    (result : Except Interp.Result Interp.Value) : Prop :=
  ∃ command after, written = some (command, after) ∧
    after.typeStack = resultType :: below ∧
    SameOutcome (.stack below.length resultType) resultType result
      (runAssignment fpu declared valuation command)

/-- The bits of a type's values, and the type in C. -/
structure IsRep (rep : Interp.RepType) (type : ValueType) (unsigned : BitVec rep.width -> CValue) :
    Prop where
  fromValue : forall value, valueOf type value = unsigned (rep.fromValue value)
  toValue : forall bits, valueOf type (rep.toValue bits) = unsigned bits

theorem i32_ofI32 (bits : BitVec 32) : Interp.Value.i32 (.ofI32 bits) = bits := by
  simp [Interp.Value.i32, Interp.Value.ofI32]

theorem isRep_u32 : IsRep .u32 .i32 .u32 where
  fromValue _ := rfl
  toValue bits := congrArg CValue.u32 (i32_ofI32 bits)

theorem isRep_u64 : IsRep .u64 .i64 .u64 where
  fromValue _ := rfl
  toValue _ := rfl

variable {fpu : FloatUnit} {declared : CVar S -> CType} {valuation : CVar S -> Option CValue}
  {target : CVar S} {value : CExpr S} {type : CType}

/-- The traps of a division are those of C. -/
def Divides {Rep : Type} (result : Except Interp.Result Rep) : Prop :=
  forall reason, result = .error reason ->
    reason = .trapIntegerDivideByZero ∨ reason = .trapIntegerOverflow

theorem sameOutcome_of_divides {rep : Interp.RepType} {type : ValueType}
    {unsigned : BitVec rep.width -> CValue} {result : Except Interp.Result (BitVec rep.width)}
    (isRep : IsRep rep type unsigned) (divides : Divides result)
    (evaluates : value.eval fpu declared valuation = cOutcome unsigned result)
    (keeps : forall bits,
      (unsigned bits).convert fpu (declared target) = some (unsigned bits)) :
    SameOutcome target type (result.map rep.toValue)
      (runAssignment fpu declared valuation (.assign target value)) := by
  rw [runAssignment, evaluates]
  cases result with
  | error reason =>
      rcases divides reason rfl with rfl | rfl
      · exact .divideByZero
      · exact .overflow
  | ok bits =>
      change SameOutcome _ _ _ (Expr.defined ((unsigned bits).convert fpu (declared target)) >>= _)
      rw [keeps, ← isRep.toValue]
      exact .value _

theorem runAssignment_operand {given converted : CValue}
    (operand : Operand fpu declared valuation value type given)
    (converts : given.convert fpu (declared target) = some converted) :
    runAssignment fpu declared valuation (.assign target value) = .ok (target, converted) := by
  rw [runAssignment, operand.evaluates]
  change (Expr.defined (given.convert fpu (declared target)) >>= _) = _
  rw [converts]
  rfl

theorem runAssignment_compound {given converted : CValue} {op : BinaryOp}
    (operand : Operand fpu declared valuation (.binary op (.var target) value) type given)
    (converts : given.convert fpu (declared target) = some converted) :
    runAssignment fpu declared valuation (.compound op target value) = .ok (target, converted) := by
  rw [runAssignment, operand.evaluates]
  change (Expr.defined (given.convert fpu (declared target)) >>= _) = _
  rw [converts]
  rfl

theorem operand_var {name : CVar S} {held : CValue} (holds : valuation name = some held)
    (typed : declared name = type) : Operand fpu declared valuation (.var name) type held where
  evaluates := by
    rw [Expr.eval, holds]
    rfl
  typed := typed

theorem divides_intDivS {width : Nat} (lhs rhs : BitVec width) :
    Divides (Interp.intDivS lhs rhs) := by
  intro reason fails
  rw [Interp.intDivS] at fails
  split at fails
  · cases fails; exact Or.inl rfl
  · split at fails
    · cases fails; exact Or.inr rfl
    · cases fails

theorem divides_intRemS {width : Nat} (lhs rhs : BitVec width) :
    Divides (Interp.intRemS lhs rhs) := by
  intro reason fails
  rw [Interp.intRemS] at fails
  split at fails
  · cases fails; exact Or.inl rfl
  · split at fails <;> cases fails

theorem divides_intDivU {width : Nat} (lhs rhs : BitVec width) :
    Divides (Interp.intDivU lhs rhs) := by
  intro reason fails
  rw [Interp.intDivU] at fails
  split at fails
  · cases fails; exact Or.inl rfl
  · cases fails

theorem divides_intRemU {width : Nat} (lhs rhs : BitVec width) :
    Divides (Interp.intRemU lhs rhs) := by
  intro reason fails
  rw [Interp.intRemU] at fails
  split at fails
  · cases fails; exact Or.inl rfl
  · cases fails

end Statements

/-! ## Each way of writing -/

/-- Two operands of a type on top of the type stack, and their variables. -/
structure TwoOperands {S : Scheme} (declared : CVar S -> CType)
    (valuation : CVar S -> Option CValue) (state : WriterState S) (below : List ValueType)
    (type : ValueType) (lhs rhs : Interp.Value) : Prop where
  declares : forall index type, declared (.stack index type) = cType type
  typed : state.typeStack = type :: type :: below
  left : valuation (.stack below.length type) = some (valueOf type lhs)
  right : valuation (.stack (below.length + 1) type) = some (valueOf type rhs)

/-- One operand of a type on top of the type stack, and its variable. -/
structure OneOperand {S : Scheme} (declared : CVar S -> CType)
    (valuation : CVar S -> Option CValue) (state : WriterState S) (below : List ValueType)
    (type : ValueType) (value : Interp.Value) : Prop where
  declares : forall index type, declared (.stack index type) = cType type
  typed : state.typeStack = type :: below
  holds : valuation (.stack below.length type) = some (valueOf type value)

section Writing

variable {S : Scheme} {fpu : FloatUnit} {declared : CVar S -> CType}
  {valuation : CVar S -> Option CValue} {state : WriterState S} {below : List ValueType}
  {type resultType : ValueType} {lhs rhs value : Interp.Value} {rep : Interp.RepType}
  {unsigned signed : BitVec rep.width -> CValue} {st : CType}

theorem TwoOperands.operands (fpu : FloatUnit)
    (operands : TwoOperands declared valuation state below type lhs rhs)
    (isRep : IsRep rep type unsigned) :
    Operand fpu declared valuation (.var (.stack below.length type)) (cType type)
        (unsigned (rep.fromValue lhs)) ∧
      Operand fpu declared valuation (.var (.stack (below.length + 1) type)) (cType type)
        (unsigned (rep.fromValue rhs)) :=
  ⟨operand_var (operands.left.trans (congrArg some (isRep.fromValue lhs))) (operands.declares _ _),
    operand_var (operands.right.trans (congrArg some (isRep.fromValue rhs)))
      (operands.declares _ _)⟩

theorem OneOperand.operand (fpu : FloatUnit)
    (operands : OneOperand declared valuation state below type value)
    (isRep : IsRep rep type unsigned) :
    Operand fpu declared valuation (.var (.stack below.length type)) (cType type)
      (unsigned (rep.fromValue value)) :=
  operand_var (operands.holds.trans (congrArg some (isRep.fromValue value)))
    (operands.declares _ _)

theorem writeInfix_eq (typed : state.typeStack = type :: type :: below) (op : BinaryOp) :
    writeInfixBinaryExpr resultType op true state =
      some (.compound op (.stack below.length resultType) (.var (.stack (below.length + 1) type)),
        { state with typeStack := resultType :: below }) := by
  simp [writeInfixBinaryExpr, infixCommand, typed, WriterState.operand, WriterState.stackType,
    WriterState.stackVar, WriterState.dropTypes, WriterState.pushType]

theorem writeInfixCompare_eq (typed : state.typeStack = type :: type :: below) (op : BinaryOp) :
    writeInfixBinaryExpr resultType op false state =
      some (.assign (.stack below.length resultType) (.binary op (.var (.stack below.length type))
        (.var (.stack (below.length + 1) type))),
        { state with typeStack := resultType :: below }) := by
  simp [writeInfixBinaryExpr, infixCommand, typed, WriterState.operand, WriterState.stackType,
    WriterState.stackVar, WriterState.dropTypes, WriterState.pushType]

theorem writePrefix_eq (typed : state.typeStack = type :: type :: below)
    (op : CExpr S -> CExpr S -> CExpr S) :
    writePrefixBinaryExpr resultType op state =
      some (.assign (.stack below.length resultType) (op (.var (.stack below.length type))
        (.var (.stack (below.length + 1) type))),
        { state with typeStack := resultType :: below }) := by
  simp [writePrefixBinaryExpr, typed, WriterState.operand, WriterState.stackType,
    WriterState.stackVar, WriterState.dropTypes, WriterState.pushType]

theorem writeSigned_eq (typed : state.typeStack = type :: type :: below)
    (isSigned : signedType type = some st) (op : BinaryOp) :
    writeSignedBinaryExpr resultType type op state =
      some (.assign (.stack below.length resultType) (.cast (cType type)
        (.binary op (.cast st (.var (.stack below.length type)))
          (.cast st (.var (.stack (below.length + 1) type))))),
        { state with typeStack := resultType :: below }) := by
  simp [writeSignedBinaryExpr, isSigned, typed, WriterState.operand, WriterState.stackType,
    WriterState.stackVar, WriterState.dropTypes, WriterState.pushType]

theorem writeShift_eq (typed : state.typeStack = type :: type :: below) {mask : Nat}
    (masks : getShiftMask type = some mask) (op : BinaryOp) :
    writeShift type op state = some (.compound op (.stack below.length type)
        (.binary .bitand (.var (.stack (below.length + 1) type)) (Macros.int mask)),
      { state with typeStack := type :: below }) := by
  simp [writeShift, maskedCount, masks, typed, WriterState.operand, WriterState.stackType,
    WriterState.stackVar, WriterState.dropTypes]

theorem writeSignedShift_eq (typed : state.typeStack = type :: type :: below) {mask : Nat}
    (masks : getShiftMask type = some mask) (isSigned : signedType type = some st) :
    writeSignedShift type state = some (.assign (.stack below.length type) (.cast (cType type)
        (.binary .shr (.cast st (.var (.stack below.length type)))
          (.binary .bitand (.var (.stack (below.length + 1) type)) (Macros.int mask)))),
      { state with typeStack := type :: below }) := by
  simp [writeSignedShift, maskedCount, masks, isSigned, typed, WriterState.operand,
    WriterState.stackType, WriterState.stackVar, WriterState.dropTypes]

theorem writeSimpleUnary_eq (typed : state.typeStack = type :: below)
    (op : CExpr S -> CExpr S) :
    writeSimpleUnaryExpr resultType op state =
      some (.assign (.stack below.length resultType) (op (.var (.stack below.length type))),
        { state with typeStack := resultType :: below }) := by
  simp [writeSimpleUnaryExpr, typed, WriterState.operand, WriterState.stackType,
    WriterState.stackVar, WriterState.dropTypes, WriterState.pushType]

end Writing

/-! ## Agreement -/

section Agreement

variable {S : Scheme} {fpu : FloatUnit} {declared : CVar S -> CType}
  {valuation : CVar S -> Option CValue} {state : WriterState S} {below : List ValueType}
  {type : ValueType} {lhs rhs value : Interp.Value} {rep : Interp.RepType}
  {unsigned signed : BitVec rep.width -> CValue} {st : CType}
  (integer : IsInteger fpu unsigned signed (cType type) st) (isRep : IsRep rep type unsigned)
include integer isRep

section Two

variable (operands : TwoOperands declared valuation state below type lhs rhs)
include operands

omit isRep in
/-- A value that is kept by the assignment to its variable. -/
theorem IsInteger.keeps (bits : BitVec rep.width) :
    (unsigned bits).convert fpu (declared (.stack below.length type)) = some (unsigned bits) := by
  rw [operands.declares]
  exact integer.keepUnsigned bits

theorem agrees_infix {op : BinaryOp} (arithmetic : Arithmetic)
    {func : BitVec rep.width -> BitVec rep.width -> BitVec rep.width}
    (plain : op.isShift = false) (applies : op.apply fpu = arithmetic.apply fpu)
    (gives : arithmetic.unsigned (rep.fromValue lhs) (rep.fromValue rhs) =
      some (func (rep.fromValue lhs) (rep.fromValue rhs))) :
    Agrees fpu declared valuation below type (writeInfixBinaryExpr type op true state)
      (rep.binop func lhs rhs) := by
  have both := operands.operands fpu isRep
  refine ⟨_, _, writeInfix_eq operands.typed op, rfl, ?_⟩
  have result := both.1.binary op both.2 (by
    rw [integer.runUnsigned _ _ plain, applies, (integer.arithmetic arithmetic _ _).1, gives,
      Option.map_some])
  rw [runAssignment_compound result (integer.keeps operands _), ← isRep.toValue]
  exact .value _

theorem agrees_prefixTrap {macro_ : CExpr S -> CExpr S -> CExpr S}
    {func : BitVec rep.width -> BitVec rep.width -> Except Interp.Result (BitVec rep.width)}
    (divides : Divides (func (rep.fromValue lhs) (rep.fromValue rhs)))
    (evaluates : (macro_ (.var (.stack below.length type))
      (.var (.stack (below.length + 1) type))).eval fpu declared valuation =
        cOutcome unsigned (func (rep.fromValue lhs) (rep.fromValue rhs))) :
    Agrees fpu declared valuation below type (writePrefixBinaryExpr type macro_ state)
      (rep.binopTrap func lhs rhs) := by
  refine ⟨_, _, writePrefix_eq operands.typed macro_, rfl, ?_⟩
  exact sameOutcome_of_divides isRep divides evaluates (integer.keeps operands)

theorem agrees_prefix {macro_ : CExpr S -> CExpr S -> CExpr S}
    {func : BitVec rep.width -> BitVec rep.width -> BitVec rep.width}
    (operand : Operand fpu declared valuation (macro_ (.var (.stack below.length type))
      (.var (.stack (below.length + 1) type))) (cType type)
        (unsigned (func (rep.fromValue lhs) (rep.fromValue rhs)))) :
    Agrees fpu declared valuation below type (writePrefixBinaryExpr type macro_ state)
      (rep.binop func lhs rhs) := by
  refine ⟨_, _, writePrefix_eq operands.typed macro_, rfl, ?_⟩
  rw [runAssignment_operand operand (integer.keeps operands _), ← isRep.toValue]
  exact .value _

theorem agrees_shl (masks : getShiftMask type = some (rep.width - 1)) :
    Agrees fpu declared valuation below type (writeShift type .shl state)
      (rep.binop Interp.intShl lhs rhs) := by
  have both := operands.operands fpu isRep
  refine ⟨_, _, writeShift_eq operands.typed masks _, rfl, ?_⟩
  have shifted := (integer.operand_shifts both.1 (integer.operand_masked both.2)
    (integer.amount_lt _)).1
  rw [runAssignment_compound shifted (integer.keeps operands _), ← isRep.toValue]
  exact .value _

theorem agrees_shrU (masks : getShiftMask type = some (rep.width - 1)) :
    Agrees fpu declared valuation below type (writeShift type .shr state)
      (rep.binop Interp.intShrU lhs rhs) := by
  have both := operands.operands fpu isRep
  refine ⟨_, _, writeShift_eq operands.typed masks _, rfl, ?_⟩
  have shifted := (integer.operand_shifts both.1 (integer.operand_masked both.2)
    (integer.amount_lt _)).2
  rw [runAssignment_compound shifted (integer.keeps operands _), ← isRep.toValue]
  exact .value _

theorem agrees_shrS (masks : getShiftMask type = some (rep.width - 1))
    (isSigned : signedType type = some st) :
    Agrees fpu declared valuation below type (writeSignedShift type state)
      (rep.binop Interp.intShrS lhs rhs) := by
  have both := operands.operands fpu isRep
  refine ⟨_, _, writeSignedShift_eq operands.typed masks isSigned, rfl, ?_⟩
  have shifted := ((both.1.convert (integer.toSigned _)).binary .shr
    (integer.operand_masked both.2)
      (integer.shiftRight (rep.fromValue lhs) _ (integer.amount_lt _)).2).convert
        (integer.toUnsigned _)
  rw [runAssignment_operand shifted (integer.keeps operands _), ← isRep.toValue]
  exact .value _

/-! ### Comparisons -/

omit integer isRep operands in
/-- The outcome of a comparison in an `i32` variable. -/
theorem convert_ofBool (truth : Bool) :
    (CValue.ofBool truth).convert fpu .u32 = some (valueOf .i32 (.ofI32 (Interp.toRep truth))) := by
  cases truth <;> rfl

omit isRep operands in
theorem IsInteger.convert_ofBool (truth : Bool) : (CValue.ofBool truth).convert fpu (cType type) =
    some (unsigned (BitVec.ofNat rep.width (if truth then 1 else 0))) := by
  refine congrArg some ((integer.ofInt _).trans (congrArg unsigned ?_))
  cases truth with
  | false => exact BitVec.ofInt_natCast ..
  | true => exact BitVec.ofInt_natCast ..

omit isRep operands in
theorem IsInteger.narrow_ofBool (truth : Bool) :
    CValue.u32 ((BitVec.ofNat rep.width (if truth then 1 else 0)).setWidth 32) =
      valueOf .i32 (.ofI32 (Interp.toRep truth)) := by
  rw [BitVec.setWidth_ofNat_of_le integer.wide.1]
  cases truth <;> rfl

theorem agrees_compareU {op : BinaryOp} (comparison : Comparison) {holds : ℤ -> ℤ -> Bool}
    (plain : op.isShift = false) (applies : op.apply fpu = comparison.apply)
    (same : comparison.integer = holds) :
    Agrees fpu declared valuation below .i32 (writeInfixBinaryExpr .i32 op false state)
      (rep.relop (Interp.compareU holds) lhs rhs) := by
  subst same
  have both := operands.operands fpu isRep
  refine ⟨_, _, writeInfixCompare_eq operands.typed op, rfl, ?_⟩
  have result := both.1.binary op both.2 (by
    rw [integer.runUnsigned _ _ plain, applies]
    exact (integer.comparison comparison _ _).1)
  rw [runAssignment_operand result (by
    rw [operands.declares]
    exact convert_ofBool _)]
  exact .value _

theorem agrees_compareS {op : BinaryOp} (comparison : Comparison) {holds : ℤ -> ℤ -> Bool}
    (plain : op.isShift = false) (applies : op.apply fpu = comparison.apply)
    (same : comparison.integer = holds) (isSigned : signedType type = some st) :
    Agrees fpu declared valuation below .i32 (writeSignedBinaryExpr .i32 type op state)
      (rep.relop (Interp.compareS holds) lhs rhs) := by
  subst same
  have both := operands.operands fpu isRep
  refine ⟨_, _, writeSigned_eq operands.typed isSigned op, rfl, ?_⟩
  have result := ((both.1.convert (integer.toSigned _)).binary op
    (both.2.convert (integer.toSigned _)) (by
      rw [integer.runSigned _ _ plain, applies]
      exact (integer.comparison comparison _ _).2)).convert (integer.convert_ofBool _)
  rw [runAssignment_operand result (by
    rw [operands.declares]
    exact (integer.narrow _).trans (congrArg some (integer.narrow_ofBool _)))]
  exact .value _

end Two

/-! ### Counts of bits -/

section One

variable (operands : OneOperand declared valuation state below type value)
include operands

omit isRep operands in
/-- A small number as an `int` and as a value of the type. -/
theorem IsInteger.convert_small {bits : BitVec rep.width} (small : bits.toNat < 2 ^ 31) :
    (CValue.s32 (bits.setWidth 32)).convert fpu (cType type) = some (unsigned bits) := by
  have wide := integer.wide.1
  have narrow : (bits.setWidth 32).toNat = bits.toNat := by
    rw [BitVec.toNat_setWidth]
    omega
  have same : BitVec.ofInt rep.width (bits.setWidth 32).toInt = bits := by
    rw [BitVec.toInt_eq_toNat_of_lt (by omega), narrow, BitVec.ofInt_natCast, BitVec.ofNat_toNat,
      BitVec.setWidth_eq]
  exact congrArg some ((integer.ofInt _).trans (congrArg unsigned same))

omit integer isRep operands in
theorem operand_call {function : Function1} {x : CExpr S} {ct : CType} {held result : CValue}
    (operand : Operand fpu declared valuation x ct held)
    (keeps : held.convert fpu function.parameter = some held)
    (applies : function.apply fpu held = some result) :
    Operand fpu declared valuation (.call1 function x) function.result result where
  evaluates := by
    rw [Expr.eval, operand.evaluates, Expr.ok_bind, keeps, Expr.defined_some, Expr.ok_bind,
      applies, Expr.defined_some]
  typed := rfl

theorem agrees_popcnt {function : Function1} (parameter : function.parameter = cType type)
    (applies : forall bits, function.apply fpu (unsigned bits) =
      some (.s32 (bits.cpop.setWidth 32))) :
    Agrees fpu declared valuation below type
      (writeSimpleUnaryExpr type (fun x => .call1 function x) state)
      (rep.unop Interp.popcount value) := by
  have wide := integer.wide.2
  refine ⟨_, _, writeSimpleUnary_eq operands.typed _, rfl, ?_⟩
  have result := operand_call (operands.operand fpu isRep)
    (by rw [parameter]; exact integer.keepUnsigned _) (applies _)
  have small := BitVec.toNat_cpop_le (rep.fromValue value)
  rw [runAssignment_operand result (by
    rw [operands.declares]
    exact integer.convert_small (by omega)), ← isRep.toValue]
  exact .value _

theorem agrees_count {function : Function1}
    {func : BitVec rep.width -> BitVec rep.width}
    (parameter : function.parameter = cType type) (isInt : function.result = .s32)
    (applies : forall bits, bits ≠ 0 -> function.apply fpu (unsigned bits) =
      some (.s32 ((func bits).setWidth 32)))
    (below_ : forall bits, bits ≠ 0 -> (func bits).toNat < rep.width) :
    Agrees fpu declared valuation below type
      (writeSimpleUnaryExpr type
        (fun x => .cond x (.call1 function x) (Macros.int rep.width)) state)
      (rep.unop (fun x => if x = 0 then BitVec.ofNat rep.width rep.width else func x) value) := by
  have wide := integer.wide
  refine ⟨_, _, writeSimpleUnary_eq operands.typed _, rfl, ?_⟩
  have operand := operands.operand fpu isRep
  have literal : Operand fpu declared valuation (Macros.int rep.width) .s32
      (.s32 (BitVec.ofNat 32 rep.width)) := operand_int (by omega)
  have counted : (if rep.fromValue value = 0 then BitVec.ofNat rep.width rep.width
      else func (rep.fromValue value)).toNat < 2 ^ 31 := by
    split
    case isTrue zero =>
      rw [BitVec.toNat_ofNat]
      have bound := Nat.mod_le rep.width (2 ^ rep.width)
      omega
    case isFalse positive =>
      have bound := below_ _ positive
      omega
  have result : Operand fpu declared valuation
      (.cond (.var (.stack below.length type)) (.call1 function (.var (.stack below.length type)))
        (Macros.int rep.width)) .s32
      (.s32 ((if rep.fromValue value = 0 then BitVec.ofNat rep.width rep.width
        else func (rep.fromValue value)).setWidth 32)) := by
    refine Operand.cond operand.evaluates isInt literal.typed rfl ?_
    rw [integer.truth]
    by_cases zero : rep.fromValue value = 0
    · rw [decide_eq_false (not_not_intro zero), if_neg Bool.false_ne_true, literal.evaluates,
        Expr.ok_bind, if_pos zero, BitVec.setWidth_ofNat_of_le wide.1]
      exact congrArg Expr.defined (CValue.convert_type fpu (.s32 _))
    · have called := operand_call operand (by rw [parameter]; exact integer.keepUnsigned _)
        (applies _ zero)
      rw [decide_eq_true zero, if_pos rfl, called.evaluates, Expr.ok_bind, if_neg zero]
      exact congrArg Expr.defined (CValue.convert_type fpu (.s32 _))
  rw [runAssignment_operand result (by
    rw [operands.declares]
    exact integer.convert_small counted), ← isRep.toValue]
  exact .value _

end One

end Agreement

/-! ## All integer operators -/

/-- An operator with two operands of one type. -/
inductive TwoOperator where
  | binary (opcode : BinaryOpcode)
  | compare (opcode : CompareOpcode)

namespace TwoOperator

def type : TwoOperator -> ValueType
  | binary opcode => opcode.paramType1
  | compare opcode => opcode.paramType1

def resultType : TwoOperator -> ValueType
  | binary opcode => opcode.resultType
  | compare opcode => opcode.resultType

def write {S : Scheme} : TwoOperator -> WriterState S -> Written S
  | binary opcode => writeBinary opcode
  | compare opcode => writeCompare opcode

def run (numerics : Interp.Numerics) :
    TwoOperator -> Interp.Value -> Interp.Value -> Except Interp.Result Interp.Value
  | binary opcode => numerics.binary opcode
  | compare opcode => numerics.compare opcode

/-- Both operands are integers. -/
def IsIntegral (operator : TwoOperator) : Prop := operator.type = .i32 ∨ operator.type = .i64

end TwoOperator

/-- An operator with one operand. -/
inductive OneOperator where
  | unary (opcode : UnaryOpcode)
  | convert (opcode : ConvertOpcode)

namespace OneOperator

def type : OneOperator -> ValueType
  | unary opcode => opcode.paramType1
  | convert opcode => opcode.paramType1

def resultType : OneOperator -> ValueType
  | unary opcode => opcode.resultType
  | convert opcode => opcode.resultType

def write {S : Scheme} : OneOperator -> WriterState S -> Written S
  | unary opcode => writeUnary opcode
  | convert opcode => writeConvert opcode

def run (numerics : Interp.Numerics) :
    OneOperator -> Interp.Value -> Except Interp.Result Interp.Value
  | unary opcode => numerics.unary opcode
  | convert opcode => numerics.convert opcode

/-- The operand and the result are integers. -/
def IsIntegral (operator : OneOperator) : Prop :=
  (operator.type = .i32 ∨ operator.type = .i64) ∧
    (operator.resultType = .i32 ∨ operator.resultType = .i64)

end OneOperator

section Dispatch

variable {S : Scheme} {fpu : FloatUnit} {declared : CVar S -> CType}
  {valuation : CVar S -> Option CValue} {state : WriterState S} {below : List ValueType}
  {lhs rhs value : Interp.Value}

theorem least_32 : (0x80000000#32).toInt = Interp.least 32 := by decide

theorem least_64 : (0x8000000000000000#64).toInt = Interp.least 64 := by decide

theorem operand_least32 : Operand fpu declared valuation Macros.int32Min .s32
    (.s32 0x80000000#32) := ⟨rfl, rfl⟩

theorem operand_least64 : Operand fpu declared valuation Macros.int64Min .s64
    (.s64 0x8000000000000000#64) := ⟨rfl, rfl⟩

/-- The binary operators of a type. -/
theorem binary_agrees (others : Interp.Numerics) (opcode : BinaryOpcode)
    (integral : opcode.paramType1 = .i32 ∨ opcode.paramType1 = .i64)
    (operands : TwoOperands declared valuation state below opcode.paramType1 lhs rhs) :
    Agrees fpu declared valuation below opcode.resultType (writeBinary opcode state)
      (Interp.runBinary others opcode lhs rhs) := by
  have narrow := isInteger_i32 fpu
  have wide := isInteger_i64 fpu
  cases opcode with
  | i32Add => exact agrees_infix narrow isRep_u32 operands .add rfl rfl rfl
  | i32Sub => exact agrees_infix narrow isRep_u32 operands .sub rfl rfl rfl
  | i32Mul => exact agrees_infix narrow isRep_u32 operands .mul rfl rfl rfl
  | i32And => exact agrees_infix narrow isRep_u32 operands .bitand rfl rfl rfl
  | i32Or => exact agrees_infix narrow isRep_u32 operands .bitor rfl rfl rfl
  | i32Xor => exact agrees_infix narrow isRep_u32 operands .bitxor rfl rfl rfl
  | i32DivS =>
      have both := operands.operands fpu isRep_u32
      exact agrees_prefixTrap narrow isRep_u32 operands (divides_intDivS _ _)
        (narrow.eval_divS (both.1.convert (narrow.toSigned _))
          (both.2.convert (narrow.toSigned _)) operand_least32 least_32)
  | i32RemS =>
      have both := operands.operands fpu isRep_u32
      exact agrees_prefixTrap narrow isRep_u32 operands (divides_intRemS _ _)
        (narrow.eval_remS (both.1.convert (narrow.toSigned _))
          (both.2.convert (narrow.toSigned _)) operand_least32 least_32)
  | i32DivU =>
      have both := operands.operands fpu isRep_u32
      exact agrees_prefixTrap narrow isRep_u32 operands (divides_intDivU _ _)
        (narrow.eval_divU both.1 both.2)
  | i32RemU =>
      have both := operands.operands fpu isRep_u32
      exact agrees_prefixTrap narrow isRep_u32 operands (divides_intRemU _ _)
        (narrow.eval_remU both.1 both.2)
  | i32Shl => exact agrees_shl narrow isRep_u32 operands rfl
  | i32ShrS => exact agrees_shrS narrow isRep_u32 operands rfl rfl
  | i32ShrU => exact agrees_shrU narrow isRep_u32 operands rfl
  | i32Rotl =>
      have both := operands.operands fpu isRep_u32
      exact agrees_prefix narrow isRep_u32 operands (narrow.operand_rotl both.1 both.2)
  | i32Rotr =>
      have both := operands.operands fpu isRep_u32
      exact agrees_prefix narrow isRep_u32 operands (narrow.operand_rotr both.1 both.2)
  | i64Add => exact agrees_infix wide isRep_u64 operands .add rfl rfl rfl
  | i64Sub => exact agrees_infix wide isRep_u64 operands .sub rfl rfl rfl
  | i64Mul => exact agrees_infix wide isRep_u64 operands .mul rfl rfl rfl
  | i64And => exact agrees_infix wide isRep_u64 operands .bitand rfl rfl rfl
  | i64Or => exact agrees_infix wide isRep_u64 operands .bitor rfl rfl rfl
  | i64Xor => exact agrees_infix wide isRep_u64 operands .bitxor rfl rfl rfl
  | i64DivS =>
      have both := operands.operands fpu isRep_u64
      exact agrees_prefixTrap wide isRep_u64 operands (divides_intDivS _ _)
        (wide.eval_divS (both.1.convert (wide.toSigned _))
          (both.2.convert (wide.toSigned _)) operand_least64 least_64)
  | i64RemS =>
      have both := operands.operands fpu isRep_u64
      exact agrees_prefixTrap wide isRep_u64 operands (divides_intRemS _ _)
        (wide.eval_remS (both.1.convert (wide.toSigned _))
          (both.2.convert (wide.toSigned _)) operand_least64 least_64)
  | i64DivU =>
      have both := operands.operands fpu isRep_u64
      exact agrees_prefixTrap wide isRep_u64 operands (divides_intDivU _ _)
        (wide.eval_divU both.1 both.2)
  | i64RemU =>
      have both := operands.operands fpu isRep_u64
      exact agrees_prefixTrap wide isRep_u64 operands (divides_intRemU _ _)
        (wide.eval_remU both.1 both.2)
  | i64Shl => exact agrees_shl wide isRep_u64 operands rfl
  | i64ShrS => exact agrees_shrS wide isRep_u64 operands rfl rfl
  | i64ShrU => exact agrees_shrU wide isRep_u64 operands rfl
  | i64Rotl =>
      have both := operands.operands fpu isRep_u64
      exact agrees_prefix wide isRep_u64 operands (wide.operand_rotl both.1 both.2)
  | i64Rotr =>
      have both := operands.operands fpu isRep_u64
      exact agrees_prefix wide isRep_u64 operands (wide.operand_rotr both.1 both.2)
  | f32Add | f32Sub | f32Mul | f32Div | f32Min | f32Max | f32Copysign
  | f64Add | f64Sub | f64Mul | f64Div | f64Min | f64Max | f64Copysign =>
      rcases integral with same | same <;> cases same

theorem ne_integer : Comparison.ne.integer = fun lhs rhs => lhs != rhs := by
  funext lhs rhs
  by_cases same : lhs = rhs <;> simp [Comparison.ne, same]

/-- The comparisons of a type. -/
theorem compare_agrees (others : Interp.Numerics) (opcode : CompareOpcode)
    (integral : opcode.paramType1 = .i32 ∨ opcode.paramType1 = .i64)
    (operands : TwoOperands declared valuation state below opcode.paramType1 lhs rhs) :
    Agrees fpu declared valuation below opcode.resultType (writeCompare opcode state)
      (Interp.runCompare others opcode lhs rhs) := by
  have narrow := isInteger_i32 fpu
  have wide := isInteger_i64 fpu
  cases opcode with
  | i32Eq => exact agrees_compareU narrow isRep_u32 operands .eq rfl rfl rfl
  | i32Ne => exact agrees_compareU narrow isRep_u32 operands .ne rfl rfl ne_integer
  | i32LtS => exact agrees_compareS narrow isRep_u32 operands .lt rfl rfl rfl rfl
  | i32LtU => exact agrees_compareU narrow isRep_u32 operands .lt rfl rfl rfl
  | i32GtS => exact agrees_compareS narrow isRep_u32 operands .gt rfl rfl rfl rfl
  | i32GtU => exact agrees_compareU narrow isRep_u32 operands .gt rfl rfl rfl
  | i32LeS => exact agrees_compareS narrow isRep_u32 operands .le rfl rfl rfl rfl
  | i32LeU => exact agrees_compareU narrow isRep_u32 operands .le rfl rfl rfl
  | i32GeS => exact agrees_compareS narrow isRep_u32 operands .ge rfl rfl rfl rfl
  | i32GeU => exact agrees_compareU narrow isRep_u32 operands .ge rfl rfl rfl
  | i64Eq => exact agrees_compareU wide isRep_u64 operands .eq rfl rfl rfl
  | i64Ne => exact agrees_compareU wide isRep_u64 operands .ne rfl rfl ne_integer
  | i64LtS => exact agrees_compareS wide isRep_u64 operands .lt rfl rfl rfl rfl
  | i64LtU => exact agrees_compareU wide isRep_u64 operands .lt rfl rfl rfl
  | i64GtS => exact agrees_compareS wide isRep_u64 operands .gt rfl rfl rfl rfl
  | i64GtU => exact agrees_compareU wide isRep_u64 operands .gt rfl rfl rfl
  | i64LeS => exact agrees_compareS wide isRep_u64 operands .le rfl rfl rfl rfl
  | i64LeU => exact agrees_compareU wide isRep_u64 operands .le rfl rfl rfl
  | i64GeS => exact agrees_compareS wide isRep_u64 operands .ge rfl rfl rfl rfl
  | i64GeU => exact agrees_compareU wide isRep_u64 operands .ge rfl rfl rfl
  | f32Eq | f32Ne | f32Lt | f32Gt | f32Le | f32Ge | f64Eq | f64Ne | f64Lt | f64Gt | f64Le | f64Ge =>
      rcases integral with same | same <;> cases same

theorem toNat_lt_of_lt {width : Nat} {bits : BitVec width}
    (below_ : bits < (width : BitVec width)) :
    bits.toNat < width := by
  have less : bits.toNat < (width : BitVec width).toNat := below_
  rw [BitVec.natCast_eq_ofNat, BitVec.toNat_ofNat] at less
  exact Nat.lt_of_lt_of_le less (Nat.mod_le _ _)

/-- The counts of a type's bits. -/
theorem unary_agrees (others : Interp.Numerics) (opcode : UnaryOpcode)
    (integral : opcode.paramType1 = .i32 ∨ opcode.paramType1 = .i64)
    (operands : OneOperand declared valuation state below opcode.paramType1 value) :
    Agrees fpu declared valuation below opcode.resultType (writeUnary opcode state)
      (Interp.runUnary others opcode value) := by
  have narrow := isInteger_i32 fpu
  have wide := isInteger_i64 fpu
  cases opcode with
  | i32Clz =>
      refine agrees_count narrow isRep_u32 operands rfl rfl (fun bits positive => ?_)
        (fun bits positive => toNat_lt_of_lt (BitVec.clz_lt_iff_ne_zero.mpr positive))
      exact (if_neg positive).trans
        (congrArg (fun count => some (CValue.s32 count)) (BitVec.setWidth_eq ..).symm)
  | i64Clz =>
      exact agrees_count wide isRep_u64 operands rfl rfl (fun bits positive => if_neg positive)
        (fun bits positive => toNat_lt_of_lt (BitVec.clz_lt_iff_ne_zero.mpr positive))
  | i32Ctz =>
      refine agrees_count narrow isRep_u32 operands rfl rfl (fun bits positive => ?_)
        (fun bits positive => toNat_lt_of_lt (BitVec.ctz_lt_iff_ne_zero.mpr positive))
      exact (if_neg positive).trans
        (congrArg (fun count => some (CValue.s32 count)) (BitVec.setWidth_eq ..).symm)
  | i64Ctz =>
      exact agrees_count wide isRep_u64 operands rfl rfl (fun bits positive => if_neg positive)
        (fun bits positive => toNat_lt_of_lt (BitVec.ctz_lt_iff_ne_zero.mpr positive))
  | i32Popcnt =>
      exact agrees_popcnt narrow isRep_u32 operands rfl fun bits =>
        congrArg (fun count => some (CValue.s32 count)) (BitVec.setWidth_eq ..).symm
  | i64Popcnt => exact agrees_popcnt wide isRep_u64 operands rfl fun _ => rfl
  | f32Abs | f32Neg | f32Ceil | f32Floor | f32Trunc | f32Nearest | f32Sqrt
  | f64Abs | f64Neg | f64Ceil | f64Floor | f64Trunc | f64Nearest | f64Sqrt =>
      rcases integral with same | same <;> cases same

theorem operand_not {x : CExpr S} {type : CType} {held : CValue}
    (operand : Operand fpu declared valuation x type held) :
    Operand fpu declared valuation (.unary .not x) .s32 (.ofBool (!held.truth)) where
  evaluates := by
    rw [Expr.eval, operand.evaluates, Expr.ok_bind]
    rfl
  typed := rfl

theorem eqz_agrees {width : Nat} {unsigned signed : BitVec width -> CValue} {ut st : CType}
    (integer : IsInteger fpu unsigned signed ut st) {x : CExpr S} {bits : BitVec width}
    (declares : forall index type, declared (.stack index type) = cType type)
    (operand : Operand fpu declared valuation x ut (unsigned bits)) :
    SameOutcome (.stack below.length .i32) .i32 (.ok (.ofI32 (Interp.intEqz bits)))
      (runAssignment fpu declared valuation
        (.assign (.stack below.length .i32) (.unary .not x))) := by
  have isZero : (!(unsigned bits).truth) = (bits == 0) := by
    rw [integer.truth, Bool.eq_iff_iff]
    simp
  rw [runAssignment_operand (operand_not operand) (by
    rw [declares]
    exact convert_ofBool _), isZero]
  exact .value _

/-- An operand that is the result already. -/
theorem assigns_value {x : CExpr S} {type : CType} {resultType : ValueType} {held : CValue}
    {result : Interp.Value}
    (declares : forall index type, declared (.stack index type) = cType type)
    (operand : Operand fpu declared valuation x type held)
    (keeps : held.convert fpu (cType resultType) = some held)
    (same : held = valueOf resultType result) :
    SameOutcome (.stack below.length resultType) resultType (.ok result)
      (runAssignment fpu declared valuation (.assign (.stack below.length resultType) x)) := by
  rw [runAssignment_operand operand (by rw [declares]; exact keeps), same]
  exact .value _

/-- The tests for zero and the conversions between the two integer types. -/
theorem convert_agrees (others : Interp.Numerics) (opcode : ConvertOpcode)
    (integral : (opcode.paramType1 = .i32 ∨ opcode.paramType1 = .i64) ∧
      (opcode.resultType = .i32 ∨ opcode.resultType = .i64))
    (operands : OneOperand declared valuation state below opcode.paramType1 value) :
    Agrees fpu declared valuation below opcode.resultType (writeConvert opcode state)
      (Interp.runConvert others opcode value) := by
  have narrow := isInteger_i32 fpu
  have wide := isInteger_i64 fpu
  refine ⟨_, _, writeSimpleUnary_eq operands.typed _, rfl, ?_⟩
  cases opcode with
  | i32Eqz => exact eqz_agrees narrow operands.declares (operands.operand fpu isRep_u32)
  | i64Eqz => exact eqz_agrees wide operands.declares (operands.operand fpu isRep_u64)
  | i32WrapI64 =>
      have wrapped := (operands.operand fpu isRep_u64).convert (wide.narrow value)
      exact assigns_value operands.declares wrapped (narrow.keepUnsigned _)
        (congrArg CValue.u32 (i32_ofI32 _).symm)
  | i64ExtendSI32 =>
      have signed := (operands.operand fpu isRep_u32).convert (narrow.toSigned _)
      have extended := signed.convert
        (show (CValue.s32 value.i32).convert fpu .s64 = some (.s64 (value.i32.signExtend 64))
          from rfl)
      have converted := extended.convert (wide.toUnsigned _)
      exact assigns_value operands.declares converted (wide.keepUnsigned _) rfl
  | i64ExtendUI32 =>
      have extended := (operands.operand fpu isRep_u32).convert
        (show (CValue.u32 value.i32).convert fpu .u64 = some (.u64 (value.i32.setWidth 64))
          from congrArg (fun bits => some (CValue.u64 bits)) <|
            (BitVec.ofInt_natCast ..).trans (BitVec.ofNat_toNat ..))
      exact assigns_value operands.declares extended (wide.keepUnsigned _) rfl
  | i32TruncSF32 | i32TruncUF32 | i32TruncSF64 | i32TruncUF64 | i64TruncSF32 | i64TruncUF32
  | i64TruncSF64 | i64TruncUF64 | f32DemoteF64 | f64PromoteF32 | i32ReinterpretF32
  | i64ReinterpretF64 => rcases integral.1 with same | same <;> cases same
  | f32ConvertSI32 | f32ConvertUI32 | f32ConvertSI64 | f32ConvertUI64 | f64ConvertSI32
  | f64ConvertUI32 | f64ConvertSI64 | f64ConvertUI64 | f32ReinterpretI32 | f64ReinterpretI64 =>
      rcases integral.2 with same | same <;> cases same

/-- **Integer operators agree**: the statement that the C writer emits for an
integer operator gives the variable below its operands the value which the
interpreter pushes, and traps exactly where and as the interpreter does. -/
theorem integer_operators_agree (fpu : FloatUnit) (others : Interp.Numerics)
    (locals : S.Local -> ValueType) (globals : S.Global -> ValueType)
    (valuation : CVar S -> Option CValue) (state : WriterState S) (below : List ValueType) :
    (forall (operator : TwoOperator) (lhs rhs : Interp.Value), operator.IsIntegral ->
      state.typeStack = operator.type :: operator.type :: below ->
      valuation (.stack below.length operator.type) = some (valueOf operator.type lhs) ->
      valuation (.stack (below.length + 1) operator.type) = some (valueOf operator.type rhs) ->
      Agrees fpu (CVar.type locals globals) valuation below operator.resultType
        (operator.write state) (operator.run (Interp.withIntegers others) lhs rhs)) ∧
    (forall (operator : OneOperator) (value : Interp.Value), operator.IsIntegral ->
      state.typeStack = operator.type :: below ->
      valuation (.stack below.length operator.type) = some (valueOf operator.type value) ->
      Agrees fpu (CVar.type locals globals) valuation below operator.resultType
        (operator.write state) (operator.run (Interp.withIntegers others) value)) := by
  constructor
  · intro operator lhs rhs integral typed left right
    cases operator with
    | binary opcode =>
        exact binary_agrees others opcode integral ⟨fun _ _ => rfl, typed, left, right⟩
    | compare opcode =>
        exact compare_agrees others opcode integral ⟨fun _ _ => rfl, typed, left, right⟩
  · intro operator value integral typed holds
    cases operator with
    | unary opcode => exact unary_agrees others opcode integral.1 ⟨fun _ _ => rfl, typed, holds⟩
    | convert opcode => exact convert_agrees others opcode integral ⟨fun _ _ => rfl, typed, holds⟩

/-- Zero divided by zero traps in both, and both count 32 zeros before it. -/
theorem integer_operators_agree_zero :
    Agrees default (CVar.type (fun _ => .i32) fun _ => .i32) (fun _ => some (.u32 0)) [] .i32
        (writeBinary (S := .applied) .i32DivS ⟨[.i32, .i32], []⟩)
        ((Interp.withIntegers default).binary .i32DivS 0 0) ∧
      Agrees default (CVar.type (fun _ => .i32) fun _ => .i32) (fun _ => some (.u32 0)) [] .i32
        (writeUnary (S := .applied) .i32Clz ⟨[.i32], []⟩)
        ((Interp.withIntegers default).unary .i32Clz 0) :=
  ⟨(integer_operators_agree default default _ _ _ ⟨[.i32, .i32], []⟩ []).1 (.binary .i32DivS) 0 0
      (.inl rfl) rfl rfl rfl,
    (integer_operators_agree default default _ _ _ ⟨[.i32], []⟩ []).2 (.unary .i32Clz) 0
      ⟨.inl rfl, .inl rfl⟩ rfl rfl⟩

end Dispatch

end CWriter
end WasmSandboxing
