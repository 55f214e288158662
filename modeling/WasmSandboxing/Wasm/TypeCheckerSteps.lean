import WasmSandboxing.Wasm.TypeCheckerPop

namespace WasmSandboxing
namespace Wasm

/-!
# Callbacks of the type checker

Each callback does what the validation algorithm does for its instruction, and
so do all callbacks of a body, up to the rule for a conditional without an
`else`.
-/

namespace TypeChecker

section Callbacks

variable {checker : TypeChecker}

theorem popAndCheck1Type_eq (checker : TypeChecker) (expected : ValueType) :
    checker.popAndCheck1Type expected = checker.popAndCheckSignature [expected] := by
  have checked : checker.checkSignature [expected] = checker.peekAndCheckType 0 (.value expected) :=
    Result.ok_or _
  unfold popAndCheck1Type popAndCheckSignature
  rw [checked]
  rfl

theorem popAndCheck2Types_eq (checker : TypeChecker) (expected1 expected2 : ValueType) :
    checker.popAndCheck2Types expected1 expected2 =
      checker.popAndCheckSignature [expected1, expected2] := by
  have checked : checker.checkSignature [expected1, expected2] =
      (checker.peekAndCheckType 0 (.value expected2)).or
        (checker.peekAndCheckType 1 (.value expected1)) := by
    change (Result.ok.or (checker.peekAndCheckType 1 (.value expected1))).or
      (checker.peekAndCheckType 0 (.value expected2)) = _
    rw [Result.ok_or, Result.or_comm]
  unfold popAndCheck2Types popAndCheckSignature
  rw [checked]
  rfl

theorem popReversed_append (first second : List ValueType) (state : ValidationState) :
    state.popReversed (first ++ second) =
      (state.popReversed first).bind (ValidationState.popReversed second) := by
  induction first generalizing state with
  | nil => rfl
  | cons type first inductionHypothesis =>
      rw [List.cons_append, ValidationState.popReversed, ValidationState.popReversed]
      cases state.popExpected (.value type) with
      | none => rfl
      | some popped => exact inductionHypothesis popped.2

/-- The last operands are popped first. -/
theorem popOperands_append (first second : List ValueType) (state : ValidationState) :
    state.popOperands (first ++ second) =
      (state.popOperands second).bind fun state => state.popOperands first := by
  rw [ValidationState.popOperands, List.reverse_append, popReversed_append]
  rfl

/-- An instruction with a type of its own. -/
theorem call_follows (wellFormed : checker.WellFormed) (params results : List ValueType) :
    Follows (checker.popAndCheckCall params results)
      ((checker.validation.popOperands params).map fun state => state.pushOperands results) :=
  (pop_signature wellFormed params).map (fun after => after.pushTypes results) fun kept =>
    ⟨kept.pushTypes results, pushTypes_validation _ results⟩

theorem checkOpcode1_eq (checker : TypeChecker) (paramType1 : ValueType)
    (resultType : Option ValueType) :
    checker.checkOpcode1 paramType1 resultType =
      checker.popAndCheckCall [paramType1] resultType.toList := by
  unfold checkOpcode1
  rw [popAndCheck1Type_eq]
  rfl

theorem checkOpcode2_eq (checker : TypeChecker) (paramType1 paramType2 : ValueType)
    (resultType : Option ValueType) :
    checker.checkOpcode2 paramType1 paramType2 resultType =
      checker.popAndCheckCall [paramType1, paramType2] resultType.toList := by
  unfold checkOpcode2
  rw [popAndCheck2Types_eq]
  rfl

theorem dropTypes_labelStack (checker : TypeChecker) (dropCount : Nat) :
    (checker.dropTypes dropCount).2.labelStack = checker.labelStack := by
  unfold dropTypes
  split
  · rfl
  · split <;> rfl

/-- The condition of a conditional or of a branch, and the entry of a call, are
popped before the other operands. -/
theorem condition_follows (wellFormed : checker.WellFormed) {result : Result}
    {after : TypeChecker} (params : List ValueType)
    {next : ValidationState -> Option ValidationState}
    (later : (checker.popAndCheckSignature [.i32]).2.WellFormed -> Follows (result, after)
      (((checker.popAndCheckSignature [.i32]).2.validation.popOperands params).bind next)) :
    Follows ((checker.popAndCheckSignature [.i32]).1.or result, after)
      ((checker.validation.popOperands (params ++ [.i32])).bind next) := by
  rw [popOperands_append, Option.bind_assoc]
  exact (pop_signature wellFormed [.i32]).bind later

theorem popAndCheckSignature_eq (checker : TypeChecker) (sig : List ValueType) :
    checker.popAndCheckSignature sig =
      ((checker.checkSignature sig).or (checker.dropTypes sig.length).1,
        (checker.dropTypes sig.length).2) := rfl

/-- Checking operands and giving up what follows is popping them first. -/
theorem check_setUnreachable (wellFormed : checker.WellFormed) (sig : List ValueType) :
    Follows ((checker.checkSignature sig).or checker.setUnreachable.1, checker.setUnreachable.2)
      ((checker.validation.popOperands sig).bind ValidationState.setUnreachable) := by
  have popped := pop_signature wellFormed sig
  have result : (checker.checkSignature sig).or (checker.dropTypes sig.length).1 =
      checker.checkSignature sig := by
    cases checked : checker.checkSignature sig with
    | ok =>
        rw [Result.ok_or]
        exact dropTypes_ok wellFormed checked
    | error => rfl
  rw [popAndCheckSignature_eq, result] at popped
  rw [← setUnreachable_dropTypes wellFormed sig.length]
  exact popped.bind fun kept => setUnreachable_follows kept

theorem br_follows (wellFormed : checker.WellFormed) (depth : Nat) :
    Follows (checker.onBr depth) (checker.validation.step (.br depth)) := by
  have lookup : checker.validation.controls[depth]? =
      checker.labelStack[depth]?.map CheckerLabel.frame := List.getElem?_map
  rw [ValidationState.step, lookup]
  unfold onBr
  cases checker.labelStack[depth]? with
  | none => exact Follows.error
  | some label => exact check_setUnreachable wellFormed label.brTypes

theorem brIf_follows (wellFormed : checker.WellFormed) (depth : Nat) :
    Follows (checker.onBrIf depth) (checker.validation.step (.brIf depth)) := by
  have lookup : checker.validation.controls[depth]? =
      checker.labelStack[depth]?.map CheckerLabel.frame := List.getElem?_map
  have kept : (checker.popAndCheckSignature [.i32]).2.labelStack[depth]? =
      checker.labelStack[depth]? := by
    rw [popAndCheckSignature_eq, dropTypes_labelStack]
  rw [ValidationState.step, lookup]
  unfold onBrIf
  rw [popAndCheck1Type_eq]
  simp only [kept]
  cases checker.labelStack[depth]? with
  | none => exact Follows.error
  | some label =>
      apply condition_follows wellFormed label.brTypes
      intro popped
      have call := call_follows popped label.brTypes label.brTypes
      rw [Option.map_eq_bind] at call
      exact call

theorem block_follows (wellFormed : checker.WellFormed) (params results : List ValueType) :
    Follows (checker.onBlock params results)
      (checker.validation.step (.block params results)) := by
  have entered := @enter_follows _ _ _ (pop_signature wellFormed params) .block
    (by decide) params results
  rw [Option.map_eq_bind] at entered
  exact entered

theorem loop_follows (wellFormed : checker.WellFormed) (params results : List ValueType) :
    Follows (checker.onLoop params results)
      (checker.validation.step (.loop params results)) := by
  have entered := @enter_follows _ _ _ (pop_signature wellFormed params) .loop
    (by decide) params results
  rw [Option.map_eq_bind] at entered
  exact entered

theorem ite_follows (wellFormed : checker.WellFormed) (params results : List ValueType) :
    Follows (checker.onIf params results) (checker.validation.step (.ite params results)) := by
  unfold onIf
  rw [popAndCheck1Type_eq]
  apply condition_follows wellFormed params
  intro popped
  have entered := @enter_follows _ _ _ (pop_signature popped params) .ite
    (by decide) params results
  rw [Option.map_eq_bind] at entered
  exact entered

theorem return_follows (wellFormed : checker.WellFormed) :
    Follows checker.onReturn (checker.validation.step .ret) := by
  have outermost : checker.validation.controls.getLast? =
      checker.labelStack.getLast?.map CheckerLabel.frame := List.getLast?_map
  rw [ValidationState.step, outermost]
  unfold onReturn
  cases checker.labelStack.getLast? with
  | none => exact Follows.error
  | some label =>
      exact (pop_signature wellFormed label.resultTypes).bind fun kept =>
        setUnreachable_follows kept

/-- A target of a table agrees with a signature. -/
def TargetAgrees (checker : TypeChecker) (sig : List ValueType) (depth : Nat) : Prop :=
  ∃ label, checker.labelStack[depth]? = some label ∧ label.brTypes = sig ∧
    checker.checkSignature sig = .ok

theorem onBrTableTarget_some (checker : TypeChecker) (sig : List ValueType) (depth : Nat) :
    (checker.onBrTableTarget (some sig) depth).2 = some sig ∧
      ((checker.onBrTableTarget (some sig) depth).1 = .ok ↔ checker.TargetAgrees sig depth) := by
  unfold onBrTableTarget TargetAgrees
  cases checker.labelStack[depth]? with
  | none => simp
  | some label =>
      simp only [Option.getD_some, Result.or_eq_ok, Result.ofBool_eq_ok, decide_eq_true_eq,
        Option.some.injEq, exists_eq_left', true_and]
      constructor
      · rintro ⟨checked, same⟩
        exact ⟨same.symm, same ▸ checked⟩
      · rintro ⟨same, checked⟩
        exact ⟨same ▸ checked, same.symm⟩

/-- The first target sets the signature. -/
theorem onBrTableTarget_none {checker : TypeChecker} {depth : Nat} {label : CheckerLabel}
    (found : checker.labelStack[depth]? = some label) :
    checker.onBrTableTarget none depth = checker.onBrTableTarget (some label.brTypes) depth := by
  unfold onBrTableTarget
  rw [found]
  rfl

/-- The callbacks of the targets of a table. -/
def targets (checker : TypeChecker) (depths : List Nat)
    (begun : Result × Option (List ValueType)) : Result :=
  (depths.foldl (fun (result, sig) depth =>
    let (checked, sig) := checker.onBrTableTarget sig depth
    (Result.or result checked, sig)) begun).1

theorem targets_cons (checker : TypeChecker) (depth : Nat) (depths : List Nat) (begun : Result)
    (sig : Option (List ValueType)) : checker.targets (depth :: depths) (begun, sig) =
      checker.targets depths (begun.or (checker.onBrTableTarget sig depth).1,
        (checker.onBrTableTarget sig depth).2) := rfl

theorem targets_some (checker : TypeChecker) (depths : List Nat) (begun : Result)
    (sig : List ValueType) : checker.targets depths (begun, some sig) = .ok ↔
      begun = .ok ∧ forall depth, depth ∈ depths -> checker.TargetAgrees sig depth := by
  induction depths generalizing begun with
  | nil => simp [targets]
  | cons depth depths inductionHypothesis =>
      rcases checker.onBrTableTarget_some sig depth with ⟨kept, checked⟩
      rw [targets_cons, kept, inductionHypothesis, Result.or_eq_ok, checked,
        List.forall_mem_cons, and_assoc]

theorem targets_error (checker : TypeChecker) (depths : List Nat)
    (sig : Option (List ValueType)) : checker.targets depths (.error, sig) = .error := by
  induction depths generalizing sig with
  | nil => rfl
  | cons depth depths inductionHypothesis =>
      rw [targets_cons]
      exact inductionHypothesis _

theorem targets_none (checker : TypeChecker) (depths : List Nat) (begun : Result) :
    checker.targets depths (begun, none) = .ok ↔
      begun = .ok ∧ ∃ sig, forall depth, depth ∈ depths -> checker.TargetAgrees sig depth := by
  cases depths with
  | nil => simp [targets]
  | cons depth depths =>
      rw [targets_cons]
      cases found : checker.labelStack[depth]? with
      | none =>
          have failed : (checker.onBrTableTarget none depth).1 = .error := by
            unfold onBrTableTarget
            rw [found]
          rw [failed, Result.or_comm]
          change checker.targets depths (.error, _) = .ok ↔ _
          rw [targets_error]
          constructor
          · intro impossible
            cases impossible
          · rintro ⟨_, sig, agrees⟩
            rcases agrees depth List.mem_cons_self with ⟨label, other, _⟩
            rw [found] at other
            cases other
      | some label =>
          rcases checker.onBrTableTarget_some label.brTypes depth with ⟨kept, checked⟩
          rw [onBrTableTarget_none found, kept, targets_some, Result.or_eq_ok, checked, and_assoc]
          apply and_congr_right
          intro _
          constructor
          · rintro ⟨first, rest⟩
            exact ⟨label.brTypes, List.forall_mem_cons.mpr ⟨first, rest⟩⟩
          · rintro ⟨sig, agrees⟩
            rcases agrees depth List.mem_cons_self with ⟨_, other, rfl, _⟩
            rw [found] at other
            cases other
            exact List.forall_mem_cons.mp agrees

theorem onBrTable_eq (checker : TypeChecker) (depths : List Nat) (defaultTarget : Nat) :
    checker.onBrTable depths defaultTarget =
      (((checker.popAndCheckSignature [.i32]).2.targets (depths ++ [defaultTarget])
          ((checker.popAndCheckSignature [.i32]).1, none)).or
          (checker.popAndCheckSignature [.i32]).2.setUnreachable.1,
        (checker.popAndCheckSignature [.i32]).2.setUnreachable.2) := by
  unfold onBrTable
  rw [popAndCheck1Type_eq]
  rfl

/-- Whether the targets of a table have the types of the default. -/
theorem targets_agree (checker : TypeChecker) (depths : List Nat) {defaultTarget : Nat}
    {label : CheckerLabel} (found : checker.labelStack[defaultTarget]? = some label)
    (begun : Result) :
    checker.targets (depths ++ [defaultTarget]) (begun, none) =
      begun.or (if depths.all fun target =>
          (checker.validation.controls[target]?.map ControlFrame.labelTypes) ==
            some label.brTypes then
        checker.checkSignature label.brTypes else .error) := by
  apply Result.ext_ok
  rw [targets_none, Result.or_eq_ok]
  apply and_congr_right
  intro _
  have lookup (target : Nat) : checker.validation.controls[target]?.map ControlFrame.labelTypes =
      checker.labelStack[target]?.map CheckerLabel.brTypes := by
    change (checker.labelStack.map CheckerLabel.frame)[target]?.map _ = _
    rw [List.getElem?_map, Option.map_map]
    rfl
  simp only [lookup, List.all_eq_true, beq_iff_eq, Option.map_eq_some_iff]
  constructor
  · rintro ⟨sig, agrees⟩
    rcases agrees defaultTarget (List.mem_append_right _ List.mem_cons_self) with
      ⟨_, other, rfl, checked⟩
    rw [found] at other
    cases other
    rw [if_pos]
    · exact checked
    · intro target member
      rcases agrees target (List.mem_append_left _ member) with ⟨there, reached, same, _⟩
      exact ⟨there, reached, same⟩
  · intro checked
    split at checked
    · rename_i all
      refine ⟨label.brTypes, fun target member => ?_⟩
      rcases List.mem_append.mp member with listed | last
      · rcases all target listed with ⟨there, reached, same⟩
        exact ⟨there, reached, same, checked⟩
      · rw [List.mem_singleton.mp last]
        exact ⟨label, found, rfl, checked⟩
    · cases checked

theorem brTable_follows (wellFormed : checker.WellFormed) (depths : List Nat)
    (defaultTarget : Nat) : Follows (checker.onBrTable depths defaultTarget)
      (checker.validation.step (.brTable depths defaultTarget)) := by
  have lookup : checker.validation.controls[defaultTarget]? =
      checker.labelStack[defaultTarget]?.map CheckerLabel.frame := List.getElem?_map
  have kept : (checker.popAndCheckSignature [.i32]).2.labelStack = checker.labelStack := by
    rw [popAndCheckSignature_eq, dropTypes_labelStack]
  have controls : (checker.popAndCheckSignature [.i32]).2.validation.controls =
      checker.validation.controls := congrArg (List.map CheckerLabel.frame) kept
  rw [onBrTable_eq, ValidationState.step, lookup]
  cases found : checker.labelStack[defaultTarget]? with
  | none =>
      have failed : (checker.popAndCheckSignature [.i32]).2.targets (depths ++ [defaultTarget])
          ((checker.popAndCheckSignature [.i32]).1, none) = .error := by
        apply Result.ne_ok_iff.mp
        rw [Ne, targets_none]
        rintro ⟨_, sig, agrees⟩
        rcases agrees defaultTarget (List.mem_append_right _ List.mem_cons_self) with
          ⟨label, other, _⟩
        rw [kept, found] at other
        cases other
      rw [failed]
      exact Follows.error
  | some label =>
      rw [targets_agree _ depths (kept ▸ found), controls, Result.or_assoc]
      change Follows _ (if depths.all (fun target =>
          (checker.validation.controls[target]?.map ControlFrame.labelTypes) ==
            some label.brTypes) then _ else none)
      split
      · apply condition_follows wellFormed label.brTypes
        intro popped
        exact check_setUnreachable popped label.brTypes
      · rw [Result.or_comm]
        exact Follows.error

theorem popOperand_atLimit {label : CheckerLabel} {labels : List CheckerLabel}
    {operands : List OperandType} (atLimit : operands.length = label.typeStackLimit) :
    (validation ⟨operands, label :: labels⟩).popOperand =
      if label.unreachable then some (.unknown, validation ⟨operands, label :: labels⟩)
      else none := by
  simp [ValidationState.popOperand, validation, CheckerLabel.frame, atLimit]

theorem popOperand_above {label : CheckerLabel} {labels : List CheckerLabel}
    {operand : OperandType} {rest : List OperandType}
    (above : label.typeStackLimit ≤ rest.length) :
    (validation ⟨operand :: rest, label :: labels⟩).popOperand =
      some (operand, validation ⟨rest, label :: labels⟩) := by
  have different : rest.length + 1 ≠ label.typeStackLimit := by omega
  simp [ValidationState.popOperand, validation, CheckerLabel.frame, different]

/-- Operands above the start of the top label may go. -/
theorem WellFormed.drop {operands : List OperandType} {label : CheckerLabel}
    {labels : List CheckerLabel} (wellFormed : WellFormed ⟨operands, label :: labels⟩)
    (dropCount : Nat) (above : label.typeStackLimit ≤ operands.length - dropCount) :
    WellFormed ⟨operands.drop dropCount, label :: labels⟩ := by
  refine wellFormed.of_suffix (List.drop_suffix dropCount operands) fun other member => ?_
  rw [List.length_drop]
  rcases List.mem_cons.mp member with rfl | outer
  · exact above
  · exact (List.rel_of_pairwise_cons wellFormed.nested outer).trans above

/-- An unknown operand may stand at the start of a label. -/
theorem WellFormed.pushOperand {operands : List OperandType} {label : CheckerLabel}
    {labels : List CheckerLabel} (wellFormed : WellFormed ⟨operands, label :: labels⟩)
    {operand : OperandType}
    (atLimit : operand = .unknown -> operands.length = label.typeStackLimit) :
    WellFormed ⟨operand :: operands, label :: labels⟩ where
  height other member := (wellFormed.height other member).trans (Nat.le_succ _)
  nested := wellFormed.nested
  labelled := wellFormed.labelled
  unknown position found := by
    simp only [List.reverse_cons, List.getElem?_append] at found
    split at found
    · exact wellFormed.unknown position found
    · rename_i past
      rw [List.getElem?_singleton, List.length_reverse] at found
      rw [List.length_reverse] at past
      split at found
      · refine ⟨label, List.mem_cons_self, ?_⟩
        rw [← atLimit (Option.some.inj found)]
        omega
      · cases found

/-- An unknown operand above the start of the top label is the first there. -/
theorem WellFormed.unknown_top {rest : List OperandType} {label : CheckerLabel}
    {labels : List CheckerLabel}
    (wellFormed : WellFormed ⟨.unknown :: rest, label :: labels⟩)
    (above : label.typeStackLimit ≤ rest.length) : rest.length = label.typeStackLimit := by
  have found : (OperandType.unknown :: rest).reverse[rest.length]? = some .unknown := by
    rw [List.reverse_cons, List.getElem?_append_right (by simp),
      List.length_reverse, Nat.sub_self]
    rfl
  rcases wellFormed.unknown rest.length found with ⟨owner, member, same⟩
  have below : owner.typeStackLimit ≤ label.typeStackLimit := by
    rcases List.mem_cons.mp member with rfl | outer
    · exact le_refl _
    · exact List.rel_of_pairwise_cons wellFormed.nested outer
  omega

theorem drop_follows (wellFormed : checker.WellFormed) :
    Follows (checker.dropTypes 1) (checker.validation.step .drop) := by
  rcases wellFormed.top with ⟨label, labels, stack, above⟩
  rcases checker with ⟨operands, labelStack⟩
  simp only at stack above
  subst stack
  rw [ValidationState.step]
  by_cases atLimit : operands.length = label.typeStackLimit
  · rw [popOperand_atLimit atLimit, dropTypes_cons, if_pos (by omega), atLimit, Nat.sub_self]
    cases label.unreachable with
    | false => exact Follows.error
    | true => exact Follows.ok wellFormed
  · cases operands with
    | nil => simp at atLimit above; omega
    | cons operand rest =>
        rw [List.length_cons] at above atLimit
        rw [popOperand_above (by omega), dropTypes_cons, List.length_cons, if_neg (by omega)]
        exact Follows.ok (wellFormed.drop 1 (by simp; omega))

/-- What `OnSelect` does below the condition. -/
def selectOperands (checker : TypeChecker) : Result × TypeChecker :=
  (((checker.peekType 0).1.or (checker.peekAndCheckType 1 (checker.peekType 0).2)).or
      (checker.dropTypes 2).1,
    (checker.dropTypes 2).2.pushOperand (checker.peekType 0).2)

theorem selectOperands_follows (wellFormed : checker.WellFormed) :
    Follows checker.selectOperands (do
      let (first, state) <- checker.validation.popOperand
      let (second, state) <- state.popExpected first
      some { state with operands := second :: state.operands }) := by
  rcases wellFormed.top with ⟨label, labels, stack, above⟩
  rcases checker with ⟨operands, labelStack⟩
  simp only at stack above
  subst stack
  unfold selectOperands
  rw [peekType_cons, peekAndCheckType_cons, dropTypes_cons]
  by_cases none : operands.length = label.typeStackLimit
  · -- nothing is left in the frame
    rw [if_pos (by omega), if_pos (by omega), if_pos (by omega), popOperand_atLimit none, none,
      Nat.sub_self]
    cases reached : label.unreachable with
    | false => exact Follows.error
    | true =>
        have again := @popOperand_atLimit label labels operands none
        rw [reached, if_pos rfl] at again
        simp only [if_true, Option.bind_eq_bind, Option.bind_some, ValidationState.popExpected, again]
        exact Follows.ok (wellFormed.pushOperand fun _ => none)
  · cases operands with
    | nil => simp at none above; omega
    | cons first rest =>
        rw [List.length_cons] at above none
        have belowFirst : label.typeStackLimit ≤ rest.length := by omega
        rw [popOperand_above belowFirst, List.length_cons, if_neg (by omega)]
        by_cases one : rest.length = label.typeStackLimit
        · have again := @popOperand_atLimit label labels rest one
          have reset : rest.length + 1 - label.typeStackLimit = 1 := by omega
          rw [if_pos (by omega), if_pos (by omega), reset]
          simp only [Option.bind_eq_bind, Option.bind_some, ValidationState.popExpected, again]
          cases label.unreachable with
          | false => exact Follows.error
          | true => exact Follows.ok wellFormed
        · cases rest with
          | nil => simp at one belowFirst; omega
          | cons second rest =>
              rw [List.length_cons] at belowFirst one
              have belowSecond : label.typeStackLimit ≤ rest.length := by omega
              have kept := wellFormed.drop 2 (by simp; omega)
              have popped := @popOperand_above label labels second rest belowSecond
              rw [List.length_cons, if_neg (by omega), if_neg (by omega)]
              simp only [Option.bind_eq_bind, Option.bind_some, ValidationState.popExpected, popped]
              cases first with
              | unknown =>
                  have top := wellFormed.unknown_top (by rw [List.length_cons]; omega)
                  rw [List.length_cons] at top
                  omega
              | value type =>
                  have pushed : WellFormed ⟨.value type :: rest, label :: labels⟩ :=
                    kept.pushOperand fun impossible => by cases impossible
                  cases second with
                  | unknown => exact Follows.ok pushed
                  | value actual =>
                      by_cases same : actual = type
                      · subst same
                        have checked : checkType (.value actual) (.value actual) = .ok := by
                          simp [checkType, Result.ofBool]
                        simp only [List.getD_cons_zero, List.getD_cons_succ, checked,
                          Result.ok_or, reduceCtorEq, if_true, if_false]
                        exact Follows.ok pushed
                      · have other : ¬ type = actual := fun equal => same equal.symm
                        simp [checkType, same, other, Follows, Result.or, Result.ofBool]

theorem peekType_succ (wellFormed : checker.WellFormed) {type : OperandType}
    (first : checker.peekAndCheckType 0 type = .ok) (depth : Nat) :
    (checker.dropTypes 1).2.peekType depth = checker.peekType (depth + 1) := by
  rcases wellFormed.top with ⟨label, labels, stack, above⟩
  rcases checker with ⟨operands, labelStack⟩
  simp only at stack above
  subst stack
  by_cases atLimit : operands.length = label.typeStackLimit
  · rw [dropTypes_atLimit atLimit, peekType_cons, peekType_cons, if_pos (by omega),
      if_pos (by omega)]
  · have dropped : (dropTypes ⟨operands, label :: labels⟩ 1).2 =
        ⟨operands.drop 1, label :: labels⟩ := by
      rw [dropTypes_cons, if_neg (by omega)]
    rw [dropped, peekType_cons, peekType_cons, List.length_drop]
    have same : operands.length - 1 ≤ label.typeStackLimit + depth ↔
        operands.length ≤ label.typeStackLimit + (depth + 1) := by omega
    simp only [same, List.getD_eq_getElem?_getD, List.getElem?_drop, Nat.add_comm 1 depth]

theorem select_follows (wellFormed : checker.WellFormed) :
    Follows checker.onSelect (checker.validation.step .select) := by
  have step : checker.validation.step .select =
      ((checker.validation.popExpected (.value .i32)).map Prod.snd).bind fun state => (do
        let (first, state) <- state.popOperand
        let (second, state) <- state.popExpected first
        some { state with operands := second :: state.operands }) := by
    rw [ValidationState.step]
    cases checker.validation.popExpected (.value .i32) <;> rfl
  have made : checker.onSelect =
      ((((checker.peekAndCheckType 0 (.value .i32)).or (checker.peekType 1).1).or
          (checker.peekAndCheckType 2 (checker.peekType 1).2)).or (checker.dropTypes 3).1,
        (checker.dropTypes 3).2.pushOperand (checker.peekType 1).2) := rfl
  have popped := pop_one wellFormed .i32
  rw [step, made]
  cases condition : checker.peekAndCheckType 0 (.value .i32) with
  | error =>
      rw [condition] at popped
      have failed : (checker.validation.popExpected (.value .i32)).map Prod.snd = none := popped
      rw [failed]
      exact Follows.error
  | ok =>
      rw [condition, dropTypes_one_ok wellFormed condition] at popped
      rcases popped with ⟨reached, kept⟩
      rw [reached, Result.ok_or, dropTypes_succ wellFormed condition 2,
        ← peekAndCheckType_succ wellFormed condition, ← peekType_succ wellFormed condition]
      exact selectOperands_follows kept

/-- Nothing but its results is left in a frame that ends. -/
theorem leave {operands : List OperandType} {label : CheckerLabel} {labels : List CheckerLabel}
    (wellFormed : WellFormed ⟨operands, label :: labels⟩) :
    match (popAndCheckSignature ⟨operands, label :: labels⟩ label.resultTypes).1.or
        (popAndCheckSignature ⟨operands, label :: labels⟩ label.resultTypes).2.checkTypeStackEnd with
    | .ok => ∃ rest, rest.length = label.typeStackLimit ∧ WellFormed ⟨rest, label :: labels⟩ ∧
        (popAndCheckSignature ⟨operands, label :: labels⟩ label.resultTypes).2 =
          ⟨rest, label :: labels⟩ ∧
        (validation ⟨operands, label :: labels⟩).popControl =
          some (label.frame, ⟨rest, labels.map CheckerLabel.frame⟩)
    | .error => (validation ⟨operands, label :: labels⟩).popControl = none := by
  have popped := pop_signature wellFormed label.resultTypes
  have control : (validation ⟨operands, label :: labels⟩).popControl =
      ((validation ⟨operands, label :: labels⟩).popOperands label.resultTypes).bind fun state =>
        if state.operands.length = label.typeStackLimit then
          some (label.frame, { state with controls := labels.map CheckerLabel.frame })
        else none := rfl
  have labelStack : (popAndCheckSignature ⟨operands, label :: labels⟩ label.resultTypes).2.labelStack =
      label :: labels := by
    rw [popAndCheckSignature_eq, dropTypes_labelStack]
  rw [control]
  generalize popAndCheckSignature ⟨operands, label :: labels⟩ label.resultTypes = made
    at popped labelStack ⊢
  rcases made with ⟨result, rest, stack⟩
  change stack = _ at labelStack
  subst labelStack
  cases result with
  | error =>
      have failed : (validation ⟨operands, label :: labels⟩).popOperands label.resultTypes = none :=
        popped
      rw [failed]
      rfl
  | ok =>
      rcases popped with ⟨reached, kept⟩
      rw [reached, Result.ok_or]
      by_cases atLimit : rest.length = label.typeStackLimit
      · have ended : checkTypeStackEnd ⟨rest, label :: labels⟩ = .ok := by
          simp [checkTypeStackEnd, Result.ofBool, atLimit]
        simp only [ended]
        refine ⟨rest, atLimit, kept, rfl, ?_⟩
        exact if_pos atLimit
      · have ended : checkTypeStackEnd ⟨rest, label :: labels⟩ = .error := by
          simp [checkTypeStackEnd, Result.ofBool, atLimit]
        simp only [ended]
        exact if_neg atLimit

theorem onElse_cons (operands : List OperandType) (label : CheckerLabel)
    (labels : List CheckerLabel) {rest : List OperandType}
    (popped : (popAndCheckSignature ⟨operands, label :: labels⟩ label.resultTypes).2 =
      ⟨rest, label :: labels⟩) (atLimit : rest.length = label.typeStackLimit) :
    (onElse ⟨operands, label :: labels⟩).2 =
      pushTypes ⟨rest, { label with labelType := .els, unreachable := false } :: labels⟩
        label.paramTypes := by
  have reset : (onElse ⟨operands, label :: labels⟩).2 =
      { ((popAndCheckSignature ⟨operands, label :: labels⟩
            label.resultTypes).2.resetTypeStackToLabel label).pushTypes label.paramTypes with
        labelStack := { label with labelType := .els, unreachable := false } ::
          (((popAndCheckSignature ⟨operands, label :: labels⟩
            label.resultTypes).2.resetTypeStackToLabel label).pushTypes
              label.paramTypes).labelStack.tail } := rfl
  rw [reset, popped, pushTypes_eq, pushTypes_eq]
  simp [resetTypeStackToLabel, atLimit]

theorem else_follows (wellFormed : checker.WellFormed) :
    Follows checker.onElse (checker.validation.step .els) := by
  rcases wellFormed.top with ⟨label, labels, stack, above⟩
  rcases checker with ⟨operands, labelStack⟩
  simp only at stack
  subst stack
  have left := leave wellFormed
  have made : (onElse ⟨operands, label :: labels⟩).1 =
      (Result.ofBool (decide (label.labelType = .ite))).or
        ((popAndCheckSignature ⟨operands, label :: labels⟩ label.resultTypes).1.or
          (popAndCheckSignature ⟨operands, label :: labels⟩
            label.resultTypes).2.checkTypeStackEnd) := rfl
  rw [← Prod.eta (onElse _), made]
  split at left
  · rename_i ended
    rcases left with ⟨rest, atLimit, kept, popped, reached⟩
    rw [onElse_cons operands label labels popped atLimit, ended, ValidationState.step,
      ValidationState.startElse, reached]
    by_cases conditional : label.labelType = .ite
    · have inElse : WellFormed
          ⟨rest, { label with labelType := .els, unreachable := false } :: labels⟩ := by
        have changed := kept.reset rfl { label with labelType := .els, unreachable := false } rfl
          (by simp [conditional])
        have same : rest.drop (rest.length - label.typeStackLimit) = rest := by simp [atLimit]
        simpa only [resetTypeStackToLabel, same] using changed
      have entered := Follows.ok (inElse.pushTypes label.paramTypes)
      rw [pushTypes_validation] at entered
      have control : label.frame.kind = .ite := conditional
      simp only [Option.bind_eq_bind, Option.bind_some, control, if_true, conditional, decide_true,
        ValidationState.pushControl, atLimit]
      exact entered
    · have control : label.frame.kind ≠ .ite := conditional
      simp only [Option.bind_eq_bind, Option.bind_some, control, if_false, conditional,
        decide_false]
      exact Follows.error
  · rename_i ended
    rw [ended, Result.or_comm, ValidationState.step, ValidationState.startElse, left]
    exact Follows.error

theorem onEnd_cons (operands : List OperandType) (label : CheckerLabel)
    (labels : List CheckerLabel) {rest : List OperandType}
    (popped : (popAndCheckSignature ⟨operands, label :: labels⟩ label.resultTypes).2 =
      ⟨rest, label :: labels⟩) (atLimit : rest.length = label.typeStackLimit) :
    (onEnd ⟨operands, label :: labels⟩).2 = pushTypes ⟨rest, labels⟩ label.resultTypes := by
  have reset : (onEnd ⟨operands, label :: labels⟩).2 =
      (((popAndCheckSignature ⟨operands, label :: labels⟩
        label.resultTypes).2.resetTypeStackToLabel label).pushTypes label.resultTypes).popLabel :=
    rfl
  rw [reset, popped, pushTypes_eq, pushTypes_eq]
  simp [resetTypeStackToLabel, popLabel, atLimit]

end Callbacks

end TypeChecker

/-! ## Conditionals without an `else` -/

namespace ValidationState

/-- The algorithm with another rule for the types of a conditional that ends
without an `else`. -/
def stepWith (rule : List ValueType -> List ValueType -> Bool) (state : ValidationState)
    (instr : TypedInstr) : Option ValidationState :=
  match instr, state.controls with
  | .fin, ⟨.ite, params, results, _, _⟩ :: _ => if rule params results then state.finish else none
  | _, _ => state.step instr

/-- Operands fit a frame that has nothing else exactly if they are of its types. -/
theorem popReversed_start (types given : List ValueType) (frame : ControlFrame)
    (controls : List ControlFrame) (rest : List OperandType) (atLimit : rest.length = frame.height)
    (reachable : frame.unreachable = false) :
    (popReversed types ⟨given.map .value ++ rest, frame :: controls⟩).bind (fun state =>
        if state.operands.length = frame.height then some state else none) =
      if given = types then some ⟨rest, frame :: controls⟩ else none := by
  induction types generalizing given with
  | nil =>
      rw [popReversed, Option.bind_some]
      cases given with
      | nil => simp [atLimit]
      | cons type given =>
          rw [if_neg (by simp; omega), if_neg (List.cons_ne_nil _ _)]
  | cons type types inductionHypothesis =>
      rw [popReversed]
      cases given with
      | nil => simp [popExpected, popOperand, atLimit, reachable]
      | cons first given =>
          have above : ¬ (given.length + rest.length + 1 = frame.height) := by omega
          by_cases same : first = type
          · subst same
            have here := inductionHypothesis given
            simp [popExpected, popOperand, above] at here ⊢
            exact here
          · simp [popExpected, popOperand, above, same]

/-- An empty `else` is valid exactly if the parameters are the results. -/
theorem finish_empty (state : ValidationState) (kind : LabelType)
    (params results : List ValueType) :
    (state.pushControl kind params results).finish =
      if params = results then some (state.pushOperands results) else none := by
  have popped := popReversed_start results.reverse params.reverse
    ⟨kind, params, results, state.operands.length, false⟩ state.controls state.operands rfl rfl
  simp only [List.reverse_inj] at popped
  have unfolded : (state.pushControl kind params results).finish =
      ((popReversed results.reverse ⟨params.reverse.map .value ++ state.operands,
          ⟨kind, params, results, state.operands.length, false⟩ :: state.controls⟩).bind
        fun popped => if popped.operands.length = state.operands.length then some popped
          else none).bind fun popped =>
            some (({ popped with controls := state.controls } : ValidationState).pushOperands
              results) := by
    rw [finish, popControl]
    change ((popReversed results.reverse _).bind _).bind _ = _
    rw [Option.bind_assoc, Option.bind_assoc]
    congr
    funext popped
    split <;> rfl
  rw [unfolded, popped]
  split <;> rfl

theorem popControl_frame {state final : ValidationState} {top frame : ControlFrame}
    {controls : List ControlFrame} (shape : state.controls = top :: controls)
    (popped : state.popControl = some (frame, final)) : frame = top := by
  rw [popControl, shape] at popped
  rcases Option.bind_eq_some_iff.mp popped with ⟨between, _, ended⟩
  split at ended
  · cases ended
    rfl
  · cases ended

/-- WebAssembly's rule is that the parameters are the results. -/
theorem step_eq_stepWith (state : ValidationState) (instr : TypedInstr) :
    state.step instr = state.stepWith (fun params results => params == results) instr := by
  unfold stepWith
  split
  · rename_i params results height unreachable controls shape
    rw [step, shape]
    change state.startElse.bind finish = _
    rw [startElse, finish]
    cases popped : state.popControl with
    | none => simp
    | some left =>
        rcases left with ⟨frame, final⟩
        have top := popControl_frame shape popped
        subst top
        change (final.pushControl .els params results).finish = _
        rw [finish_empty]
        simp
  · rfl

end ValidationState

namespace TypeChecker

section Bodies

variable {checker : TypeChecker}

/-- The checker's rule is that there are no results. -/
def noResults (_ results : List ValueType) : Bool := results.isEmpty

theorem end_follows {operands : List OperandType} {label : CheckerLabel}
    {labels : List CheckerLabel} (wellFormed : WellFormed ⟨operands, label :: labels⟩)
    (inner : label.labelType ≠ .func) :
    Follows (onEnd ⟨operands, label :: labels⟩)
      ((validation ⟨operands, label :: labels⟩).stepWith noResults .fin) := by
  have made : (onEnd ⟨operands, label :: labels⟩).1 =
      Result.or (if label.labelType = .ite && label.resultTypes.length != 0 then .error else .ok)
        ((popAndCheckSignature ⟨operands, label :: labels⟩ label.resultTypes).1.or
          (popAndCheckSignature ⟨operands, label :: labels⟩
            label.resultTypes).2.checkTypeStackEnd) := rfl
  have rule : (validation ⟨operands, label :: labels⟩).stepWith noResults .fin =
      if label.labelType = .ite ∧ label.resultTypes.length ≠ 0 then none
      else (validation ⟨operands, label :: labels⟩).finish := by
    rcases label with ⟨kind, params, results, limit, unreachable⟩
    cases kind with
    | func => exact absurd rfl inner
    | ite =>
        change (if results.isEmpty then _ else _) = _
        cases results <;> simp
    | _ => rfl
  rw [← Prod.eta (onEnd _), made, rule]
  by_cases results : label.labelType = .ite ∧ label.resultTypes.length ≠ 0
  · rw [if_pos results, if_pos (by simpa using results)]
    exact Follows.error
  · rw [if_neg results, if_neg (by simpa using results), Result.ok_or, ValidationState.finish]
    have left := leave wellFormed
    split at left
    · rename_i ended
      rcases left with ⟨rest, atLimit, kept, popped, reached⟩
      rw [onEnd_cons operands label labels popped atLimit, ended, reached]
      have outside : WellFormed ⟨rest, labels⟩ := by
        constructor
        · exact ⟨fun other member => kept.height other (List.mem_cons_of_mem _ member),
            (List.pairwise_cons.mp kept.nested).2⟩
        · exact kept.labelled.tail inner
        · intro position found
          rcases kept.unknown position found with ⟨owner, member, same⟩
          rcases List.mem_cons.mp member with rfl | outer
          · have below : position < rest.length := by
              rw [← List.length_reverse]
              exact (List.getElem?_eq_some_iff.mp found).1
            omega
          · exact ⟨owner, outer, same⟩
      have pushed := Follows.ok (outside.pushTypes label.resultTypes)
      rw [pushTypes_validation] at pushed
      exact pushed
    · rename_i ended
      rw [ended, left]
      exact Follows.error

theorem endFunction_cons (operands : List OperandType) (label : CheckerLabel)
    (labels : List CheckerLabel) : (endFunction ⟨operands, label :: labels⟩).1 =
      (Result.ofBool (decide (label.labelType = .func))).or
        ((popAndCheckSignature ⟨operands, label :: labels⟩ label.resultTypes).1.or
          (popAndCheckSignature ⟨operands, label :: labels⟩
            label.resultTypes).2.checkTypeStackEnd) := rfl

/-- The function ends well where its own frame ends well. -/
theorem endFunction_ok (wellFormed : checker.WellFormed) :
    checker.endFunction.1 = .ok ↔ ∃ frame final,
      checker.validation.popControl = some (frame, final) ∧ frame.kind = .func := by
  rcases wellFormed.top with ⟨label, labels, stack, above⟩
  rcases checker with ⟨operands, labelStack⟩
  simp only at stack
  subst stack
  have left := leave wellFormed
  rw [endFunction_cons, Result.or_eq_ok, Result.ofBool_eq_ok, decide_eq_true_eq]
  split at left
  · rename_i ended
    rcases left with ⟨rest, _, _, _, reached⟩
    rw [ended, reached]
    constructor
    · rintro ⟨func, _⟩
      exact ⟨label.frame, _, rfl, func⟩
    · rintro ⟨frame, final, same, func⟩
      cases same
      exact ⟨func, rfl⟩
  · rename_i ended
    rw [ended, left]
    simp

/-- Every callback, but for the end of the function's own label. -/
theorem step_follows (wellFormed : checker.WellFormed) (instr : TypedInstr)
    (inside : instr = .fin -> forall label, checker.labelStack.head? = some label ->
      label.labelType ≠ .func) :
    Follows (checker.step instr) (checker.validation.stepWith noResults instr) := by
  have typed (params results : List ValueType) : Follows (checker.popAndCheckCall params results)
      ((checker.validation.popOperands params).bind fun state =>
        some (state.pushOperands results)) := by
    have called := call_follows wellFormed params results
    rw [Option.map_eq_bind] at called
    exact called
  have pushed (type : ValueType) : Follows (.ok, checker.pushTypes [type])
      (some (checker.validation.pushOperands [type])) := by
    rw [← pushTypes_validation]
    exact Follows.ok (wellFormed.pushTypes [type])
  cases instr with
  | unary opcode =>
      rw [step, checkOpcode1_eq]
      exact typed _ _
  | binary opcode =>
      rw [step, checkOpcode2_eq]
      exact typed _ _
  | compare opcode =>
      rw [step, checkOpcode2_eq]
      exact typed _ _
  | convert opcode =>
      rw [step, checkOpcode1_eq]
      exact typed _ _
  | load opcode =>
      rw [step, checkOpcode1_eq]
      exact typed _ _
  | store opcode =>
      rw [step, checkOpcode2_eq]
      exact typed _ _
  | const type => exact pushed type
  | memorySize => exact pushed .i32
  | memoryGrow =>
      rw [step, checkOpcode1_eq]
      exact typed _ _
  | getLocal type => exact pushed type
  | setLocal type =>
      rw [step, popAndCheck1Type_eq]
      exact typed [type] []
  | teeLocal type =>
      rw [step, onTeeLocal, popAndCheck1Type_eq]
      exact typed [type] [type]
  | getGlobal type => exact pushed type
  | setGlobal type =>
      rw [step, popAndCheck1Type_eq]
      exact typed [type] []
  | call params results => exact typed params results
  | callIndirect params results =>
      rw [step, onCallIndirect, popAndCheck1Type_eq]
      apply condition_follows wellFormed params
      intro popped
      have called := call_follows popped params results
      rw [Option.map_eq_bind] at called
      exact called
  | drop => exact drop_follows wellFormed
  | select => exact select_follows wellFormed
  | block params results => exact block_follows wellFormed params results
  | loop params results => exact loop_follows wellFormed params results
  | ite params results => exact ite_follows wellFormed params results
  | els => exact else_follows wellFormed
  | fin =>
      rcases wellFormed.top with ⟨label, labels, stack, _⟩
      rcases checker with ⟨operands, labelStack⟩
      simp only at stack
      subst stack
      exact end_follows wellFormed (inside rfl label rfl)
  | br depth => exact br_follows wellFormed depth
  | brIf depth => exact brIf_follows wellFormed depth
  | brTable targets defaultTarget => exact brTable_follows wellFormed targets defaultTarget
  | ret => exact return_follows wellFormed
  | unreachable => exact setUnreachable_follows wellFormed

theorem dropTypes_closed (closed : checker.labelStack = []) (dropCount : Nat) :
    checker.dropTypes dropCount = (.error, checker) := by
  unfold dropTypes
  rw [closed]

theorem popAndCheckSignature_closed (closed : checker.labelStack = []) (sig : List ValueType) :
    (checker.popAndCheckSignature sig).1 = .error := by
  rw [popAndCheckSignature_eq, dropTypes_closed closed, Result.or_comm]
  rfl

theorem popAndCheckCall_closed (closed : checker.labelStack = [])
    (params results : List ValueType) : (checker.popAndCheckCall params results).1 = .error :=
  popAndCheckSignature_closed closed params

theorem pushTypes_labelStack (types : List ValueType) :
    (checker.pushTypes types).labelStack = checker.labelStack := by
  rw [pushTypes_eq]

/-- Without a label a callback fails or there is no label behind it either. -/
theorem step_closed (closed : checker.labelStack = []) (instr : TypedInstr) :
    (checker.step instr).1 = .error ∨ (checker.step instr).2.labelStack = [] := by
  have condition (result : Result) : (checker.popAndCheckSignature [.i32]).1.or result = .error := by
    rw [popAndCheckSignature_closed closed]
    rfl
  have entered : (checker.popAndCheckSignature [.i32]).2.labelStack = [] := by
    rw [popAndCheckSignature_eq, dropTypes_labelStack]
    exact closed
  cases instr with
  | unary opcode =>
      rw [step, checkOpcode1_eq]
      exact .inl (popAndCheckCall_closed closed _ _)
  | binary opcode =>
      rw [step, checkOpcode2_eq]
      exact .inl (popAndCheckCall_closed closed _ _)
  | compare opcode =>
      rw [step, checkOpcode2_eq]
      exact .inl (popAndCheckCall_closed closed _ _)
  | convert opcode =>
      rw [step, checkOpcode1_eq]
      exact .inl (popAndCheckCall_closed closed _ _)
  | load opcode =>
      rw [step, checkOpcode1_eq]
      exact .inl (popAndCheckCall_closed closed _ _)
  | store opcode =>
      rw [step, checkOpcode2_eq]
      exact .inl (popAndCheckCall_closed closed _ _)
  | memoryGrow =>
      rw [step, checkOpcode1_eq]
      exact .inl (popAndCheckCall_closed closed _ _)
  | const type => exact .inr ((pushTypes_labelStack _).trans closed)
  | memorySize => exact .inr ((pushTypes_labelStack _).trans closed)
  | getLocal type => exact .inr ((pushTypes_labelStack _).trans closed)
  | getGlobal type => exact .inr ((pushTypes_labelStack _).trans closed)
  | setLocal type =>
      rw [step, popAndCheck1Type_eq]
      exact .inl (popAndCheckSignature_closed closed _)
  | teeLocal type =>
      rw [step, onTeeLocal, popAndCheck1Type_eq]
      exact .inl (popAndCheckSignature_closed closed _)
  | setGlobal type =>
      rw [step, popAndCheck1Type_eq]
      exact .inl (popAndCheckSignature_closed closed _)
  | call params results => exact .inl (popAndCheckCall_closed closed _ _)
  | callIndirect params results =>
      rw [step, onCallIndirect, popAndCheck1Type_eq]
      exact .inl (condition _)
  | drop =>
      rw [step, dropTypes_closed closed]
      exact .inl rfl
  | select =>
      have made : checker.onSelect.1 = (((checker.peekAndCheckType 0 (.value .i32)).or
          (checker.peekType 1).1).or (checker.peekAndCheckType 2 (checker.peekType 1).2)).or
            (checker.dropTypes 3).1 := rfl
      rw [step, made, dropTypes_closed closed, Result.or_comm]
      exact .inl rfl
  | block params results => exact .inl (popAndCheckSignature_closed closed params)
  | loop params results => exact .inl (popAndCheckSignature_closed closed params)
  | ite params results =>
      rw [step, onIf, popAndCheck1Type_eq]
      exact .inl (condition _)
  | els =>
      rw [step, onElse, closed]
      exact .inl rfl
  | fin =>
      rw [step, onEnd, closed]
      exact .inl rfl
  | br depth =>
      rw [step, onBr, closed]
      exact .inl rfl
  | brIf depth =>
      have none : (checker.popAndCheckSignature [.i32]).2.labelStack[depth]? = none := by
        rw [entered]
        rfl
      rw [step, onBrIf, popAndCheck1Type_eq]
      simp only [none]
      exact .inl trivial
  | brTable targets defaultTarget =>
      rw [step, onBrTable_eq, popAndCheckSignature_closed closed, targets_error]
      exact .inl rfl
  | ret =>
      rw [step, onReturn, closed]
      exact .inl rfl
  | unreachable =>
      rw [step, setUnreachable, closed]
      exact .inl rfl

theorem steps_cons (instr : TypedInstr) (body : List TypedInstr) (checker : TypeChecker) :
    steps (instr :: body) checker =
      ((checker.step instr).1.or (steps body (checker.step instr).2).1,
        (steps body (checker.step instr).2).2) := rfl

/-- A body that closes the function's label is not accepted. -/
theorem steps_closed (body : List TypedInstr) (closed : checker.labelStack = []) :
    ¬ ((steps body checker).1 = .ok ∧ (steps body checker).2.endFunction.1 = .ok) := by
  induction body generalizing checker with
  | nil =>
      rintro ⟨_, ended⟩
      rw [steps, endFunction, closed] at ended
      cases ended
  | cons instr body inductionHypothesis =>
      rw [steps_cons, Result.or_eq_ok]
      rintro ⟨⟨made, rest⟩, ended⟩
      rcases step_closed closed instr with failed | still
      · rw [failed] at made
        cases made
      · exact inductionHypothesis still ⟨rest, ended⟩

/-- All callbacks return `Ok` where the algorithm, with the checker's rule,
accepts. -/
theorem steps_accepted (wellFormed : checker.WellFormed) (body : List TypedInstr) :
    (steps body checker).1 = .ok ∧ (steps body checker).2.endFunction.1 = .ok ↔
      ∃ state frame final,
        body.foldlM (ValidationState.stepWith noResults) checker.validation = some state ∧
          state.popControl = some (frame, final) ∧ frame.kind = .func := by
  induction body generalizing checker with
  | nil =>
      rw [steps]
      simp only [true_and, endFunction_ok wellFormed, List.foldlM_nil, Option.pure_def,
        Option.some.injEq]
      constructor
      · rintro ⟨frame, final, popped, func⟩
        exact ⟨_, frame, final, rfl, popped, func⟩
      · rintro ⟨_, frame, final, rfl, popped, func⟩
        exact ⟨frame, final, popped, func⟩
  | cons instr body inductionHypothesis =>
      rw [steps_cons, Result.or_eq_ok, and_assoc, List.foldlM_cons, Option.bind_eq_bind]
      by_cases outermost : instr = .fin ∧ ∃ label, checker.labelStack.head? = some label ∧
          label.labelType = .func
      · rcases outermost with ⟨rfl, label, top, func⟩
        rcases checker with ⟨operands, labelStack⟩
        rcases wellFormed.top with ⟨outer, labels, stack, _⟩
        simp only at stack top
        subst stack
        cases top
        have alone : labels = [] := by
          have labelled := wellFormed.labelled
          cases labels with
          | nil => rfl
          | cons outer labels => exact absurd func labelled.1
        subst alone
        have closed : (step ⟨operands, [label]⟩ .fin).2.labelStack = [] := by
          have unfolded : (step ⟨operands, [label]⟩ .fin).2 =
              (((popAndCheckSignature ⟨operands, [label]⟩
                label.resultTypes).2.resetTypeStackToLabel label).pushTypes
                  label.resultTypes).popLabel := rfl
          rw [unfolded, pushTypes_eq, popAndCheckSignature_eq]
          simp only [popLabel, resetTypeStackToLabel, dropTypes_labelStack, List.tail_cons]
        have invalid : (validation ⟨operands, [label]⟩).stepWith noResults .fin = none := by
          rcases label with ⟨kind, params, results, limit, unreachable⟩
          simp only at func
          subst func
          rfl
        rw [invalid]
        constructor
        · rintro ⟨_, accepted⟩
          exact absurd accepted (steps_closed body closed)
        · rintro ⟨_, _, _, impossible, _⟩
          cases impossible
      · have follows := step_follows wellFormed instr fun same label top func =>
          outermost ⟨same, label, top, func⟩
        unfold Follows at follows
        cases made : (checker.step instr).1 with
        | error =>
            rw [made] at follows
            have failed : checker.validation.stepWith noResults instr = none := follows
            rw [failed]
            constructor
            · rintro ⟨impossible, _⟩
              cases impossible
            · rintro ⟨_, _, _, impossible, _⟩
              cases impossible
        | ok =>
            rw [made] at follows
            rcases follows with ⟨reached, kept⟩
            rw [reached, Option.bind_some, inductionHypothesis kept]
            simp only [true_and]

end Bodies

end TypeChecker

end Wasm
end WasmSandboxing
