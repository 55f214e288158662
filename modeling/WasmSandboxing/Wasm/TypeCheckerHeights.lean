import WasmSandboxing.Wasm.TypeCheckerSteps

namespace WasmSandboxing
namespace Wasm

/-!
# Heights of the type checker's stack

Nothing below the entry of the current label is popped, also after a callback
has failed.
-/

namespace TypeChecker

section Heights

variable {checker between after : TypeChecker}

/-- The operands below the entry of the current label. -/
def base (checker : TypeChecker) : List OperandType :=
  match checker.labelStack with
  | [] => checker.typeStack
  | label :: _ => checker.typeStack.drop (checker.typeStack.length - label.typeStackLimit)

def limits (checker : TypeChecker) : List Nat := checker.labelStack.map CheckerLabel.typeStackLimit

/-- A callback that neither enters nor leaves a label, and pops nothing below
the entry of the current one. -/
structure Within (checker after : TypeChecker) : Prop where
  limits : after.limits = checker.limits
  kept : checker.base <:+ after.typeStack

theorem base_suffix (checker : TypeChecker) : checker.base <:+ checker.typeStack := by
  unfold base
  split
  · exact List.suffix_rfl
  · exact List.drop_suffix _ _

theorem Within.refl (checker : TypeChecker) : Within checker checker :=
  ⟨rfl, checker.base_suffix⟩

theorem Within.base (within : Within checker after) : checker.base <:+ after.base := by
  rcases checker with ⟨operands, labels⟩
  rcases after with ⟨left, others⟩
  rcases within with ⟨limits, kept⟩
  cases labels with
  | nil =>
      have none : others = [] := List.map_eq_nil_iff.mp limits
      subst none
      exact kept
  | cons label labels =>
      cases others with
      | nil => cases limits
      | cons other others =>
          have same : other.typeStackLimit = label.typeStackLimit := (List.cons.inj limits).1
          have length := kept.length_le
          refine List.suffix_of_suffix_length_le kept (base_suffix _) ?_
          simp only [TypeChecker.base, List.length_drop] at length ⊢
          omega

theorem Within.trans (first : Within checker between) (second : Within between after) :
    Within checker after :=
  ⟨second.limits.trans first.limits, first.base.trans second.kept⟩

theorem dropTypes_within (checker : TypeChecker) (dropCount : Nat) :
    Within checker (checker.dropTypes dropCount).2 := by
  rcases checker with ⟨operands, labels⟩
  cases labels with
  | nil => exact Within.refl _
  | cons label labels =>
      rw [dropTypes_cons]
      split
      · exact ⟨rfl, List.suffix_rfl⟩
      · refine ⟨rfl, List.suffix_of_suffix_length_le (base_suffix _) (List.drop_suffix _ _) ?_⟩
        simp only [base, List.length_drop]
        omega

theorem pushOperand_within (checker : TypeChecker) (operand : OperandType) :
    Within checker (checker.pushOperand operand) :=
  ⟨rfl, checker.base_suffix.trans (List.suffix_cons _ _)⟩

theorem pushTypes_within (checker : TypeChecker) (types : List ValueType) :
    Within checker (checker.pushTypes types) := by
  rw [pushTypes_eq]
  exact ⟨rfl, checker.base_suffix.trans (List.suffix_append _ _)⟩

theorem setUnreachable_within (checker : TypeChecker) :
    Within checker checker.setUnreachable.2 := by
  rcases checker with ⟨operands, labels⟩
  cases labels with
  | nil => exact Within.refl _
  | cons label labels => exact ⟨rfl, List.suffix_rfl⟩

theorem popAndCheckSignature_within (checker : TypeChecker) (sig : List ValueType) :
    Within checker (checker.popAndCheckSignature sig).2 :=
  dropTypes_within checker sig.length

theorem popAndCheckCall_within (checker : TypeChecker) (params results : List ValueType) :
    Within checker (checker.popAndCheckCall params results).2 :=
  (dropTypes_within checker params.length).trans (pushTypes_within _ results)

/-- What stays in place keeps the labels in order. -/
theorem Bounded.of_limits (bounded : checker.Bounded) (limits : after.limits = checker.limits)
    (length : forall limit, checker.limits.head? = some limit -> limit ≤ after.typeStack.length) :
    after.Bounded := by
  have nested : after.limits.Pairwise fun inner outer => outer ≤ inner := by
    rw [limits]
    exact List.pairwise_map.mpr bounded.nested
  have same : after.labelStack.Pairwise fun inner outer =>
      outer.typeStackLimit ≤ inner.typeStackLimit := List.pairwise_map.mp nested
  refine ⟨fun label member => ?_, same⟩
  rw [← limits] at length
  cases stack : after.labelStack with
  | nil =>
      rw [stack] at member
      cases member
  | cons top labels =>
      have below : top.typeStackLimit ≤ after.typeStack.length := by
        apply length
        rw [TypeChecker.limits, stack]
        rfl
      rw [stack] at member same
      rcases List.mem_cons.mp member with rfl | outer
      · exact below
      · exact (List.rel_of_pairwise_cons same outer).trans below

theorem Within.bounded (within : Within checker after) (bounded : checker.Bounded) :
    after.Bounded := by
  refine bounded.of_limits within.limits fun limit top => ?_
  rcases checker with ⟨operands, labels⟩
  cases labels with
  | nil => cases top
  | cons label labels =>
      cases top
      have kept := within.kept.length_le
      have above := bounded.height label List.mem_cons_self
      simp only [TypeChecker.base, List.length_drop] at kept above
      omega

/-- A callback that pops nothing below the entry of the current label, and keeps
the labels in order. -/
structure Keeps (checker after : TypeChecker) : Prop where
  kept : checker.base <:+ after.typeStack
  bounded : checker.Bounded -> after.Bounded

theorem Within.keeps (within : Within checker after) : Keeps checker after :=
  ⟨within.kept, within.bounded⟩

theorem Within.enter (within : Within checker between) (labelType : LabelType)
    (params results : List ValueType) :
    Keeps checker ((between.pushLabel labelType params results).pushTypes params) := by
  rw [pushTypes_eq]
  refine ⟨within.kept.trans (List.suffix_append _ _), fun bounded => ?_⟩
  have entered := within.bounded bounded
  have pushed : (between.pushLabel labelType params results).Bounded := by
    refine ⟨fun label member => ?_, List.pairwise_cons.mpr ⟨entered.height, entered.nested⟩⟩
    rcases List.mem_cons.mp member with rfl | outer
    · exact le_refl _
    · exact entered.height label outer
  refine ⟨fun label member => ?_, pushed.nested⟩
  have below := pushed.height label member
  simp only [List.length_append]
  exact below.trans (Nat.le_add_left _ _)

theorem onEnd_keeps (checker : TypeChecker) : Keeps checker checker.onEnd.2 := by
  rcases checker with ⟨operands, labels⟩
  cases labels with
  | nil => exact (Within.refl _).keeps
  | cons label labels =>
      have reset : (onEnd ⟨operands, label :: labels⟩).2 =
          (((popAndCheckSignature ⟨operands, label :: labels⟩
            label.resultTypes).2.resetTypeStackToLabel label).pushTypes label.resultTypes).popLabel :=
        rfl
      have popped := popAndCheckSignature_within ⟨operands, label :: labels⟩ label.resultTypes
      have stack : (popAndCheckSignature ⟨operands, label :: labels⟩
          label.resultTypes).2.labelStack = label :: labels :=
        dropTypes_labelStack ⟨operands, label :: labels⟩ label.resultTypes.length
      rw [reset, pushTypes_eq]
      generalize popAndCheckSignature ⟨operands, label :: labels⟩ label.resultTypes = made
        at popped stack ⊢
      rcases made with ⟨result, left, others⟩
      change others = _ at stack
      subst stack
      have bottom : base ⟨operands, label :: labels⟩ <:+
          left.drop (left.length - label.typeStackLimit) := popped.base
      refine ⟨bottom.trans (List.suffix_append _ _), fun bounded => ?_⟩
      refine ⟨fun other member => ?_, (List.pairwise_cons.mp bounded.nested).2⟩
      have inner := (List.pairwise_cons.mp bounded.nested).1 other member
      have above := bounded.height label List.mem_cons_self
      have length := bottom.length_le
      simp only [base, popLabel, resetTypeStackToLabel, List.length_append, List.length_drop]
        at length above ⊢
      omega

theorem onElse_within (checker : TypeChecker) : Within checker checker.onElse.2 := by
  rcases checker with ⟨operands, labels⟩
  cases labels with
  | nil => exact Within.refl _
  | cons label labels =>
      have reset : (onElse ⟨operands, label :: labels⟩).2 =
          { ((popAndCheckSignature ⟨operands, label :: labels⟩
                label.resultTypes).2.resetTypeStackToLabel label).pushTypes label.paramTypes with
            labelStack := { label with labelType := .els, unreachable := false } ::
              (((popAndCheckSignature ⟨operands, label :: labels⟩
                label.resultTypes).2.resetTypeStackToLabel label).pushTypes
                  label.paramTypes).labelStack.tail } := rfl
      have popped := popAndCheckSignature_within ⟨operands, label :: labels⟩ label.resultTypes
      have stack : (popAndCheckSignature ⟨operands, label :: labels⟩
          label.resultTypes).2.labelStack = label :: labels :=
        dropTypes_labelStack ⟨operands, label :: labels⟩ label.resultTypes.length
      rw [reset, pushTypes_eq]
      generalize popAndCheckSignature ⟨operands, label :: labels⟩ label.resultTypes = made
        at popped stack ⊢
      rcases made with ⟨result, left, others⟩
      change others = _ at stack
      subst stack
      have bottom : base ⟨operands, label :: labels⟩ <:+
          left.drop (left.length - label.typeStackLimit) := popped.base
      exact ⟨rfl, bottom.trans (List.suffix_append _ _)⟩

theorem step_keeps (checker : TypeChecker) (instr : TypedInstr) :
    Keeps checker (checker.step instr).2 := by
  have condition := popAndCheckSignature_within checker [.i32]
  cases instr with
  | unary opcode =>
      rw [step, checkOpcode1_eq]
      exact (popAndCheckCall_within _ _ _).keeps
  | binary opcode =>
      rw [step, checkOpcode2_eq]
      exact (popAndCheckCall_within _ _ _).keeps
  | compare opcode =>
      rw [step, checkOpcode2_eq]
      exact (popAndCheckCall_within _ _ _).keeps
  | convert opcode =>
      rw [step, checkOpcode1_eq]
      exact (popAndCheckCall_within _ _ _).keeps
  | load opcode =>
      rw [step, checkOpcode1_eq]
      exact (popAndCheckCall_within _ _ _).keeps
  | store opcode =>
      rw [step, checkOpcode2_eq]
      exact (popAndCheckCall_within _ _ _).keeps
  | memoryGrow =>
      rw [step, checkOpcode1_eq]
      exact (popAndCheckCall_within _ _ _).keeps
  | const type => exact (pushTypes_within _ _).keeps
  | memorySize => exact (pushTypes_within _ _).keeps
  | getLocal type => exact (pushTypes_within _ _).keeps
  | getGlobal type => exact (pushTypes_within _ _).keeps
  | setLocal type =>
      rw [step, popAndCheck1Type_eq]
      exact (popAndCheckSignature_within _ _).keeps
  | setGlobal type =>
      rw [step, popAndCheck1Type_eq]
      exact (popAndCheckSignature_within _ _).keeps
  | teeLocal type =>
      rw [step, onTeeLocal, popAndCheck1Type_eq]
      exact (popAndCheckCall_within _ [type] [type]).keeps
  | call params results => exact (popAndCheckCall_within _ _ _).keeps
  | callIndirect params results =>
      rw [step, onCallIndirect, popAndCheck1Type_eq]
      exact (condition.trans (popAndCheckCall_within _ _ _)).keeps
  | drop => exact (dropTypes_within _ _).keeps
  | select => exact ((dropTypes_within _ _).trans (pushOperand_within _ _)).keeps
  | block params results => exact (popAndCheckSignature_within _ _).enter _ _ _
  | loop params results => exact (popAndCheckSignature_within _ _).enter _ _ _
  | ite params results =>
      rw [step, onIf, popAndCheck1Type_eq]
      exact (condition.trans (popAndCheckSignature_within _ _)).enter _ _ _
  | els => exact (onElse_within checker).keeps
  | fin => exact onEnd_keeps checker
  | br depth =>
      rw [step]
      unfold onBr
      split
      · exact (Within.refl _).keeps
      · exact (setUnreachable_within _).keeps
  | brIf depth =>
      rw [step]
      unfold onBrIf
      rw [popAndCheck1Type_eq]
      simp only
      split
      · exact condition.keeps
      · rename_i label _
        exact (condition.trans (popAndCheckCall_within _ label.brTypes label.brTypes)).keeps
  | brTable targets defaultTarget =>
      rw [step, onBrTable_eq]
      exact (condition.trans (setUnreachable_within _)).keeps
  | ret =>
      rw [step]
      unfold onReturn
      split
      · exact (Within.refl _).keeps
      · rename_i label _
        exact ((popAndCheckSignature_within _ label.resultTypes).trans
          (setUnreachable_within _)).keeps
  | unreachable => exact (setUnreachable_within _).keeps

theorem steps_bounded (body : List TypedInstr) {checker : TypeChecker}
    (bounded : checker.Bounded) : (steps body checker).2.Bounded := by
  induction body generalizing checker with
  | nil => exact bounded
  | cons instr body inductionHypothesis =>
      exact inductionHypothesis ((step_keeps checker instr).bounded bounded)

end Heights

theorem beginFunction_wellFormed (results : List ValueType) :
    (beginFunction results).WellFormed where
  height label member := by
    rw [List.mem_singleton.mp member]
    exact le_refl _
  nested := List.pairwise_singleton _ _
  labelled := rfl
  unknown position found := by cases found

end TypeChecker

end Wasm
end WasmSandboxing
