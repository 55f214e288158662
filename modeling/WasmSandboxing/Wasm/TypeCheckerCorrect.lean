import WasmSandboxing.Wasm.TypeCheckerHeights

namespace WasmSandboxing
namespace Wasm

/-!
# The type checker against the validation algorithm

Both accept the same bodies, up to what a conditional without an `else` must
look like: by WebAssembly its parameters are its results, and the checker wants
no results.
-/

/-- A block type: parameters and results. -/
abbrev BlockType := List ValueType × List ValueType

/-- The constructs that are open behind an instruction, each with its type if
it is a conditional without an `else` so far. -/
def TypedInstr.opens : TypedInstr -> List (Option BlockType) -> List (Option BlockType)
  | block _ _, opened | loop _ _, opened => none :: opened
  | ite params results, opened => some (params, results) :: opened
  | els, opened => none :: opened.tail
  | fin, opened => opened.tail
  | _, opened => opened

/-- The conditional without an `else` that an instruction ends. -/
def TypedInstr.elseless : TypedInstr -> List (Option BlockType) -> List BlockType
  | fin, some type :: _ => [type]
  | _, _ => []

/-- The types of the conditionals without an `else` that end in a body. -/
def elselessIfs : List (Option BlockType) -> List TypedInstr -> List BlockType
  | _, [] => []
  | opened, instr :: body => instr.elseless opened ++ elselessIfs (instr.opens opened) body

namespace ValidationState

def opening (frame : ControlFrame) : Option BlockType :=
  if frame.kind = .ite then some (frame.startTypes, frame.endTypes) else none

def opened (state : ValidationState) : List (Option BlockType) := state.controls.map opening

section Controls

variable {state next : ValidationState}

theorem popOperand_controls {operand : OperandType}
    (popped : state.popOperand = some (operand, next)) : next.controls = state.controls := by
  unfold popOperand at popped
  split at popped
  · cases popped
  · split at popped
    · split at popped
      · cases popped
        rfl
      · cases popped
    · split at popped
      · cases popped
      · cases popped
        rfl

theorem popExpected_controls {expected operand : OperandType}
    (popped : state.popExpected expected = some (operand, next)) :
    next.controls = state.controls := by
  rcases Option.bind_eq_some_iff.mp popped with ⟨⟨actual, between⟩, first, rest⟩
  have same := popOperand_controls first
  simp only at rest
  split at rest
  · cases rest
    exact same
  · split at rest
    · cases rest
      exact same
    · split at rest
      · cases rest
        exact same
      · cases rest

theorem popReversed_controls {types : List ValueType}
    (popped : state.popReversed types = some next) : next.controls = state.controls := by
  induction types generalizing state with
  | nil =>
      cases popped
      rfl
  | cons type types inductionHypothesis =>
      rcases Option.bind_eq_some_iff.mp popped with ⟨⟨_, between⟩, first, rest⟩
      rw [inductionHypothesis rest, popExpected_controls first]

theorem popOperands_controls {types : List ValueType}
    (popped : state.popOperands types = some next) : next.controls = state.controls :=
  popReversed_controls popped

theorem setUnreachable_opened (made : state.setUnreachable = some next) :
    next.opened = state.opened := by
  unfold setUnreachable at made
  split at made
  · cases made
  · rename_i frame controls shape
    cases made
    rw [opened, opened, shape]
    rfl

theorem popControl_controls {frame : ControlFrame}
    (popped : state.popControl = some (frame, next)) : state.controls = frame :: next.controls := by
  unfold popControl at popped
  split at popped
  · cases popped
  · rename_i top controls shape
    rcases Option.bind_eq_some_iff.mp popped with ⟨between, _, rest⟩
    split at rest
    · cases rest
      exact shape
    · cases rest

theorem finish_opened (made : state.finish = some next) : next.opened = state.opened.tail := by
  rcases Option.bind_eq_some_iff.mp made with ⟨⟨frame, between⟩, popped, rest⟩
  cases rest
  rw [opened, opened, popControl_controls popped]
  rfl

theorem stepWith_fin {rule : List ValueType -> List ValueType -> Bool}
    (made : state.stepWith rule .fin = some next) : state.finish = some next := by
  unfold stepWith at made
  split at made
  · split at made
    · exact made
    · cases made
  · rename_i other
    rw [step] at made
    split at made
    · cases made
    · rename_i shape
      exact absurd shape (other _ _ _ _ _ rfl)
    · exact made

theorem stepWith_step {rule : List ValueType -> List ValueType -> Bool} {instr : TypedInstr}
    (going : instr ≠ .fin) (state : ValidationState) :
    state.stepWith rule instr = state.step instr := by
  unfold stepWith
  split
  · exact absurd rfl going
  · rfl

/-- The constructs that are open behind an instruction are known from its text. -/
theorem stepWith_opened {rule : List ValueType -> List ValueType -> Bool} {instr : TypedInstr}
    (made : state.stepWith rule instr = some next) : next.opened = instr.opens state.opened := by
  by_cases ends : instr = .fin
  · subst ends
    exact finish_opened (stepWith_fin made)
  · rw [stepWith_step ends] at made
    have typed (params results : List ValueType)
        (made : ((state.popOperands params).bind fun state =>
          some (state.pushOperands results)) = some next) : next.opened = state.opened := by
      rcases Option.bind_eq_some_iff.mp made with ⟨between, popped, rest⟩
      cases rest
      exact congrArg (List.map opening) (@popOperands_controls state between params popped)
    have entered (kind : LabelType) (types params results : List ValueType)
        (made : ((state.popOperands types).bind fun state =>
          some (state.pushControl kind params results)) = some next) :
        next.opened = opening ⟨kind, params, results, 0, false⟩ :: state.opened := by
      rcases Option.bind_eq_some_iff.mp made with ⟨between, popped, rest⟩
      cases rest
      exact congrArg (List.cons _ ∘ List.map opening) (popOperands_controls popped)
    have jumped (types : List ValueType)
        (made : (state.popOperands types).bind setUnreachable = some next) :
        next.opened = state.opened := by
      rcases Option.bind_eq_some_iff.mp made with ⟨between, popped, rest⟩
      exact (setUnreachable_opened rest).trans
        (congrArg (List.map opening) (popOperands_controls popped))
    cases instr with
    | fin => exact absurd rfl ends
    | drop =>
        rcases Option.bind_eq_some_iff.mp made with ⟨⟨_, between⟩, popped, rest⟩
        cases rest
        exact congrArg (List.map opening) (popOperand_controls popped)
    | select =>
        rcases Option.bind_eq_some_iff.mp made with ⟨⟨_, first⟩, condition, made⟩
        rcases Option.bind_eq_some_iff.mp made with ⟨⟨_, second⟩, popped, made⟩
        rcases Option.bind_eq_some_iff.mp made with ⟨⟨_, third⟩, last, rest⟩
        cases rest
        exact congrArg (List.map opening) ((popExpected_controls last).trans
          ((popOperand_controls popped).trans (popExpected_controls condition)))
    | block params results => exact entered .block params params results made
    | loop params results => exact entered .loop params params results made
    | ite params results => exact entered .ite (params ++ [ValueType.i32]) params results made
    | els =>
        rcases Option.bind_eq_some_iff.mp made with ⟨⟨frame, between⟩, popped, rest⟩
        simp only at rest
        split at rest
        · cases rest
          have shape := popControl_controls popped
          rw [opened, opened, shape]
          rfl
        · cases rest
    | br depth =>
        rcases Option.bind_eq_some_iff.mp made with ⟨frame, _, rest⟩
        exact jumped frame.labelTypes rest
    | brIf depth =>
        rcases Option.bind_eq_some_iff.mp made with ⟨frame, _, rest⟩
        exact typed (frame.labelTypes ++ [.i32]) frame.labelTypes rest
    | brTable targets defaultTarget =>
        rcases Option.bind_eq_some_iff.mp made with ⟨frame, _, rest⟩
        split at rest
        · exact jumped (frame.labelTypes ++ [.i32]) rest
        · cases rest
    | ret =>
        rcases Option.bind_eq_some_iff.mp made with ⟨frame, _, rest⟩
        exact jumped frame.endTypes rest
    | unreachable => exact setUnreachable_opened made
    | const type => exact typed [] [type] made
    | memorySize => exact typed [] [ValueType.i32] made
    | getLocal type => exact typed [] [type] made
    | getGlobal type => exact typed [] [type] made
    | _ => exact typed _ _ made

/-- The rule is asked of the conditionals without an `else` that end. -/
theorem stepWith_eq (rule : List ValueType -> List ValueType -> Bool) (state : ValidationState)
    (instr : TypedInstr) : state.stepWith rule instr =
      if (instr.elseless state.opened).all (fun type => rule type.1 type.2) then
        state.stepWith (fun _ _ => true) instr else none := by
  by_cases ends : instr = .fin
  · subst ends
    rcases state with ⟨operands, controls⟩
    cases controls with
    | nil => rfl
    | cons frame controls =>
        rcases frame with ⟨kind, params, results, height, unreachable⟩
        cases kind with
        | ite =>
            change (if rule params results then _ else none) =
              if ([(params, results)] : List BlockType).all _ then _ else none
            simp
            rfl
        | _ => rfl
  · have none : instr.elseless state.opened = [] := by
      unfold TypedInstr.elseless
      split
      · exact absurd rfl ends
      · rfl
    rw [none, stepWith_step ends, stepWith_step ends]
    rfl

/-- A body is valid by a rule exactly if it is valid without one and its
conditionals without an `else` meet the rule. -/
theorem body_stepWith (rule : List ValueType -> List ValueType -> Bool)
    (body : List TypedInstr) (state final : ValidationState) :
    body.foldlM (stepWith rule) state = some final ↔
      body.foldlM (stepWith fun _ _ => true) state = some final ∧
        forall type, type ∈ elselessIfs state.opened body -> rule type.1 type.2 = true := by
  induction body generalizing state with
  | nil => simp [elselessIfs]
  | cons instr body inductionHypothesis =>
      rw [List.foldlM_cons, List.foldlM_cons, elselessIfs, stepWith_eq rule]
      cases made : state.stepWith (fun _ _ => true) instr with
      | none => simp
      | some next =>
          have here : (instr.elseless state.opened).all (fun type => rule type.1 type.2) = true ↔
              forall type, type ∈ instr.elseless state.opened -> rule type.1 type.2 = true :=
            List.all_eq_true
          rw [← stepWith_opened made]
          simp only [List.mem_append, or_imp, forall_and, ← here]
          by_cases meets : (instr.elseless state.opened).all (fun type => rule type.1 type.2) = true
          · simp only [meets, if_true, true_and]
            exact inductionHypothesis next
          · simp [meets]

end Controls

end ValidationState
/-- Valid but for the rule for conditionals without an `else`. -/
def ValidWith (rule : List ValueType -> List ValueType -> Bool) (results : List ValueType)
    (body : List TypedInstr) : Prop :=
  ∃ state frame final,
    body.foldlM (ValidationState.stepWith rule) (.start results) = some state ∧
      state.popControl = some (frame, final) ∧ frame.kind = .func

/-- Valid if conditionals without an `else` could have any types. -/
def ValidElsewhere (results : List ValueType) (body : List TypedInstr) : Prop :=
  ValidWith (fun _ _ => true) results body

theorem validWith_iff (rule : List ValueType -> List ValueType -> Bool)
    (results : List ValueType) (body : List TypedInstr) : ValidWith rule results body ↔
      ValidElsewhere results body ∧
        forall type, type ∈ elselessIfs [none] body -> rule type.1 type.2 = true := by
  have split (state : ValidationState) := ValidationState.body_stepWith rule body (.start results) state
  constructor
  · rintro ⟨state, frame, final, made, ended⟩
    rcases (split state).mp made with ⟨reached, rules⟩
    exact ⟨⟨state, frame, final, reached, ended⟩, rules⟩
  · rintro ⟨⟨state, frame, final, reached, ended⟩, rules⟩
    exact ⟨state, frame, final, (split state).mpr ⟨reached, rules⟩, ended⟩

theorem validBody_iff (results : List ValueType) (body : List TypedInstr) :
    ValidBody results body ↔ ValidElsewhere results body ∧
      forall type, type ∈ elselessIfs [none] body -> type.1 = type.2 := by
  have spec : ValidationState.step =
      ValidationState.stepWith fun params results => params == results := by
    funext state instr
    exact state.step_eq_stepWith instr
  have same : ValidBody results body ↔
      ValidWith (fun params results => params == results) results body := by
    rw [ValidBody, spec]
    rfl
  rw [same, validWith_iff]
  simp only [beq_iff_eq]

theorem checkBody_iff (results : List ValueType) (body : List TypedInstr) :
    TypeChecker.checkBody results body = .ok ↔ ValidElsewhere results body ∧
      forall type, type ∈ elselessIfs [none] body -> type.2 = [] := by
  have made : TypeChecker.checkBody results body =
      (TypeChecker.steps body (.beginFunction results)).1.or
        (TypeChecker.steps body (.beginFunction results)).2.endFunction.1 := rfl
  have same : TypeChecker.checkBody results body = .ok ↔
      ValidWith TypeChecker.noResults results body := by
    rw [made, Result.or_eq_ok]
    exact TypeChecker.steps_accepted (TypeChecker.beginFunction_wellFormed results) body
  rw [same, validWith_iff]
  simp only [TypeChecker.noResults, List.isEmpty_iff]

/-- What is asked of the checker for the body of a function: it accepts what is
valid, and no callback pops below the entry of the current label. -/
structure CheckerExact (results : List ValueType) (body : List TypedInstr) : Prop where
  exact : TypeChecker.checkBody results body = .ok ↔ ValidBody results body
  kept : forall (before after : List TypedInstr) (instr : TypedInstr),
    body = before ++ instr :: after ->
      forall label, (TypeChecker.steps before (.beginFunction results)).2.labelStack.head? =
          some label ->
        ∃ inside below, below.length = label.typeStackLimit ∧
          (TypeChecker.steps before (.beginFunction results)).2.typeStack = inside ++ below ∧
          below <:+ ((TypeChecker.steps before (.beginFunction results)).2.step instr).2.typeStack

theorem callbacks_keep (results : List ValueType) (before : List TypedInstr)
    (instr : TypedInstr) {label : CheckerLabel}
    (top : (TypeChecker.steps before (.beginFunction results)).2.labelStack.head? = some label) :
    ∃ inside below, below.length = label.typeStackLimit ∧
      (TypeChecker.steps before (.beginFunction results)).2.typeStack = inside ++ below ∧
      below <:+ ((TypeChecker.steps before (.beginFunction results)).2.step instr).2.typeStack := by
  have bounded := TypeChecker.steps_bounded before
    (TypeChecker.beginFunction_wellFormed results).toBounded
  have keeps := (TypeChecker.steps before (.beginFunction results)).2.step_keeps instr
  generalize (TypeChecker.steps before (.beginFunction results)).2 = checker
    at top bounded keeps ⊢
  rcases checker with ⟨operands, labels⟩
  cases labels with
  | nil => cases top
  | cons other labels =>
      cases top
      have above := bounded.height label List.mem_cons_self
      simp only at above
      refine ⟨operands.take (operands.length - label.typeStackLimit),
        operands.drop (operands.length - label.typeStackLimit), ?_, ?_, keeps.kept⟩
      · rw [List.length_drop]
        omega
      · exact (List.take_append_drop _ _).symm

/-- The checker is right about a body that is invalid for another reason, or
whose conditionals without an `else` are all without results exactly if the
parameters of each are its results. -/
theorem checker_exact_iff (results : List ValueType) (body : List TypedInstr) :
    CheckerExact results body ↔
      (ValidElsewhere results body ->
        ((forall type, type ∈ elselessIfs [none] body -> type.2 = []) ↔
          forall type, type ∈ elselessIfs [none] body -> type.1 = type.2)) := by
  constructor
  · intro right elsewhere
    have same := right.exact
    rw [checkBody_iff, validBody_iff] at same
    simpa only [elsewhere, true_and] using same
  · intro agree
    refine ⟨?_, fun before after instr _ label top => callbacks_keep results before instr top⟩
    rw [checkBody_iff, validBody_iff]
    exact and_congr_right agree

/-- Only blocks with parameters can tell. -/
theorem elselessIfs_mem {opened : List (Option BlockType)} {body : List TypedInstr}
    {type : BlockType} (member : type ∈ elselessIfs opened body) :
    some type ∈ opened ∨ TypedInstr.ite type.1 type.2 ∈ body := by
  induction body generalizing opened with
  | nil => cases member
  | cons instr body inductionHypothesis =>
      rcases List.mem_append.mp member with here | later
      · unfold TypedInstr.elseless at here
        split at here
        · rw [List.mem_singleton.mp here]
          exact .inl List.mem_cons_self
        · cases here
      · rcases inductionHypothesis later with still | found
        · cases instr with
          | ite params results =>
              rcases List.mem_cons.mp still with same | old
              · cases same
                exact .inr List.mem_cons_self
              · exact .inl old
          | block params results => exact .inl ((List.mem_cons.mp still).resolve_left nofun)
          | loop params results => exact .inl ((List.mem_cons.mp still).resolve_left nofun)
          | els =>
              exact .inl (List.mem_of_mem_tail ((List.mem_cons.mp still).resolve_left nofun))
          | fin => exact .inl (List.mem_of_mem_tail still)
          | _ => exact .inl still
        · exact .inr (List.mem_cons_of_mem _ found)

/-- Without parameters of blocks the checker is right. -/
theorem mvp_checker_exact (results : List ValueType) (body : List TypedInstr)
    (mvp : forall params results, TypedInstr.ite params results ∈ body -> params = []) :
    CheckerExact results body := by
  refine ⟨?_, fun before after instr _ label top => callbacks_keep results before instr top⟩
  rw [checkBody_iff, validBody_iff]
  apply and_congr_right
  intro _
  apply forall_congr'
  intro type
  apply imp_congr_right
  intro member
  rcases elselessIfs_mem member with outside | found
  · simp at outside
  · rw [mvp type.1 type.2 found]
    exact eq_comm

/-- A conditional that drops its parameter is accepted without an `else`. -/
theorem elseless_parameter_accepted :
    ¬ CheckerExact [] [.const .i32, .const .i32, .ite [.i32] [], .drop, .fin] := by
  intro right
  have accepted : TypeChecker.checkBody []
      [.const .i32, .const .i32, .ite [.i32] [], .drop, .fin] = .ok := by decide
  rcases right.exact.mp accepted with ⟨state, frame, final, valid, _⟩
  have invalid : List.foldlM ValidationState.step (.start [])
      [.const .i32, .const .i32, .ite [.i32] [], .drop, .fin] = none := by decide
  rw [invalid] at valid
  cases valid

end Wasm
end WasmSandboxing
