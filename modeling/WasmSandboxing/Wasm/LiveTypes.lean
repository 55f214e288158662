import WasmSandboxing.Wasm.Semantics
import WasmSandboxing.Wasm.TypeCheckerCorrect

namespace WasmSandboxing
namespace Wasm

open Semantics

/-!
# Types of the reachable expressions

What the validator tells the type checker of a body, and what is known of a
body that the type checker accepts: each expression that can be reached has
operands of its types above those of the enclosing blocks.  Of the expressions
behind a branch nothing is asked here, and nothing of them is executed.
-/

variable {scope : FuncScope}

/-- The callbacks of `Validator` for an expression without a body.  An index
that stands for nothing is an error. -/
def visitInstr (scope : FuncScope) : Instr Scheme.binary -> Option (List TypedInstr)
  | .binary opcode => some [.binary opcode]
  | .compare opcode => some [.compare opcode]
  | .convert opcode => some [.convert opcode]
  | .unary opcode => some [.unary opcode]
  | .load opcode _ => some [.load opcode]
  | .store opcode _ => some [.store opcode]
  | .const value => some [.const value.type]
  | .drop => some [.drop]
  | .select => some [.select]
  | .getLocal var => (scope.localType var).map fun type => [.getLocal type]
  | .setLocal var => (scope.localType var).map fun type => [.setLocal type]
  | .teeLocal var => (scope.localType var).map fun type => [.teeLocal type]
  | .getGlobal var => (scope.globalType var).map fun type => [.getGlobal type]
  | .setGlobal var => (scope.globalType var).map fun type => [.setGlobal type]
  | .memorySize => some [.memorySize]
  | .memoryGrow => some [.memoryGrow]
  | .nop => some []
  | .call var =>
      (scope.funcSignature var).map fun signature =>
        [.call signature.params signature.result.toList]
  | .callIndirect typeIndex =>
      (scope.typeSignature typeIndex).map fun signature =>
        [.callIndirect signature.params signature.result.toList]
  | .br depth => some [.br depth]
  | .brIf depth => some [.brIf depth]
  | .brTable targets defaultTarget => some [.brTable targets defaultTarget]
  | .ret => some [.ret]
  | .unreachable => some [.unreachable]

/-- `AfterIfTrueExpr` and the second list. -/
def visitElse (no : ExprList Scheme.binary) (instrs : List TypedInstr) : List TypedInstr :=
  match no with
  | .nil => []
  | _ => .els :: instrs

theorem visitElse_cases (no : ExprList Scheme.binary) (instrs : List TypedInstr) :
    no = .nil ∧ visitElse no instrs = [] ∨ visitElse no instrs = .els :: instrs := by
  cases no with
  | nil => exact .inl ⟨rfl, rfl⟩
  | _ => exact .inr rfl

/-- The callbacks for a list. -/
def visitExprs (scope : FuncScope) : ExprList Scheme.binary -> Option (List TypedInstr)
  | .nil => some []
  | .instr first rest => do
      let here <- visitInstr scope first
      let after <- visitExprs scope rest
      some (here ++ after)
  | .block _ result exprs rest => do
      let inner <- visitExprs scope exprs
      let after <- visitExprs scope rest
      some (.block [] result.toList :: (inner ++ .fin :: after))
  | .loop _ result exprs rest => do
      let inner <- visitExprs scope exprs
      let after <- visitExprs scope rest
      some (.loop [] result.toList :: (inner ++ .fin :: after))
  | .ite _ result yes no rest => do
      let first <- visitExprs scope yes
      let second <- visitExprs scope no
      let after <- visitExprs scope rest
      some (.ite [] result.toList :: (first ++ (visitElse no second ++ .fin :: after)))

/-- The type checker accepts the body of a function. -/
def Accepted (scope : FuncScope) (result : Option ValueType) (exprs : ExprList Scheme.binary) :
    Prop :=
  ∃ instrs, visitExprs scope exprs = some instrs ∧
    TypeChecker.checkBody result.toList instrs = .ok

/-- A list between these labels, each with the result of a branch to it, the
innermost first.  It takes operands of the types that come next, the top first,
and leaves such operands at its end, unless that is not reached. -/
inductive Typed (scope : FuncScope) : List (Option ValueType) -> ExprList Scheme.binary ->
    List ValueType -> Option (List ValueType) -> Prop
  | nil : Typed scope labels .nil types (some types)
  | nop (rest : Typed scope labels exprs types ending) :
      Typed scope labels (.instr .nop exprs) types ending
  | plain (visited : visitInstr scope instr = some [typed])
      (typed : typed.type = some (params, results))
      (rest : Typed scope labels exprs (results.reverse ++ types) ending) :
      Typed scope labels (.instr instr exprs) (params.reverse ++ types) ending
  | drop (rest : Typed scope labels exprs types ending) :
      Typed scope labels (.instr .drop exprs) (type :: types) ending
  | select (rest : Typed scope labels exprs (type :: types) ending) :
      Typed scope labels (.instr .select exprs) (.i32 :: type :: type :: types) ending
  | br (target : labels[depth]? = some label) :
      Typed scope labels (.instr (.br depth) exprs) (label.toList ++ types) none
  | brIf (target : labels[depth]? = some label)
      (rest : Typed scope labels exprs (label.toList ++ types) ending) :
      Typed scope labels (.instr (.brIf depth) exprs) (.i32 :: (label.toList ++ types)) ending
  | brTable (all : forall depth, depth ∈ defaultTarget :: targets -> labels[depth]? = some label) :
      Typed scope labels (.instr (.brTable targets defaultTarget) exprs)
        (.i32 :: (label.toList ++ types)) none
  | ret (last : labels.getLast? = some label) :
      Typed scope labels (.instr .ret exprs) (label.toList ++ types) none
  | unreachable : Typed scope labels (.instr .unreachable exprs) types none
  | block (inner : Typed scope (result :: labels) body [] ending)
      (ends : forall left, ending = some left -> left = result.toList)
      (rest : Typed scope labels exprs (result.toList ++ types) last) :
      Typed scope labels (.block label result body exprs) types last
  | loop (inner : Typed scope (none :: labels) body [] ending)
      (ends : forall left, ending = some left -> left = result.toList)
      (rest : Typed scope labels exprs (result.toList ++ types) last) :
      Typed scope labels (.loop label result body exprs) types last
  | ite (first : Typed scope (result :: labels) yes [] yesEnding)
      (yesEnds : forall left, yesEnding = some left -> left = result.toList)
      (second : Typed scope (result :: labels) no [] noEnding)
      (noEnds : forall left, noEnding = some left -> left = result.toList)
      (rest : Typed scope labels exprs (result.toList ++ types) last) :
      Typed scope labels (.ite label result yes no exprs) (.i32 :: types) last

/-! ## The validation algorithm inside a frame -/

namespace ValidationState

/-- Above a base, in a frame that may have become unreachable. -/
def Inside (base : List OperandType) (frame : ControlFrame) (controls : List ControlFrame)
    (state : ValidationState) : Prop :=
  ∃ operands unreachable, state =
    ⟨operands ++ base, { frame with unreachable := unreachable } :: controls⟩

section Inside

variable {base : List OperandType} {frame : ControlFrame} {controls : List ControlFrame}
  {state after : ValidationState}

theorem inside_fresh (base : List OperandType) (frame : ControlFrame)
    (controls : List ControlFrame) : Inside base frame controls ⟨base, frame :: controls⟩ :=
  ⟨[], frame.unreachable, rfl⟩

theorem Inside.popOperand (inside : Inside base frame controls state)
    (atLimit : base.length = frame.height) {operand : OperandType}
    (popped : state.popOperand = some (operand, after)) : Inside base frame controls after := by
  rcases inside with ⟨operands, unreachable, rfl⟩
  simp only [ValidationState.popOperand] at popped
  cases operands with
  | nil =>
      rw [List.nil_append, if_pos atLimit] at popped
      split at popped
      · cases popped
        exact ⟨[], unreachable, rfl⟩
      · cases popped
  | cons first rest =>
      rw [if_neg (by simp; omega)] at popped
      cases popped
      exact ⟨rest, unreachable, rfl⟩

theorem Inside.popExpected (inside : Inside base frame controls state)
    (atLimit : base.length = frame.height) {expected operand : OperandType}
    (popped : state.popExpected expected = some (operand, after)) :
    Inside base frame controls after := by
  rcases Option.bind_eq_some_iff.mp popped with ⟨⟨actual, between⟩, first, rest⟩
  have kept := inside.popOperand atLimit first
  simp only at rest
  split at rest
  · cases rest
    exact kept
  · split at rest
    · cases rest
      exact kept
    · split at rest
      · cases rest
        exact kept
      · cases rest

theorem Inside.popReversed (inside : Inside base frame controls state)
    (atLimit : base.length = frame.height) {types : List ValueType}
    (popped : state.popReversed types = some after) : Inside base frame controls after := by
  induction types generalizing state with
  | nil =>
      cases popped
      exact inside
  | cons type types inductionHypothesis =>
      rcases Option.bind_eq_some_iff.mp popped with ⟨⟨_, between⟩, first, rest⟩
      exact inductionHypothesis (inside.popExpected atLimit first) rest

theorem Inside.pushOperands (inside : Inside base frame controls state)
    (types : List ValueType) : Inside base frame controls (state.pushOperands types) := by
  rcases inside with ⟨operands, unreachable, rfl⟩
  exact ⟨types.reverse.map .value ++ operands, unreachable, by
    rw [ValidationState.pushOperands, List.append_assoc]⟩

theorem Inside.setUnreachable (inside : Inside base frame controls state)
    (atLimit : base.length = frame.height) (made : state.setUnreachable = some after) :
    Inside base frame controls after := by
  rcases inside with ⟨operands, unreachable, rfl⟩
  cases made
  refine ⟨[], true, ?_⟩
  simp only [List.length_append, ← atLimit, Nat.add_sub_cancel, List.drop_left, List.nil_append]

/-- Instructions that do not open or close a frame stay in it. -/
theorem Inside.step (inside : Inside base frame controls state)
    (atLimit : base.length = frame.height) {instr : TypedInstr} {exprInstr : Instr Scheme.binary}
    (visited : visitInstr scope exprInstr = some [instr])
    (made : state.stepWith TypeChecker.noResults instr = some after) :
    Inside base frame controls after := by
  have jumped (types : List ValueType)
      (made : (state.popOperands types).bind ValidationState.setUnreachable = some after) :
      Inside base frame controls after := by
    rcases Option.bind_eq_some_iff.mp made with ⟨between, popped, rest⟩
    exact (inside.popReversed atLimit popped).setUnreachable atLimit rest
  have typed (params results : List ValueType)
      (made : ((state.popOperands params).bind fun state =>
        some (state.pushOperands results)) = some after) : Inside base frame controls after := by
    rcases Option.bind_eq_some_iff.mp made with ⟨between, popped, rest⟩
    cases rest
    exact (inside.popReversed atLimit popped).pushOperands results
  cases instr with
  | drop =>
      rcases Option.bind_eq_some_iff.mp made with ⟨⟨_, between⟩, popped, rest⟩
      cases rest
      exact inside.popOperand atLimit popped
  | select =>
      rcases Option.bind_eq_some_iff.mp made with ⟨⟨_, first⟩, condition, made⟩
      rcases Option.bind_eq_some_iff.mp made with ⟨⟨_, second⟩, popped, made⟩
      rcases Option.bind_eq_some_iff.mp made with ⟨⟨operand, third⟩, last, rest⟩
      cases rest
      rcases ((inside.popExpected atLimit condition).popOperand atLimit popped).popExpected
        atLimit last with ⟨operands, unreachable, rfl⟩
      exact ⟨operand :: operands, unreachable, rfl⟩
  | br depth =>
      rcases Option.bind_eq_some_iff.mp made with ⟨target, _, rest⟩
      exact jumped target.labelTypes rest
  | brIf depth =>
      rcases Option.bind_eq_some_iff.mp made with ⟨target, _, rest⟩
      exact typed (target.labelTypes ++ [.i32]) target.labelTypes rest
  | brTable targets defaultTarget =>
      rcases Option.bind_eq_some_iff.mp made with ⟨target, _, rest⟩
      split at rest
      · exact jumped (target.labelTypes ++ [.i32]) rest
      · cases rest
  | ret =>
      rcases Option.bind_eq_some_iff.mp made with ⟨outer, _, rest⟩
      exact jumped outer.endTypes rest
  | unreachable => exact inside.setUnreachable atLimit made
  | block params results => cases exprInstr <;> simp [visitInstr] at visited
  | loop params results => cases exprInstr <;> simp [visitInstr] at visited
  | ite params results => cases exprInstr <;> simp [visitInstr] at visited
  | els => cases exprInstr <;> simp [visitInstr] at visited
  | fin => cases exprInstr <;> simp [visitInstr] at visited
  | const type => exact typed [] [type] made
  | memorySize => exact typed [] [ValueType.i32] made
  | getLocal type => exact typed [] [type] made
  | getGlobal type => exact typed [] [type] made
  | _ => exact typed _ _ made

/-- When a frame ends only what was below it is left. -/
theorem Inside.popControl (inside : Inside base frame controls state)
    (atLimit : base.length = frame.height) {top : ControlFrame}
    (popped : state.popControl = some (top, after)) :
    (∃ unreachable, top = { frame with unreachable := unreachable }) ∧
      after = ⟨base, controls⟩ := by
  rcases inside with ⟨operands, unreachable, rfl⟩
  rcases Option.bind_eq_some_iff.mp popped with ⟨between, ended, rest⟩
  rcases Inside.popReversed ⟨operands, unreachable, rfl⟩ atLimit ended with ⟨left, still, rfl⟩
  split at rest
  · rename_i empty
    cases rest
    have none : left = [] := by
      rw [← List.length_eq_zero_iff]
      simp only [List.length_append] at empty
      omega
    subst none
    exact ⟨⟨unreachable, rfl⟩, rfl⟩
  · cases rest

theorem Inside.finish (inside : Inside base frame controls state)
    (atLimit : base.length = frame.height) (made : state.finish = some after) :
    after = ⟨frame.endTypes.reverse.map .value ++ base, controls⟩ := by
  rcases Option.bind_eq_some_iff.mp made with ⟨⟨top, final⟩, popped, rest⟩
  cases rest
  rcases inside.popControl atLimit popped with ⟨⟨unreachable, rfl⟩, rfl⟩
  rfl

theorem Inside.startElse (inside : Inside base frame controls state)
    (atLimit : base.length = frame.height) (noParams : frame.startTypes = [])
    (made : state.startElse = some after) :
    after = ⟨base, ⟨.els, [], frame.endTypes, base.length, false⟩ :: controls⟩ := by
  rcases Option.bind_eq_some_iff.mp made with ⟨⟨top, final⟩, popped, rest⟩
  rcases inside.popControl atLimit popped with ⟨⟨unreachable, rfl⟩, rfl⟩
  simp only at rest
  split at rest
  · cases rest
    rw [noParams]
    rfl
  · cases rest

/-! ## Reachable operands -/

theorem popOperand_reachable {given : List ValueType} (atLimit : base.length = frame.height)
    (reachable : frame.unreachable = false) {operand : OperandType}
    (popped : popOperand ⟨given.map .value ++ base, frame :: controls⟩ = some (operand, after)) :
    ∃ type rest, given = type :: rest ∧ operand = .value type ∧
      after = ⟨rest.map .value ++ base, frame :: controls⟩ := by
  cases given with
  | nil => simp [ValidationState.popOperand, atLimit, reachable] at popped
  | cons type rest =>
      have above : ¬ (rest.length + base.length + 1 = frame.height) := by omega
      simp [ValidationState.popOperand, above] at popped
      exact ⟨type, rest, rfl, popped.1.symm, popped.2.symm⟩

theorem popExpected_reachable {given : List ValueType} (atLimit : base.length = frame.height)
    (reachable : frame.unreachable = false) {type : ValueType} {operand : OperandType}
    (popped : popExpected ⟨given.map .value ++ base, frame :: controls⟩ (.value type) =
      some (operand, after)) :
    ∃ rest, given = type :: rest ∧ operand = .value type ∧
      after = ⟨rest.map .value ++ base, frame :: controls⟩ := by
  rcases Option.bind_eq_some_iff.mp popped with ⟨⟨actual, between⟩, first, rest⟩
  rcases popOperand_reachable atLimit reachable first with ⟨found, left, rfl, rfl, rfl⟩
  simp only [reduceCtorEq, if_false, OperandType.value.injEq] at rest
  split at rest
  · rename_i same
    subst same
    cases rest
    exact ⟨left, rfl, rfl, rfl⟩
  · cases rest

/-- Of reachable operands those that are popped are of the types asked for. -/
theorem popReversed_reachable {types given : List ValueType}
    (atLimit : base.length = frame.height) (reachable : frame.unreachable = false)
    (popped : popReversed types ⟨given.map .value ++ base, frame :: controls⟩ = some after) :
    ∃ rest, given = types ++ rest ∧ after = ⟨rest.map .value ++ base, frame :: controls⟩ := by
  induction types generalizing given with
  | nil =>
      cases popped
      exact ⟨given, rfl, rfl⟩
  | cons type types inductionHypothesis =>
      rcases Option.bind_eq_some_iff.mp popped with ⟨⟨operand, between⟩, first, rest⟩
      rcases popExpected_reachable atLimit reachable first with ⟨given, rfl, rfl, rfl⟩
      rcases inductionHypothesis rest with ⟨left, rfl, shape⟩
      exact ⟨left, rfl, shape⟩

theorem popOperands_reachable {types given : List ValueType}
    (atLimit : base.length = frame.height) (reachable : frame.unreachable = false)
    (popped : popOperands ⟨given.map .value ++ base, frame :: controls⟩ types = some after) :
    ∃ rest, given = types.reverse ++ rest ∧
      after = ⟨rest.map .value ++ base, frame :: controls⟩ :=
  popReversed_reachable atLimit reachable popped

/-- A frame that ends where it can be reached has its results and nothing else. -/
theorem popControl_reachable {given : List ValueType} (atLimit : base.length = frame.height)
    (reachable : frame.unreachable = false) {top : ControlFrame}
    (popped : popControl ⟨given.map .value ++ base, frame :: controls⟩ = some (top, after)) :
    given = frame.endTypes.reverse := by
  rcases Option.bind_eq_some_iff.mp popped with ⟨between, ended, rest⟩
  rcases popReversed_reachable atLimit reachable ended with ⟨left, rfl, rfl⟩
  split at rest
  · rename_i empty
    have none : left = [] := by
      rw [← List.length_eq_zero_iff]
      simp only [List.length_append, List.length_map] at empty
      omega
    rw [none, List.append_nil]
  · cases rest

/-! ## Lists of expressions -/

/-- The frame of a block without parameters. -/
def blockFrame (state : ValidationState) (kind : LabelType) (results : List ValueType) :
    ControlFrame :=
  ⟨kind, [], results, state.operands.length, false⟩

theorem inside_entered (state : ValidationState) (kind : LabelType) (results : List ValueType) :
    Inside state.operands (state.blockFrame kind results) state.controls
      (state.pushControl kind [] results) :=
  inside_fresh _ _ _

theorem pushControl_eq (state : ValidationState) (kind : LabelType) (results : List ValueType) :
    state.pushControl kind [] results =
      ⟨([] : List ValueType).map .value ++ state.operands,
        state.blockFrame kind results :: state.controls⟩ := rfl

theorem popControl_of_finish (made : state.finish = some after) :
    state.popControl.isSome = true := by
  rcases Option.bind_eq_some_iff.mp made with ⟨left, popped, _⟩
  rw [popped]
  rfl

/-- A block has come to its end, and has left its results. -/
theorem frame_left {kind : LabelType} {results : List ValueType} {inner later : List TypedInstr}
    (keeps : forall ended, inner.foldlM (stepWith TypeChecker.noResults)
        (state.pushControl kind [] results) = some ended ->
      Inside state.operands (state.blockFrame kind results) state.controls ended)
    (made : (inner ++ .fin :: later).foldlM (stepWith TypeChecker.noResults)
      (state.pushControl kind [] results) = some after) :
    ∃ ended, (inner.foldlM (stepWith TypeChecker.noResults)
        (state.pushControl kind [] results) = some ended ∧
          ended.popControl.isSome = true) ∧
      later.foldlM (stepWith TypeChecker.noResults)
        ⟨results.reverse.map .value ++ state.operands, state.controls⟩ = some after := by
  rw [List.foldlM_append] at made
  rcases Option.bind_eq_some_iff.mp made with ⟨ended, ran, made⟩
  rw [List.foldlM_cons] at made
  rcases Option.bind_eq_some_iff.mp made with ⟨left, finished, made⟩
  have ends := stepWith_fin finished
  refine ⟨ended, ⟨ran, popControl_of_finish ends⟩, ?_⟩
  rwa [(keeps ended ran).finish rfl ends] at made

/-- Whether it is reached or not, a list stays in its frame. -/
theorem Inside.exprs {exprs : ExprList Scheme.binary} {instrs : List TypedInstr}
    (visited : visitExprs scope exprs = some instrs) (inside : Inside base frame controls state)
    (atLimit : base.length = frame.height)
    (made : instrs.foldlM (stepWith TypeChecker.noResults) state = some after) :
    Inside base frame controls after := by
  induction exprs generalizing instrs base frame controls state after with
  | nil =>
      cases visited
      cases made
      exact inside
  | instr first rest inductionHypothesis =>
      rcases Option.bind_eq_some_iff.mp visited with ⟨here, seen, visited⟩
      rcases Option.bind_eq_some_iff.mp visited with ⟨later, seenRest, visited⟩
      cases visited
      rw [List.foldlM_append] at made
      rcases Option.bind_eq_some_iff.mp made with ⟨between, stepped, made⟩
      have kept : Inside base frame controls between := by
        by_cases silent : first = .nop
        · subst silent
          cases seen
          cases stepped
          exact inside
        · have single : ∃ instr, here = [instr] := by
            cases first <;> simp [visitInstr] at seen silent <;>
              first
              | exact ⟨_, seen.symm⟩
              | (rcases seen with ⟨_, _, rfl⟩; exact ⟨_, rfl⟩)
          rcases single with ⟨instr, rfl⟩
          rw [List.foldlM_cons] at stepped
          rcases Option.bind_eq_some_iff.mp stepped with ⟨next, one, done⟩
          cases done
          exact inside.step atLimit seen one
      exact inductionHypothesis seenRest kept atLimit made
  | block label result exprs rest bodyHypothesis restHypothesis =>
      rcases Option.bind_eq_some_iff.mp visited with ⟨inner, seen, visited⟩
      rcases Option.bind_eq_some_iff.mp visited with ⟨later, seenRest, visited⟩
      cases visited
      rcases inside with ⟨operands, unreachable, rfl⟩
      rw [List.foldlM_cons] at made
      rcases Option.bind_eq_some_iff.mp made with ⟨entered, stepped, made⟩
      cases stepped
      rcases frame_left (fun _ ran => bodyHypothesis seen (inside_entered _ _ _) rfl ran) made with
        ⟨_, _, made⟩
      rw [← List.append_assoc] at made
      exact restHypothesis seenRest ⟨_, _, rfl⟩ atLimit made
  | loop label result exprs rest bodyHypothesis restHypothesis =>
      rcases Option.bind_eq_some_iff.mp visited with ⟨inner, seen, visited⟩
      rcases Option.bind_eq_some_iff.mp visited with ⟨later, seenRest, visited⟩
      cases visited
      rcases inside with ⟨operands, unreachable, rfl⟩
      rw [List.foldlM_cons] at made
      rcases Option.bind_eq_some_iff.mp made with ⟨entered, stepped, made⟩
      cases stepped
      rcases frame_left (fun _ ran => bodyHypothesis seen (inside_entered _ _ _) rfl ran) made with
        ⟨_, _, made⟩
      rw [← List.append_assoc] at made
      exact restHypothesis seenRest ⟨_, _, rfl⟩ atLimit made
  | ite label result yes no rest yesHypothesis noHypothesis restHypothesis =>
      rcases Option.bind_eq_some_iff.mp visited with ⟨first, seenYes, visited⟩
      rcases Option.bind_eq_some_iff.mp visited with ⟨second, seenNo, visited⟩
      rcases Option.bind_eq_some_iff.mp visited with ⟨later, seenRest, visited⟩
      cases visited
      rw [List.foldlM_cons] at made
      rcases Option.bind_eq_some_iff.mp made with ⟨entered, stepped, made⟩
      rcases Option.bind_eq_some_iff.mp stepped with ⟨below, condition, stepped⟩
      rcases inside.popReversed atLimit condition with ⟨operands, unreachable, rfl⟩
      cases stepped
      rw [List.foldlM_append] at made
      rcases Option.bind_eq_some_iff.mp made with ⟨ended, ran, made⟩
      have kept := yesHypothesis seenYes (inside_entered _ _ _) rfl ran
      rw [List.foldlM_append] at made
      rcases Option.bind_eq_some_iff.mp made with ⟨between, elsed, made⟩
      rw [List.foldlM_cons] at made
      rcases Option.bind_eq_some_iff.mp made with ⟨left, finished, made⟩
      have left_eq : left = ⟨result.toList.reverse.map .value ++ (operands ++ base),
          { frame with unreachable := unreachable } :: controls⟩ := by
        unfold visitElse at elsed
        split at elsed
        · cases elsed
          exact kept.finish rfl (stepWith_fin finished)
        · rw [List.foldlM_cons] at elsed
          rcases Option.bind_eq_some_iff.mp elsed with ⟨started, begun, elsed⟩
          rw [kept.startElse rfl rfl begun] at elsed
          have opened := noHypothesis seenNo (inside_fresh _ _ _) rfl elsed
          exact opened.finish rfl (stepWith_fin finished)
      rw [left_eq, ← List.append_assoc] at made
      exact restHypothesis seenRest ⟨_, _, rfl⟩ atLimit made

/-! ## Reachable lists -/

/-- The results of branches to the frames, each of which has at most one. -/
structure Labelled (controls : List ControlFrame) (labels : List (Option ValueType)) : Prop where
  types : controls.map ControlFrame.labelTypes = labels.map Option.toList
  last : forall outer, controls.getLast? = some outer -> outer.labelTypes = outer.endTypes

theorem Labelled.target {labels : List (Option ValueType)} (labelled : Labelled controls labels)
    {depth : Nat} {target : ControlFrame} (found : controls[depth]? = some target) :
    ∃ label, labels[depth]? = some label ∧ target.labelTypes = label.toList := by
  have same := congrArg (fun types => types[depth]?) labelled.types
  simp only [List.getElem?_map, found, Option.map_some] at same
  rcases Option.map_eq_some_iff.mp same.symm with ⟨label, there, types⟩
  exact ⟨label, there, types.symm⟩

theorem Labelled.outermost {labels : List (Option ValueType)} (labelled : Labelled controls labels)
    {outer : ControlFrame} (found : controls.getLast? = some outer) :
    ∃ label, labels.getLast? = some label ∧ outer.endTypes = label.toList := by
  have same := congrArg List.getLast? labelled.types
  rw [List.getLast?_map, List.getLast?_map, found] at same
  rcases Option.map_eq_some_iff.mp same.symm with ⟨label, there, types⟩
  exact ⟨label, there, (labelled.last outer found).symm.trans types.symm⟩

theorem Labelled.enter {labels : List (Option ValueType)}
    (labelled : Labelled (frame :: controls) labels) (inner : ControlFrame)
    {label : Option ValueType} (types : inner.labelTypes = label.toList) :
    Labelled (inner :: frame :: controls) (label :: labels) where
  types := congrArg₂ List.cons types labelled.types
  last outer found := labelled.last outer (by rwa [List.getLast?_cons_cons] at found)

theorem stepWith_typed (rule : List ValueType -> List ValueType -> Bool) {typed : TypedInstr}
    {params results : List ValueType} (has : typed.type = some (params, results)) :
    state.stepWith rule typed =
      (state.popOperands params).bind fun state => some (state.pushOperands results) := by
  cases typed <;> cases has <;> rfl

theorem toList_reverse (result : Option ValueType) : result.toList.reverse = result.toList := by
  cases result <;> rfl

/-- What the state of a reachable list is at its end. -/
def Reaches (base : List OperandType) (frame : ControlFrame) (controls : List ControlFrame)
    (ending : Option (List ValueType)) (state : ValidationState) : Prop :=
  forall left, ending = some left -> state = ⟨left.map .value ++ base, frame :: controls⟩

/-- A block that has come to its end has its results there. -/
theorem ends_of_popControl {ending : Option (List ValueType)} {result : Option ValueType}
    (reached : Reaches base frame controls ending state) (atLimit : base.length = frame.height)
    (reachable : frame.unreachable = false) (results : frame.endTypes = result.toList)
    (finished : state.popControl.isSome = true) :
    forall left, ending = some left -> left = result.toList := by
  intro left falls
  rw [reached left falls] at finished
  rcases Option.isSome_iff_exists.mp finished with ⟨⟨top, final⟩, popped⟩
  rw [popControl_reachable atLimit reachable popped, results, toList_reverse]

section Lists

variable {types : List ValueType} {labels : List (Option ValueType)}
  (atLimit : base.length = frame.height) (reachable : frame.unreachable = false)
  (labelled : Labelled (frame :: controls) labels)
include atLimit reachable

/-- An expression without a body, in front of a list for which it is known. -/
theorem typed_instr {first : Instr Scheme.binary} {rest : ExprList Scheme.binary}
    {here : List TypedInstr} {between : ValidationState}
    (labelled : Labelled (frame :: controls) labels)
    (visited : visitInstr scope first = some here)
    (made : here.foldlM (stepWith TypeChecker.noResults)
      ⟨types.map .value ++ base, frame :: controls⟩ = some between)
    (later : forall left, between = ⟨left.map .value ++ base, frame :: controls⟩ ->
      ∃ ending, Typed scope labels rest left ending ∧ Reaches base frame controls ending after) :
    ∃ ending, Typed scope labels (.instr first rest) types ending ∧
      Reaches base frame controls ending after := by
  have plain (typed : TypedInstr) (params results : List ValueType)
      (visited : visitInstr scope first = some [typed])
      (has : typed.type = some (params, results))
      (made : [typed].foldlM (stepWith TypeChecker.noResults)
        ⟨types.map .value ++ base, frame :: controls⟩ = some between) :
      ∃ ending, Typed scope labels (.instr first rest) types ending ∧
        Reaches base frame controls ending after := by
    rw [List.foldlM_cons, stepWith_typed _ has] at made
    rcases Option.bind_eq_some_iff.mp made with ⟨pushed, stepped, done⟩
    cases done
    rcases Option.bind_eq_some_iff.mp stepped with ⟨popped, pops, pushes⟩
    cases pushes
    rcases popOperands_reachable atLimit reachable pops with ⟨left, rfl, rfl⟩
    rcases later (results.reverse ++ left) (by
      rw [pushOperands, List.map_append, List.append_assoc]) with ⟨ending, typed, reaches⟩
    exact ⟨ending, .plain visited has typed, reaches⟩
  have never : Reaches base frame controls none after := fun _ impossible => nomatch impossible
  cases first with
  | nop =>
      cases visited
      cases made
      rcases later types rfl with ⟨ending, typed, reaches⟩
      exact ⟨ending, .nop typed, reaches⟩
  | drop =>
      cases visited
      rw [List.foldlM_cons] at made
      rcases Option.bind_eq_some_iff.mp made with ⟨left, stepped, done⟩
      cases done
      rcases Option.bind_eq_some_iff.mp stepped with ⟨⟨_, popped⟩, pops, same⟩
      cases same
      rcases popOperand_reachable atLimit reachable pops with ⟨type, left, rfl, _, rfl⟩
      rcases later left rfl with ⟨ending, typed, reaches⟩
      exact ⟨ending, .drop typed, reaches⟩
  | select =>
      cases visited
      rw [List.foldlM_cons] at made
      rcases Option.bind_eq_some_iff.mp made with ⟨pushed, stepped, done⟩
      cases done
      rcases Option.bind_eq_some_iff.mp stepped with ⟨⟨_, first⟩, condition, stepped⟩
      rcases popExpected_reachable atLimit reachable condition with ⟨left, rfl, _, rfl⟩
      rcases Option.bind_eq_some_iff.mp stepped with ⟨⟨_, second⟩, popped, stepped⟩
      rcases popOperand_reachable atLimit reachable popped with ⟨type, left, rfl, rfl, rfl⟩
      rcases Option.bind_eq_some_iff.mp stepped with ⟨⟨_, third⟩, last, same⟩
      rcases popExpected_reachable atLimit reachable last with ⟨left, rfl, rfl, rfl⟩
      cases same
      rcases later (type :: left) rfl with ⟨ending, typed, reaches⟩
      exact ⟨ending, .select typed, reaches⟩
  | br depth =>
      cases visited
      rw [List.foldlM_cons] at made
      rcases Option.bind_eq_some_iff.mp made with ⟨_, stepped, _⟩
      rcases Option.bind_eq_some_iff.mp stepped with ⟨target, found, stepped⟩
      rcases Option.bind_eq_some_iff.mp stepped with ⟨_, pops, _⟩
      rcases labelled.target found with ⟨label, there, results⟩
      rcases popOperands_reachable atLimit reachable pops with ⟨left, rfl, _⟩
      rw [results, toList_reverse]
      exact ⟨none, .br there, never⟩
  | brIf depth =>
      cases visited
      rw [List.foldlM_cons] at made
      rcases Option.bind_eq_some_iff.mp made with ⟨_, stepped, done⟩
      cases done
      rcases Option.bind_eq_some_iff.mp stepped with ⟨target, found, stepped⟩
      rcases Option.bind_eq_some_iff.mp stepped with ⟨_, pops, same⟩
      cases same
      rcases labelled.target found with ⟨label, there, results⟩
      rcases popOperands_reachable atLimit reachable pops with ⟨left, rfl, rfl⟩
      rw [results, List.reverse_append, toList_reverse]
      rcases later (label.toList ++ left) (by
        rw [pushOperands, results, toList_reverse, List.map_append, List.append_assoc]) with
        ⟨ending, typed, reaches⟩
      exact ⟨ending, .brIf there typed, reaches⟩
  | brTable targets defaultTarget =>
      cases visited
      rw [List.foldlM_cons] at made
      rcases Option.bind_eq_some_iff.mp made with ⟨_, stepped, _⟩
      rcases Option.bind_eq_some_iff.mp stepped with ⟨target, found, stepped⟩
      split at stepped
      · rename_i agree
        rcases Option.bind_eq_some_iff.mp stepped with ⟨_, pops, _⟩
        rcases labelled.target found with ⟨label, there, results⟩
        rcases popOperands_reachable atLimit reachable pops with ⟨left, rfl, _⟩
        rw [results, List.reverse_append, toList_reverse]
        refine ⟨none, .brTable fun depth member => ?_, never⟩
        rcases List.mem_cons.mp member with rfl | member
        · exact there
        · have same := List.all_eq_true.mp agree depth member
          rw [beq_iff_eq, Option.map_eq_some_iff] at same
          rcases same with ⟨other, at_, types⟩
          rcases labelled.target at_ with ⟨otherLabel, otherThere, otherResults⟩
          rw [otherThere]
          rw [otherResults, results] at types
          cases otherLabel <;> cases label <;> simp_all
      · cases stepped
  | ret =>
      cases visited
      rw [List.foldlM_cons] at made
      rcases Option.bind_eq_some_iff.mp made with ⟨next, stepped, _⟩
      have jumped : ((frame :: controls).getLast?.bind fun outer =>
          (popOperands ⟨types.map .value ++ base, frame :: controls⟩ outer.endTypes).bind
            setUnreachable) = some next := stepped
      rcases Option.bind_eq_some_iff.mp jumped with ⟨outer, found, popped⟩
      rcases Option.bind_eq_some_iff.mp popped with ⟨_, pops, _⟩
      rcases labelled.outermost found with ⟨label, there, results⟩
      rcases popOperands_reachable atLimit reachable pops with ⟨left, rfl, _⟩
      rw [results, toList_reverse]
      exact ⟨none, .ret there, never⟩
  | unreachable => exact ⟨none, .unreachable, never⟩
  | getLocal var =>
      rcases Option.map_eq_some_iff.mp visited with ⟨type, _, rfl⟩
      exact plain _ _ _ visited rfl made
  | setLocal var =>
      rcases Option.map_eq_some_iff.mp visited with ⟨type, _, rfl⟩
      exact plain _ _ _ visited rfl made
  | teeLocal var =>
      rcases Option.map_eq_some_iff.mp visited with ⟨type, _, rfl⟩
      exact plain _ _ _ visited rfl made
  | getGlobal var =>
      rcases Option.map_eq_some_iff.mp visited with ⟨type, _, rfl⟩
      exact plain _ _ _ visited rfl made
  | setGlobal var =>
      rcases Option.map_eq_some_iff.mp visited with ⟨type, _, rfl⟩
      exact plain _ _ _ visited rfl made
  | call var =>
      rcases Option.map_eq_some_iff.mp visited with ⟨signature, _, rfl⟩
      exact plain _ _ _ visited rfl made
  | callIndirect typeIndex =>
      rcases Option.map_eq_some_iff.mp visited with ⟨signature, _, rfl⟩
      exact plain _ _ _ visited rfl made
  | _ =>
      cases visited
      exact plain _ _ _ rfl rfl made

end Lists

theorem enterElse {instrs : List TypedInstr}
    (made : instrs.foldlM (stepWith TypeChecker.noResults) ⟨base, frame :: controls⟩ =
      some after) :
    instrs.foldlM (stepWith TypeChecker.noResults)
      ⟨([] : List ValueType).map .value ++ base, frame :: controls⟩ = some after := made

theorem typed_of_valid {exprs : ExprList Scheme.binary} {instrs : List TypedInstr}
    {types : List ValueType} {labels : List (Option ValueType)}
    (visited : visitExprs scope exprs = some instrs)
    (atLimit : base.length = frame.height) (reachable : frame.unreachable = false)
    (labelled : Labelled (frame :: controls) labels)
    (made : instrs.foldlM (stepWith TypeChecker.noResults)
      ⟨types.map .value ++ base, frame :: controls⟩ = some after) :
    ∃ ending, Typed scope labels exprs types ending ∧
      Reaches base frame controls ending after := by
  induction exprs generalizing instrs types labels base frame controls after with
  | nil =>
      cases visited
      cases made
      exact ⟨some types, .nil, fun left same => by cases same; rfl⟩
  | instr first rest inductionHypothesis =>
      rcases Option.bind_eq_some_iff.mp visited with ⟨here, seen, visited⟩
      rcases Option.bind_eq_some_iff.mp visited with ⟨later, seenRest, visited⟩
      cases visited
      rw [List.foldlM_append] at made
      rcases Option.bind_eq_some_iff.mp made with ⟨between, stepped, made⟩
      exact typed_instr atLimit reachable labelled seen stepped fun left same =>
        inductionHypothesis seenRest atLimit reachable labelled (same ▸ made)
  | block label result exprs rest bodyHypothesis restHypothesis =>
      rcases Option.bind_eq_some_iff.mp visited with ⟨inner, seen, visited⟩
      rcases Option.bind_eq_some_iff.mp visited with ⟨later, seenRest, visited⟩
      cases visited
      rw [List.foldlM_cons] at made
      rcases Option.bind_eq_some_iff.mp made with ⟨entered, stepped, made⟩
      cases stepped
      rcases frame_left (fun _ ran => Inside.exprs seen (inside_entered _ _ _) rfl ran) made with
        ⟨ended, ⟨ran, finished⟩, made⟩
      rw [pushControl_eq] at ran
      rcases bodyHypothesis seen rfl rfl (labelled.enter _ rfl) ran with
        ⟨ending, typed, reaches⟩
      rw [toList_reverse, ← List.append_assoc, ← List.map_append] at made
      rcases restHypothesis seenRest atLimit reachable labelled made with ⟨last, typedRest, ends⟩
      exact ⟨last, .block typed (ends_of_popControl reaches rfl rfl rfl finished) typedRest, ends⟩
  | loop label result exprs rest bodyHypothesis restHypothesis =>
      rcases Option.bind_eq_some_iff.mp visited with ⟨inner, seen, visited⟩
      rcases Option.bind_eq_some_iff.mp visited with ⟨later, seenRest, visited⟩
      cases visited
      rw [List.foldlM_cons] at made
      rcases Option.bind_eq_some_iff.mp made with ⟨entered, stepped, made⟩
      cases stepped
      rcases frame_left (fun _ ran => Inside.exprs seen (inside_entered _ _ _) rfl ran) made with
        ⟨ended, ⟨ran, finished⟩, made⟩
      rw [pushControl_eq] at ran
      rcases bodyHypothesis seen rfl rfl (@Labelled.enter _ _ _ labelled _ none rfl) ran with
        ⟨ending, typed, reaches⟩
      rw [toList_reverse, ← List.append_assoc, ← List.map_append] at made
      rcases restHypothesis seenRest atLimit reachable labelled made with ⟨last, typedRest, ends⟩
      exact ⟨last, .loop typed (ends_of_popControl reaches rfl rfl rfl finished) typedRest, ends⟩
  | ite label result yes no rest yesHypothesis noHypothesis restHypothesis =>
      rcases Option.bind_eq_some_iff.mp visited with ⟨first, seenYes, visited⟩
      rcases Option.bind_eq_some_iff.mp visited with ⟨second, seenNo, visited⟩
      rcases Option.bind_eq_some_iff.mp visited with ⟨later, seenRest, visited⟩
      cases visited
      rw [List.foldlM_cons] at made
      rcases Option.bind_eq_some_iff.mp made with ⟨entered, stepped, made⟩
      rcases Option.bind_eq_some_iff.mp stepped with ⟨below, condition, stepped⟩
      rcases popOperands_reachable atLimit reachable condition with ⟨types, rfl, rfl⟩
      cases stepped
      rw [List.foldlM_append] at made
      rcases Option.bind_eq_some_iff.mp made with ⟨ended, ran, made⟩
      have kept := Inside.exprs seenYes (inside_entered _ _ _) rfl ran
      rw [pushControl_eq] at ran
      rcases yesHypothesis seenYes rfl rfl (labelled.enter _ rfl) ran with
        ⟨yesEnding, typedYes, reaches⟩
      rw [List.foldlM_append] at made
      rcases Option.bind_eq_some_iff.mp made with ⟨between, elsed, made⟩
      rw [List.foldlM_cons] at made
      rcases Option.bind_eq_some_iff.mp made with ⟨left, finished, continued⟩
      rcases visitElse_cases no second with ⟨rfl, absent⟩ | present
      · rw [absent] at elsed
        cases elsed
        have noResult : result = none := by
          rcases kept with ⟨operands, unreachable, rfl⟩
          cases result with
          | none => rfl
          | some type => cases finished
        subst noResult
        rw [kept.finish rfl (stepWith_fin finished)] at continued
        rcases restHypothesis seenRest atLimit reachable labelled continued with
          ⟨last, typedRest, ends⟩
        exact ⟨last, .ite typedYes (ends_of_popControl reaches rfl rfl rfl
          (popControl_of_finish (stepWith_fin finished))) .nil (fun _ same => by cases same; rfl)
          typedRest, ends⟩
      · rw [present, List.foldlM_cons] at elsed
        rcases Option.bind_eq_some_iff.mp elsed with ⟨started, begun, elsed⟩
        have popped : ended.popControl.isSome = true := by
          rcases Option.bind_eq_some_iff.mp begun with ⟨_, popped, _⟩
          rw [popped]
          rfl
        rw [kept.startElse rfl rfl begun] at elsed
        have keptNo := Inside.exprs seenNo (inside_fresh _ _ _) rfl elsed
        rcases noHypothesis seenNo rfl rfl (labelled.enter _ rfl) (enterElse elsed) with
          ⟨noEnding, typedNo, reachesNo⟩
        have shape : left = ⟨result.toList.reverse.map .value ++ (types.map .value ++ base),
            frame :: controls⟩ := keptNo.finish rfl (stepWith_fin finished)
        rw [shape, toList_reverse, ← List.append_assoc, ← List.map_append] at continued
        rcases restHypothesis seenRest atLimit reachable labelled continued with
          ⟨last, typedRest, ends⟩
        exact ⟨last, .ite typedYes (ends_of_popControl reaches rfl rfl rfl popped) typedNo
          (ends_of_popControl reachesNo rfl rfl rfl (popControl_of_finish (stepWith_fin finished)))
          typedRest, ends⟩

end Inside

end ValidationState

/-- What the type checker accepts has its types wherever it is reached. -/
theorem Accepted.typed {result : Option ValueType} {exprs : ExprList Scheme.binary}
    (accepted : Accepted scope result exprs) :
    ∃ ending, Typed scope [result] exprs [] ending ∧
      forall left, ending = some left -> left = result.toList := by
  rcases accepted with ⟨instrs, visited, checked⟩
  rw [TypeChecker.checkBody, Result.or_eq_ok] at checked
  rcases (TypeChecker.steps_accepted (TypeChecker.beginFunction_wellFormed _) _).mp checked with
    ⟨state, frame, final, made, popped, _⟩
  rcases @ValidationState.typed_of_valid scope [] ⟨.func, [], result.toList, 0, false⟩ [] _ _ _ []
    [result] visited rfl rfl ⟨rfl, fun outer last => by cases last; rfl⟩ made with
    ⟨ending, typed, reaches⟩
  exact ⟨ending, typed,
    ValidationState.ends_of_popControl reaches rfl rfl rfl (by rw [popped]; rfl)⟩

end Wasm
end WasmSandboxing
