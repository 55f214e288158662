import WasmSandboxing.CWriter.Commands
import WasmSandboxing.CWriter.LocalScope

namespace WasmSandboxing
namespace CWriter

open Foundation CLang WasmRt Wasm Semantics

/-!
# Function bodies in C

The statements that the C writer makes of a body do what the body does.  A
block of the body is a stretch of the function with a label at its end or at
its start.  A branch out of blocks is a `goto`, in front of which the result
of the label is moved down to the height of the label.

The generated function is the same throughout, and a part of it is simulated
wherever it stands in the function.
-/

variable {scope : FuncScope} {Rest : Type}

/-! ## Executions that belong together -/

/-- A point in the execution of a generated function. -/
abbrev Point (scope : FuncScope) (Rest : Type) := Statements Scheme.applied × CState scope Rest

/-- Where a branch to a label goes on: with the operands it carries above those
that were there at the start of the block. -/
structure Landing where
  carried : Option ValueType
  base : List Value
  code : Statements Scheme.applied

/-- The operands of a frame that a branch takes along. -/
def carry (carried : Option ValueType) (frame : Frame scope Rest) : Frame scope Rest :=
  { frame with stack := frame.stack.take carried.toList.length }

section Following

variable {machine : Machine (Point scope Rest) (Finish (CState scope Rest) (Stop Trap))}

/-- A branch of a frame comes to a landing. -/
def Arrives (machine : Machine (Point scope Rest) (Finish (CState scope Rest) (Stop Trap)))
    (source : Point scope Rest) (landing : Landing) (frame : Frame scope Rest) : Prop :=
  ∃ given, machine.Reaches 1 source (landing.code, given) ∧
    Agree given (carry landing.carried frame) landing.base ∧
    (carry landing.carried frame).stack.map Value.type = landing.carried.toList

/-- The execution from a point does what a list does, whose end is the
statement `rest`.  A run of the list that takes more than `rounds` rounds of a
loop is matched by an execution of as many steps. -/
inductive Simulates (machine : Machine (Point scope Rest) (Finish (CState scope Rest) (Stop Trap)))
    (rounds : Nat) (landings : List Landing) (ending : Option (List ValueType))
    (base : List Value) (rest : Statements Scheme.applied) (source : Point scope Rest) :
    Behaviour scope Rest -> Prop
  | next (reaches : machine.Reaches 0 source (rest, given)) (agree : Agree given frame base)
      (typed : ending = some (frame.stack.map Value.type)) :
      Simulates machine rounds landings ending base rest source (.next frame)
  | branch (target : landings[depth]? = some landing)
      (arrives : Arrives machine source landing frame) :
      Simulates machine rounds landings ending base rest source (.branch depth frame)
  | returned (last : landings.getLast? = some landing)
      (arrives : Arrives machine source landing frame) :
      Simulates machine rounds landings ending base rest source (.returned frame)
  | trap (ends : machine.Ends source (.stopped (.trap code))) :
      Simulates machine rounds landings ending base rest source (.stopped (.trap code))
  | unsaid : Simulates machine rounds landings ending base rest source (.stopped .undefined)
  | running (survives : machine.Survives rounds source) :
      Simulates machine rounds landings ending base rest source .running

variable {rounds : Nat} {landings : List Landing} {ending last : Option (List ValueType)}
  {base stack : List Value} {middle rest : Statements Scheme.applied}
  {source before : Point scope Rest} {behaviour : Behaviour scope Rest}

theorem Arrives.after {count : Nat} {landing : Landing} {frame : Frame scope Rest}
    (reaches : machine.Reaches count before source)
    (arrives : Arrives machine source landing frame) :
    Arrives machine before landing frame := by
  rcases arrives with ⟨given, goes, agree, typed⟩
  exact ⟨given, (reaches.trans goes).weaken (by omega), agree, typed⟩

namespace Simulates

theorem weaken {fewer : Nat} (below : fewer ≤ rounds)
    (simulates : Simulates machine rounds landings ending base rest source behaviour) :
    Simulates machine fewer landings ending base rest source behaviour := by
  cases simulates with
  | next arrives agree typed => exact .next arrives agree typed
  | branch target arrives => exact .branch target arrives
  | returned last arrives => exact .returned last arrives
  | trap ends => exact .trap ends
  | unsaid => exact .unsaid
  | running survives => exact .running (survives.weaken below)

/-- Steps in front of an execution, which count for the rounds. -/
theorem prepend {count : Nat} (reaches : machine.Reaches count before source)
    (simulates : Simulates machine rounds landings ending base rest source behaviour) :
    Simulates machine (count + rounds) landings ending base rest before behaviour := by
  cases simulates with
  | next arrives agree typed => exact .next ((reaches.trans arrives).weaken (by omega)) agree typed
  | branch target arrives => exact .branch target (arrives.after reaches)
  | returned last arrives => exact .returned last (arrives.after reaches)
  | trap ends => exact .trap (reaches.ends ends)
  | unsaid => exact .unsaid
  | running survives => exact .running (reaches.survives survives)

theorem after {count : Nat} (reaches : machine.Reaches count before source)
    (simulates : Simulates machine rounds landings ending base rest source behaviour) :
    Simulates machine rounds landings ending base rest before behaviour :=
  (simulates.prepend reaches).weaken (Nat.le_add_left rounds count)

/-- One list behind another. -/
theorem andThen {next : Frame scope Rest -> Behaviour scope Rest}
    (simulates : Simulates machine rounds landings ending base middle source behaviour)
    (goesOn : forall given frame, Agree given frame base ->
      ending = some (frame.stack.map Value.type) ->
      Simulates machine rounds landings last base rest (middle, given) (next frame)) :
    Simulates machine rounds landings last base rest source (behaviour.andThen next) := by
  cases simulates with
  | next arrives agree typed => exact (goesOn _ _ agree typed).after arrives
  | branch target arrives => exact .branch target arrives
  | returned last arrives => exact .returned last arrives
  | trap ends => exact .trap ends
  | unsaid => exact .unsaid
  | running survives => exact .running survives

theorem agree_leave {given : CState scope Rest} {frame : Frame scope Rest}
    (agree : Agree given frame (stack ++ base)) :
    Agree given { frame with stack := frame.stack ++ stack } base where
  locals := agree.locals
  world := agree.world
  stack := by
    rw [List.append_assoc]
    exact agree.stack

/-- The end of a block, which a branch to its label comes to as well. -/
theorem leave {result : Option ValueType} {types : List ValueType}
    (simulates : Simulates machine rounds (⟨result, stack ++ base, rest⟩ :: landings) ending
      (stack ++ base) middle source behaviour)
    (nonempty : landings ≠ []) (ends : forall left, ending = some left -> left = result.toList)
    (falls : forall given : CState scope Rest, machine.Reaches 0 (middle, given) (rest, given))
    (typedStack : stack.map Value.type = types) :
    Simulates machine rounds landings (some (result.toList ++ types)) base rest source
      (behaviour.leave result stack) := by
  cases simulates with
  | next arrives agree typed =>
      refine .next ((arrives.trans (falls _)).weaken (by omega)) (agree_leave agree) ?_
      rw [List.map_append, ends _ typed, typedStack]
  | @branch depth landing frame target arrives =>
      cases depth with
      | zero =>
          cases target
          rcases arrives with ⟨given, reaches, agree, typed⟩
          have typedCarried : (frame.stack.take result.toList.length).map Value.type =
              result.toList := typed
          refine .next (reaches.weaken (by omega)) (agree_leave agree) ?_
          rw [List.map_append, typedCarried, typedStack]
      | succ depth => exact .branch target arrives
  | returned last arrives =>
      rw [List.getLast?_cons_of_ne_nil nonempty] at last
      exact .returned last arrives
  | trap ends => exact .trap ends
  | unsaid => exact .unsaid
  | running survives => exact .running survives

/-- The rounds of a loop, whose label stands at its start. -/
theorem iterate {code : Statements Scheme.applied} {other : Landing}
    {body : Frame scope Rest -> Behaviour scope Rest} {count : Nat} (enough : count ≤ rounds)
    (nonempty : landings ≠ [])
    (round : forall given frame, Agree given frame base -> frame.stack = [] ->
      Simulates machine rounds (⟨none, base, code⟩ :: landings) ending base middle (code, given)
        (body frame)) :
    forall given frame, Agree given frame base -> frame.stack = [] ->
      Simulates machine count (other :: landings) ending base middle (code, given)
        (Semantics.iterate body count frame) := by
  induction count with
  | zero => exact fun given frame _ _ => .running ⟨_, Machine.Reaches.refl _⟩
  | succ count inductionHypothesis =>
      intro given frame agree empty
      have simulated := round given frame agree empty
      rw [Semantics.iterate]
      cases behaves : body frame with
      | next frame =>
          rw [behaves] at simulated
          cases simulated with
          | next arrives agree typed => exact .next arrives agree typed
      | branch depth left =>
          rw [behaves] at simulated
          cases simulated with
          | branch target arrives =>
              cases depth with
              | succ depth => exact .branch target arrives
              | zero =>
                  cases target
                  rcases arrives with ⟨again, reaches, agree, typed⟩
                  have goesOn := inductionHypothesis (by omega) again
                    { left with stack := [] } agree rfl
                  exact (goesOn.prepend reaches).weaken (by omega)
      | returned left =>
          rw [behaves] at simulated
          cases simulated with
          | returned last arrives =>
              rw [List.getLast?_cons_of_ne_nil nonempty] at last
              exact .returned (by rw [List.getLast?_cons_of_ne_nil nonempty, last]) arrives
      | stopped reason =>
          rw [behaves] at simulated
          cases simulated with
          | trap ends => exact .trap ends
          | unsaid => exact .unsaid
      | running =>
          rw [behaves] at simulated
          cases simulated with
          | running survives => exact .running (survives.weaken enough)
      | wrong =>
          rw [behaves] at simulated
          cases simulated

end Simulates

end Following

/-! ## Labels -/

section Labels

/-- The result that a branch to the label carries. -/
def Label.carried (label : Label Scheme.applied) : Option ValueType :=
  if label.labelType = .loop then none else label.result

/-- The label, to which more branches may go. -/
def Label.Raises (label after : Label Scheme.applied) : Prop :=
  (label.used = true -> after.used = true) ∧ after = { label with used := after.used }

/-- The labels, to which more branches may go. -/
abbrev Raised (stack after : List (Label Scheme.applied)) : Prop :=
  List.Forall₂ Label.Raises stack after

variable {stack middle after : List (Label Scheme.applied)} {label : Label Scheme.applied}

theorem Label.Raises.refl (label : Label Scheme.applied) : label.Raises label := ⟨id, rfl⟩

theorem Label.Raises.trans {first second third : Label Scheme.applied}
    (before : first.Raises second) (later : second.Raises third) : first.Raises third := by
  refine ⟨fun used => later.1 (before.1 used), ?_⟩
  rw [later.2, before.2]

theorem Raised.refl (stack : List (Label Scheme.applied)) : Raised stack stack :=
  List.forall₂_same.mpr fun label _ => .refl label

theorem Raised.trans (before : Raised stack middle) (later : Raised middle after) :
    Raised stack after := by
  induction before generalizing after with
  | nil => exact later
  | cons raises _ inductionHypothesis =>
      rcases List.forall₂_cons_left_iff.mp later with ⟨last, rest, also, laterRest, rfl⟩
      exact .cons (raises.trans also) (inductionHypothesis laterRest)

theorem raised_modify (stack : List (Label Scheme.applied)) (position : Nat) :
    Raised stack (stack.modify position fun label => { label with used := true }) := by
  induction stack generalizing position with
  | nil => cases position <;> exact .nil
  | cons label rest inductionHypothesis =>
      cases position with
      | zero => exact .cons ⟨fun _ => rfl, rfl⟩ (Raised.refl rest)
      | succ position => exact .cons (.refl label) (inductionHypothesis position)

theorem Raised.map_eq {Part : Type} (raised : Raised stack after)
    (part : Label Scheme.applied -> Part)
    (same : forall label used, part { label with used := used } = part label) :
    after.map part = stack.map part := by
  induction raised with
  | nil => rfl
  | cons raises _ inductionHypothesis =>
      rw [List.map_cons, List.map_cons, inductionHypothesis, raises.2, same]

/-- The label is where a landing is, if there are branches to it. -/
structure Lands (program : Statements Scheme.applied) (label : Label Scheme.applied)
    (landing : Landing) : Prop where
  carried : label.carried = landing.carried
  height : label.typeStackSize = landing.base.length
  found : label.used = true -> program.findLabel label.name = some landing.code

variable {program : Statements Scheme.applied} {landings : List Landing}

theorem Label.Raises.lands {later : Label Scheme.applied} {landing : Landing}
    (raises : label.Raises later) (lands : Lands program later landing) :
    Lands program label landing := by
  rcases raises with ⟨more, same⟩
  have carried := lands.carried
  have height := lands.height
  have found := lands.found
  rw [same] at carried height found
  exact ⟨carried, height, fun used => found (more used)⟩

/-- The labels around a list in a generated function, with the operands below
the list. -/
structure Placed (program : Statements Scheme.applied) (stack : List (Label Scheme.applied))
    (types : List ValueType) (landings : List Landing) (base : List Value) : Prop where
  lands : List.Forall₂ (Lands program) stack landings
  typed : base.map Value.type = types
  below : forall landing, landing ∈ landings -> landing.base <:+ base

namespace Placed

variable {types : List ValueType} {base : List Value}

theorem before (placed : Placed program after types landings base) (raised : Raised stack after) :
    Placed program stack types landings base := by
  refine ⟨?_, placed.typed, placed.below⟩
  have lands := placed.lands
  clear placed
  induction raised generalizing landings with
  | nil => exact lands
  | cons raises _ inductionHypothesis =>
      rcases List.forall₂_cons_left_iff.mp lands with ⟨landing, rest, first, others, rfl⟩
      exact .cons (raises.lands first) (inductionHypothesis others)

/-- Inside of a block above further operands. -/
theorem enter (placed : Placed program stack types landings base) {operands : List Value}
    {carried : Option ValueType} {code : Statements Scheme.applied}
    (lands : Lands program label ⟨carried, operands ++ base, code⟩) :
    Placed program (label :: stack) (operands.map Value.type ++ types)
      (⟨carried, operands ++ base, code⟩ :: landings) (operands ++ base) where
  lands := .cons lands placed.lands
  typed := by rw [List.map_append, placed.typed]
  below landing member := by
    rcases List.mem_cons.mp member with rfl | outer
    · exact List.suffix_rfl
    · exact (placed.below landing outer).trans (List.suffix_append _ _)

theorem getElem? (placed : Placed program stack types landings base) {depth : Nat}
    (found : stack[depth]? = some label) :
    ∃ landing, landings[depth]? = some landing ∧ Lands program label landing ∧
      landing.base <:+ base := by
  have lands := placed.lands
  have bound := (List.getElem?_eq_some_iff.mp found).1
  have also : depth < landings.length := by rwa [← lands.length_eq]
  refine ⟨landings[depth], List.getElem?_eq_getElem also, ?_,
    placed.below _ (List.getElem_mem also)⟩
  rw [← (List.getElem?_eq_some_iff.mp found).2]
  exact lands.get bound also

theorem nonempty (placed : Placed program stack types landings base) (some : stack ≠ []) :
    landings ≠ [] := by
  rintro rfl
  cases placed.lands
  exact some rfl

end Placed

/-- The names and the numbers of the labels around a list, the function's own
last, when further blocks are numbered from a count on. -/
structure Fits (names : List LabelName) (count : Nat) (labels : List (Option ValueType))
    (height : Nat) (stack : List (Label Scheme.applied)) : Prop where
  named : stack.map Label.name = names ++ [.func]
  numbered : forall name, name ∈ names -> ∃ number, name.number = some number ∧ number < count
  distinct : names.Nodup
  carried : stack.map Label.carried = labels
  heights : forall label, label ∈ stack -> label.typeStackSize ≤ height

namespace Fits

variable {names : List LabelName} {count height : Nat} {labels : List (Option ValueType)}

theorem nonempty (fits : Fits names count labels height stack) : stack ≠ [] := by
  rintro rfl
  have named := congrArg List.length fits.named
  simp at named

theorem raised (fits : Fits names count labels height stack) (raised : Raised stack after) :
    Fits names count labels height after where
  named := by rw [raised.map_eq Label.name fun _ _ => rfl, fits.named]
  numbered := fits.numbered
  distinct := fits.distinct
  carried := by rw [raised.map_eq Label.carried fun _ _ => rfl, fits.carried]
  heights label member := by
    have sizes := raised.map_eq Label.typeStackSize fun _ _ => rfl
    have found := List.mem_map_of_mem (f := Label.typeStackSize) member
    rw [sizes, List.mem_map] at found
    rcases found with ⟨other, also, same⟩
    rw [← same]
    exact fits.heights other also

theorem later {more : Nat} (fits : Fits names count labels height stack) (enough : count ≤ more) :
    Fits names more labels height stack where
  named := fits.named
  numbered name member := by
    rcases fits.numbered name member with ⟨number, same, below⟩
    exact ⟨number, same, by omega⟩
  distinct := fits.distinct
  carried := fits.carried
  heights := fits.heights

/-- Inside of a block with the next number. -/
theorem enter (fits : Fits names count labels height stack)
    (own : label.name.number = some count) (above : height ≤ label.typeStackSize) :
    Fits (label.name :: names) (count + 1) (label.carried :: labels) label.typeStackSize
      (label :: stack) where
  named := congrArg (List.cons label.name) fits.named
  numbered name member := by
    rcases List.mem_cons.mp member with rfl | outer
    · exact ⟨count, own, Nat.lt_succ_self count⟩
    · rcases fits.numbered name outer with ⟨number, same, below⟩
      exact ⟨number, same, by omega⟩
  distinct := by
    refine List.nodup_cons.mpr ⟨fun member => ?_, fits.distinct⟩
    rcases fits.numbered _ member with ⟨number, same, below⟩
    rw [own] at same
    cases same
    omega
  carried := congrArg (List.cons label.carried) fits.carried
  heights other member := by
    rcases List.mem_cons.mp member with rfl | outer
    · exact Nat.le_refl _
    · exact (fits.heights other outer).trans above

/-- The label of a block is found by its name, and the function's by its
depth. -/
theorem findLabel {types : List ValueType} {depth : Nat} {carried : Option ValueType}
    (fits : Fits names count labels height stack) (target : labels[depth]? = some carried) :
    ∃ label, stack[depth]? = some label ∧ label.carried = carried ∧
      WriterState.findLabel ⟨types, stack⟩ (ApplyNames.useNameForVar names depth) = some depth ∧
      gotoName (ApplyNames.useNameForVar names depth) = label.name := by
  rw [← fits.carried, List.getElem?_map] at target
  rcases Option.map_eq_some_iff.mp target with ⟨label, entry, same⟩
  refine ⟨label, entry, same, ?_⟩
  have named : (names ++ [LabelName.func])[depth]? = some label.name := by
    rw [← fits.named, List.getElem?_map, entry]
    rfl
  rcases List.getElem?_eq_some_iff.mp entry with ⟨bound, isLabel⟩
  have length : stack.length = names.length + 1 := by
    have lengths := congrArg List.length fits.named
    simpa using lengths
  rw [ApplyNames.useNameForVar]
  cases found : names[depth]? with
  | some name =>
      have inside := (List.getElem?_eq_some_iff.mp found).1
      rw [List.getElem?_append_left inside, found] at named
      have same : name = label.name := Option.some.inj named
      subst same
      refine ⟨?_, rfl⟩
      have first : stack.findIdx? (fun other => other.name = label.name) = some depth := by
        rw [List.findIdx?_eq_some_iff_getElem]
        refine ⟨bound, by simp [isLabel], fun other less same => ?_⟩
        have before : (names ++ [LabelName.func])[other]? = some label.name := by
          rw [← fits.named, List.getElem?_map,
            List.getElem?_eq_getElem (Nat.lt_trans less bound)]
          exact congrArg some (of_decide_eq_true same)
        rw [List.getElem?_append_left (Nat.lt_trans less inside), ← found] at before
        have early := Nat.lt_trans less inside
        exact absurd ((List.getElem?_inj early fits.distinct).mp before) (Nat.ne_of_lt less)
      simp only [WriterState.findLabel, first]
  | none =>
      have beyond : names.length ≤ depth := List.getElem?_eq_none_iff.mp found
      have last : depth = names.length := by omega
      subst last
      rw [List.getElem?_append_right (Nat.le_refl _), Nat.sub_self] at named
      refine ⟨?_, Option.some.inj named⟩
      simp only [WriterState.findLabel]
      rw [if_pos length.symm]

end Fits

end Labels

/-! ## Branches -/

section Branches

variable {fpu : FloatUnit} {callees : Callees scope.globalType Rest}
  {program next : Statements Scheme.applied}

/-- A command that goes on. -/
theorem reaches_command {command : Command Scheme.applied} {given after : CState scope Rest}
    (ran : runCommand fpu callees command given = .next after) :
    (execution fpu callees program).Reaches 1 (.basic command next, given) (next, after) :=
  Machine.Reaches.step (by simp only [machine, meaning, ran])

theorem reaches_goto {name : LabelName} {code : Statements Scheme.applied}
    (given : CState scope Rest) (found : program.findLabel name = some code) :
    (execution fpu callees program).Reaches 1 (.goto name next, given) (code, given) :=
  Machine.Reaches.step (by simp only [machine, found])

theorem reaches_label (name : LabelName) (given : CState scope Rest) :
    (execution fpu callees program).Reaches 1 (.label name next, given) (next, given) :=
  Machine.Reaches.step rfl

theorem eval_var (fpu : FloatUnit) {given : CState scope Rest} {source : CVar Scheme.applied}
    {value : CValue} (held : given.valuation source = some value) :
    (Expr.var source : CExpr Scheme.applied).eval fpu (declared scope) given.valuation =
      .ok value := by
  rw [Expr.eval, held, Expr.defined_some]

/-- An `if` on a variable. -/
theorem reaches_branch {given : CState scope Rest} {source : CVar Scheme.applied}
    {bits : BitVec 32} {yes no : Statements Scheme.applied}
    (held : given.valuation source = some (.u32 bits)) :
    (execution fpu callees program).Reaches 1 (.branch (.var source) yes no next, given)
      ((if bits ≠ 0 then yes else no) ++ next, given) := by
  have evaluates := eval_var fpu held
  refine Machine.Reaches.step ?_
  by_cases nonzero : bits ≠ 0
  · have truth : (CValue.u32 bits).truth = true := decide_eq_true nonzero
    simp only [machine, meaning, evaluates, Except.map, truth, if_pos nonzero]
  · have truth : (CValue.u32 bits).truth = false := decide_eq_false nonzero
    simp only [machine, meaning, evaluates, Except.map, truth, if_neg nonzero]

theorem reaches_switch {given : CState scope Rest} {source : CVar Scheme.applied}
    {bits : BitVec 32} {body found : Statements Scheme.applied}
    (held : given.valuation source = some (.u32 bits))
    (selected : body.select bits.toNat = some found) :
    (execution fpu callees program).Reaches 1 (.switch (.var source) body next, given)
      (found ++ next, given) := by
  have evaluates := eval_var fpu held
  exact Machine.Reaches.step (by simp only [machine, meaning, evaluates, selected])

/-- The operand on the top is in the variable above the others. -/
theorem Agree.top {given : CState scope Rest} {value : Value} {stack base : List Value}
    {locals : Variables scope.localType} {world : World scope.globalType Rest}
    {others baseTypes : List ValueType} (agree : Agree given ⟨value :: stack, locals, world⟩ base)
    (typed : stack.map Value.type = others) (typedBase : base.map Value.type = baseTypes) :
    given.valuation (.stack (others ++ baseTypes).length value.type) = some (cValue value) := by
  rw [below_length (by rw [typedBase]) typed]
  exact agree.stack.1

/-- What `copyResult` writes in front of a `goto`, with these operands below
the result. -/
inductive Moves (label : Label Scheme.applied) (types : List ValueType) :
    Statements Scheme.applied -> Prop
  | nothing (carried : label.carried = none) : Moves label types .done
  | inPlace (height : types.length = label.typeStackSize) : Moves label types .done
  | down (carried : label.carried = some type) :
      Moves label types
        (.basic (.assign (.stack label.typeStackSize type) (.var (.stack types.length type))) .done)

theorem copyResult_moves {state : WriterState Scheme.applied} {label : Label Scheme.applied}
    {types : List ValueType} (shape : state.typeStack = label.carried.toList ++ types)
    (height : label.typeStackSize ≤ types.length) :
    ∃ copy, copyResult state label = some copy ∧ Moves label types copy := by
  unfold copyResult
  by_cases isLoop : label.labelType = .loop
  · exact ⟨.done, if_pos isLoop, .nothing (if_pos isLoop)⟩
  · have carried : label.carried = label.result := if_neg isLoop
    rw [if_neg isLoop]
    cases result : label.result with
    | none => exact ⟨.done, rfl, .nothing (carried.trans result)⟩
    | some type =>
        rw [carried, result] at shape
        have top : state.operand 0 = some (.stack types.length type) := operand_top shape
        have length : state.typeStack.length = types.length + 1 := congrArg List.length shape
        simp only [Option.bind_eq_bind]
        rw [if_neg (by omega)]
        by_cases there : types.length = label.typeStackSize
        · exact ⟨.done, if_pos (by omega), .inPlace there⟩
        · have target : ((state.typeStack.length : ℤ) - 1 -
              (state.typeStack.length - label.typeStackSize - 1)).toNat = label.typeStackSize := by
            omega
          refine ⟨_, ?_, .down (carried.trans result)⟩
          rw [if_neg (by omega), top, Option.bind_some, WriterState.stackVar, target]

/-- The move of a result leaves it above the operands of the landing. -/
theorem Moves.holds {label : Label Scheme.applied} {types : List ValueType}
    {copy : Statements Scheme.applied} {landing : Landing} {own stack base : List Value}
    {given : CState scope Rest} (moves : Moves label types copy)
    (height : label.typeStackSize = landing.base.length) (suffix : landing.base <:+ stack ++ base)
    (holds : Holds given.stack (own ++ (stack ++ base)))
    (typed : own.map Value.type = label.carried.toList)
    (length : types.length = (stack ++ base).length) :
    ∃ after, (execution fpu callees program).Reaches 0 (copy ++ next, given) (next, after) ∧
      after.locals = given.locals ∧ after.world = given.world ∧
      Holds after.stack (own ++ landing.base) := by
  cases moves with
  | nothing carried =>
      rw [carried] at typed
      cases List.map_eq_nil_iff.mp typed
      exact ⟨given, Machine.Reaches.refl _, rfl, rfl, holds.of_suffix suffix⟩
  | inPlace there =>
      have same : landing.base = stack ++ base :=
        suffix.eq_of_length (by rw [← length, there, height])
      rw [same]
      exact ⟨given, Machine.Reaches.refl _, rfl, rfl, holds⟩
  | @down type carried =>
      rw [carried] at typed
      rcases List.map_eq_cons_iff.mp typed with ⟨value, _, rfl, typedValue, none⟩
      cases List.map_eq_nil_iff.mp none
      have held : given.valuation (.stack types.length type) = some (cValue value) := by
        rw [length, ← typedValue]
        exact holds.1
      have typedTarget : declared scope (.stack label.typeStackSize type) = cType value.type :=
        congrArg cType typedValue.symm
      have ran : runCommand fpu callees
          (.assign (.stack label.typeStackSize type) (.var (.stack types.length type))) given =
            .next (given.assign (.stack label.typeStackSize type) (cValue value)) := by
        rw [runCommand, runAssignment_var held typedTarget]
        rfl
      refine ⟨_, (reaches_command ran).weaken (Nat.zero_le 1), rfl, rfl, ?_⟩
      rw [height]
      exact CState.holds_push (holds.2.of_suffix suffix) typedValue

/-- The move of a result, followed by a `goto`. -/
theorem Moves.arrives {label : Label Scheme.applied} {types : List ValueType}
    {copy : Statements Scheme.applied} {landing : Landing} {base : List Value}
    {given : CState scope Rest} {frame : Frame scope Rest} {others : List ValueType}
    (moves : Moves label types copy)
    (lands : Lands program { label with used := true } landing) (suffix : landing.base <:+ base)
    (agree : Agree given frame base)
    (typed : frame.stack.map Value.type = label.carried.toList ++ others)
    (heights : types = others ++ base.map Value.type) :
    Arrives (execution fpu callees program) (copy ++ .goto label.name .done ++ next, given) landing
      frame := by
  rcases List.map_eq_append_iff.mp typed with ⟨own, stack, split, typedOwn, typedStack⟩
  have holds := agree.stack
  rw [split, List.append_assoc] at holds
  have length : types.length = (stack ++ base).length := below_length heights typedStack
  rcases @Moves.holds _ _ fpu callees program (.goto label.name .done ++ next) _ _ _ _ _ _ _ _
    moves lands.height (suffix.trans (List.suffix_append stack base)) holds
    typedOwn length with ⟨after, reaches, locals, world, held⟩
  have carried : label.carried = landing.carried := lands.carried
  have taken : (carry landing.carried frame).stack = own := by
    have count : landing.carried.toList.length = own.length := by
      rw [← carried, ← typedOwn, List.length_map]
    rw [carry, split, count, List.take_left]
  refine ⟨after, ?_, ⟨locals.trans agree.locals, world.trans agree.world, by rwa [taken]⟩, ?_⟩
  · rw [Code.append_assoc]
    exact (reaches.trans (reaches_goto after (lands.found rfl))).weaken (by omega)
  · rw [taken, typedOwn, carried]

/-- Code without labels, which a `switch` does not enter either. -/
structure Straight (code : Statements Scheme.applied) : Prop where
  labels : code.labels = []
  findCase : forall value next, (code ++ next).findCase value = next.findCase value
  findDefault : forall next, (code ++ next).findDefault = next.findDefault

theorem Moves.straight {label : Label Scheme.applied} {types : List ValueType}
    {copy : Statements Scheme.applied} (moves : Moves label types copy) (name : LabelName) :
    Straight (copy ++ .goto name .done) := by
  cases moves <;> exact ⟨rfl, fun _ _ => rfl, fun _ => rfl⟩

/-- Code that goes to the label at a depth, from frames with operands of these
types. -/
def Goes (fpu : FloatUnit) (callees : Callees scope.globalType Rest)
    (stack : List (Label Scheme.applied)) (own baseTypes : List ValueType) (depth : Nat)
    (code : Statements Scheme.applied) : Prop :=
  forall (program : Statements Scheme.applied) (landings : List Landing) (base : List Value)
    (given : CState scope Rest) (frame : Frame scope Rest),
    Placed program stack baseTypes landings base -> Agree given frame base ->
    frame.stack.map Value.type = own -> forall next, ∃ landing, landings[depth]? = some landing ∧
      Arrives (execution fpu callees program) (code ++ next, given) landing frame

theorem Goes.before {stack after : List (Label Scheme.applied)} {own baseTypes : List ValueType}
    {depth : Nat} {code : Statements Scheme.applied}
    (goes : Goes fpu callees stack own baseTypes depth code) (raised : Raised stack after) :
    Goes fpu callees after own baseTypes depth code :=
  fun _ _ _ _ _ placed agree typed next =>
    goes _ _ _ _ _ (placed.before raised) agree typed next

theorem writeGoto_spec (fpu : FloatUnit) (callees : Callees scope.globalType Rest) {var : LabelVar}
    {position : Nat} {state : WriterState Scheme.applied} {label : Label Scheme.applied}
    {others baseTypes : List ValueType} (found : state.findLabel var = some position)
    (entry : state.labelStack[position]? = some label) (name : gotoName var = label.name)
    (shape : state.typeStack = label.carried.toList ++ (others ++ baseTypes))
    (height : label.typeStackSize ≤ baseTypes.length) :
    ∃ code, writeGoto var state = some (code, state.markUsed position) ∧ Straight code ∧
      Goes fpu callees (state.markUsed position).labelStack (label.carried.toList ++ others)
        baseTypes position code := by
  have below : label.typeStackSize ≤ (others ++ baseTypes).length := by
    rw [List.length_append]
    omega
  rcases copyResult_moves shape below with ⟨copy, copied, moves⟩
  refine ⟨copy ++ .goto label.name .done, ?_, moves.straight _, ?_⟩
  · simp only [writeGoto, found, entry, copied, name, Option.bind_eq_bind, Option.bind_some]
  · intro program landings base given frame placed agree typed next
    have marked : (state.markUsed position).labelStack[position]? =
        some { label with used := true } := by
      rw [WriterState.markUsed, List.getElem?_modify_eq, entry]
      rfl
    rcases placed.getElem? marked with ⟨landing, target, lands, suffix⟩
    exact ⟨landing, target, moves.arrives lands suffix agree typed (by rw [placed.typed])⟩

/-- A branch of the body to one of the labels around it. -/
structure Branching (fpu : FloatUnit) (callees : Callees scope.globalType Rest)
    (own baseTypes : List ValueType) (depth : Nat) (state after : WriterState Scheme.applied)
    (code : Statements Scheme.applied) : Prop where
  types : after.typeStack = state.typeStack
  raised : Raised state.labelStack after.labelStack
  straight : Straight code
  goes : Goes fpu callees after.labelStack own baseTypes depth code

section Named

variable {names : List LabelName} {count : Nat} {labels : List (Option ValueType)}
  {carried : Option ValueType} {others baseTypes : List ValueType}
  (state : WriterState Scheme.applied)

theorem writeGoto_branching (fpu : FloatUnit) (callees : Callees scope.globalType Rest)
    {depth : Nat} (fits : Fits names count labels baseTypes.length state.labelStack)
    (target : labels[depth]? = some carried)
    (shape : state.typeStack = carried.toList ++ (others ++ baseTypes)) :
    ∃ code after, writeGoto (ApplyNames.useNameForVar names depth) state = some (code, after) ∧
      Branching fpu callees (carried.toList ++ others) baseTypes depth state after code := by
  rcases @Fits.findLabel _ _ _ _ _ state.typeStack _ _ fits target with
    ⟨label, entry, rfl, found, name⟩
  rcases writeGoto_spec fpu callees found entry name shape
    (fits.heights label (List.mem_of_getElem? entry)) with ⟨code, written, straight, goes⟩
  exact ⟨code, _, written, rfl, raised_modify _ _, straight, goes⟩

theorem writeReturn_branching (fpu : FloatUnit) (callees : Callees scope.globalType Rest)
    (fits : Fits names count labels baseTypes.length state.labelStack)
    (last : labels.getLast? = some carried)
    (shape : state.typeStack = carried.toList ++ (others ++ baseTypes)) :
    ∃ code after,
      writeGoto (.index (state.labelStack.length - 1)) state = some (code, after) ∧
      Branching fpu callees (carried.toList ++ others) baseTypes (labels.length - 1) state after
        code := by
  rw [← fits.carried, List.getLast?_map] at last
  rcases Option.map_eq_some_iff.mp last with ⟨label, isLast, rfl⟩
  rw [List.getLast?_eq_getElem?] at isLast
  have length : labels.length = state.labelStack.length := by
    rw [← fits.carried, List.length_map]
  have positive : 0 < state.labelStack.length := List.length_pos_of_ne_nil fits.nonempty
  have found : state.findLabel (.index (state.labelStack.length - 1)) =
      some (state.labelStack.length - 1) := if_pos (by omega)
  have name : LabelName.func = label.name := by
    have names := congrArg List.getLast? fits.named
    rw [List.getLast?_map, List.getLast?_eq_getElem?, isLast, List.getLast?_concat] at names
    exact (Option.some.inj names).symm
  rcases writeGoto_spec fpu callees found isLast name shape
    (fits.heights label (List.mem_of_getElem? isLast)) with ⟨code, written, straight, goes⟩
  rw [length]
  exact ⟨code, _, written, rfl, raised_modify _ _, straight, goes⟩

theorem select_straight {code next : Statements Scheme.applied} (straight : Straight code)
    (value : Nat) : (code ++ next).select value = next.select value := by
  rw [Code.select, Code.select, straight.findCase, straight.findDefault]

/-- The cases of a `br_table`: each goes to the target with its number, and
every other number to the default. -/
theorem writeCases_branching (fpu : FloatUnit) (callees : Callees scope.globalType Rest)
    {defaultTarget : Nat} (targets : List Nat) (number : Nat)
    (fits : Fits names count labels baseTypes.length state.labelStack)
    (all : forall depth, depth ∈ defaultTarget :: targets -> labels[depth]? = some carried)
    (shape : state.typeStack = carried.toList ++ (others ++ baseTypes)) :
    ∃ code after,
      writeCases (ApplyNames.useNameForVar names defaultTarget)
        (targets.map (ApplyNames.useNameForVar names)) number state = some (code, after) ∧
      after.typeStack = state.typeStack ∧ Raised state.labelStack after.labelStack ∧
      code.labels = [] ∧ forall value, number ≤ value -> ∃ goes tail,
        code.select value = some (goes ++ tail) ∧
          Goes fpu callees after.labelStack (carried.toList ++ others) baseTypes
            (targets.getD (value - number) defaultTarget) goes := by
  induction targets generalizing number state with
  | nil =>
      rcases writeGoto_branching state fpu callees fits (all defaultTarget List.mem_cons_self) shape
        with ⟨code, after, written, branching⟩
      refine ⟨.default code, after, ?_, branching.types, branching.raised,
        branching.straight.labels, fun value _ => ⟨code, .done, ?_, branching.goes⟩⟩
      · simp only [List.map_nil, writeCases, written, Option.bind_eq_bind, Option.bind_some]
      · have straight := branching.straight.findCase value .done
        rw [Code.append_done] at straight
        rw [Code.select, Code.findCase, straight, Code.append_done]
        rfl
  | cons target targets inductionHypothesis =>
      rcases writeGoto_branching state fpu callees fits
        (all target (List.mem_cons_of_mem _ List.mem_cons_self)) shape with
        ⟨code, middle, written, branching⟩
      rcases inductionHypothesis middle (number + 1) (fits.raised branching.raised)
        (fun depth member => all depth (by
          rcases List.mem_cons.mp member with rfl | other
          · exact List.mem_cons_self
          · exact List.mem_cons_of_mem _ (List.mem_cons_of_mem _ other)))
        (branching.types.trans shape) with
        ⟨rest, after, writtenRest, types, raised, labels, selects⟩
      refine ⟨.case number (code ++ rest), after, ?_, types.trans branching.types,
        branching.raised.trans raised, ?_, fun value enough => ?_⟩
      · simp only [List.map_cons, writeCases, written, writtenRest, Option.bind_eq_bind,
          Option.bind_some]
      · rw [Code.labels, Code.labels_append, branching.straight.labels, labels]
        rfl
      · by_cases here : number = value
        · subst here
          refine ⟨code, rest, ?_, ?_⟩
          · simp only [Code.select, Code.findCase, if_pos]
          · rw [Nat.sub_self]
            exact branching.goes.before raised
        · rcases selects value (by omega) with ⟨goes, tail, selected, isGoto⟩
          refine ⟨goes, tail, ?_, ?_⟩
          · have other :
                (Code.case number (code ++ rest) : Statements Scheme.applied).select value =
                  (code ++ rest).select value := by
              simp only [Code.select, Code.findCase, if_neg here, Code.findDefault]
            rw [other, select_straight branching.straight, selected]
          · have index : value - number = value - (number + 1) + 1 := by omega
            rw [index, List.getD_cons_succ]
            exact isGoto

end Named

end Branches

end CWriter
end WasmSandboxing
