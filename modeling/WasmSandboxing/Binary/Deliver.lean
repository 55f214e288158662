import WasmSandboxing.Binary.Sections

namespace WasmSandboxing
namespace Binary

open Foundation

/-!
# Delivering callbacks

A delegate with its state.  Its callbacks are delivered one after another up to
the first that fails; what it did by then stays done.
-/

/-- What a delegate makes of a callback: its state behind it, and why it fails
if it does. -/
abbrev Answer (State : Type) := Item -> State -> State × Option Failure

variable {State : Type}

def deliver (answer : Answer State) : List Item -> State -> State × Option Failure
  | [], state => (state, none)
  | item :: rest, state =>
      match answer item state with
      | (after, some failure) => (after, some failure)
      | (after, none) => deliver answer rest after

/-- The callbacks that do not fail, up to the first that does. -/
def delivered (answer : Answer State) : List Item -> State -> List Item
  | [], _state => []
  | item :: rest, state =>
      match answer item state with
      | (_, some _) => []
      | (after, none) => item :: delivered answer rest after

/-- `ReadBinary` with `stop_on_first_error`. -/
def readBinary (answer : Answer State) (start : ModuleReader) (state : State) :
    State × Option Failure :=
  match deliver answer (Read.readModule.run start).1 state with
  | (after, some failure) => (after, some failure)
  | (after, none) =>
      match (Read.readModule.run start).2 with
      | .error failure => (after, some failure)
      | .ok _ => (after, none)

variable {answer : Answer State} {state after : State} {failure : Failure}

theorem deliver_append {first : List Item} (second : List Item)
    (ran : deliver answer first state = (after, none)) :
    deliver answer (first ++ second) state = deliver answer second after := by
  induction first generalizing state with
  | nil =>
      cases ran
      rfl
  | cons item rest inductionHypothesis =>
      rw [deliver] at ran
      rw [List.cons_append, deliver]
      rcases answered : answer item state with ⟨next, _ | failed⟩
      · rw [answered] at ran
        exact inductionHypothesis ran
      · rw [answered] at ran
        cases ran

theorem deliver_one {first : List Item} {item : Item} {last : State}
    (ran : deliver answer first state = (after, none))
    (answered : answer item after = (last, none)) :
    deliver answer (first ++ [item]) state = (last, none) := by
  rw [deliver_append [item] ran, deliver, answered]
  rfl

/-- Where a delivery fails, those before did not. -/
theorem deliver_failed {items : List Item} (ran : deliver answer items state = (after, some failure)) :
    exists before item rest reached, items = before ++ item :: rest ∧
      deliver answer before state = (reached, none) ∧
      answer item reached = (after, some failure) := by
  induction items generalizing state with
  | nil => cases ran
  | cons item rest inductionHypothesis =>
      rw [deliver] at ran
      rcases answered : answer item state with ⟨next, _ | failed⟩
      · rw [answered] at ran
        rcases inductionHypothesis ran with ⟨before, failing, rest, reached, rfl, delivered, failed⟩
        refine ⟨item :: before, failing, rest, reached, rfl, ?_, failed⟩
        rw [deliver, answered]
        exact delivered
      · rw [answered] at ran
        cases ran
        exact ⟨[], item, rest, state, rfl, rfl, answered⟩

/-- What holds before and is kept by every callback that is allowed and does
not fail holds behind those delivered. -/
theorem deliver_keeps {allowed : List Item -> Item -> Prop}
    (invariant : List Item -> State -> Prop)
    (step : forall log item state next, allowed log item -> invariant log state ->
      answer item state = (next, none) -> invariant (log ++ [item]) next)
    {log items : List Item} (sequel : Emitting.Sequel allowed log items)
    (holds : invariant log state) (ran : deliver answer items state = (after, none)) :
    invariant (log ++ items) after := by
  induction items generalizing log state with
  | nil =>
      cases ran
      rw [List.append_nil]
      exact holds
  | cons item rest inductionHypothesis =>
      rw [deliver] at ran
      rcases answered : answer item state with ⟨next, _ | failed⟩
      · rw [answered] at ran
        have later := inductionHypothesis sequel.2 (step log item state next sequel.1 holds answered)
          ran
        rw [List.append_assoc] at later
        exact later
      · rw [answered] at ran
        cases ran

end Binary
end WasmSandboxing
