import Mathlib.Data.List.Forall2

namespace WasmSandboxing
namespace Foundation

/-!
# A state threaded through a list

Every item is treated in the state that the items before it have left, and gives
a result and the next state.
-/

variable {State : Type u} {Item : Type v} {Result : Type w}

def thread (step : State -> Item -> Result × State) : State -> List Item -> List Result × State
  | state, [] => ([], state)
  | state, item :: rest =>
      let (result, next) := step state item
      let (results, last) := thread step next rest
      (result :: results, last)

/-- Each item meets `holds` in the state that it is treated in. -/
def EachStage (step : State -> Item -> Result × State) (holds : State -> Item -> Prop) :
    State -> List Item -> Prop
  | _, [] => True
  | state, item :: rest =>
      holds state item ∧ EachStage step holds (step state item).2 rest

variable {step : State -> Item -> Result × State}

theorem thread_append (state : State) (first rest : List Item) :
    thread step state (first ++ rest) =
      ((thread step state first).1 ++ (thread step (thread step state first).2 rest).1,
        (thread step (thread step state first).2 rest).2) := by
  induction first generalizing state with
  | nil => rfl
  | cons item first inductionHypothesis =>
      have later := inductionHypothesis (step state item).2
      simp only [List.cons_append, thread, later]

/-- A state that every step lets grow has grown in the end. -/
theorem thread_grows {below : State -> State -> Prop} (refl : forall state, below state state)
    (trans : forall first second third, below first second -> below second third ->
      below first third) (grows : forall state item, below state (step state item).2)
    (state : State) (items : List Item) : below state (thread step state items).2 := by
  induction items generalizing state with
  | nil => exact refl state
  | cons item rest inductionHypothesis =>
      exact trans state _ _ (grows state item) (inductionHypothesis (step state item).2)

/-- Under an invariant, results that do not depend on the state are those of
the items alone. -/
theorem thread_eq_map {invariant : State -> Prop} {result : Item -> Result}
    (items : List Item) {state : State} (start : invariant state)
    (each : forall state item, invariant state -> item ∈ items ->
      (step state item).1 = result item ∧ invariant (step state item).2) :
    (thread step state items).1 = items.map result := by
  induction items generalizing state with
  | nil => rfl
  | cons item rest inductionHypothesis =>
      rcases each state item start List.mem_cons_self with ⟨same, next⟩
      have later := inductionHypothesis next fun state item holds isMember =>
        each state item holds (List.mem_cons_of_mem _ isMember)
      simp only [thread, List.map_cons, same, later]

/-- If the state grows, and a result is right in a state that has grown from the
one behind its item exactly when the item meets a condition, then all results
are right in the end exactly when each item meets it. -/
theorem forall₂_thread_iff (below : State -> State -> Prop) (refl : forall state, below state state)
    (trans : forall first second third, below first second -> below second third ->
      below first third) (grows : forall state item, below state (step state item).2)
    {final : State} {results : List Result} {right : Item -> Result -> Prop}
    {holds : State -> Item -> Prop}
    (exactly : forall state item, below (step state item).2 final ->
      (step state item).1 ∈ results -> (right item (step state item).1 ↔ holds state item))
    {state : State} {items : List Item} (ended : (thread step state items).2 = final)
    (among : forall result, result ∈ (thread step state items).1 -> result ∈ results) :
    List.Forall₂ right items (thread step state items).1 ↔ EachStage step holds state items := by
  induction items generalizing state with
  | nil => exact iff_of_true .nil trivial
  | cons item rest inductionHypothesis =>
      have later : below (step state item).2 final :=
        ended ▸ thread_grows refl trans grows (step state item).2 rest
      have first := exactly state item later (among _ List.mem_cons_self)
      exact List.forall₂_cons.trans (and_congr first
        (inductionHypothesis ended fun result isMember =>
          among result (List.mem_cons_of_mem _ isMember)))

end Foundation
end WasmSandboxing
