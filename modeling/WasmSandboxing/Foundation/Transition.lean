import Mathlib.Init

namespace WasmSandboxing
namespace Foundation

/-!
# Transition systems

A system takes steps that are labelled by events.  An event determines its
step, so that a run is the list of its events, and an interleaving of several
parties is a run whose events name the party that acts.
-/

/-- A system by its step function; an event that cannot happen has no step. -/
structure System (State : Type u) (Event : Type v) where
  step : State -> Event -> Option State

namespace System

variable {State : Type u} {Event : Type v} (system : System State Event)

/-- The state after a list of events, all of which must be able to happen. -/
def run : State -> List Event -> Option State
  | state, [] => some state
  | state, event :: rest =>
      match system.step state event with
      | some next => run next rest
      | none => none

theorem run_cons {state next : State} {event : Event} (rest : List Event)
    (stepped : system.step state event = some next) :
    system.run state (event :: rest) = system.run next rest := by
  rw [run, stepped]

theorem run_append (state : State) (first rest : List Event) :
    system.run state (first ++ rest) =
      (system.run state first).bind fun next => system.run next rest := by
  induction first generalizing state with
  | nil => rfl
  | cons event later inductionHypothesis =>
      rw [List.cons_append, run, run]
      split
      · exact inductionHypothesis _
      · rfl

/-- `property` holds in every state of a run, its first one included.  An event
that cannot happen ends the run. -/
def Always (property : State -> Prop) : State -> List Event -> Prop
  | state, [] => property state
  | state, event :: rest =>
      property state ∧ forall next, system.step state event = some next ->
        Always property next rest

/-- Every step of a run satisfies `permitted` in the state before it. -/
def EachStep (permitted : State -> Event -> Prop) : State -> List Event -> Prop
  | _, [] => True
  | state, event :: rest =>
      forall next, system.step state event = some next ->
        permitted state event ∧ EachStep permitted next rest

variable {system} {property invariant : State -> Prop} {permitted : State -> Event -> Prop}

theorem Always.start {state : State} {events : List Event}
    (always : system.Always property state events) : property state := by
  cases events with
  | nil => exact always
  | cons event rest => exact always.1

/-- What holds in every state of a run holds where it ends. -/
theorem Always.final {state last : State} {events : List Event}
    (always : system.Always property state events) (ran : system.run state events = some last) :
    property last := by
  induction events generalizing state with
  | nil =>
      cases ran
      exact always
  | cons event rest inductionHypothesis =>
      unfold run at ran
      split at ran
      · rename_i next stepped
        exact inductionHypothesis (always.2 next stepped) ran
      · cases ran

/-- An invariant that every permitted step preserves holds in every state of a
run of permitted steps. -/
theorem always_of_eachStep
    (preserved : forall state event next, invariant state -> permitted state event ->
      system.step state event = some next -> invariant next)
    (implies : forall state, invariant state -> property state) {state : State}
    {events : List Event} (start : invariant state)
    (each : system.EachStep permitted state events) : system.Always property state events := by
  induction events generalizing state with
  | nil => exact implies state start
  | cons event rest inductionHypothesis =>
      refine ⟨implies state start, fun next stepped => ?_⟩
      rcases each next stepped with ⟨allowed, later⟩
      exact inductionHypothesis (preserved state event next start allowed stepped) later

theorem eachStep_true (state : State) (events : List Event) :
    system.EachStep (fun _state _event => True) state events := by
  induction events generalizing state with
  | nil => trivial
  | cons event rest inductionHypothesis =>
      exact fun next _stepped => ⟨trivial, inductionHypothesis next⟩

/-- An invariant that every step preserves holds where a run ends. -/
theorem run_invariant
    (preserved : forall state event next, invariant state ->
      system.step state event = some next -> invariant next)
    {state last : State} {events : List Event} (start : invariant state)
    (ran : system.run state events = some last) : invariant last :=
  (always_of_eachStep
    (fun state event next holds _any => preserved state event next holds)
    (fun _state holds => holds) start (eachStep_true state events)).final ran

/-- If every step preserves an invariant, and under it a step is permitted
exactly when it leads to a state with the property, then a run has the property
throughout exactly when each of its steps is permitted. -/
theorem always_iff_eachStep
    (preserved : forall state event next, invariant state ->
      system.step state event = some next -> invariant next)
    (exactly : forall state event next, invariant state -> property state ->
      system.step state event = some next -> (property next ↔ permitted state event))
    {state : State} {events : List Event} (start : invariant state) (holds : property state) :
    system.Always property state events ↔ system.EachStep permitted state events := by
  induction events generalizing state with
  | nil => exact iff_of_true holds trivial
  | cons event rest inductionHypothesis =>
      refine (and_iff_right holds).trans (forall_congr' fun next => forall_congr' fun stepped => ?_)
      have next_invariant := preserved state event next start stepped
      have decides := exactly state event next start holds stepped
      constructor
      · intro always
        exact ⟨decides.mp always.start,
          (inductionHypothesis next_invariant always.start).mp always⟩
      · rintro ⟨allowed, later⟩
        exact (inductionHypothesis next_invariant (decides.mpr allowed)).mpr later

/-- Properties that agree under an invariant hold throughout the same runs. -/
theorem always_congr {other : State -> Prop}
    (preserved : forall state event next, invariant state ->
      system.step state event = some next -> invariant next)
    (agree : forall state, invariant state -> (property state ↔ other state)) {state : State}
    {events : List Event} (start : invariant state) :
    system.Always property state events ↔ system.Always other state events := by
  induction events generalizing state with
  | nil => exact agree state start
  | cons event rest inductionHypothesis =>
      exact and_congr (agree state start) (forall_congr' fun next => forall_congr' fun stepped =>
        inductionHypothesis (preserved state event next start stepped))

/-! ## Runs that do not stop -/

/-- Every event of a list is permitted in the state that it comes to. -/
def Allowed (system : System State Event) (permitted : State -> Event -> Prop) :
    State -> List Event -> Prop
  | _, [] => True
  | state, event :: rest =>
      permitted state event ∧ forall next, system.step state event = some next ->
        Allowed system permitted next rest

/-- Every event of a list happens, and its step is one of `does`. -/
def EachDoes (system : System State Event) (does : State -> Event -> State -> Prop) :
    State -> List Event -> Prop
  | _, [] => True
  | state, event :: rest => ∃ next, system.step state event = some next ∧
      does state event next ∧ EachDoes system does next rest

/-- Under an invariant that their steps preserve, permitted events happen. -/
theorem eachDoes_of_allowed {does : State -> Event -> State -> Prop}
    (happens : forall state event, invariant state -> permitted state event ->
      ∃ next, system.step state event = some next ∧ does state event next ∧ invariant next)
    {state : State} {events : List Event} (start : invariant state)
    (allowed : system.Allowed permitted state events) : system.EachDoes does state events := by
  induction events generalizing state with
  | nil => trivial
  | cons event rest inductionHypothesis =>
      rcases happens state event start allowed.1 with ⟨next, stepped, done, holds⟩
      exact ⟨next, stepped, done, inductionHypothesis holds (allowed.2 next stepped)⟩

/-- Where every step of another system is matched by one of `does`, so are its runs. -/
theorem run_of_matched {Abstract : Type w} {other : System Abstract Event}
    {represents : Abstract -> State -> Prop} {does : State -> Event -> State -> Prop}
    (matched : forall abstract state event abstractNext, represents abstract state ->
      other.step abstract event = some abstractNext ->
        ∃ next, system.step state event = some next ∧ does state event next ∧
          represents abstractNext next)
    {abstract abstractLast : Abstract} {state : State} {events : List Event}
    (start : represents abstract state) (ran : other.run abstract events = some abstractLast) :
    ∃ last, system.run state events = some last ∧ system.EachDoes does state events ∧
      represents abstractLast last := by
  induction events generalizing abstract state with
  | nil =>
      cases ran
      exact ⟨state, rfl, trivial, start⟩
  | cons event rest inductionHypothesis =>
      unfold run at ran
      split at ran
      · rename_i between first
        rcases matched abstract state event between start first with
          ⟨next, stepped, done, related⟩
        rcases inductionHypothesis related ran with ⟨last, later, each, final⟩
        exact ⟨last, (run_cons system rest stepped).trans later, ⟨next, stepped, done, each⟩, final⟩
      · cases ran

end System

/-! ## Refinement -/

/-- What a labelled relation can reach by a list of events. -/
def Reaches {State : Type u} {Event : Type v} (step : State -> Event -> State -> Prop) :
    State -> List Event -> State -> Prop
  | state, [], last => state = last
  | state, event :: rest, last => ∃ next, step state event next ∧ Reaches step next rest last

theorem Reaches.single {State : Type u} {Event : Type v} {step : State -> Event -> State -> Prop}
    {state next : State} {event : Event} (stepped : step state event next) :
    Reaches step state [event] next :=
  ⟨next, stepped, rfl⟩

theorem Reaches.weaken {State : Type u} {Event : Type v}
    {step weaker : State -> Event -> State -> Prop} {events : List Event} {state last : State}
    (reached : Reaches step state events last)
    (weakens : forall state event next, step state event next -> weaker state event next) :
    Reaches weaker state events last := by
  induction events generalizing state with
  | nil => exact reached
  | cons event events inductionHypothesis =>
      rcases reached with ⟨next, stepped, reached⟩
      exact ⟨next, weakens state event next stepped, inductionHypothesis reached⟩

theorem Reaches.append {State : Type u} {Event : Type v} {step : State -> Event -> State -> Prop}
    {first rest : List Event} {state middle last : State} (reached : Reaches step state first middle)
    (later : Reaches step middle rest last) : Reaches step state (first ++ rest) last := by
  induction first generalizing state with
  | nil =>
      cases reached
      exact later
  | cons event events inductionHypothesis =>
      rcases reached with ⟨next, stepped, reached⟩
      exact ⟨next, stepped, inductionHypothesis reached⟩

/-- A system whose every step is one of the abstract relation has only runs that
are abstract ones as well. -/
theorem System.reaches_of_run {State : Type u} {Abstract : Type w} {Event : Type v}
    {system : System State Event} {step : Abstract -> Event -> Abstract -> Prop}
    {represents : Abstract -> State -> Prop}
    (simulates : forall abstract state event next, represents abstract state ->
      system.step state event = some next ->
        ∃ abstractNext, step abstract event abstractNext ∧ represents abstractNext next)
    {abstract : Abstract} {state last : State} {events : List Event}
    (start : represents abstract state) (ran : system.run state events = some last) :
    ∃ abstractLast, Reaches step abstract events abstractLast ∧ represents abstractLast last := by
  induction events generalizing abstract state with
  | nil =>
      cases ran
      exact ⟨abstract, rfl, start⟩
  | cons event rest inductionHypothesis =>
      unfold System.run at ran
      split at ran
      · rename_i next stepped
        rcases simulates abstract state event next start stepped with ⟨between, first, related⟩
        rcases inductionHypothesis related ran with ⟨abstractLast, later, final⟩
        exact ⟨abstractLast, ⟨between, first, later⟩, final⟩
      · cases ran

/-- A system with a bound on its loops runs as a relation does whose every step it
takes where the bound is large enough. -/
theorem System.run_of_reaches {State : Type u} {Abstract : Type w} {Event : Type v}
    {system : Nat -> System State Event} {step : Abstract -> Event -> Abstract -> Prop}
    {represents : Abstract -> State -> Prop}
    (matched : forall abstract state event abstractNext, represents abstract state ->
      step abstract event abstractNext ->
        ∃ next enough, (forall more, (system (enough + more)).step state event = some next) ∧
          represents abstractNext next)
    {abstract abstractLast : Abstract} {state : State} {events : List Event}
    (start : represents abstract state) (reached : Reaches step abstract events abstractLast) :
    ∃ last enough, (forall more, (system (enough + more)).run state events = some last) ∧
      represents abstractLast last := by
  induction events generalizing abstract state with
  | nil =>
      cases reached
      exact ⟨state, 0, fun _ => rfl, start⟩
  | cons event rest inductionHypothesis =>
      rcases reached with ⟨between, first, later⟩
      rcases matched abstract state event between start first with ⟨next, enough, stepped, related⟩
      rcases inductionHypothesis related later with ⟨last, enoughLater, ran, final⟩
      refine ⟨last, enough + enoughLater, fun more => ?_, final⟩
      have happens := stepped (enoughLater + more)
      rw [← Nat.add_assoc] at happens
      have continues := ran (enough + more)
      rw [← Nat.add_assoc, Nat.add_comm enoughLater enough] at continues
      rw [run_cons _ rest happens, continues]

end Foundation
end WasmSandboxing
