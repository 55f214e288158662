import Mathlib.Init

namespace WasmSandboxing
namespace Foundation

/-!
# Traced computations

A traced computation runs on a state, may end in a fault, and records every
access it makes on the way.  The record is kept when the computation faults:
a safety statement is about everything that was touched, not only about runs
that return.

`Traced.Triple` is the corresponding logic.  It bounds the recorded accesses
by a predicate and gives a postcondition to the runs that return a value.  The
rules below are the usual ones for sequencing, branching and consequence.
-/

/-- How a computation ends: with a result, or with the reason it stopped. -/
inductive Outcome (Fault : Type u) (Result : Type v) where
  | value (result : Result)
  | fault (reason : Fault)
  deriving DecidableEq, Repr

/-- One finished run: its outcome, the state it leaves and what it accessed,
in order. -/
structure Execution (State : Type u) (Access : Type v) (Fault : Type w) (Result : Type x) where
  outcome : Outcome Fault Result
  state : State
  accesses : List Access

/-- A computation over `State` that records its accesses. -/
def Traced (State : Type u) (Access : Type v) (Fault : Type w) (Result : Type x) :=
  State -> Execution State Access Fault Result

variable {State : Type u} {Access : Type v} {Fault : Type w}

/-- Continue a run that returned; the accesses of the continuation come after
those already made.  A fault ends the whole run. -/
def Execution.andThen (before : Execution State Access Fault A)
    (next : A -> Traced State Access Fault B) : Execution State Access Fault B :=
  match before.outcome with
  | .fault reason => ⟨.fault reason, before.state, before.accesses⟩
  | .value result =>
      let after := next result before.state
      ⟨after.outcome, after.state, before.accesses ++ after.accesses⟩

namespace Traced

protected def pure (result : Result) : Traced State Access Fault Result :=
  fun state => ⟨.value result, state, []⟩

protected def bind (first : Traced State Access Fault A)
    (next : A -> Traced State Access Fault B) : Traced State Access Fault B :=
  fun state => (first state).andThen next

instance : Monad (Traced State Access Fault) where
  pure := Traced.pure
  bind := Traced.bind

/-- Stop without touching anything. -/
def fail (reason : Fault) : Traced State Access Fault Result :=
  fun state => ⟨.fault reason, state, []⟩

/-- Record one access. -/
def access (item : Access) : Traced State Access Fault Unit :=
  fun state => ⟨.value (), state, [item]⟩

/-- Inspect the state. -/
def inspect (view : State -> Result) : Traced State Access Fault Result :=
  fun state => ⟨.value (view state), state, []⟩

/-- Replace the state. -/
def update (change : State -> State) : Traced State Access Fault Unit :=
  fun state => ⟨.value (), change state, []⟩

@[simp] theorem pure_apply (result : Result) (state : State) :
    (pure result : Traced State Access Fault Result) state = ⟨.value result, state, []⟩ := rfl

@[simp] theorem fail_apply (reason : Fault) (state : State) :
    (fail reason : Traced State Access Fault Result) state = ⟨.fault reason, state, []⟩ := rfl

@[simp] theorem access_apply (item : Access) (state : State) :
    (access item : Traced State Access Fault Unit) state = ⟨.value (), state, [item]⟩ := rfl

@[simp] theorem inspect_apply (view : State -> Result) (state : State) :
    (inspect view : Traced State Access Fault Result) state =
      ⟨.value (view state), state, []⟩ := rfl

@[simp] theorem update_apply (change : State -> State) (state : State) :
    (update change : Traced State Access Fault Unit) state =
      ⟨.value (), change state, []⟩ := rfl

@[simp] theorem bind_apply (first : Traced State Access Fault A)
    (next : A -> Traced State Access Fault B) (state : State) :
    (first >>= next) state = (first state).andThen next := rfl

@[simp] theorem andThen_value (result : A) (state : State) (accesses : List Access)
    (next : A -> Traced State Access Fault B) :
    Execution.andThen ⟨.value result, state, accesses⟩ next =
      ⟨(next result state).outcome, (next result state).state,
        accesses ++ (next result state).accesses⟩ := rfl

@[simp] theorem andThen_fault (reason : Fault) (state : State) (accesses : List Access)
    (next : A -> Traced State Access Fault B) :
    Execution.andThen ⟨.fault reason, state, accesses⟩ next =
      ⟨.fault reason, state, accesses⟩ := rfl

theorem andThen_value_nil (result : A) (state : State)
    (next : A -> Traced State Access Fault B) :
    Execution.andThen ⟨.value result, state, []⟩ next = next result state := rfl

theorem andThen_of_value {run : Execution State Access Fault A} {result : A}
    (returned : run.outcome = .value result) (next : A -> Traced State Access Fault B) :
    run.andThen next =
      ⟨(next result run.state).outcome, (next result run.state).state,
        run.accesses ++ (next result run.state).accesses⟩ := by
  rw [Execution.andThen, returned]

theorem andThen_assoc (before : Execution State Access Fault A)
    (first : A -> Traced State Access Fault B) (second : B -> Traced State Access Fault C) :
    (before.andThen first).andThen second =
      before.andThen fun result state => (first result state).andThen second := by
  rcases before with ⟨result | reason, state, accesses⟩
  · rcases ran : first result state with ⟨next | reason, left, more⟩
    · simp [Execution.andThen, ran]
    · simp [Execution.andThen, ran]
  · rfl

theorem bind_assoc (first : Traced State Access Fault A) (second : A -> Traced State Access Fault B)
    (third : B -> Traced State Access Fault C) :
    first >>= second >>= third = first >>= fun result => second result >>= third := by
  funext state
  exact andThen_assoc (first state) second third

@[simp] theorem pure_bind (result : A) (next : A -> Traced State Access Fault B) :
    (pure result : Traced State Access Fault A) >>= next = next result := rfl

/-! ## Runs that return -/

/-- The run from `state` returns and leaves `after`, whatever it accesses. -/
def Returns (computation : Traced State Access Fault Result) (state : State) (result : Result)
    (after : State) : Prop :=
  ∃ accesses, computation state = ⟨.value result, after, accesses⟩

theorem Returns.pure (result : Result) (state : State) :
    Returns (pure result : Traced State Access Fault Result) state result state :=
  ⟨[], rfl⟩

theorem Returns.bind {first : Traced State Access Fault A} {next : A -> Traced State Access Fault B}
    {state middle after : State} {result : A} {final : B}
    (returns : Returns first state result middle)
    (continues : Returns (next result) middle final after) :
    Returns (first >>= next) state final after := by
  rcases returns with ⟨accesses, ran⟩
  rcases continues with ⟨later, continued⟩
  exact ⟨accesses ++ later, by rw [bind_apply, ran, andThen_value, continued]⟩

/-- A sequence returns only through its first part. -/
theorem Returns.of_bind {first : Traced State Access Fault A}
    {next : A -> Traced State Access Fault B} {state after : State} {final : B}
    (returns : Returns (first >>= next) state final after) : ∃ result middle,
    Returns first state result middle ∧ Returns (next result) middle final after := by
  rcases returns with ⟨accesses, ran⟩
  rw [bind_apply] at ran
  rcases began : first state with ⟨result | reason, middle, before⟩
  · rw [began, andThen_value] at ran
    injection ran with outcome left _
    exact ⟨result, middle, ⟨before, began⟩, ⟨(next result middle).accesses, by
      rw [← outcome, ← left]⟩⟩
  · rw [began, andThen_fault] at ran
    cases ran

/-- Behind a part that returns, the rest decides. -/
theorem Returns.outcome_bind {first : Traced State Access Fault A}
    {next : A -> Traced State Access Fault B} {state middle : State} {result : A}
    (returns : Returns first state result middle) :
    ((first >>= next) state).outcome = (next result middle).outcome := by
  rcases returns with ⟨accesses, ran⟩
  rw [bind_apply, ran, andThen_value]

theorem outcome_bind_fault {first : Traced State Access Fault A}
    (next : A -> Traced State Access Fault B) {state : State} {reason : Fault}
    (stopped : (first state).outcome = .fault reason) :
    ((first >>= next) state).outcome = .fault reason := by
  rw [bind_apply, Execution.andThen, stopped]

theorem Returns.unique {computation : Traced State Access Fault Result} {state : State}
    {first second : Result} {after left : State} (returns : Returns computation state first after)
    (returns' : Returns computation state second left) : first = second ∧ after = left := by
  rcases returns with ⟨_, ran⟩
  rcases returns' with ⟨_, ran'⟩
  injection ran.symm.trans ran' with outcome same _
  exact ⟨Outcome.value.inj outcome, same⟩

/-! ## The accesses of one run -/

/-- Every access of the run from `state` satisfies `safe`. -/
def Safe (safe : Access -> Prop) (computation : Traced State Access Fault Result)
    (state : State) : Prop :=
  forall item, item ∈ (computation state).accesses -> safe item

/-- From every state satisfying `pre`, all recorded accesses are `safe`, and a
returned result satisfies `post` in the state the run leaves. -/
def Triple (pre : State -> Prop) (computation : Traced State Access Fault Result)
    (safe : Access -> Prop) (post : Result -> State -> Prop) : Prop :=
  forall state, pre state ->
    (forall item, item ∈ (computation state).accesses -> safe item) ∧
      forall result, (computation state).outcome = .value result ->
        post result (computation state).state

variable {pre : State -> Prop} {safe : Access -> Prop}

theorem Triple.pure {post : Result -> State -> Prop} (result : Result)
    (holds : forall state, pre state -> post result state) :
    Triple pre (pure result : Traced State Access Fault Result) safe post := by
  intro state before
  refine ⟨fun item member => absurd member List.not_mem_nil, fun value returned => ?_⟩
  cases returned
  exact holds state before

theorem Triple.fail {post : Result -> State -> Prop} (reason : Fault) :
    Triple pre (Traced.fail reason : Traced State Access Fault Result) safe post := by
  intro state _before
  refine ⟨fun item member => absurd member List.not_mem_nil, fun value returned => ?_⟩
  cases returned

theorem Triple.access {post : Unit -> State -> Prop} (item : Access) (allowed : safe item)
    (holds : forall state, pre state -> post () state) :
    Triple pre (Traced.access item : Traced State Access Fault Unit) safe post := by
  intro state before
  refine ⟨fun other member => ?_, fun _value _returned => holds state before⟩
  rw [List.mem_singleton.mp member]
  exact allowed

theorem Triple.inspect {post : Result -> State -> Prop} (view : State -> Result)
    (holds : forall state, pre state -> post (view state) state) :
    Triple pre (Traced.inspect view : Traced State Access Fault Result) safe post := by
  intro state before
  refine ⟨fun item member => absurd member List.not_mem_nil, fun value returned => ?_⟩
  cases returned
  exact holds state before

theorem Triple.update {post : Unit -> State -> Prop} (change : State -> State)
    (holds : forall state, pre state -> post () (change state)) :
    Triple pre (Traced.update change : Traced State Access Fault Unit) safe post := by
  intro state before
  exact ⟨fun item member => absurd member List.not_mem_nil,
    fun _value _returned => holds state before⟩

/-- Sequencing: the middle assertion describes the states in which the first
part returns. -/
theorem Triple.bind {first : Traced State Access Fault A}
    {next : A -> Traced State Access Fault B}
    {middle : A -> State -> Prop} {post : B -> State -> Prop}
    (firstHolds : Triple pre first safe middle)
    (nextHolds : forall result, Triple (middle result) (next result) safe post) :
    Triple pre (first >>= next) safe post := by
  intro state before
  have firstHere := firstHolds state before
  rw [bind_apply]
  generalize first state = execution at firstHere ⊢
  rcases execution with ⟨result | reason, left, accesses⟩
  · rw [andThen_value]
    rcases nextHolds result left (firstHere.2 result rfl) with ⟨nextSafe, nextPost⟩
    refine ⟨fun item member => ?_, nextPost⟩
    rcases List.mem_append.mp member with earlier | later
    · exact firstHere.1 item earlier
    · exact nextSafe item later
  · rw [andThen_fault]
    exact ⟨firstHere.1, fun value returned => by cases returned⟩

theorem Triple.consequence {pre' : State -> Prop} {safe' : Access -> Prop}
    {computation : Traced State Access Fault Result} {post post' : Result -> State -> Prop}
    (holds : Triple pre computation safe post)
    (weakenPre : forall state, pre' state -> pre state)
    (weakenSafe : forall item, safe item -> safe' item)
    (weakenPost : forall result state, post result state -> post' result state) :
    Triple pre' computation safe' post' := by
  intro state before
  rcases holds state (weakenPre state before) with ⟨accessesSafe, returns⟩
  exact ⟨fun item member => weakenSafe item (accessesSafe item member),
    fun result returned => weakenPost result _ (returns result returned)⟩

theorem Triple.ite {condition : Prop} [Decidable condition]
    {yes no : Traced State Access Fault Result} {post : Result -> State -> Prop}
    (whenTrue : condition -> Triple pre yes safe post)
    (whenFalse : ¬ condition -> Triple pre no safe post) :
    Triple pre (if condition then yes else no) safe post := by
  by_cases decided : condition
  · rw [if_pos decided]
    exact whenTrue decided
  · rw [if_neg decided]
    exact whenFalse decided

/-- A guard that only inspects the state is available to both branches. -/
theorem Triple.assume {fact : Prop} {computation : Traced State Access Fault Result}
    {post : Result -> State -> Prop} (known : forall state, pre state -> fact)
    (holds : fact -> Triple pre computation safe post) :
    Triple pre computation safe post :=
  fun state before => holds (known state before) state before

end Traced

end Foundation
end WasmSandboxing
