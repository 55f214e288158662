import WasmSandboxing.Text.ExprVisitor

namespace WasmSandboxing
namespace Text
namespace Visit

/-!
# Rules for visits

A visit meets a specification that says of the states it is begun in when it
succeeds, what it makes of the visited part then, and how it moves the state.
Nothing is said of what a visit that fails leaves.
-/

variable {State Part Next Result Item : Type}

/-- `Result::Ok` -/
def done (item : Item) : Visit State Item := fun state => (true, item, state)

/-- `Result::Error` -/
def fail (item : Item) : Visit State Item := fun state => (false, item, state)

/-- A loop over the items, which ends at the first that fails. -/
def each (visit : Item -> Visit State Item) : List Item -> Visit State (List Item)
  | [] => done []
  | item :: rest => ((visit item).check rest (each visit rest)).map fun (item, rest) => item :: rest

/-- Begun where it may be, the visit succeeds if and only if it is good to, and
then the part is as it should be, and the state is moved. -/
def Meets (enter : State -> Prop) (move : State -> State) (good : Prop) (post : Part -> Prop)
    (visit : Visit State Part) : Prop :=
  forall state, enter state -> ∃ ok part last, visit state = (ok, part, last) ∧
    (ok = true ↔ good) ∧ (ok = true -> post part ∧ last = move state)

namespace Meets

variable {enter enterNext : State -> Prop} {move moveNext : State -> State} {good goodNext : Prop}
  {post : Part -> Prop} {postNext : Next -> Prop} {visit : Visit State Part}
  {next : Visit State Next}

theorem congr (meets : Meets enter move good post visit) {better : Prop} (same : good ↔ better) :
    Meets enter move better post visit := by
  intro state begun
  rcases meets state begun with ⟨ok, part, last, visited, succeeds, leaves⟩
  exact ⟨ok, part, last, visited, succeeds.trans same, leaves⟩

theorem weaken (meets : Meets enter move good post visit) {weaker : Part -> Prop}
    (keeps : forall part, post part -> weaker part) : Meets enter move good weaker visit := by
  intro state begun
  rcases meets state begun with ⟨ok, part, last, visited, succeeds, leaves⟩
  exact ⟨ok, part, last, visited, succeeds, fun isOk => (leaves isOk).imp_left (keeps part)⟩

/-- What holds of the part however the visit ends. -/
theorem always (meets : Meets enter move good post visit) {extra : Part -> Prop}
    (holds : forall state, extra (visit state).2.1) :
    Meets enter move good (fun part => post part ∧ extra part) visit := by
  intro state begun
  rcases meets state begun with ⟨ok, part, last, visited, succeeds, leaves⟩
  have kept := holds state
  rw [visited] at kept
  exact ⟨ok, part, last, visited, succeeds, fun isOk =>
    (leaves isOk).imp_left fun posted => ⟨posted, kept⟩⟩

theorem restrict (meets : Meets enter move good post visit) {ready : State -> Prop}
    (enters : forall state, ready state -> enter state) : Meets ready move good post visit :=
  fun state begun => meets state (enters state begun)

theorem moves (meets : Meets enter move good post visit) (other : State -> State)
    (same : forall state, enter state -> move state = other state) :
    Meets enter other good post visit := by
  intro state begun
  rcases meets state begun with ⟨ok, part, last, visited, succeeds, leaves⟩
  exact ⟨ok, part, last, visited, succeeds, fun isOk =>
    (leaves isOk).imp_right fun moved => moved.trans (same state begun)⟩

theorem done {part : Part} (holds : post part) (isGood : good) :
    Meets enter id good post (Visit.done part) :=
  fun state _ => ⟨true, part, state, rfl, iff_of_true rfl isGood, fun _ => ⟨holds, rfl⟩⟩

/-- Where a visit only fails, whatever it leaves. -/
theorem failed (isBad : ¬good) (fails : forall state, enter state -> (visit state).1 = false) :
    Meets enter move good post visit := by
  intro state begun
  have failed := fails state begun
  exact ⟨_, _, _, rfl, iff_of_false (by simp [failed]) isBad, fun ok => by simp [failed] at ok⟩

theorem map (meets : Meets enter move good post visit) {change : Part -> Result}
    {changed : Result -> Prop} (keeps : forall part, post part -> changed (change part)) :
    Meets enter move good changed (visit.map change) := by
  intro state begun
  rcases meets state begun with ⟨ok, part, last, visited, succeeds, leaves⟩
  exact ⟨ok, change part, last, map_of visited, succeeds, fun isOk =>
    (leaves isOk).imp_left (keeps part)⟩

theorem check (first : Meets enter move good post visit)
    (second : Meets enterNext moveNext goodNext postNext next)
    (enters : forall state, enter state -> enterNext (move state)) (unvisited : Next) :
    Meets enter (moveNext ∘ move) (good ∧ goodNext)
      (fun parts => post parts.1 ∧ postNext parts.2) (visit.check unvisited next) := by
  intro state begun
  rcases first state begun with ⟨ok, part, middle, visited, succeeds, leaves⟩
  cases ok with
  | false =>
      refine ⟨false, (part, unvisited), middle, by simp only [Visit.check, visited],
        iff_of_false (by simp) fun both => ?_, fun impossible => by simp at impossible⟩
      exact Bool.false_ne_true (succeeds.mpr both.1)
  | true =>
      rcases leaves rfl with ⟨holds, moved⟩
      rcases second middle (moved ▸ enters state begun) with
        ⟨ok, later, last, nextVisited, nextSucceeds, nextLeaves⟩
      refine ⟨ok, (part, later), last, check_of visited nextVisited,
        nextSucceeds.trans (and_iff_right (succeeds.mp rfl)).symm, fun isOk => ?_⟩
      rcases nextLeaves isOk with ⟨nextHolds, nextMoved⟩
      exact ⟨⟨holds, nextHolds⟩, by rw [nextMoved, moved, Function.comp_apply]⟩

/-- The rule for a loop, from one for its body. -/
theorem each {visit : Item -> Visit State Item} {good : Item -> Prop}
    {post : Item -> Item -> Prop} {items : List Item}
    (one : forall item, item ∈ items -> Meets enter id (good item) (post item) (visit item)) :
    Meets enter id (forall item, item ∈ items -> good item) (List.Forall₂ post items)
      (Visit.each visit items) := by
  induction items with
  | nil => exact done .nil (by simp)
  | cons item rest inductionHypothesis =>
      have others := inductionHypothesis fun other isMember =>
        one other (List.mem_cons_of_mem _ isMember)
      have both := (one item List.mem_cons_self).check others (fun _ begun => begun) rest
      exact (both.map fun parts holds => .cons holds.1 holds.2).congr List.forall_mem_cons.symm

/-- A visit that is another one in a state that has been moved. -/
theorem entered {inner visit : Visit State Part} (meets : Meets enterNext moveNext good post inner)
    (move : State -> State)
    (enters : forall state, enter state -> enterNext (move state))
    (same : forall state, enter state -> visit state = inner (move state)) :
    Meets enter (moveNext ∘ move) good post visit := by
  intro state begun
  rcases meets (move state) (enters state begun) with ⟨ok, part, last, visited, rest⟩
  exact ⟨ok, part, last, (same state begun).trans visited, rest⟩

end Meets

end Visit
end Text
end WasmSandboxing
