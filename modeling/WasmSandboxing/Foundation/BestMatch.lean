import Mathlib.Data.List.Basic

namespace WasmSandboxing
namespace Foundation

/-!
# The best match

A loop over candidates that keeps the first one of the highest score, and counts
how many have that score.  Candidates may have no score, and a score of zero is
as good as none.
-/

/-- The variables of the loop. -/
structure Best where
  index : Option Nat
  score : Nat
  count : Nat
  deriving DecidableEq, Repr

namespace Best

/-- One iteration. -/
def compare (best : Best) (index : Nat) : Option Nat -> Best
  | none => best
  | some score =>
      if best.score < score then ⟨some index, score, 1⟩
      else if score = best.score && 0 < best.score then { best with count := best.count + 1 }
      else best

def search (best : Best) : Nat -> List (Option Nat) -> Best
  | _, [] => best
  | index, score :: rest => search (best.compare index score) (index + 1) rest

/-- What the variables mean for the candidates so far. -/
structure Of (scores : List (Option Nat)) (best : Best) : Prop where
  highest : forall (index score : Nat), scores[index]? = some (some score) -> score ≤ best.score
  nothing : best.score = 0 -> best.count = 0
  found : 0 < best.score -> ∃ index : Nat, best.index = some index ∧
    scores[index]? = some (some best.score) ∧
    (best.count = 1 ∧
        (forall other : Nat, scores[other]? = some (some best.score) -> other = index) ∨
      1 < best.count ∧ ∃ other : Nat, other ≠ index ∧ scores[other]? = some (some best.score))

theorem Of.start : Of [] ⟨none, 0, 0⟩ where
  highest := fun _ _ found => nomatch found
  nothing := fun _ => rfl
  found := fun positive => absurd positive (Nat.lt_irrefl 0)

theorem Of.compare {scores : List (Option Nat)} {best : Best} (holds : Of scores best)
    (score : Option Nat) : Of (scores ++ [score]) (best.compare scores.length score) := by
  rcases holds with ⟨highest, nothing, found⟩
  -- the candidates so far, and the one that is compared
  have entry (index : Nat) (other : Option Nat) :
      (scores ++ [score])[index]? = some other ↔
        scores[index]? = some other ∨ index = scores.length ∧ other = score := by
    grind
  have before {index : Nat} {other : Option Nat} (here : scores[index]? = some other) :
      index < scores.length :=
    (List.getElem?_eq_some_iff.mp here).1
  have kept (absent : 0 < best.score -> some best.score ≠ score)
      (highest' : forall (index other : Nat), (scores ++ [score])[index]? = some (some other) ->
        other ≤ best.score) : Of (scores ++ [score]) best := by
    refine ⟨highest', nothing, fun positive => ?_⟩
    rcases found positive with ⟨index, isIndex, here, counted⟩
    refine ⟨index, isIndex, (entry ..).mpr (.inl here), counted.imp ?_ ?_⟩
    · refine fun single => ⟨single.1, fun other there => single.2 other ?_⟩
      exact ((entry ..).mp there).resolve_right fun last => absent positive last.2
    · rintro ⟨several, other, different, there⟩
      exact ⟨several, other, different, (entry ..).mpr (.inl there)⟩
  cases score with
  | none =>
      refine kept (fun _ => nofun) fun index other here => highest index other ?_
      exact ((entry ..).mp here).resolve_right nofun
  | some score =>
      simp only [Best.compare]
      split
      case isTrue better =>
        refine ⟨?_, ?_, ?_⟩
        · grind
        · grind
        · refine fun _ => ⟨scores.length, rfl, (entry ..).mpr (.inr ⟨rfl, rfl⟩), .inl ⟨rfl, ?_⟩⟩
          grind
      case isFalse notBetter =>
        split
        case isTrue equal =>
          simp only [Bool.and_eq_true, beq_iff_eq, decide_eq_true_eq] at equal
          rcases equal with ⟨rfl, positive⟩
          rcases found positive with ⟨index, isIndex, here, counted⟩
          refine ⟨?_, ?_, fun _ => ⟨index, isIndex, (entry ..).mpr (.inl here), .inr ⟨?_, ?_⟩⟩⟩
          · grind
          · grind
          · grind
          · exact ⟨scores.length, Nat.ne_of_gt (before here), (entry ..).mpr (.inr ⟨rfl, rfl⟩)⟩
        case isFalse notEqual =>
          simp only [Bool.and_eq_true, beq_iff_eq, decide_eq_true_eq] at notEqual
          refine kept (fun positive same => notEqual ⟨(Option.some.inj same).symm, positive⟩) ?_
          grind

theorem Of.search {scores : List (Option Nat)} {best : Best} (holds : Of scores best)
    (rest : List (Option Nat)) : Of (scores ++ rest) (best.search scores.length rest) := by
  induction rest generalizing scores best with
  | nil => rwa [List.append_nil]
  | cons score rest inductionHypothesis =>
      have compared := inductionHypothesis (holds.compare score)
      rwa [List.length_append, List.append_assoc] at compared

/-! ## What is found -/

variable {scores : List (Option Nat)} {best : Best}

/-- No candidate has a score. -/
theorem Of.none (holds : Of scores best)
    (none : forall (index score : Nat), scores[index]? = some (some score) -> score = 0) :
    best.count = 0 := by
  apply holds.nothing
  by_contra positive
  rcases holds.found (Nat.pos_of_ne_zero positive) with ⟨index, _, here, _⟩
  exact positive (none index best.score here)

/-- One candidate is better than the others. -/
theorem Of.single (holds : Of scores best) {index score : Nat}
    (here : scores[index]? = some (some score)) (positive : 0 < score)
    (others : forall (other less : Nat), scores[other]? = some (some less) -> other ≠ index ->
      less < score) : best = ⟨some index, score, 1⟩ := by
  have atLeast := holds.highest index score here
  rcases holds.found (Nat.lt_of_lt_of_le positive atLeast) with ⟨first, isFirst, there, counted⟩
  have same : first = index := by
    by_contra different
    exact absurd (others first best.score there different) (Nat.not_lt.mpr atLeast)
  subst same
  have sameScore : best.score = score := Option.some.inj (Option.some.inj (there.symm.trans here))
  rcases counted with ⟨single, _⟩ | ⟨_, other, different, elsewhere⟩
  · rcases best with ⟨bestIndex, bestScore, bestCount⟩
    subst isFirst sameScore single
    rfl
  · rw [sameScore] at elsewhere
    exact absurd (others other score elsewhere different) (Nat.lt_irrefl score)

/-- Two candidates are as good as any. -/
theorem Of.several (holds : Of scores best) {first second score : Nat}
    (firstHere : scores[first]? = some (some score))
    (secondHere : scores[second]? = some (some score)) (different : first ≠ second)
    (positive : 0 < score)
    (others : forall (other most : Nat), scores[other]? = some (some most) -> most ≤ score) :
    1 < best.count := by
  have atLeast := holds.highest first score firstHere
  rcases holds.found (Nat.lt_of_lt_of_le positive atLeast) with ⟨index, _, there, counted⟩
  have same : best.score = score := Nat.le_antisymm (others index best.score there) atLeast
  rw [same] at counted
  rcases counted with ⟨_, single⟩ | ⟨several, _⟩
  · exact absurd ((single first firstHere).trans (single second secondHere).symm) different
  · exact several

end Best

end Foundation
end WasmSandboxing
