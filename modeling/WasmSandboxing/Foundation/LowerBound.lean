import Mathlib.Order.Basic

namespace WasmSandboxing
namespace Foundation

/-!
# The first position that is not below

Halving `count` positions from `first` on.  Where the positions that are below
come before those that are not, the search stops where they meet.
-/

def lowerBound (below : Nat -> Bool) (first count : Nat) : Nat :=
  if count = 0 then
    first
  else if below (first + count / 2) then
    lowerBound below (first + count / 2 + 1) (count - count / 2 - 1)
  else
    lowerBound below first (count / 2)
termination_by count
decreasing_by all_goals omega

variable {below : Nat -> Bool} {first count : Nat}

theorem lowerBound_le (below : Nat -> Bool) (first count : Nat) :
    lowerBound below first count ≤ first + count := by
  fun_induction lowerBound below first count <;> omega

/-- What the search passes is below, and what it stops at is not. -/
theorem lowerBound_divides
    (sorted : forall {lower upper}, lower ≤ upper -> upper < first + count -> below upper = true ->
      below lower = true) :
    first ≤ lowerBound below first count ∧ lowerBound below first count ≤ first + count ∧
      (forall index, first ≤ index -> index < lowerBound below first count ->
        below index = true) ∧
      forall index, lowerBound below first count ≤ index -> index < first + count ->
        below index = false := by
  fun_induction lowerBound below first count with
  | case1 first =>
      refine ⟨Nat.le_refl _, Nat.le_refl _, fun index from_ before => ?_, fun index from_ before => ?_⟩
      · exact absurd before (Nat.not_lt.mpr from_)
      · exact absurd before (Nat.not_lt.mpr from_)
  | case2 first count nonempty isBelow inductionHypothesis =>
      have total : first + count / 2 + 1 + (count - count / 2 - 1) = first + count := by omega
      rw [total] at inductionHypothesis
      rcases inductionHypothesis sorted with ⟨lower, upper, passed, stopped⟩
      refine ⟨by omega, upper, fun index from_ before => ?_, stopped⟩
      by_cases half : index ≤ first + count / 2
      · exact sorted half (by omega) isBelow
      · exact passed index (by omega) before
  | case3 first count nonempty notBelow inductionHypothesis =>
      rcases inductionHypothesis (fun order inside => sorted order (by omega)) with
        ⟨lower, upper, passed, stopped⟩
      refine ⟨lower, by omega, passed, fun index from_ before => ?_⟩
      by_cases half : index < first + count / 2
      · exact stopped index from_ half
      · rw [Bool.eq_false_iff]
        exact fun isBelow => notBelow (sorted (Nat.not_lt.mp half) before isBelow)

/-- The search ends at the position that has what is below in front of it. -/
theorem lowerBound_eq {position : Nat} (inside : position ≤ count)
    (isBelow : forall index, index < position -> below index = true)
    (notBelow : forall index, position ≤ index -> index < count -> below index = false) :
    lowerBound below 0 count = position := by
  have sorted : forall {lower upper}, lower ≤ upper -> upper < 0 + count -> below upper = true ->
      below lower = true := by
    intro lower upper order within upperBelow
    refine isBelow lower (Nat.lt_of_le_of_lt order (Nat.not_le.mp fun after => ?_))
    rw [notBelow upper after (Nat.zero_add count ▸ within)] at upperBelow
    exact Bool.false_ne_true upperBelow
  rcases lowerBound_divides sorted with ⟨_, upper, passed, stopped⟩
  rw [Nat.zero_add] at upper stopped
  apply Nat.le_antisymm
  · refine Nat.not_lt.mp fun after => Bool.false_ne_true ?_
    rw [← notBelow position (Nat.le_refl _) (Nat.lt_of_lt_of_le after upper)]
    exact passed position (Nat.zero_le _) after
  · refine Nat.not_lt.mp fun before => Bool.false_ne_true ?_
    rw [← stopped _ (Nat.le_refl _) (Nat.lt_of_lt_of_le before inside)]
    exact isBelow _ before

end Foundation
end WasmSandboxing
