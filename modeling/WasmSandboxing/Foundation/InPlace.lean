import Mathlib.Init

namespace WasmSandboxing
namespace Foundation

/-!
# Moving a range within a list

The first `count` elements are copied `distance` places further on, one after
another and from the front.  Where the ranges overlap, what has been overwritten
is copied again, so that the first `distance` elements are repeated.
-/

/-- `values[target] = values[source]` -/
def copyWithin (values : List Element) (source target : Nat) : List Element :=
  match values[source]? with
  | none => values
  | some value => values.set target value

def moveForward (distance count : Nat) (values : List Element) : List Element :=
  (List.range count).foldl (fun values index => copyWithin values index (distance + index)) values

/-- The first `count` elements repeat those of the first `period` places. -/
def Repeats (period count : Nat) (values : List Element) : Prop :=
  forall index, index < count -> values[index]? = values[index % period]?

instance [DecidableEq Element] (period count : Nat) (values : List Element) :
    Decidable (Repeats period count values) :=
  inferInstanceAs (Decidable (forall index, index < count -> _))

variable {values : List Element} {distance count : Nat}

theorem copyWithin_getElem? {source target : Nat} (inRange : source < values.length)
    (position : Nat) :
    (copyWithin values source target)[position]? =
      if position = target ∧ target < values.length then values[source]? else values[position]? := by
  rw [copyWithin, List.getElem?_eq_getElem inRange]
  simp only [List.getElem?_set]
  by_cases same : target = position
  · subst same
    rw [if_pos rfl]
    by_cases below : target < values.length
    · rw [if_pos below, if_pos ⟨rfl, below⟩]
    · rw [if_neg below, if_neg fun both => below both.2, List.getElem?_eq_none (by omega)]
  · rw [if_neg same, if_neg fun both => same both.1.symm]

theorem copyWithin_length (values : List Element) (source target : Nat) :
    (copyWithin values source target).length = values.length := by
  rw [copyWithin]
  split
  · rfl
  · exact List.length_set

theorem moveForward_succ (distance count : Nat) (values : List Element) :
    moveForward distance (count + 1) values =
      copyWithin (moveForward distance count values) count (distance + count) := by
  rw [moveForward, List.range_succ, List.foldl_append]
  rfl

theorem moveForward_length (distance count : Nat) (values : List Element) :
    (moveForward distance count values).length = values.length := by
  induction count with
  | zero => rfl
  | succ count inductionHypothesis =>
      rw [moveForward_succ, copyWithin_length, inductionHypothesis]

/-- What stands at a position when a range has been moved. -/
theorem moveForward_getElem? (enough : distance + count ≤ values.length) (position : Nat) :
    (moveForward distance count values)[position]? =
      if position < distance + count then values[position % distance]? else values[position]? := by
  induction count generalizing position with
  | zero =>
      split
      · rename_i below
        rw [Nat.mod_eq_of_lt (Nat.add_zero distance ▸ below)]
        rfl
      · rfl
  | succ count inductionHypothesis =>
      have inRange : count < (moveForward distance count values).length := by
        rw [moveForward_length]
        omega
      have source : (moveForward distance count values)[count]? = values[count % distance]? := by
        rw [inductionHypothesis (by omega)]
        split
        · rfl
        · rename_i whole
          rw [show distance = 0 by omega, Nat.mod_zero]
      rw [moveForward_succ, copyWithin_getElem? inRange, moveForward_length]
      by_cases last : position = distance + count
      · -- The source may have been overwritten by a round before.
        rw [if_pos ⟨last, by omega⟩, if_pos (by omega), source, last, Nat.add_mod_left]
      · rw [if_neg fun both => last both.1, inductionHypothesis (by omega)]
        by_cases below : position < distance + count
        · rw [if_pos below, if_pos (by omega)]
        · rw [if_neg below, if_neg (by omega)]

/-- The moved range is what it was if and only if it repeats with the distance. -/
theorem moveForward_drop_iff (enough : distance + count ≤ values.length) :
    (moveForward distance count values).drop distance =
        values.take count ++ values.drop (distance + count) ↔
      Repeats distance count values := by
  have length : (values.take count).length = count := by
    rw [List.length_take]
    omega
  have moved : forall index, ((moveForward distance count values).drop distance)[index]? =
      if index < count then values[index % distance]? else values[distance + index]? := by
    intro index
    rw [List.getElem?_drop, moveForward_getElem? enough, Nat.add_mod_left]
    by_cases below : index < count
    · rw [if_pos (by omega), if_pos below]
    · rw [if_neg (by omega), if_neg below]
  constructor
  · intro same index below
    have here := moved index
    rw [same, if_pos below, List.getElem?_append_left (by omega), List.getElem?_take_of_lt below]
      at here
    exact here
  · intro repeats
    apply List.ext_getElem?
    intro index
    rw [moved]
    by_cases below : index < count
    · rw [if_pos below, List.getElem?_append_left (by omega), List.getElem?_take_of_lt below,
        repeats index below]
    · rw [if_neg below, List.getElem?_append_right (by omega), List.getElem?_drop, length,
        show distance + count + (index - count) = distance + index by omega]

theorem repeats_of_few (few : distance = 0 ∨ count ≤ distance) :
    Repeats distance count values := by
  intro index below
  rcases few with none_ | few
  · rw [none_, Nat.mod_zero]
  · rw [Nat.mod_eq_of_lt (by omega)]

end Foundation
end WasmSandboxing
