import Mathlib.Data.List.Basic

namespace WasmSandboxing
namespace Foundation

/-!
# Searching a range

Loops that look for the first position of a range with a property: where a
sequence occurs in it, or where one of several values is.  The range is read
position by position, and a read beyond what there is has no result.
-/

/-- The first position from `start` on with the property, or `last` if there is none. -/
def FirstFrom (property : Nat -> Prop) (start last position : Nat) : Prop :=
  (start ≤ position ∧ property position ∧
      forall index, start ≤ index -> index < position -> ¬ property index) ∨
    (position = last ∧ forall index, start ≤ index -> ¬ property index)

section FirstFrom

variable {property : Nat -> Prop} {start last position : Nat}

theorem FirstFrom.here (holds : property start) : FirstFrom property start last start :=
  Or.inl ⟨Nat.le_refl _, holds, fun _index above below => absurd (Nat.lt_of_le_of_lt above below)
    (Nat.lt_irrefl _)⟩

theorem FirstFrom.later (fails : ¬ property start)
    (later : FirstFrom property (start + 1) last position) :
    FirstFrom property start last position := by
  have passes : forall {index}, start ≤ index -> start + 1 ≤ index ∨ ¬ property index := by
    intro index above
    rcases Nat.eq_or_lt_of_le above with same | beyond
    · exact Or.inr (same ▸ fails)
    · exact Or.inl beyond
  rcases later with ⟨above, holds, first⟩ | ⟨ended, none⟩
  · refine Or.inl ⟨Nat.le_of_succ_le above, holds, fun index from_ before => ?_⟩
    rcases passes from_ with beyond | fails
    · exact first index beyond before
    · exact fails
  · refine Or.inr ⟨ended, fun index from_ => ?_⟩
    rcases passes from_ with beyond | fails
    · exact none index beyond
    · exact fails

theorem FirstFrom.none (none : forall index, start ≤ index -> ¬ property index) :
    FirstFrom property start last last :=
  Or.inr ⟨rfl, none⟩

end FirstFrom

variable {Element : Type} [DecidableEq Element]

/-! ## Occurrences -/

/-- The needle stands in the text at a position. -/
def OccursAt (text needle : List Element) (position : Nat) : Prop :=
  position + needle.length ≤ text.length ∧
    forall index, index < needle.length -> text[position + index]? = needle[index]?

inductive CompareOutcome where
  | same | ended | differs
  deriving DecidableEq

/-- The needle is compared from a position on, up to the end of the range. -/
def compareFrom (read : Nat -> Option Element) (last : Nat) : List Element -> Nat -> Option CompareOutcome
  | [], _position => some .same
  | first :: rest, position =>
      if position = last then some .ended
      else do
        let element <- read position
        if element = first then compareFrom read last rest (position + 1) else some .differs

/-- The search in the last `remaining` positions of a range: where the needle
first occurs, else its end. -/
def search (read : Nat -> Option Element) (last : Nat) (needle : List Element) : Nat -> Option Nat
  | 0 => some last
  | remaining + 1 => do
      match (<- compareFrom read last needle (last - (remaining + 1))) with
      | .same => some (last - (remaining + 1))
      | .ended => some last
      | .differs => search read last needle remaining

/-- The search for the first of several elements. -/
def searchOne (read : Nat -> Option Element) (last : Nat) (elements : List Element) :
    Nat -> Option Nat
  | 0 => some last
  | remaining + 1 =>
      if elements = [] then searchOne read last elements remaining
      else do
        let element <- read (last - (remaining + 1))
        if element ∈ elements then some (last - (remaining + 1))
        else searchOne read last elements remaining

omit [DecidableEq Element] in
theorem occursAt_cons (text rest : List Element) (first : Element) (position : Nat) :
    OccursAt text (first :: rest) position ↔
      text[position]? = some first ∧ OccursAt text rest (position + 1) := by
  constructor
  · rintro ⟨inside, same⟩
    refine ⟨same 0 (Nat.succ_pos _), ?_, fun index below => ?_⟩
    · rw [List.length_cons] at inside
      omega
    · rw [Nat.add_right_comm]
      exact same (index + 1) (Nat.succ_lt_succ below)
  · rintro ⟨here, inside, same⟩
    refine ⟨?_, fun index below => ?_⟩
    · rw [List.length_cons]
      omega
    · cases index with
      | zero => exact here
      | succ index =>
          rw [← Nat.add_assoc, Nat.add_right_comm]
          exact same index (Nat.lt_of_succ_lt_succ below)

omit [DecidableEq Element] in
theorem occursAt_nil {text : List Element} {position : Nat} (inside : position ≤ text.length) :
    OccursAt text [] position :=
  ⟨inside, fun _index below => absurd below (Nat.not_lt_zero _)⟩

section Reading

variable {read : Nat -> Option Element} {text : List Element}

theorem compareFrom_spec (reads : forall index, index < text.length -> read index = text[index]?)
    {needle : List Element} {position : Nat} (inside : position ≤ text.length) :
    ∃ comparison, compareFrom read text.length needle position = some comparison ∧
      (comparison = .same -> OccursAt text needle position) ∧
      (comparison = .ended -> text.length < position + needle.length) ∧
      (comparison = .differs -> ¬ OccursAt text needle position) := by
  induction needle generalizing position with
  | nil => exact ⟨.same, rfl, fun _same => occursAt_nil inside, nofun, nofun⟩
  | cons first rest inductionHypothesis =>
      rw [compareFrom]
      by_cases ends : position = text.length
      · refine ⟨.ended, if_pos ends, nofun, fun _ended => ?_, nofun⟩
        rw [List.length_cons]
        omega
      · have before : position < text.length := Nat.lt_of_le_of_ne inside ends
        rw [if_neg ends, reads position before, List.getElem?_eq_getElem before]
        by_cases equal : text[position] = first
        · rcases inductionHypothesis before with ⟨comparison, compared, same, ended, differs⟩
          refine ⟨comparison, (if_pos equal).trans compared, fun is => ?_, fun is => ?_,
            fun is occurs => ?_⟩
          · rw [occursAt_cons, List.getElem?_eq_getElem before, equal]
            exact ⟨rfl, same is⟩
          · rw [List.length_cons]
            have beyond := ended is
            omega
          · exact differs is ((occursAt_cons ..).mp occurs).2
        · refine ⟨.differs, if_neg equal, nofun, nofun, fun _differs occurs => equal ?_⟩
          have here := ((occursAt_cons ..).mp occurs).1
          rw [List.getElem?_eq_getElem before] at here
          exact Option.some.inj here

/-- Within the range the search finds the first occurrence and reads nothing else. -/
theorem search_first (reads : forall index, index < text.length -> read index = text[index]?)
    (needle : List Element) {remaining : Nat} (inside : remaining ≤ text.length) :
    ∃ position, search read text.length needle remaining = some position ∧
      FirstFrom (OccursAt text needle) (text.length - remaining) text.length position := by
  induction remaining with
  | zero =>
      refine ⟨text.length, rfl, ?_⟩
      cases needle with
      | nil => exact FirstFrom.here (occursAt_nil (Nat.sub_le ..))
      | cons first rest =>
          refine FirstFrom.none fun index above occurs => ?_
          have fits := occurs.1
          rw [List.length_cons] at fits
          omega
  | succ remaining inductionHypothesis =>
      rcases compareFrom_spec reads (Nat.sub_le text.length (remaining + 1)) with
        ⟨comparison, compared, same, ended, differs⟩
      rw [search, compared]
      cases comparison with
      | same => exact ⟨_, rfl, FirstFrom.here (same rfl)⟩
      | ended =>
          refine ⟨_, rfl, FirstFrom.none fun index above occurs => ?_⟩
          have short := ended rfl
          have fits := occurs.1
          omega
      | differs =>
          rcases inductionHypothesis (Nat.le_of_succ_le inside) with ⟨position, found, first⟩
          refine ⟨position, found, FirstFrom.later (differs rfl) ?_⟩
          rw [show text.length - (remaining + 1) + 1 = text.length - remaining by omega]
          exact first

/-- An element of the text is one of several. -/
def IsOneOf (text elements : List Element) (position : Nat) : Prop :=
  ∃ element, text[position]? = some element ∧ element ∈ elements

theorem searchOne_first (reads : forall index, index < text.length -> read index = text[index]?)
    (elements : List Element) {remaining : Nat} (inside : remaining ≤ text.length) :
    ∃ position, searchOne read text.length elements remaining = some position ∧
      FirstFrom (IsOneOf text elements) (text.length - remaining) text.length position := by
  induction remaining with
  | zero =>
      refine ⟨text.length, rfl, FirstFrom.none fun index above is => ?_⟩
      rcases is with ⟨element, found, _member⟩
      rw [List.getElem?_eq_none (by omega)] at found
      cases found
  | succ remaining inductionHypothesis =>
      have before : text.length - (remaining + 1) < text.length := by omega
      have next : text.length - (remaining + 1) + 1 = text.length - remaining := by omega
      rcases inductionHypothesis (Nat.le_of_succ_le inside) with ⟨position, found, first⟩
      rw [← next] at first
      have passed (fails : ¬ IsOneOf text elements (text.length - (remaining + 1))) :
          FirstFrom (IsOneOf text elements) (text.length - (remaining + 1)) text.length position :=
        FirstFrom.later fails first
      rw [searchOne]
      by_cases empty : elements = []
      · refine ⟨position, (if_pos empty).trans found, passed ?_⟩
        rintro ⟨element, _found, member⟩
        rw [empty] at member
        cases member
      · rw [if_neg empty, reads _ before, List.getElem?_eq_getElem before]
        by_cases member : text[text.length - (remaining + 1)] ∈ elements
        · exact ⟨_, if_pos member,
            FirstFrom.here ⟨_, List.getElem?_eq_getElem before, member⟩⟩
        · refine ⟨position, (if_neg member).trans found, passed ?_⟩
          rintro ⟨element, here, among⟩
          rw [List.getElem?_eq_getElem before] at here
          exact member (Option.some.inj here ▸ among)

end Reading

/-- There is nothing to find, and nothing is read. -/
theorem searchOne_nil (read : Nat -> Option Element) (last remaining : Nat) :
    searchOne read last [] remaining = some last := by
  induction remaining with
  | zero => rfl
  | succ remaining inductionHypothesis => rw [searchOne, if_pos rfl, inductionHypothesis]

theorem searchOne_outside {read : Nat -> Option Element} {last remaining : Nat}
    {elements : List Element} (some_ : elements ≠ []) (outside : read (last - (remaining + 1)) = none) :
    searchOne read last elements (remaining + 1) = none := by
  rw [searchOne, if_neg some_, outside]
  rfl

/-! ## The other way around -/

section Reversed

variable {text : List Element} {base : Nat}

omit [DecidableEq Element] in
/-- What is in front of a position, from there to the beginning. -/
theorem take_reverse_getElem? (inside : base ≤ text.length) {offset : Nat} (below : offset < base) :
    (text.take base).reverse[offset]? = text[base - 1 - offset]? := by
  have length : (text.take base).length = base := List.length_take_of_le inside
  rw [List.getElem?_reverse (length.symm ▸ below), length, List.getElem?_take, if_pos (by omega)]

omit [DecidableEq Element] in
theorem occursAt_reverse (inside : base ≤ text.length) (needle : List Element) (offset : Nat) :
    OccursAt (text.take base).reverse needle.reverse offset ↔
      offset + needle.length ≤ base ∧ OccursAt text needle (base - offset - needle.length) := by
  rw [OccursAt, List.length_reverse, List.length_reverse, List.length_take_of_le inside]
  refine and_congr_right fun fits => ⟨fun same => ⟨by omega, fun index below => ?_⟩,
    fun ⟨_within, same⟩ index below => ?_⟩
  · have mirrored := same (needle.length - 1 - index) (by omega)
    rw [take_reverse_getElem? inside (by omega), List.getElem?_reverse (by omega)] at mirrored
    rw [show needle.length - 1 - (needle.length - 1 - index) = index by omega] at mirrored
    rw [← mirrored]
    exact congrArg (text[·]?) (by omega)
  · rw [take_reverse_getElem? inside (by omega), List.getElem?_reverse below,
      ← same (needle.length - 1 - index) (by omega)]
    exact congrArg (text[·]?) (by omega)

omit [DecidableEq Element] in
theorem isOneOf_reverse (inside : base ≤ text.length) (elements : List Element) (offset : Nat) :
    IsOneOf (text.take base).reverse elements offset ↔
      offset + 1 ≤ base ∧ IsOneOf text elements (base - offset - 1) := by
  by_cases below : offset < base
  · rw [IsOneOf, take_reverse_getElem? inside below, Nat.sub_right_comm]
    exact (and_iff_right below).symm
  · refine iff_of_false ?_ fun both => below both.1
    rintro ⟨element, found, _member⟩
    rw [List.getElem?_eq_none] at found
    · cases found
    · rw [List.length_reverse, List.length_take_of_le inside]
      exact Nat.le_of_not_lt below

end Reversed

end Foundation
end WasmSandboxing
