import WasmSandboxing.Wasm.Names
import Mathlib.Data.List.Sort

namespace WasmSandboxing
namespace Text
namespace Duplicates

open Wasm

/-!
# Duplicate bindings

`binding-hash.cc`.  The entries of one name stand together in the order in
which a multimap is iterated, and otherwise anywhere.  Entries are told apart
by where they are, and those of one name are reported against the one that
comes first in the source.
-/

/-- What the order of locations looks at. -/
structure Location where
  line : Int
  firstColumn : Int
  deriving DecidableEq

/-- `const value_type*`: an entry and its address. -/
structure Entry where
  address : Nat
  name : Name
  loc : Location
  index : Nat
  deriving DecidableEq

/-- `BindingHash`, in the order of its iteration. -/
structure BindingHash where
  entries : List Entry
  distinct : entries.Nodup
  adjacent : forall first second third, List.Sublist [first, second, third] entries ->
    first.name = third.name -> first.name = second.name

/-- The order of `SortDuplicatesVectorByLocation` -/
def before (lhs rhs : Entry) : Bool :=
  lhs.loc.line < rhs.loc.line ||
    (lhs.loc.line == rhs.loc.line && lhs.loc.firstColumn < rhs.loc.firstColumn)

/-- `std::sort` by that order.  Entries at one location come out in any order. -/
structure StdSort where
  sort : List Entry -> List Entry
  perm : forall entries, (sort entries).Perm entries
  sorted : forall entries, (sort entries).Pairwise fun earlier later => before later earlier = false

/-- The loop of `CreateDuplicatesVector` -/
def createDuplicates (first : Entry) (isFirst : Bool) : List Entry -> List Entry
  | [] => []
  | iter :: rest =>
      if first.name = iter.name then
        (if isFirst then [first] else []) ++ iter :: createDuplicates first false rest
      else createDuplicates iter true rest

/-- `CreateDuplicatesVector`, for what is not empty. -/
def createDuplicatesVector : List Entry -> List Entry
  | [] => []
  | first :: rest => createDuplicates first true rest

/-- What the callback is called with for one of the duplicates.  No pointer is
twice among them, so that they are compared in place of their positions. -/
def callCallback (duplicates : List Entry) (iter : Entry) : Option (Entry × Entry) :=
  match duplicates.find? fun entry => entry.name == iter.name with
  | none => none
  | some first => if first = iter then none else some (first, iter)

/-- `CallCallbacks` -/
def callCallbacks (duplicates : List Entry) : List (Entry × Entry) :=
  duplicates.filterMap (callCallback duplicates)

def findDuplicates (std : StdSort) (hash : BindingHash) : List (Entry × Entry) :=
  if hash.entries.length > 0 then
    callCallbacks (std.sort (createDuplicatesVector hash.entries))
  else []

/-! ## The order of locations -/

theorem before_eq_true (lhs rhs : Entry) :
    before lhs rhs = true ↔ lhs.loc.line < rhs.loc.line ∨
      (lhs.loc.line = rhs.loc.line ∧ lhs.loc.firstColumn < rhs.loc.firstColumn) := by
  rw [before, Bool.or_eq_true, Bool.and_eq_true, decide_eq_true_iff, decide_eq_true_iff, beq_iff_eq]

theorem before_eq_false (lhs rhs : Entry) :
    before lhs rhs = false ↔ rhs.loc.line < lhs.loc.line ∨
      (rhs.loc.line = lhs.loc.line ∧ rhs.loc.firstColumn ≤ lhs.loc.firstColumn) := by
  rw [← Bool.not_eq_true, before_eq_true]
  omega

theorem before_irrefl (entry : Entry) : before entry entry = false :=
  (before_eq_false ..).mpr (Or.inr ⟨rfl, Int.le_refl _⟩)

/-- A sort that inserts one entry after the other. -/
def StdSort.insertion : StdSort where
  sort := List.insertionSort fun earlier later => before later earlier = false
  perm := List.perm_insertionSort _
  sorted := by
    have total : Std.Total fun earlier later => before later earlier = false := by
      refine ⟨fun first second => ?_⟩
      rw [before_eq_false, before_eq_false]
      omega
    have trans : IsTrans Entry fun earlier later => before later earlier = false := by
      refine ⟨fun first second third earlier later => ?_⟩
      rw [before_eq_false] at *
      omega
    exact List.pairwise_insertionSort _

/-! ## The duplicates -/

/-- Another entry has the same name. -/
def HasSibling (entries : List Entry) (entry : Entry) : Prop :=
  ∃ other, other ∈ entries ∧ other ≠ entry ∧ other.name = entry.name

/-- Entries of one name stand together. -/
def Adjacent (entries : List Entry) : Prop :=
  forall first second third, List.Sublist [first, second, third] entries ->
    first.name = third.name -> first.name = second.name

theorem createDuplicates_sublist (first : Entry) (isFirst : Bool) (rest : List Entry) :
    List.Sublist (createDuplicates first isFirst rest)
      ((if isFirst then [first] else []) ++ rest) := by
  induction rest generalizing first isFirst with
  | nil => exact List.nil_sublist _
  | cons iter rest inductionHypothesis =>
      rw [createDuplicates]
      split
      · have later := inductionHypothesis first false
        rw [if_neg nofun, List.nil_append] at later
        exact List.Sublist.append_left (later.cons_cons iter) _
      · have later := inductionHypothesis iter true
        rw [if_pos rfl] at later
        exact later.trans (List.sublist_append_right ..)

theorem HasSibling.mono {entries more : List Entry} {entry : Entry}
    (has : HasSibling entries entry) (within : entries ⊆ more) : HasSibling more entry := by
  rcases has with ⟨other, among, apart, same⟩
  exact ⟨other, within among, apart, same⟩

/-- An entry of the group of `first` behind a run of it has a sibling, another one
has its siblings behind that run. -/
theorem hasSibling_cons_of_ne {first entry : Entry} {rest : List Entry}
    (differs : entry.name ≠ first.name) :
    HasSibling (first :: rest) entry ↔ HasSibling rest entry := by
  constructor
  · rintro ⟨other, among, apart, same⟩
    rcases List.mem_cons.mp among with rfl | later
    · exact absurd same.symm differs
    · exact ⟨other, later, apart, same⟩
  · exact fun has => has.mono (List.subset_cons_self ..)

/-- Where the group of `first` is known to have several entries, the others of its
name belong to it; else they are still looked for. -/
theorem mem_createDuplicates {first : Entry} {rest : List Entry}
    (adjacent : Adjacent (first :: rest)) (distinct : (first :: rest).Nodup) (entry : Entry) :
    (entry ∈ createDuplicates first true rest ↔
        entry ∈ first :: rest ∧ HasSibling (first :: rest) entry) ∧
      (entry ∈ createDuplicates first false rest ↔
        entry ∈ rest ∧ (entry.name = first.name ∨ HasSibling rest entry)) := by
  induction rest generalizing first with
  | nil =>
      refine ⟨iff_of_false nofun ?_, iff_of_false nofun nofun⟩
      rintro ⟨member, other, among, apart, _same⟩
      exact apart ((List.mem_singleton.mp among).trans (List.mem_singleton.mp member).symm)
  | cons iter rest inductionHypothesis =>
      have skipped : List.Sublist (first :: rest) (first :: iter :: rest) :=
        (List.sublist_cons_self iter rest).cons_cons first
      have later : List.Sublist (iter :: rest) (first :: iter :: rest) :=
        List.sublist_cons_self first _
      have firstApart := List.nodup_cons.mp distinct
      have iterApart := List.nodup_cons.mp firstApart.2
      by_cases same : first.name = iter.name
      · have group := (inductionHypothesis
          (fun a b c chain => adjacent a b c (chain.trans skipped)) (distinct.sublist skipped)).2
        -- every entry of the group has `first` or `iter` for its sibling
        have siblings : entry ∈ first :: iter :: rest -> entry.name = first.name ->
            HasSibling (first :: iter :: rest) entry := by
          intro member named
          by_cases is : entry = first
          · refine ⟨iter, List.mem_cons_of_mem _ List.mem_cons_self, ?_, same.symm.trans named.symm⟩
            rintro rfl
            exact firstApart.1 (is ▸ List.mem_cons_self)
          · exact ⟨first, List.mem_cons_self, Ne.symm is, named.symm⟩
        have others : entry.name ≠ first.name ->
            (HasSibling (first :: iter :: rest) entry ↔ HasSibling rest entry) := fun differs =>
          (hasSibling_cons_of_ne differs).trans (hasSibling_cons_of_ne (same ▸ differs))
        rw [createDuplicates, createDuplicates, if_pos same, if_pos same, if_pos rfl, if_neg nofun,
          List.nil_append, List.singleton_append]
        by_cases named : entry.name = first.name
        · have behind : entry ∈ iter :: rest ↔ entry = iter ∨ entry ∈ rest := List.mem_cons
          constructor
          · rw [List.mem_cons, List.mem_cons, group, and_iff_left (Or.inl named), ← behind,
              ← List.mem_cons]
            exact (and_iff_left_of_imp fun member => siblings member named).symm
          · rw [List.mem_cons, group, and_iff_left (Or.inl named), ← behind]
            exact (and_iff_left (Or.inl named)).symm
        · have notFirst : entry ≠ first := fun is => named (is ▸ rfl)
          have notIter : entry ≠ iter := fun is => named (is ▸ same.symm)
          have inner : HasSibling (iter :: rest) entry ↔ HasSibling rest entry :=
            hasSibling_cons_of_ne (same ▸ named)
          rw [List.mem_cons, List.mem_cons, group, List.mem_cons, List.mem_cons, others named, inner]
          rw [or_iff_right notFirst, or_iff_right notIter, or_iff_right notFirst,
            or_iff_right notIter, or_iff_right named]
          exact ⟨Iff.rfl, Iff.rfl⟩
      · have group := (inductionHypothesis
          (fun a b c chain => adjacent a b c (chain.trans later)) firstApart.2).1
        -- nothing behind has the name of `first`, which would stand next to it
        have lonely : forall other, other ∈ iter :: rest -> other.name ≠ first.name := by
          intro other member named
          rcases List.mem_cons.mp member with rfl | behind
          · exact same named.symm
          · have chain := ((List.singleton_sublist.mpr behind).cons_cons iter).cons_cons first
            exact same (adjacent first iter other chain named.symm)
        rw [createDuplicates, createDuplicates, if_neg same, if_neg same, group]
        constructor
        · constructor
          · rintro ⟨member, has⟩
            exact ⟨List.mem_cons_of_mem _ member, has.mono later.subset⟩
          · rintro ⟨member, has⟩
            rcases List.mem_cons.mp member with rfl | behind
            · rcases has with ⟨other, among, apart, named⟩
              rcases List.mem_cons.mp among with is | otherBehind
              · exact absurd is apart
              · exact absurd named (lonely other otherBehind)
            · exact ⟨behind, (hasSibling_cons_of_ne (lonely entry behind)).mp has⟩
        · refine and_congr_right fun member => ?_
          rw [or_iff_right (lonely entry member)]

theorem mem_createDuplicatesVector (hash : BindingHash) (entry : Entry) :
    entry ∈ createDuplicatesVector hash.entries ↔
      entry ∈ hash.entries ∧ HasSibling hash.entries entry := by
  rcases hash with ⟨entries, distinct, adjacent⟩
  cases entries with
  | nil => exact iff_of_false nofun nofun
  | cons first rest => exact (mem_createDuplicates adjacent distinct entry).1

theorem createDuplicatesVector_nodup (hash : BindingHash) :
    (createDuplicatesVector hash.entries).Nodup := by
  rcases hash with ⟨entries, distinct, adjacent⟩
  cases entries with
  | nil => exact List.nodup_nil
  | cons first rest =>
      have sublist := createDuplicates_sublist first true rest
      rw [if_pos rfl] at sublist
      exact distinct.sublist sublist

/-! ## The calls -/

/-- The first entry of a name among the duplicates; an entry without a sibling is itself. -/
def earliestIn (duplicates : List Entry) (entry : Entry) : Entry :=
  (duplicates.find? fun other => other.name == entry.name).getD entry

/-- Every entry of the name of one is in the list if one is. -/
theorem earliestIn_of_mem {duplicates : List Entry} {entry : Entry} (member : entry ∈ duplicates) :
    duplicates.find? (fun other => other.name == entry.name) = some (earliestIn duplicates entry) ∧
      earliestIn duplicates entry ∈ duplicates ∧
      (earliestIn duplicates entry).name = entry.name := by
  have found : (duplicates.find? fun other => other.name == entry.name).isSome = true :=
    List.find?_isSome.mpr ⟨entry, member, beq_self_eq_true _⟩
  rcases Option.isSome_iff_exists.mp found with ⟨first, is⟩
  have same : earliestIn duplicates entry = first := by rw [earliestIn, is, Option.getD_some]
  rw [same]
  have named := List.find?_some is
  exact ⟨is, List.mem_of_find?_eq_some is, by simpa using named⟩

/-- The first of those found in a sorted list has none before it. -/
theorem not_before_first {entries : List Entry} {wanted : Entry -> Bool} {first other : Entry}
    (sorted : entries.Pairwise fun earlier later => before later earlier = false)
    (found : entries.find? wanted = some first) (member : other ∈ entries)
    (is : wanted other = true) : before other first = false := by
  rcases List.find?_eq_some_iff_append.mp found with ⟨_wanted, passed, rest, rfl, unwanted⟩
  rcases List.mem_append.mp member with inFront | behind
  · exact absurd is (by simpa using unwanted other inFront)
  · rcases List.mem_cons.mp behind with rfl | later
    · exact before_irrefl _
    · exact (List.pairwise_cons.mp (List.pairwise_append.mp sorted).2.1).1 other later

theorem callCallback_eq {duplicates : List Entry} {entry : Entry} (member : entry ∈ duplicates) :
    callCallback duplicates entry =
      if earliestIn duplicates entry ≠ entry then some (earliestIn duplicates entry, entry)
      else none := by
  rw [callCallback, (earliestIn_of_mem member).1]
  exact (ite_not ..).symm

theorem mem_callCallbacks (duplicates : List Entry) (call : Entry × Entry) :
    call ∈ callCallbacks duplicates ↔ call.2 ∈ duplicates ∧
      earliestIn duplicates call.2 ≠ call.2 ∧ call.1 = earliestIn duplicates call.2 := by
  rw [callCallbacks, List.mem_filterMap]
  constructor
  · rintro ⟨entry, member, called⟩
    rw [callCallback_eq member] at called
    rcases Option.ite_none_right_eq_some.mp called with ⟨apart, same⟩
    cases same
    exact ⟨member, apart, rfl⟩
  · rintro ⟨member, apart, same⟩
    refine ⟨call.2, member, ?_⟩
    rw [callCallback_eq member, if_pos apart, ← same]

/-- The duplicates that are reported, in their order. -/
theorem callCallbacks_second (duplicates : List Entry) :
    (callCallbacks duplicates).map Prod.snd =
      duplicates.filter fun entry => earliestIn duplicates entry ≠ entry := by
  rw [callCallbacks, List.map_filterMap, ← List.filterMap_eq_filter]
  refine List.filterMap_congr fun entry member => ?_
  rw [callCallback_eq member, Option.guard]
  by_cases apart : earliestIn duplicates entry ≠ entry
  · rw [if_pos apart, if_pos (decide_eq_true apart), Option.map_some]
  · rw [if_neg apart, if_neg fun is => apart (of_decide_eq_true is), Option.map_none]

/-- Some entry of each name is the earliest, and every other one is reported
once, against it, in the order of the source. -/
theorem findDuplicates_exact (std : StdSort) (hash : BindingHash) :
    ∃ earliest : Entry -> Entry,
      (forall entry, entry ∈ hash.entries ->
        earliest entry ∈ hash.entries ∧ (earliest entry).name = entry.name ∧
          forall other, other ∈ hash.entries -> other.name = entry.name ->
            earliest other = earliest entry ∧ before other (earliest entry) = false) ∧
      (forall call, call ∈ findDuplicates std hash -> call.1 = earliest call.2) ∧
      (forall entry, entry ∈ (findDuplicates std hash).map Prod.snd ↔
        entry ∈ hash.entries ∧ entry ≠ earliest entry) ∧
      ((findDuplicates std hash).map Prod.snd).Nodup ∧
      ((findDuplicates std hash).map Prod.snd).Pairwise fun earlier later =>
        before later earlier = false := by
  have sorted_mem : forall entry, entry ∈ std.sort (createDuplicatesVector hash.entries) ↔
      entry ∈ hash.entries ∧ HasSibling hash.entries entry := fun entry =>
    (std.perm _).mem_iff.trans (mem_createDuplicatesVector hash entry)
  have sorted := std.sorted (createDuplicatesVector hash.entries)
  have nodup := (std.perm _).nodup_iff.mpr (createDuplicatesVector_nodup hash)
  have calls : findDuplicates std hash =
      callCallbacks (std.sort (createDuplicatesVector hash.entries)) := by
    rw [findDuplicates]
    split
    · rfl
    · rename_i empty
      have none : hash.entries = [] := List.length_eq_zero_iff.mp (by omega)
      rw [none, createDuplicatesVector, (std.perm []).eq_nil]
      rfl
  rw [calls]
  generalize std.sort (createDuplicatesVector hash.entries) = duplicates at sorted_mem sorted nodup
  have alone : forall entry, entry ∈ hash.entries -> ¬ HasSibling hash.entries entry ->
      earliestIn duplicates entry = entry := by
    intro entry member single
    have none : duplicates.find? (fun other => other.name == entry.name) = none := by
      refine List.find?_eq_none.mpr fun other among named => single ?_
      have found := (sorted_mem other).mp among
      by_cases is : other = entry
      · exact is ▸ found.2
      · exact ⟨other, found.1, is, beq_iff_eq.mp named⟩
    rw [earliestIn, none, Option.getD_none]
  refine ⟨earliestIn duplicates, fun entry member => ?_, fun call reported => ?_, fun entry => ?_,
    ?_, ?_⟩
  · by_cases has : HasSibling hash.entries entry
    · rcases earliestIn_of_mem ((sorted_mem entry).mpr ⟨member, has⟩) with ⟨found, among, named⟩
      refine ⟨((sorted_mem _).mp among).1, named, fun other otherMember same => ?_⟩
      have otherHas : HasSibling hash.entries other := by
        by_cases is : other = entry
        · exact is ▸ has
        · exact ⟨entry, member, Ne.symm is, same.symm⟩
      refine ⟨?_, not_before_first sorted found ((sorted_mem other).mpr ⟨otherMember, otherHas⟩)
        (beq_iff_eq.mpr same)⟩
      rw [earliestIn, same, found, Option.getD_some]
    · rw [alone entry member has]
      refine ⟨member, rfl, fun other otherMember same => ?_⟩
      have is : other = entry := by
        by_contra apart
        exact has ⟨other, otherMember, apart, same⟩
      rw [is, alone entry member has]
      exact ⟨rfl, before_irrefl entry⟩
  · exact ((mem_callCallbacks duplicates call).mp reported).2.2
  · rw [callCallbacks_second, List.mem_filter, decide_eq_true_iff, sorted_mem, ne_comm]
    constructor
    · exact fun ⟨⟨member, _has⟩, apart⟩ => ⟨member, apart⟩
    · rintro ⟨member, apart⟩
      refine ⟨⟨member, ?_⟩, apart⟩
      by_contra single
      exact apart (alone entry member single).symm
  · rw [callCallbacks_second]
    exact nodup.filter _
  · rw [callCallbacks_second]
    exact sorted.filter _

end Duplicates
end Text
end WasmSandboxing
