import Mathlib.Data.List.Nodup
import Mathlib.Data.List.Perm.Subperm
import Mathlib.Data.List.Range
import Mathlib.Logic.Function.Basic

namespace WasmSandboxing
namespace Foundation

/-!
# Fresh names and symbol maps

Two devices of a code generator.  A fresh name is the first of a sequence of
candidates that is not taken.  A symbol map is filled by insertions that keep
the entry already present under a name, so a reference finds the symbol of
whatever was declared first under its name.
-/

/-! ## Fresh names -/

section Fresh

variable {Name : Type u}

/-- `name` is the first candidate that is not taken. -/
def FirstFree (taken : List Name) (candidate : Nat -> Name) (name : Name) : Prop :=
  ∃ count, candidate count = name ∧ name ∉ taken ∧
    forall earlier, earlier < count -> candidate earlier ∈ taken

theorem FirstFree.unique {taken : List Name} {candidate : Nat -> Name} {first second : Name}
    (isFirst : FirstFree taken candidate first) (isSecond : FirstFree taken candidate second) :
    first = second := by
  rcases isFirst with ⟨count, rfl, free, taken_before⟩
  rcases isSecond with ⟨other, rfl, free_other, taken_before_other⟩
  rcases Nat.lt_trichotomy count other with before | rfl | behind
  · exact absurd (taken_before_other count before) free
  · rfl
  · exact absurd (taken_before other behind) free_other

/-- Only which candidates are taken matters. -/
theorem FirstFree.congr {taken other : List Name} {candidate : Nat -> Name} {name : Name}
    (isFirst : FirstFree taken candidate name)
    (same : forall count, candidate count ∈ taken ↔ candidate count ∈ other) :
    FirstFree other candidate name := by
  rcases isFirst with ⟨count, rfl, free, taken_before⟩
  exact ⟨count, rfl, fun isMember => free ((same count).mpr isMember),
    fun earlier before => (same earlier).mp (taken_before earlier before)⟩

/-- The search tries no more candidates than there are names taken, and one. -/
theorem FirstFree.bounded {taken : List Name} {candidate : Nat -> Name} {name : Name}
    (distinct : Function.Injective candidate) (isFirst : FirstFree taken candidate name) :
    ∃ count, count ≤ taken.length ∧ candidate count = name := by
  rcases isFirst with ⟨count, rfl, -, taken_before⟩
  refine ⟨count, ?_, rfl⟩
  have nodup : ((List.range count).map candidate).Nodup := List.nodup_range.map distinct
  have all : (List.range count).map candidate ⊆ taken := by
    intro name isMember
    rcases List.mem_map.mp isMember with ⟨earlier, before, rfl⟩
    exact taken_before earlier (List.mem_range.mp before)
  have bound := (nodup.subperm all).length_le
  rwa [List.length_map, List.length_range] at bound

variable [DecidableEq Name]

/-- The first candidate that is not taken.  Among distinct candidates, one more
than there are names taken is enough to find one. -/
def firstFresh (taken : List Name) (candidate : Nat -> Name) : Name :=
  (((List.range (taken.length + 1)).map candidate).find? fun name => name ∉ taken).getD
    (candidate 0)

theorem firstFresh_candidate (taken : List Name) (candidate : Nat -> Name) :
    ∃ count, firstFresh taken candidate = candidate count := by
  unfold firstFresh
  cases found : ((List.range (taken.length + 1)).map candidate).find? fun name => name ∉ taken with
  | none => exact ⟨0, rfl⟩
  | some name =>
      rcases List.mem_map.mp (List.mem_of_find?_eq_some found) with ⟨count, _, same⟩
      exact ⟨count, same.symm⟩

theorem firstFresh_not_mem (taken : List Name) {candidate : Nat -> Name}
    (distinct : Function.Injective candidate) : firstFresh taken candidate ∉ taken := by
  unfold firstFresh
  cases found : ((List.range (taken.length + 1)).map candidate).find? fun name => name ∉ taken with
  | some name => simpa using List.find?_some found
  | none =>
      exfalso
      have all : ((List.range (taken.length + 1)).map candidate) ⊆ taken := by
        intro name member
        simpa using List.find?_eq_none.mp found name member
      have nodup : ((List.range (taken.length + 1)).map candidate).Nodup :=
        List.nodup_range.map distinct
      have bound := (nodup.subperm all).length_le
      rw [List.length_map, List.length_range] at bound
      omega

theorem firstFresh_firstFree (taken : List Name) {candidate : Nat -> Name}
    (distinct : Function.Injective candidate) :
    FirstFree taken candidate (firstFresh taken candidate) := by
  have free := firstFresh_not_mem taken distinct
  unfold firstFresh at free ⊢
  cases found : ((List.range (taken.length + 1)).map candidate).find? fun name => name ∉ taken with
  | none =>
      rw [found] at free
      refine ⟨0, rfl, free, fun earlier before => absurd before (Nat.not_lt_zero earlier)⟩
  | some name =>
      rcases List.find?_eq_some_iff_getElem.mp found with ⟨isFree, count, inside, at_count, before⟩
      have value : candidate count = name := by
        rw [List.getElem_map, List.getElem_range] at at_count
        exact at_count
      refine ⟨count, value, by simpa using isFree, fun earlier isEarlier => ?_⟩
      have passed := before earlier isEarlier
      rw [List.getElem_map, List.getElem_range] at passed
      simpa using passed

end Fresh

/-! ## Symbol maps -/

/-- What a generator does with its symbol map while it writes. -/
inductive SymbolAction (Entity : Type u) (Name : Type v) (Symbol : Type w) where
  | declare (entity : Entity) (name : Name) (symbol : Symbol)
  | refer (entity : Entity) (name : Name)

namespace SymbolAction

variable {Entity : Type u} {Name : Type v} {Symbol : Type w}

/-- The declarations, in order. -/
def declared : List (SymbolAction Entity Name Symbol) -> List (Entity × Name × Symbol)
  | [] => []
  | .declare entity name symbol :: rest => (entity, name, symbol) :: declared rest
  | .refer _ _ :: rest => declared rest

@[simp] theorem declared_append (first second : List (SymbolAction Entity Name Symbol)) :
    declared (first ++ second) = declared first ++ declared second := by
  induction first with
  | nil => rfl
  | cons action rest inductionHypothesis =>
      cases action with
      | declare entity name symbol =>
          rw [List.cons_append, declared, declared, inductionHypothesis, List.cons_append]
      | refer entity name => exact inductionHypothesis

/-- Every reference stands behind the declaration of its entity. -/
def Ordered (entries : List (Entity × Name × Symbol)) :
    List (SymbolAction Entity Name Symbol) -> Prop
  | [] => True
  | .declare entity name symbol :: rest => Ordered (entries ++ [(entity, name, symbol)]) rest
  | .refer entity name :: rest =>
      (∃ symbol, (entity, name, symbol) ∈ entries) ∧ Ordered entries rest

theorem Ordered.append_declare {actions : List (SymbolAction Entity Name Symbol)}
    {entries : List (Entity × Name × Symbol)} (ordered : Ordered entries actions)
    (entity : Entity) (name : Name) (symbol : Symbol) :
    Ordered entries (actions ++ [.declare entity name symbol]) := by
  induction actions generalizing entries with
  | nil => exact trivial
  | cons action rest inductionHypothesis =>
      cases action with
      | declare other name symbol => exact inductionHypothesis ordered
      | refer other name => exact ⟨ordered.1, inductionHypothesis ordered.2⟩

theorem Ordered.append_refer {actions : List (SymbolAction Entity Name Symbol)}
    {entries : List (Entity × Name × Symbol)} (ordered : Ordered entries actions)
    {entity : Entity} {name : Name} {symbol : Symbol}
    (present : (entity, name, symbol) ∈ entries ++ declared actions) :
    Ordered entries (actions ++ [.refer entity name]) := by
  induction actions generalizing entries with
  | nil =>
      rw [declared, List.append_nil] at present
      exact ⟨⟨symbol, present⟩, trivial⟩
  | cons action rest inductionHypothesis =>
      cases action with
      | declare other otherName otherSymbol =>
          apply inductionHypothesis ordered
          rwa [List.append_assoc]
      | refer other name => exact ⟨ordered.1, inductionHypothesis ordered.2 present⟩

variable [DecidableEq Name]

/-- The declaration that a name finds. -/
def first (name : Name) (entries : List (Entity × Name × Symbol)) :
    Option (Entity × Name × Symbol) :=
  entries.find? fun entry => entry.2.1 = name

/-- Each reference with the symbol that it finds, when `entries` have been
declared before. -/
def resolve (entries : List (Entity × Name × Symbol)) :
    List (SymbolAction Entity Name Symbol) -> List (Entity × Option Symbol)
  | [] => []
  | .declare entity name symbol :: rest => resolve (entries ++ [(entity, name, symbol)]) rest
  | .refer entity name :: rest =>
      (entity, (first name entries).map fun entry => entry.2.2) :: resolve entries rest

/-- A reference finds what the declarations of the whole output give it. -/
theorem mem_resolve_iff {actions : List (SymbolAction Entity Name Symbol)}
    {entries : List (Entity × Name × Symbol)} (ordered : Ordered entries actions)
    (entity : Entity) (found : Option Symbol) :
    (entity, found) ∈ resolve entries actions ↔
      ∃ name, .refer entity name ∈ actions ∧
        found = (first name (entries ++ declared actions)).map fun entry => entry.2.2 := by
  induction actions generalizing entries with
  | nil => simp [resolve]
  | cons action rest inductionHypothesis =>
      cases action with
      | declare other name symbol =>
          rw [resolve, inductionHypothesis ordered]
          simp [declared]
      | refer other name =>
          rcases ordered with ⟨⟨symbol, present⟩, later⟩
          have settled : first name (entries ++ declared rest) = first name entries := by
            have some : (first name entries).isSome := by
              rw [first, List.find?_isSome]
              exact ⟨_, present, by simp⟩
            rcases Option.isSome_iff_exists.mp some with ⟨entry, found⟩
            rw [first, List.find?_append, ← first, found]
            rfl
          rw [resolve, List.mem_cons, inductionHypothesis later, declared]
          constructor
          · rintro (same | ⟨name, member, same⟩)
            · cases same
              exact ⟨name, List.mem_cons_self, by rw [settled]⟩
            · exact ⟨name, List.mem_cons_of_mem _ member, same⟩
          · rintro ⟨name, member, same⟩
            rcases List.mem_cons.mp member with here | member
            · cases here
              exact Or.inl (by rw [same, settled])
            · exact Or.inr ⟨name, member, same⟩

/-- Every reference finds a symbol that was declared for its entity. -/
def Faithful (actions : List (SymbolAction Entity Name Symbol)) : Prop :=
  forall entity found, (entity, found) ∈ resolve [] actions ->
    ∃ name symbol, found = some symbol ∧ (entity, name, symbol) ∈ declared actions

/-- References are faithful when whatever stands first under their name has
been declared with the symbol of their own entity. -/
theorem faithful_iff {actions : List (SymbolAction Entity Name Symbol)}
    (ordered : Ordered [] actions) :
    Faithful actions ↔ forall entity name, .refer entity name ∈ actions ->
      ∃ entry, first name (declared actions) = some entry ∧
        ∃ own, (entity, own, entry.2.2) ∈ declared actions := by
  constructor
  · intro faithful entity name member
    rcases faithful entity _ ((mem_resolve_iff ordered entity _).mpr ⟨name, member, rfl⟩) with
      ⟨own, symbol, found, present⟩
    rcases Option.map_eq_some_iff.mp found with ⟨entry, here, rfl⟩
    exact ⟨entry, here, own, present⟩
  · intro settled entity found member
    rcases (mem_resolve_iff ordered entity found).mp member with ⟨name, refers, rfl⟩
    rcases settled entity name refers with ⟨entry, here, own, present⟩
    exact ⟨own, entry.2.2, by rw [List.nil_append, here]; rfl, present⟩

end SymbolAction

end Foundation
end WasmSandboxing
