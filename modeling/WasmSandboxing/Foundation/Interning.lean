import Mathlib.Data.List.Nodup

namespace WasmSandboxing
namespace Foundation

/-!
# Interning

A table that gives each item the position of its first equal entry and grows
when there is none.  Positions then stand for items: equal items get equal
positions, at whatever time they are looked up.
-/

variable {Item : Type u}

/-- The first entry that is the same as the item, or a new last one. -/
def intern (same : Item -> Item -> Bool) (table : List Item) (item : Item) : Nat × List Item :=
  match table.findIdx? fun entry => same entry item with
  | some position => (position, table)
  | none => (table.length, table ++ [item])

/-- Representatives of entries may be interned in place of the entries. -/
theorem intern_map {Entry : Type v} {same : Item -> Item -> Bool} {sameEntry : Entry -> Entry -> Bool}
    {represent : Item -> Entry}
    (agrees : forall first second,
      sameEntry (represent first) (represent second) = same first second)
    (table : List Item) (item : Item) :
    intern sameEntry (table.map represent) (represent item) =
      ((intern same table item).1, (intern same table item).2.map represent) := by
  have found : (table.map represent).findIdx? (fun entry => sameEntry entry (represent item)) =
      table.findIdx? fun entry => same entry item := by
    rw [List.findIdx?_map]
    exact congrArg (List.findIdx? · table) (funext fun entry => agrees entry item)
  unfold intern
  rw [found]
  cases table.findIdx? fun entry => same entry item with
  | some position => rfl
  | none => simp

variable [DecidableEq Item] {table : List Item} {item : Item}

/-- Interning with equality. -/
def internEqual (table : List Item) (item : Item) : Nat × List Item :=
  intern (fun entry item => decide (entry = item)) table item

/-- The item stands at its position. -/
theorem internEqual_getElem : (internEqual table item).2[(internEqual table item).1]? = some item := by
  unfold internEqual intern
  cases found : table.findIdx? fun entry => decide (entry = item) with
  | some position =>
      rcases List.findIdx?_eq_some_iff_getElem.mp found with ⟨below, same, _⟩
      exact List.getElem?_eq_some_iff.mpr ⟨below, of_decide_eq_true same⟩
  | none => exact List.getElem?_concat_length

/-- Entries stay where they are. -/
theorem internEqual_kept : table <+: (internEqual table item).2 := by
  unfold internEqual intern
  cases table.findIdx? fun entry => decide (entry = item) with
  | some position => exact List.prefix_rfl
  | none => exact List.prefix_append _ _

/-- Entries stay distinct. -/
theorem internEqual_nodup (nodup : table.Nodup) : (internEqual table item).2.Nodup := by
  unfold internEqual intern
  cases found : table.findIdx? fun entry => decide (entry = item) with
  | some position => exact nodup
  | none =>
      have absent : item ∉ table := by
        intro member
        have different := List.findIdx?_eq_none_iff.mp found item member
        simp at different
      exact List.nodup_append'.mpr ⟨nodup, List.nodup_singleton item, by simpa using absent⟩

end Foundation
end WasmSandboxing
