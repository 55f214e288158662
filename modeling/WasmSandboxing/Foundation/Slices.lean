import Mathlib.Algebra.Order.Sub.Basic

namespace WasmSandboxing
namespace Foundation

/-!
# Slices of a list

A slice is what stands between two positions.  Neighbouring slices are
joined by appending, and overwriting puts new elements in the place of those
that follow a position.
-/

/-- The elements from `start` to `stop`, the latter excluded. -/
def slice (values : List Element) (start stop : Nat) : List Element :=
  (values.take stop).drop start

/-- The elements from `position` on are replaced by as many as are given. -/
def overwrite (values : List Element) (position : Nat) (data : List Element) : List Element :=
  values.take position ++ data ++ values.drop (position + data.length)

variable {values data : List Element} {start middle stop position : Nat}

theorem slice_length (values : List Element) (start stop : Nat) :
    (slice values start stop).length = min stop values.length - start := by
  rw [slice, List.length_drop, List.length_take]

@[simp] theorem slice_self (values : List Element) (start : Nat) :
    slice values start start = [] :=
  List.drop_eq_nil_of_le (List.length_take_le start values)

theorem slice_append_slice (first : start ≤ middle) (second : middle ≤ stop)
    (inside : middle ≤ values.length) :
    slice values start middle ++ slice values middle stop = slice values start stop := by
  have front : (values.take middle).length = middle := List.length_take_of_le inside
  have whole : values.take stop = values.take middle ++ (values.take stop).drop middle := by
    conv_lhs => rw [← List.take_append_drop middle (values.take stop)]
    rw [List.take_take, Nat.min_eq_left second]
  calc slice values start middle ++ slice values middle stop
      = (values.take middle ++ (values.take stop).drop middle).drop start :=
        (List.drop_append_of_le_length (front.symm ▸ first)).symm
    _ = slice values start stop := by rw [← whole, slice]

/-- A slice of what stands first. -/
theorem slice_append_left (rest : List Element) (inside : stop ≤ values.length) :
    slice (values ++ rest) start stop = slice values start stop := by
  rw [slice, slice, List.take_append_of_le_length inside]

theorem take_drop_eq_slice (values : List Element) (start count : Nat) :
    (values.drop start).take count = slice values start (start + count) := by
  rw [slice, List.drop_take, Nat.add_sub_cancel_left]

theorem slice_take {count : Nat} (inside : start + count ≤ stop) :
    (slice values start stop).take count = slice values start (start + count) := by
  rw [slice, slice, List.take_drop, List.take_take, Nat.min_eq_left inside]

/-- A slice of a slice is a slice. -/
theorem slice_slice {first last : Nat} (inside : start + last ≤ stop) :
    slice (slice values start stop) first last = slice values (start + first) (start + last) := by
  rw [slice, slice, slice, List.take_drop, List.take_take, Nat.min_eq_left inside, List.drop_drop]

theorem overwrite_length (room : position + data.length ≤ values.length) :
    (overwrite values position data).length = values.length := by
  rw [overwrite, List.length_append, List.length_append, List.length_drop,
    List.length_take_of_le (Nat.le_trans (Nat.le_add_right _ _) room)]
  exact Nat.add_sub_cancel' room

/-- What was overwritten joins what stood in front of it. -/
theorem slice_overwrite (first : start ≤ position) (inside : position ≤ values.length) :
    slice (overwrite values position data) start (position + data.length) =
      slice values start position ++ data := by
  have front : (values.take position).length = position := List.length_take_of_le inside
  have kept : (overwrite values position data).take (position + data.length) =
      values.take position ++ data := by
    rw [overwrite]
    refine List.take_left' ?_
    rw [List.length_append, front]
  rw [slice, slice, kept, List.drop_append_of_le_length (front.symm ▸ first)]

/-- Overwriting behind some elements leaves them. -/
theorem overwrite_append (front rest data : List Element) (position : Nat) :
    overwrite (front ++ rest) (front.length + position) data =
      front ++ overwrite rest position data := by
  rw [overwrite, overwrite, List.take_length_add_append, Nat.add_assoc,
    List.drop_length_add_append, List.append_assoc, List.append_assoc, List.append_assoc]

theorem overwrite_zero (values data : List Element) :
    overwrite values 0 data = data ++ values.drop data.length := by
  rw [overwrite, List.take_zero, List.nil_append, Nat.zero_add]

/-- What stands between two others is a slice. -/
theorem slice_between (front inner rest : List Element) :
    slice (front ++ inner ++ rest) front.length (front.length + inner.length) = inner := by
  rw [slice, ← List.length_append, List.take_left, List.drop_left]

end Foundation
end WasmSandboxing
