import Mathlib.Algebra.Ring.Nat

namespace WasmSandboxing
namespace Foundation

/-!
# Byte-addressed stores

A store gives a byte at every index; which indices belong to an allocation is
the business of whoever owns the store.  Numbers are little-endian.
-/

/-- A byte at every index. -/
abbrev Bytes := Nat -> BitVec 8

namespace Bytes

/-- The number in `count` bytes from `start`. -/
def read (data : Bytes) (start : Nat) : Nat -> Nat
  | 0 => 0
  | count + 1 => (data start).toNat + 256 * read data (start + 1) count

/-- Replace the bytes from `start` to `start + count`. -/
def replace (data : Bytes) (start count : Nat) (source : Nat -> BitVec 8) : Bytes :=
  fun index => if start ≤ index ∧ index < start + count then source (index - start) else data index

/-- Write a number into `count` bytes from `start`. -/
def write (data : Bytes) (start count number : Nat) : Bytes :=
  data.replace start count fun index => BitVec.ofNat 8 (number / 256 ^ index)

/-- Copy `count` bytes from `source` to `target`, as if all were read first. -/
def copy (data : Bytes) (target source count : Nat) : Bytes :=
  data.replace target count fun index => data (source + index)

theorem replace_outside (data : Bytes) (start count : Nat) (source : Nat -> BitVec 8)
    (index : Nat) (outside : index < start ∨ start + count ≤ index) :
    data.replace start count source index = data index := by
  rw [replace, if_neg]
  rintro ⟨above, below⟩
  omega

theorem replace_inside (data : Bytes) (start count : Nat) (source : Nat -> BitVec 8)
    (index : Nat) (inside : index < count) :
    data.replace start count source (start + index) = source index := by
  rw [replace, if_pos ⟨by omega, by omega⟩, Nat.add_sub_cancel_left]

/-- Equal bytes at two places are read as equal numbers. -/
theorem read_moved {first second : Bytes} {start target count : Nat}
    (agree : forall index, index < count -> first (start + index) = second (target + index)) :
    first.read start count = second.read target count := by
  induction count generalizing start target with
  | zero => rfl
  | succ count inductionHypothesis =>
      have rest : first.read (start + 1) count = second.read (target + 1) count := by
        refine inductionHypothesis fun index below => ?_
        rw [Nat.add_assoc, Nat.add_assoc, Nat.add_comm 1 index]
        exact agree (index + 1) (by omega)
      have here : first start = second target := agree 0 (by omega)
      rw [read, read, here, rest]

/-- A read depends on the bytes it reads only. -/
theorem read_congr {first second : Bytes} {start count : Nat}
    (agree : forall index, index < count -> first (start + index) = second (start + index)) :
    first.read start count = second.read start count :=
  read_moved agree

theorem read_lt (data : Bytes) (start count : Nat) : data.read start count < 256 ^ count := by
  induction count generalizing start with
  | zero => exact Nat.one_pos
  | succ count inductionHypothesis =>
      have rest := inductionHypothesis (start + 1)
      have here : (data start).toNat < 256 := (data start).isLt
      rw [read, Nat.pow_succ]
      omega

/-- Reading back what was written gives the number's low bytes. -/
theorem read_write (data : Bytes) (start count number : Nat) :
    (data.write start count number).read start count = number % 256 ^ count := by
  suffices general : forall (store : Bytes) (start number : Nat),
      (forall index, index < count ->
        store (start + index) = BitVec.ofNat 8 (number / 256 ^ index)) ->
      store.read start count = number % 256 ^ count by
    exact general _ start number fun index below => replace_inside _ _ _ _ index below
  induction count with
  | zero => exact fun store start number _written => (Nat.mod_one number).symm
  | succ count inductionHypothesis =>
      intro store start number written
      have rest : store.read (start + 1) count = number / 256 % 256 ^ count := by
        refine inductionHypothesis store (start + 1) (number / 256) fun index below => ?_
        have byte := written (index + 1) (by omega)
        rw [Nat.pow_succ', ← Nat.div_div_eq_div_mul] at byte
        rw [Nat.add_assoc, Nat.add_comm 1 index]
        exact byte
      have here : (store start).toNat = number % 256 := by
        have byte := written 0 (by omega)
        rw [Nat.add_zero, Nat.pow_zero, Nat.div_one] at byte
        rw [byte, BitVec.toNat_ofNat]
      rw [read, rest, here, Nat.pow_succ', Nat.mod_mul]

theorem write_outside (data : Bytes) {start count index : Nat} (number : Nat)
    (outside : index < start ∨ start + count ≤ index) :
    data.write start count number index = data index :=
  replace_outside data start count _ index outside

/-- A write leaves the numbers beside it alone. -/
theorem read_write_apart (data : Bytes) {start count other length : Nat} (number : Nat)
    (apart : other + length ≤ start ∨ start + count ≤ other) :
    (data.write start count number).read other length = data.read other length :=
  read_congr fun index below => write_outside data number (by omega)

end Bytes

end Foundation
end WasmSandboxing
