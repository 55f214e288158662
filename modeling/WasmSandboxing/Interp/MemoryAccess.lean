import Mathlib.Algebra.Ring.Nat

namespace WasmSandboxing
namespace Interp

/-!
# Memory accesses of the interpreter
-/

/-- `Thread::GetAccessAddress`: the address of an access of `sizeof` bytes in a
memory whose data has `size` bytes, or nothing for a trap with
`MemoryAccessOutOfBounds`.  All sums are `uint64_t`. -/
def getAccessAddress (size : BitVec 64) (base offset : BitVec 32) (sizeof : Nat) :
    Option (BitVec 64) :=
  let address := base.setWidth 64 + offset.setWidth 64
  if address + BitVec.ofNat 64 sizeof > size then none else some address

theorem getAccessAddress_inside {length : Nat} {base offset : BitVec 32} {sizeof : Nat}
    (atMost : length ≤ 2 ^ 32) (small : sizeof ≤ 8)
    (fits : base.toNat + offset.toNat + sizeof ≤ length) :
    getAccessAddress (BitVec.ofNat 64 length) base offset sizeof =
      some (base.setWidth 64 + offset.setWidth 64) := by
  have baseBound := base.isLt
  have offsetBound := offset.isLt
  rw [getAccessAddress, if_neg]
  rw [gt_iff_lt, BitVec.lt_def]
  simp only [BitVec.toNat_add, BitVec.toNat_setWidth, BitVec.toNat_ofNat]
  omega

theorem getAccessAddress_outside {length : Nat} {base offset : BitVec 32} {sizeof : Nat}
    (atMost : length ≤ 2 ^ 32) (small : sizeof ≤ 8)
    (beyond : length < base.toNat + offset.toNat + sizeof) :
    getAccessAddress (BitVec.ofNat 64 length) base offset sizeof = none := by
  have baseBound := base.isLt
  have offsetBound := offset.isLt
  rw [getAccessAddress, if_pos]
  rw [gt_iff_lt, BitVec.lt_def]
  simp only [BitVec.toNat_add, BitVec.toNat_setWidth, BitVec.toNat_ofNat]
  omega

end Interp
end WasmSandboxing
