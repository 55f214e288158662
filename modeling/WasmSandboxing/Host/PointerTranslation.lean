import WasmSandboxing.Host.Pointers

namespace WasmSandboxing
namespace Host

open Foundation WasmRt

/-!
# Pointer translation as a correspondence

The two translations and the two address tests of `WasmSandbox` implement one
interval of the host's addresses.  The offset zero stands for the null pointer,
so that the first byte of the memory has no offset.
-/

namespace Sandbox

variable (sandbox : Sandbox)

/-! ## The address tests -/

/-- `wasm_memory_end`, a sum of `uintptr_t` operands. -/
def wasmMemoryEnd : BitVec 64 := sandbox.wasmMemory + sandbox.wasmMemorySize

def isAddressInNonSandboxMemoryOrNull (p : BitVec 64) : Bool :=
  p = 0 || p < sandbox.wasmMemory || p ≥ sandbox.wasmMemoryEnd

def isAddressInSandboxMemoryOrNull (p : BitVec 64) : Bool :=
  p = 0 || !(p < sandbox.wasmMemory || p ≥ sandbox.wasmMemoryEnd)

/-! ## The interval -/

/-- An address of the sandbox's memory. -/
def InMemory (address : BitVec 64) : Prop :=
  sandbox.wasmMemory.toNat ≤ address.toNat ∧
    address.toNat < sandbox.wasmMemory.toNat + sandbox.wasmMemorySize.toNat

/-- An address of the sandbox's memory behind its first byte. -/
def StrictlyInside (address : BitVec 64) : Prop :=
  sandbox.wasmMemory.toNat < address.toNat ∧
    address.toNat < sandbox.wasmMemory.toNat + sandbox.wasmMemorySize.toNat

/-- An offset that is not null and lies in the memory. -/
def InRange (offset : BitVec 32) : Prop :=
  offset ≠ 0 ∧ offset.toNat < sandbox.wasmMemorySize.toNat

/-- The computation gives the pointer and leaves the guest alone. -/
def Gives (computation : OnHost (BitVec 64)) (pointer : BitVec 64) : Prop :=
  forall guest, computation guest = ⟨.value pointer, guest, []⟩

/-- What the four functions promise together. -/
structure Corresponds : Prop where
  leaves : forall offset, sandbox.InRange offset -> ∃ address, sandbox.StrictlyInside address ∧
    Gives (sandbox.getUnsandboxedPointer (offset.setWidth 64)) address ∧
    Gives (sandbox.getSandboxedPointer address) (offset.setWidth 64)
  enters : forall address, sandbox.StrictlyInside address -> ∃ offset, sandbox.InRange offset ∧
    Gives (sandbox.getSandboxedPointer address) (offset.setWidth 64) ∧
    Gives (sandbox.getUnsandboxedPointer (offset.setWidth 64)) address
  leavesNull : forall offset : BitVec 32,
    Gives (sandbox.getUnsandboxedPointer (offset.setWidth 64)) 0 ↔ offset = 0
  entersNull : forall address, Gives (sandbox.getSandboxedPointer address) 0 ↔ address = 0
  confined : forall (p address : BitVec 64), Gives (sandbox.getUnsandboxedPointer p) address ->
    address = 0 ∨ sandbox.InMemory address
  inside : forall address, sandbox.isAddressInSandboxMemoryOrNull address = true ↔
    address = 0 ∨ sandbox.InMemory address
  outside : forall address, sandbox.isAddressInNonSandboxMemoryOrNull address = true ↔
    address = 0 ∨ ¬ sandbox.InMemory address
  apart : forall address, address ≠ 0 ->
    ¬ (sandbox.isAddressInSandboxMemoryOrNull address = true ∧
      sandbox.isAddressInNonSandboxMemoryOrNull address = true)

variable {sandbox}

/-! ## The translations -/

theorem Gives.unique {computation : OnHost (BitVec 64)} {first second : BitVec 64}
    (gives : Gives computation first) (gives' : Gives computation second) : first = second := by
  have same := (gives ⟨[], [], true⟩).symm.trans (gives' ⟨[], [], true⟩)
  injection same with value
  injection value

theorem not_pointerAborts {offset : BitVec 32} (inRange : sandbox.InRange offset) :
    ¬ sandbox.PointerAborts offset :=
  fun aborts => Nat.not_lt.mpr aborts.2 inRange.2

/-- The high half of the argument is masked away. -/
theorem getUnsandboxedPointer_low (p : BitVec 64) : sandbox.getUnsandboxedPointer p =
    sandbox.getUnsandboxedPointer ((p.setWidth 32).setWidth 64) := by
  have masked : p &&& 0xFFFFFFFF = (p.setWidth 32).setWidth 64 &&& 0xFFFFFFFF := by
    apply BitVec.eq_of_toNat_eq
    change p.toNat &&& 2 ^ 32 - 1 = ((p.setWidth 32).setWidth 64).toNat &&& 2 ^ 32 - 1
    rw [Nat.and_two_pow_sub_one_eq_mod, Nat.and_two_pow_sub_one_eq_mod, BitVec.toNat_setWidth,
      BitVec.toNat_setWidth]
    omega
  rw [getUnsandboxedPointer, masked, getUnsandboxedPointer]

theorem hostPointer_strictlyInside {offset : BitVec 32} (inRange : sandbox.InRange offset) :
    sandbox.StrictlyInside (sandbox.hostPointer offset) := by
  have sum := hostPointer_toNat (not_pointerAborts inRange) inRange.1
  have positive : 0 < offset.toNat :=
    Nat.pos_of_ne_zero fun none => inRange.1 (BitVec.eq_of_toNat_eq none)
  have below := inRange.2
  constructor
  · omega
  · omega

/-- Whatever is asked for, the answer is null or an address of the memory. -/
theorem getUnsandboxedPointer_confined {p address : BitVec 64}
    (gives : Gives (sandbox.getUnsandboxedPointer p) address) :
    address = 0 ∨ sandbox.InMemory address := by
  rw [getUnsandboxedPointer_low] at gives
  by_cases aborts : sandbox.PointerAborts (p.setWidth 32)
  · have stopped := (getUnsandboxedPointer_aborts aborts ⟨[], [], true⟩).symm.trans (gives _)
    injection stopped with outcome
    cases outcome
  · have answer := gives.unique (getUnsandboxedPointer_returns aborts)
    by_cases null : p.setWidth 32 = 0
    · left
      rw [answer, hostPointer, if_pos null]
    · right
      have inRange : sandbox.InRange (p.setWidth 32) :=
        ⟨null, Nat.lt_of_not_le fun beyond => aborts ⟨null, beyond⟩⟩
      have inside := hostPointer_strictlyInside inRange
      rw [answer]
      exact ⟨Nat.le_of_lt inside.1, inside.2⟩

/-- An address behind the first byte is that of one offset, if all offsets have
32 bits. -/
theorem strictlyInside_hostPointer {address : BitVec 64}
    (small : sandbox.wasmMemorySize.toNat ≤ 2 ^ 32) (inside : sandbox.StrictlyInside address) :
    ∃ offset, sandbox.InRange offset ∧ sandbox.hostPointer offset = address := by
  rcases inside with ⟨above, below⟩
  have bound := address.isLt
  have toNat : (BitVec.ofNat 32 (address.toNat - sandbox.wasmMemory.toNat)).toNat =
      address.toNat - sandbox.wasmMemory.toNat := by
    rw [BitVec.toNat_ofNat]
    exact Nat.mod_eq_of_lt (by omega)
  have inRange : sandbox.InRange
      (BitVec.ofNat 32 (address.toNat - sandbox.wasmMemory.toNat)) := by
    refine ⟨fun null => ?_, by omega⟩
    rw [null] at toNat
    change 0 = _ at toNat
    omega
  refine ⟨_, inRange, BitVec.eq_of_toNat_eq ?_⟩
  rw [hostPointer_toNat (not_pointerAborts inRange) inRange.1, toNat]
  omega

theorem getUnsandboxedPointer_null_iff (offset : BitVec 32) :
    Gives (sandbox.getUnsandboxedPointer (offset.setWidth 64)) 0 ↔ offset = 0 := by
  constructor
  · intro gives
    by_contra nonzero
    by_cases aborts : sandbox.PointerAborts offset
    · have stopped := (getUnsandboxedPointer_aborts aborts ⟨[], [], true⟩).symm.trans (gives _)
      injection stopped with outcome
      cases outcome
    · exact hostPointer_ne_zero aborts nonzero
        (Gives.unique (getUnsandboxedPointer_returns aborts) gives)
  · rintro rfl
    exact fun guest => getUnsandboxedPointer_returns (fun aborts => aborts.1 rfl) guest

theorem getSandboxedPointer_null_iff (address : BitVec 64) :
    Gives (sandbox.getSandboxedPointer address) 0 ↔ address = 0 := by
  constructor
  · intro gives
    by_contra nonzero
    have run := gives ⟨[], [], true⟩
    rw [getSandboxedPointer, if_neg nonzero] at run
    by_cases base : address = sandbox.wasmMemory
    · rw [if_pos base] at run
      injection run with outcome
      cases outcome
    · rw [if_neg base] at run
      split at run
      · injection run with outcome
        injection outcome with zero
        exact base ((BitVec.sub_eq_iff_eq_add.mp zero).trans (BitVec.zero_add _))
      · injection run with outcome
        cases outcome
  · rintro rfl
    exact fun guest => rfl

/-! ## The tests -/

theorem isAddressInNonSandboxMemoryOrNull_iff (p : BitVec 64) :
    sandbox.isAddressInNonSandboxMemoryOrNull p = true ↔
      p = 0 ∨ ¬ (sandbox.wasmMemory.toNat ≤ p.toNat ∧ p.toNat < sandbox.wasmMemoryEnd.toNat) := by
  simp only [isAddressInNonSandboxMemoryOrNull, Bool.or_eq_true, decide_eq_true_eq, BitVec.lt_def,
    ge_iff_le, BitVec.le_def]
  rw [or_assoc]
  refine or_congr_right ?_
  omega

theorem isAddressInSandboxMemoryOrNull_iff (p : BitVec 64) :
    sandbox.isAddressInSandboxMemoryOrNull p = true ↔
      p = 0 ∨ (sandbox.wasmMemory.toNat ≤ p.toNat ∧ p.toNat < sandbox.wasmMemoryEnd.toNat) := by
  simp only [isAddressInSandboxMemoryOrNull, Bool.or_eq_true, decide_eq_true_eq,
    Bool.not_eq_true', Bool.or_eq_false_iff, decide_eq_false_iff_not, BitVec.lt_def, ge_iff_le,
    BitVec.le_def, Nat.not_lt, Nat.not_le]

/-- The two tests compare with the same bounds. -/
theorem tests_apart {p : BitVec 64} (nonzero : p ≠ 0) :
    ¬ (sandbox.isAddressInSandboxMemoryOrNull p = true ∧
      sandbox.isAddressInNonSandboxMemoryOrNull p = true) := by
  rw [isAddressInSandboxMemoryOrNull_iff, isAddressInNonSandboxMemoryOrNull_iff]
  rintro ⟨null | inside, null | outside⟩
  · exact nonzero null
  · exact nonzero null
  · exact nonzero null
  · exact outside inside

/-- The end of the memory is its exact sum, or zero where that is 2^64. -/
theorem wasmMemoryEnd_toNat : sandbox.wasmMemoryEnd.toNat =
    (sandbox.wasmMemory.toNat + sandbox.wasmMemorySize.toNat) % 2 ^ 64 :=
  BitVec.toNat_add _ _

/-- The last byte of a memory that ends where the address space ends is tested
against the end zero. -/
theorem last_byte_missed
    (full : sandbox.wasmMemory.toNat + sandbox.wasmMemorySize.toNat = 2 ^ 64) :
    sandbox.isAddressInSandboxMemoryOrNull (BitVec.allOnes 64) = false ∧
      sandbox.InMemory (BitVec.allOnes 64) := by
  have last : (BitVec.allOnes 64).toNat = 2 ^ 64 - 1 := BitVec.toNat_allOnes
  have base := sandbox.wasmMemory.isLt
  have ends : sandbox.wasmMemoryEnd.toNat = 0 := by
    rw [wasmMemoryEnd_toNat, full, Nat.mod_self]
  constructor
  · rw [Bool.eq_false_iff, Ne, isAddressInSandboxMemoryOrNull_iff, ends]
    rintro (null | ⟨_, below⟩)
    · rw [null] at last
      cases last
    · exact Nat.not_lt_zero _ below
  · exact ⟨by omega, by omega⟩

/-- The functions correspond to each other and to the interval exactly if the
memory ends below the end of the address space. -/
theorem corresponds_iff (sandbox : Sandbox) (small : sandbox.wasmMemorySize.toNat ≤ 2 ^ 32) :
    sandbox.Corresponds ↔
      sandbox.wasmMemory.toNat + sandbox.wasmMemorySize.toNat < 2 ^ 64 := by
  constructor
  · intro corresponds
    refine Nat.lt_of_le_of_ne sandbox.addressable fun full => ?_
    rcases last_byte_missed full with ⟨missed, inMemory⟩
    rw [(corresponds.inside _).mpr (Or.inr inMemory)] at missed
    cases missed
  · intro below
    have ends : sandbox.wasmMemoryEnd.toNat =
        sandbox.wasmMemory.toNat + sandbox.wasmMemorySize.toNat := by
      rw [wasmMemoryEnd_toNat, Nat.mod_eq_of_lt below]
    exact {
      leaves := fun offset inRange =>
        ⟨sandbox.hostPointer offset, hostPointer_strictlyInside inRange,
          getUnsandboxedPointer_returns (not_pointerAborts inRange),
          getSandboxedPointer_hostPointer (not_pointerAborts inRange)⟩
      enters := fun address inside => by
        rcases strictlyInside_hostPointer small inside with ⟨offset, inRange, rfl⟩
        exact ⟨offset, inRange, getSandboxedPointer_hostPointer (not_pointerAborts inRange),
          getUnsandboxedPointer_returns (not_pointerAborts inRange)⟩
      leavesNull := getUnsandboxedPointer_null_iff
      entersNull := getSandboxedPointer_null_iff
      confined := fun _p _address gives => getUnsandboxedPointer_confined gives
      inside := fun address => by
        rw [isAddressInSandboxMemoryOrNull_iff, ends]
        rfl
      outside := fun address => by
        rw [isAddressInNonSandboxMemoryOrNull_iff, ends]
        rfl
      apart := fun _address nonzero => tests_apart nonzero }

/-- A memory as `wasm_init_module` asks for it. -/
def ordinary : Sandbox where
  wasmMemory := 0x7f0000000000
  wasmMemorySize := 0x7fff0000
  heapBase := 0x504000
  addressable := by decide

theorem corresponds_iff_ordinary : ordinary.Corresponds :=
  (corresponds_iff ordinary (by decide)).mpr (by decide)

/-- A memory of one page at the end of the address space. -/
def topmost : Sandbox where
  wasmMemory := 0xffffffffffff0000
  wasmMemorySize := 0x10000
  heapBase := 0x400
  addressable := by decide

/-- Its last byte is taken for memory of the host. -/
theorem topmost_misjudged : topmost.InMemory 0xffffffffffffffff ∧
    topmost.isAddressInSandboxMemoryOrNull 0xffffffffffffffff = false ∧
    topmost.isAddressInNonSandboxMemoryOrNull 0xffffffffffffffff = true ∧
    ¬ topmost.Corresponds := by
  have inMemory : topmost.InMemory 0xffffffffffffffff := ⟨by decide, by decide⟩
  have missed : topmost.isAddressInSandboxMemoryOrNull 0xffffffffffffffff = false := by decide
  refine ⟨inMemory, missed, by decide, fun corresponds => ?_⟩
  rw [(corresponds.inside _).mpr (Or.inr inMemory)] at missed
  cases missed

end Sandbox

end Host
end WasmSandboxing
