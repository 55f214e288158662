import WasmSandboxing.WasmRt.HeapTop

namespace WasmSandboxing
namespace WasmRt

open Foundation CLang

/-!
# The layout of the memory

`wasm_set_constants` places the static data of the module, two cells, the stack
and the heap one behind the other.  How large the static data are is up to the
module; the assertions look at sums that may have wrapped.
-/

/-- `STACK_ALIGN`. -/
def stackAlign : BitVec 32 := 16

/-- `GLOBAL_BASE`, which is `STATIC_BASE`. -/
def globalBase : BitVec 32 := 1024

/-- `TOTAL_STACK`. -/
def totalStack : BitVec 32 := 5242880

/-- An enabled `assert`. -/
def assert (condition : Prop) [Decidable condition] : OnMemory Unit :=
  if condition then pure () else Traced.fail .abort

/-- `staticAlloc`: the allocated address and the new `STATICTOP`. -/
def staticAlloc (staticTop size : BitVec 32) : OnMemory (BitVec 32 × BitVec 32) := do
  let ret := staticTop
  let staticTop := (staticTop + size + 15) &&& (-16 : BitVec 32)
  assert (staticTop < getTotalMemory)
  pure (ret, staticTop)

/-- `alignMemory`.  The division is one of integers, so that `ceil` has nothing
to round. -/
def alignMemory (size : BitVec 32) : BitVec 32 := size / stackAlign * stackAlign

/-- The addresses that `wasm_set_constants` chooses. -/
structure Constants where
  tempDoublePtr : BitVec 32
  dynamicTopPtr : BitVec 32
  stackBase : BitVec 32
  stackMax : BitVec 32
  dynamicBase : BitVec 32
  deriving DecidableEq, Repr

namespace ImportEnv

/-- `wasm_set_constants`, for the static size that the module supplies. -/
def wasmSetConstants (env : ImportEnv) (staticBump : BitVec 32) : OnMemory Constants := do
  let staticBase := globalBase
  let staticTop := staticBase + staticBump
  let tempDoublePtr := staticTop
  let staticTop := staticTop + 16
  assert (tempDoublePtr % 8 = 0)
  let (dynamicTopPtr, staticTop) <- staticAlloc staticTop 4
  let stackBase := alignMemory staticTop
  let stackMax := stackBase + totalStack
  let dynamicBase := alignMemory stackMax
  env.i32Store dynamicTopPtr dynamicBase
  assert (dynamicBase < getTotalMemory)
  pure ⟨tempDoublePtr, dynamicTopPtr, stackBase, stackMax, dynamicBase⟩

end ImportEnv

/-! ## Regions -/

/-- The addresses from `start`, up to `stop` and without it. -/
structure Region where
  start : Nat
  stop : Nat

namespace Region

def Before (first second : Region) : Prop := first.stop ≤ second.start

/-- No address is in both. -/
def Apart (first second : Region) : Prop :=
  forall address, ¬ ((first.start ≤ address ∧ address < first.stop) ∧
    second.start ≤ address ∧ address < second.stop)

theorem Before.apart {first second : Region} (before : first.Before second) :
    first.Apart second := by
  rintro address ⟨⟨_, below⟩, above, _⟩
  exact absurd (Nat.lt_of_lt_of_le below before) (Nat.not_lt.mpr above)

end Region

namespace Constants

variable (constants : Constants) (staticBump : BitVec 32)

def staticData : Region :=
  ⟨globalBase.toNat, globalBase.toNat + staticBump.toNat⟩

def tempDouble : Region :=
  ⟨constants.tempDoublePtr.toNat, constants.tempDoublePtr.toNat + 16⟩

def dynamicTop : Region :=
  ⟨constants.dynamicTopPtr.toNat, constants.dynamicTopPtr.toNat + 4⟩

def stack : Region := ⟨constants.stackBase.toNat, constants.stackMax.toNat⟩

def heap : Region := ⟨constants.dynamicBase.toNat, getTotalMemory.toNat⟩

def regions : List Region :=
  [staticData staticBump, constants.tempDouble, constants.dynamicTop, constants.stack,
    constants.heap]

/-- The regions are in order and apart, each of them starts, ends and lies in
the memory, and the addresses are aligned. -/
structure LaidOut : Prop where
  ordered : (constants.regions staticBump).Pairwise Region.Before
  apart : (constants.regions staticBump).Pairwise Region.Apart
  inside : forall region, region ∈ constants.regions staticBump ->
    region.start ≤ region.stop ∧ region.stop ≤ getTotalMemory.toNat
  stackSize : constants.stackMax.toNat = constants.stackBase.toNat + totalStack.toNat
  tempDouble_aligned : constants.tempDoublePtr.toNat % 8 = 0
  dynamicTop_aligned : constants.dynamicTopPtr.toNat % 4 = 0
  stack_aligned : constants.stackBase.toNat % stackAlign.toNat = 0
  heap_aligned : constants.dynamicBase.toNat % stackAlign.toNat = 0

end Constants

/-! ## The chain of sums -/

theorem alignMemory_toNat (size : BitVec 32) :
    (alignMemory size).toNat = size.toNat / 16 * 16 := by
  have bound := size.isLt
  rw [alignMemory, BitVec.toNat_mul, BitVec.toNat_udiv]
  change size.toNat / 16 * 16 % 2 ^ 32 = _
  omega

/-- The mask clears the low four bits. -/
theorem mask_toNat (size : BitVec 32) :
    (size &&& (-16 : BitVec 32)).toNat = size.toNat / 16 * 16 := by
  have bits : forall index, index < 32 ->
      (-16 : BitVec 32).getLsbD index = !decide (index < 4) := by decide
  have shifted : size &&& (-16 : BitVec 32) = size >>> 4 <<< 4 := by
    apply BitVec.eq_of_getLsbD_eq
    intro index inside
    rw [BitVec.getLsbD_and, bits index inside, BitVec.getLsbD_shiftLeft,
      BitVec.getLsbD_ushiftRight, decide_eq_true inside, Bool.true_and, Bool.and_comm]
    by_cases low : index < 4
    · simp [low]
    · rw [Nat.add_sub_cancel' (Nat.le_of_not_lt low)]
  have bound := size.isLt
  rw [shifted, BitVec.toNat_shiftLeft, BitVec.toNat_ushiftRight, Nat.shiftLeft_eq,
    Nat.shiftRight_eq_div_pow]
  omega

theorem assert_bind {condition : Prop} [Decidable condition] (holds : condition)
    (next : Unit -> OnMemory R) : assert condition >>= next = next () := by
  rw [assert, if_pos holds]
  rfl

theorem assert_bind_stops {condition : Prop} [Decidable condition] (fails : ¬ condition)
    (next : Unit -> OnMemory R) : assert condition >>= next = Traced.fail .abort := by
  rw [assert, if_neg fails]
  rfl

/-- What is known of addresses whose assertions have passed.  The first two sums
may have wrapped; the others are checked. -/
structure Constants.Chosen (constants : Constants) (staticBump : BitVec 32) : Prop where
  tempDoublePtr : constants.tempDoublePtr.toNat = (1024 + staticBump.toNat) % 2 ^ 32
  dynamicTopPtr : constants.dynamicTopPtr.toNat = (constants.tempDoublePtr.toNat + 16) % 2 ^ 32
  stackBase : constants.stackBase.toNat =
    (constants.dynamicTopPtr.toNat + 19) % 2 ^ 32 / 16 * 16
  stackMax : constants.stackMax.toNat = (constants.stackBase.toNat + 5242880) % 2 ^ 32
  dynamicBase : constants.dynamicBase.toNat = constants.stackMax.toNat / 16 * 16
  aligned : constants.tempDoublePtr.toNat % 8 = 0
  staticFits : constants.stackBase.toNat < getTotalMemory.toNat
  stackFits : constants.dynamicBase.toNat < getTotalMemory.toNat

namespace ImportEnv

variable {env : ImportEnv} {memory : Memory} {staticBump : BitVec 32} {constants : Constants}

theorem staticAlloc_value {staticTop size : BitVec 32}
    (fits : (staticTop + size + 15) &&& (-16 : BitVec 32) < getTotalMemory) :
    staticAlloc staticTop size =
      pure (staticTop, (staticTop + size + 15) &&& (-16 : BitVec 32)) :=
  assert_bind fits _

theorem staticAlloc_stops {staticTop size : BitVec 32}
    (full : ¬ (staticTop + size + 15) &&& (-16 : BitVec 32) < getTotalMemory) :
    staticAlloc staticTop size = Traced.fail .abort :=
  assert_bind_stops full _

/-- `STATICTOP` behind the allocated word, whether or not the assertions hold. -/
def lastStaticTop (staticBump : BitVec 32) : BitVec 32 :=
  (globalBase + staticBump + 16 + 4 + 15) &&& (-16 : BitVec 32)

/-- What passing the assertions and the check of the store takes. -/
structure Passes (memory : Memory) (staticBump : BitVec 32) : Prop where
  aligned : (globalBase + staticBump) % 8 = 0
  staticFits : lastStaticTop staticBump < getTotalMemory
  stored : (globalBase + staticBump + 16).toNat + 4 ≤ memory.size.toNat
  stackFits : alignMemory (alignMemory (lastStaticTop staticBump) + totalStack) < getTotalMemory

/-- What follows the allocation, for the allocated address and the new
`STATICTOP`. -/
def placeStack (env : ImportEnv) (tempDoublePtr : BitVec 32) (allocated : BitVec 32 × BitVec 32) :
    OnMemory Constants := do
  let stackBase := alignMemory allocated.2
  let dynamicBase := alignMemory (stackBase + totalStack)
  env.i32Store allocated.1 dynamicBase
  assert (dynamicBase < getTotalMemory)
  pure ⟨tempDoublePtr, allocated.1, stackBase, stackBase + totalStack, dynamicBase⟩

theorem wasmSetConstants_eq (env : ImportEnv) (staticBump : BitVec 32) :
    env.wasmSetConstants staticBump = (do
      assert ((globalBase + staticBump) % 8 = 0)
      let allocated <- staticAlloc (globalBase + staticBump + 16) 4
      env.placeStack (globalBase + staticBump) allocated) := rfl

theorem placeStack_eq (env : ImportEnv) (tempDoublePtr dynamicTopPtr staticTop : BitVec 32) :
    env.placeStack tempDoublePtr (dynamicTopPtr, staticTop) = (do
      env.i32Store dynamicTopPtr (alignMemory (alignMemory staticTop + totalStack))
      assert (alignMemory (alignMemory staticTop + totalStack) < getTotalMemory)
      pure ⟨tempDoublePtr, dynamicTopPtr, alignMemory staticTop,
        alignMemory staticTop + totalStack,
        alignMemory (alignMemory staticTop + totalStack)⟩) := rfl

/-- The store, and the assertion that follows it. -/
theorem placeStack_value (env : ImportEnv) (tempDoublePtr : BitVec 32)
    {dynamicTopPtr staticTop : BitVec 32}
    (stored : dynamicTopPtr.toNat + 4 ≤ memory.size.toNat)
    (fits : alignMemory (alignMemory staticTop + totalStack) < getTotalMemory) :
    env.placeStack tempDoublePtr (dynamicTopPtr, staticTop) memory =
      ⟨.value ⟨tempDoublePtr, dynamicTopPtr, alignMemory staticTop,
          alignMemory staticTop + totalStack,
          alignMemory (alignMemory staticTop + totalStack)⟩,
        { memory with
          data := memory.data.write dynamicTopPtr.toNat 4
            (alignMemory (alignMemory staticTop + totalStack)).toNat },
        [⟨.write, dynamicTopPtr.toNat, 4⟩]⟩ := by
  rw [placeStack_eq, assert_bind fits, Traced.bind_apply, i32Store_value _ stored,
    Traced.andThen_value, Traced.pure_apply, List.append_nil]

/-- Passing runs choose the addresses, and store where the heap starts. -/
theorem wasmSetConstants_passes (env : ImportEnv) (passes : Passes memory staticBump) :
    env.wasmSetConstants staticBump memory =
      ⟨.value ⟨globalBase + staticBump, globalBase + staticBump + 16,
          alignMemory (lastStaticTop staticBump),
          alignMemory (lastStaticTop staticBump) + totalStack,
          alignMemory (alignMemory (lastStaticTop staticBump) + totalStack)⟩,
        { memory with
          data := memory.data.write (globalBase + staticBump + 16).toNat 4
            (alignMemory (alignMemory (lastStaticTop staticBump) + totalStack)).toNat },
        [⟨.write, (globalBase + staticBump + 16).toNat, 4⟩]⟩ := by
  rw [wasmSetConstants_eq, assert_bind passes.aligned, staticAlloc_value passes.staticFits,
    Traced.pure_bind]
  exact placeStack_value env (globalBase + staticBump) passes.stored passes.stackFits

/-- A run that returns has passed. -/
theorem passes_of_returned {env : ImportEnv}
    (returned : (env.wasmSetConstants staticBump memory).outcome = .value constants) :
    Passes memory staticBump := by
  rw [wasmSetConstants_eq] at returned
  by_cases aligned : (globalBase + staticBump) % 8 = 0
  · rw [assert_bind aligned] at returned
    by_cases staticFits : lastStaticTop staticBump < getTotalMemory
    · rw [staticAlloc_value staticFits, Traced.pure_bind, placeStack_eq,
        ← lastStaticTop] at returned
      by_cases stored : (globalBase + staticBump + 16).toNat + 4 ≤ memory.size.toNat
      · refine ⟨aligned, staticFits, stored, ?_⟩
        by_contra full
        rw [assert_bind_stops full, Traced.bind_apply, i32Store_value _ stored] at returned
        cases returned
      · rw [Traced.bind_apply, i32Store_stops _ (Nat.lt_of_not_le stored)] at returned
        cases returned
    · rw [staticAlloc_stops staticFits] at returned
      cases returned
  · rw [assert_bind_stops aligned] at returned
    cases returned

/-- What the chosen addresses are as numbers. -/
theorem chosen_of_passes (passes : Passes memory staticBump) : Constants.Chosen
    ⟨globalBase + staticBump, globalBase + staticBump + 16, alignMemory (lastStaticTop staticBump),
      alignMemory (lastStaticTop staticBump) + totalStack,
      alignMemory (alignMemory (lastStaticTop staticBump) + totalStack)⟩ staticBump where
  tempDoublePtr := BitVec.toNat_add _ _
  dynamicTopPtr := BitVec.toNat_add _ _
  stackBase := by
    have sum : (globalBase + staticBump + 16 + 4 + 15).toNat =
        ((globalBase + staticBump + 16).toNat + 19) % 2 ^ 32 := by
      rw [BitVec.toNat_add, BitVec.toNat_add]
      change (((globalBase + staticBump + 16).toNat + 4) % 2 ^ 32 + 15) % 2 ^ 32 = _
      omega
    dsimp only
    rw [alignMemory_toNat, lastStaticTop, mask_toNat, sum]
    omega
  stackMax := BitVec.toNat_add _ _
  dynamicBase := alignMemory_toNat _
  aligned := by
    have same := congrArg BitVec.toNat passes.aligned
    rw [BitVec.toNat_umod] at same
    exact same
  staticFits := by
    have fits : (lastStaticTop staticBump).toNat < getTotalMemory.toNat := passes.staticFits
    dsimp only
    rw [alignMemory_toNat]
    omega
  stackFits := passes.stackFits

end ImportEnv

/-! ## When the regions are laid out -/

namespace Constants

variable {constants : Constants} {staticBump : BitVec 32}

/-- Without wrapping, every address is the sum that it is meant to be. -/
structure Exact (constants : Constants) (staticBump : BitVec 32) : Prop where
  tempDoublePtr : constants.tempDoublePtr.toNat = 1024 + staticBump.toNat
  dynamicTopPtr : constants.dynamicTopPtr.toNat = constants.tempDoublePtr.toNat + 16
  stackBase : constants.stackBase.toNat = (constants.dynamicTopPtr.toNat + 19) / 16 * 16
  stackMax : constants.stackMax.toNat = constants.stackBase.toNat + 5242880
  dynamicBase : constants.dynamicBase.toNat = constants.stackMax.toNat

/-- The third sum is checked before it can wrap: the word has been stored. -/
theorem Chosen.exact {memory : Memory} (chosen : constants.Chosen staticBump)
    (stored : constants.dynamicTopPtr.toNat + 4 ≤ memory.size.toNat)
    (size : memory.size = getTotalMemory) (fits : 1024 + staticBump.toNat + 16 < 2 ^ 32) :
    constants.Exact staticBump := by
  rcases chosen with ⟨tempDoublePtr, dynamicTopPtr, stackBase, stackMax, dynamicBase, aligned,
    staticFits, stackFits⟩
  rw [size] at stored
  rw [ImportEnv.totalMemory_toNat] at stored staticFits stackFits
  constructor
  · omega
  · omega
  · omega
  · omega
  · omega

theorem Exact.ordered (exactly : constants.Exact staticBump) :
    (constants.regions staticBump).Pairwise Region.Before := by
  rcases exactly with ⟨tempDoublePtr, dynamicTopPtr, stackBase, stackMax, dynamicBase⟩
  have base : globalBase.toNat = 1024 := rfl
  simp only [regions, List.pairwise_cons, List.mem_cons, List.not_mem_nil, or_false,
    forall_eq_or_imp, forall_eq, Region.Before, staticData, tempDouble, dynamicTop, stack, heap,
    base, IsEmpty.forall_iff, implies_true, List.Pairwise.nil, and_true]
  omega

theorem Exact.inside (exactly : constants.Exact staticBump)
    (chosen : constants.Chosen staticBump) (region : Region)
    (isMember : region ∈ constants.regions staticBump) :
    region.start ≤ region.stop ∧ region.stop ≤ getTotalMemory.toNat := by
  rcases exactly with ⟨tempDoublePtr, dynamicTopPtr, stackBase, stackMax, dynamicBase⟩
  have fits := chosen.stackFits
  have base : globalBase.toNat = 1024 := rfl
  simp only [regions, List.mem_cons, List.not_mem_nil, or_false] at isMember
  rcases isMember with rfl | rfl | rfl | rfl | rfl
  · simp only [staticData, base]
    omega
  · simp only [tempDouble]
    omega
  · simp only [dynamicTop]
    omega
  · simp only [stack]
    omega
  · simp only [heap]
    omega

theorem Exact.laidOut (exactly : constants.Exact staticBump)
    (chosen : constants.Chosen staticBump) : constants.LaidOut staticBump where
  ordered := exactly.ordered
  apart := exactly.ordered.imp Region.Before.apart
  inside := exactly.inside chosen
  stackSize := exactly.stackMax
  tempDouble_aligned := chosen.aligned
  dynamicTop_aligned := by
    have aligned := chosen.aligned
    rw [exactly.dynamicTopPtr]
    omega
  stack_aligned := by
    change constants.stackBase.toNat % 16 = 0
    rw [exactly.stackBase]
    omega
  heap_aligned := by
    change constants.dynamicBase.toNat % 16 = 0
    rw [chosen.dynamicBase]
    omega

end Constants

namespace ImportEnv

variable {staticBump : BitVec 32} {constants : Constants}

/-- A layout that passes the assertions is one exactly if the static data and
the cell behind them end within 32 bits. -/
theorem layout_iff (env : ImportEnv) (staticBump : BitVec 32) (constants : Constants)
    (returned : (env.wasmSetConstants staticBump envMemory).outcome = .value constants) :
    constants.LaidOut staticBump ↔ globalBase.toNat + staticBump.toNat + 16 < 2 ^ 32 := by
  have passes := passes_of_returned returned
  rw [wasmSetConstants_passes env passes] at returned
  obtain rfl := Outcome.value.inj returned
  have chosen := chosen_of_passes passes
  constructor
  · intro laidOut
    have ends : globalBase.toNat + staticBump.toNat ≤ getTotalMemory.toNat :=
      (laidOut.inside _ List.mem_cons_self).2
    rw [totalMemory_toNat] at ends
    omega
  · intro fits
    exact (chosen.exact passes.stored rfl fits).laidOut chosen

theorem page_passes : Passes envMemory 65536 :=
  ⟨by decide, by decide, by decide, by decide⟩

theorem page_returns : (quietEnv.wasmSetConstants 65536 envMemory).outcome =
    .value ⟨66560, 66576, 66592, 5309472, 5309472⟩ := by
  rw [wasmSetConstants_passes quietEnv page_passes]
  exact congrArg Outcome.value (by decide)

/-- A module with 64 KiB of static data. -/
theorem layout_iff_page :
    Constants.LaidOut ⟨66560, 66576, 66592, 5309472, 5309472⟩ 65536 :=
  (layout_iff quietEnv 65536 _ page_returns).mpr (by decide)

theorem wrapping_passes : Passes envMemory 0xfffffc00 :=
  ⟨by decide, by decide, by decide, by decide⟩

/-- The static size with which `STATICTOP` wraps to zero: the stack is laid over
the static data, and the assertions hold. -/
theorem wrapping_layout :
    (quietEnv.wasmSetConstants 0xfffffc00 envMemory).outcome =
      .value ⟨0, 16, 32, 5242912, 5242912⟩ ∧
    ¬ Constants.LaidOut ⟨0, 16, 32, 5242912, 5242912⟩ 0xfffffc00 := by
  constructor
  · rw [wasmSetConstants_passes quietEnv wrapping_passes]
    exact congrArg Outcome.value (by decide)
  · intro laidOut
    have inside := (laidOut.inside _ List.mem_cons_self).2
    exact absurd inside (by decide)

/-! ## The first top -/

/-- The heap starts with a top that `sbrk_impl` can move. -/
theorem topStored_of_returned {env : ImportEnv} {memory : Memory}
    (returned : (env.wasmSetConstants staticBump memory).outcome = .value constants) :
    ({ env with dynamicTopPtr := constants.dynamicTopPtr } : ImportEnv).TopStored
      (env.wasmSetConstants staticBump memory).state := by
  have passes := passes_of_returned returned
  have ran := wasmSetConstants_passes env passes
  rw [ran] at returned
  obtain rfl := Outcome.value.inj returned
  have small := (chosen_of_passes passes).stackFits
  rw [ran]
  exact withTop_stored { env with dynamicTopPtr := globalBase + staticBump + 16 } passes.stored
    (Nat.le_of_lt small)

end ImportEnv

end WasmRt
end WasmSandboxing
