import WasmSandboxing.Foundation.Transition
import WasmSandboxing.WasmRt.Imports

namespace WasmSandboxing
namespace WasmRt

open Foundation CLang

/-!
# The top of the heap

The top is a word of the sandbox's own memory.  `sbrk_impl` moves it in 32-bit
arithmetic, and whatever happens between two calls may write everything but
that word.
-/

namespace ImportEnv

variable {env : ImportEnv} {memory : Memory} {address : BitVec 32}

/-! ## Accesses that are inside -/

theorem widened_toNat (address : BitVec 32) : (address.setWidth 64).toNat = address.toNat := by
  have bound := address.isLt
  rw [BitVec.toNat_setWidth]
  omega

/-- The sum of the accessors' check does not wrap. -/
theorem widened_room (address : BitVec 32) : (address.setWidth 64).toNat + 4 < 2 ^ 64 := by
  have bound := address.isLt
  rw [widened_toNat]
  omega

theorem i32Load_value (inside : address.toNat + 4 ≤ memory.size.toNat) :
    env.i32Load address memory =
      ⟨.value (BitVec.ofNat 32 (memory.data.read address.toNat 4)), memory,
        [⟨.read, address.toNat, 4⟩]⟩ := by
  rw [← widened_toNat address] at inside
  rcases LoadFunction.call_inside env.fpu .i32Load (widened_room address) inside with
    ⟨value, result, called⟩
  rw [widened_toNat] at result called
  have loaded : LoadFunction.i32Load.result env.fpu (memory.data.read address.toNat 4) =
      some (CValue.u32 (BitVec.ofNat 32 (memory.data.read address.toNat 4))) := by
    have kept := CValue.convert_type env.fpu
      (.u32 (BitVec.ofNat 32 (memory.data.read address.toNat 4)))
    change (CValue.convert env.fpu .u32 (.u32 _)).bind (CValue.convert env.fpu .u32) = _
    rw [show CValue.convert env.fpu .u32 (.u32 _) = _ from kept]
    exact kept
  obtain rfl := Option.some.inj (loaded.symm.trans result)
  rw [i32Load, Traced.bind_apply, called]
  rfl

theorem i32Store_value (value : BitVec 32) (inside : address.toNat + 4 ≤ memory.size.toNat) :
    env.i32Store address value memory =
      ⟨.value (), { memory with data := memory.data.write address.toNat 4 value.toNat },
        [⟨.write, address.toNat, 4⟩]⟩ := by
  have typed : (CValue.u32 value).type = StoreFunction.i32Store.types.2 := rfl
  rw [← widened_toNat address] at inside
  have called := StoreFunction.call_inside env.fpu .i32Store typed (widened_room address) inside
  rw [widened_toNat] at called
  exact called

theorem i32Store_stops (value : BitVec 32) (outside : memory.size.toNat < address.toNat + 4) :
    env.i32Store address value memory = ⟨.fault (.trap .oob), memory, []⟩ := by
  have typed : (CValue.u32 value).type = StoreFunction.i32Store.types.2 := rfl
  rw [← widened_toNat address] at outside
  exact StoreFunction.call_outside env.fpu .i32Store typed (widened_room address) outside

/-! ## One call -/

variable (env)

/-- The top that the memory holds. -/
def heapTop (memory : Memory) : BitVec 32 :=
  BitVec.ofNat 32 (memory.data.read env.dynamicTopPtr.toNat 4)

/-- The word is in the memory, and the top is at most the end of the memory. -/
structure TopStored (memory : Memory) : Prop where
  word : env.dynamicTopPtr.toNat + 4 ≤ memory.size.toNat
  top_le : (env.heapTop memory).toNat ≤ getTotalMemory.toNat

/-- The new top without any wrapping. -/
def exactSum (memory : Memory) (increment : BitVec 32) : Int :=
  (env.heapTop memory).toNat + increment.toInt

/-- The new top is in the memory. -/
def Grants (memory : Memory) (increment : BitVec 32) : Prop :=
  0 ≤ env.exactSum memory increment ∧ env.exactSum memory increment ≤ getTotalMemory.toNat

/-- The memory in which the word holds the given top. -/
def withTop (memory : Memory) (top : Nat) : Memory :=
  { memory with data := memory.data.write env.dynamicTopPtr.toNat 4 top }

variable {env}

theorem totalMemory_toNat : getTotalMemory.toNat = 0x7fff0000 := rfl

theorem totalMemory_toInt : getTotalMemory.toInt = 0x7fff0000 := rfl

/-- What the two tests and the comparison with the total memory see. -/
structure Sums (top increment : BitVec 32) : Prop where
  top_toInt : top.toInt = top.toNat
  refused : ((0 < increment.toInt ∧ (top + increment).toInt < top.toInt) ∨
      (top + increment).toInt < 0) ↔
    (top.toNat + increment.toInt < 0 ∨ 2 ^ 31 ≤ top.toNat + increment.toInt)
  moved : 0 ≤ top.toNat + increment.toInt -> top.toNat + increment.toInt < 2 ^ 31 ->
    (top + increment).toInt = top.toNat + increment.toInt ∧
      ((top + increment).toNat : Int) = top.toNat + increment.toInt

/-- A top below 2^31: the sum wraps exactly beyond 2^31, where it is negative. -/
theorem sums {top : BitVec 32} (increment : BitVec 32)
    (small : top.toNat ≤ getTotalMemory.toNat) : Sums top increment := by
  have bound := increment.isLt
  rw [totalMemory_toNat] at small
  have topInt : top.toInt = top.toNat := by
    rw [BitVec.toInt_eq_toNat_cond, if_pos (by omega)]
  have sum : (top + increment).toNat = (top.toNat + increment.toNat) % 2 ^ 32 :=
    BitVec.toNat_add _ _
  have sumInt := BitVec.toInt_eq_toNat_cond (top + increment)
  have incrementInt := BitVec.toInt_eq_toNat_cond increment
  constructor
  · exact topInt
  · split at incrementInt
    · split at sumInt
      · omega
      · omega
    · split at sumInt
      · omega
      · omega
  · intro above below
    split at incrementInt
    · split at sumInt
      · omega
      · omega
    · split at sumInt
      · omega
      · omega

theorem TopStored.load (stored : env.TopStored memory) : env.i32Load env.dynamicTopPtr memory =
    ⟨.value (env.heapTop memory), memory, [⟨.read, env.dynamicTopPtr.toNat, 4⟩]⟩ :=
  i32Load_value stored.word

/-- A top that stays in the memory is stored and the old one returned. -/
theorem sbrk_granted {increment : BitVec 32} (stored : env.TopStored memory)
    (granted : env.Grants memory increment) : ∃ accesses,
    env.sbrk increment memory = ⟨.value (env.heapTop memory),
      env.withTop memory (env.exactSum memory increment).toNat, accesses⟩ := by
  rcases granted with ⟨above, below⟩
  rw [totalMemory_toNat] at below
  have seen := sums increment stored.top_le
  rcases seen.moved above (by unfold exactSum at below; omega) with ⟨newInt, newNat⟩
  have notRefused := seen.refused.not.mpr (by unfold exactSum at above below; omega)
  have fits : ¬ (env.heapTop memory + increment).toInt > getTotalMemory.toInt := by
    rw [newInt, totalMemory_toInt]
    unfold exactSum at below
    omega
  have same : (env.heapTop memory + increment).toNat = (env.exactSum memory increment).toNat := by
    unfold exactSum
    omega
  refine ⟨[⟨.read, env.dynamicTopPtr.toNat, 4⟩] ++ ([⟨.write, env.dynamicTopPtr.toNat, 4⟩] ++ []),
    ?_⟩
  rw [sbrk, Traced.bind_apply, stored.load, Traced.andThen_value]
  dsimp only
  rw [if_neg notRefused, Traced.bind_apply, i32Store_value _ stored.word, Traced.andThen_value,
    if_neg fits, same]
  rfl

/-- Any other sum aborts, before or after it has been stored. -/
theorem sbrk_refused {increment : BitVec 32} (stored : env.TopStored memory)
    (refused : ¬ env.Grants memory increment) :
    (env.sbrk increment memory).outcome = .fault .abort := by
  have seen := sums increment stored.top_le
  rw [sbrk, Traced.bind_apply, stored.load, Traced.andThen_value]
  dsimp only
  by_cases tested : (0 < increment.toInt ∧
      (env.heapTop memory + increment).toInt < (env.heapTop memory).toInt) ∨
    (env.heapTop memory + increment).toInt < 0
  · rw [if_pos tested]
    rfl
  · have inWord := seen.refused.not.mp tested
    have beyond : (env.heapTop memory + increment).toInt > getTotalMemory.toInt := by
      rw [(seen.moved (by omega) (by omega)).1, totalMemory_toInt]
      unfold Grants exactSum at refused
      rw [totalMemory_toNat] at refused
      omega
    rw [if_neg tested, Traced.bind_apply, i32Store_value _ stored.word, Traced.andThen_value,
      if_pos beyond]
    rfl

/-- The word holds what was stored. -/
theorem heapTop_withTop {top : Nat} (small : top ≤ getTotalMemory.toNat) :
    (env.heapTop (env.withTop memory top)).toNat = top := by
  rw [totalMemory_toNat] at small
  rw [heapTop, withTop, Bytes.read_write, BitVec.toNat_ofNat]
  omega

theorem withTop_stored (env : ImportEnv) {memory : Memory} {top : Nat}
    (word : env.dynamicTopPtr.toNat + 4 ≤ memory.size.toNat)
    (small : top ≤ getTotalMemory.toNat) : env.TopStored (env.withTop memory top) :=
  ⟨word, (heapTop_withTop small).symm ▸ small⟩

/-! ## Runs -/

variable (env)

/-- What happens to the memory: a call of `sbrk_impl`, or anything else, after
which the memory is the given one. -/
inductive HeapEvent where
  | sbrk (increment : BitVec 32)
  | other (after : Memory)

/-- The word is as it was, and so is the size. -/
def KeepsTop (memory after : Memory) : Prop :=
  after.size = memory.size ∧ env.heapTop after = env.heapTop memory

instance (memory after : Memory) : Decidable (env.KeepsTop memory after) :=
  inferInstanceAs (Decidable (_ ∧ _))

def heapStep (memory : Memory) : HeapEvent -> Option Memory
  | .sbrk increment =>
      match (env.sbrk increment memory).outcome with
      | .value _top => some (env.sbrk increment memory).state
      | .fault _reason => none
  | .other after => if env.KeepsTop memory after then some after else none

/-- The successful calls and what happens between them. -/
def heapRuns : System Memory HeapEvent where
  step := env.heapStep

variable {env}

theorem heapStep_stored (memory : Memory) (event : HeapEvent) (after : Memory)
    (stored : env.TopStored memory) (stepped : env.heapRuns.step memory event = some after) :
    env.TopStored after := by
  cases event with
  | sbrk increment =>
      change env.heapStep memory (.sbrk increment) = some after at stepped
      rw [heapStep] at stepped
      by_cases granted : env.Grants memory increment
      · rcases sbrk_granted stored granted with ⟨accesses, called⟩
        rw [called] at stepped
        obtain rfl := Option.some.inj stepped
        have below : (env.exactSum memory increment).toNat ≤ getTotalMemory.toNat :=
          Int.toNat_le.mpr granted.2
        exact withTop_stored env stored.word below
      · rw [sbrk_refused stored granted] at stepped
        cases stepped
  | other changed =>
      change env.heapStep memory (.other changed) = some after at stepped
      rw [heapStep] at stepped
      split at stepped
      · rename_i keeps
        obtain rfl := Option.some.inj stepped
        exact ⟨keeps.1.symm ▸ stored.word, keeps.2.symm ▸ stored.top_le⟩
      · cases stepped

/-- A call moves the top exactly if the sum without wrapping is in the memory
and aborts otherwise, so that successful calls keep the top in the memory. -/
theorem sbrk_exact (env : ImportEnv) (memory : Memory) (stored : env.TopStored memory) :
    (forall increment,
      ((∃ accesses, env.sbrk increment memory = ⟨.value (env.heapTop memory),
          env.withTop memory (env.exactSum memory increment).toNat, accesses⟩) ↔
        env.Grants memory increment) ∧
      (¬ env.Grants memory increment ->
        (env.sbrk increment memory).outcome = .fault .abort)) ∧
    forall events last, env.heapRuns.run memory events = some last ->
      (env.heapTop last).toNat ≤ getTotalMemory.toNat := by
  refine ⟨fun increment => ⟨⟨fun moved => ?_, sbrk_granted stored⟩, sbrk_refused stored⟩,
    fun events last ran => ?_⟩
  · by_contra refused
    rcases moved with ⟨accesses, called⟩
    have aborted := sbrk_refused stored refused
    rw [called] at aborted
    cases aborted
  · exact (System.run_invariant heapStep_stored stored ran).top_le

/-- The runtime with functions of a guest that does nothing. -/
def quietEnv : ImportEnv where
  fpu := default
  dynamicTopPtr := 1040
  errnoLocation _arguments _data := none
  realloc _arguments _data := none
  setTempRet0 _arguments data := some (0, data)
  setjmpIds _depth := 1

/-- A page is granted to a heap that starts behind the stack. -/
theorem sbrk_exact_page : ∃ accesses,
    quietEnv.sbrk 65536 (quietEnv.withTop envMemory 5243936) =
      ⟨.value (quietEnv.heapTop (quietEnv.withTop envMemory 5243936)),
        quietEnv.withTop (quietEnv.withTop envMemory 5243936) 5309472, accesses⟩ := by
  have top : (quietEnv.heapTop (quietEnv.withTop envMemory 5243936)).toNat = 5243936 :=
    heapTop_withTop (by decide)
  have stored : quietEnv.TopStored (quietEnv.withTop envMemory 5243936) :=
    withTop_stored quietEnv (by decide) (by decide)
  have sum : quietEnv.exactSum (quietEnv.withTop envMemory 5243936) 65536 = 5309472 := by
    rw [exactSum, top]
    rfl
  have granted : quietEnv.Grants (quietEnv.withTop envMemory 5243936) 65536 := by
    rw [Grants, sum]
    decide
  have moved := ((sbrk_exact quietEnv _ stored).1 65536).1.mpr granted
  rwa [sum] at moved

end ImportEnv

end WasmRt
end WasmSandboxing
