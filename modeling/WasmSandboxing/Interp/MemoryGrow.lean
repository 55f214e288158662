import WasmSandboxing.Interp.Executor

namespace WasmSandboxing
namespace Interp

open Foundation Wasm

/-!
# The size of a memory

Every instruction but `grow_memory` leaves the limits and the size of every
memory as they are.
-/

/-- What no access of a memory changes. -/
def Memory.shape (memory : Memory) : Limits × Nat := (memory.pageLimits, memory.size)

namespace Thread

variable {Host : Type} {options : Options} {numerics : Numerics} {env : Environment Host}
  {thread next : Thread Host}

def shapes (thread : Thread Host) : List (Limits × Nat) := thread.memories.map Memory.shape

/-- The memories keep their sizes and the stack its bound. -/
structure Keeps (options : Options) (thread next : Thread Host) : Prop where
  shapes : next.shapes = thread.shapes
  bounded : thread.valueStack.length ≤ options.valueStackSize ->
    next.valueStack.length ≤ options.valueStackSize

theorem Keeps.trans {between : Thread Host} (first : Keeps options thread between)
    (second : Keeps options between next) : Keeps options thread next :=
  ⟨second.shapes.trans first.shapes, fun bounded => second.bounded (first.bounded bounded)⟩

theorem Keeps.of_stack {stack : List Value} {callStack : List Nat} {pc : Nat} {host : Host}
    {globals : List TypedValue} (short : stack.length ≤ thread.valueStack.length) :
    Keeps options thread ⟨host, thread.memories, globals, stack, callStack, pc⟩ :=
  ⟨rfl, Nat.le_trans short⟩

theorem Keeps.withPc (keeps : Keeps options thread next) (pc : Nat) :
    Keeps options thread { next with pc } :=
  ⟨keeps.shapes, keeps.bounded⟩

theorem push_keeps {value : Value} (pushed : thread.push options value = .ok next) :
    Keeps options thread next := by
  rcases push_ok.mp pushed with ⟨room, rfl⟩
  exact ⟨rfl, fun _ => room⟩

theorem pop_keeps {value : Value} (popped : thread.pop = .ok (value, next)) :
    Keeps options thread next := by
  rcases pop_ok.mp popped with ⟨rest, stack, rfl⟩
  refine Keeps.of_stack ?_
  rw [stack]
  exact Nat.le_succ _

theorem setPick_keeps {depth : BitVec 32} {value : Value}
    (assigned : thread.setPick depth value = .ok next) : Keeps options thread next := by
  rw [setPick_ok assigned]
  exact Keeps.of_stack (Nat.le_of_eq List.length_set)

theorem dropKeep_keeps {dropCount keepCount : BitVec 32}
    (dropped : thread.dropKeep dropCount keepCount = .ok next) : Keeps options thread next := by
  rcases dropKeep_ok dropped with ⟨kept, moved, _, rfl⟩
  refine Keeps.of_stack ?_
  rw [List.length_drop, keepValues_length moved]
  exact Nat.sub_le _ _

theorem pushCall_keeps {pc : Nat} (called : thread.pushCall options pc = .ok next) :
    Keeps options thread next := by
  rcases pushCall_ok called with ⟨_, rfl⟩
  exact Keeps.of_stack (Nat.le_refl _)

theorem load_keeps {opcode : LoadOpcode} {memoryIndex offset : BitVec 32}
    (loaded : thread.load options opcode memoryIndex offset = .ok next) :
    Keeps options thread next := by
  rcases bind_ok.mp loaded with ⟨memory, _, loaded⟩
  rcases bind_ok.mp loaded with ⟨⟨base, between⟩, popped, loaded⟩
  rcases bind_ok.mp loaded with ⟨address, _, pushed⟩
  exact (pop_keeps popped).trans (push_keeps pushed)

theorem store_keeps {opcode : StoreOpcode} {memoryIndex offset : BitVec 32}
    (stored : thread.store opcode memoryIndex offset = .ok next) : Keeps options thread next := by
  rcases bind_ok.mp stored with ⟨⟨value, first⟩, popped, stored⟩
  rcases bind_ok.mp stored with ⟨memory, found, stored⟩
  rcases bind_ok.mp stored with ⟨⟨base, second⟩, again, stored⟩
  rcases bind_ok.mp stored with ⟨address, _, final⟩
  cases final
  have kept := (@pop_keeps _ options _ _ _ popped).trans (pop_keeps again)
  refine ⟨?_, kept.bounded⟩
  rw [← kept.shapes]
  have same : second.memories = first.memories := by
    rcases pop_ok.mp again with ⟨_, _, rfl⟩
    rfl
  rw [readMemory, orUndefined_ok, ← same] at found
  have here : second.shapes[memoryIndex.toNat]? = some memory.shape := by
    rw [shapes, List.getElem?_map, found]
    rfl
  rcases List.getElem?_eq_some_iff.mp here with ⟨inside, shape⟩
  have unchanged := List.set_getElem_self inside
  rw [shape] at unchanged
  exact List.map_set.trans unchanged

theorem pushResults_keeps {types : List ValueType} {results : List TypedValue} :
    Keeps options thread (thread.pushResults options types results).2 := by
  induction types generalizing thread results with
  | nil => exact Keeps.of_stack (Nat.le_refl _)
  | cons type types inductionHypothesis =>
      cases results with
      | nil => exact Keeps.of_stack (Nat.le_refl _)
      | cons result results =>
          unfold pushResults
          split
          · exact Keeps.of_stack (Nat.le_refl _)
          · split
            · rename_i pushed made
              exact (push_keeps made).trans inductionHypothesis
            · exact Keeps.of_stack (Nat.le_refl _)

theorem callHost_keeps {sigIndex : Nat} {callback : HostFuncCallback Host} {result : Result}
    (called : thread.callHost options env sigIndex callback = .ok (result, next)) :
    Keeps options thread next := by
  rcases bind_ok.mp called with ⟨sig, _, called⟩
  simp only at called
  split at called
  · cases called
  · have dropped (host : Host) : Keeps options thread
        { thread with host, valueStack := thread.valueStack.drop sig.paramTypes.length } := by
      refine Keeps.of_stack ?_
      rw [List.length_drop]
      exact Nat.sub_le _ _
    split at called
    · cases called
      exact dropped _
    · have same := congrArg Prod.snd (Except.ok.inj called)
      change (pushResults options sig.resultTypes _ _).2 = next at same
      rw [← same]
      exact (dropped _).trans pushResults_keeps

theorem indirectCallee_keeps {tableIndex sigIndex : BitVec 32} {func : Func Host}
    (found : thread.indirectCallee env tableIndex sigIndex = .ok (func, next)) :
    Keeps options thread next := by
  rcases bind_ok.mp found with ⟨table, _, found⟩
  rcases bind_ok.mp found with ⟨⟨entryIndex, between⟩, popped, found⟩
  simp only at found
  split at found
  · cases found
  · cases found
  · rcases bind_ok.mp found with ⟨callee, _, found⟩
    rcases bind_ok.mp found with ⟨equal, _, found⟩
    split at found
    · cases found
      exact pop_keeps popped
    · cases found

theorem callIndirect_keeps {tableIndex sigIndex : BitVec 32}
    (called : thread.callIndirect options env tableIndex sigIndex = .ok next) :
    Keeps options thread next := by
  rcases bind_ok.mp called with ⟨⟨func, between⟩, found, called⟩
  have kept := @indirectCallee_keeps _ options _ _ _ _ _ _ found
  cases func with
  | host sigIndex callback =>
      rcases bind_ok.mp called with ⟨⟨result, after⟩, host, final⟩
      cases final
      exact kept.trans (callHost_keeps host)
  | defined sigIndex offset =>
      rcases bind_ok.mp called with ⟨after, pushed, final⟩
      cases final
      exact kept.trans ((pushCall_keeps pushed).withPc offset)

theorem interpCallHost_keeps {funcIndex : BitVec 32}
    (called : thread.interpCallHost options env funcIndex = .ok next) :
    Keeps options thread next := by
  unfold interpCallHost at called
  split at called
  · rcases bind_ok.mp called with ⟨⟨result, after⟩, host, final⟩
    cases final
    exact callHost_keeps host
  · cases called

theorem interpAlloca_keeps {count : BitVec 32}
    (allocated : thread.interpAlloca options count = .ok next) : Keeps options thread next := by
  unfold interpAlloca at allocated
  simp only at allocated
  split at allocated
  · cases allocated
  · rename_i room
    split at allocated
    · rename_i exactly
      cases allocated
      refine ⟨rfl, fun _ => ?_⟩
      rw [BitVec.toNat_add, BitVec.toNat_ofNat] at room
      simp only [List.length_append, List.length_replicate]
      omega
    · cases allocated

theorem brTable_keeps {numTargets tableOffset : BitVec 32}
    (jumped : thread.brTable env numTargets tableOffset = .ok next) :
    Keeps options thread next := by
  rcases bind_ok.mp jumped with ⟨⟨key, between⟩, popped, jumped⟩
  rcases bind_ok.mp jumped with ⟨⟨target, dropCount, keepCount⟩, _, jumped⟩
  rcases bind_ok.mp jumped with ⟨after, dropped, final⟩
  cases final
  exact (pop_keeps popped).trans ((dropKeep_keeps dropped).withPc _)

theorem unop_keeps {func : Value -> Except Result Value}
    (computed : thread.unop options func = .ok next) : Keeps options thread next := by
  rcases bind_ok.mp computed with ⟨⟨value, between⟩, popped, computed⟩
  rcases bind_ok.mp computed with ⟨result, _, pushed⟩
  exact (pop_keeps popped).trans (push_keeps pushed)

theorem binop_keeps {func : Value -> Value -> Except Result Value}
    (computed : thread.binop options func = .ok next) : Keeps options thread next := by
  rcases bind_ok.mp computed with ⟨⟨rhs, first⟩, popped, computed⟩
  rcases bind_ok.mp computed with ⟨⟨lhs, second⟩, again, computed⟩
  rcases bind_ok.mp computed with ⟨result, _, pushed⟩
  exact ((pop_keeps popped).trans (pop_keeps again)).trans (push_keeps pushed)

/-- Every instruction but one. -/
theorem execute_keeps {instr : Instr}
    (other : forall memoryIndex, instr ≠ .memoryGrow memoryIndex)
    (executed : thread.execute options numerics env instr = .ok next) :
    Keeps options thread next := by
  cases instr with
  | select =>
      rcases bind_ok.mp executed with ⟨⟨cond, first⟩, popped, executed⟩
      rcases bind_ok.mp executed with ⟨⟨ifFalse, second⟩, again, executed⟩
      rcases bind_ok.mp executed with ⟨⟨ifTrue, third⟩, last, pushed⟩
      exact ((pop_keeps popped).trans (pop_keeps again)).trans
        ((pop_keeps last).trans (push_keeps pushed))
  | br offset =>
      cases executed
      exact Keeps.of_stack (Nat.le_refl _)
  | brIf offset =>
      rcases bind_ok.mp executed with ⟨⟨cond, between⟩, popped, final⟩
      cases final
      have kept := @pop_keeps _ options _ _ _ popped
      split
      · exact kept.withPc _
      · exact kept
  | brTable numTargets tableOffset => exact brTable_keeps executed
  | ret =>
      change thread.ret = .ok next at executed
      unfold ret at executed
      split at executed
      · cases executed
      · cases executed
        exact Keeps.of_stack (Nat.le_refl _)
  | unreachable => cases executed
  | const value => exact push_keeps executed
  | getGlobal index =>
      rcases bind_ok.mp executed with ⟨global, _, pushed⟩
      exact push_keeps pushed
  | setGlobal index =>
      rcases bind_ok.mp executed with ⟨global, _, executed⟩
      rcases bind_ok.mp executed with ⟨⟨value, between⟩, popped, final⟩
      cases final
      have kept := @pop_keeps _ options _ _ _ popped
      exact ⟨kept.shapes, kept.bounded⟩
  | getLocal depth =>
      rcases bind_ok.mp executed with ⟨value, _, pushed⟩
      exact push_keeps pushed
  | setLocal depth =>
      rcases bind_ok.mp executed with ⟨⟨value, between⟩, popped, assigned⟩
      exact (pop_keeps popped).trans (setPick_keeps assigned)
  | teeLocal depth =>
      rcases bind_ok.mp executed with ⟨value, _, assigned⟩
      exact setPick_keeps assigned
  | call offset =>
      rcases bind_ok.mp executed with ⟨between, pushed, final⟩
      cases final
      exact (pushCall_keeps pushed).withPc _
  | callIndirect tableIndex sigIndex => exact callIndirect_keeps executed
  | interpCallHost funcIndex => exact interpCallHost_keeps executed
  | load opcode memoryIndex offset => exact load_keeps executed
  | store opcode memoryIndex offset => exact store_keeps executed
  | memorySize memoryIndex =>
      rcases bind_ok.mp executed with ⟨memory, _, pushed⟩
      exact push_keeps pushed
  | memoryGrow memoryIndex => exact absurd rfl (other memoryIndex)
  | unary opcode => exact unop_keeps executed
  | binary opcode => exact binop_keeps executed
  | compare opcode => exact binop_keeps executed
  | convert opcode => exact unop_keeps executed
  | interpAlloca count => exact interpAlloca_keeps executed
  | interpBrUnless offset =>
      rcases bind_ok.mp executed with ⟨⟨cond, between⟩, popped, final⟩
      cases final
      have kept := @pop_keeps _ options _ _ _ popped
      split
      · exact kept.withPc _
      · exact kept
  | drop =>
      rcases bind_ok.mp executed with ⟨⟨value, between⟩, popped, final⟩
      cases final
      exact pop_keeps popped
  | interpDropKeep dropCount keepCount => exact dropKeep_keeps executed
  | nop =>
      cases executed
      exact Keeps.of_stack (Nat.le_refl _)

end Thread

/-! ## Limits -/

/-- The pages that a memory may have at most. -/
def Limits.maximum (limits : Limits) : Nat := if limits.hasMax then limits.max else maxPages

/-- The limits that `BinaryReader::ReadMemory` accepts; `WABT_BINARY_LIMITS_HAS_MAX_FLAG`
is 1 and `WABT_BINARY_LIMITS_IS_SHARED_FLAG` is 2. -/
def readMemory (flags initial max : BitVec 32) : Option Limits :=
  let hasMax := flags &&& 1 != 0
  let isShared := flags &&& 2 != 0
  if initial.toNat > maxPages then none
  else if isShared && !hasMax then none
  else if hasMax then
    if max.toNat > maxPages then none
    else if initial > max then none
    else some ⟨initial.toNat, max.toNat, true⟩
  else some ⟨initial.toNat, 0, false⟩

/-- A memory whose size is that of its pages, which are within its limits. -/
structure Memory.Sound (memory : Memory) : Prop where
  size : memory.size = memory.pageLimits.initial * pageSize
  initial : memory.pageLimits.initial ≤ memory.pageLimits.maximum
  maximum : memory.pageLimits.maximum ≤ maxPages

/-- A memory that a module has been given, with any data copied into it. -/
def Memory.Loaded (memory : Memory) : Prop :=
  ∃ flags initial max limits data, readMemory flags initial max = some limits ∧
    memory = { Memory.ofLimits limits with data }

theorem Memory.Loaded.sound {memory : Memory} (loaded : memory.Loaded) : memory.Sound := by
  rcases loaded with ⟨flags, initial, max, limits, data, accepted, rfl⟩
  unfold readMemory at accepted
  simp only at accepted
  split at accepted
  · cases accepted
  · rename_i few
    split at accepted
    · cases accepted
    · split at accepted
      · split at accepted
        · cases accepted
        · rename_i most
          split at accepted
          · cases accepted
          · rename_i below
            cases accepted
            rw [gt_iff_lt, BitVec.lt_def, Nat.not_lt] at below
            exact ⟨rfl, below, Nat.not_lt.mp most⟩
      · cases accepted
        exact ⟨rfl, Nat.not_lt.mp few, Nat.le_refl _⟩

theorem Memory.sound_of_shape {first second : Memory} (same : first.shape = second.shape)
    (sound : first.Sound) : second.Sound := by
  have limits : first.pageLimits = second.pageLimits := congrArg Prod.fst same
  have size : first.size = second.size := congrArg Prod.snd same
  exact ⟨size ▸ limits ▸ sound.size, limits ▸ sound.initial, limits ▸ sound.maximum⟩

/-! ## Growing -/

/-- A memory with more pages: its bytes are kept, and the new ones are zero. -/
structure Memory.GrowsTo (memory grown : Memory) (pages : Nat) : Prop where
  limits : grown.pageLimits = { memory.pageLimits with initial := pages }
  size : grown.size = pages * pageSize
  old : forall index, index < memory.size -> grown.data index = memory.data index
  new : forall index, memory.size ≤ index -> index < grown.size -> grown.data index = 0

/-- What is left of a memory that is resized to these pages. -/
def Memory.withPages (memory : Memory) (pages : Nat) : Memory :=
  { memory.resize (pages * pageSize) with
    pageLimits := { memory.pageLimits with initial := pages } }

theorem Memory.withPages_grows (memory : Memory) (pages : Nat) :
    memory.GrowsTo (memory.withPages pages) pages where
  limits := rfl
  size := rfl
  old _ below := if_pos below
  new _ above _ := if_neg (Nat.not_lt.mpr above)

namespace Thread

variable {Host : Type} {options : Options} {numerics : Numerics} {env : Environment Host}
  {thread next : Thread Host}

theorem memoryGrow_eq {memoryIndex : BitVec 32} {memory : Memory} {grown : Value}
    {rest : List Value} (sound : memory.Sound)
    (found : thread.memories[memoryIndex.toNat]? = some memory)
    (stack : thread.valueStack = grown :: rest) (room : rest.length < options.valueStackSize) :
    thread.memoryGrow options memoryIndex =
      let pages := (memory.pageLimits.initial + grown.i32.toNat) % 2 ^ 32
      if pages ≤ memory.pageLimits.maximum ∧ pages * pageSize < 2 ^ 32 then
        .ok { thread with
          valueStack := .ofI32 (BitVec.ofNat 32 memory.pageLimits.initial) :: rest
          memories := thread.memories.set memoryIndex.toNat (memory.withPages pages) }
      else .ok { thread with valueStack := .ofI32 (-1) :: rest } := by
  have small : maxPages < 2 ^ 32 := by decide
  have below := sound.initial
  have most := sound.maximum
  have initial : memory.pageLimits.initial % 2 ^ 32 = memory.pageLimits.initial :=
    Nat.mod_eq_of_lt (by omega)
  have maximum : memory.pageLimits.maximum % 2 ^ 32 = memory.pageLimits.maximum :=
    Nat.mod_eq_of_lt (by omega)
  have pages : (BitVec.ofNat 32 memory.pageLimits.initial + grown.i32).toNat =
      (memory.pageLimits.initial + grown.i32.toNat) % 2 ^ 32 := by
    rw [BitVec.toNat_add, BitVec.toNat_ofNat, initial]
  have read : thread.readMemory memoryIndex = .ok memory := orUndefined_ok.mpr found
  have popped : thread.pop = .ok (grown, { thread with valueStack := rest }) :=
    pop_ok.mpr ⟨rest, stack, rfl⟩
  have pushed (value : Value) (memories : List Memory) :
      ({ thread with valueStack := rest, memories } : Thread Host).push options value =
        .ok { thread with valueStack := value :: rest, memories } :=
    push_ok.mpr ⟨room, rfl⟩
  have unfolded : thread.memoryGrow options memoryIndex =
      if BitVec.ofNat 32 memory.pageLimits.initial + grown.i32 >
          BitVec.ofNat 32 memory.pageLimits.maximum then
        ({ thread with valueStack := rest } : Thread Host).push options (.ofI32 (-1))
      else if (BitVec.ofNat 32 memory.pageLimits.initial + grown.i32).toNat * pageSize >
          2 ^ 32 - 1 then
        ({ thread with valueStack := rest } : Thread Host).push options (.ofI32 (-1))
      else
        ({ thread with
          valueStack := rest
          memories := thread.memories.set memoryIndex.toNat
            { memory.resize ((BitVec.ofNat 32 memory.pageLimits.initial + grown.i32) *
                BitVec.ofNat 32 pageSize).toNat with
              pageLimits := { memory.pageLimits with
                initial := (BitVec.ofNat 32 memory.pageLimits.initial + grown.i32).toNat } } } :
          Thread Host).push options (.ofI32 (BitVec.ofNat 32 memory.pageLimits.initial)) := by
    rw [memoryGrow, read]
    change thread.pop.bind _ = _
    rw [popped]
    rfl
  have beyond : BitVec.ofNat 32 memory.pageLimits.initial + grown.i32 >
      BitVec.ofNat 32 memory.pageLimits.maximum ↔
        memory.pageLimits.maximum < (memory.pageLimits.initial + grown.i32.toNat) % 2 ^ 32 := by
    rw [gt_iff_lt, BitVec.lt_def, pages, BitVec.toNat_ofNat, maximum]
  rw [unfolded, pages]
  generalize (memory.pageLimits.initial + grown.i32.toNat) % 2 ^ 32 = after at beyond pages ⊢
  simp only [beyond]
  by_cases above : memory.pageLimits.maximum < after
  · rw [if_pos above, if_neg (by omega)]
    exact pushed _ _
  · rw [if_neg above]
    by_cases large : after * pageSize > 2 ^ 32 - 1
    · rw [if_pos large, if_neg (by omega)]
      exact pushed _ _
    · have size : ((BitVec.ofNat 32 memory.pageLimits.initial + grown.i32) *
          BitVec.ofNat 32 pageSize).toNat = after * pageSize := by
        have page : (BitVec.ofNat 32 pageSize).toNat = pageSize := rfl
        rw [BitVec.toNat_mul, pages, page]
        exact Nat.mod_eq_of_lt (by omega)
      rw [if_neg large, if_pos (by omega), size]
      exact pushed _ _

/-- `grow_memory` as it is meant, where `pc` is behind it. -/
def GrowRight (options : Options) (numerics : Numerics) (env : Environment Host)
    (thread : Thread Host) (memoryIndex : BitVec 32) (pc : Nat) : Prop :=
  forall memory grown rest, thread.memories[memoryIndex.toNat]? = some memory ->
    thread.valueStack = grown :: rest ->
      let pages := memory.pageLimits.initial + grown.i32.toNat
      if pages ≤ memory.pageLimits.maximum ∧ pages * pageSize < 2 ^ 32 then
        ∃ after, memory.GrowsTo after pages ∧
          thread.step options numerics env = .ok { thread with
            pc
            valueStack := .ofI32 (BitVec.ofNat 32 memory.pageLimits.initial) :: rest
            memories := thread.memories.set memoryIndex.toNat after }
      else
        thread.step options numerics env =
          .ok { thread with pc, valueStack := .ofI32 (-1) :: rest }

/-- The number of pages after `grow_memory` has 32 bits. -/
def GrowFits (thread : Thread Host) (memoryIndex : BitVec 32) : Prop :=
  forall memory grown rest, thread.memories[memoryIndex.toNat]? = some memory ->
    thread.valueStack = grown :: rest ->
      memory.pageLimits.initial + grown.i32.toNat < 2 ^ 32

theorem step_memoryGrow {memoryIndex : BitVec 32} {pc : Nat}
    (decoded : env.decode thread.pc = some (.memoryGrow memoryIndex, pc)) :
    thread.step options numerics env =
      ({ thread with pc } : Thread Host).memoryGrow options memoryIndex := by
  rw [step, decoded]
  rfl

theorem ofI32_minusOne {pages : Nat} (few : pages ≤ maxPages) :
    Value.ofI32 (BitVec.ofNat 32 pages) ≠ Value.ofI32 (-1) := by
  have small : maxPages = 65536 := rfl
  have minusOne : (Value.ofI32 (-1)).toNat = 2 ^ 32 - 1 := by decide
  have number : (Value.ofI32 (BitVec.ofNat 32 pages)).toNat = pages := by
    rw [Value.ofI32, BitVec.toNat_setWidth, BitVec.toNat_ofNat]
    omega
  intro same
  rw [same, minusOne] at number
  omega

/-- A sum that wraps is smaller than the number of pages before, so that the
memory shrinks. -/
theorem growRight_iff {memoryIndex : BitVec 32} {pc : Nat}
    (sound : forall memory, memory ∈ thread.memories -> memory.Sound)
    (bounded : thread.valueStack.length ≤ options.valueStackSize)
    (decoded : env.decode thread.pc = some (.memoryGrow memoryIndex, pc)) :
    GrowRight options numerics env thread memoryIndex pc ↔ GrowFits thread memoryIndex := by
  unfold GrowRight GrowFits
  apply forall_congr'
  intro memory
  apply forall_congr'
  intro grown
  apply forall_congr'
  intro rest
  apply imp_congr_right
  intro found
  apply imp_congr_right
  intro stack
  have right := sound memory (List.mem_of_getElem? found)
  have below := right.initial
  have most := right.maximum
  have small : maxPages = 65536 := rfl
  have room : rest.length < options.valueStackSize := by
    rw [stack] at bounded
    exact bounded
  have made := @memoryGrow_eq Host options { thread with pc } _ _ _ _ right found stack room
  rw [step_memoryGrow decoded, made]
  have word := grown.i32.isLt
  by_cases fits : memory.pageLimits.initial + grown.i32.toNat < 2 ^ 32
  · simp only [fits, iff_true, Nat.mod_eq_of_lt fits]
    split
    · exact ⟨_, memory.withPages_grows _, rfl⟩
    · rfl
  · simp only [fits, iff_false]
    have wrapped : (memory.pageLimits.initial + grown.i32.toNat) % 2 ^ 32 =
        memory.pageLimits.initial + grown.i32.toNat - 2 ^ 32 := by
      rw [Nat.mod_eq_sub_mod (by omega)]
      exact Nat.mod_eq_of_lt (by omega)
    have page : pageSize = 65536 := rfl
    rw [wrapped, page, if_neg (by omega), if_pos (by omega)]
    intro same
    have tops := congrArg Thread.valueStack (Except.ok.inj same)
    exact ofI32_minusOne (Nat.le_trans below most) (List.cons.inj tops).1

theorem step_ok (stepped : thread.step options numerics env = .ok next) :
    ∃ instr pc, env.decode thread.pc = some (instr, pc) ∧
      execute options numerics env { thread with pc } instr = .ok next := by
  unfold step at stepped
  split at stepped
  · cases stepped
  · rename_i instr pc decoded
    exact ⟨instr, pc, decoded, stepped⟩

theorem memoryGrow_ok {memoryIndex : BitVec 32}
    (made : thread.memoryGrow options memoryIndex = .ok next) : ∃ memory grown rest,
      thread.memories[memoryIndex.toNat]? = some memory ∧ thread.valueStack = grown :: rest := by
  rcases bind_ok.mp made with ⟨memory, found, made⟩
  rcases bind_ok.mp made with ⟨⟨grown, between⟩, popped, _⟩
  rcases pop_ok.mp popped with ⟨rest, stack, _⟩
  exact ⟨memory, grown, rest, orUndefined_ok.mp found, stack⟩

/-- All memories are sound and the value stack is within its bound. -/
structure Sound (options : Options) (thread : Thread Host) : Prop where
  memories : forall memory, memory ∈ thread.memories -> memory.Sound
  bounded : thread.valueStack.length ≤ options.valueStackSize

/-- No memory has fewer pages than before. -/
def PagesKept (before after : Thread Host) : Prop :=
  forall (index : Nat) (memory : Memory), before.memories[index]? = some memory ->
    ∃ later, after.memories[index]? = some later ∧
      memory.pageLimits.initial ≤ later.pageLimits.initial

theorem sound_of_shapes {first second : List Memory}
    (same : second.map Memory.shape = first.map Memory.shape)
    (sound : forall memory, memory ∈ first -> memory.Sound) :
    forall memory, memory ∈ second -> memory.Sound := by
  intro memory member
  have shape : memory.shape ∈ first.map Memory.shape := by
    rw [← same]
    exact List.mem_map_of_mem member
  rcases List.mem_map.mp shape with ⟨other, there, equal⟩
  exact Memory.sound_of_shape equal (sound other there)

theorem Keeps.sound (keeps : Keeps options thread next) (sound : thread.Sound options) :
    next.Sound options :=
  ⟨sound_of_shapes keeps.shapes sound.memories, keeps.bounded sound.bounded⟩

theorem pagesKept_of_shapes (same : next.shapes = thread.shapes) : PagesKept thread next := by
  intro index memory found
  have shape : next.shapes[index]? = some memory.shape := by
    rw [same, shapes, List.getElem?_map, found]
    rfl
  rw [shapes, List.getElem?_map] at shape
  rcases Option.map_eq_some_iff.mp shape with ⟨later, there, equal⟩
  have limits : later.pageLimits = memory.pageLimits := congrArg Prod.fst equal
  exact ⟨later, there, limits ▸ Nat.le_refl _⟩

theorem memoryGrow_sound {memoryIndex : BitVec 32} (sound : thread.Sound options)
    (made : thread.memoryGrow options memoryIndex = .ok next) : next.Sound options := by
  rcases memoryGrow_ok made with ⟨memory, grown, rest, found, stack⟩
  have right := sound.memories memory (List.mem_of_getElem? found)
  have bounded := sound.bounded
  rw [stack] at bounded
  rw [memoryGrow_eq right found stack bounded] at made
  simp only at made
  split at made
  · rename_i within
    cases made
    refine ⟨fun other member => ?_, bounded⟩
    rcases List.mem_or_eq_of_mem_set member with old | rfl
    · exact sound.memories other old
    · exact ⟨rfl, within.1, right.maximum⟩
  · cases made
    exact ⟨sound.memories, bounded⟩

theorem memoryGrow_pagesKept {memoryIndex : BitVec 32} (sound : thread.Sound options)
    (fits : GrowFits thread memoryIndex)
    (made : thread.memoryGrow options memoryIndex = .ok next) : PagesKept thread next := by
  rcases memoryGrow_ok made with ⟨memory, grown, rest, found, stack⟩
  have right := sound.memories memory (List.mem_of_getElem? found)
  have bounded := sound.bounded
  rw [stack] at bounded
  rw [memoryGrow_eq right found stack bounded] at made
  simp only [Nat.mod_eq_of_lt (fits memory grown rest found stack)] at made
  split at made
  · cases made
    intro index other there
    by_cases here : memoryIndex.toNat = index
    · subst here
      rw [found] at there
      cases there
      have inside := (List.getElem?_eq_some_iff.mp found).1
      exact ⟨_, List.getElem?_set_self inside, Nat.le_add_right _ _⟩
    · exact ⟨other, (List.getElem?_set_ne here).trans there, Nat.le_refl _⟩
  · cases made
    exact fun index other there => ⟨other, there, Nat.le_refl _⟩

theorem step_sound (sound : thread.Sound options)
    (stepped : thread.step options numerics env = .ok next) : next.Sound options := by
  rcases step_ok stepped with ⟨instr, pc, _, executed⟩
  have moved : ({ thread with pc } : Thread Host).Sound options := ⟨sound.memories, sound.bounded⟩
  by_cases grows : ∃ memoryIndex, instr = .memoryGrow memoryIndex
  · rcases grows with ⟨memoryIndex, rfl⟩
    exact memoryGrow_sound moved executed
  · exact (execute_keeps (fun memoryIndex same => grows ⟨memoryIndex, same⟩) executed).sound moved

theorem pushArgs_keeps (types : List ValueType) (args : List TypedValue) :
    Keeps options thread (thread.pushArgs options types args).2 := by
  induction types generalizing thread args with
  | nil => exact Keeps.of_stack (Nat.le_refl _)
  | cons type types inductionHypothesis =>
      cases args with
      | nil => exact Keeps.of_stack (Nat.le_refl _)
      | cons arg args =>
          unfold pushArgs
          split
          · exact Keeps.of_stack (Nat.le_refl _)
          · split
            · rename_i pushed made
              exact (push_keeps made).trans (inductionHypothesis args)
            · exact Keeps.of_stack (Nat.le_refl _)

theorem reset_keeps (thread : Thread Host) : Keeps options thread thread.reset :=
  Keeps.of_stack (Nat.zero_le _)

end Thread

/-! ## Runs -/

namespace Executor

variable {Host : Type} (options : Options) (numerics : Numerics) (env : Environment Host)

theorem runFunction_keeps {executor next : Executor Host} {funcIndex : Nat}
    {args : List TypedValue}
    (called : executor.runFunction options env funcIndex args = some next) :
    Thread.Keeps options executor.thread next.thread := by
  rcases Option.bind_eq_some_iff.mp called with ⟨func, _, called⟩
  rcases Option.bind_eq_some_iff.mp called with ⟨sig, _, called⟩
  have pushed := @Thread.pushArgs_keeps _ options executor.thread sig.paramTypes args
  simp only at called
  split at called
  · cases called
    exact Thread.reset_keeps _
  · split at called
    · cases called
      exact pushed.trans (Thread.reset_keeps _)
    · split at called
      · split at called
        · rename_i host
          cases called
          exact (pushed.trans (Thread.callHost_keeps host)).trans (Thread.reset_keeps _)
        · cases called
      · cases called
        exact pushed.withPc _

/-- What one step is. -/
theorem step_cases {executor next : Executor Host} {event : ExecutorEvent}
    (stepped : executor.step options numerics env event = some next) :
    Thread.Keeps options executor.thread next.thread ∨
      executor.running ≠ none ∧ executor.thread.step options numerics env = .ok next.thread := by
  cases event with
  | runFunction funcIndex args =>
      simp only [step] at stepped
      split at stepped
      · exact .inl (runFunction_keeps options env stepped)
      · cases stepped
  | step =>
      simp only [step] at stepped
      split at stepped
      · cases stepped
      · rename_i sig running
        split at stepped
        · rename_i thread made
          cases stepped
          exact .inr ⟨by simp [running], made⟩
        · cases stepped
          exact .inl (Thread.reset_keeps _)
        · cases stepped

/-- Every memory has the size of its pages, `grow_memory` does what it is meant
to, and no step takes pages away. -/
structure MemoryRight (executor : Executor Host) : Prop where
  sizes : forall memory, memory ∈ executor.thread.memories ->
    memory.size = memory.pageLimits.initial * pageSize
  grow : executor.running ≠ none -> forall memoryIndex pc,
    env.decode executor.thread.pc = some (.memoryGrow memoryIndex, pc) ->
      Thread.GrowRight options numerics env executor.thread memoryIndex pc
  kept : forall event next, executor.step options numerics env event = some next ->
    Thread.PagesKept executor.thread next.thread

/-- If the thread is about to grow a memory, the new number of pages has 32 bits. -/
def GrowFits (executor : Executor Host) : Prop :=
  executor.running ≠ none -> forall memoryIndex pc,
    env.decode executor.thread.pc = some (.memoryGrow memoryIndex, pc) ->
      Thread.GrowFits executor.thread memoryIndex

theorem memoryRight_iff {executor : Executor Host} (sound : executor.thread.Sound options) :
    MemoryRight options numerics env executor ↔ GrowFits env executor := by
  constructor
  · intro right running memoryIndex pc decoded
    exact (Thread.growRight_iff sound.memories sound.bounded decoded).mp
      (right.grow running memoryIndex pc decoded)
  · intro fits
    refine ⟨fun memory member => (sound.memories memory member).size,
      fun running memoryIndex pc decoded =>
        (Thread.growRight_iff sound.memories sound.bounded decoded).mpr
          (fits running memoryIndex pc decoded),
      fun event next stepped => ?_⟩
    rcases step_cases options numerics env stepped with keeps | ⟨running, made⟩
    · exact Thread.pagesKept_of_shapes keeps.shapes
    · rcases Thread.step_ok made with ⟨instr, pc, decoded, executed⟩
      by_cases grows : ∃ memoryIndex, instr = .memoryGrow memoryIndex
      · rcases grows with ⟨memoryIndex, rfl⟩
        have moved : ({ executor.thread with pc } : Thread Host).Sound options :=
          ⟨sound.memories, sound.bounded⟩
        exact @Thread.memoryGrow_pagesKept Host options { executor.thread with pc } next.thread
          memoryIndex moved (fits running memoryIndex pc decoded) executed
      · exact Thread.pagesKept_of_shapes
          (Thread.execute_keeps (fun memoryIndex same => grows ⟨memoryIndex, same⟩) executed).shapes

theorem step_sound {executor next : Executor Host} {event : ExecutorEvent}
    (sound : executor.thread.Sound options)
    (stepped : executor.step options numerics env event = some next) :
    next.thread.Sound options := by
  rcases step_cases options numerics env stepped with keeps | ⟨_, made⟩
  · exact keeps.sound sound
  · exact Thread.step_sound sound made

/-- Before the first call: the memories are as loaded, and the stacks are empty. -/
structure Loaded (executor : Executor Host) : Prop where
  memories : forall memory, memory ∈ executor.thread.memories -> memory.Loaded
  idle : executor.running = none
  valueStack : executor.thread.valueStack = []
  callStack : executor.thread.callStack = []

theorem Loaded.sound {executor : Executor Host} (loaded : executor.Loaded) :
    executor.thread.Sound options := by
  refine ⟨fun memory member => (loaded.memories memory member).sound, ?_⟩
  rw [loaded.valueStack]
  exact Nat.zero_le _

/-- In a run the memories are right throughout exactly if no `grow_memory` has a
sum of pages beyond 32 bits. -/
theorem memories_right_iff (executor : Executor Host) (loaded : executor.Loaded)
    (events : List ExecutorEvent) :
    (system options numerics env).Always (MemoryRight options numerics env) executor events ↔
      (system options numerics env).Always (GrowFits env) executor events :=
  System.always_congr
    (fun _ _ _ sound stepped => step_sound options numerics env sound stepped)
    (fun _ sound => memoryRight_iff options numerics env sound)
    (loaded.sound options)

end Executor

/-! ## One page -/

/-- Operators that are never reached. -/
def Numerics.unreached : Numerics where
  unary _ _ := .error .trapUnreachable
  binary _ _ _ := .error .trapUnreachable
  compare _ _ _ := .error .trapUnreachable
  convert _ _ := .error .trapUnreachable

/-- A function that grows its memory by a number of pages. -/
def Environment.growing (pages : BitVec 32) : Environment Unit where
  istream := [.opcode .i32Const, .u32 pages, .opcode .memoryGrow, .u32 0, .opcode .ret]
  sigs := [⟨[], [.i32]⟩]
  funcs := [.defined 0 0]
  tables := []

namespace Executor

/-- An executor with one memory of one page. -/
def onePage : Executor Unit where
  thread := ⟨(), [Memory.ofLimits ⟨1, 0, false⟩], [], [], [], 0⟩
  running := none
  last := none

theorem onePage_loaded : onePage.Loaded where
  memories memory member := by
    rw [List.mem_singleton.mp member]
    exact ⟨0, 1, 0, ⟨1, 0, false⟩, fun _ => 0, by decide, rfl⟩
  idle := rfl
  valueStack := rfl
  callStack := rfl

theorem memories_right_iff_onePage :
    (system ⟨8, 8⟩ .unreached (.growing 2)).Always (MemoryRight ⟨8, 8⟩ .unreached (.growing 2))
        onePage [.runFunction 0 [], .step, .step, .step] ↔
      (system ⟨8, 8⟩ .unreached (.growing 2)).Always (GrowFits (.growing 2)) onePage
        [.runFunction 0 [], .step, .step, .step] :=
  memories_right_iff ⟨8, 8⟩ .unreached (.growing 2) onePage onePage_loaded
    [.runFunction 0 [], .step, .step, .step]

/-- One page grows by 2 ^ 32 - 1 pages to none. -/
theorem grow_shrinks :
    ¬ (system ⟨8, 8⟩ .unreached (.growing 0xFFFFFFFF)).Always
      (MemoryRight ⟨8, 8⟩ .unreached (.growing 0xFFFFFFFF)) onePage
      [.runFunction 0 [], .step] := by
  rintro ⟨_, always⟩
  rcases always _ rfl with ⟨_, always⟩
  rcases (always _ rfl).kept .step _ rfl 0 _ rfl with ⟨later, found, pages⟩
  cases found
  exact absurd pages (by decide)

end Executor

end Interp
end WasmSandboxing
