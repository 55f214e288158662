import WasmSandboxing.Foundation.Except
import WasmSandboxing.Foundation.Machine
import WasmSandboxing.Interp.Environment
import WasmSandboxing.Interp.MemoryAccess

namespace WasmSandboxing
namespace Interp

open Foundation Wasm

/-!
# A thread of the interpreter

`Thread::Run`, one instruction at a time.  The operators are parameters, since
nothing here depends on what they compute.  `undefined` is an access beyond the
stacks, a memory or a list of the environment, which the code does not check.
-/

/-- The functions that `Unop`, `Binop` and their trapping forms are called with. -/
structure Numerics where
  unary : UnaryOpcode -> Value -> Except Result Value
  binary : BinaryOpcode -> Value -> Value -> Except Result Value
  compare : CompareOpcode -> Value -> Value -> Except Result Value
  convert : ConvertOpcode -> Value -> Except Result Value

/-- `Thread::Options`. -/
structure Options where
  valueStackSize : Nat
  callStackSize : Nat

/-- The state of a thread and what it changes of its environment; the stacks
with their tops first. -/
structure Thread (Host : Type) where
  host : Host
  memories : List Memory
  globals : List TypedValue
  valueStack : List Value
  callStack : List Nat
  pc : Nat

/-- How a thread ends. -/
inductive Outcome where
  | result (result : Result)
  | undefined
  deriving DecidableEq, Repr

/-- `TRAP`. -/
def trap {α : Type} (result : Result) : Except Outcome α := .error (.result result)

def orUndefined {α : Type} : Option α -> Except Outcome α
  | some value => .ok value
  | none => .error .undefined

def checkTrap {α : Type} : Except Result α -> Except Outcome α
  | .ok value => .ok value
  | .error result => trap result

/-- What a load pushes for the bytes that it reads, by `ExtendMemType`. -/
def loadValue (opcode : LoadOpcode) (bytes : Nat) : Value :=
  match opcode with
  | .i32Load8S => .ofI32 ((BitVec.ofNat 8 bytes).signExtend 32)
  | .i32Load16S => .ofI32 ((BitVec.ofNat 16 bytes).signExtend 32)
  | .i64Load8S => (BitVec.ofNat 8 bytes).signExtend 64
  | .i64Load16S => (BitVec.ofNat 16 bytes).signExtend 64
  | .i64Load32S => (BitVec.ofNat 32 bytes).signExtend 64
  | _ => BitVec.ofNat 64 bytes

namespace Thread

variable {Host : Type} (options : Options) (numerics : Numerics) (env : Environment Host)
  (thread : Thread Host)

/-! ## The stacks -/

def push (value : Value) : Except Outcome (Thread Host) :=
  if thread.valueStack.length ≥ options.valueStackSize then trap .trapValueStackExhausted
  else .ok { thread with valueStack := value :: thread.valueStack }

def pop : Except Outcome (Value × Thread Host) :=
  match thread.valueStack with
  | [] => .error .undefined
  | value :: rest => .ok (value, { thread with valueStack := rest })

/-- `Pick`, read; the top is at depth 1. -/
def pick (depth : BitVec 32) : Except Outcome Value :=
  if depth = 0 then .error .undefined else orUndefined thread.valueStack[depth.toNat - 1]?

/-- `Pick`, assigned. -/
def setPick (depth : BitVec 32) (value : Value) : Except Outcome (Thread Host) :=
  if depth = 0 ∨ thread.valueStack.length < depth.toNat then .error .undefined
  else .ok { thread with valueStack := thread.valueStack.set (depth.toNat - 1) value }

/-- An assignment of `DropKeep`. -/
def keepValue (dropCount : Nat) (stack : List Value) (index : Nat) : Option (List Value) :=
  match stack[index]? with
  | none => none
  | some value =>
      if dropCount + index < stack.length then some (stack.set (dropCount + index) value) else none

/-- The loop of `DropKeep`, from the top of the stack down. -/
def keepValues (dropCount keepCount : Nat) (stack : List Value) : Option (List Value) :=
  (List.range keepCount).foldlM (keepValue dropCount) stack

def dropKeep (dropCount keepCount : BitVec 32) : Except Outcome (Thread Host) := do
  let kept <- orUndefined (keepValues dropCount.toNat keepCount.toNat thread.valueStack)
  if kept.length < dropCount.toNat then .error .undefined
  else .ok { thread with valueStack := kept.drop dropCount.toNat }

def pushCall (pc : Nat) : Except Outcome (Thread Host) :=
  if thread.callStack.length ≥ options.callStackSize then trap .trapCallStackExhausted
  else .ok { thread with callStack := pc :: thread.callStack }

/-! ## Memory -/

/-- `ReadMemory`. -/
def readMemory (memoryIndex : BitVec 32) : Except Outcome Memory :=
  orUndefined thread.memories[memoryIndex.toNat]?

/-- `GetAccessAddress` with the memory; the pointer is narrowed to
`IstreamOffset`. -/
def accessAddress (memory : Memory) (base offset : BitVec 32) (sizeof : Nat) :
    Except Outcome Nat :=
  match getAccessAddress (BitVec.ofNat 64 memory.size) base offset sizeof with
  | none => trap .trapMemoryAccessOutOfBounds
  | some address => .ok (address.setWidth 32).toNat

def load (opcode : LoadOpcode) (memoryIndex offset : BitVec 32) : Except Outcome (Thread Host) := do
  let memory <- thread.readMemory memoryIndex
  let (base, thread) <- thread.pop
  let address <- accessAddress memory base.i32 offset opcode.memorySize
  thread.push options (loadValue opcode (memory.data.read address opcode.memorySize))

def store (opcode : StoreOpcode) (memoryIndex offset : BitVec 32) :
    Except Outcome (Thread Host) := do
  let (value, thread) <- thread.pop
  let memory <- thread.readMemory memoryIndex
  let (base, thread) <- thread.pop
  let address <- accessAddress memory base.i32 offset opcode.memorySize
  let stored := { memory with
    data := memory.data.write address opcode.memorySize value.toNat }
  .ok { thread with memories := thread.memories.set memoryIndex.toNat stored }

/-- `MemoryGrow`, in 32 bits. -/
def memoryGrow (memoryIndex : BitVec 32) : Except Outcome (Thread Host) := do
  let memory <- thread.readMemory memoryIndex
  let oldPageSize := BitVec.ofNat 32 memory.pageLimits.initial
  let (grown, thread) <- thread.pop
  let newPageSize := oldPageSize + grown.i32
  let maxPageSize := BitVec.ofNat 32
    (if memory.pageLimits.hasMax then memory.pageLimits.max else maxPages)
  if newPageSize > maxPageSize then thread.push options (.ofI32 (-1))
  else if newPageSize.toNat * pageSize > 2 ^ 32 - 1 then thread.push options (.ofI32 (-1))
  else
    let resized := memory.resize (newPageSize * BitVec.ofNat 32 pageSize).toNat
    let memory := { resized with
      pageLimits := { memory.pageLimits with initial := newPageSize.toNat } }
    let thread := { thread with memories := thread.memories.set memoryIndex.toNat memory }
    thread.push options (.ofI32 oldPageSize)

/-! ## Calls -/

/-- The loop of `CallHost` over the results; a result that the callback has not
written has no type. -/
def pushResults : List ValueType -> List TypedValue -> Thread Host -> Result × Thread Host
  | [], _, thread => (.ok, thread)
  | _ :: _, [], thread => (.trapHostResultTypeMismatch, thread)
  | type :: types, result :: results, thread =>
      if result.type ≠ type then (.trapHostResultTypeMismatch, thread)
      else
        match thread.push options result.value with
        | .ok pushed => pushResults types results pushed
        | .error _ => (.trapValueStackExhausted, thread)

/-- `CallHost`. -/
def callHost (sigIndex : Nat) (callback : HostFuncCallback Host) :
    Except Outcome (Result × Thread Host) := do
  let sig <- orUndefined env.sigs[sigIndex]?
  let count := sig.paramTypes.length
  if thread.valueStack.length < count then .error .undefined
  else
    let params := (sig.paramTypes.zip (thread.valueStack.take count).reverse).map
      fun (type, value) => (⟨type, value⟩ : TypedValue)
    let (callResult, results, host) := callback thread.host params
    let thread := { thread with host, valueStack := thread.valueStack.drop count }
    if callResult ≠ .ok then .ok (.trapHostTrapped, thread)
    else .ok (thread.pushResults options sig.resultTypes results)

/-- `CallIndirect`: the function that is called, with the entry popped. -/
def indirectCallee (tableIndex sigIndex : BitVec 32) :
    Except Outcome (Func Host × Thread Host) := do
  let table <- orUndefined env.tables[tableIndex.toNat]?
  let (entryIndex, thread) <- thread.pop
  match table[entryIndex.i32.toNat]? with
  | none => trap .trapUndefinedTableIndex
  | some none => trap .trapUninitializedTableElement
  | some (some funcIndex) =>
      let func <- orUndefined env.funcs[funcIndex]?
      let equal <- orUndefined (env.funcSignaturesAreEqual func.sigIndex sigIndex.toNat)
      if equal then .ok (func, thread) else trap .trapIndirectCallSignatureMismatch

/-- The result of `CallHost` is not looked at. -/
def callIndirect (tableIndex sigIndex : BitVec 32) : Except Outcome (Thread Host) := do
  let (func, thread) <- thread.indirectCallee env tableIndex sigIndex
  match func with
  | .host sigIndex callback =>
      let (_, thread) <- thread.callHost options env sigIndex callback
      .ok thread
  | .defined _ offset =>
      let thread <- thread.pushCall options thread.pc
      .ok { thread with pc := offset }

/-- Nor is it here. -/
def interpCallHost (funcIndex : BitVec 32) : Except Outcome (Thread Host) :=
  match env.funcs[funcIndex.toNat]? with
  | some (.host sigIndex callback) => do
      let (_, thread) <- thread.callHost options env sigIndex callback
      .ok thread
  | _ => .error .undefined

/-! ## Instructions -/

/-- `InterpAlloca`: `value_stack_top_` has 32 bits, and the new values are
cleared from the old top on. -/
def interpAlloca (count : BitVec 32) : Except Outcome (Thread Host) :=
  let top := BitVec.ofNat 32 thread.valueStack.length + count
  if top.toNat ≥ options.valueStackSize then trap .trapValueStackExhausted
  else if thread.valueStack.length + count.toNat < 2 ^ 32 then
    .ok { thread with valueStack := List.replicate count.toNat 0 ++ thread.valueStack }
  else .error .undefined

/-- `BrTable`. -/
def brTable (numTargets tableOffset : BitVec 32) : Except Outcome (Thread Host) := do
  let (key, thread) <- thread.pop
  let index := if key.i32 ≥ numTargets then numTargets else key.i32
  let (target, dropCount, keepCount) <-
    orUndefined (env.readTableEntryAt (tableOffset.toNat + index.toNat * tableEntrySize))
  let thread <- thread.dropKeep dropCount keepCount
  .ok { thread with pc := target.toNat }

/-- `Return`, from the outermost function or to the caller. -/
def ret : Except Outcome (Thread Host) :=
  match thread.callStack with
  | [] => .error (.result .returned)
  | pc :: callStack => .ok { thread with pc, callStack }

/-- `Unop` and `UnopTrap`. -/
def unop (func : Value -> Except Result Value) : Except Outcome (Thread Host) := do
  let (value, thread) <- thread.pop
  let result <- checkTrap (func value)
  thread.push options result

/-- `Binop` and `BinopTrap`. -/
def binop (func : Value -> Value -> Except Result Value) : Except Outcome (Thread Host) := do
  let (rhs, thread) <- thread.pop
  let (lhs, thread) <- thread.pop
  let result <- checkTrap (func lhs rhs)
  thread.push options result

/-- One case of the `switch`, with `pc` behind the operands. -/
def execute : Instr -> Except Outcome (Thread Host)
  | .select => do
      let (cond, thread) <- thread.pop
      let (ifFalse, thread) <- thread.pop
      let (ifTrue, thread) <- thread.pop
      thread.push options (if cond.i32 ≠ 0 then ifTrue else ifFalse)
  | .br offset => .ok { thread with pc := offset.toNat }
  | .brIf offset => do
      let (cond, thread) <- thread.pop
      .ok (if cond.i32 ≠ 0 then { thread with pc := offset.toNat } else thread)
  | .brTable numTargets tableOffset => thread.brTable env numTargets tableOffset
  | .ret => thread.ret
  | .unreachable => trap .trapUnreachable
  | .const value => thread.push options value
  | .getGlobal index => do
      let global <- orUndefined thread.globals[index.toNat]?
      thread.push options global.value
  | .setGlobal index => do
      let global <- orUndefined thread.globals[index.toNat]?
      let (value, thread) <- thread.pop
      .ok { thread with globals := thread.globals.set index.toNat { global with value } }
  | .getLocal depth => do
      let value <- thread.pick depth
      thread.push options value
  | .setLocal depth => do
      let (value, thread) <- thread.pop
      thread.setPick depth value
  | .teeLocal depth => do
      let value <- thread.pick 1
      thread.setPick depth value
  | .call offset => do
      let thread <- thread.pushCall options thread.pc
      .ok { thread with pc := offset.toNat }
  | .callIndirect tableIndex sigIndex => thread.callIndirect options env tableIndex sigIndex
  | .interpCallHost funcIndex => thread.interpCallHost options env funcIndex
  | .load opcode memoryIndex offset => thread.load options opcode memoryIndex offset
  | .store opcode memoryIndex offset => thread.store opcode memoryIndex offset
  | .memorySize memoryIndex => do
      let memory <- thread.readMemory memoryIndex
      thread.push options (.ofI32 (BitVec.ofNat 32 memory.pageLimits.initial))
  | .memoryGrow memoryIndex => thread.memoryGrow options memoryIndex
  | .unary opcode => thread.unop options (numerics.unary opcode)
  | .binary opcode => thread.binop options (numerics.binary opcode)
  | .compare opcode => thread.binop options (numerics.compare opcode)
  | .convert opcode => thread.unop options (numerics.convert opcode)
  | .interpAlloca count => thread.interpAlloca options count
  | .interpBrUnless offset => do
      let (cond, thread) <- thread.pop
      .ok (if cond.i32 = 0 then { thread with pc := offset.toNat } else thread)
  | .drop => do
      let (_, thread) <- thread.pop
      .ok thread
  | .interpDropKeep dropCount keepCount => thread.dropKeep dropCount keepCount
  | .nop => .ok thread

/-- One round of the loop of `Run`. -/
def step : Except Outcome (Thread Host) :=
  match env.decode thread.pc with
  | none => .error .undefined
  | some (instr, next) => execute options numerics env { thread with pc := next } instr

/-- The loop of `Run`, which a trap leaves at once. -/
def machine : Machine (Thread Host) Outcome where
  step thread :=
    match thread.step options numerics env with
    | .ok next => .running next
    | .error outcome => .ended outcome

/-! ## What the operations do -/

section Operations

variable {options : Options} {thread next : Thread Host}

theorem orUndefined_ok {Item : Type} {found : Option Item} {item : Item} :
    orUndefined found = .ok item ↔ found = some item := by
  cases found <;> simp [orUndefined]

theorem push_ok {value : Value} : thread.push options value = .ok next ↔
    thread.valueStack.length < options.valueStackSize ∧
      next = { thread with valueStack := value :: thread.valueStack } := by
  unfold push
  by_cases full : thread.valueStack.length ≥ options.valueStackSize
  · rw [if_pos full]
    constructor
    · intro impossible
      cases impossible
    · rintro ⟨room, _⟩
      omega
  · rw [if_neg full, Except.ok.injEq]
    constructor
    · exact fun same => ⟨by omega, same.symm⟩
    · exact fun pushed => pushed.2.symm

theorem pop_ok {value : Value} : thread.pop = .ok (value, next) ↔
    ∃ rest, thread.valueStack = value :: rest ∧ next = { thread with valueStack := rest } := by
  unfold pop
  cases thread.valueStack with
  | nil => simp
  | cons top rest =>
      simp only [Except.ok.injEq, Prod.mk.injEq, List.cons.injEq]
      constructor
      · rintro ⟨same, rfl⟩
        exact ⟨rest, ⟨same, rfl⟩, rfl⟩
      · rintro ⟨_, ⟨same, rfl⟩, rfl⟩
        exact ⟨same, rfl⟩

theorem setPick_ok {depth : BitVec 32} {value : Value}
    (assigned : thread.setPick depth value = .ok next) :
    next = { thread with valueStack := thread.valueStack.set (depth.toNat - 1) value } := by
  unfold setPick at assigned
  split at assigned
  · cases assigned
  · cases assigned
    rfl

theorem keepValues_length {dropCount keepCount : Nat} {stack kept : List Value}
    (moved : keepValues dropCount keepCount stack = some kept) : kept.length = stack.length := by
  unfold keepValues at moved
  generalize List.range keepCount = indices at moved
  induction indices generalizing stack with
  | nil =>
      cases moved
      rfl
  | cons index indices inductionHypothesis =>
      rcases Option.bind_eq_some_iff.mp moved with ⟨between, first, rest⟩
      rw [inductionHypothesis rest]
      unfold keepValue at first
      split at first
      · cases first
      · split at first
        · cases first
          exact List.length_set
        · cases first

theorem dropKeep_ok {dropCount keepCount : BitVec 32}
    (dropped : thread.dropKeep dropCount keepCount = .ok next) :
    ∃ kept, keepValues dropCount.toNat keepCount.toNat thread.valueStack = some kept ∧
      dropCount.toNat ≤ thread.valueStack.length ∧
      next = { thread with valueStack := kept.drop dropCount.toNat } := by
  rcases bind_ok.mp dropped with ⟨kept, moved, rest⟩
  rw [orUndefined_ok] at moved
  split at rest
  · cases rest
  · rename_i enough
    cases rest
    rw [keepValues_length moved] at enough
    exact ⟨kept, moved, by omega, rfl⟩

theorem pushCall_ok {pc : Nat} (called : thread.pushCall options pc = .ok next) :
    thread.callStack.length < options.callStackSize ∧
      next = { thread with callStack := pc :: thread.callStack } := by
  unfold pushCall at called
  split at called
  · cases called
  · rename_i room
    cases called
    exact ⟨by omega, rfl⟩

end Operations

end Thread

end Interp
end WasmSandboxing
