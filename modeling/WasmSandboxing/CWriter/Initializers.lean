import WasmSandboxing.Wasm.Validator
import WasmSandboxing.WasmRt.Init

namespace WasmSandboxing
namespace CWriter

open Foundation WasmRt

/-!
# Initialisation of memory and table

The statements of `init_memory` and `init_table`, and their execution after
`wasm_init_module`.  Neither the statements nor the functions they call compare
a segment with the size of what it is copied into.
-/

variable {S : Wasm.Scheme}

/-- The C expression of an offset: a constant or an imported global. -/
inductive InitExpr (S : Wasm.Scheme) where
  | const (value : Wasm.Value)
  | global (var : S.Global)

/-- `WriteInitExpr`; an empty list writes nothing, which leaves no expression. -/
def writeInitExpr : Wasm.ExprList S -> Option (InitExpr S)
  | .instr (.const value) .nil => some (.const value)
  | .instr (.getGlobal var) .nil => some (.global var)
  | _ => none

/-- The statements of the two functions. -/
inductive InitStatement (S : Wasm.Scheme) where
  | allocateMemory (initial max : Nat)
  | memcpy (offset : InitExpr S) (data : List (BitVec 8))
  | allocateTable (initial max : Nat)
  | setOffset (offset : InitExpr S)
  | setElem (index : Nat) (funcType : Nat) (func : S.Func)

def writeMemoryAllocation (module : Wasm.Module S) : List (InitStatement S) :=
  match module.memories[0]? with
  | some memory =>
      if module.numMemoryImports = 0 then
        [.allocateMemory memory.pageLimits.initial (memory.pageLimits.max.getD 65536)]
      else []
  | none => []

/-- The body of `init_memory`. -/
def writeDataInitializers (module : Wasm.Module S) : Option (List (InitStatement S)) := do
  let copies <- module.dataSegments.mapM fun segment => do
    let offset <- writeInitExpr segment.offset
    some (.memcpy offset segment.data)
  some (writeMemoryAllocation module ++ copies)

def writeTableAllocation (module : Wasm.Module S) : List (InitStatement S) :=
  match module.tables[0]? with
  | some table =>
      if module.numTableImports = 0 then
        [.allocateTable table.elemLimits.initial (table.elemLimits.max.getD (2 ^ 32 - 1))]
      else []
  | none => []

/-- The assignments of one element segment, whose functions have the given
types; `index` counts the slots already written. -/
def writeElems (index : Nat) : List (Nat × S.Func) -> List (InitStatement S)
  | [] => []
  | (funcType, func) :: rest => .setElem index funcType func :: writeElems (index + 1) rest

/-- The body of `init_table`. -/
def writeElemInitializers (module : Wasm.Module S) (funcType : S.Func -> Nat) :
    Option (List (InitStatement S)) := do
  let segments <- module.elemSegments.mapM fun segment => do
    let offset <- writeInitExpr segment.offset
    some (.setOffset offset :: writeElems 0 (segment.vars.map fun var => (funcType var, var)))
  some (writeTableAllocation module ++ segments.flatten)

/-! ## Execution -/

/-- The memory and the table that the module uses, and the variable `offset` of
`init_table`. -/
structure InitState (S : Wasm.Scheme) where
  memory : Memory
  table : Table S.Func
  offset : BitVec 32

/-- A write during initialisation. -/
inductive InitAccess where
  | memory (start length : Nat)
  | table (slot : Nat)
  deriving DecidableEq, Repr

/-- The written bytes or slot are allocated. -/
def InitAccess.Inside (state : InitState S) : InitAccess -> Prop
  | memory start length => start + length ≤ state.memory.size.toNat
  | table slot => slot < state.table.size.toNat

/-- What initialisation depends on outside the module: the values of imported
`i32` globals, the ids of its function types, and whether an allocation of so
many bytes succeeds. -/
structure InitEnv (S : Wasm.Scheme) where
  globals : S.Global -> BitVec 32
  funcTypes : Nat -> BitVec 32
  calloc : Nat -> Bool

abbrev OnInit (S : Wasm.Scheme) := Traced (InitState S) InitAccess Fault

/-- The value of an offset expression, which has type `u32`. -/
def InitExpr.value (env : InitEnv S) : InitExpr S -> Option (BitVec 32)
  | const (.i32 bits) => some bits
  | const _ => none
  | global var => some (env.globals var)

/-- The subscript `offset + index`: the index is a decimal literal, so the sum
is one of `u32` operands up to `INT_MAX` and exact beyond. -/
def tableSlot (offset : BitVec 32) (index : Nat) : Nat :=
  if index < 2 ^ 31 then (offset + BitVec.ofNat 32 index).toNat else offset.toNat + index

def offsetValue (env : InitEnv S) (offset : InitExpr S) : OnInit S (BitVec 32) :=
  match offset.value env with
  | some value => pure value
  | none => Traced.fail .undefined

def execute (env : InitEnv S) : InitStatement S -> OnInit S Unit
  | .allocateMemory initial max => do
      let allocated := WasmRt.allocateMemory (BitVec.ofNat 32 initial) (BitVec.ofNat 32 max)
      Traced.update fun state => { state with memory := allocated }
      if env.calloc allocated.size.toNat then pure () else Traced.fail .abort
  | .memcpy offset data => do
      let start <- offsetValue env offset
      Traced.access (.memory start.toNat data.length)
      Traced.update fun state =>
        { state with memory := { state.memory with
            data := state.memory.data.replace start.toNat data.length fun index =>
              data.getD index 0 } }
  | .allocateTable initial max =>
      Traced.update fun state =>
        { state with table :=
            WasmRt.allocateTable envTable (BitVec.ofNat 32 initial) (BitVec.ofNat 32 max) }
  | .setOffset offset => do
      let value <- offsetValue env offset
      Traced.update fun state => { state with offset := value }
  | .setElem index funcType func => do
      let offset <- Traced.inspect InitState.offset
      Traced.access (.table (tableSlot offset index))
      Traced.update fun state =>
        { state with table := { state.table with
            data := fun slot =>
              if slot = tableSlot offset index then ⟨env.funcTypes funcType, some func⟩
              else state.table.data slot } }

def executeAll (env : InitEnv S) : List (InitStatement S) -> OnInit S Unit
  | [] => pure ()
  | statement :: rest => do
      execute env statement
      executeAll env rest

/-- After `wasm_init_module`: an imported memory or table is the runtime's, and
one of the module's own is static and still zeroed. -/
def initialState (module : Wasm.Module S) : InitState S where
  memory := if module.numMemoryImports = 0 then ⟨fun _ => 0, 0, 0, 0⟩ else envMemory
  table := if module.numTableImports = 0 then ⟨fun _ => ⟨0, none⟩, 0, 0⟩ else envTable
  offset := 0

/-- Run the initialisation that the writer emits for a decoded module. -/
def runInit (module : Wasm.Module Wasm.Scheme.binary) (env : InitEnv Wasm.Scheme.binary) :
    Option (Execution (InitState Wasm.Scheme.binary) InitAccess Fault Unit) := do
  let copies <- writeDataInitializers module
  let elems <- writeElemInitializers module fun var =>
    (module.funcs[var]?.map fun func => func.typeVar).getD 0
  some (executeAll env (copies ++ elems) (initialState module))

/-! ## Runs of copies -/

theorem executeAll_append (env : InitEnv S) (first second : List (InitStatement S))
    (state : InitState S) :
    executeAll env (first ++ second) state =
      (executeAll env first state).andThen fun _ => executeAll env second := by
  induction first generalizing state with
  | nil => rfl
  | cons statement rest inductionHypothesis =>
      rw [List.cons_append, executeAll, executeAll, Traced.bind_apply, Traced.bind_apply,
        Traced.andThen_assoc]
      congr
      funext _result next
      exact inductionHypothesis next

/-- A run that completes, keeps the sizes and writes only what is allowed. -/
structure Copies (state : InitState S) (allowed : InitAccess -> Prop)
    (run : Execution (InitState S) InitAccess Fault Unit) : Prop where
  completes : run.outcome = .value ()
  memorySize : run.state.memory.size = state.memory.size
  tableSize : run.state.table.size = state.table.size
  writes : forall access, access ∈ run.accesses -> allowed access

theorem Copies.andThen {state : InitState S} {allowed : InitAccess -> Prop}
    {run : Execution (InitState S) InitAccess Fault Unit} {next : Unit -> OnInit S Unit}
    (before : Copies state allowed run)
    (after : forall middle : InitState S, middle.memory.size = state.memory.size ->
      middle.table.size = state.table.size -> Copies middle allowed (next () middle)) :
    Copies state allowed (run.andThen next) := by
  rcases run with ⟨outcome, middle, accesses⟩
  rcases before with ⟨completes, memorySize, tableSize, writes⟩
  cases completes
  rcases after middle memorySize tableSize with ⟨continues, memoryKept, tableKept, moreWrites⟩
  refine ⟨continues, memoryKept.trans memorySize, tableKept.trans tableSize, ?_⟩
  intro access member
  rcases List.mem_append.mp member with earlier | later
  · exact writes access earlier
  · exact moreWrites access later

theorem Copies.append {env : InitEnv S} {first second : List (InitStatement S)}
    {state : InitState S} {allowed : InitAccess -> Prop}
    (before : Copies state allowed (executeAll env first state))
    (after : forall middle : InitState S, middle.memory.size = state.memory.size ->
      middle.table.size = state.table.size ->
        Copies middle allowed (executeAll env second middle)) :
    Copies state allowed (executeAll env (first ++ second) state) := by
  rw [executeAll_append]
  exact before.andThen after

theorem Copies.nil (env : InitEnv S) (state : InitState S) (allowed : InitAccess -> Prop) :
    Copies state allowed (executeAll env [] state) :=
  ⟨rfl, rfl, rfl, fun _access member => absurd member List.not_mem_nil⟩

theorem Copies.memcpy {env : InitEnv S} {offset : InitExpr S} {start : BitVec 32}
    (value : offset.value env = some start) (data : List (BitVec 8)) (state : InitState S)
    {allowed : InitAccess -> Prop} (permitted : allowed (.memory start.toNat data.length)) :
    Copies state allowed (execute env (.memcpy offset data) state) := by
  constructor <;> simp [execute, offsetValue, value, permitted]

/-- The slots of one segment, counted from `index`. -/
theorem Copies.elems (env : InitEnv S) {allowed : InitAccess -> Prop} (start : BitVec 32) :
    forall (elems : List (Nat × S.Func)) (index : Nat) (state : InitState S),
      state.offset = start ->
      (forall slot, index ≤ slot -> slot < index + elems.length ->
        allowed (.table (tableSlot start slot))) ->
      Copies state allowed (executeAll env (writeElems index elems) state) := by
  intro elems
  induction elems with
  | nil => exact fun index state _offset _permitted => .nil env state allowed
  | cons elem rest inductionHypothesis =>
      intro index state offset permitted
      rw [List.length_cons] at permitted
      have here : allowed (.table (tableSlot start index)) := permitted index (by omega) (by omega)
      obtain ⟨continues, memoryKept, tableKept, moreWrites⟩ := inductionHypothesis (index + 1)
        (execute env (.setElem index elem.1 elem.2) state).state offset
        fun slot above below => permitted slot (by omega) (by omega)
      refine ⟨continues, memoryKept, tableKept, fun access member => ?_⟩
      rcases List.mem_cons.mp member with same | later
      · rw [same, offset]
        exact here
      · exact moreWrites access later

/-! ## The segments of a validated module -/

/-- The value of a segment's offset. -/
def offsetOf (env : InitEnv S) (offset : Wasm.ExprList S) : Option (BitVec 32) :=
  (writeInitExpr offset).bind fun expr => expr.value env

/-- A checked offset is written and has a value. -/
theorem checked_offset {module : Wasm.Module Wasm.Scheme.binary}
    {offset : Wasm.ExprList Wasm.Scheme.binary} (env : InitEnv Wasm.Scheme.binary)
    (checked : Wasm.Validator.checkConstInitExpr module offset .i32 = true) :
    ∃ expr start, writeInitExpr offset = some expr ∧ expr.value env = some start := by
  unfold Wasm.Validator.checkConstInitExpr at checked
  split at checked
  · rename_i value
    cases value with
    | i32 bits => exact ⟨_, bits, rfl, rfl⟩
    | i64 bits => cases checked
    | f32 bits => cases checked
    | f64 bits => cases checked
  · exact ⟨_, _, rfl, rfl⟩
  · cases checked

variable {module : Wasm.Module Wasm.Scheme.binary} {env : InitEnv Wasm.Scheme.binary}

/-- Where the data segments are copied to. -/
def DataAllowed (env : InitEnv S) (segments : List (Wasm.DataSegment S))
    (allowed : InitAccess -> Prop) : Prop :=
  forall segment, segment ∈ segments -> forall start, offsetOf env segment.offset = some start ->
    allowed (.memory start.toNat segment.data.length)

/-- Where the element segments are copied to. -/
def ElemsAllowed (env : InitEnv S) (segments : List (Wasm.ElemSegment S))
    (allowed : InitAccess -> Prop) : Prop :=
  forall segment, segment ∈ segments -> forall start, offsetOf env segment.offset = some start ->
    forall index, index < segment.vars.length -> allowed (.table (tableSlot start index))

theorem dataSegments_copy (env : InitEnv Wasm.Scheme.binary)
    (segments : List (Wasm.DataSegment Wasm.Scheme.binary))
    (checked : forall segment, segment ∈ segments ->
      Wasm.Validator.checkConstInitExpr module segment.offset .i32 = true) :
    ∃ statements,
      (segments.mapM fun segment => do
        let offset <- writeInitExpr segment.offset
        some (InitStatement.memcpy offset segment.data)) = some statements ∧
      forall state allowed, DataAllowed env segments allowed ->
        Copies state allowed (executeAll env statements state) := by
  induction segments with
  | nil => exact ⟨[], rfl, fun state allowed _permitted => .nil env state allowed⟩
  | cons segment rest inductionHypothesis =>
      obtain ⟨statements, written, copies⟩ := inductionHypothesis
        fun other member => checked other (List.mem_cons_of_mem _ member)
      obtain ⟨expr, start, writes, value⟩ := checked_offset env (checked segment List.mem_cons_self)
      refine ⟨.memcpy expr segment.data :: statements, ?_, fun state allowed permitted => ?_⟩
      · simp only [List.mapM_cons, writes, written]
        rfl
      · have here : offsetOf env segment.offset = some start := by simp [offsetOf, writes, value]
        rw [executeAll, Traced.bind_apply]
        refine (Copies.memcpy value segment.data state
          (permitted segment List.mem_cons_self start here)).andThen fun middle _memory _table => ?_
        exact copies middle allowed
          fun other member => permitted other (List.mem_cons_of_mem _ member)

theorem elemSegments_copy (env : InitEnv Wasm.Scheme.binary) (funcType : Nat -> Nat)
    (segments : List (Wasm.ElemSegment Wasm.Scheme.binary))
    (checked : forall segment, segment ∈ segments ->
      Wasm.Validator.checkConstInitExpr module segment.offset .i32 = true) :
    ∃ statements : List (List (InitStatement Wasm.Scheme.binary)),
      (segments.mapM fun segment => do
        let offset <- writeInitExpr segment.offset
        some (InitStatement.setOffset offset ::
          writeElems 0 (segment.vars.map fun var => (funcType var, var)))) = some statements ∧
      forall state allowed, ElemsAllowed env segments allowed ->
        Copies state allowed (executeAll env statements.flatten state) := by
  induction segments with
  | nil => exact ⟨[], rfl, fun state allowed _permitted => .nil env state allowed⟩
  | cons segment rest inductionHypothesis =>
      obtain ⟨statements, written, copies⟩ := inductionHypothesis
        fun other member => checked other (List.mem_cons_of_mem _ member)
      obtain ⟨expr, start, writes, value⟩ := checked_offset env (checked segment List.mem_cons_self)
      refine ⟨(.setOffset expr :: writeElems 0 (segment.vars.map fun var => (funcType var, var))) ::
        statements, by simp only [List.mapM_cons, writes, written]; rfl, ?_⟩
      intro state allowed permitted
      have here : offsetOf env segment.offset = some start := by simp [offsetOf, writes, value]
      rw [List.flatten_cons, List.cons_append, executeAll, Traced.bind_apply]
      have assigns : execute env (.setOffset expr) state =
          ⟨.value (), { state with offset := start }, []⟩ := by
        simp [execute, offsetValue, value]
      rw [assigns, Traced.andThen_value, List.nil_append]
      have elems := Copies.elems env start (segment.vars.map fun var => (funcType var, var)) 0
        { state with offset := start } rfl fun slot _above below =>
          permitted segment List.mem_cons_self start here slot (by simpa using below)
      obtain ⟨completes, memorySize, tableSize, writes⟩ := elems.append fun middle _memory _table =>
        copies middle allowed fun other member => permitted other (List.mem_cons_of_mem _ member)
      exact ⟨completes, memorySize, tableSize, writes⟩

/-! ## Safety of initialisation -/

/-- What initialisation owes: it writes only to what is allocated, it completes
only if every segment fits, and the size of the module's own memory is exact. -/
structure InitSafe (module : Wasm.Module Wasm.Scheme.binary) (env : InitEnv Wasm.Scheme.binary)
    (run : Execution (InitState Wasm.Scheme.binary) InitAccess Fault Unit) : Prop where
  inside : forall access, access ∈ run.accesses -> access.Inside run.state
  dataFit : run.outcome = .value () -> forall segment, segment ∈ module.dataSegments ->
    forall start, offsetOf env segment.offset = some start ->
      start.toNat + segment.data.length ≤ run.state.memory.size.toNat
  elemsFit : run.outcome = .value () -> forall segment, segment ∈ module.elemSegments ->
    forall start, offsetOf env segment.offset = some start ->
      start.toNat + segment.vars.length ≤ run.state.table.size.toNat
  exactSize : run.outcome = .value () -> module.numMemoryImports = 0 ->
    forall memory, module.memories[0]? = some memory ->
      run.state.memory.size.toNat = memory.pageLimits.initial * 65536

/-- The module's own memory cannot be allocated. -/
def AllocationFails (module : Wasm.Module Wasm.Scheme.binary)
    (env : InitEnv Wasm.Scheme.binary) : Prop :=
  module.numMemoryImports = 0 ∧ ∃ memory, module.memories[0]? = some memory ∧
    env.calloc (memory.pageLimits.initial * 65536 % 2 ^ 32) = false

/-- The bytes of the memory that the module is initialised with. -/
def memoryCapacity (module : Wasm.Module Wasm.Scheme.binary) : Nat :=
  if module.numMemoryImports = 0 then
    match module.memories[0]? with
    | some memory => memory.pageLimits.initial * 65536
    | none => 0
  else 32767 * 65536

/-- When initialisation is safe: nothing is copied because the allocation
fails, or the memory has fewer than 65536 pages and every segment fits, the
element segments into the runtime's 1024 slots. -/
def InitFits (module : Wasm.Module Wasm.Scheme.binary) (env : InitEnv Wasm.Scheme.binary) :
    Prop :=
  AllocationFails module env ∨
    ((module.numMemoryImports = 0 -> forall memory, module.memories[0]? = some memory ->
        memory.pageLimits.initial < 65536) ∧
      (forall segment, segment ∈ module.dataSegments -> forall start,
        offsetOf env segment.offset = some start ->
          start.toNat + segment.data.length ≤ memoryCapacity module) ∧
      forall segment, segment ∈ module.elemSegments -> forall start,
        offsetOf env segment.offset = some start -> start.toNat + segment.vars.length ≤ 1024)

/-- The argument of `calloc` for the module's own memory. -/
theorem allocatedSize (initial max : Nat) :
    (WasmRt.allocateMemory (BitVec.ofNat 32 initial) (BitVec.ofNat 32 max)).size.toNat =
      initial * 65536 % 2 ^ 32 := by
  rw [allocateMemory_size, BitVec.toNat_ofNat, Nat.mod_mul_mod]

theorem execute_allocateMemory (initial max : Nat) (state : InitState S) (env : InitEnv S) :
    execute env (.allocateMemory initial max) state =
      ⟨if env.calloc (initial * 65536 % 2 ^ 32) then .value () else .fault .abort,
        { state with memory :=
            WasmRt.allocateMemory (BitVec.ofNat 32 initial) (BitVec.ofNat 32 max) }, []⟩ := by
  rw [← allocatedSize initial max]
  cases allocated : env.calloc
      (WasmRt.allocateMemory (BitVec.ofNat 32 initial) (BitVec.ofNat 32 max)).size.toNat <;>
    simp [execute, allocated]

/-- A failing allocation stops initialisation before any write. -/
theorem memoryAllocation_fails (fails : AllocationFails module env)
    (rest : List (InitStatement Wasm.Scheme.binary)) :
    (executeAll env (writeMemoryAllocation module ++ rest) (initialState module)).outcome =
        .fault .abort ∧
      (executeAll env (writeMemoryAllocation module ++ rest) (initialState module)).accesses =
        [] := by
  rcases fails with ⟨imported, memory, found, refused⟩
  simp only [writeMemoryAllocation, found, if_pos imported, List.cons_append, List.nil_append,
    executeAll, Traced.bind_apply, execute_allocateMemory, refused]
  exact ⟨rfl, rfl⟩

/-- The memory after its allocation, with the size that the product gives. -/
theorem memoryAllocation_completes (allocates : ¬ AllocationFails module env) :
    ∃ after, executeAll env (writeMemoryAllocation module) (initialState module) =
        ⟨.value (), after, []⟩ ∧
      after.memory.size.toNat = memoryCapacity module % 2 ^ 32 ∧
      after.table = (initialState module).table := by
  by_cases imported : module.numMemoryImports = 0
  · cases found : module.memories[0]? with
    | none =>
        refine ⟨initialState module, ?_, ?_, rfl⟩
        · simp [writeMemoryAllocation, found, executeAll]
        · simp [initialState, memoryCapacity, imported, found]
    | some memory =>
        have allocated : env.calloc (memory.pageLimits.initial * 65536 % 2 ^ 32) = true := by
          rw [← Bool.not_eq_false]
          exact fun refused => allocates ⟨imported, memory, found, refused⟩
        simp only [writeMemoryAllocation, found, if_pos imported, executeAll, Traced.bind_apply,
          execute_allocateMemory, allocated, memoryCapacity]
        exact ⟨_, rfl, allocatedSize _ _, rfl⟩
  · refine ⟨initialState module, ?_, ?_, rfl⟩
    · cases found : module.memories[0]? <;>
        simp [writeMemoryAllocation, found, imported, executeAll]
    · simp only [initialState, memoryCapacity, if_neg imported]
      decide

/-- The table of a module that has element segments is the runtime's. -/
theorem tableAllocation_completes (module : Wasm.Module Wasm.Scheme.binary)
    (env : InitEnv Wasm.Scheme.binary) (state : InitState Wasm.Scheme.binary)
    (unchanged : state.table.size = (initialState module).table.size) :
    ∃ after, executeAll env (writeTableAllocation module) state = ⟨.value (), after, []⟩ ∧
      after.memory = state.memory ∧
      (module.tables ≠ [] -> after.table.size = funcTableSize) := by
  cases found : module.tables[0]? with
  | none =>
      refine ⟨state, by simp [writeTableAllocation, found, executeAll], rfl, fun some => ?_⟩
      exact absurd (List.getElem?_eq_none_iff.mp found) (by
        have := List.length_pos_iff.mpr some
        omega)
  | some table =>
      by_cases imported : module.numTableImports = 0
      · refine ⟨{ state with table := envTable }, ?_, rfl, fun _some => rfl⟩
        simp [writeTableAllocation, found, imported, executeAll, execute, WasmRt.allocateTable]
      · refine ⟨state, by simp [writeTableAllocation, found, imported, executeAll], rfl,
          fun _some => ?_⟩
        rw [unchanged, initialState]
        simp [imported, envTable, WasmRt.allocateTableReal]

/-- The statements emitted for a validated module, by their four parts. -/
theorem runInit_written (env : InitEnv Wasm.Scheme.binary)
    (valid : Wasm.Validator.checkInitializers module = true) :
    ∃ copies elems,
      runInit module env = some (executeAll env
        (writeMemoryAllocation module ++ copies ++ (writeTableAllocation module ++ elems))
        (initialState module)) ∧
      (forall state allowed, DataAllowed env module.dataSegments allowed ->
        Copies state allowed (executeAll env copies state)) ∧
      (forall state allowed, ElemsAllowed env module.elemSegments allowed ->
        Copies state allowed (executeAll env elems state)) ∧
      (module.elemSegments ≠ [] -> module.tables ≠ []) := by
  simp only [Wasm.Validator.checkInitializers, Wasm.Validator.checkElemSegments,
    Wasm.Validator.checkDataSegments, Bool.and_eq_true, List.all_eq_true] at valid
  rcases valid with ⟨⟨_limits, elemsChecked⟩, dataChecked⟩
  obtain ⟨copies, copiesWritten, copiesRun⟩ := dataSegments_copy env module.dataSegments
    fun segment member => (dataChecked segment member).2
  obtain ⟨elems, elemsWritten, elemsRun⟩ := elemSegments_copy env
    (fun var => (module.funcs[var]?.map fun func => func.typeVar).getD 0) module.elemSegments
    fun segment member => (elemsChecked segment member).2
  refine ⟨copies, elems.flatten, ?_, copiesRun, elemsRun, fun nonempty empty => ?_⟩
  · simp only [runInit, writeDataInitializers, writeElemInitializers, copiesWritten, elemsWritten]
    rfl
  · rcases List.exists_mem_of_ne_nil _ nonempty with ⟨segment, member⟩
    have bound := (elemsChecked segment member).1.1
    rw [empty] at bound
    simp at bound

/-- A failing allocation stops initialisation before any write. -/
theorem runInit_aborts (valid : Wasm.Validator.checkInitializers module = true)
    (fails : AllocationFails module env) :
    ∃ run, runInit module env = some run ∧ run.outcome = .fault .abort ∧ run.accesses = [] := by
  rcases runInit_written env valid with ⟨copies, elems, written, _copiesRun, _elemsRun, _tables⟩
  refine ⟨_, written, ?_⟩
  rw [List.append_assoc]
  exact memoryAllocation_fails fails _

/-- Unless its allocation fails, initialisation completes. -/
theorem runInit_completes (valid : Wasm.Validator.checkInitializers module = true)
    (allocates : ¬ AllocationFails module env) :
    ∃ run, runInit module env = some run ∧ run.outcome = .value () ∧
      run.state.memory.size.toNat = memoryCapacity module % 2 ^ 32 ∧
      (module.elemSegments ≠ [] -> run.state.table.size.toNat = 1024) ∧
      forall allowed, DataAllowed env module.dataSegments allowed ->
        ElemsAllowed env module.elemSegments allowed ->
          forall access, access ∈ run.accesses -> allowed access := by
  rcases runInit_written env valid with ⟨copies, elems, written, copiesRun, elemsRun, tables⟩
  rcases memoryAllocation_completes allocates with ⟨allocated, allocation, memorySize, tableKept⟩
  -- The copies complete whatever is allowed; where they write is looked at last.
  have copied := copiesRun allocated (fun _access => True) fun _ _ _ _ => trivial
  obtain ⟨tabled, tableAllocation, memoryKept, tableSize⟩ := tableAllocation_completes module env
    (executeAll env copies allocated).state
    (copied.tableSize.trans (congrArg Table.size tableKept))
  have filled := elemsRun tabled (fun _access => True) fun _ _ _ _ _ _ => trivial
  have memoryPart : executeAll env (writeMemoryAllocation module ++ copies)
      (initialState module) = executeAll env copies allocated := by
    rw [executeAll_append, allocation, Traced.andThen_value_nil]
  have tablePart : executeAll env (writeTableAllocation module ++ elems)
      (executeAll env copies allocated).state = executeAll env elems tabled := by
    rw [executeAll_append, tableAllocation, Traced.andThen_value_nil]
  have ran : executeAll env
      (writeMemoryAllocation module ++ copies ++ (writeTableAllocation module ++ elems))
      (initialState module) =
      ⟨(executeAll env elems tabled).outcome,
        (executeAll env elems tabled).state,
        (executeAll env copies allocated).accesses ++
          (executeAll env elems tabled).accesses⟩ := by
    rw [executeAll_append, memoryPart, Traced.andThen_of_value copied.completes, tablePart]
  refine ⟨_, written, ?_⟩
  rw [ran]
  refine ⟨filled.completes, ?_, fun nonempty => ?_, ?_⟩
  · rw [filled.memorySize, memoryKept, copied.memorySize, memorySize]
  · rw [filled.tableSize, tableSize (tables nonempty)]
    rfl
  · intro allowed dataAllowed elemsAllowed access member
    rcases List.mem_append.mp member with copy | elem
    · exact (copiesRun allocated allowed dataAllowed).writes access copy
    · exact (elemsRun tabled allowed elemsAllowed).writes access elem

/-- A memory below 65536 pages has a capacity that `size` can hold. -/
theorem memoryCapacity_lt
    (small : module.numMemoryImports = 0 -> forall memory, module.memories[0]? = some memory ->
      memory.pageLimits.initial < 65536) :
    memoryCapacity module < 2 ^ 32 := by
  unfold memoryCapacity
  split
  · rename_i own
    split
    · rename_i memory found
      have below := small own memory found
      omega
    · decide
  · decide

theorem memoryCapacity_own {memory : Wasm.Memory} (own : module.numMemoryImports = 0)
    (found : module.memories[0]? = some memory) :
    memoryCapacity module = memory.pageLimits.initial * 65536 := by
  rw [memoryCapacity, if_pos own, found]

/-- Initialisation is safe exactly when everything fits. -/
theorem init_safe_iff (module : Wasm.Module Wasm.Scheme.binary)
    (env : InitEnv Wasm.Scheme.binary)
    (valid : Wasm.Validator.checkInitializers module = true) :
    ∃ run, runInit module env = some run ∧ (InitSafe module env run ↔ InitFits module env) := by
  by_cases fails : AllocationFails module env
  · rcases runInit_aborts valid fails with ⟨run, ran, aborted, untouched⟩
    refine ⟨run, ran, fun _safe => Or.inl fails, fun _fits => ?_⟩
    have incomplete : run.outcome ≠ .value () := by rw [aborted]; exact nofun
    refine ⟨fun access member => ?_, fun completes => absurd completes incomplete,
      fun completes => absurd completes incomplete, fun completes => absurd completes incomplete⟩
    rw [untouched] at member
    cases member
  rcases runInit_completes valid fails with ⟨run, ran, completes, memorySize, tableSize, writes⟩
  have sizeAtMost : run.state.memory.size.toNat ≤ memoryCapacity module :=
    memorySize.trans_le (Nat.mod_le _ _)
  refine ⟨run, ran, fun safe => Or.inr ⟨fun own memory found => ?_, ?_, ?_⟩, ?_⟩
  · have exact := safe.exactSize completes own memory found
    have bound := run.state.memory.size.isLt
    omega
  · intro segment member start value
    exact (safe.dataFit completes segment member start value).trans sizeAtMost
  · intro segment member start value
    have fits := safe.elemsFit completes segment member start value
    rwa [tableSize (List.ne_nil_of_mem member)] at fits
  · rintro (failed | ⟨small, dataFits, elemsFit⟩)
    · exact absurd failed fails
    rw [Nat.mod_eq_of_lt (memoryCapacity_lt small)] at memorySize
    refine ⟨writes (InitAccess.Inside run.state) ?_ ?_, ?_, ?_, ?_⟩
    · intro segment member start value
      exact (dataFits segment member start value).trans memorySize.ge
    · intro segment member start value index below
      have fits := elemsFit segment member start value
      have slot : tableSlot start index = start.toNat + index := by
        unfold tableSlot
        split
        · rw [BitVec.toNat_add, BitVec.toNat_ofNat]
          omega
        · rfl
      change tableSlot start index < run.state.table.size.toNat
      rw [slot, tableSize (List.ne_nil_of_mem member)]
      omega
    · intro _completes segment member start value
      exact (dataFits segment member start value).trans memorySize.ge
    · intro _completes segment member start value
      rw [tableSize (List.ne_nil_of_mem member)]
      exact elemsFit segment member start value
    · intro _completes own memory found
      rw [memorySize, memoryCapacity_own own found]

/-- A module with one page of memory and one byte of data at the given offset. -/
def oneByteModule (offset : BitVec 32) : Wasm.Module Wasm.Scheme.binary where
  imports := []
  funcTypes := []
  funcs := []
  tables := []
  memories := [⟨⟨1, none⟩⟩]
  globals := []
  exports := []
  starts := []
  elemSegments := []
  dataSegments := [⟨(0 : Nat), .instr (.const (.i32 offset)) .nil, [0]⟩]

/-- An environment in which every allocation succeeds. -/
def plainEnv : InitEnv Wasm.Scheme.binary := ⟨fun _ => 0, fun _ => 0, fun _ => true⟩

theorem init_safe_iff_lastByte :
    ∃ run, runInit (oneByteModule 65535) plainEnv = some run ∧
      (InitSafe (oneByteModule 65535) plainEnv run ↔ InitFits (oneByteModule 65535) plainEnv) :=
  init_safe_iff (oneByteModule 65535) plainEnv (by decide)

/-- A data segment that starts at the end of the memory is copied there. -/
theorem data_copied_past_end :
    Wasm.Validator.checkInitializers (oneByteModule 65536) = true ∧
      ∃ run, runInit (oneByteModule 65536) plainEnv = some run ∧
        run.outcome = .value () ∧ run.accesses = [.memory 65536 1] ∧
        ¬ InitSafe (oneByteModule 65536) plainEnv run := by
  refine ⟨by decide, _, rfl, rfl, rfl, fun safe => ?_⟩
  have fits := safe.inside (.memory 65536 1) List.mem_cons_self
  revert fits
  change ¬ 65536 + 1 ≤ 65536
  decide

end CWriter
end WasmSandboxing
