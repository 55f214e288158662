import WasmSandboxing.Foundation.Transition
import WasmSandboxing.WasmRt.Init
import Mathlib.Logic.Function.Basic

namespace WasmSandboxing
namespace Host

open Foundation WasmRt

/-!
# Callback slots

`registerCallback`, `unregisterCallback` and guest calls through the function
table, by the steps that other threads can see.  The table is guarded by
`func_tables_mutex`, but generated code reads it without; the two maps of the
sandbox are guarded by `registeredCallbackLock` wherever they are used.

A task is an operation under way on some thread; a thread whose callback makes
further calls has several.
-/

/-- A value that a registration has stored.  No step reads whose it is. -/
structure Stored (Value : Type) where
  value : Value
  registration : Nat

/-- What a table slot can call: a function of the module or the runtime, or the
stub that `registerCallback` has put there. -/
inductive TableFunc (Func : Type) where
  | plain (func : Func)
  | stub (registration : Nat)

/-- `WasmSandboxCallback`, with the number of its registration. -/
structure Handle (Callback UserState : Type) where
  registration : Nat
  slot : Nat
  callback : Callback
  state : UserState

/-- Where a task is. -/
inductive Task (Callback UserState : Type) where
  | idle
  /-- The stub is in the table, its type is not; the mutex is held. -/
  | filled (handle : Handle Callback UserState) (funcType : BitVec 32)
  /-- `wasm_rt_register_func` has returned; the maps have no entries yet. -/
  | typed (handle : Handle Callback UserState)
  /-- The entries are erased; the stub is still in the table. -/
  | erased (handle : Handle Callback UserState)
  /-- The stub is gone, its type is not; the mutex is held. -/
  | clearing (slot : Nat)
  /-- `CALL_INDIRECT` has seen a function in the slot. -/
  | checked (slot : Nat) (funcType : BitVec 32)
  /-- `CALL_INDIRECT` has seen the expected type as well. -/
  | matched (slot : Nat)
  /-- The stub of a registration has been called through the slot. -/
  | inStub (slot registration : Nat)
  /-- The stub has looked up its callback and calls it. -/
  | dispatched (registration : Nat) (callback : Stored Callback) (state : Stored UserState)

/-- The registration that a task holds between the two sections of
`registerCallback` or of `unregisterCallback`. -/
def Task.pending {Callback UserState : Type} :
    Task Callback UserState -> Option (Handle Callback UserState)
  | .filled handle _ | .typed handle | .erased handle => some handle
  | _ => none

inductive TaskAction (Callback UserState : Type) where
  | register (callback : Callback) (state : UserState) (funcType : BitVec 32)
  | writeType
  | insert
  | unregister (index : Nat)
  | clearFunc
  | clearType
  | indirectCall (slot : Nat) (funcType : BitVec 32)
  | checkType
  | callFunc
  | lookup
  | finish

/-- Why the process ended: the table was full, a null function was called, or a
stub found no callback. -/
inductive Crash where
  | outOfSlots | nullFunction | missingEntry
  deriving DecidableEq, Repr

/-- The table, the two maps of the sandbox, the mutex of the table, the handles
that the program may still unregister, and the tasks. -/
structure SlotState (Id Func Callback UserState : Type) where
  table : Nat -> Elem (TableFunc Func)
  callbackMap : Nat -> Option (Stored Callback)
  callbackStateMap : Nat -> Option (Stored UserState)
  mutexHeld : Bool
  handles : List (Handle Callback UserState)
  nextRegistration : Nat
  tasks : Id -> Task Callback UserState
  crash : Option Crash

namespace SlotState

variable {Id Func Callback UserState : Type}

/-- No callback is registered and nothing is under way. -/
def start (table : Nat -> Elem Func) : SlotState Id Func Callback UserState where
  table slot := ⟨(table slot).funcType, (table slot).func.map .plain⟩
  callbackMap _ := none
  callbackStateMap _ := none
  mutexHeld := false
  handles := []
  nextRegistration := 0
  tasks _ := .idle
  crash := none

variable (state : SlotState Id Func Callback UserState)

/-! ## What is claimed of a state -/

/-- Some task has changed one of the table and the maps at the slot, and not yet
the other. -/
def InFlight (slot : Nat) : Prop :=
  ∃ id handle, (state.tasks id).pending = some handle ∧ handle.slot = slot

/-- The slot's entries are those of the registration. -/
def HasEntry (slot registration : Nat) : Prop :=
  (∃ callback, state.callbackMap slot = some callback ∧ callback.registration = registration) ∧
    ∃ userState, state.callbackStateMap slot = some userState ∧
      userState.registration = registration

/-- A registration is live from filling its slot to clearing it. -/
def Live (handle : Handle Callback UserState) : Prop :=
  handle ∈ state.handles ∨ ∃ id, (state.tasks id).pending = some handle

/-- A slot that holds a stub has the entries of its registration exactly when it
is not in flight, and live registrations have slots of their own. -/
structure Consistent : Prop where
  entries : forall slot registration,
    (state.table slot).func = some (.stub registration) ->
      (state.HasEntry slot registration ↔ ¬ state.InFlight slot)
  distinct : forall first second, state.Live first -> state.Live second ->
    first.slot = second.slot -> first.registration = second.registration

/-- Nothing has called a null function or missed an entry, and every stub that
has looked up its callback has found its own registration's. -/
structure DispatchRight : Prop where
  crash : state.crash = none ∨ state.crash = some .outOfSlots
  found : forall id registration callback userState,
    state.tasks id = .dispatched registration callback userState ->
      callback.registration = registration ∧ userState.registration = registration

/-! ## The invariant -/

structure Invariant : Prop where
  handle : forall handle, handle ∈ state.handles ->
    (state.table handle.slot).func = some (.stub handle.registration) ∧
      state.callbackMap handle.slot = some ⟨handle.callback, handle.registration⟩ ∧
      state.callbackStateMap handle.slot = some ⟨handle.state, handle.registration⟩
  pending : forall id handle, (state.tasks id).pending = some handle ->
    (state.table handle.slot).func = some (.stub handle.registration) ∧
      state.callbackMap handle.slot = none ∧ state.callbackStateMap handle.slot = none
  alone : forall first second handle other, (state.tasks first).pending = some handle ->
    (state.tasks second).pending = some other -> handle.slot = other.slot -> first = second
  entry : forall slot,
    (state.callbackMap slot).isSome ∨ (state.callbackStateMap slot).isSome ->
      ∃ handle, handle ∈ state.handles ∧ handle.slot = slot
  owned : forall slot registration, (state.table slot).func = some (.stub registration) ->
    (∃ handle, handle ∈ state.handles ∧ handle.slot = slot) ∨ state.InFlight slot

variable {state} {next : SlotState Id Func Callback UserState}

theorem invariant_start (table : Nat -> Elem Func) :
    (start table : SlotState Id Func Callback UserState).Invariant where
  handle _handle member := absurd member List.not_mem_nil
  pending _id _handle holds := by cases holds
  alone _first _second _handle _other holds := by cases holds
  entry _slot present := by rcases present with present | present <;> cases present
  owned slot _registration stub := by
    have plain : (table slot).func.map TableFunc.plain = some (.stub _registration) := stub
    cases inner : (table slot).func <;> rw [inner] at plain <;> cases plain

theorem dispatchRight_start (table : Nat -> Elem Func) :
    (start table : SlotState Id Func Callback UserState).DispatchRight :=
  ⟨Or.inl rfl, nofun⟩

/-- A step that changes no function of the table, no entry, no handle, and no
task's pending registration. -/
theorem Invariant.of_same (holds : state.Invariant)
    (funcs : forall slot, (next.table slot).func = (state.table slot).func)
    (callbacks : next.callbackMap = state.callbackMap)
    (states : next.callbackStateMap = state.callbackStateMap)
    (handles : next.handles = state.handles)
    (pending : forall id, (next.tasks id).pending = (state.tasks id).pending) :
    next.Invariant where
  handle := by
    rw [callbacks, states, handles]
    intro handle member
    rw [funcs]
    exact holds.handle handle member
  pending := by
    rw [callbacks, states]
    intro id handle
    rw [funcs, pending]
    exact holds.pending id handle
  alone first second handle other := by
    rw [pending, pending]
    exact holds.alone first second handle other
  entry := by
    rw [callbacks, states, handles]
    exact holds.entry
  owned slot registration := by
    unfold InFlight
    simp only [funcs, handles, pending]
    exact holds.owned slot registration

/-- A handle's slot is not the slot of a pending registration. -/
theorem Invariant.handle_ne_pending (holds : state.Invariant)
    {handle other : Handle Callback UserState} (member : handle ∈ state.handles) {id : Id}
    (pending : (state.tasks id).pending = some other) : handle.slot ≠ other.slot := by
  intro same
  have stored := (holds.handle handle member).2.1
  rw [same, (holds.pending id other pending).2.1] at stored
  cases stored

/-- The entries of a registration are there exactly while its stub is and no
task is in between. -/
theorem Invariant.hasEntry_iff (holds : state.Invariant) (slot registration : Nat) :
    state.HasEntry slot registration ↔
      (state.table slot).func = some (.stub registration) ∧ ¬ state.InFlight slot := by
  constructor
  · rintro ⟨⟨callback, stored, stamp⟩, _userState⟩
    rcases holds.entry slot (Or.inl (by rw [stored]; rfl)) with ⟨handle, member, same⟩
    subst same
    rcases holds.handle handle member with ⟨stub, entry, _state⟩
    rw [stored] at entry
    cases entry
    subst stamp
    refine ⟨stub, fun ⟨id, other, pending, shared⟩ => ?_⟩
    exact holds.handle_ne_pending member pending shared.symm
  · rintro ⟨stub, settled⟩
    rcases holds.owned slot registration stub with ⟨handle, member, same⟩ | inFlight
    · subst same
      rcases holds.handle handle member with ⟨own, callback, userState⟩
      rw [stub] at own
      cases own
      exact ⟨⟨_, callback, rfl⟩, _, userState, rfl⟩
    · exact absurd inFlight settled

theorem Invariant.consistent (holds : state.Invariant) : state.Consistent where
  entries slot registration stub := by
    rw [holds.hasEntry_iff, and_iff_right stub]
  distinct first second firstLive secondLive same := by
    have stubOf : forall handle, state.Live handle ->
        (state.table handle.slot).func = some (.stub handle.registration) := by
      rintro handle (member | ⟨id, pending⟩)
      · exact (holds.handle handle member).1
      · exact (holds.pending id handle pending).1
    have both := stubOf first firstLive
    rw [same, stubOf second secondLive] at both
    exact (TableFunc.stub.inj (Option.some.inj both)).symm

/-! ## The steps -/

/-- The search of `wasm_rt_register_func`, which starts at slot 1. -/
def findEmpty (table : Nat -> Elem (TableFunc Func)) : Option Nat :=
  (List.range' 1 (funcTableSize.toNat - 1)).find? fun slot => (table slot).func.isNone

variable (state)

def setFunc (slot : Nat) (func : Option (TableFunc Func)) :
    SlotState Id Func Callback UserState :=
  { state with table := Function.update state.table slot ⟨(state.table slot).funcType, func⟩ }

def setType (slot : Nat) (funcType : BitVec 32) : SlotState Id Func Callback UserState :=
  { state with table := Function.update state.table slot ⟨funcType, (state.table slot).func⟩ }

theorem findEmpty_func {table : Nat -> Elem (TableFunc Func)} {slot : Nat}
    (found : findEmpty table = some slot) : (table slot).func = none := by
  have empty := List.find?_some found
  simpa using empty

theorem setType_func (slot : Nat) (funcType : BitVec 32) (other : Nat) :
    ((state.setType slot funcType).table other).func = (state.table other).func := by
  by_cases here : other = slot
  · subst here
    simp [setType]
  · simp [setType, here]

variable [DecidableEq Id] (id : Id)

def setTask (task : Task Callback UserState) : SlotState Id Func Callback UserState :=
  { state with tasks := Function.update state.tasks id task }

/-- The first part of `wasm_rt_register_func`: find an empty slot and fill it. -/
def register (callback : Callback) (userState : UserState) (funcType : BitVec 32) :
    SlotState Id Func Callback UserState :=
  match findEmpty state.table with
  | none => { state with crash := some .outOfSlots }
  | some slot =>
      let handle := ⟨state.nextRegistration, slot, callback, userState⟩
      { (state.setFunc slot (some (.stub state.nextRegistration))).setTask id
          (.filled handle funcType) with
        mutexHeld := true
        nextRegistration := state.nextRegistration + 1 }

/-- The locked part of `registerCallbackImpl`, after which it returns. -/
def insert (handle : Handle Callback UserState) : SlotState Id Func Callback UserState :=
  { state.setTask id .idle with
    callbackMap := Function.update state.callbackMap handle.slot
      (some ⟨handle.callback, handle.registration⟩)
    callbackStateMap := Function.update state.callbackStateMap handle.slot
      (some ⟨handle.state, handle.registration⟩)
    handles := handle :: state.handles }

/-- The locked part of `unregisterCallback`. -/
def erase (handle : Handle Callback UserState) : SlotState Id Func Callback UserState :=
  { state.setTask id (.erased handle) with
    callbackMap := Function.update state.callbackMap handle.slot none
    callbackStateMap := Function.update state.callbackStateMap handle.slot none
    handles := state.handles.filter fun other => other.slot ≠ handle.slot }

/-- Call what the slot holds now. -/
def callFunc (slot : Nat) : SlotState Id Func Callback UserState :=
  match (state.table slot).func with
  | none => { state with crash := some .nullFunction }
  | some (.plain _) => state.setTask id .idle
  | some (.stub registration) => state.setTask id (.inStub slot registration)

/-- The locked part of `callbackStubImpl`.  Where an entry is missing, the maps'
`operator[]` gives a null pointer, and the stub calls it. -/
def lookup (slot registration : Nat) : SlotState Id Func Callback UserState :=
  match state.callbackMap slot, state.callbackStateMap slot with
  | some callback, some userState =>
      state.setTask id (.dispatched registration callback userState)
  | _, _ => { state with crash := some .missingEntry }

/-- One step of a task.  A program unregisters handles that it still has, here
by their place in the list. -/
def act : Task Callback UserState -> TaskAction Callback UserState ->
    Option (SlotState Id Func Callback UserState)
  | .idle, .register callback userState funcType =>
      if state.mutexHeld then none else some (state.register id callback userState funcType)
  | .filled handle funcType, .writeType =>
      some { (state.setType handle.slot funcType).setTask id (.typed handle) with
        mutexHeld := false }
  | .typed handle, .insert => some (state.insert id handle)
  | .idle, .unregister index => (state.handles[index]?).map fun handle => state.erase id handle
  | .erased handle, .clearFunc =>
      if state.mutexHeld then none
      else some { (state.setFunc handle.slot none).setTask id (.clearing handle.slot) with
        mutexHeld := true }
  | .clearing slot, .clearType =>
      some { (state.setType slot 0).setTask id .idle with mutexHeld := false }
  | .idle, .indirectCall slot funcType =>
      -- Where the test fails, the call traps.
      if slot < funcTableSize.toNat ∧ (state.table slot).func.isSome then
        some (state.setTask id (.checked slot funcType))
      else none
  | .checked slot funcType, .checkType =>
      some (state.setTask id
        (if (state.table slot).funcType = funcType then .matched slot else .idle))
  | .matched slot, .callFunc => some (state.callFunc id slot)
  | .inStub slot registration, .lookup => some (state.lookup id slot registration)
  | .dispatched _ _ _, .finish => some (state.setTask id .idle)
  | _, _ => none

/-- An event is an action of a task. -/
def step (state : SlotState Id Func Callback UserState)
    (event : Id × TaskAction Callback UserState) : Option (SlotState Id Func Callback UserState) :=
  if state.crash.isSome then none else state.act event.1 (state.tasks event.1) event.2

def system : System (SlotState Id Func Callback UserState) (Id × TaskAction Callback UserState) :=
  ⟨step⟩

/-- A guest call is not overtaken: its slot is not cleared before it calls what
the slot holds, and a stub looks up its callback while the slot still holds it
and is not in flight. -/
def Undisturbed (event : Id × TaskAction Callback UserState) : Prop :=
  match state.tasks event.1, event.2 with
  | .matched slot, .callFunc => (state.table slot).func.isSome
  | .inStub slot registration, .lookup =>
      (state.table slot).func = some (.stub registration) ∧ ¬ state.InFlight slot
  | _, _ => True

/-- What a step can be. -/
inductive Stepped : Id × TaskAction Callback UserState ->
    SlotState Id Func Callback UserState -> Prop
  | register {id : Id} (task : state.tasks id = .idle) (callback : Callback)
      (userState : UserState) (funcType : BitVec 32) :
      Stepped (id, .register callback userState funcType)
        (state.register id callback userState funcType)
  | writeType {id : Id} {handle : Handle Callback UserState} {funcType : BitVec 32}
      (task : state.tasks id = .filled handle funcType) :
      Stepped (id, .writeType)
        { (state.setType handle.slot funcType).setTask id (.typed handle) with
          mutexHeld := false }
  | insert {id : Id} {handle : Handle Callback UserState} (task : state.tasks id = .typed handle) :
      Stepped (id, .insert) (state.insert id handle)
  | unregister {id : Id} {handle : Handle Callback UserState} (task : state.tasks id = .idle)
      (index : Nat) (owned : handle ∈ state.handles) :
      Stepped (id, .unregister index) (state.erase id handle)
  | clearFunc {id : Id} {handle : Handle Callback UserState}
      (task : state.tasks id = .erased handle) :
      Stepped (id, .clearFunc)
        { (state.setFunc handle.slot none).setTask id (.clearing handle.slot) with
          mutexHeld := true }
  | clearType {id : Id} {slot : Nat} (task : state.tasks id = .clearing slot) :
      Stepped (id, .clearType)
        { (state.setType slot 0).setTask id .idle with mutexHeld := false }
  | indirectCall {id : Id} (task : state.tasks id = .idle) (slot : Nat) (funcType : BitVec 32) :
      Stepped (id, .indirectCall slot funcType) (state.setTask id (.checked slot funcType))
  | checkType {id : Id} {slot : Nat} {funcType : BitVec 32}
      (task : state.tasks id = .checked slot funcType) :
      Stepped (id, .checkType)
        (state.setTask id (if (state.table slot).funcType = funcType then .matched slot else .idle))
  | callFunc {id : Id} {slot : Nat} (task : state.tasks id = .matched slot) :
      Stepped (id, .callFunc) (state.callFunc id slot)
  | lookup {id : Id} {slot registration : Nat} (task : state.tasks id = .inStub slot registration) :
      Stepped (id, .lookup) (state.lookup id slot registration)
  | finish {id : Id} {registration : Nat} {callback : Stored Callback}
      {userState : Stored UserState}
      (task : state.tasks id = .dispatched registration callback userState) :
      Stepped (id, .finish) (state.setTask id .idle)

variable {state} {event : Id × TaskAction Callback UserState}

theorem stepped (took : System.step system state event = some next) :
    state.crash = none ∧ state.Stepped event next := by
  change step state event = some next at took
  unfold step at took
  split at took
  · cases took
  rename_i running
  refine ⟨Option.not_isSome_iff_eq_none.mp running, ?_⟩
  rcases event with ⟨id, action⟩
  change state.act id (state.tasks id) action = some next at took
  generalize task : state.tasks id = current at took
  unfold act at took
  split at took
  · split at took
    · cases took
    · cases took
      exact .register task _ _ _
  · cases took
    exact .writeType task
  · cases took
    exact .insert task
  · rcases Option.map_eq_some_iff.mp took with ⟨handle, found, rfl⟩
    exact .unregister task _ (List.mem_of_getElem? found)
  · split at took
    · cases took
    · cases took
      exact .clearFunc task
  · cases took
    exact .clearType task
  · split at took
    · cases took
      exact .indirectCall task _ _
    · cases took
  · cases took
    exact .checkType task
  · cases took
    exact .callFunc task
  · cases took
    exact .lookup task
  · cases took
    exact .finish task
  · cases took

/-! ## Preservation -/

/-- The same where a task's new phase has the pending registration of its old. -/
theorem pending_setTask {id : Id} {task : Task Callback UserState}
    (same : task.pending = (state.tasks id).pending) (other : Id) :
    ((state.setTask id task).tasks other).pending = (state.tasks other).pending := by
  by_cases here : other = id
  · subst here
    simp [setTask, same]
  · simp [setTask, here]

theorem invariant_register (holds : state.Invariant) {id : Id} (idle : state.tasks id = .idle)
    (callback : Callback) (userState : UserState) (funcType : BitVec 32) :
    (state.register id callback userState funcType).Invariant := by
  unfold register
  split
  · exact holds.of_same (fun _slot => rfl) rfl rfl rfl fun _id => rfl
  rename_i slot found
  have empty := findEmpty_func found
  have handleElsewhere : forall handle, handle ∈ state.handles -> handle.slot ≠ slot := by
    intro handle member same
    have stub := (holds.handle handle member).1
    rw [same, empty] at stub
    cases stub
  have pendingElsewhere : forall other handle,
      (state.tasks other).pending = some handle -> handle.slot ≠ slot := by
    intro other handle pending same
    have stub := (holds.pending other handle pending).1
    rw [same, empty] at stub
    cases stub
  have noEntry : state.callbackMap slot = none ∧ state.callbackStateMap slot = none := by
    constructor <;> rw [← Option.not_isSome_iff_eq_none] <;> intro present
    · rcases holds.entry slot (Or.inl present) with ⟨handle, member, same⟩
      exact handleElsewhere handle member same
    · rcases holds.entry slot (Or.inr present) with ⟨handle, member, same⟩
      exact handleElsewhere handle member same
  constructor
  · intro handle member
    simpa [setFunc, setTask, handleElsewhere handle member] using holds.handle handle member
  · intro other handle pending
    by_cases here : other = id
    · subst here
      simp only [setTask, Function.update_self, Task.pending, Option.some.injEq] at pending
      subst pending
      simp [setFunc, setTask, noEntry]
    · simp only [setTask, setFunc, Function.update_of_ne here] at pending
      simpa [setFunc, setTask, pendingElsewhere other handle pending] using
        holds.pending other handle pending
  · intro first second handle other firstPending secondPending same
    by_cases firstHere : first = id
    · by_cases secondHere : second = id
      · rw [firstHere, secondHere]
      · subst firstHere
        simp only [setTask, setFunc, Function.update_self, Function.update_of_ne secondHere,
          Task.pending, Option.some.injEq] at firstPending secondPending
        subst firstPending
        exact absurd same.symm (pendingElsewhere second other secondPending)
    · by_cases secondHere : second = id
      · subst secondHere
        simp only [setTask, setFunc, Function.update_self, Function.update_of_ne firstHere,
          Task.pending, Option.some.injEq] at firstPending secondPending
        subst secondPending
        exact absurd same (pendingElsewhere first handle firstPending)
      · simp only [setTask, setFunc, Function.update_of_ne firstHere,
          Function.update_of_ne secondHere] at firstPending secondPending
        exact holds.alone first second handle other firstPending secondPending same
  · exact holds.entry
  · intro other registration stub
    by_cases here : other = slot
    · exact Or.inr ⟨id, ⟨state.nextRegistration, slot, callback, userState⟩,
        by simp [setTask, Task.pending], here.symm⟩
    · simp only [setFunc, setTask, Function.update_of_ne here] at stub
      rcases holds.owned other registration stub with held | ⟨task, handle, pending, same⟩
      · exact Or.inl held
      have different : task ≠ id := fun equal => by
        rw [equal, idle] at pending
        cases pending
      exact Or.inr ⟨task, handle, by simpa [setTask, setFunc, different] using pending, same⟩

theorem invariant_insert (holds : state.Invariant) {id : Id}
    {handle : Handle Callback UserState} (typed : state.tasks id = .typed handle) :
    (state.insert id handle).Invariant := by
  have pendingHere : (state.tasks id).pending = some handle := by rw [typed]; rfl
  have otherPending : forall other found,
      ((state.insert id handle).tasks other).pending = some found ->
        other ≠ id ∧ (state.tasks other).pending = some found := by
    intro other found pending
    by_cases here : other = id
    · subst here
      simp [insert, setTask, Task.pending] at pending
    · exact ⟨here, by simpa [insert, setTask, here] using pending⟩
  constructor
  · intro other member
    rcases List.mem_cons.mp member with same | older
    · subst same
      refine ⟨(holds.pending id other pendingHere).1, ?_⟩
      simp [insert]
    · have different := holds.handle_ne_pending older pendingHere
      simpa [insert, setTask, different] using holds.handle other older
  · intro other found pending
    rcases otherPending other found pending with ⟨elsewhere, before⟩
    have different : found.slot ≠ handle.slot := fun same =>
      elsewhere (holds.alone other id found handle before pendingHere same)
    simpa [insert, setTask, different] using holds.pending other found before
  · intro first second found other firstPending secondPending same
    exact holds.alone first second found other (otherPending first found firstPending).2
      (otherPending second other secondPending).2 same
  · intro slot present
    by_cases here : slot = handle.slot
    · exact ⟨handle, List.mem_cons_self, here.symm⟩
    · simp only [insert, Function.update_of_ne here] at present
      rcases holds.entry slot present with ⟨older, member, same⟩
      exact ⟨older, List.mem_cons_of_mem _ member, same⟩
  · intro slot registration stub
    rcases holds.owned slot registration stub with ⟨older, member, same⟩ | ⟨other, found, pending,
      same⟩
    · exact Or.inl ⟨older, List.mem_cons_of_mem _ member, same⟩
    · by_cases here : other = id
      · subst here
        rw [pendingHere] at pending
        cases pending
        exact Or.inl ⟨handle, List.mem_cons_self, same⟩
      · exact Or.inr ⟨other, found, by simpa [insert, setTask, here] using pending, same⟩

theorem invariant_erase (holds : state.Invariant) {id : Id} (idle : state.tasks id = .idle)
    {handle : Handle Callback UserState} (member : handle ∈ state.handles) :
    (state.erase id handle).Invariant := by
  have pendingCases : forall other found,
      ((state.erase id handle).tasks other).pending = some found ->
        (other = id ∧ found = handle) ∨
          (found.slot ≠ handle.slot ∧ (state.tasks other).pending = some found) := by
    intro other found pending
    by_cases here : other = id
    · subst here
      simp only [erase, setTask, Function.update_self, Task.pending, Option.some.injEq] at pending
      exact Or.inl ⟨rfl, pending.symm⟩
    · have before : (state.tasks other).pending = some found := by
        simpa [erase, setTask, here] using pending
      exact Or.inr ⟨(holds.handle_ne_pending member before).symm, before⟩
  constructor
  · intro other left
    rcases List.mem_filter.mp left with ⟨older, different⟩
    simp only [decide_eq_true_eq] at different
    simpa [erase, setTask, different] using holds.handle other older
  · intro other found pending
    rcases pendingCases other found pending with ⟨_here, same⟩ | ⟨different, before⟩
    · subst same
      refine ⟨(holds.handle found member).1, ?_⟩
      simp [erase]
    · simpa [erase, setTask, different] using holds.pending other found before
  · intro first second found other firstPending secondPending same
    rcases pendingCases first found firstPending with ⟨here, sameHandle⟩ | ⟨different, before⟩
    · rcases pendingCases second other secondPending with ⟨there, _sameHandle⟩ | ⟨differs, _before⟩
      · rw [here, there]
      · rw [sameHandle] at same
        exact absurd same.symm differs
    · rcases pendingCases second other secondPending with ⟨_there, sameHandle⟩ | ⟨_differs, after⟩
      · rw [sameHandle] at same
        exact absurd same different
      · exact holds.alone first second found other before after same
  · intro slot present
    by_cases here : slot = handle.slot
    · subst here
      simp [erase] at present
    · simp only [erase, Function.update_of_ne here] at present
      rcases holds.entry slot present with ⟨older, among, same⟩
      refine ⟨older, List.mem_filter.mpr ⟨among, ?_⟩, same⟩
      simpa [same] using here
  · intro slot registration stub
    by_cases here : slot = handle.slot
    · exact Or.inr ⟨id, handle, by simp [erase, setTask, Task.pending], here.symm⟩
    rcases holds.owned slot registration stub with ⟨older, among, same⟩ | ⟨other, found, pending,
      same⟩
    · refine Or.inl ⟨older, List.mem_filter.mpr ⟨among, ?_⟩, same⟩
      simpa [same] using here
    · have elsewhere : other ≠ id := fun equal => by
        rw [equal, idle] at pending
        cases pending
      exact Or.inr ⟨other, found, by simpa [erase, setTask, elsewhere] using pending, same⟩

theorem invariant_clearFunc (holds : state.Invariant) {id : Id}
    {handle : Handle Callback UserState} (erased : state.tasks id = .erased handle) :
    ({ (state.setFunc handle.slot none).setTask id (.clearing handle.slot) with
      mutexHeld := true } : SlotState Id Func Callback UserState).Invariant := by
  have pendingHere : (state.tasks id).pending = some handle := by rw [erased]; rfl
  have otherPending : forall other found,
      (((state.setFunc handle.slot none).setTask id (.clearing handle.slot)).tasks other).pending =
          some found ->
        found.slot ≠ handle.slot ∧ (state.tasks other).pending = some found := by
    intro other found pending
    by_cases here : other = id
    · subst here
      simp [setTask, Task.pending] at pending
    · have before : (state.tasks other).pending = some found := by
        simpa [setFunc, setTask, here] using pending
      exact ⟨fun same => here (holds.alone other id found handle before pendingHere same), before⟩
  constructor
  · intro other member
    have different := holds.handle_ne_pending member pendingHere
    simpa [setFunc, setTask, different] using holds.handle other member
  · intro other found pending
    rcases otherPending other found pending with ⟨different, before⟩
    simpa [setFunc, setTask, different] using holds.pending other found before
  · intro first second found other firstPending secondPending same
    exact holds.alone first second found other (otherPending first found firstPending).2
      (otherPending second other secondPending).2 same
  · exact holds.entry
  · intro slot registration stub
    have different : slot ≠ handle.slot := fun same => by
      subst same
      simp [setFunc, setTask] at stub
    simp only [setFunc, setTask, Function.update_of_ne different] at stub
    refine (holds.owned slot registration stub).imp_right fun ⟨other, found, pending, same⟩ => ?_
    have elsewhere : other ≠ id := fun equal => by
      rw [equal, pendingHere] at pending
      cases pending
      exact different same.symm
    exact ⟨other, found, by simpa [setFunc, setTask, elsewhere] using pending, same⟩

theorem invariant_step (holds : state.Invariant)
    (took : System.step system state event = some next) : next.Invariant := by
  rcases stepped took with ⟨_running, kind⟩
  cases kind with
  | register task callback userState funcType =>
      exact invariant_register holds task callback userState funcType
  | writeType task =>
      refine holds.of_same (fun slot => setType_func _ _ _ slot) rfl rfl rfl (pending_setTask ?_)
      change _ = (state.tasks _).pending
      rw [task]
      rfl
  | insert task => exact invariant_insert holds task
  | unregister task index owned => exact invariant_erase holds task owned
  | clearFunc task => exact invariant_clearFunc holds task
  | clearType task =>
      refine holds.of_same (fun slot => setType_func _ _ _ slot) rfl rfl rfl (pending_setTask ?_)
      change _ = (state.tasks _).pending
      rw [task]
      rfl
  | indirectCall task slot funcType =>
      exact holds.of_same (fun _slot => rfl) rfl rfl rfl (pending_setTask (by rw [task]; rfl))
  | checkType task =>
      refine holds.of_same (fun _slot => rfl) rfl rfl rfl (pending_setTask ?_)
      rw [task]
      split <;> rfl
  | callFunc task =>
      unfold callFunc
      split
      · exact holds.of_same (fun _slot => rfl) rfl rfl rfl fun _id => rfl
      · exact holds.of_same (fun _slot => rfl) rfl rfl rfl (pending_setTask (by rw [task]; rfl))
      · exact holds.of_same (fun _slot => rfl) rfl rfl rfl (pending_setTask (by rw [task]; rfl))
  | lookup task =>
      unfold lookup
      split
      · exact holds.of_same (fun _slot => rfl) rfl rfl rfl (pending_setTask (by rw [task]; rfl))
      · exact holds.of_same (fun _slot => rfl) rfl rfl rfl fun _id => rfl
  | finish task =>
      exact holds.of_same (fun _slot => rfl) rfl rfl rfl (pending_setTask (by rw [task]; rfl))

/-! ## Dispatch -/


/-- A step that gives one task a phase, and looks nothing up for it. -/
theorem DispatchRight.of_update (right : state.DispatchRight) {id : Id}
    {task : Task Callback UserState} (crash : next.crash = state.crash)
    (tasks : next.tasks = Function.update state.tasks id task)
    (quiet : forall registration callback userState,
      task = .dispatched registration callback userState ->
        callback.registration = registration ∧ userState.registration = registration) :
    next.DispatchRight := by
  refine ⟨crash ▸ right.crash, fun other registration callback userState found => ?_⟩
  rw [tasks] at found
  by_cases here : other = id
  · subst here
    rw [Function.update_self] at found
    exact quiet registration callback userState found
  · rw [Function.update_of_ne here] at found
    exact right.found other registration callback userState found

theorem callFunc_right_iff (right : state.DispatchRight) (id : Id) (slot : Nat) :
    (state.callFunc id slot).DispatchRight ↔ (state.table slot).func.isSome := by
  unfold callFunc
  cases func : (state.table slot).func with
  | none =>
      refine iff_of_false (fun wrong => ?_) (by simp)
      rcases wrong.crash with crash | crash <;> cases crash
  | some called =>
      cases called with
      | plain func => exact iff_of_true (right.of_update rfl rfl nofun) rfl
      | stub registration => exact iff_of_true (right.of_update rfl rfl nofun) rfl

theorem lookup_right_iff (right : state.DispatchRight) (id : Id) (slot registration : Nat) :
    (state.lookup id slot registration).DispatchRight ↔ state.HasEntry slot registration := by
  unfold lookup HasEntry
  cases callbackFound : state.callbackMap slot with
  | none =>
      refine iff_of_false (fun wrong => ?_) (by simp)
      rcases wrong.crash with crash | crash <;> cases crash
  | some callback =>
      cases stateFound : state.callbackStateMap slot with
      | none =>
          refine iff_of_false (fun wrong => ?_) (by simp)
          rcases wrong.crash with crash | crash <;> cases crash
      | some userState =>
          constructor
          · intro dispatched
            obtain ⟨ours, oursToo⟩ := dispatched.found id registration callback userState
              (by simp [setTask])
            exact ⟨⟨callback, rfl, ours⟩, userState, rfl, oursToo⟩
          · rintro ⟨⟨_callback, same, ours⟩, _userState, sameState, oursToo⟩
            cases same
            cases sameState
            refine right.of_update rfl rfl fun found foundCallback foundState task => ?_
            cases task
            exact ⟨ours, oursToo⟩

/-- Dispatch stays right in a step exactly when the step is not one of an
overtaken call. -/
theorem step_right_iff (holds : state.Invariant) (right : state.DispatchRight)
    (took : System.step system state event = some next) :
    next.DispatchRight ↔ state.Undisturbed event := by
  rcases stepped took with ⟨running, kind⟩
  cases kind with
  | register task callback userState funcType =>
      refine iff_of_true ?_ (by simp [Undisturbed, task])
      unfold register
      split
      · exact ⟨Or.inr rfl, right.found⟩
      · exact right.of_update rfl rfl (by simp)
  | writeType task | insert task | clearType task | finish task =>
      exact iff_of_true (right.of_update rfl rfl (by simp)) (by simp [Undisturbed, task])
  | unregister task index owned =>
      exact iff_of_true (right.of_update rfl rfl (by simp)) (by simp [Undisturbed, task])
  | clearFunc task =>
      exact iff_of_true (right.of_update rfl rfl (by simp)) (by simp [Undisturbed, task])
  | indirectCall task slot funcType =>
      exact iff_of_true (right.of_update rfl rfl (by simp)) (by simp [Undisturbed, task])
  | checkType task =>
      refine iff_of_true (right.of_update rfl rfl ?_) (by simp [Undisturbed, task])
      split <;> simp
  | callFunc task =>
      rw [callFunc_right_iff right, Undisturbed]
      simp only [task]
  | lookup task =>
      rw [lookup_right_iff right, holds.hasEntry_iff, Undisturbed]
      simp only [task]

/-- In every run, each slot with a stub has its entries exactly when it is not
in flight, live registrations never share a slot, and guest calls are dispatched
right throughout exactly when none of them is overtaken. -/
theorem callback_slots_exact (table : Nat -> Elem Func)
    (events : List (Id × TaskAction Callback UserState)) :
    System.Always system Consistent (start table : SlotState Id Func Callback UserState) events ∧
      (System.Always system DispatchRight (start table : SlotState Id Func Callback UserState)
          events ↔
        System.EachStep system Undisturbed (start table) events) := by
  constructor
  · exact System.always_of_eachStep
      (fun _state _event _next holds _any took => invariant_step holds took)
      (fun _state holds => holds.consistent) (invariant_start table) (System.eachStep_true _ _)
  · exact System.always_iff_eachStep
      (fun _state _event _next holds took => invariant_step holds took)
      (fun _state _event _next holds right took => step_right_iff holds right took)
      (invariant_start table) (dispatchRight_start table)

/-- A guest calls through slot 1 after `wasm_rt_register_func` has returned and
before the entries are inserted. -/
def callBeforeEntry : List (Bool × TaskAction Unit Unit) :=
  [(false, .register () () 1), (false, .writeType), (true, .indirectCall 1 1), (true, .checkType),
    (true, .callFunc), (true, .lookup)]

/-- The stub finds no callback and calls a null pointer. -/
theorem call_before_entry_misses :
    ∃ last, System.run system
        (start fun _ => ⟨0, none⟩ : SlotState Bool Unit Unit Unit) callBeforeEntry = some last ∧
      last.crash = some .missingEntry ∧
      (last.table 1).func = some (.stub 0) ∧ (last.callbackMap 1).isNone ∧
      ¬ last.DispatchRight := by
  refine ⟨_, rfl, rfl, rfl, rfl, fun right => ?_⟩
  rcases right.crash with crash | crash <;> cases crash

end SlotState

end Host
end WasmSandboxing
