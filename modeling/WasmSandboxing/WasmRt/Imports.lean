import WasmSandboxing.WasmRt.Init

namespace WasmSandboxing
namespace WasmRt

open Foundation CLang

/-!
# Imported functions of the runtime

The functions that the runtime provides to a module and that access its memory
themselves, at addresses computed from untrusted arguments and contents.  The
functions of the module that they call are arbitrary: they may change every byte
of the memory, but not its size.
-/

/-- A function of the guest: its result and the contents it leaves, unless it
traps. -/
abbrev GuestFunction (Arguments : Type) := Arguments -> Bytes -> Option (BitVec 32 × Bytes)

/-- What the imported functions depend on besides their arguments. -/
structure ImportEnv where
  fpu : FloatUnit
  dynamicTopPtr : BitVec 32
  errnoLocation : GuestFunction Unit
  realloc : GuestFunction (BitVec 32 × BitVec 32)
  setTempRet0 : GuestFunction (BitVec 32)
  /-- The values of `++setjmpId`, which other threads may increment as well. -/
  setjmpIds : Nat -> BitVec 32

namespace ImportEnv

variable (env : ImportEnv)

def callGuest (function : GuestFunction Arguments) (arguments : Arguments) :
    OnMemory (BitVec 32) := fun memory =>
  match function arguments memory.data with
  | some (result, data) => ⟨.value result, { memory with data := data }, []⟩
  | none => trap .unreachable memory

def i32Load (address : BitVec 32) : OnMemory (BitVec 32) := do
  let result <- LoadFunction.i32Load.call env.fpu (address.setWidth 64)
  match result with
  | .u32 bits => pure bits
  | _ => Traced.fail .undefined

def i64Load (address : BitVec 32) : OnMemory (BitVec 64) := do
  let result <- LoadFunction.i64Load.call env.fpu (address.setWidth 64)
  match result with
  | .u64 bits => pure bits
  | _ => Traced.fail .undefined

def i32Store (address value : BitVec 32) : OnMemory Unit :=
  StoreFunction.i32Store.call env.fpu (address.setWidth 64) (.u32 value)

/-! ## `wasm-rt-impl.cpp` -/

def setErrNo (value : BitVec 32) : OnMemory Unit := do
  let loc <- callGuest env.errnoLocation ()
  env.i32Store loc value

def abortOnCannotGrowMemoryCalled : OnMemory (BitVec 32) := Traced.fail .abort

def enlargeMemory : OnMemory (BitVec 32) := abortOnCannotGrowMemoryCalled

/-- `memcpy_big`; copying no bytes touches none. -/
def memcpyBig (dest src num : BitVec 32) : OnMemory (BitVec 32) := do
  Traced.access ⟨.read, src.toNat, num.toNat⟩
  Traced.access ⟨.write, dest.toNat, num.toNat⟩
  Traced.update fun memory =>
    { memory with data := memory.data.copy dest.toNat src.toNat num.toNat }
  pure dest

/-- `sbrk_impl`; the sum of `int32_t` operands wraps, which is what the check
after it looks for. -/
def sbrk (increment : BitVec 32) : OnMemory (BitVec 32) := do
  let oldDynamicTop <- env.i32Load env.dynamicTopPtr
  let newDynamicTop := oldDynamicTop + increment
  if (0 < increment.toInt ∧ newDynamicTop.toInt < oldDynamicTop.toInt) ∨ newDynamicTop.toInt < 0
  then abortOnCannotGrowMemoryCalled
  else
    env.i32Store env.dynamicTopPtr newDynamicTop
    let totalMemory := getTotalMemory
    if newDynamicTop.toInt > totalMemory.toInt then
      let enlarged <- enlargeMemory
      if enlarged = 0 then
        env.i32Store env.dynamicTopPtr oldDynamicTop
        env.setErrNo 12
        pure (-1)
      else pure oldDynamicTop
    else pure oldDynamicTop

def buildEnvironment (ptr : BitVec 32) : OnMemory Unit := env.i32Store ptr 0

/-- The loop of `saveSetjmp` over `remaining` entries from entry `i`: whether it
found a free one and filled it. -/
def saveInTable (label table newValue : BitVec 32) : Nat -> BitVec 32 -> OnMemory Bool
  | 0, _i => pure false
  | remaining + 1, i => do
      let loc := table + (i <<< 3)
      let entry <- env.i32Load loc
      if entry = 0 then
        env.i32Store loc newValue
        env.i32Store (loc + 4) label
        env.i32Store (loc + 8) 0
        pure true
      else saveInTable label table newValue remaining (i + 1)

/-- `saveSetjmp`, which calls itself on a table of twice the size.  `depth` is
the number of calls that the host's stack has room for; the next one ends the
process. -/
def saveSetjmp (envPtr label : BitVec 32) : Nat -> BitVec 32 -> BitVec 32 -> OnMemory (BitVec 32)
  | 0, _table, _size => Traced.fail .abort
  | depth + 1, table, size => do
      let newValue := env.setjmpIds depth
      env.i32Store envPtr newValue
      let saved <- env.saveInTable label table newValue size.toNat 0
      if saved then
        let _ <- callGuest env.setTempRet0 size
        pure table
      else
        let size := size * 2
        let table <- callGuest env.realloc (table, 8 * (size + 1))
        let table <- saveSetjmp envPtr label depth table size
        let _ <- callGuest env.setTempRet0 size
        pure table

/-! ## `wasm-rt-syscall-impl.cpp` -/

/-- `getUnsandboxedPointer`: the index of a range of `size` bytes. -/
def getUnsandboxedPointer (arg64 size : BitVec 64) : OnMemory Nat := fun memory =>
  let arg := arg64 &&& 0xFFFFFFFF
  if arg > memory.size.setWidth 64 then trap .oob memory
  else if arg + size > memory.size.setWidth 64 then trap .oob memory
  else ⟨.value (arg.setWidth 32).toNat, memory, []⟩

/-- Read a `uint32_t` through a host pointer into the memory. -/
def readField (start : Nat) : OnMemory (BitVec 32) := do
  Traced.access ⟨.read, start, 4⟩
  Traced.inspect fun memory => BitVec.ofNat 32 (memory.data.read start 4)

/-- The inner loop of `sys_writev`, which prints `length` bytes. -/
def putchars (start : Nat) : Nat -> OnMemory Unit
  | 0 => pure ()
  | length + 1 => do
      Traced.access ⟨.read, start, 1⟩
      putchars (start + 1) length

/-- The outer loop over `remaining` vectors from index `i`; a `struct
iovec_custom` has its base at its start and its length at byte 8. -/
def writeVectors (iov : Nat) : Nat -> Nat -> BitVec 64 -> OnMemory (BitVec 64)
  | 0, _i, ret => pure ret
  | remaining + 1, i, ret => do
      let len <- readField (iov + 16 * i + 8)
      let base <- readField (iov + 16 * i)
      let start <- getUnsandboxedPointer (base.setWidth 64) (len.setWidth 64)
      putchars start len.toNat
      writeVectors iov remaining (i + 1) (ret + len.setWidth 64)

def sysWritev (syscallnum args : BitVec 32) : OnMemory (BitVec 64) := do
  if syscallnum ≠ 146 then Traced.fail .abort
  else
    let stream <- env.i32Load args
    let sandboxedIov <- env.i64Load (args + 8)
    let iovcnt <- env.i32Load (args + 16)
    if stream ≠ 1 ∧ stream ≠ 2 then Traced.fail .abort
    else
      let iov <- getUnsandboxedPointer sandboxedIov (iovcnt.setWidth 64 * 16)
      writeVectors iov iovcnt.toNat 0 0

/-! ## What stays inside -/

/-- From a memory of the given size, every access is inside it and the size is
kept. -/
def Keeps (size : BitVec 32) (computation : OnMemory R) : Prop :=
  Traced.Triple (fun memory => memory.size = size) computation (Access.Inside size.toNat)
    fun _result memory => memory.size = size

namespace Keeps

variable {size : BitVec 32}

theorem bind {first : OnMemory A} {next : A -> OnMemory B} (firstKeeps : Keeps size first)
    (nextKeeps : forall result, Keeps size (next result)) : Keeps size (first >>= next) :=
  Traced.Triple.bind firstKeeps nextKeeps

theorem pure (result : R) : Keeps size (Pure.pure result) :=
  Traced.Triple.pure result fun _memory same => same

theorem fail (reason : Fault) : Keeps size (Traced.fail reason : OnMemory R) :=
  Traced.Triple.fail reason

theorem ite {condition : Prop} [Decidable condition] {yes no : OnMemory R}
    (whenTrue : Keeps size yes) (whenFalse : Keeps size no) :
    Keeps size (if condition then yes else no) :=
  Traced.Triple.ite (fun _holds => whenTrue) fun _fails => whenFalse

theorem inspect (view : Memory -> R) : Keeps size (Traced.inspect view) :=
  Traced.Triple.inspect view fun _memory same => same

theorem access {kind : AccessKind} {start length : Nat} (fits : start + length ≤ size.toNat) :
    Keeps size (Traced.access ⟨kind, start, length⟩) :=
  Traced.Triple.access _ (Access.inside_of_le fits) fun _memory same => same

end Keeps

variable {env} {size : BitVec 32}

theorem load_keeps (function : LoadFunction) (address : BitVec 32) :
    Keeps size (function.call env.fpu (address.setWidth 64)) := by
  rintro memory rfl
  have bound := address.isLt
  have small : function.sizeof ≤ 8 := by cases function <;> decide
  have room : (address.setWidth 64).toNat + function.sizeof < 2 ^ 64 := by
    rw [BitVec.toNat_setWidth]
    omega
  rcases Nat.lt_or_ge memory.size.toNat ((address.setWidth 64).toNat + function.sizeof) with
    beyond | fits
  · rw [LoadFunction.call_outside env.fpu function room beyond]
    exact ⟨fun access member => absurd member List.not_mem_nil, fun _result returned => by
      cases returned⟩
  · rcases LoadFunction.call_inside env.fpu function room fits with ⟨value, _result, called⟩
    rw [called]
    refine ⟨fun access member => ?_, fun _result _returned => rfl⟩
    rw [List.mem_singleton.mp member]
    exact Access.inside_of_le fits

theorem i32Load_keeps (address : BitVec 32) : Keeps size (env.i32Load address) := by
  refine (load_keeps .i32Load address).bind fun result => ?_
  split
  · exact .pure _
  · exact .fail _

theorem i64Load_keeps (address : BitVec 32) : Keeps size (env.i64Load address) := by
  refine (load_keeps .i64Load address).bind fun result => ?_
  split
  · exact .pure _
  · exact .fail _

theorem i32Store_keeps (address value : BitVec 32) : Keeps size (env.i32Store address value) := by
  rintro memory rfl
  have bound := address.isLt
  have room : (address.setWidth 64).toNat + StoreFunction.i32Store.sizeof < 2 ^ 64 := by
    rw [BitVec.toNat_setWidth]
    change _ + 4 < _
    omega
  have typed : (CValue.u32 value).type = StoreFunction.i32Store.types.2 := rfl
  unfold i32Store
  rcases Nat.lt_or_ge memory.size.toNat
      ((address.setWidth 64).toNat + StoreFunction.i32Store.sizeof) with beyond | fits
  · rw [StoreFunction.call_outside env.fpu .i32Store typed room beyond]
    exact ⟨fun access member => absurd member List.not_mem_nil, fun _result returned => by
      cases returned⟩
  · rw [StoreFunction.call_inside env.fpu .i32Store typed room fits]
    refine ⟨fun access member => ?_, fun _result _returned => rfl⟩
    rw [List.mem_singleton.mp member]
    exact Access.inside_of_le fits

theorem callGuest_keeps (function : GuestFunction Arguments) (arguments : Arguments) :
    Keeps size (callGuest function arguments) := by
  rintro memory rfl
  unfold callGuest
  split
  · exact ⟨fun access member => absurd member List.not_mem_nil, fun _result _returned => rfl⟩
  · exact ⟨fun access member => absurd member List.not_mem_nil, fun _result returned => by
      cases returned⟩

theorem setErrNo_keeps (value : BitVec 32) : Keeps size (env.setErrNo value) :=
  (callGuest_keeps env.errnoLocation ()).bind fun loc => i32Store_keeps loc value

theorem sbrk_keeps (increment : BitVec 32) : Keeps size (env.sbrk increment) := by
  refine (i32Load_keeps env.dynamicTopPtr).bind fun oldDynamicTop => .ite (.fail _) ?_
  refine (i32Store_keeps env.dynamicTopPtr _).bind fun _stored => .ite ?_ (.pure _)
  refine Keeps.bind (.fail _) fun enlarged => .ite ?_ (.pure _)
  exact (i32Store_keeps env.dynamicTopPtr oldDynamicTop).bind fun _restored =>
    (setErrNo_keeps 12).bind fun _set => .pure _

theorem buildEnvironment_keeps (ptr : BitVec 32) : Keeps size (env.buildEnvironment ptr) :=
  i32Store_keeps ptr 0

theorem saveInTable_keeps (label table newValue : BitVec 32) (remaining : Nat) (i : BitVec 32) :
    Keeps size (env.saveInTable label table newValue remaining i) := by
  induction remaining generalizing i with
  | zero => exact .pure false
  | succ remaining inductionHypothesis =>
      refine (i32Load_keeps _).bind fun entry => .ite ?_ (inductionHypothesis (i + 1))
      exact (i32Store_keeps _ newValue).bind fun _id => (i32Store_keeps _ label).bind fun _label =>
        (i32Store_keeps _ 0).bind fun _next => .pure true

/-- Every depth of the recursion, whatever table the guest reallocates. -/
theorem saveSetjmp_keeps (envPtr label : BitVec 32) (depth : Nat) (table entries : BitVec 32) :
    Keeps size (env.saveSetjmp envPtr label depth table entries) := by
  induction depth generalizing table entries with
  | zero => exact .fail _
  | succ depth inductionHypothesis =>
      refine (i32Store_keeps envPtr _).bind fun _stored =>
        (saveInTable_keeps label table _ entries.toNat 0).bind fun saved => .ite ?_ ?_
      · exact (callGuest_keeps env.setTempRet0 entries).bind fun _ignored => .pure table
      · exact (callGuest_keeps env.realloc _).bind fun grown =>
          (inductionHypothesis grown (entries * 2)).bind fun result =>
            (callGuest_keeps env.setTempRet0 (entries * 2)).bind fun _ignored => .pure result

/-- A range that passes the two checks is inside: its sum does not wrap. -/
theorem getUnsandboxedPointer_bound (arg64 length : BitVec 64) (small : length.toNat < 2 ^ 63) :
    Traced.Triple (fun memory => memory.size = size) (getUnsandboxedPointer arg64 length)
      (Access.Inside size.toNat)
      fun start memory => memory.size = size ∧ start + length.toNat ≤ size.toNat := by
  rintro memory rfl
  have sizeBound := memory.size.isLt
  unfold getUnsandboxedPointer
  generalize arg64 &&& 0xFFFFFFFF = arg
  by_cases beyond : arg > memory.size.setWidth 64
  · simp only [if_pos beyond]
    exact ⟨fun access member => absurd member List.not_mem_nil, fun _result returned => by
      cases returned⟩
  by_cases overEnd : arg + length > memory.size.setWidth 64
  · simp only [if_neg beyond, if_pos overEnd]
    exact ⟨fun access member => absurd member List.not_mem_nil, fun _result returned => by
      cases returned⟩
  simp only [if_neg beyond, if_neg overEnd]
  refine ⟨fun access member => absurd member List.not_mem_nil, fun start returned => ?_⟩
  cases returned
  refine ⟨trivial, ?_⟩
  rw [gt_iff_lt, BitVec.lt_def, BitVec.toNat_setWidth] at beyond overEnd
  rw [BitVec.toNat_add] at overEnd
  rw [BitVec.toNat_setWidth]
  omega

theorem readField_keeps {start : Nat} (fits : start + 4 ≤ size.toNat) :
    Keeps size (readField start) :=
  (Keeps.access fits).bind fun _accessed => .inspect _

theorem putchars_keeps (start length : Nat) (fits : start + length ≤ size.toNat) :
    Keeps size (putchars start length) := by
  induction length generalizing start with
  | zero => exact .pure ()
  | succ length inductionHypothesis =>
      exact (Keeps.access (by omega)).bind fun _accessed =>
        inductionHypothesis (start + 1) (by omega)

theorem writeVectors_keeps (iov remaining i : Nat) (ret : BitVec 64)
    (fits : iov + 16 * (i + remaining) ≤ size.toNat) :
    Keeps size (writeVectors iov remaining i ret) := by
  induction remaining generalizing i ret with
  | zero => exact .pure ret
  | succ remaining inductionHypothesis =>
      refine (readField_keeps (by omega)).bind fun len => (readField_keeps (by omega)).bind
        fun base => ?_
      have lengthBound := len.isLt
      have same : (len.setWidth 64).toNat = len.toNat := by
        rw [BitVec.toNat_setWidth]
        omega
      refine Traced.Triple.bind (getUnsandboxedPointer_bound _ _ (by omega)) fun start => ?_
      refine Traced.Triple.assume (fun _memory known => known.2) fun within => ?_
      rw [same] at within
      refine Traced.Triple.consequence ((putchars_keeps start len.toNat within).bind
        fun _printed => inductionHypothesis (i + 1) _ (by omega))
        (fun _memory known => known.1) (fun _access inside => inside) fun _ret _memory same => same

theorem sysWritev_keeps (syscallnum args : BitVec 32) :
    Keeps size (env.sysWritev syscallnum args) := by
  refine .ite (.fail _) ((i32Load_keeps _).bind fun stream => (i64Load_keeps _).bind
    fun sandboxedIov => (i32Load_keeps _).bind fun iovcnt => .ite (.fail _) ?_)
  have countBound := iovcnt.isLt
  have bytes : (iovcnt.setWidth 64 * 16).toNat = iovcnt.toNat * 16 := by
    rw [BitVec.toNat_mul, BitVec.toNat_setWidth]
    change _ * 16 % _ = _
    omega
  refine Traced.Triple.bind (getUnsandboxedPointer_bound _ _ (by omega)) fun iov => ?_
  refine Traced.Triple.assume (fun _memory known => known.2) fun within => ?_
  refine Traced.Triple.consequence (writeVectors_keeps iov iovcnt.toNat 0 0 (by omega))
    (fun _memory known => known.1) (fun _access inside => inside) fun _ret _memory same => same

/-- Copying is inside when no bytes are copied or both ranges fit. -/
def CopyFits (size : BitVec 32) (dest src num : BitVec 32) : Prop :=
  num = 0 ∨ (src.toNat + num.toNat ≤ size.toNat ∧ dest.toNat + num.toNat ≤ size.toNat)

theorem memcpyBig_inside_iff (dest src num : BitVec 32) (memory : Memory) :
    (forall access, access ∈ (memcpyBig dest src num memory).accesses ->
        access.Inside memory.size.toNat) ↔
      CopyFits memory.size dest src num := by
  change (forall access, access ∈ [(⟨.read, src.toNat, num.toNat⟩ : Access),
    ⟨.write, dest.toNat, num.toNat⟩] -> _) ↔ _
  rw [List.forall_mem_cons, List.forall_mem_singleton, CopyFits]
  by_cases none : num = 0
  · subst none
    exact iff_of_true ⟨fun index above below => absurd below (Nat.not_lt.mpr above),
      fun index above below => absurd below (Nat.not_lt.mpr above)⟩ (Or.inl rfl)
  · have positive : 0 < num.toNat :=
      Nat.pos_of_ne_zero fun zero => none (BitVec.eq_of_toNat_eq zero)
    rw [Access.inside_iff positive, Access.inside_iff positive, or_iff_right none]

end ImportEnv

/-! ## All imported functions -/

/-- A call of an imported function. -/
inductive ImportCall where
  | memcpyBig (dest src num : BitVec 32)
  | writev (syscallnum args : BitVec 32)
  | saveSetjmp (envPtr label table size : BitVec 32) (depth : Nat)
  | sbrk (increment : BitVec 32)
  | setErrNo (value : BitVec 32)
  | buildEnvironment (ptr : BitVec 32)
  deriving DecidableEq, Repr

namespace ImportCall

open ImportEnv

/-- Run a call; its result is of no interest. -/
def run (env : ImportEnv) : ImportCall -> OnMemory Unit
  | memcpyBig dest src num => do
      let _ <- ImportEnv.memcpyBig dest src num
      pure ()
  | writev syscallnum args => do
      let _ <- env.sysWritev syscallnum args
      pure ()
  | saveSetjmp envPtr label table size depth => do
      let _ <- env.saveSetjmp envPtr label depth table size
      pure ()
  | sbrk increment => do
      let _ <- env.sbrk increment
      pure ()
  | setErrNo value => env.setErrNo value
  | buildEnvironment ptr => env.buildEnvironment ptr

/-- Only the copy depends on its arguments. -/
def Fits (size : BitVec 32) : ImportCall -> Prop
  | memcpyBig dest src num => CopyFits size dest src num
  | _ => True

/-- An imported function stays inside the memory exactly when it is not a copy
that leaves it. -/
theorem import_call_inside_iff (env : ImportEnv) (call : ImportCall) (memory : Memory) :
    (forall access, access ∈ (call.run env memory).accesses ->
        access.Inside memory.size.toNat) ↔
      call.Fits memory.size := by
  have stays {computation : OnMemory Unit} (keeps : Keeps memory.size computation) :
      (forall access, access ∈ (computation memory).accesses ->
        access.Inside memory.size.toNat) ↔ True :=
    iff_true_intro (keeps memory rfl).1
  cases call with
  | memcpyBig dest src num => exact memcpyBig_inside_iff dest src num memory
  | writev syscallnum args =>
      exact stays ((sysWritev_keeps syscallnum args).bind fun _ret => .pure ())
  | saveSetjmp envPtr label table size depth =>
      exact stays ((saveSetjmp_keeps envPtr label depth table size).bind fun _ret => .pure ())
  | sbrk increment => exact stays ((sbrk_keeps increment).bind fun _ret => .pure ())
  | setErrNo value => exact stays (setErrNo_keeps value)
  | buildEnvironment ptr => exact stays (buildEnvironment_keeps ptr)

/-- A copy of one byte to the end of a memory of one page writes outside it. -/
theorem memcpy_big_writes_outside :
    let memory : Memory := ⟨fun _ => 0, 1, 1, 65536⟩
    let env : ImportEnv :=
      ⟨default, 0, fun _ _ => none, fun _ _ => none, fun _ _ => none, fun _ => 0⟩
    ((memcpyBig 65536 0 1).run env memory).outcome = .value () ∧
      ¬ forall access, access ∈ ((memcpyBig 65536 0 1).run env memory).accesses ->
        access.Inside memory.size.toNat := by
  refine ⟨rfl, fun inside => ?_⟩
  have written := inside ⟨.write, 65536, 1⟩ (List.mem_cons_of_mem _ List.mem_cons_self)
  have last : 65536 < 65536 := written 65536 (Nat.le_refl _) (by decide)
  exact absurd last (Nat.lt_irrefl _)

end ImportCall

end WasmRt
end WasmSandboxing
