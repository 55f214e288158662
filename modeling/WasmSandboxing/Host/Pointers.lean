import WasmSandboxing.WasmRt.Memory

namespace WasmSandboxing
namespace Host

open Foundation WasmRt

/-!
# Pointers between host and sandbox

`WasmSandbox` where it turns a value of the guest into a pointer that the host
dereferences.  The guest is untrusted: whatever it is asked, it answers with an
arbitrary 32-bit value or traps.  The host's own accesses to objects behind
such pointers are recorded, by their address in the host's address space.
-/

/-- The fields of a `WasmSandbox` that its pointers depend on. -/
structure Sandbox where
  wasmMemory : BitVec 64
  wasmMemorySize : BitVec 64
  heapBase : BitVec 32
  addressable : wasmMemory.toNat + wasmMemorySize.toNat ≤ 2 ^ 64

/-- A call into the guest. -/
inductive GuestCall where
  | malloc (size : BitVec 64)
  | free (pointer : BitVec 32)
  | function (arguments : List (BitVec 64))
  deriving DecidableEq, Repr

/-- How a call into the guest returns: its result, and whether the stack cookie
in the guest's memory is still there. -/
structure Answer where
  value : BitVec 32
  stackIntact : Bool
  deriving DecidableEq, Repr

/-- The guest as the host sees it: the answers it still gives, after which it
traps, and the calls made so far. -/
structure Guest where
  answers : List Answer
  calls : List GuestCall
  stackIntact : Bool

/-- An access of the host to an object at an address. -/
structure HostAccess where
  kind : AccessKind
  start : Nat
  length : Nat
  deriving DecidableEq, Repr

/-- The object is not null and lies in the sandbox's memory. -/
def HostAccess.Inside (sandbox : Sandbox) (access : HostAccess) : Prop :=
  access.start ≠ 0 ∧ sandbox.wasmMemory.toNat ≤ access.start ∧
    access.start + access.length ≤ sandbox.wasmMemory.toNat + sandbox.wasmMemorySize.toNat

/-- Code of the host that calls into a guest. -/
abbrev OnHost (Result : Type) := Traced Guest HostAccess Fault Result

/-- Call into the guest.  A trap returns to `invokeFunction`, which aborts. -/
def callGuest (call : GuestCall) : OnHost (BitVec 32) := fun guest =>
  match guest.answers with
  | [] => ⟨.fault .abort, { guest with calls := guest.calls ++ [call] }, []⟩
  | answer :: rest => ⟨.value answer.value, ⟨rest, guest.calls ++ [call], answer.stackIntact⟩, []⟩

def checkStackCookie : OnHost Unit := fun guest =>
  if guest.stackIntact then ⟨.value (), guest, []⟩ else ⟨.fault .abort, guest, []⟩

/-- `invokeFunction` for the guest's `malloc` and `free`, whose arguments need
no conversion. -/
def invokeAllocator (call : GuestCall) : OnHost (BitVec 32) := do
  let ret <- callGuest call
  checkStackCookie
  pure ret

namespace Sandbox

variable (sandbox : Sandbox)

/-! ## `wasm_sandbox.cpp` -/

def getUnsandboxedPointer (p : BitVec 64) : OnHost (BitVec 64) :=
  let pVal := p &&& 0xFFFFFFFF
  if pVal = 0 then pure 0
  else if pVal < sandbox.wasmMemorySize then pure (pVal + sandbox.wasmMemory)
  else Traced.fail .abort

def getSandboxedPointer (p : BitVec 64) : OnHost (BitVec 64) :=
  if p = 0 then pure 0
  else if p = sandbox.wasmMemory then Traced.fail .abort
  else if p > sandbox.wasmMemory ∧ p - sandbox.wasmMemory < sandbox.wasmMemorySize then
    pure (p - sandbox.wasmMemory)
  else Traced.fail .abort

def mallocInSandbox (size : BitVec 64) : OnHost (BitVec 64) := do
  let ret <- invokeAllocator (.malloc size)
  if ret ≠ 0 ∧ ret < sandbox.heapBase then Traced.fail .abort
  else sandbox.getUnsandboxedPointer (ret.setWidth 64)

def freeInSandbox (ptr : BitVec 64) : OnHost Unit := do
  let ret <- sandbox.getSandboxedPointer ptr
  let _ <- invokeAllocator (.free (ret.setWidth 32))
  pure ()

/-! ## `wasm_sandbox.h` -/

/-- The types that the templates treat differently: arithmetic types, pointers,
and classes by their size. -/
inductive CxxType where
  | arithmetic
  | pointer
  | object (size : BitVec 64)
  deriving DecidableEq, Repr

/-- An argument of an invoked function. -/
inductive Argument where
  | arithmetic (bits : BitVec 64)
  | pointer (address : BitVec 64)
  | callback (slot : BitVec 32)
  | object (size : BitVec 64)
  deriving DecidableEq, Repr

/-- What the guest is passed for an argument, and the pointers allocated for it. -/
def serializeArg : Argument -> OnHost (BitVec 64 × List (BitVec 64))
  | .arithmetic bits => pure (bits, [])
  | .pointer address => pure ((address.setWidth 32).setWidth 64, [])
  | .callback slot => pure (slot.setWidth 64, [])
  | .object size => do
      let argInSandbox <- sandbox.mallocInSandbox size
      Traced.access ⟨.write, argInSandbox.toNat, size.toNat⟩
      let ret <- sandbox.getSandboxedPointer argInSandbox
      pure ((ret.setWidth 32).setWidth 64, [argInSandbox])

def serializeArgs : List Argument -> OnHost (List (BitVec 64) × List (BitVec 64))
  | [] => pure ([], [])
  | arg :: rest => do
      let (value, allocated) <- sandbox.serializeArg arg
      let (values, allocatedLater) <- serializeArgs rest
      pure (value :: values, allocated ++ allocatedLater)

/-- The converted value; a class object is copied out and not followed further. -/
def convertReturnValue (type : CxxType) (arg : BitVec 32) : OnHost (BitVec 64) :=
  match type with
  | .arithmetic => pure (arg.setWidth 64)
  | .pointer => sandbox.getUnsandboxedPointer (arg.setWidth 64)
  | .object size => do
      let ret <- sandbox.getUnsandboxedPointer (arg.setWidth 64)
      Traced.access ⟨.read, ret.toNat, size.toNat⟩
      pure 0

/-- The call itself, `none` being `void`.  A class result is an out parameter
that the host allocates. -/
def invokeFunctionWithArgsAndRetParam (result : Option CxxType) (arguments : List (BitVec 64)) :
    OnHost (BitVec 64) :=
  match result with
  | none => do
      let _ <- callGuest (.function arguments)
      pure 0
  | some (.object size) => do
      let ret <- sandbox.mallocInSandbox size
      let retp <- sandbox.getSandboxedPointer ret
      let _ <- callGuest (.function ((retp.setWidth 32).setWidth 64 :: arguments))
      Traced.access ⟨.read, ret.toNat, size.toNat⟩
      sandbox.freeInSandbox ret
      pure 0
  | some type => do
      let ret <- callGuest (.function arguments)
      sandbox.convertReturnValue type ret

def freeAll : List (BitVec 64) -> OnHost Unit
  | [] => pure ()
  | ptr :: rest => do
      sandbox.freeInSandbox ptr
      freeAll rest

def invokeFunction (params : List Argument) (result : Option CxxType) : OnHost (BitVec 64) := do
  let (arguments, allocatedPointers) <- sandbox.serializeArgs params
  let ret <- sandbox.invokeFunctionWithArgsAndRetParam result arguments
  checkStackCookie
  sandbox.freeAll allocatedPointers
  pure ret

/-- `callbackStubImpl` up to the call of the host's function: the arguments that
the guest passes are converted in order. -/
def callbackStubImpl : List (CxxType × BitVec 32) -> OnHost (List (BitVec 64))
  | [] => pure []
  | (type, arg) :: rest => do
      let convertedValue <- sandbox.convertReturnValue type arg
      let convertedValues <- callbackStubImpl rest
      pure (convertedValue :: convertedValues)

/-! ## Refused and accepted offsets -/

/-- `getUnsandboxedPointer` aborts at the offset. -/
def PointerAborts (value : BitVec 32) : Prop :=
  value ≠ 0 ∧ sandbox.wasmMemorySize.toNat ≤ value.toNat

/-- The pointer that stands for an offset at which it does not abort. -/
def hostPointer (value : BitVec 32) : BitVec 64 :=
  if value = 0 then 0 else value.setWidth 64 + sandbox.wasmMemory

/-- `mallocInSandbox` aborts at what the guest's `malloc` answers. -/
def MallocAborts (answer : Answer) : Prop :=
  answer.stackIntact = false ∨ (answer.value ≠ 0 ∧ answer.value < sandbox.heapBase) ∨
    sandbox.PointerAborts answer.value

/-- An object at the offset is not null and ends within the memory. -/
def OffsetFits (value : BitVec 32) (size : BitVec 64) : Prop :=
  value ≠ 0 ∧ value.toNat + size.toNat ≤ sandbox.wasmMemorySize.toNat

variable {sandbox}

private theorem toNat_widen (value : BitVec 32) : (value.setWidth 64).toNat = value.toNat := by
  have bound := value.isLt
  rw [BitVec.toNat_setWidth]
  omega

private theorem mask_widen (value : BitVec 32) :
    value.setWidth 64 &&& 0xFFFFFFFF = value.setWidth 64 := by
  apply BitVec.eq_of_toNat_eq
  change (value.setWidth 64).toNat &&& 2 ^ 32 - 1 = (value.setWidth 64).toNat
  rw [Nat.and_two_pow_sub_one_eq_mod, toNat_widen, Nat.mod_eq_of_lt value.isLt]

private theorem widen_eq_zero {value : BitVec 32} : value.setWidth 64 = 0 ↔ value = 0 := by
  rw [← BitVec.toNat_inj, ← BitVec.toNat_inj, toNat_widen]
  rfl

theorem getUnsandboxedPointer_aborts {value : BitVec 32} (aborts : sandbox.PointerAborts value)
    (guest : Guest) :
    sandbox.getUnsandboxedPointer (value.setWidth 64) guest = ⟨.fault .abort, guest, []⟩ := by
  rcases aborts with ⟨nonzero, beyond⟩
  have notBelow : ¬ value.setWidth 64 < sandbox.wasmMemorySize := by
    rw [BitVec.lt_def, toNat_widen]
    omega
  simp only [getUnsandboxedPointer, mask_widen]
  rw [if_neg (widen_eq_zero.not.mpr nonzero), if_neg notBelow]
  rfl

theorem getUnsandboxedPointer_returns {value : BitVec 32}
    (accepted : ¬ sandbox.PointerAborts value) (guest : Guest) :
    sandbox.getUnsandboxedPointer (value.setWidth 64) guest =
      ⟨.value (sandbox.hostPointer value), guest, []⟩ := by
  simp only [getUnsandboxedPointer, mask_widen, hostPointer]
  by_cases zero : value = 0
  · rw [if_pos (widen_eq_zero.mpr zero), if_pos zero]
    rfl
  · have below : value.setWidth 64 < sandbox.wasmMemorySize := by
      rw [BitVec.lt_def, toNat_widen]
      exact Nat.lt_of_not_le fun beyond => accepted ⟨zero, beyond⟩
    rw [if_neg (widen_eq_zero.not.mpr zero), if_pos below, if_neg zero]
    rfl

/-- The pointer's address is the exact sum: the memory does not wrap around. -/
theorem hostPointer_toNat {value : BitVec 32} (accepted : ¬ sandbox.PointerAborts value)
    (nonzero : value ≠ 0) :
    (sandbox.hostPointer value).toNat = sandbox.wasmMemory.toNat + value.toNat := by
  have addressable := sandbox.addressable
  have below : value.toNat < sandbox.wasmMemorySize.toNat :=
    Nat.lt_of_not_le fun beyond => accepted ⟨nonzero, beyond⟩
  rw [hostPointer, if_neg nonzero, BitVec.toNat_add, toNat_widen]
  omega

theorem hostPointer_ne_zero {value : BitVec 32} (accepted : ¬ sandbox.PointerAborts value)
    (nonzero : value ≠ 0) : sandbox.hostPointer value ≠ 0 := by
  intro null
  have sum := hostPointer_toNat accepted nonzero
  have positive : 0 < value.toNat :=
    Nat.pos_of_ne_zero fun none => nonzero (BitVec.eq_of_toNat_eq none)
  rw [null] at sum
  change 0 = _ at sum
  omega

/-- `getSandboxedPointer` recovers the offset and does not abort. -/
theorem getSandboxedPointer_hostPointer {value : BitVec 32}
    (accepted : ¬ sandbox.PointerAborts value) (guest : Guest) :
    sandbox.getSandboxedPointer (sandbox.hostPointer value) guest =
      ⟨.value (value.setWidth 64), guest, []⟩ := by
  by_cases zero : value = 0
  · subst zero
    rfl
  have sum := hostPointer_toNat accepted zero
  have positive : 0 < value.toNat :=
    Nat.pos_of_ne_zero fun none => zero (BitVec.eq_of_toNat_eq none)
  have below : value.toNat < sandbox.wasmMemorySize.toNat :=
    Nat.lt_of_not_le fun beyond => accepted ⟨zero, beyond⟩
  have offset : sandbox.hostPointer value - sandbox.wasmMemory = value.setWidth 64 := by
    rw [hostPointer, if_neg zero, BitVec.add_sub_cancel]
  have notNull : sandbox.hostPointer value ≠ 0 := hostPointer_ne_zero accepted zero
  have notBase : sandbox.hostPointer value ≠ sandbox.wasmMemory := fun same => by
    rw [same] at sum
    omega
  have inside : sandbox.hostPointer value > sandbox.wasmMemory ∧
      sandbox.hostPointer value - sandbox.wasmMemory < sandbox.wasmMemorySize := by
    rw [offset, gt_iff_lt, BitVec.lt_def, BitVec.lt_def, sum, toNat_widen]
    omega
  rw [getSandboxedPointer, if_neg notNull, if_neg notBase, if_pos inside, offset]
  rfl

variable (sandbox) in
/-- What `fits` asks of an offset that `mallocInSandbox` accepts and of the
answers that come after it. -/
def Allocated (fits : BitVec 32 -> List Answer -> Prop) : List Answer -> Prop
  | [] => True
  | answer :: rest => sandbox.MallocAborts answer ∨ fits answer.value rest

/-- A computation that makes no access of the host's own, wherever it starts. -/
def Untouched (computation : OnHost R) : Prop :=
  Traced.Triple (fun _guest => True) computation (fun _access => False) fun _result _guest => True

theorem Untouched.bind {first : OnHost A} {next : A -> OnHost B} (firstHolds : Untouched first)
    (nextHolds : forall result, Untouched (next result)) : Untouched (first >>= next) :=
  Traced.Triple.bind firstHolds nextHolds

theorem Untouched.pure (result : R) : Untouched (Pure.pure result) :=
  Traced.Triple.pure result fun _guest _before => trivial

variable (sandbox) in
/-- The allocations for arguments fit, as far as they are reached, and `next`
holds of the answers left to the call. -/
def ParamsFit (next : List Answer -> Prop) : List Argument -> List Answer -> Prop
  | [], answers => next answers
  | .object size :: rest, answers =>
      sandbox.Allocated
        (fun value left => sandbox.OffsetFits value size ∧ ParamsFit next rest left) answers
  | _ :: rest, answers => ParamsFit next rest answers

variable (sandbox) in
/-- The allocation for a class result fits if the function returns. -/
def ResultFits : Option CxxType -> List Answer -> Prop
  | some (.object size), answers =>
      sandbox.Allocated (fun value left => left ≠ [] -> sandbox.OffsetFits value size) answers
  | _, _ => True

variable (sandbox) in
/-- The class arguments of a callback fit, as far as they are reached. -/
def ArgumentsFit : List (CxxType × BitVec 32) -> Prop
  | [] => True
  | (.arithmetic, _) :: rest => ArgumentsFit rest
  | (.pointer, value) :: rest => sandbox.PointerAborts value ∨ ArgumentsFit rest
  | (.object size, value) :: rest =>
      sandbox.PointerAborts value ∨ (sandbox.OffsetFits value size ∧ ArgumentsFit rest)

end Sandbox

/-! ## Safety of a call -/

/-- The entry points at which the host handles values of the guest. -/
inductive HostCall where
  | mallocInSandbox (size : BitVec 64)
  | invokeFunction (params : List Sandbox.Argument) (result : Option Sandbox.CxxType)
  | callbackStub (args : List (Sandbox.CxxType × BitVec 32))

namespace HostCall

/-- Run a call; what matters of the result is the pointer of an allocation. -/
def run (sandbox : Sandbox) : HostCall -> OnHost (BitVec 64)
  | mallocInSandbox size => sandbox.mallocInSandbox size
  | invokeFunction params result => sandbox.invokeFunction params result
  | callbackStub args => do
      let _ <- sandbox.callbackStubImpl args
      pure 0

/-- Every object that the host accesses is inside the sandbox's memory, and so
is the whole range of a returned allocation. -/
structure Safe (sandbox : Sandbox) (call : HostCall) (guest : Guest) : Prop where
  accesses : Traced.Safe (HostAccess.Inside sandbox) (call.run sandbox) guest
  allocation : forall size, call = .mallocInSandbox size -> forall pointer,
    (call.run sandbox guest).outcome = .value pointer -> pointer ≠ 0 ->
      sandbox.wasmMemory.toNat ≤ pointer.toNat ∧
        pointer.toNat + size.toNat ≤ sandbox.wasmMemory.toNat + sandbox.wasmMemorySize.toNat

/-- What a call needs of the guest's answers and of the callback's arguments. -/
def Fits (sandbox : Sandbox) (answers : List Answer) : HostCall -> Prop
  | mallocInSandbox size =>
      sandbox.Allocated (fun value _left => value = 0 ∨ sandbox.OffsetFits value size) answers
  | invokeFunction params result => sandbox.ParamsFit (sandbox.ResultFits result) params answers
  | callbackStub args => sandbox.ArgumentsFit args

end HostCall

variable {sandbox : Sandbox}

end Host
end WasmSandboxing
