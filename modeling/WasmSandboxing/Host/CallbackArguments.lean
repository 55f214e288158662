import Mathlib.Algebra.Ring.Nat
import Mathlib.Data.BitVec

namespace WasmSandboxing
namespace Host

/-!
# The arguments of a callback

`callbackStubImpl` and `invokeCallbackTarget` of `wasm_sandbox.h`.  The stub is
called with the values that the guest passes, by the types of the guest, and
calls the host's function with the state of the registration and the values by
the types that the function declares.  The templates take the first argument of
a pack, convert it, and put it behind the others, until no types are left.

The converted values may depend on the sandbox and its memory, and a conversion
may abort, so that both it and the function are effects of a monad.
-/

namespace CallbackArguments

/-- The types that a callback may declare, as far as the templates tell them
apart: fundamental types of up to 4 bytes, which are `bool` or of a width, those
of 8 bytes, the floating-point types, pointers, and classes by their size. -/
inductive CxxType where
  | bool
  | narrow (width : Nat)
  | wide
  | float
  | double
  | pointer
  | object (size : Nat)
  deriving DecidableEq, Repr

/-- The types of the values that the guest passes. -/
inductive WasmType where
  | u32 | u64 | float | double
  deriving DecidableEq, Repr

/-- `wasm_return_type` -/
def wasmReturnType : CxxType -> WasmType
  | .bool | .narrow _ | .pointer | .object _ => .u32
  | .wide => .u64
  | .float => .float
  | .double => .double

/-- A value of a pack: what the guest passes, the state of the registration, or
what a conversion has given. -/
inductive Value where
  | u32 (arg : BitVec 32)
  | u64 (arg : BitVec 64)
  | float (arg : BitVec 32)
  | double (arg : BitVec 64)
  | state (pointer : BitVec 64)
  | number (type : CxxType) (bits : BitVec 64)
  | pointer (address : BitVec 64)
  | object (bytes : List (BitVec 8))
  deriving DecidableEq, Repr

/-- A declared type with a value that the guest passes for it. -/
inductive Argument where
  | bool (arg : BitVec 32)
  | narrow (width : Nat) (arg : BitVec 32)
  | wide (arg : BitVec 64)
  | float (arg : BitVec 32)
  | double (arg : BitVec 64)
  | pointer (arg : BitVec 32)
  | object (size : Nat) (arg : BitVec 32)
  deriving DecidableEq, Repr

def Argument.type : Argument -> CxxType
  | .bool _ => .bool
  | .narrow width _ => .narrow width
  | .wide _ => .wide
  | .float _ => .float
  | .double _ => .double
  | .pointer _ => .pointer
  | .object size _ => .object size

def Argument.value : Argument -> Value
  | .bool arg | .narrow _ arg | .pointer arg | .object _ arg => .u32 arg
  | .wide arg => .u64 arg
  | .float arg => .float arg
  | .double arg => .double arg

/-- The overload of `convertReturnValue` for a declared type takes a value of one
type, which is the `wasm_return_type` of it. -/
def overload : CxxType -> WasmType -> Value -> Option Argument
  | .bool, .u32, .u32 arg => some (.bool arg)
  | .narrow width, .u32, .u32 arg => some (.narrow width arg)
  | .wide, .u64, .u64 arg => some (.wide arg)
  | .float, .float, .float arg => some (.float arg)
  | .double, .double, .double arg => some (.double arg)
  | .pointer, .u32, .u32 arg => some (.pointer arg)
  | .object size, .u32, .u32 arg => some (.object size arg)
  | _, _, _ => none

section Stub

variable {M : Type -> Type} [Monad M] {Result : Type}

/-- What a conversion needs of the sandbox: the pointer of the host for one of the
guest, and the bytes of an object behind it. -/
structure Access (M : Type -> Type) where
  getUnsandboxedPointer : BitVec 64 -> M (BitVec 64)
  read : BitVec 64 -> Nat -> M (List (BitVec 8))

def convertReturnValue (access : Access M) : Argument -> M Value
  | .bool arg => pure (.number .bool (if arg = 0 then 0 else 1))
  | .narrow width arg => pure (.number (.narrow width) ((arg.setWidth width).setWidth 64))
  | .wide arg => pure (.number .wide arg)
  | .float arg => pure (.number .float (arg.setWidth 64))
  | .double arg => pure (.number .double arg)
  | .pointer arg => do
      let ret <- access.getUnsandboxedPointer (arg.setWidth 64)
      pure (.pointer ret)
  | .object size arg => do
      let ret <- access.getUnsandboxedPointer (arg.setWidth 64)
      let bytes <- access.read ret size
      pure (.object bytes)

/-- Both overloads of `invokeCallbackTarget`; `none` where no overload takes the
arguments, which would not compile. -/
def invokeCallbackTarget (access : Access M) (targetFunc : List Value -> M Result) :
    List WasmType -> List CxxType -> List Value -> M (Option Result)
  | [], [], args => do
      let ret <- targetFunc args
      pure (some ret)
  | sandboxArgType :: sandboxArgTypes, argType :: argTypes, sandboxArg :: args =>
      match overload argType sandboxArgType sandboxArg with
      | some argument => do
          let convertedValue <- convertReturnValue access argument
          invokeCallbackTarget access targetFunc sandboxArgTypes argTypes
            (args ++ [convertedValue])
      | none => pure none
  | _, _, _ => pure none

/-- `registerCallbackMap` and `callbackStateMap`.  A missing entry is null. -/
structure Callbacks (M : Type -> Type) (Result : Type) where
  registerCallbackMap : BitVec 32 -> Option (List Value -> M Result)
  callbackStateMap : BitVec 32 -> Option (BitVec 64)

/-- `callbackStubImpl` for the declared types, up to what it does with the result;
`none` also where there is no function to call. -/
def callbackStubImpl (access : Access M) (callbacks : Callbacks M Result) (callbackSlot : BitVec 32)
    (types : List CxxType) (args : List Value) : M (Option Result) :=
  match callbacks.registerCallbackMap callbackSlot with
  | none => pure none
  | some convFuncPtr =>
      let state := (callbacks.callbackStateMap callbackSlot).getD 0
      invokeCallbackTarget access convFuncPtr (types.map wasmReturnType) types
        (args ++ [.state state])

theorem overload_argument (argument : Argument) :
    overload argument.type (wasmReturnType argument.type) argument.value = some argument := by
  cases argument <;> rfl

/-- What is behind the arguments comes before the converted ones, whose order is kept. -/
theorem invokeCallbackTarget_eq [LawfulMonad M] (access : Access M)
    (targetFunc : List Value -> M Result) (arguments : List Argument) (behind : List Value) :
    invokeCallbackTarget access targetFunc ((arguments.map Argument.type).map wasmReturnType)
        (arguments.map Argument.type) (arguments.map Argument.value ++ behind) = (do
      let converted <- arguments.mapM (convertReturnValue access)
      let ret <- targetFunc (behind ++ converted)
      pure (some ret)) := by
  induction arguments generalizing behind with
  | nil =>
      rw [List.mapM_nil, pure_bind, List.append_nil]
      rfl
  | cons argument rest inductionHypothesis =>
      have first : invokeCallbackTarget access targetFunc
          (((argument :: rest).map Argument.type).map wasmReturnType)
          ((argument :: rest).map Argument.type)
          ((argument :: rest).map Argument.value ++ behind) = (do
        let convertedValue <- convertReturnValue access argument
        invokeCallbackTarget access targetFunc ((rest.map Argument.type).map wasmReturnType)
          (rest.map Argument.type) (rest.map Argument.value ++ behind ++ [convertedValue])) := by
        simp only [List.map_cons, List.cons_append, invokeCallbackTarget, overload_argument]
      rw [first, List.mapM_cons, bind_assoc]
      refine bind_congr fun convertedValue => ?_
      rw [List.append_assoc, inductionHypothesis, bind_assoc]
      refine bind_congr fun converted => ?_
      rw [pure_bind, List.append_assoc, List.singleton_append]

/-- The function of the registration is called once, with the registration's
state and then the arguments, each converted at its own type, in their order. -/
theorem callbackStubImpl_calls [LawfulMonad M] (access : Access M) (callbacks : Callbacks M Result)
    (callbackSlot : BitVec 32) (target : List Value -> M Result) (arguments : List Argument)
    (registered : callbacks.registerCallbackMap callbackSlot = some target) :
    callbackStubImpl access callbacks callbackSlot (arguments.map Argument.type)
        (arguments.map Argument.value) = (do
      let converted <- arguments.mapM (convertReturnValue access)
      let ret <- target (.state ((callbacks.callbackStateMap callbackSlot).getD 0) :: converted)
      pure (some ret)) := by
  rw [callbackStubImpl, registered]
  exact invokeCallbackTarget_eq access target arguments [.state _]

end Stub

/-- A function that keeps the packs it is called with. -/
def recordCall (args : List Value) : StateM (List (List Value)) Nat := do
  modify fun calls => calls ++ [args]
  pure args.length

/-- A memory of zeros at `2 ^ 32`. -/
def zeroAccess : Access (StateM (List (List Value))) where
  getUnsandboxedPointer := fun arg => pure (2 ^ 32 + arg)
  read := fun _ size => pure (List.replicate size 0)

/-- Values of one, eight and four bytes, an object and a `bool`. -/
theorem callbackStubImpl_calls_mixed :
    callbackStubImpl zeroAccess ⟨fun _ => some recordCall, fun _ => some 7⟩ 3
        [.narrow 8, .wide, .pointer, .object 2, .bool]
        [.u32 0x1FF, .u64 (2 ^ 40), .u32 16, .u32 32, .u32 5] [] =
      (some 6, [[.state 7, .number (.narrow 8) 0xFF, .number .wide (2 ^ 40),
        .pointer (2 ^ 32 + 16), .object [0, 0], .number .bool 1]]) :=
  (congrFun (callbackStubImpl_calls zeroAccess ⟨fun _ => some recordCall, fun _ => some 7⟩ 3
    recordCall [.narrow 8 0x1FF, .wide (2 ^ 40), .pointer 16, .object 2 32, .bool 5] rfl)
    []).trans rfl

end CallbackArguments

end Host
end WasmSandboxing
