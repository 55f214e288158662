import WasmSandboxing.Foundation.Transition
import WasmSandboxing.Interp.Thread

namespace WasmSandboxing
namespace Interp

open Foundation Wasm

/-!
# The executor

`Executor::RunFunction`: push the arguments, run until the thread returns or
traps, copy the results and reset the thread.  What a thread does to memories
and globals stays for the next call.
-/

/-- `ExecResult`. -/
structure ExecResult where
  result : Result
  values : List TypedValue
  deriving DecidableEq, Repr

/-- The thread, the signature of the function that is running, and what the last
call has returned. -/
structure Executor (Host : Type) where
  thread : Thread Host
  running : Option FuncSignature
  last : Option ExecResult

inductive ExecutorEvent where
  | runFunction (funcIndex : Nat) (args : List TypedValue)
  | step
  deriving DecidableEq, Repr

namespace Thread

variable {Host : Type}

/-- `Reset`. -/
def reset (thread : Thread Host) : Thread Host :=
  { thread with pc := 0, valueStack := [], callStack := [] }

/-- `PushArgs` after its check of the number of arguments. -/
def pushArgs (options : Options) :
    List ValueType -> List TypedValue -> Thread Host -> Result × Thread Host
  | type :: types, arg :: args, thread =>
      if type ≠ arg.type then (.argumentTypeMismatch, thread)
      else
        match thread.push options arg.value with
        | .ok pushed => pushArgs options types args pushed
        | .error _ => (.trapValueStackExhausted, thread)
  | _, _, thread => (.ok, thread)

/-- `CopyResults`, from the bottom of the stack. -/
def copyResults (sig : FuncSignature) (thread : Thread Host) : List TypedValue :=
  (sig.resultTypes.zip thread.valueStack.reverse).map fun (type, value) => ⟨type, value⟩

end Thread

namespace Executor

variable {Host : Type} (options : Options) (numerics : Numerics) (env : Environment Host)

/-- How `RunFunction` ends. -/
def finish (sig : FuncSignature) (result : Result) (thread : Thread Host) : Executor Host :=
  { thread := thread.reset
    running := none
    last := some ⟨result, if result = .ok then thread.copyResults sig else []⟩ }

def runFunction (executor : Executor Host) (funcIndex : Nat) (args : List TypedValue) :
    Option (Executor Host) := do
  let func <- env.funcs[funcIndex]?
  let sig <- env.sigs[func.sigIndex]?
  if sig.paramTypes.length ≠ args.length then
    some (finish sig .argumentTypeMismatch executor.thread)
  else
    let (pushed, thread) := executor.thread.pushArgs options sig.paramTypes args
    if pushed ≠ .ok then some (finish sig pushed thread)
    else
      match func with
      | .host sigIndex callback =>
          match thread.callHost options env sigIndex callback with
          | .ok (result, thread) => some (finish sig result thread)
          | .error _ => none
      | .defined _ offset =>
          some { executor with thread := { thread with pc := offset }, running := some sig }

/-- `RunDefinedFunction`; a thread that has returned has ended well. -/
def step (executor : Executor Host) : ExecutorEvent -> Option (Executor Host)
  | .runFunction funcIndex args =>
      match executor.running with
      | none => executor.runFunction options env funcIndex args
      | some _ => none
  | .step =>
      match executor.running with
      | none => none
      | some sig =>
          match executor.thread.step options numerics env with
          | .ok thread => some { executor with thread }
          | .error (.result result) =>
              some (finish sig (if result = .returned then .ok else result) executor.thread)
          | .error .undefined => none

def system : System (Executor Host) ExecutorEvent := ⟨step options numerics env⟩

end Executor

end Interp
end WasmSandboxing
