import WasmSandboxing.Interp.MemoryGrow

namespace WasmSandboxing
namespace Interp

open Foundation Wasm

/-!
# Calls of host functions

`InterpCallHost` and `CallIndirect` both drop the result of `CallHost`, so that
a call that has failed is followed by the next instruction.
-/

/-- A call of a host function that is about to be made, with the thread on whose
stack the arguments lie. -/
structure HostCall (Host : Type) where
  sigIndex : Nat
  callback : HostFuncCallback Host
  before : Thread Host

namespace Thread

variable {Host : Type} {options : Options} {numerics : Numerics} {env : Environment Host}
  {thread next : Thread Host}

/-- The call that the next instruction makes, if it is one of a host function. -/
def hostCall (env : Environment Host) (thread : Thread Host) : Option (HostCall Host) :=
  match env.decode thread.pc with
  | some (.interpCallHost funcIndex, pc) =>
      match env.funcs[funcIndex.toNat]? with
      | some (.host sigIndex callback) => some ⟨sigIndex, callback, { thread with pc }⟩
      | _ => none
  | some (.callIndirect tableIndex sigIndex, pc) =>
      match ({ thread with pc } : Thread Host).indirectCallee env tableIndex sigIndex with
      | .ok (.host sigIndex callback, before) => some ⟨sigIndex, callback, before⟩
      | _ => none
  | _ => none

theorem interpCallHost_eq {funcIndex : BitVec 32} {sigIndex : Nat}
    {callback : HostFuncCallback Host}
    (found : env.funcs[funcIndex.toNat]? = some (.host sigIndex callback)) :
    thread.interpCallHost options env funcIndex =
      (thread.callHost options env sigIndex callback).map Prod.snd := by
  unfold interpCallHost
  rw [found]
  change (callHost options env thread sigIndex callback).bind _ = _
  cases callHost options env thread sigIndex callback <;> rfl

theorem callIndirect_eq {tableIndex sig : BitVec 32} {sigIndex : Nat}
    {callback : HostFuncCallback Host} {before : Thread Host}
    (found : thread.indirectCallee env tableIndex sig = .ok (.host sigIndex callback, before)) :
    thread.callIndirect options env tableIndex sig =
      (before.callHost options env sigIndex callback).map Prod.snd := by
  unfold callIndirect
  rw [found]
  change (callHost options env before sigIndex callback).bind _ = _
  cases callHost options env before sigIndex callback <;> rfl

/-- Both routes go on whatever `CallHost` returns. -/
theorem step_hostCall {call : HostCall Host} (calls : thread.hostCall env = some call) :
    thread.step options numerics env =
      (call.before.callHost options env call.sigIndex call.callback).map Prod.snd := by
  unfold hostCall at calls
  unfold step
  split at calls
  · rename_i funcIndex pc decoded
    rw [decoded]
    split at calls
    · rename_i sigIndex callback found
      cases calls
      exact interpCallHost_eq found
    · cases calls
  · rename_i tableIndex sigIndex pc decoded
    rw [decoded]
    split at calls
    · rename_i sigIndex callback before found
      cases calls
      exact callIndirect_eq found
    · cases calls
  · cases calls

end Thread

namespace HostCall

variable {Host : Type}

/-- The arguments that the callback gets. -/
def args (call : HostCall Host) (sig : FuncSignature) : List TypedValue :=
  (sig.paramTypes.zip (call.before.valueStack.take sig.paramTypes.length).reverse).map
    fun (type, value) => ⟨type, value⟩

/-- What the callback returns for them. -/
def answer (call : HostCall Host) (sig : FuncSignature) : Result × List TypedValue × Host :=
  call.callback call.before.host (call.args sig)

/-- The results are of the types of the signature. -/
def Matches (sig : FuncSignature) (results : List TypedValue) : Prop :=
  (results.take sig.resultTypes.length).map TypedValue.type = sig.resultTypes

/-- The thread with the results in the place of the arguments. -/
def returned (call : HostCall Host) (sig : FuncSignature) : Thread Host :=
  { call.before with
    host := (call.answer sig).2.2
    valueStack :=
      ((call.answer sig).2.1.take sig.resultTypes.length).reverse.map TypedValue.value ++
        call.before.valueStack.drop sig.paramTypes.length }

/-- The height of the stack behind the call. -/
def height (call : HostCall Host) (sig : FuncSignature) : Nat :=
  call.before.valueStack.length - sig.paramTypes.length + sig.resultTypes.length

/-- The arguments are there, the callback succeeds with results of the right
types, and there is room for them. -/
structure Fine (options : Options) (sig : FuncSignature) (call : HostCall Host) : Prop where
  arguments : sig.paramTypes.length ≤ call.before.valueStack.length
  succeeds : (call.answer sig).1 = .ok
  types : Matches sig (call.answer sig).2.1
  room : call.height sig ≤ options.valueStackSize

/-- The trap for a call that has failed. -/
def Traps (options : Options) (sig : FuncSignature) (call : HostCall Host) : Result -> Prop
  | .trapHostTrapped => (call.answer sig).1 ≠ .ok
  | .trapHostResultTypeMismatch => (call.answer sig).1 = .ok ∧ ¬ Matches sig (call.answer sig).2.1
  | .trapValueStackExhausted =>
      (call.answer sig).1 = .ok ∧ options.valueStackSize < call.height sig
  | _ => False

end HostCall

namespace Thread

variable {Host : Type} {options : Options} {numerics : Numerics} {env : Environment Host}
  {thread next : Thread Host}

/-- Results of the right types are pushed as far as there is room. -/
theorem pushResults_matches {types : List ValueType} {results : List TypedValue}
    (same : (results.take types.length).map TypedValue.type = types)
    (room : thread.valueStack.length + types.length ≤ options.valueStackSize) :
    thread.pushResults options types results =
      (.ok, { thread with
        valueStack := (results.take types.length).reverse.map TypedValue.value ++
          thread.valueStack }) := by
  induction types generalizing thread results with
  | nil => rfl
  | cons type types inductionHypothesis =>
      cases results with
      | nil => cases same
      | cons result results =>
          rw [List.length_cons] at room
          rcases List.cons.inj same with ⟨here, rest⟩
          have pushed : thread.push options result.value =
              .ok { thread with valueStack := result.value :: thread.valueStack } :=
            push_ok.mpr ⟨by omega, rfl⟩
          rw [pushResults, if_neg (not_not_intro here), pushed]
          simp only
          rw [inductionHypothesis rest (by rw [List.length_cons]; omega)]
          simp

theorem callHost_eq {call : HostCall Host} {sig : FuncSignature}
    (found : env.sigs[call.sigIndex]? = some sig) :
    call.before.callHost options env call.sigIndex call.callback =
      if call.before.valueStack.length < sig.paramTypes.length then .error .undefined
      else if (call.answer sig).1 ≠ .ok then
        .ok (.trapHostTrapped, { call.before with
          host := (call.answer sig).2.2
          valueStack := call.before.valueStack.drop sig.paramTypes.length })
      else
        .ok (pushResults options sig.resultTypes (call.answer sig).2.1 { call.before with
          host := (call.answer sig).2.2
          valueStack := call.before.valueStack.drop sig.paramTypes.length }) := by
  rw [callHost, found]
  rfl

theorem step_hostCall_fine {call : HostCall Host} {sig : FuncSignature}
    (calls : thread.hostCall env = some call) (found : env.sigs[call.sigIndex]? = some sig)
    (fine : call.Fine options sig) :
    thread.step options numerics env = .ok (call.returned sig) := by
  have room := fine.room
  have arguments := fine.arguments
  unfold HostCall.height at room
  rw [step_hostCall calls, callHost_eq found, if_neg (by omega), if_neg (not_not_intro fine.succeeds),
    pushResults_matches fine.types (by rw [List.length_drop]; exact room)]
  rfl

/-- A call that succeeds although it should not has lost a value. -/
theorem step_hostCall_returned {call : HostCall Host} {sig : FuncSignature}
    (calls : thread.hostCall env = some call) (found : env.sigs[call.sigIndex]? = some sig)
    (bounded : call.before.valueStack.length ≤ options.valueStackSize)
    (succeeds : (call.answer sig).1 = .ok) (types : HostCall.Matches sig (call.answer sig).2.1)
    (stepped : thread.step options numerics env = .ok (call.returned sig)) :
    call.Fine options sig := by
  rw [step_hostCall calls, callHost_eq found] at stepped
  split at stepped
  · cases stepped
  · rename_i arguments
    rw [if_neg (not_not_intro succeeds)] at stepped
    refine ⟨Nat.not_lt.mp arguments, succeeds, types, ?_⟩
    have dropped : ({ call.before with
        host := (call.answer sig).2.2
        valueStack := call.before.valueStack.drop sig.paramTypes.length } :
          Thread Host).valueStack.length ≤ options.valueStackSize := by
      simp only [List.length_drop]
      omega
    have kept := (@pushResults_keeps _ options _ sig.resultTypes
      (call.answer sig).2.1).bounded dropped
    have same : (pushResults options sig.resultTypes (call.answer sig).2.1 { call.before with
        host := (call.answer sig).2.2
        valueStack := call.before.valueStack.drop sig.paramTypes.length }).2 =
          call.returned sig := Except.ok.inj stepped
    have length := congrArg List.length types
    rw [same] at kept
    simp only [HostCall.returned, List.length_append, List.length_map, List.length_reverse,
      List.length_drop] at kept length
    unfold HostCall.height
    omega

theorem hostCall_bounded {call : HostCall Host} (calls : thread.hostCall env = some call)
    (bounded : thread.valueStack.length ≤ options.valueStackSize) :
    call.before.valueStack.length ≤ options.valueStackSize := by
  unfold hostCall at calls
  split at calls
  · split at calls
    · cases calls
      exact bounded
    · cases calls
  · split at calls
    · rename_i found
      cases calls
      exact (indirectCallee_keeps found).bounded bounded
    · cases calls
  · cases calls

/-- No call of a host function ends the thread with a trap. -/
theorem step_hostCall_goesOn {call : HostCall Host} {result : Result}
    (calls : thread.hostCall env = some call) :
    thread.step options numerics env ≠ .error (.result result) := by
  rw [step_hostCall calls]
  cases found : env.sigs[call.sigIndex]? with
  | none =>
      rw [callHost, found]
      intro impossible
      cases impossible
  | some sig =>
      rw [callHost_eq found]
      split
      · intro impossible
        cases impossible
      · split
        · intro impossible
          cases impossible
        · intro impossible
          cases impossible

end Thread

/-! ## Runs -/

namespace Executor

variable {Host : Type} (options : Options) (numerics : Numerics) (env : Environment Host)

/-- A call of a host function puts the results in the place of the arguments, or
it ends the run of the function with its trap. -/
def HostCallRight (executor : Executor Host) (call : HostCall Host) : Prop :=
  ∃ sig, env.sigs[call.sigIndex]? = some sig ∧
    ((call.answer sig).1 = .ok ∧ HostCall.Matches sig (call.answer sig).2.1 ∧
        executor.step options numerics env .step =
          some { executor with thread := call.returned sig } ∧
        (call.returned sig).valueStack.length = call.height sig ∨
      ∃ trap, call.Traps options sig trap ∧
        executor.step options numerics env .step =
          some { thread := executor.thread.reset, running := none, last := some ⟨trap, []⟩ })

/-- Whatever host function the running thread is about to call, the call is
right. -/
def HostCallsRight (executor : Executor Host) : Prop :=
  executor.running ≠ none -> forall call, executor.thread.hostCall env = some call ->
    HostCallRight options numerics env executor call

/-- Whatever host function the running thread is about to call, the call does not
fail. -/
def HostCallsFine (executor : Executor Host) : Prop :=
  executor.running ≠ none -> forall call, executor.thread.hostCall env = some call ->
    ∃ sig, env.sigs[call.sigIndex]? = some sig ∧ call.Fine options sig

theorem step_running {executor : Executor Host} (running : executor.running ≠ none)
    {thread : Thread Host} (stepped : executor.thread.step options numerics env = .ok thread) :
    executor.step options numerics env .step = some { executor with thread } := by
  rcases executor with ⟨before, status, last⟩
  cases status with
  | none => exact absurd rfl running
  | some sig =>
      simp only at stepped
      simp only [step, stepped]

/-- A step that calls a host function goes on. -/
theorem step_hostCall {executor next : Executor Host} {call : HostCall Host}
    (calls : executor.thread.hostCall env = some call)
    (stepped : executor.step options numerics env .step = some next) :
    ∃ thread, executor.thread.step options numerics env = .ok thread ∧
      next = { executor with thread } := by
  rcases executor with ⟨before, status, last⟩
  cases status with
  | none => cases stepped
  | some sig =>
      simp only at calls
      cases made : before.step options numerics env with
      | ok thread =>
          simp only [step, made] at stepped
          exact ⟨thread, rfl, (Option.some.inj stepped).symm⟩
      | error outcome =>
          cases outcome with
          | result result => exact absurd made (Thread.step_hostCall_goesOn calls)
          | undefined =>
              simp only [step, made] at stepped
              cases stepped

theorem hostCallsRight_iff {executor : Executor Host} (sound : executor.thread.Sound options) :
    HostCallsRight options numerics env executor ↔ HostCallsFine options env executor := by
  apply imp_congr_right
  intro running
  apply forall_congr'
  intro call
  apply imp_congr_right
  intro calls
  have bounded := Thread.hostCall_bounded calls sound.bounded
  constructor
  · rintro ⟨sig, found, ⟨succeeds, types, stepped, _⟩ | ⟨trap, _, stepped⟩⟩
    · rcases step_hostCall options numerics env calls stepped with ⟨next, made, same⟩
      have thread : call.returned sig = next := congrArg Executor.thread same
      rw [← thread] at made
      exact ⟨sig, found, Thread.step_hostCall_returned calls found bounded succeeds types made⟩
    · rcases step_hostCall options numerics env calls stepped with ⟨next, _, same⟩
      exact absurd (congrArg Executor.running same).symm running
  · rintro ⟨sig, found, fine⟩
    refine ⟨sig, found, .inl ⟨fine.succeeds, fine.types,
      step_running options numerics env running (Thread.step_hostCall_fine calls found fine), ?_⟩⟩
    have length := congrArg List.length fine.types
    simp only [List.length_map] at length
    simp only [HostCall.returned, HostCall.height, List.length_append, List.length_map,
      List.length_reverse, List.length_drop, length]
    omega

/-- In a run every call of a host function is right exactly if none fails. -/
theorem host_calls_right_iff (executor : Executor Host) (loaded : executor.Loaded)
    (events : List ExecutorEvent) :
    (system options numerics env).Always (HostCallsRight options numerics env) executor events ↔
      (system options numerics env).Always (HostCallsFine options env) executor events :=
  System.always_congr
    (fun _ _ _ sound stepped => step_sound options numerics env sound stepped)
    (fun _ sound => hostCallsRight_iff options numerics env sound)
    (loaded.sound options)

end Executor

/-! ## A failing callback -/

/-- A function that calls a host function with its argument and adds one to the
result. -/
def Environment.calling (callback : HostFuncCallback Unit) : Environment Unit where
  istream :=
    [.opcode .interpCallHost, .u32 1, .opcode .i32Const, .u32 1, .opcode (.binary .i32Add),
      .opcode .ret]
  sigs := [⟨[.i32], [.i32]⟩]
  funcs := [.defined 0 0, .host 0 callback]
  tables := []

namespace Executor

/-- An executor without a memory. -/
def noMemory : Executor Unit where
  thread := ⟨(), [], [], [], [], 0⟩
  running := none
  last := none

theorem noMemory_loaded : noMemory.Loaded where
  memories _ member := by cases member
  idle := rfl
  valueStack := rfl
  callStack := rfl

theorem host_calls_right_iff_echo :
    (system ⟨8, 8⟩ .unreached (.calling fun host args => (.ok, args, host))).Always
        (HostCallsRight ⟨8, 8⟩ .unreached (.calling fun host args => (.ok, args, host))) noMemory
        [.runFunction 0 [⟨.i32, 7⟩], .step] ↔
      (system ⟨8, 8⟩ .unreached (.calling fun host args => (.ok, args, host))).Always
        (HostCallsFine ⟨8, 8⟩ (.calling fun host args => (.ok, args, host))) noMemory
        [.runFunction 0 [⟨.i32, 7⟩], .step] :=
  host_calls_right_iff ⟨8, 8⟩ .unreached (.calling fun host args => (.ok, args, host)) noMemory
    noMemory_loaded [.runFunction 0 [⟨.i32, 7⟩], .step]

/-- A callback that traps is followed by the next instruction. -/
theorem failed_call_goes_on :
    ¬ (system ⟨8, 8⟩ .unreached (.calling fun host _ => (.trapUnreachable, [], host))).Always
      (HostCallsRight ⟨8, 8⟩ .unreached (.calling fun host _ => (.trapUnreachable, [], host)))
      noMemory [.runFunction 0 [⟨.i32, 7⟩]] := by
  rintro ⟨_, always⟩
  rcases always _ rfl nofun _ rfl with ⟨sig, found, ⟨succeeds, _⟩ | ⟨trap, _, stepped⟩⟩
  · cases succeeds
  · cases stepped

end Executor

end Interp
end WasmSandboxing
