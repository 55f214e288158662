import WasmSandboxing.CWriter.Preservation
import WasmSandboxing.Wasm.Invocation

namespace WasmSandboxing
namespace CWriter

open Foundation CLang WasmRt Wasm Semantics

/-!
# Invoking generated functions

The functions that are generated for a module call each other as the functions
of the module do, to the depth that the prologue of a function checks.  So the
generated functions do what the functions of the module do, and that all of
them return is not assumed.
-/

variable {Rest : Type}

section Replies

variable {scope : FuncScope} (returned : Option (CVar Scheme.applied))
  (result : Option ValueType)

/-- The value that a function returns behind its statements, if it is one of
its type. -/
def finishReply :
    Finish (CState scope Rest) (Stop Trap) -> Reply (World scope.globalType Rest) result
  | .fell state =>
      let values := returned.toList.filterMap fun var => (state.valuation var).map wasmValue
      if typed : values.map Value.type = result.toList then .returned state.world ⟨values, typed⟩
      else .stopped .undefined
  | .stopped reason => .stopped reason
  | .stuck => .stopped .undefined

open Classical in
/-- How a function answers that is executed from a point on. -/
noncomputable def machineReply
    (machine : Machine (Point scope Rest) (Finish (CState scope Rest) (Stop Trap)))
    (start : Point scope Rest) : Reply (World scope.globalType Rest) result :=
  if ends : ∃ finish, machine.Ends start finish then finishReply returned result ends.choose
  else .diverges

variable {returned result}
  {machine : Machine (Point scope Rest) (Finish (CState scope Rest) (Stop Trap))}
  {start : Point scope Rest}

theorem machineReply_of_ends {finish : Finish (CState scope Rest) (Stop Trap)}
    (ends : machine.Ends start finish) :
    machineReply returned result machine start = finishReply returned result finish := by
  have some : ∃ finish, machine.Ends start finish := ⟨finish, ends⟩
  rw [machineReply, dif_pos some, some.choose_spec.unique ends]

/-- The value in the returned variable is that of the body. -/
theorem finishReply_fell {after : CState scope Rest} {frame : Frame scope Rest}
    (world : after.world = frame.world)
    (held : returned.toList.map after.valuation =
      frame.stack.map fun value => some (cValue value)) :
    finishReply returned result (.fell after) = (Behaviour.next frame).reply result := by
  have values : (returned.toList.filterMap fun var => (after.valuation var).map wasmValue) =
      frame.stack := by
    have same : (returned.toList.filterMap fun var => (after.valuation var).map wasmValue) =
        ((returned.toList.map after.valuation).filterMap fun held => held.map wasmValue) := by
      rw [List.filterMap_map]
      rfl
    rw [same, held, List.filterMap_map]
    simp [Function.comp_def]
  simp only [finishReply, Behaviour.reply, values, world]

/-- A function that does what its body does answers as the body. -/
theorem machineReply_refines {run : Nat -> Behaviour scope Rest}
    (preserved : forall rounds, Preserved machine returned rounds start (run rounds)) :
    Refines (machineReply returned result machine start) ((limit run).reply result) := by
  classical
  by_cases ends : ∃ rounds, run rounds ≠ .running
  · have last : limit run = run (Nat.find ends) := dif_pos ends
    have stops := Nat.find_spec ends
    have outcome := preserved (Nat.find ends)
    rw [last]
    generalize run (Nat.find ends) = behaviour at stops outcome
    cases outcome with
    | returns ends locals world held =>
        exact .inr ((machineReply_of_ends ends).trans (finishReply_fell world held))
    | trap ends => exact .inr (machineReply_of_ends ends)
    | unsaid => exact .inl rfl
    | running => exact absurd rfl stops
  · have last : limit run = .running := dif_neg ends
    have never : ¬ ∃ finish, machine.Ends start finish :=
      fun ⟨_, stops⟩ => ends (ends_of_preserved preserved stops)
    rw [last, machineReply, dif_neg never]
    exact .inr rfl

end Replies

/-! ## Modules -/

section Modules

variable {module : Module Scheme.binary}

/-- The generated functions of a module.  `FUNC_PROLOGUE` counts the calls that
have not returned, and traps when they are too many. -/
noncomputable def invokeGenerated (fpu : FloatUnit) (outside : Outside module Rest) :
    Nat -> Invoke module Rest
  | 0, _, _, _ => .stopped (.trap .exhaustion)
  | depth + 1, func, arguments, world =>
      match writeFunc (lookups (funcScope module func)) func.sig.result
          (ApplyNames.visitFunc func.exprs) with
      | none => .stopped .undefined
      | some (code, returned) =>
          @machineReply Rest (funcScope module func) returned func.sig.result
            (execution fpu (moduleCallees outside (invokeGenerated fpu outside depth)) code)
            (code, .entry (callLocals module func arguments) world)

/-- The functions of a module that it does not import. -/
def Defined (module : Module Scheme.binary) (func : Func Scheme.binary) : Prop :=
  ∃ var, module.numFuncImports ≤ var ∧ module.funcs[var]? = some func

section Calls

variable {outside : Outside module Rest} {functions callees : Invoke module Rest}

theorem callDefined_refines {func : Func Scheme.binary}
    (refines : forall arguments world,
      Refines (functions func arguments world) (callees func arguments world))
    (signature : Signature) (arguments : List Value) (world : World (globalTypes module) Rest) :
    Refines (callDefined functions func signature arguments world)
      (callDefined callees func signature arguments world) := by
  unfold callDefined
  by_cases same : func.sig = signature ∧ arguments.map Value.type = func.sig.params
  · rw [dif_pos same, dif_pos same]
    rcases same with ⟨rfl, typed⟩
    exact refines _ _
  · rw [dif_neg same, dif_neg same]
    exact .inr rfl

theorem callFunc_refines
    (refines : forall func, Defined module func -> forall arguments world,
      Refines (functions func arguments world) (callees func arguments world))
    (var : Nat) (signature : Signature) (arguments : List Value)
    (world : World (globalTypes module) Rest) :
    Refines (callFunc outside functions var signature arguments world)
      (callFunc outside callees var signature arguments world) := by
  unfold callFunc
  by_cases imported : var < module.numFuncImports
  · rw [if_pos imported, if_pos imported]
    exact .inr rfl
  · rw [if_neg imported, if_neg imported]
    cases found : module.funcs[var]? with
    | none => exact .inr rfl
    | some func =>
        exact callDefined_refines (refines func ⟨var, Nat.le_of_not_lt imported, found⟩) signature
          arguments world

theorem moduleCallees_refine
    (refines : forall func, Defined module func -> forall arguments world,
      Refines (functions func arguments world) (callees func arguments world)) :
    FunctionsRefine (moduleCallees outside functions) (moduleCallees outside callees) where
  call var signature arguments world := callFunc_refines refines var signature arguments world
  callIndirect typeIndex signature callee arguments world := by
    simp only [moduleCallees]
    cases outside.target typeIndex signature callee arguments world with
    | inl var => exact callFunc_refines refines var signature arguments world
    | inr reply => exact .inr rfl
  growMemory _ _ := .inr rfl

end Calls

/-- A module all of whose functions the validator accepts is executed in C as
WebAssembly has it, whatever is outside of the module and to whatever depth its
functions call each other. -/
theorem invokeGenerated_refines {fpu : FloatUnit} {floats : Interp.Numerics}
    (agrees : FloatsAgree fpu floats) (outside : Outside module Rest)
    (accepted : forall func, Defined module func ->
      Accepted (funcScope module func) func.sig.result func.exprs)
    (depth : Nat) (func : Func Scheme.binary) (defined : Defined module func)
    (arguments : Results func.sig.params) (world : World (globalTypes module) Rest) :
    Refines (invokeGenerated fpu outside depth func arguments world)
      (invoke (Interp.withIntegers floats) outside depth func arguments world) := by
  induction depth generalizing func world with
  | zero => exact .inr rfl
  | succ depth inductionHypothesis =>
      rcases @writeFunc_follows (funcScope module func) Rest fpu floats agrees _ _
        (accepted func defined) with ⟨code, written, _, preserved⟩
      have refines := @moduleCallees_refine Rest module outside
        (invokeGenerated fpu outside depth) (invoke (Interp.withIntegers floats) outside depth)
        (fun other isDefined arguments world =>
          inductionHypothesis other isDefined arguments world)
      rw [invokeGenerated, invoke]
      simp only [written]
      exact machineReply_refines fun rounds => preserved _ _ refines rounds _ world

end Modules

/-! ## A function that calls itself -/

/-- Count the argument down by calls, and answer seven. -/
def relay : Func Scheme.binary where
  typeVar := 0
  sig := ⟨[.i32], some .i32⟩
  localTypes := []
  exprs :=
    .instr (.getLocal 0)
      (.ite () (some .i32)
        (.instr (.getLocal 0) (.instr (.const (.i32 1)) (.instr (.binary .i32Sub)
          (.instr (.call 0) .nil))))
        (.instr (.const (.i32 7)) .nil) .nil)

def relayModule : Module Scheme.binary where
  imports := []
  funcTypes := [⟨[.i32], some .i32⟩]
  funcs := [relay]
  tables := []
  memories := []
  globals := []
  exports := []
  starts := []
  elemSegments := []
  dataSegments := []

theorem relay_defined : Defined relayModule relay := ⟨0, Nat.le_refl 0, rfl⟩

theorem relay_accepted (func : Func Scheme.binary) (defined : Defined relayModule func) :
    Accepted (funcScope relayModule func) func.sig.result func.exprs := by
  rcases defined with ⟨var, _, found⟩
  cases var with
  | zero =>
      cases found
      exact ⟨_, rfl, by decide⟩
  | succ var => cases found

/-- Nothing outside of the module answers. -/
def silence : Outside relayModule Unit where
  call _ _ _ _ := .diverges
  target _ _ _ _ _ := .inr .diverges
  growMemory _ _ := .diverges

theorem relay_globals (var : Nat) :
    (none : Option Value).map Value.type = globalTypes relayModule var := rfl

def relayWorld : World (globalTypes relayModule) Unit where
  memory := ⟨fun _ => 0, 0, 0, 0⟩
  globals := ⟨fun _ => none, relay_globals⟩
  rest := ()

/-- The operators on integers, the only ones there are. -/
def integers : Interp.Numerics := Interp.withIntegers Interp.Numerics.unreached

theorem relay_last (depth : Nat) :
    invoke integers silence (depth + 1) relay ⟨[.i32 0], rfl⟩ relayWorld =
      .returned relayWorld ⟨[.i32 7], rfl⟩ :=
  @invoke_of_run Unit relayModule integers silence depth relay ⟨[.i32 0], rfl⟩ relayWorld
    (.next ⟨[.i32 7], callLocals relayModule relay ⟨[.i32 0], rfl⟩, relayWorld⟩) rfl nofun

theorem relay_run (callees : Callees (globalTypes relayModule) Unit) :
    (execFunc integers callees 0 relay.sig.result relay.exprs
      (callLocals relayModule relay ⟨[.i32 1], rfl⟩) relayWorld :
        Behaviour (funcScope relayModule relay) Unit) =
      ((((Frame.replied ⟨[.i32 0], callLocals relayModule relay ⟨[.i32 1], rfl⟩, relayWorld⟩ []
        (callees.call 0 relay.sig [.i32 0] relayWorld)).andThen .next).leave (some .i32)
          []).andThen .next).finish (some .i32) := by
  rfl

theorem relay_first (depth : Nat) :
    invoke integers silence (depth + 2) relay ⟨[.i32 1], rfl⟩ relayWorld =
      .returned relayWorld ⟨[.i32 7], rfl⟩ := by
  have run := relay_run (moduleCallees silence (invoke integers silence (depth + 1)))
  have called : (moduleCallees silence (invoke integers silence (depth + 1))).call 0 relay.sig
      [.i32 0] relayWorld = .returned relayWorld ⟨[.i32 7], rfl⟩ := relay_last depth
  rw [called] at run
  exact invoke_of_run run nofun

theorem relay_exhausted :
    invoke integers silence 1 relay ⟨[.i32 1], rfl⟩ relayWorld = .stopped (.trap .exhaustion) := by
  have run := relay_run (moduleCallees silence (invoke integers silence 0))
  have called : (moduleCallees silence (invoke integers silence 0)).call 0 relay.sig
      [.i32 0] relayWorld = .stopped (.trap .exhaustion) := rfl
  rw [called] at run
  exact invoke_of_run run nofun

/-- Two calls answer when two are allowed, and trap when it is one. -/
theorem invokeGenerated_refines_relay :
    invokeGenerated default silence 2 relay ⟨[.i32 1], rfl⟩ relayWorld =
        .returned relayWorld ⟨[.i32 7], rfl⟩ ∧
      invokeGenerated default silence 1 relay ⟨[.i32 1], rfl⟩ relayWorld =
        .stopped (.trap .exhaustion) := by
  have refines depth := invokeGenerated_refines (unreached_agree default) silence relay_accepted
    depth relay relay_defined ⟨[.i32 1], rfl⟩ relayWorld
  constructor
  · rcases refines 2 with unsaid | same
    · exact absurd ((relay_first 0).symm.trans unsaid) nofun
    · exact same.trans (relay_first 0)
  · rcases refines 1 with unsaid | same
    · exact absurd (relay_exhausted.symm.trans unsaid) nofun
    · exact same.trans relay_exhausted

end CWriter
end WasmSandboxing
