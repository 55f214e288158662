import WasmSandboxing.CLang.Goto
import WasmSandboxing.CWriter.Function
import WasmSandboxing.CWriter.IntOperators
import WasmSandboxing.Wasm.Semantics

namespace WasmSandboxing
namespace CWriter

open Foundation CLang WasmRt Wasm Semantics

/-!
# Executing a generated function

The meaning of the statements of a generated function in C.  Its stack
variables start without a value.  The locals and the globals always have one,
and the instance and the functions that are called are those of the body.
-/

variable {scope : FuncScope} {Rest : Type}

/-- What the C writer looks up for a body. -/
def lookups (scope : FuncScope) : Context :=
  ⟨scope.localType, scope.globalType, scope.funcSignature, scope.typeSignature⟩

/-! ## Values -/

/-- A value in a variable of its type. -/
def cValue : Value -> CValue
  | .i32 bits => .u32 bits
  | .i64 bits => .u64 bits
  | .f32 bits => .f32 bits
  | .f64 bits => .f64 bits

/-- The value in a variable; none is declared with a signed type. -/
def wasmValue : CValue -> Value
  | .s32 bits | .u32 bits => .i32 bits
  | .s64 bits | .u64 bits => .i64 bits
  | .f32 bits => .f32 bits
  | .f64 bits => .f64 bits

@[simp] theorem wasmValue_cValue (value : Value) : wasmValue (cValue value) = value := by
  cases value <;> rfl

@[simp] theorem type_cValue (value : Value) : (cValue value).type = cType value.type := by
  cases value <;> rfl

theorem cValue_ofRaw (type : ValueType) (raw : Interp.Value) :
    cValue (.ofRaw type raw) = valueOf type raw := by
  cases type <;> rfl

theorem valueOf_raw (value : Value) : valueOf value.type value.raw = cValue value := by
  rw [← cValue_ofRaw, Value.ofRaw_raw]

theorem convert_cValue (fpu : FloatUnit) (value : Value) :
    (cValue value).convert fpu (cType value.type) = some (cValue value) := by
  rw [← type_cValue, CValue.convert_type]

/-! ## States -/

/-- The variables of a generated function and the instance. -/
structure CState (scope : FuncScope) (Rest : Type) where
  stack : Nat -> ValueType -> Option CValue
  locals : Variables scope.localType
  world : World scope.globalType Rest

/-- The types that the variables are declared with. -/
def declared (scope : FuncScope) : CVar Scheme.applied -> CType :=
  CVar.type (fun var => (scope.localType var).getD .i32)
    (fun var => (scope.globalType var).getD .i32)

namespace CState

variable (state : CState scope Rest)

def valuation : CVar Scheme.applied -> Option CValue
  | .stack index type => state.stack index type
  | .local var => (state.locals.value var).map cValue
  | .global var => (state.world.globals.value var).map cValue

def assign (target : CVar Scheme.applied) (value : CValue) : CState scope Rest :=
  match target with
  | .stack index type =>
      { state with stack := fun other otherType =>
          if other = index ∧ otherType = type then some value else state.stack other otherType }
  | .local var => { state with locals := state.locals.set var (wasmValue value) }
  | .global var => { state with world := state.world.setGlobal var (wasmValue value) }

/-- Go on behind the evaluation of an assignment. -/
def assigned : Except (Stop Trap) (CVar Scheme.applied × CValue) ->
    Effect (CState scope Rest) (Stop Trap)
  | .ok (target, value) => .next (state.assign target value)
  | .error reason => .stop reason

/-- The reason why the code of the runtime has stopped. -/
def faultStop : Fault -> Stop Trap
  | .trap code => .trap code
  | .abort | .undefined => .undefined

/-- Go on behind a load, whose result has a variable, or a store. -/
def accessed (target : Option (CVar Scheme.applied))
    (run : Execution WasmRt.Memory Access Fault (Option CValue)) :
    Effect (CState scope Rest) (Stop Trap) :=
  match run.outcome with
  | .fault reason => .stop (faultStop reason)
  | .value result =>
      let state := { state with world := { state.world with memory := run.state } }
      match target, result with
      | some target, some value => .next (state.assign target value)
      | _, _ => .next state

/-- Go on behind a call, whose result is assigned. -/
def replied {result : Option ValueType} (target : Option (CVar Scheme.applied)) :
    Reply (World scope.globalType Rest) result -> Effect (CState scope Rest) (Stop Trap)
  | .returned world results =>
      let state := { state with world := world }
      match target, results.val with
      | some target, value :: _ => .next (state.assign target (cValue value))
      | _, _ => .next state
  | .stopped reason => .stop reason
  | .diverges => .hang

end CState

/-! ## Statements -/

variable (fpu : FloatUnit) (callees : Callees scope.globalType Rest)

/-- The values of the arguments of a call. -/
def argumentValues (state : CState scope Rest) (arguments : List (CVar Scheme.applied)) :
    Option (List Value) :=
  arguments.mapM fun argument => (state.valuation argument).map wasmValue

def runCommand (command : Command Scheme.applied) (state : CState scope Rest) :
    Effect (CState scope Rest) (Stop Trap) :=
  match command with
  | .scope _ => .next state
  | .assign _ _ | .compound _ _ _ =>
      state.assigned (runAssignment fpu (declared scope) state.valuation command)
  | .load target _ _ =>
      state.accessed (some target)
        (runAccess fpu (declared scope) state.valuation command state.world.memory)
  | .store _ _ _ =>
      state.accessed none
        (runAccess fpu (declared scope) state.valuation command state.world.memory)
  | .call target callee arguments =>
      match scope.funcSignature callee, argumentValues state arguments with
      | some signature, some values =>
          state.replied target (callees.call callee signature values state.world)
      | _, _ => .stop .undefined
  | .callIndirect target typeIndex callee arguments =>
      match scope.typeSignature typeIndex, state.valuation callee,
          argumentValues state arguments with
      | some signature, some (.u32 number), some values =>
          state.replied target
            (callees.callIndirect typeIndex signature number values state.world)
      | _, _, _ => .stop .undefined
  | .memoryPages target => .next (state.assign target (.u32 state.world.memory.pages))
  | .growMemory target argument =>
      match state.valuation argument with
      | some (.u32 pages) => state.replied (some target) (callees.growMemory pages state.world)
      | _ => .stop .undefined
  | .evaluate value =>
      match value.eval fpu (declared scope) state.valuation with
      | .ok _ => .next state
      | .error reason => .stop reason

/-- The meaning of the commands and tests of a generated function. -/
def meaning : Meaning (Command Scheme.applied) (CExpr Scheme.applied) (CState scope Rest)
    (Stop Trap) where
  run := runCommand fpu callees
  condition test state := (test.eval fpu (declared scope) state.valuation).map CValue.truth
  scrutinee test state :=
    match test.eval fpu (declared scope) state.valuation with
    | .ok (.u32 bits) => .ok bits.toNat
    | .ok _ => .error .undefined
    | .error reason => .error reason

/-- The machine of a generated function. -/
abbrev execution (program : Statements Scheme.applied) :
    Machine (Statements Scheme.applied × CState scope Rest)
      (Finish (CState scope Rest) (Stop Trap)) :=
  machine (meaning fpu callees) program

/-- The state in which a generated function starts. -/
def CState.entry (locals : Variables scope.localType) (world : World scope.globalType Rest) :
    CState scope Rest :=
  ⟨fun _ _ => none, locals, world⟩

/-! ## Functions in C -/

/-- The reply to a call in C, where a reply is expected. -/
def Refines {World : Type} {result : Option ValueType} (actual expected : Reply World result) :
    Prop :=
  expected = .stopped .undefined ∨ actual = expected

/-- The functions that a generated function calls do what the callees of its
body do, if anything is said of these. -/
structure FunctionsRefine {types : Nat -> Option ValueType}
    (functions callees : Callees types Rest) : Prop where
  call : forall callee signature arguments world,
    Refines (functions.call callee signature arguments world)
      (callees.call callee signature arguments world)
  callIndirect : forall typeIndex signature callee arguments world,
    Refines (functions.callIndirect typeIndex signature callee arguments world)
      (callees.callIndirect typeIndex signature callee arguments world)
  growMemory : forall pages world,
    Refines (functions.growMemory pages world) (callees.growMemory pages world)

theorem FunctionsRefine.refl {types : Nat -> Option ValueType} (callees : Callees types Rest) :
    FunctionsRefine callees callees :=
  ⟨fun _ _ _ _ => .inr rfl, fun _ _ _ _ _ => .inr rfl, fun _ _ => .inr rfl⟩

/-! ## The operand stack in variables -/

/-- The stack variables hold these operands, the top of them first. -/
def Holds (stack : Nat -> ValueType -> Option CValue) : List Value -> Prop
  | [] => True
  | value :: below => stack below.length value.type = some (cValue value) ∧ Holds stack below

namespace Holds

variable {stack : Nat -> ValueType -> Option CValue} {values : List Value}

theorem drop {above below : List Value} (holds : Holds stack (above ++ below)) :
    Holds stack below := by
  induction above with
  | nil => exact holds
  | cons _ _ inductionHypothesis => exact inductionHypothesis holds.2

theorem of_suffix {below : List Value} (holds : Holds stack values) (suffix : below <:+ values) :
    Holds stack below := by
  rcases suffix with ⟨above, rfl⟩
  exact holds.drop

end Holds

namespace CState

variable {state : CState scope Rest} {values : List Value}

/-- A variable above the operands is none of theirs. -/
theorem holds_assign (holds : Holds state.stack values) {index : Nat} (type : ValueType)
    (value : CValue) (above : values.length ≤ index) :
    Holds (state.assign (.stack index type) value).stack values := by
  induction values with
  | nil => trivial
  | cons first below inductionHypothesis =>
      have less : below.length < index := above
      refine ⟨?_, inductionHypothesis holds.2 (Nat.le_of_lt less)⟩
      rw [← holds.1]
      exact if_neg fun same => by omega

/-- The variable above the operands gets a new one. -/
theorem holds_push (holds : Holds state.stack values) {type : ValueType} {value : Value}
    (typed : value.type = type) :
    Holds (state.assign (.stack values.length type) (cValue value)).stack (value :: values) :=
  ⟨if_pos ⟨rfl, typed⟩, holds_assign holds _ _ (Nat.le_refl _)⟩

end CState

end CWriter
end WasmSandboxing
