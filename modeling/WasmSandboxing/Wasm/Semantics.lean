import WasmSandboxing.Interp.Thread
import WasmSandboxing.Wasm.Ir
import WasmSandboxing.WasmRt.Memory
import Mathlib.Logic.Function.Basic

namespace WasmSandboxing
namespace Wasm

open CLang WasmRt

/-!
# The meaning of function bodies

WebAssembly's own semantics of a function body, on the structured form: a block
has an operand stack of its own, a branch leaves blocks until it has come to
its label, and the label keeps as many operands as it has results.  The
operators on numbers are those of the interpreter.  What a callee does is left
open, and so is the rest of the instance.

A list is executed with a bound on the rounds of each loop.  An execution that
is still running whatever the bound is one that does not end.
-/

namespace Value

/-- The value in the union of the interpreter. -/
def raw : Value -> Interp.Value
  | .i32 bits | .f32 bits => .ofI32 bits
  | .i64 bits | .f64 bits => bits

def ofRaw : ValueType -> Interp.Value -> Value
  | .i32, value => .i32 value.i32
  | .i64, value => .i64 value
  | .f32, value => .f32 value.i32
  | .f64, value => .f64 value

@[simp] theorem type_ofRaw (type : ValueType) (value : Interp.Value) :
    (ofRaw type value).type = type := by
  cases type <;> rfl

@[simp] theorem ofRaw_raw (value : Value) : ofRaw value.type value.raw = value := by
  cases value <;> simp [ofRaw, raw, Value.type, Interp.Value.i32, Interp.Value.ofI32]

end Value

namespace Semantics

/-- What the indices of a body stand for. -/
structure FuncScope where
  localType : Nat -> Option ValueType
  globalType : Nat -> Option ValueType
  funcSignature : Nat -> Option Signature
  typeSignature : Nat -> Option Signature

/-- A value of its type for each of the declared variables. -/
structure Variables (types : Nat -> Option ValueType) where
  value : Nat -> Option Value
  typed : forall var, (value var).map Value.type = types var

namespace Variables

variable {types : Nat -> Option ValueType}

/-- Give a variable a value; one of another type is not a value for it. -/
def set (values : Variables types) (var : Nat) (value : Value) : Variables types :=
  if fits : types var = some value.type then
    { value := Function.update values.value var (some value)
      typed := fun other => by
        by_cases same : other = var
        · subst same
          rw [Function.update_self]
          exact fits.symm
        · rw [Function.update_of_ne same]
          exact values.typed other }
  else values

theorem value_of_declared (values : Variables types) {var : Nat} {type : ValueType}
    (declared : types var = some type) :
    ∃ value, values.value var = some value ∧ value.type = type := by
  have typed := values.typed var
  rw [declared] at typed
  exact Option.map_eq_some_iff.mp typed

end Variables

/-- The instance that a body works on. -/
structure World (types : Nat -> Option ValueType) (Rest : Type) where
  memory : WasmRt.Memory
  globals : Variables types
  rest : Rest

def World.setGlobal {types : Nat -> Option ValueType} {Rest : Type} (world : World types Rest)
    (var : Nat) (value : Value) : World types Rest :=
  { world with globals := world.globals.set var value }

/-- Values of the given types. -/
abbrev Results (types : List ValueType) :=
  { values : List Value // values.map Value.type = types }

/-- How a call ends, if it does. -/
inductive Reply (World : Type) (result : Option ValueType) where
  | returned (world : World) (results : Results result.toList)
  | stopped (reason : Stop Trap)
  | diverges

/-- The functions outside of the body. -/
structure Callees (types : Nat -> Option ValueType) (Rest : Type) where
  call : Nat -> (signature : Signature) -> List Value -> World types Rest ->
    Reply (World types Rest) signature.result
  callIndirect : Nat -> (signature : Signature) -> BitVec 32 -> List Value -> World types Rest ->
    Reply (World types Rest) signature.result
  growMemory : BitVec 32 -> World types Rest -> Reply (World types Rest) (some .i32)

/-! ## Operators -/

/-- The traps of operators. -/
def operatorTrap : Interp.Result -> Stop Trap
  | .trapIntegerDivideByZero => .trap .divByZero
  | .trapIntegerOverflow => .trap .intOverflow
  | .trapInvalidConversionToInteger => .trap .invalidConversion
  | _ => .undefined

/-- The result of an operator with results of a type. -/
def operatorResult (type : ValueType) :
    Except Interp.Result Interp.Value -> Except (Stop Trap) Value
  | .ok value => .ok (.ofRaw type value)
  | .error result => .error (operatorTrap result)

/-- Where the C writer's address is not the sum of base and offset. -/
def Wraps (offset base : BitVec 32) : Prop :=
  offset.toNat < 2 ^ 31 ∧ 2 ^ 32 ≤ base.toNat + offset.toNat

instance (offset base : BitVec 32) : Decidable (Wraps offset base) :=
  inferInstanceAs (Decidable (_ ∧ _))

/-- Whether an access of a number of bytes is made.  The address is an exact
sum; where the C writer has another one nothing is said. -/
def access (memory : WasmRt.Memory) (offset base : BitVec 32) (size : Nat) :
    Except (Stop Trap) Nat :=
  if Wraps offset base then .error .undefined
  else if base.toNat + offset.toNat + size ≤ memory.size.toNat then
    .ok (base.toNat + offset.toNat)
  else .error (.trap .oob)

def load (opcode : LoadOpcode) (offset base : BitVec 32) (memory : WasmRt.Memory) :
    Except (Stop Trap) Value := do
  let start <- access memory offset base opcode.memorySize
  .ok (.ofRaw opcode.resultType
    (Interp.loadValue opcode (memory.data.read start opcode.memorySize)))

def store (opcode : StoreOpcode) (offset base : BitVec 32) (value : Value)
    (memory : WasmRt.Memory) : Except (Stop Trap) WasmRt.Memory := do
  let start <- access memory offset base opcode.memorySize
  .ok { memory with data := memory.data.write start opcode.memorySize value.raw.toNat }

/-! ## Execution -/

/-- What a body works on: its operands with the top first, its locals and the
instance. -/
structure Frame (scope : FuncScope) (Rest : Type) where
  stack : List Value
  locals : Variables scope.localType
  world : World scope.globalType Rest

/-- What an expression or a list of them comes to.  A branch counts the blocks
that it still has to leave.  Only what is not valid goes `wrong`. -/
inductive Behaviour (scope : FuncScope) (Rest : Type) where
  | next (frame : Frame scope Rest)
  | branch (depth : Nat) (frame : Frame scope Rest)
  | returned (frame : Frame scope Rest)
  | stopped (reason : Stop Trap)
  | running
  | wrong

variable {scope : FuncScope} {Rest : Type}

namespace Frame

variable (frame : Frame scope Rest)

/-- Go on with the result of an operator above a stack. -/
def operated (stack : List Value) : Except (Stop Trap) Value -> Behaviour scope Rest
  | .ok value => .next { frame with stack := value :: stack }
  | .error reason => .stopped reason

/-- Go on behind a store. -/
def stored (stack : List Value) : Except (Stop Trap) WasmRt.Memory -> Behaviour scope Rest
  | .ok memory =>
      .next { frame with stack := stack, world := { frame.world with memory := memory } }
  | .error reason => .stopped reason

/-- Go on behind a call. -/
def replied {result : Option ValueType} (stack : List Value) :
    Reply (World scope.globalType Rest) result -> Behaviour scope Rest
  | .returned world results => .next { frame with stack := results.val ++ stack, world := world }
  | .stopped reason => .stopped reason
  | .diverges => .running

end Frame

namespace Behaviour

/-- Sequential composition. -/
def andThen (next : Frame scope Rest -> Behaviour scope Rest) :
    Behaviour scope Rest -> Behaviour scope Rest
  | .next frame => next frame
  | other => other

/-- The end of a block above a stack. -/
def leave (result : Option ValueType) (stack : List Value) :
    Behaviour scope Rest -> Behaviour scope Rest
  | .next frame => .next { frame with stack := frame.stack ++ stack }
  | .branch 0 frame =>
      .next { frame with stack := frame.stack.take result.toList.length ++ stack }
  | .branch (depth + 1) frame => .branch depth frame
  | other => other

/-- The end of a function. -/
def finish (result : Option ValueType) : Behaviour scope Rest -> Behaviour scope Rest
  | .returned frame => .next { frame with stack := frame.stack.take result.toList.length }
  | other => other.leave result []

end Behaviour

variable (numerics : Interp.Numerics) (callees : Callees scope.globalType Rest)

/-- An expression without a body of its own. -/
def step (instr : Instr Scheme.binary) (frame : Frame scope Rest) : Behaviour scope Rest :=
  match instr, frame.stack with
  | .binary opcode, right :: left :: stack =>
      frame.operated stack
        (operatorResult opcode.resultType (numerics.binary opcode left.raw right.raw))
  | .compare opcode, right :: left :: stack =>
      frame.operated stack
        (operatorResult opcode.resultType (numerics.compare opcode left.raw right.raw))
  | .convert opcode, value :: stack =>
      frame.operated stack (operatorResult opcode.resultType (numerics.convert opcode value.raw))
  | .unary opcode, value :: stack =>
      frame.operated stack (operatorResult opcode.resultType (numerics.unary opcode value.raw))
  | .load opcode offset, .i32 base :: stack =>
      frame.operated stack (load opcode offset base frame.world.memory)
  | .store opcode offset, value :: .i32 base :: stack =>
      frame.stored stack (store opcode offset base value frame.world.memory)
  | .const value, stack => .next { frame with stack := value :: stack }
  | .drop, _ :: stack => .next { frame with stack := stack }
  | .select, .i32 condition :: right :: left :: stack =>
      .next { frame with stack := (if condition ≠ 0 then left else right) :: stack }
  | .getLocal var, stack =>
      match frame.locals.value var with
      | some value => .next { frame with stack := value :: stack }
      | none => .wrong
  | .setLocal var, value :: stack =>
      .next { frame with stack := stack, locals := frame.locals.set var value }
  | .teeLocal var, value :: stack =>
      .next { frame with stack := value :: stack, locals := frame.locals.set var value }
  | .getGlobal var, stack =>
      match frame.world.globals.value var with
      | some value => .next { frame with stack := value :: stack }
      | none => .wrong
  | .setGlobal var, value :: stack =>
      .next { frame with stack := stack, world := frame.world.setGlobal var value }
  | .memorySize, stack => .next { frame with stack := .i32 frame.world.memory.pages :: stack }
  | .memoryGrow, .i32 pages :: stack =>
      frame.replied stack (callees.growMemory pages frame.world)
  | .nop, _ => .next frame
  | .call var, stack =>
      match scope.funcSignature var with
      | some signature =>
          frame.replied (stack.drop signature.params.length)
            (callees.call var signature (stack.take signature.params.length).reverse frame.world)
      | none => .wrong
  | .callIndirect typeIndex, .i32 callee :: stack =>
      match scope.typeSignature typeIndex with
      | some signature =>
          frame.replied (stack.drop signature.params.length)
            (callees.callIndirect typeIndex signature callee
              (stack.take signature.params.length).reverse frame.world)
      | none => .wrong
  | .br depth, _ => .branch depth frame
  | .brIf depth, .i32 condition :: stack =>
      if condition ≠ 0 then .branch depth { frame with stack := stack }
      else .next { frame with stack := stack }
  | .brTable targets defaultTarget, .i32 number :: stack =>
      .branch (targets.getD number.toNat defaultTarget) { frame with stack := stack }
  | .ret, _ => .returned frame
  | .unreachable, _ => .stopped (.trap .unreachable)
  | _, _ => .wrong

/-- A loop starts again as often as its label is the target. -/
def iterate (body : Frame scope Rest -> Behaviour scope Rest) :
    Nat -> Frame scope Rest -> Behaviour scope Rest
  | 0, _ => .running
  | rounds + 1, frame =>
      match body frame with
      | .branch 0 frame => iterate body rounds { frame with stack := [] }
      | other => other

/-- A list with at most `rounds` rounds of each of its loops. -/
def exec (rounds : Nat) : ExprList Scheme.binary -> Frame scope Rest -> Behaviour scope Rest
  | .nil, frame => .next frame
  | .instr first rest, frame => (step numerics callees first frame).andThen (exec rounds rest)
  | .block _ result exprs rest, frame =>
      ((exec rounds exprs { frame with stack := [] }).leave result frame.stack).andThen
        (exec rounds rest)
  | .loop _ result exprs rest, frame =>
      ((iterate (exec rounds exprs) rounds { frame with stack := [] }).leave result
        frame.stack).andThen (exec rounds rest)
  | .ite _ result yes no rest, frame =>
      match frame.stack with
      | .i32 condition :: stack =>
          ((if condition ≠ 0 then exec rounds yes { frame with stack := [] }
            else exec rounds no { frame with stack := [] }).leave result stack).andThen
            (exec rounds rest)
      | _ => .wrong

/-- A function with the given locals; its results are what it leaves. -/
def execFunc (rounds : Nat) (result : Option ValueType) (exprs : ExprList Scheme.binary)
    (locals : Variables scope.localType) (world : World scope.globalType Rest) :
    Behaviour scope Rest :=
  (exec numerics callees rounds exprs ⟨[], locals, world⟩).finish result

end Semantics
end Wasm
end WasmSandboxing
