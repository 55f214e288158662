import WasmSandboxing.Wasm.Opcode

namespace WasmSandboxing
namespace Wasm

/-!
# The validation algorithm

The algorithm by which WebAssembly says which function bodies are valid, on the
instructions of the first version with blocks that may take parameters.  It
keeps a stack of operands and a stack of control frames; behind an unconditional
branch the operands of a frame are unknown and there are as many as are asked
for.
-/

/-- The kinds of `LabelType` without exceptions. -/
inductive LabelType where
  | func | block | loop | ite | els
  deriving DecidableEq, Repr

/-- An operand, `unknown` where any type will do. -/
inductive OperandType where
  | unknown
  | value (type : ValueType)
  deriving DecidableEq, Repr

/-- One instruction of a body, with what validation needs of its operands: the
signatures of blocks and callees, and the types of variables. -/
inductive TypedInstr where
  | unary (opcode : UnaryOpcode)
  | binary (opcode : BinaryOpcode)
  | compare (opcode : CompareOpcode)
  | convert (opcode : ConvertOpcode)
  | load (opcode : LoadOpcode)
  | store (opcode : StoreOpcode)
  | const (type : ValueType)
  | memorySize
  | memoryGrow
  | getLocal (type : ValueType)
  | setLocal (type : ValueType)
  | teeLocal (type : ValueType)
  | getGlobal (type : ValueType)
  | setGlobal (type : ValueType)
  | call (params results : List ValueType)
  | callIndirect (params results : List ValueType)
  | drop
  | select
  | block (params results : List ValueType)
  | loop (params results : List ValueType)
  | ite (params results : List ValueType)
  | els
  | fin
  | br (depth : Nat)
  | brIf (depth : Nat)
  | brTable (targets : List Nat) (defaultTarget : Nat)
  | ret
  | unreachable
  deriving DecidableEq, Repr

/-- What an instruction that has a type of its own takes and leaves. -/
def TypedInstr.type : TypedInstr -> Option (List ValueType × List ValueType)
  | unary opcode => some ([opcode.paramType1], [opcode.resultType])
  | binary opcode => some ([opcode.paramType1, opcode.paramType2], [opcode.resultType])
  | compare opcode => some ([opcode.paramType1, opcode.paramType2], [opcode.resultType])
  | convert opcode => some ([opcode.paramType1], [opcode.resultType])
  | load opcode => some ([.i32], [opcode.resultType])
  | store opcode => some ([.i32, opcode.paramType2], [])
  | const type | getLocal type | getGlobal type => some ([], [type])
  | memorySize => some ([], [.i32])
  | memoryGrow => some ([.i32], [.i32])
  | setLocal type | setGlobal type => some ([type], [])
  | teeLocal type => some ([type], [type])
  | call params results => some (params, results)
  | callIndirect params results => some (params ++ [.i32], results)
  | _ => none

/-- A control frame with its types, the height of the operand stack at its
start, and whether the rest of it cannot be reached. -/
structure ControlFrame where
  kind : LabelType
  startTypes : List ValueType
  endTypes : List ValueType
  height : Nat
  unreachable : Bool
  deriving DecidableEq, Repr

/-- The operands of a branch to the frame. -/
def ControlFrame.labelTypes (frame : ControlFrame) : List ValueType :=
  if frame.kind = .loop then frame.startTypes else frame.endTypes

/-- Both stacks, with their tops first. -/
structure ValidationState where
  operands : List OperandType
  controls : List ControlFrame
  deriving DecidableEq, Repr

namespace ValidationState

variable (state : ValidationState)

def pushOperands (types : List ValueType) : ValidationState :=
  { state with operands := types.reverse.map .value ++ state.operands }

def popOperand : Option (OperandType × ValidationState) :=
  match state.controls with
  | [] => none
  | frame :: _ =>
      if state.operands.length = frame.height then
        if frame.unreachable then some (.unknown, state) else none
      else match state.operands with
        | [] => none
        | operand :: rest => some (operand, { state with operands := rest })

/-- Pop an operand of an expected type, which may be unknown itself; the result
is the better known of the two. -/
def popExpected (expected : OperandType) : Option (OperandType × ValidationState) := do
  let (actual, state) <- state.popOperand
  if actual = .unknown then some (expected, state)
  else if expected = .unknown then some (actual, state)
  else if actual = expected then some (actual, state)
  else none

/-- Pop operands of these types, the first of which is on the top. -/
def popReversed : List ValueType -> ValidationState -> Option ValidationState
  | [], state => some state
  | type :: types, state => do
      let (_, state) <- state.popExpected (.value type)
      popReversed types state

def popOperands (types : List ValueType) : Option ValidationState :=
  popReversed types.reverse state

def pushControl (kind : LabelType) (startTypes endTypes : List ValueType) : ValidationState :=
  ({ state with controls :=
      ⟨kind, startTypes, endTypes, state.operands.length, false⟩ :: state.controls }).pushOperands
    startTypes

/-- Leave a frame, whose results must be all that it has left. -/
def popControl : Option (ControlFrame × ValidationState) :=
  match state.controls with
  | [] => none
  | frame :: controls => do
      let state <- state.popOperands frame.endTypes
      if state.operands.length = frame.height then some (frame, { state with controls := controls })
      else none

def setUnreachable : Option ValidationState :=
  match state.controls with
  | [] => none
  | frame :: controls =>
      some
        { operands := state.operands.drop (state.operands.length - frame.height)
          controls := { frame with unreachable := true } :: controls }

/-- `else`: a conditional's first part ends and its second begins. -/
def startElse : Option ValidationState := do
  let (frame, state) <- state.popControl
  if frame.kind = .ite then some (state.pushControl .els frame.startTypes frame.endTypes)
  else none

/-- The end of a frame. -/
def finish : Option ValidationState := do
  let (frame, state) <- state.popControl
  some (state.pushOperands frame.endTypes)

/-- One instruction.  A conditional that ends without an `else` has an empty
one, and the end of the function is not an instruction of its body. -/
def step (instr : TypedInstr) : Option ValidationState :=
  match instr with
  | .drop => do
      let (_, state) <- state.popOperand
      some state
  | .select => do
      let (_, state) <- state.popExpected (.value .i32)
      let (first, state) <- state.popOperand
      let (second, state) <- state.popExpected first
      some { state with operands := second :: state.operands }
  | .block params results => do
      let state <- state.popOperands params
      some (state.pushControl .block params results)
  | .loop params results => do
      let state <- state.popOperands params
      some (state.pushControl .loop params results)
  | .ite params results => do
      let state <- state.popOperands (params ++ [.i32])
      some (state.pushControl .ite params results)
  | .els => state.startElse
  | .fin =>
      match state.controls with
      | ⟨.func, _, _, _, _⟩ :: _ => none
      | ⟨.ite, _, _, _, _⟩ :: _ => do
          let state <- state.startElse
          state.finish
      | _ => state.finish
  | .br depth => do
      let frame <- state.controls[depth]?
      let state <- state.popOperands frame.labelTypes
      state.setUnreachable
  | .brIf depth => do
      let frame <- state.controls[depth]?
      let state <- state.popOperands (frame.labelTypes ++ [.i32])
      some (state.pushOperands frame.labelTypes)
  | .brTable targets defaultTarget => do
      let frame <- state.controls[defaultTarget]?
      if targets.all fun target =>
          (state.controls[target]?.map ControlFrame.labelTypes) == some frame.labelTypes then
        let state <- state.popOperands (frame.labelTypes ++ [.i32])
        state.setUnreachable
      else none
  | .ret => do
      let frame <- state.controls.getLast?
      let state <- state.popOperands frame.endTypes
      state.setUnreachable
  | .unreachable => state.setUnreachable
  | other => do
      let (params, results) <- other.type
      let state <- state.popOperands params
      some (state.pushOperands results)

/-- Before the first instruction of a function with these results. -/
def start (results : List ValueType) : ValidationState :=
  ⟨[], [⟨.func, [], results, 0, false⟩]⟩

end ValidationState

/-- A body is valid when its instructions are and its results are what is left
in the frame of the function. -/
def ValidBody (results : List ValueType) (body : List TypedInstr) : Prop :=
  ∃ state frame final, body.foldlM ValidationState.step (.start results) = some state ∧
    state.popControl = some (frame, final) ∧ frame.kind = .func

end Wasm
end WasmSandboxing
