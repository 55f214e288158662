import WasmSandboxing.CWriter.MemoryAccess
import WasmSandboxing.CWriter.Operators

namespace WasmSandboxing
namespace CWriter

open CLang WasmRt Wasm

/-!
# Function bodies

`Write(ExprList)` and what it calls for labels, branches and calls.  The writer
stops at the end of a list or behind an expression that does not fall through;
a failing assertion of the source is `none`.
-/

/-- What the writer looks up in the module and the function it is writing. -/
structure Context where
  localType : Nat -> Option ValueType
  globalType : Nat -> Option ValueType
  funcSignature : Nat -> Option Signature
  typeSignature : Nat -> Option Signature

/-- The body's statements and the state they are followed in. -/
abbrev WrittenCode := Option (Statements Scheme.applied × WriterState Scheme.applied)

namespace WriterState

/-- `FindLabel`: the position, from the top, of the label of a branch.  An
index is only left for the function itself; a name that no label has falls
through to the bottom of the stack. -/
def findLabel (state : WriterState Scheme.applied) : LabelVar -> Option Nat
  | .index depth => if depth + 1 = state.labelStack.length then some depth else none
  | .name name =>
      match state.labelStack.findIdx? fun label => label.name = name with
      | some position => some position
      | none => if state.labelStack = [] then none else some (state.labelStack.length - 1)

def markUsed (state : WriterState Scheme.applied) (position : Nat) :
    WriterState Scheme.applied :=
  { state with labelStack :=
      state.labelStack.modify position fun label => { label with used := true } }

end WriterState

/-- The label that `Write(GotoLabel)` writes after `goto`. -/
def gotoName : LabelVar -> LabelName
  | .name name => name
  | .index _ => .func

/-- The assignment before a `goto` that moves a label's result down to the
label's height, written only when it is not there already. -/
def copyResult (state : WriterState Scheme.applied) (label : Label Scheme.applied) :
    Option (Statements Scheme.applied) :=
  if label.labelType = .loop then some .done
  else match label.result with
    | none => some .done
    | some type => do
        if state.typeStack.length < label.typeStackSize then none
        else
          let distance : ℤ := state.typeStack.length - label.typeStackSize - 1
          if distance = 0 then some .done
          else
            let source <- state.operand 0
            some (.basic (.assign (state.stackVar distance type) (.var source)) .done)

/-- `Write(GotoLabel)`. -/
def writeGoto (var : LabelVar) (state : WriterState Scheme.applied) : WrittenCode := do
  let position <- state.findLabel var
  let label <- state.labelStack[position]?
  let copy <- copyResult state label
  some (copy ++ .goto (gotoName var) .done, state.markUsed position)

/-- The cases of a `br_table` from a number on, then `default`. -/
def writeCases (defaultTarget : LabelVar) :
    List LabelVar -> Nat -> WriterState Scheme.applied -> WrittenCode
  | [], _, state => do
      let (code, state) <- writeGoto defaultTarget state
      some (.default code, state)
  | target :: targets, number, state => do
      let (code, state) <- writeGoto target state
      let (rest, state) <- writeCases defaultTarget targets (number + 1) state
      some (.case number (code ++ rest), state)

/-- `Write(LabelDecl)`. -/
def labelDecl (state : WriterState Scheme.applied) (name : LabelName) :
    Statements Scheme.applied :=
  if state.isTopLabelUsed then .label name .done else .done

/-- The operands of a call, whose last one is at the distance `first` from the
top. -/
def arguments (state : WriterState Scheme.applied) (first : Nat) :
    Nat -> Option (List (CVar Scheme.applied))
  | 0 => some []
  | count + 1 => do
      let operand <- state.operand (first + count)
      let rest <- arguments state first count
      some (operand :: rest)

def writeCall (context : Context) (var : Nat) (state : WriterState Scheme.applied) :
    Option (Command Scheme.applied × WriterState Scheme.applied) := do
  let signature <- context.funcSignature var
  let count := signature.params.length
  let target := signature.result.map fun type => state.stackVar (count - 1) type
  let operands <- arguments state 0 count
  let state <- state.dropTypes count
  some (.call target var operands, state.pushTypes signature.result)

def writeCallIndirect (context : Context) (typeIndex : Nat) (state : WriterState Scheme.applied) :
    Option (Command Scheme.applied × WriterState Scheme.applied) := do
  let signature <- context.typeSignature typeIndex
  let count := signature.params.length
  let target := signature.result.map fun type => state.stackVar count type
  let callee <- state.operand 0
  let operands <- arguments state 1 count
  let state <- state.dropTypes (count + 1)
  some (.callIndirect target typeIndex callee operands, state.pushTypes signature.result)

/-- A single command as statements. -/
def single (written : Written Scheme.applied) : WrittenCode :=
  written.map fun (command, state) => (.basic command .done, state)

/-- Assign a variable or an expression to a new top of the stack. -/
def writePush (type : ValueType) (value : CExpr Scheme.applied)
    (state : WriterState Scheme.applied) : Written Scheme.applied :=
  let state := state.pushType type
  some (.assign (state.stackVar 0 type) value, state)

/-- Assign the top of the stack, which is then dropped. -/
def writePop (target : CVar Scheme.applied) (state : WriterState Scheme.applied) :
    Written Scheme.applied := do
  let source <- state.operand 0
  let state <- state.dropTypes 1
  some (.assign target (.var source), state)

def writeSelect (state : WriterState Scheme.applied) : Written Scheme.applied := do
  let type <- state.stackType 1
  let condition <- state.operand 0
  let right <- state.operand 1
  let left <- state.operand 2
  let state <- state.dropTypes 3
  some (.assign left (.cond (.var condition) (.var left) (.var right)), state.pushType type)

/-- An expression without a body that falls through. -/
def writeInstr (context : Context) (instr : Instr Scheme.applied)
    (state : WriterState Scheme.applied) : WrittenCode :=
  match instr with
  | .binary opcode => single (writeBinary opcode state)
  | .compare opcode => single (writeCompare opcode state)
  | .convert opcode => single (writeConvert opcode state)
  | .unary opcode => single (writeUnary opcode state)
  | .load opcode offset => single (writeLoad opcode offset state)
  | .store opcode offset => single (writeStore opcode offset state)
  | .const value => single (some (writeConst value state))
  | .drop => (state.dropTypes 1).map fun state => (.done, state)
  | .select => single (writeSelect state)
  | .getLocal var => do
      let type <- context.localType var
      single (writePush type (.var (.local var)) state)
  | .setLocal var => single (writePop (.local var) state)
  | .teeLocal var => do
      let source <- state.operand 0
      single (some (.assign (.local var) (.var source), state))
  | .getGlobal var => do
      let type <- context.globalType var
      single (writePush type (.var (.global var)) state)
  | .setGlobal var => single (writePop (.global var) state)
  | .memorySize =>
      let state := state.pushType .i32
      single (some (.memoryPages (state.stackVar 0 .i32), state))
  | .memoryGrow => do
      let argument <- state.operand 0
      single (some (.growMemory argument argument, state))
  | .nop => some (.done, state)
  | .call var => single (writeCall context var state)
  | .callIndirect typeIndex => single (writeCallIndirect context typeIndex state)
  | .brIf var => do
      let condition <- state.operand 0
      let state <- state.dropTypes 1
      let (code, state) <- writeGoto var state
      some (.branch (.var condition) code .done .done, state)
  | .br _ | .brTable _ _ | .ret | .unreachable => none

/-- `Write(ExprList)`. -/
def writeExprList (context : Context) :
    ExprList Scheme.applied -> WriterState Scheme.applied -> WrittenCode
  | .nil, state => some (.done, state)
  -- The expressions behind one of these four are not written.
  | .instr (.br var) _, state => writeGoto var state
  | .instr (.brTable targets defaultTarget) _, state => do
      let scrutinee <- state.operand 0
      let state <- state.dropTypes 1
      let (body, state) <- writeCases defaultTarget targets 0 state
      some (.switch (.var scrutinee) body .done, state)
  | .instr .ret _, state => writeGoto (.index (state.labelStack.length - 1)) state
  | .instr .unreachable _, state => some (.basic (.evaluate (.trap .unreachable)) .done, state)
  | .instr first rest, state => do
      let (code, state) <- writeInstr context first state
      let (after, state) <- writeExprList context rest state
      some (code ++ after, state)
  | .block label result exprs rest, state => do
      let mark := state.markTypeStack
      let (body, state) <- writeExprList context exprs (state.pushLabel .block label result)
      let declaration := labelDecl state label
      let state <- state.resetTypeStack mark
      let (after, state) <- writeExprList context rest (state.popLabel.pushTypes result)
      some (.basic (.scope label) (body ++ (declaration ++ after)), state)
  -- A loop without a body is skipped.
  | .loop _ _ .nil rest, state => writeExprList context rest state
  | .loop label result exprs rest, state => do
      let mark := state.markTypeStack
      let (body, state) <- writeExprList context exprs (state.pushLabel .loop label result)
      let state <- state.resetTypeStack mark
      let (after, state) <- writeExprList context rest (state.popLabel.pushTypes result)
      some (.basic (.scope label) (.label label (body ++ after)), state)
  | .ite label result yes no rest, state => do
      let condition <- state.operand 0
      let state <- state.dropTypes 1
      let mark := state.markTypeStack
      let (yesCode, state) <- writeExprList context yes (state.pushLabel .ite label result)
      -- An absent `else` leaves the type stack for the reset below.
      let (noCode, state) <- (match no with
        | .nil => some (.done, state)
        | no => do writeExprList context no (<- state.resetTypeStack mark))
      let state <- state.resetTypeStack mark
      let declaration := labelDecl state label
      let (after, state) <- writeExprList context rest (state.popLabel.pushTypes result)
      some (.branch (.var condition) (.basic (.scope label) yesCode) noCode (declaration ++ after),
        state)

section Equations

variable {context : Context} {state : WriterState Scheme.applied}

/-- The expressions behind which nothing is written. -/
def endsList : Instr Scheme.applied -> Bool
  | .br _ | .brTable _ _ | .ret | .unreachable => true
  | _ => false

theorem writeExprList_instr {first : Instr Scheme.applied} (falls : endsList first = false)
    (rest : ExprList Scheme.applied) :
    writeExprList context (.instr first rest) state = (do
      let (code, state) <- writeInstr context first state
      let (after, state) <- writeExprList context rest state
      some (code ++ after, state)) := by
  cases first <;> first | rfl | cases falls

theorem writeExprList_loop {exprs : ExprList Scheme.applied} (nonempty : exprs ≠ .nil)
    (label : LabelName) (result : Option ValueType) (rest : ExprList Scheme.applied) :
    writeExprList context (.loop label result exprs rest) state = (do
      let mark := state.markTypeStack
      let (body, state) <- writeExprList context exprs (state.pushLabel .loop label result)
      let state <- state.resetTypeStack mark
      let (after, state) <- writeExprList context rest (state.popLabel.pushTypes result)
      some (.basic (.scope label) (.label label (body ++ after)), state)) := by
  cases exprs <;> first | rfl | exact absurd rfl nonempty

/-- The second list of a conditional, which starts from the height of the first. -/
def writeElse (context : Context) (mark : Nat) (no : ExprList Scheme.applied)
    (state : WriterState Scheme.applied) : WrittenCode :=
  match no with
  | .nil => some (.done, state)
  | no => do writeExprList context no (<- state.resetTypeStack mark)

theorem writeExprList_ite (label : LabelName) (result : Option ValueType)
    (yes no rest : ExprList Scheme.applied) :
    writeExprList context (.ite label result yes no rest) state = (do
      let condition <- state.operand 0
      let state <- state.dropTypes 1
      let mark := state.markTypeStack
      let (yesCode, state) <- writeExprList context yes (state.pushLabel .ite label result)
      let (noCode, state) <- writeElse context mark no state
      let state <- state.resetTypeStack mark
      let declaration := labelDecl state label
      let (after, state) <- writeExprList context rest (state.popLabel.pushTypes result)
      some (.branch (.var condition) (.basic (.scope label) yesCode) noCode (declaration ++ after),
        state)) := by
  cases no <;> rfl

end Equations

/-- `Write(Func)` between its prologue and its epilogue: the body and the label
of the function, and the variable that is returned. -/
def writeFunc (context : Context) (result : Option ValueType) (exprs : ExprList Scheme.applied) :
    Option (Statements Scheme.applied × Option (CVar Scheme.applied)) := do
  let (body, state) <- writeExprList context exprs
    ⟨[], [⟨.func, .func, result, 0, false⟩]⟩
  some (body ++ labelDecl state .func, result.map fun type => .stack 0 type)

end CWriter
end WasmSandboxing
