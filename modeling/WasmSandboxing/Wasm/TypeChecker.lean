import WasmSandboxing.Wasm.Validation

namespace WasmSandboxing
namespace Wasm

/-!
# The type checker

`TypeChecker`, one callback for each instruction.  A callback that fails goes
on and leaves some state behind; what it prints is left out.  `Type::Any` is an
unknown operand.
-/

/-- `wabt::Result`. -/
inductive Result where
  | ok | error
  deriving DecidableEq, Repr

namespace Result

/-- `operator |`. -/
def or : Result -> Result -> Result
  | ok, ok => ok
  | _, _ => error

@[simp] theorem or_eq_ok {first second : Result} :
    first.or second = ok ↔ first = ok ∧ second = ok := by
  cases first <;> cases second <;> decide

def ofBool : Bool -> Result
  | true => ok
  | false => error

@[simp] theorem ofBool_eq_ok {holds : Bool} : ofBool holds = ok ↔ holds = true := by
  cases holds <;> decide

end Result

/-- `TypeChecker::Label`. -/
structure CheckerLabel where
  labelType : LabelType
  paramTypes : List ValueType
  resultTypes : List ValueType
  typeStackLimit : Nat
  unreachable : Bool
  deriving DecidableEq, Repr

def CheckerLabel.brTypes (label : CheckerLabel) : List ValueType :=
  if label.labelType = .loop then label.paramTypes else label.resultTypes

/-- The two stacks, with their tops first. -/
structure TypeChecker where
  typeStack : List OperandType
  labelStack : List CheckerLabel
  deriving DecidableEq, Repr

namespace TypeChecker

variable (checker : TypeChecker)

/-- `resize`, which never enlarges the stack. -/
def resetTypeStackToLabel (label : CheckerLabel) : TypeChecker :=
  { checker with typeStack :=
      checker.typeStack.drop (checker.typeStack.length - label.typeStackLimit) }

def setUnreachable : Result × TypeChecker :=
  match checker.labelStack with
  | [] => (.error, checker)
  | label :: labels =>
      (.ok, { checker.resetTypeStackToLabel label with
        labelStack := { label with unreachable := true } :: labels })

def isUnreachable : Bool :=
  match checker.labelStack with
  | [] => true
  | label :: _ => label.unreachable

def pushLabel (labelType : LabelType) (paramTypes resultTypes : List ValueType) : TypeChecker :=
  { checker with labelStack :=
      ⟨labelType, paramTypes, resultTypes, checker.typeStack.length, false⟩ ::
        checker.labelStack }

def popLabel : TypeChecker := { checker with labelStack := checker.labelStack.tail }

def peekType (depth : Nat) : Result × OperandType :=
  match checker.labelStack with
  | [] => (.error, .unknown)
  | label :: _ =>
      if checker.typeStack.length ≤ label.typeStackLimit + depth then
        (.ofBool label.unreachable, .unknown)
      else (.ok, checker.typeStack.getD depth .unknown)

def checkType (actual expected : OperandType) : Result :=
  .ofBool (decide (expected = actual ∨ expected = .unknown ∨ actual = .unknown))

def peekAndCheckType (depth : Nat) (expected : OperandType) : Result :=
  let (result, actual) := checker.peekType depth
  result.or (checkType actual expected)

def dropTypes (dropCount : Nat) : Result × TypeChecker :=
  match checker.labelStack with
  | [] => (.error, checker)
  | label :: _ =>
      if checker.typeStack.length < label.typeStackLimit + dropCount then
        (.ofBool label.unreachable, checker.resetTypeStackToLabel label)
      else (.ok, { checker with typeStack := checker.typeStack.drop dropCount })

def pushOperand (operand : OperandType) : TypeChecker :=
  { checker with typeStack := operand :: checker.typeStack }

def pushTypes (types : List ValueType) : TypeChecker :=
  types.foldl (fun checker type => checker.pushOperand (.value type)) checker

def checkTypeStackEnd : Result :=
  match checker.labelStack with
  | [] => .error
  | label :: _ => .ofBool (decide (checker.typeStack.length = label.typeStackLimit))

def checkSignature (sig : List ValueType) : Result :=
  sig.zipIdx.foldl (fun result (type, index) =>
    result.or (checker.peekAndCheckType (sig.length - index - 1) (.value type))) .ok

def popAndCheckSignature (sig : List ValueType) : Result × TypeChecker :=
  let (dropped, after) := checker.dropTypes sig.length
  ((checker.checkSignature sig).or dropped, after)

def popAndCheckCall (paramTypes resultTypes : List ValueType) : Result × TypeChecker :=
  let (dropped, after) := checker.dropTypes paramTypes.length
  ((checker.checkSignature paramTypes).or dropped, after.pushTypes resultTypes)

def popAndCheck1Type (expected : ValueType) : Result × TypeChecker :=
  let (dropped, after) := checker.dropTypes 1
  ((checker.peekAndCheckType 0 (.value expected)).or dropped, after)

def popAndCheck2Types (expected1 expected2 : ValueType) : Result × TypeChecker :=
  let (dropped, after) := checker.dropTypes 2
  (((checker.peekAndCheckType 0 (.value expected2)).or
    (checker.peekAndCheckType 1 (.value expected1))).or dropped, after)

/-- `CheckOpcode1`, with the columns of the opcode. -/
def checkOpcode1 (paramType1 : ValueType) (resultType : Option ValueType) :
    Result × TypeChecker :=
  let (result, after) := checker.popAndCheck1Type paramType1
  (result, after.pushTypes resultType.toList)

def checkOpcode2 (paramType1 paramType2 : ValueType) (resultType : Option ValueType) :
    Result × TypeChecker :=
  let (result, after) := checker.popAndCheck2Types paramType1 paramType2
  (result, after.pushTypes resultType.toList)

/-! ## Callbacks -/

def beginFunction (sig : List ValueType) : TypeChecker :=
  (⟨[], []⟩ : TypeChecker).pushLabel .func [] sig

def onBlock (paramTypes resultTypes : List ValueType) : Result × TypeChecker :=
  let (result, after) := checker.popAndCheckSignature paramTypes
  (result, (after.pushLabel .block paramTypes resultTypes).pushTypes paramTypes)

def onLoop (paramTypes resultTypes : List ValueType) : Result × TypeChecker :=
  let (result, after) := checker.popAndCheckSignature paramTypes
  (result, (after.pushLabel .loop paramTypes resultTypes).pushTypes paramTypes)

def onIf (paramTypes resultTypes : List ValueType) : Result × TypeChecker :=
  let (condition, after) := checker.popAndCheck1Type .i32
  let (result, after) := after.popAndCheckSignature paramTypes
  (condition.or result, (after.pushLabel .ite paramTypes resultTypes).pushTypes paramTypes)

def onElse : Result × TypeChecker :=
  match checker.labelStack with
  | [] => (.error, checker)
  | label :: _ =>
      let (result, after) := checker.popAndCheckSignature label.resultTypes
      let atEnd := after.checkTypeStackEnd
      let reset := (after.resetTypeStackToLabel label).pushTypes label.paramTypes
      ((Result.ofBool (decide (label.labelType = .ite))).or (result.or atEnd),
        { reset with labelStack :=
            { label with labelType := .els, unreachable := false } :: reset.labelStack.tail })

/-- `OnEnd` with the label that ends. -/
def onEndLabel (label : CheckerLabel) : Result × TypeChecker :=
  let (result, after) := checker.popAndCheckSignature label.resultTypes
  let atEnd := after.checkTypeStackEnd
  (result.or atEnd, ((after.resetTypeStackToLabel label).pushTypes label.resultTypes).popLabel)

def onEnd : Result × TypeChecker :=
  match checker.labelStack with
  | [] => (.error, checker)
  | label :: _ =>
      -- "if without else cannot have results."
      let elseless : Result :=
        if label.labelType = .ite && label.resultTypes.length != 0 then .error else .ok
      let (result, after) := checker.onEndLabel label
      (elseless.or result, after)

def onBr (depth : Nat) : Result × TypeChecker :=
  match checker.labelStack[depth]? with
  | none => (.error, checker)
  | some label =>
      let result := checker.checkSignature label.brTypes
      let (unreachable, after) := checker.setUnreachable
      (result.or unreachable, after)

def onBrIf (depth : Nat) : Result × TypeChecker :=
  let (condition, after) := checker.popAndCheck1Type .i32
  match after.labelStack[depth]? with
  | none => (.error, after)
  | some label =>
      let (result, after) := after.popAndCheckSignature label.brTypes
      (condition.or result, after.pushTypes label.brTypes)

/-- `OnBrTableTarget`, with the signature of the targets before it. -/
def onBrTableTarget (brTableSig : Option (List ValueType)) (depth : Nat) :
    Result × Option (List ValueType) :=
  match checker.labelStack[depth]? with
  | none => (.error, brTableSig)
  | some label =>
      let sig := brTableSig.getD label.brTypes
      ((checker.checkSignature label.brTypes).or (.ofBool (decide (sig = label.brTypes))), some sig)

/-- `BeginBrTable`, `OnBrTableTarget` for every target and the default, and
`EndBrTable`. -/
def onBrTable (targets : List Nat) (defaultTarget : Nat) : Result × TypeChecker :=
  let (begun, after) := checker.popAndCheck1Type .i32
  let (result, _) := (targets ++ [defaultTarget]).foldl
    (fun (result, sig) depth =>
      let (checked, sig) := after.onBrTableTarget sig depth
      (Result.or result checked, sig)) (begun, none)
  let (ended, after) := after.setUnreachable
  (result.or ended, after)

def onReturn : Result × TypeChecker :=
  match checker.labelStack.getLast? with
  | none => (.error, checker)
  | some label =>
      let (result, after) := checker.popAndCheckSignature label.resultTypes
      let (unreachable, after) := after.setUnreachable
      (result.or unreachable, after)

def onSelect : Result × TypeChecker :=
  let condition := checker.peekAndCheckType 0 (.value .i32)
  let (peeked, type) := checker.peekType 1
  let second := checker.peekAndCheckType 2 type
  let (dropped, after) := checker.dropTypes 3
  (((condition.or peeked).or second).or dropped, after.pushOperand type)

def onCallIndirect (paramTypes resultTypes : List ValueType) : Result × TypeChecker :=
  let (entry, after) := checker.popAndCheck1Type .i32
  let (result, after) := after.popAndCheckCall paramTypes resultTypes
  (entry.or result, after)

def onTeeLocal (type : ValueType) : Result × TypeChecker :=
  let (result, after) := checker.popAndCheck1Type type
  (result, after.pushTypes [type])

/-- The callbacks that an instruction makes. -/
def step : TypedInstr -> Result × TypeChecker
  | .unary opcode => checker.checkOpcode1 opcode.paramType1 (some opcode.resultType)
  | .binary opcode =>
      checker.checkOpcode2 opcode.paramType1 opcode.paramType2 (some opcode.resultType)
  | .compare opcode =>
      checker.checkOpcode2 opcode.paramType1 opcode.paramType2 (some opcode.resultType)
  | .convert opcode => checker.checkOpcode1 opcode.paramType1 (some opcode.resultType)
  | .load opcode => checker.checkOpcode1 .i32 (some opcode.resultType)
  | .store opcode => checker.checkOpcode2 .i32 opcode.paramType2 none
  | .const type | .getLocal type | .getGlobal type => (.ok, checker.pushTypes [type])
  | .memorySize => (.ok, checker.pushTypes [.i32])
  | .memoryGrow => checker.checkOpcode1 .i32 (some .i32)
  | .setLocal type | .setGlobal type => checker.popAndCheck1Type type
  | .teeLocal type => checker.onTeeLocal type
  | .call params results => checker.popAndCheckCall params results
  | .callIndirect params results => checker.onCallIndirect params results
  | .drop => checker.dropTypes 1
  | .select => checker.onSelect
  | .block params results => checker.onBlock params results
  | .loop params results => checker.onLoop params results
  | .ite params results => checker.onIf params results
  | .els => checker.onElse
  | .fin => checker.onEnd
  | .br depth => checker.onBr depth
  | .brIf depth => checker.onBrIf depth
  | .brTable targets defaultTarget => checker.onBrTable targets defaultTarget
  | .ret => checker.onReturn
  | .unreachable => checker.setUnreachable

def endFunction : Result × TypeChecker :=
  match checker.labelStack with
  | [] => (.error, checker)
  | label :: _ =>
      let (result, after) := checker.onEndLabel label
      ((Result.ofBool (decide (label.labelType = .func))).or result, after)

/-- The callbacks of a list of instructions, all of which are made. -/
def steps : List TypedInstr -> TypeChecker -> Result × TypeChecker
  | [], checker => (.ok, checker)
  | instr :: rest, checker =>
      let (result, after) := checker.step instr
      let (later, last) := steps rest after
      (result.or later, last)

/-- Whether every callback from `BeginFunction` to `EndFunction` returns `Ok`. -/
def checkBody (results : List ValueType) (body : List TypedInstr) : Result :=
  let (result, after) := steps body (beginFunction results)
  result.or after.endFunction.1

end TypeChecker

end Wasm
end WasmSandboxing
