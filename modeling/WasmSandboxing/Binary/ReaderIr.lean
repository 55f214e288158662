import WasmSandboxing.Binary.FunctionBody

namespace WasmSandboxing
namespace Binary

/-!
# The delegate that builds expressions

`BinaryReaderIR`, as far as function bodies go.  A label points at the list
that the next expression is appended to; the lists have addresses here, and an
expression that holds others has the addresses of its own lists.  What the
callbacks do to a label does not depend on the body that pushed it.
-/

inductive LabelType where
  | func | block | loop | if_ | else_ | ifExcept | ifExceptElse | try_ | catch_
  deriving DecidableEq, Repr

/-- An expression with the opcode it was made for and its location. -/
inductive Expr where
  | leaf (instr : Instr) (loc : Nat)
  | block (instr : Instr) (loc : Nat) (exprs : Nat)
  | arms (instr : Instr) (loc : Nat) (first second : Nat)
  deriving DecidableEq, Repr

namespace Expr

def instr : Expr -> Instr
  | leaf instr _ | block instr _ _ | arms instr _ _ _ => instr

def loc : Expr -> Nat
  | leaf _ loc | block _ loc _ | arms _ loc _ _ => loc

/-- The lists of an expression. -/
def lists : Expr -> List Nat
  | leaf _ _ => []
  | block _ _ exprs => [exprs]
  | arms _ _ first second => [first, second]

end Expr

structure LabelNode where
  labelType : LabelType
  exprs : Nat
  deriving DecidableEq, Repr

/-- The functions by the lists of their bodies, all lists by address, and the
labels, the innermost first. -/
structure BinaryReaderIR where
  numFuncImports : Nat
  funcs : List Nat
  lists : List (List Expr)
  labelStack : List LabelNode
  deriving DecidableEq

namespace BinaryReaderIR

/-! ## Labels -/

def pushLabel (ir : BinaryReaderIR) (labelType : LabelType) (exprs : Nat) : BinaryReaderIR :=
  { ir with labelStack := ⟨labelType, exprs⟩ :: ir.labelStack }

def popLabel (ir : BinaryReaderIR) : Except Failure BinaryReaderIR :=
  match ir.labelStack with
  | [] => .error (.error (.text "popping empty label stack"))
  | _ :: rest => .ok { ir with labelStack := rest }

def getLabelAt (ir : BinaryReaderIR) (depth : Nat) : Except Failure LabelNode :=
  match ir.labelStack[depth]? with
  | none => .error (.error (.stackDepth depth ir.labelStack.length))
  | some label => .ok label

/-- The last expression of a list; `back` asserts that there is one. -/
def back (ir : BinaryReaderIR) (list : Nat) : Except Failure Expr :=
  match ir.lists[list]?.bind List.getLast? with
  | none => .error (.fault "!empty()")
  | some expr => .ok expr

def topLabelExpr (ir : BinaryReaderIR) : Except Failure (LabelNode × Expr) := do
  let label <- ir.getLabelAt 0
  let parentLabel <- ir.getLabelAt 1
  let expr <- ir.back parentLabel.exprs
  .ok (label, expr)

/-- Point the innermost label at another list, under another type. -/
def setTopLabel (ir : BinaryReaderIR) (labelType : LabelType) (exprs : Nat) : BinaryReaderIR :=
  { ir with labelStack := ⟨labelType, exprs⟩ :: ir.labelStack.tail }

/-! ## Expressions -/

def appendExpr (ir : BinaryReaderIR) (expr : Expr) : Except Failure BinaryReaderIR := do
  let label <- ir.getLabelAt 0
  .ok { ir with lists := ir.lists.modify label.exprs (· ++ [expr]) }

/-- `cast` to an expression with one list. -/
def castBlock (type : ConstructType) : Expr -> Except Failure Nat
  | .block instr _ exprs =>
      if instr.callback = .construct type then .ok exprs else .error (.fault "isa<Derived>(base)")
  | _ => .error (.fault "isa<Derived>(base)")

/-- `cast` to an expression with two lists. -/
def castArms (type : ConstructType) : Expr -> Except Failure (Nat × Nat)
  | .arms instr _ first second =>
      if instr.callback = .construct type then
        .ok (first, second)
      else
        .error (.fault "isa<Derived>(base)")
  | _ => .error (.fault "isa<Derived>(base)")

/-- Append an expression whose own lists are `fresh` and enter the first of them. -/
def enter (ir : BinaryReaderIR) (labelType : LabelType) (fresh : List (List Expr)) (expr : Expr) :
    Except Failure BinaryReaderIR := do
  let exprs := ir.lists.length
  let ir <- { ir with lists := ir.lists ++ fresh }.appendExpr expr
  .ok (ir.pushLabel labelType exprs)

def openBlock (ir : BinaryReaderIR) (labelType : LabelType) (instr : Instr) (offset : Nat) :
    Except Failure BinaryReaderIR :=
  ir.enter labelType [[]] (.block instr offset ir.lists.length)

def openArms (ir : BinaryReaderIR) (labelType : LabelType) (instr : Instr) (offset : Nat) :
    Except Failure BinaryReaderIR :=
  ir.enter labelType [[], []] (.arms instr offset ir.lists.length (ir.lists.length + 1))

/-! ## The callbacks -/

def onConstruct (ir : BinaryReaderIR) (instr : Instr) (offset : Nat) :
    ConstructType -> Except Failure BinaryReaderIR
  | .block => ir.openBlock .block instr offset
  | .loop => ir.openBlock .loop instr offset
  | .if_ => ir.openArms .if_ instr offset
  | .ifExcept => ir.openArms .ifExcept instr offset
  | .try_ => ir.openArms .try_ instr offset

def onElseExpr (ir : BinaryReaderIR) : Except Failure BinaryReaderIR := do
  let (label, expr) <- ir.topLabelExpr
  match label.labelType with
  | .if_ =>
      let (_true, false_) <- castArms .if_ expr
      .ok (ir.setTopLabel .else_ false_)
  | .ifExcept =>
      let (_true, false_) <- castArms .ifExcept expr
      .ok (ir.setTopLabel .ifExceptElse false_)
  | _ => .error (.error (.text "else expression without matching if"))

def onCatchExpr (ir : BinaryReaderIR) : Except Failure BinaryReaderIR := do
  let label <- ir.getLabelAt 0
  if label.labelType ≠ .try_ then
    .error (.error (.text "catch expression without matching try"))
  else
    let parentLabel <- ir.getLabelAt 1
    let expr <- ir.back parentLabel.exprs
    let (_block, catch_) <- castArms .try_ expr
    .ok (ir.setTopLabel .catch_ catch_)

/-- The cast that `OnEndExpr` makes to note where a construct ends. -/
def castEnded (expr : Expr) : LabelType -> Except Failure Unit
  | .block => castBlock .block expr >>= fun _ => .ok ()
  | .loop => castBlock .loop expr >>= fun _ => .ok ()
  | .if_ | .else_ => castArms .if_ expr >>= fun _ => .ok ()
  | .ifExcept | .ifExceptElse => castArms .ifExcept expr >>= fun _ => .ok ()
  | .try_ => castArms .try_ expr >>= fun _ => .ok ()
  | .func | .catch_ => .ok ()

def onEndExpr (ir : BinaryReaderIR) : Except Failure BinaryReaderIR := do
  let (label, expr) <- ir.topLabelExpr
  castEnded expr label.labelType
  ir.popLabel

def onExpr (instr : Instr) (offset : Nat) (ir : BinaryReaderIR) :
    Except Failure BinaryReaderIR :=
  match instr.callback with
  | .expr _ => ir.appendExpr (.leaf instr offset)
  | .construct type => ir.onConstruct instr offset type
  | .onElse => ir.onElseExpr
  | .onCatch => ir.onCatchExpr
  | .onEnd => ir.onEndExpr

def onFunctionBodyCount (count : Nat) (ir : BinaryReaderIR) : Except Failure BinaryReaderIR :=
  if ir.numFuncImports + count = ir.funcs.length then
    .ok ir
  else
    .error (.fault "module_->num_func_imports + count == module_->funcs.size()")

def beginFunctionBody (index : Nat) (ir : BinaryReaderIR) : Except Failure BinaryReaderIR :=
  match ir.funcs[index]? with
  | none => .error (.fault "module_->funcs[index]")
  | some exprs => .ok (ir.pushLabel .func exprs)

def endFunctionBody (_index : Nat) (ir : BinaryReaderIR) : Except Failure BinaryReaderIR :=
  ir.popLabel

/-- `OnEndFunc` is the one that does nothing. -/
def delegate : Delegate BinaryReaderIR where
  onFunctionBodyCount := onFunctionBodyCount
  beginFunctionBody := beginFunctionBody
  onExpr := onExpr
  onEndFunc := .ok
  endFunctionBody := endFunctionBody

/-- Where the sections before the code leave the delegate: a function for each
one that is imported or declared, without expressions, and no label. -/
def beforeCode (reader : Reader) : BinaryReaderIR where
  numFuncImports := reader.numFuncImports
  funcs := List.range reader.numTotalFuncs
  lists := List.replicate reader.numTotalFuncs []
  labelStack := []

end BinaryReaderIR

/-- An expression in a list or in a list of an expression there. -/
inductive InTree (lists : List (List Expr)) : Nat -> Expr -> Prop where
  | here {list : Nat} {exprs : List Expr} {expr : Expr} (found : lists[list]? = some exprs)
      (isMember : expr ∈ exprs) : InTree lists list expr
  | within {list inner : Nat} {exprs : List Expr} {holder expr : Expr}
      (found : lists[list]? = some exprs) (isMember : holder ∈ exprs) (held : inner ∈ holder.lists)
      (under : InTree lists inner expr) : InTree lists list expr

end Binary
end WasmSandboxing
