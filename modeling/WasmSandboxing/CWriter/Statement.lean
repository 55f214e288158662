import WasmSandboxing.CLang.Goto
import WasmSandboxing.WasmRt.Memory
import WasmSandboxing.Wasm.Ir

namespace WasmSandboxing
namespace CWriter

open CLang WasmRt Wasm

/-!
# The statements of a generated function

The C that `CWriter` emits for a function body, over the variables it names by
stack position and type, the function's locals and the module's globals.  What
the variables and labels are called in the text is not decided here.
-/

/-- The C type that `Write(Type)` names. -/
def cType : ValueType -> CType
  | .i32 => .u32 | .i64 => .u64 | .f32 => .f32 | .f64 => .f64

/-- The variables of a generated function. -/
inductive CVar (S : Scheme) where
  | stack (index : Nat) (type : ValueType)
  | local (var : S.Local)
  | global (var : S.Global)

/-- The type a variable is declared with. -/
def CVar.type {S : Scheme} (locals : S.Local -> ValueType) (globals : S.Global -> ValueType) :
    CVar S -> CType
  | .stack _ type => cType type
  | .local var => cType (locals var)
  | .global var => cType (globals var)

abbrev CExpr (S : Scheme) := Expr (CVar S) Trap

/-- Simple statements.  A `scope` emits no text: it is the point where the
writer gives a label its C name. -/
inductive Command (S : Scheme) where
  | scope (label : S.Label)
  | assign (target : CVar S) (value : CExpr S)
  | compound (operator : CLang.BinaryOp) (target : CVar S) (value : CExpr S)
  | load (target : CVar S) (function : LoadFunction) (address : CExpr S)
  | store (function : StoreFunction) (address value : CExpr S)
  | call (target : Option (CVar S)) (callee : S.Func) (arguments : List (CVar S))
  | callIndirect (target : Option (CVar S)) (typeIndex : Nat) (callee : CVar S)
      (arguments : List (CVar S))
  | memoryPages (target : CVar S)
  | growMemory (target argument : CVar S)
  | evaluate (value : CExpr S)

abbrev Statements (S : Scheme) := Code (Command S) (CExpr S) S.Label

/-! ## The writer's stacks -/

inductive LabelType where
  | func | block | loop | ite
  deriving DecidableEq, Repr

/-- `Label`: an entry of the label stack. -/
structure Label (S : Scheme) where
  labelType : LabelType
  name : S.Label
  result : Option ValueType
  typeStackSize : Nat
  used : Bool

/-- `HasValue`: whether a branch to the label carries its result. -/
def Label.hasValue {S : Scheme} (label : Label S) : Bool :=
  label.labelType != .loop && label.result.isSome

/-- The part of the writer's state that a body changes.  Both stacks have their
top first. -/
structure WriterState (S : Scheme) where
  typeStack : List ValueType
  labelStack : List (Label S)

namespace WriterState

variable {S : Scheme}

def markTypeStack (state : WriterState S) : Nat := state.typeStack.length

/-- Drop everything above the mark, which must not exceed the height. -/
def resetTypeStack (state : WriterState S) (mark : Nat) : Option (WriterState S) :=
  if mark ≤ state.typeStack.length then
    some { state with typeStack := state.typeStack.drop (state.typeStack.length - mark) }
  else none

/-- The type at a distance from the top. -/
def stackType (state : WriterState S) (index : Nat) : Option ValueType := state.typeStack[index]?

def pushType (state : WriterState S) (type : ValueType) : WriterState S :=
  { state with typeStack := type :: state.typeStack }

def pushTypes (state : WriterState S) (types : Option ValueType) : WriterState S :=
  { state with typeStack := types.toList ++ state.typeStack }

def dropTypes (state : WriterState S) (count : Nat) : Option (WriterState S) :=
  if count ≤ state.typeStack.length then
    some { state with typeStack := state.typeStack.drop count }
  else none

def pushLabel (state : WriterState S) (labelType : LabelType) (name : S.Label)
    (result : Option ValueType) : WriterState S :=
  { state with labelStack :=
      ⟨labelType, name, result, state.typeStack.length, false⟩ :: state.labelStack }

def isTopLabelUsed (state : WriterState S) : Bool :=
  match state.labelStack with
  | label :: _ => label.used
  | [] => false

def popLabel (state : WriterState S) : WriterState S :=
  { state with labelStack := state.labelStack.tail }

/-- `StackVar(index, type)`: the variable at a distance from the top, of the
given type.  A call without parameters writes its result above the top, at
distance `-1` in the index arithmetic. -/
def stackVar (state : WriterState S) (index : ℤ) (type : ValueType) : CVar S :=
  .stack (state.typeStack.length - 1 - index).toNat type

/-- `StackVar(index)`: the variable of the operand at a distance from the top. -/
def operand (state : WriterState S) (index : Nat) : Option (CVar S) :=
  (state.stackType index).map fun type => state.stackVar index type

end WriterState

end CWriter
end WasmSandboxing
