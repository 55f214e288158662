import WasmSandboxing.Wasm.Names

namespace WasmSandboxing
namespace Text

open Wasm

/-!
# Modules of the text tools

`ir.h` as the text parser and the name passes use it.  A reference is a `Var`:
an index or a name.  What a reference stands for depends on where it occurs, so
every occurrence is collected together with its site and its scope.
-/

/-- `BindingHash`, a `std::unordered_multimap`, with its entries in the order
in which they were added. -/
abbrev BindingHash := List (Name × Nat)

/-- The name of a `Var`.  The lexer never gives an empty one, and an empty
string stands for the absence of a name elsewhere. -/
structure Symbol where
  text : Name
  nonempty : text ≠ []
  deriving DecidableEq

inductive Var where
  | index (index : Nat)
  | name (symbol : Symbol)
  deriving DecidableEq

/-- `BindingHash::FindIndex`.  Among entries of one name, `find` gives the one
that comes first in the order of iteration. -/
def findIndex (iteration : IterationOrder) (bindings : BindingHash) : Var -> Option Nat
  | .index index => some index
  | .name symbol => (iteration.order bindings).lookup symbol.text

/-! ## Expressions -/

/-- `FuncDeclaration`, and `BlockDeclaration`, which is the same type.  There is
a `type_var` when `has_func_type` is set. -/
structure FuncDeclaration where
  typeVar : Option Var
  paramTypes : List ValueType

/-- The types of expression that have no `Var`. -/
inductive PlainType where
  | atomicLoad | atomicRmw | atomicRmwCmpxchg | atomicStore | atomicWait | atomicWake
  | binary | compare | const | convert | drop | load | memoryGrow | memorySize | nop
  | rethrow | ret | select | simdLaneOp | simdShuffleOp | store | ternary | unary
  | unreachable

/-- Expressions without a body of their own. -/
inductive Instr where
  | plain (type : PlainType)
  | br (var : Var)
  | brIf (var : Var)
  | brTable (targets : List Var) (defaultTarget : Var)
  | call (var : Var)
  | callIndirect (decl : FuncDeclaration)
  | getGlobal (var : Var)
  | setGlobal (var : Var)
  | getLocal (var : Var)
  | setLocal (var : Var)
  | teeLocal (var : Var)
  | throw (var : Var)

/-- `Block` without its expressions.  An absent label is empty. -/
structure Block where
  label : Name
  decl : FuncDeclaration

/-- Expressions with one list. -/
inductive BodyType where
  | block | loop
  deriving DecidableEq

/-- Expressions with two lists, the second of which may be empty. -/
inductive ArmsType where
  | ite
  | ifExcept (exceptVar : Var)
  | tryCatch

/-- `ExprList`, by its first expression. -/
inductive ExprList where
  | nil
  | instr (first : Instr) (rest : ExprList)
  | body (type : BodyType) (block : Block) (exprs rest : ExprList)
  | arms (type : ArmsType) (block : Block) (first second rest : ExprList)

/-! ## Modules -/

inductive ExternalKind where
  | func | table | memory | global | except
  deriving DecidableEq

/-- The index spaces of a module that have a `BindingHash`. -/
inductive Space where
  | func | funcType | table | memory | global | except
  deriving DecidableEq

def ExternalKind.space : ExternalKind -> Space
  | .func => .func
  | .table => .table
  | .memory => .memory
  | .global => .global
  | .except => .except

/-- What a function binds: its parameters and its locals. -/
structure Locals where
  numParams : Nat
  paramBindings : BindingHash
  localBindings : BindingHash

/-- `Func::GetLocalIndex`: the parameters are searched before the locals, which
are counted behind them. -/
def Locals.getLocalIndex (iteration : IterationOrder) (locals : Locals) (var : Var) :
    Option Nat :=
  match findIndex iteration locals.paramBindings var with
  | some index => some index
  | none => (findIndex iteration locals.localBindings var).map fun index =>
      locals.numParams + index

structure Func where
  decl : FuncDeclaration
  paramBindings : BindingHash
  localBindings : BindingHash
  exprs : ExprList

def Func.locals (func : Func) : Locals :=
  ⟨func.decl.paramTypes.length, func.paramBindings, func.localBindings⟩

structure Export where
  kind : ExternalKind
  var : Var

structure ElemSegment where
  tableVar : Var
  offset : ExprList
  vars : List Var

structure DataSegment where
  memoryVar : Var
  offset : ExprList

structure Module where
  bindings : Space -> BindingHash
  funcs : List Func
  exports : List Export
  globals : List ExprList
  elemSegments : List ElemSegment
  dataSegments : List DataSegment
  starts : List Var

/-! ## References -/

/-- Where a `Var` stands, by what it refers to.  The type of a block is told
apart from other uses of a function type. -/
inductive Site where
  | entity (space : Space)
  | blockType
  | label
  | local
  deriving DecidableEq

/-- What is in scope of a reference: the bindings of the module, those of the
function if there is one, and the labels of the enclosing blocks, innermost first. -/
structure Scope where
  bindings : Space -> BindingHash
  locals : Option Locals
  labels : List Name

def Scope.push (scope : Scope) (label : Name) : Scope :=
  { scope with labels := label :: scope.labels }

structure Reference where
  scope : Scope
  site : Site
  var : Var

def FuncDeclaration.vars (site : Site) (decl : FuncDeclaration) : List (Site × Var) :=
  decl.typeVar.toList.map fun var => (site, var)

def Instr.vars : Instr -> List (Site × Var)
  | .plain _ => []
  | .br var | .brIf var => [(.label, var)]
  | .brTable targets defaultTarget => (targets ++ [defaultTarget]).map fun var => (.label, var)
  | .call var => [(.entity .func, var)]
  | .callIndirect decl => decl.vars (.entity .funcType)
  | .getGlobal var | .setGlobal var => [(.entity .global, var)]
  | .getLocal var | .setLocal var | .teeLocal var => [(.local, var)]
  | .throw var => [(.entity .except, var)]

def ArmsType.vars : ArmsType -> List (Site × Var)
  | .ite | .tryCatch => []
  | .ifExcept exceptVar => [(.entity .except, exceptVar)]

def Scope.references (scope : Scope) (vars : List (Site × Var)) : List Reference :=
  vars.map fun (site, var) => ⟨scope, site, var⟩

/-- The references of an expression list, in the order of the text but with the
type of a block behind those of its head. -/
def ExprList.references (scope : Scope) : ExprList -> List Reference
  | .nil => []
  | .instr first rest => scope.references first.vars ++ references scope rest
  | .body _ block exprs rest =>
      scope.references (block.decl.vars .blockType) ++
        references (scope.push block.label) exprs ++ references scope rest
  | .arms type block first second rest =>
      scope.references (type.vars ++ block.decl.vars .blockType) ++
        references (scope.push block.label) first ++
        references (scope.push block.label) second ++ references scope rest

namespace Module

/-- The scope outside functions. -/
def scope (module : Module) : Scope := ⟨module.bindings, none, []⟩

def funcReferences (module : Module) (func : Func) : List Reference :=
  let scope := { module.scope with locals := some func.locals }
  scope.references (func.decl.vars (.entity .funcType)) ++ func.exprs.references scope

def exportReferences (module : Module) (item : Export) : List Reference :=
  module.scope.references [(.entity item.kind.space, item.var)]

def elemReferences (module : Module) (segment : ElemSegment) : List Reference :=
  module.scope.references [(.entity .table, segment.tableVar)] ++
    segment.offset.references module.scope ++
    module.scope.references (segment.vars.map fun var => (.entity .func, var))

def dataReferences (module : Module) (segment : DataSegment) : List Reference :=
  module.scope.references [(.entity .memory, segment.memoryVar)] ++
    segment.offset.references module.scope

/-- Every `Var` of the module. -/
def references (module : Module) : List Reference :=
  module.funcs.flatMap module.funcReferences ++
    module.exports.flatMap module.exportReferences ++
    module.globals.flatMap (fun initExpr => initExpr.references module.scope) ++
    module.elemSegments.flatMap module.elemReferences ++
    module.dataSegments.flatMap module.dataReferences ++
    module.scope.references (module.starts.map fun var => (.entity .func, var))

end Module

end Text
end WasmSandboxing
