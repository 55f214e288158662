import WasmSandboxing.Text.Visits
import WasmSandboxing.Text.ModuleFields

namespace WasmSandboxing
namespace Text

/-!
# Applying names

`apply-names.cc`: every index is replaced by the name of what it stands for, if
that has one.  A name that is there is compared with the name that is found,
and a reference to nothing ends the pass, which leaves what is behind it.
-/

namespace Fields

open Foundation Wasm

/-- `NameApplier`, with the innermost label first, and whether an assertion has
failed. -/
structure NameApplier where
  labels : List Name
  aborted : Bool

/-- `current_func_` with the names of its parameters and locals. -/
structure Current where
  locals : Locals
  numLocals : Nat
  paramIndexToName : List Name
  localIndexToName : List Name

namespace NameApplier

def abort {Part : Type} (part : Part) : Visit NameApplier Part := fun applier =>
  (false, part, { applier with aborted := true })

def pushLabel (label : Name) : StateM NameApplier Unit :=
  modify fun applier => { applier with labels := label :: applier.labels }

def popLabel : StateM NameApplier Unit :=
  modify fun applier => { applier with labels := applier.labels.tail }

/-- `FindLabelByVar`, empty if there is no such label. -/
def findLabelByVar (labels : List Name) : Var -> Name
  | .name symbol => (labels.find? fun label => label = symbol.text).getD []
  | .index index => labels[index]?.getD []

/-- `UseNameForVar` -/
def useNameForVar (name : Name) : Var -> Visit NameApplier Var
  | .name symbol => if name = symbol.text then .done (.name symbol) else abort (.name symbol)
  | .index index =>
      .done (if isNamed : name ≠ [] then .name ⟨name, isNamed⟩ else .index index)

def useNameForLabelVar (var : Var) : Visit NameApplier Var := fun applier =>
  useNameForVar (findLabelByVar applier.labels var) var applier

section Callbacks

variable (iteration : IterationOrder) (space : Space -> Entities) (current : Option Current)

def useNameForEntityVar (entities : Entities) (var : Var) : Visit NameApplier Var :=
  match (findIndex iteration entities.bindings var).bind fun index => entities.names[index]? with
  | some name => useNameForVar name var
  | none => .fail var

def useNameForFuncTypeVar : Var -> Visit NameApplier Var :=
  useNameForEntityVar iteration (space .funcType)

def useNameForFuncVar : Var -> Visit NameApplier Var :=
  useNameForEntityVar iteration (space .func)

def useNameForGlobalVar : Var -> Visit NameApplier Var :=
  useNameForEntityVar iteration (space .global)

def useNameForTableVar : Var -> Visit NameApplier Var :=
  useNameForEntityVar iteration (space .table)

def useNameForMemoryVar : Var -> Visit NameApplier Var :=
  useNameForEntityVar iteration (space .memory)

def useNameForExceptVar : Var -> Visit NameApplier Var :=
  useNameForEntityVar iteration (space .except)

/-- The name of a parameter or local. -/
def localName (current : Current) (index : Nat) : Name :=
  if index < current.locals.numParams then (current.paramIndexToName[index]?).getD []
  else (current.localIndexToName[index - current.locals.numParams]?).getD []

/-- `UseNameForParamAndLocalVar`, which needs a function. -/
def useNameForParamAndLocalVar (var : Var) : Visit NameApplier Var :=
  match current with
  | none => abort var
  | some current =>
      match current.locals.getLocalIndex iteration var with
      | some index =>
          if index < current.locals.numParams + current.numLocals then
            useNameForVar (localName current index) var
          else .fail var
      | none => .fail var

/-- `has_func_type` is tested where a declaration is used. -/
def useNameForDecl (decl : FuncDeclaration) : Visit NameApplier FuncDeclaration :=
  match decl.typeVar with
  | none => .done decl
  | some var => (useNameForFuncTypeVar iteration space var).map fun var =>
      { decl with typeVar := some var }

def onInstr : Instr -> Visit NameApplier Instr
  | .plain type => .done (.plain type)
  | .br var => (useNameForLabelVar var).map .br
  | .brIf var => (useNameForLabelVar var).map .brIf
  | .brTable targets defaultTarget =>
      ((Visit.each useNameForLabelVar targets).check defaultTarget
        (useNameForLabelVar defaultTarget)).map fun (targets, defaultTarget) =>
          .brTable targets defaultTarget
  | .call var => (useNameForFuncVar iteration space var).map .call
  | .callIndirect decl => (useNameForDecl iteration space decl).map .callIndirect
  | .getGlobal var => (useNameForGlobalVar iteration space var).map .getGlobal
  | .setGlobal var => (useNameForGlobalVar iteration space var).map .setGlobal
  | .getLocal var => (useNameForParamAndLocalVar iteration current var).map .getLocal
  | .setLocal var => (useNameForParamAndLocalVar iteration current var).map .setLocal
  | .teeLocal var => (useNameForParamAndLocalVar iteration current var).map .teeLocal
  | .throw var => (useNameForExceptVar iteration space var).map .throw

/-- `BeginBlockExpr` and `BeginLoopExpr` -/
def beginBody (_ : BodyType) (block : Block) : StateM NameApplier Block := do
  pushLabel block.label
  return block

/-- `BeginIfExpr`, `BeginTryExpr` and `BeginIfExceptExpr`, which looks at its
exception when the label is there. -/
def beginArms (type : ArmsType) (block : Block) : Visit NameApplier (ArmsType × Block) :=
  ((Visit.succeed (do pushLabel block.label; return block)).check type
    (match type with
      | .ite => .done .ite
      | .ifExcept exceptVar =>
          (useNameForExceptVar iteration space exceptVar).map .ifExcept
      | .tryCatch => .done .tryCatch)).map fun (block, type) => (type, block)

def delegate : Delegate NameApplier where
  onInstr := onInstr iteration space current
  beginBody type block := Visit.succeed (beginBody type block)
  beginArms := beginArms iteration space
  endExpr := Visit.succeed popLabel

def visitExprList : ExprList -> Visit NameApplier ExprList :=
  ExprVisitor.visitExprList (delegate iteration space current)

end Callbacks

section Module

variable (iteration : IterationOrder) (space : Space -> Entities)

/-- The names of the parameters and locals of a function, unless a binding is of
none of them. -/
def currentOf (func : Func) : Option Current := do
  let params <-
    makeTypeBindingReverseMapping func.numParams (iteration.order func.paramBindings)
  let locals <-
    makeTypeBindingReverseMapping func.numLocals (iteration.order func.localBindings)
  return ⟨func.locals, func.numLocals, params, locals⟩

def visitFunc (func : Func) : Visit NameApplier Func :=
  ((useNameForDecl iteration space func.decl).check func.exprs
    (match currentOf iteration func with
      | none => abort func.exprs
      | some current => visitExprList iteration space (some current) func.exprs)).map
    fun (decl, exprs) => { func with decl := decl, exprs := exprs }

def visitGlobal (initExpr : ExprList) : Visit NameApplier ExprList :=
  visitExprList iteration space none initExpr

/-- Whether a function is found is not looked at. -/
def visitExport (item : Export) : Visit NameApplier Export := fun applier =>
  if item.kind = .func then
    let (_, var, applier) := useNameForFuncVar iteration space item.var applier
    (!applier.aborted, { item with var := var }, applier)
  else (true, item, applier)

def visitElemSegment (segment : ElemSegment) : Visit NameApplier ElemSegment :=
  ((useNameForTableVar iteration space segment.tableVar).check (segment.offset, segment.vars)
    ((visitExprList iteration space none segment.offset).check segment.vars
      (Visit.each (useNameForFuncVar iteration space) segment.vars))).map
    fun (tableVar, offset, vars) => ⟨tableVar, offset, vars⟩

def visitDataSegment (segment : DataSegment) : Visit NameApplier DataSegment :=
  ((useNameForMemoryVar iteration space segment.memoryVar).check segment.offset
    (visitExprList iteration space none segment.offset)).map
    fun (memoryVar, offset) => ⟨memoryVar, offset⟩

def visitModule (module : Module) : Visit NameApplier Module :=
  let space := module.space
  ((Visit.each (visitFunc iteration space) module.funcs).check
    (module.globals, module.exports, module.elemSegments, module.dataSegments)
    ((Visit.each (visitGlobal iteration space) module.globals).check
      (module.exports, module.elemSegments, module.dataSegments)
      ((Visit.each (visitExport iteration space) module.exports).check
        (module.elemSegments, module.dataSegments)
        ((Visit.each (visitElemSegment iteration space) module.elemSegments).check
          module.dataSegments
          (Visit.each (visitDataSegment iteration space) module.dataSegments))))).map
    fun (funcs, globals, exports, elemSegments, dataSegments) =>
      { module with
        funcs := funcs
        globals := globals
        exports := exports
        elemSegments := elemSegments
        dataSegments := dataSegments }

end Module

end NameApplier

end Fields
end Text
end WasmSandboxing
