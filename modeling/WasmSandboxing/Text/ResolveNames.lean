import WasmSandboxing.Text.ExprVisitor

namespace WasmSandboxing
namespace Text

open Wasm

/-!
# Name resolution

`resolve-names.cc`: every `Var` with a name is replaced by the index that the
name is bound to.  Errors are counted but end nothing, so a pass over a part of
the module is described by what becomes of each reference in it.
-/

/-- What `PrintError` is given. -/
inductive Error where
  | redefinition (desc : String) (name : Name)
  | undefined (desc : String) (name : Name)

/-- `NameResolver`, with the innermost label first. -/
structure NameResolver where
  labels : List Name
  errors : List Error

/-- `BindingHash::FindDuplicates`, for entries in the order of their locations:
every entry whose name has occurred before. -/
def findDuplicates (bindings : BindingHash) : List Name :=
  let rec later (seen : List Name) : List Name -> List Name
    | [] => []
    | name :: rest =>
        if name ∈ seen then name :: later seen rest else later (name :: seen) rest
  later [] (bindings.map Prod.fst)

namespace NameResolver

def printError (error : Error) : StateM NameResolver Unit :=
  modify fun resolver => { resolver with errors := resolver.errors ++ [error] }

def pushLabel (label : Name) : StateM NameResolver Unit :=
  modify fun resolver => { resolver with labels := label :: resolver.labels }

def popLabel : StateM NameResolver Unit :=
  modify fun resolver => { resolver with labels := resolver.labels.tail }

def checkDuplicateBindings (bindings : BindingHash) (desc : String) :
    StateM NameResolver Unit :=
  (findDuplicates bindings).forM fun name => printError (.redefinition desc name)

/-- The end of every `Resolve` function: the index that was found, or an error. -/
def setIndex (symbol : Symbol) (desc : String) : Option Nat -> StateM NameResolver Var
  | some index => return .index index
  | none => do
      printError (.undefined desc symbol.text)
      return .name symbol

def resolveLabelVar : Var -> StateM NameResolver Var
  | .index index => return .index index
  | .name symbol => do
      setIndex symbol "label" ((<- get).labels.findIdx? fun label => label = symbol.text)

section Callbacks

variable (iteration : IterationOrder) (bindings : Space -> BindingHash) (locals : Option Locals)

def resolveVar (bindings : BindingHash) (desc : String) : Var -> StateM NameResolver Var
  | .index index => return .index index
  | .name symbol => setIndex symbol desc (findIndex iteration bindings (.name symbol))

def resolveFuncVar : Var -> StateM NameResolver Var :=
  resolveVar iteration (bindings .func) "function"

def resolveGlobalVar : Var -> StateM NameResolver Var :=
  resolveVar iteration (bindings .global) "global"

def resolveFuncTypeVar : Var -> StateM NameResolver Var :=
  resolveVar iteration (bindings .funcType) "function type"

def resolveTableVar : Var -> StateM NameResolver Var :=
  resolveVar iteration (bindings .table) "table"

def resolveMemoryVar : Var -> StateM NameResolver Var :=
  resolveVar iteration (bindings .memory) "memory"

def resolveExceptionVar : Var -> StateM NameResolver Var :=
  resolveVar iteration (bindings .except) "exception"

/-- Outside functions a name is passed over. -/
def resolveLocalVar : Var -> StateM NameResolver Var
  | .index index => return .index index
  | .name symbol =>
      match locals with
      | none => return .name symbol
      | some locals => setIndex symbol "local" (locals.getLocalIndex iteration (.name symbol))

/-- `has_func_type` is tested where a declaration is resolved. -/
def resolveDecl (decl : FuncDeclaration) : StateM NameResolver FuncDeclaration :=
  match decl.typeVar with
  | none => return decl
  | some var => do
      return { decl with typeVar := some (<- resolveFuncTypeVar iteration bindings var) }

def onInstr : Instr -> StateM NameResolver Instr
  | .plain type => return .plain type
  | .br var => do return .br (<- resolveLabelVar var)
  | .brIf var => do return .brIf (<- resolveLabelVar var)
  | .brTable targets defaultTarget => do
      let targets <- targets.mapM resolveLabelVar
      return .brTable targets (<- resolveLabelVar defaultTarget)
  | .call var => do return .call (<- resolveFuncVar iteration bindings var)
  | .callIndirect decl => do return .callIndirect (<- resolveDecl iteration bindings decl)
  | .getGlobal var => do return .getGlobal (<- resolveGlobalVar iteration bindings var)
  | .setGlobal var => do return .setGlobal (<- resolveGlobalVar iteration bindings var)
  | .getLocal var => do return .getLocal (<- resolveLocalVar iteration locals var)
  | .setLocal var => do return .setLocal (<- resolveLocalVar iteration locals var)
  | .teeLocal var => do return .teeLocal (<- resolveLocalVar iteration locals var)
  | .throw var => do return .throw (<- resolveExceptionVar iteration bindings var)

/-- `BeginBlockExpr` and `BeginLoopExpr`. -/
def beginBody (_ : BodyType) (block : Block) : StateM NameResolver Block := do
  pushLabel block.label
  return block

/-- `BeginIfExpr`, `BeginIfExceptExpr` and `BeginTryExpr`. -/
def beginArms (type : ArmsType) (block : Block) : StateM NameResolver (ArmsType × Block) := do
  pushLabel block.label
  match type with
  | .ite => return (.ite, block)
  | .ifExcept exceptVar => do
      return (.ifExcept (<- resolveExceptionVar iteration bindings exceptVar), block)
  | .tryCatch => return (.tryCatch, block)

def delegate : Delegate NameResolver where
  onInstr instr := Visit.succeed (onInstr iteration bindings locals instr)
  beginBody type block := Visit.succeed (beginBody type block)
  beginArms type block := Visit.succeed (beginArms iteration bindings type block)
  endExpr := Visit.succeed popLabel

/-- `visitor_.VisitExprList`, whose result is not looked at. -/
def visitExprList (exprs : ExprList) : StateM NameResolver ExprList := fun resolver =>
  (ExprVisitor.visitExprList (delegate iteration bindings locals) exprs resolver).2

end Callbacks

section Module

variable (iteration : IterationOrder) (bindings : Space -> BindingHash)

def visitFunc (func : Func) : StateM NameResolver Func := do
  let decl <- resolveDecl iteration bindings func.decl
  checkDuplicateBindings func.paramBindings "parameter"
  checkDuplicateBindings func.localBindings "local"
  let exprs <- visitExprList iteration bindings (some func.locals) func.exprs
  return { func with decl := decl, exprs := exprs }

def visitExport (item : Export) : StateM NameResolver Export := do
  match item.kind with
  | .func => return { item with var := <- resolveFuncVar iteration bindings item.var }
  | .table => return { item with var := <- resolveTableVar iteration bindings item.var }
  | .memory => return { item with var := <- resolveMemoryVar iteration bindings item.var }
  | .global => return { item with var := <- resolveGlobalVar iteration bindings item.var }
  | .except => return { item with var := <- resolveExceptionVar iteration bindings item.var }

def visitGlobal (initExpr : ExprList) : StateM NameResolver ExprList :=
  visitExprList iteration bindings none initExpr

def visitElemSegment (segment : ElemSegment) : StateM NameResolver ElemSegment := do
  let tableVar <- resolveTableVar iteration bindings segment.tableVar
  let offset <- visitExprList iteration bindings none segment.offset
  let vars <- segment.vars.mapM (resolveFuncVar iteration bindings)
  return ⟨tableVar, offset, vars⟩

def visitDataSegment (segment : DataSegment) : StateM NameResolver DataSegment := do
  let memoryVar <- resolveMemoryVar iteration bindings segment.memoryVar
  let offset <- visitExprList iteration bindings none segment.offset
  return ⟨memoryVar, offset⟩

/-- The checks at the beginning of `VisitModule`. -/
def checkSpaces : StateM NameResolver Unit := do
  checkDuplicateBindings (bindings .func) "function"
  checkDuplicateBindings (bindings .global) "global"
  checkDuplicateBindings (bindings .funcType) "function type"
  checkDuplicateBindings (bindings .table) "table"
  checkDuplicateBindings (bindings .memory) "memory"
  checkDuplicateBindings (bindings .except) "except"

def visitModule (module : Module) : StateM NameResolver Module := do
  let bindings := module.bindings
  checkSpaces bindings
  let funcs <- module.funcs.mapM (visitFunc iteration bindings)
  let exports <- module.exports.mapM (visitExport iteration bindings)
  let globals <- module.globals.mapM (visitGlobal iteration bindings)
  let elemSegments <- module.elemSegments.mapM (visitElemSegment iteration bindings)
  let dataSegments <- module.dataSegments.mapM (visitDataSegment iteration bindings)
  let starts <- module.starts.mapM (resolveFuncVar iteration bindings)
  return ⟨bindings, funcs, exports, globals, elemSegments, dataSegments, starts⟩

end Module

end NameResolver

/-- `ResolveNamesModule`: the module as it is left, and the errors; the result
is an error if there is one. -/
def resolveNamesModule (iteration : IterationOrder) (module : Module) : Module × List Error :=
  let (module, resolver) := (NameResolver.visitModule iteration module).run ⟨[], []⟩
  (module, resolver.errors)

end Text
end WasmSandboxing
