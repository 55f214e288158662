import WasmSandboxing.Foundation.Threading
import WasmSandboxing.Text.Ir

namespace WasmSandboxing
namespace Text
namespace TypeUses

open Foundation Wasm

/-!
# Type uses

What `ResolveFuncTypes` does to the declarations of a parsed module, and what
`ValidateFuncSignatures` and `ValidateModule` say about them.  Of an expression
only its declaration matters, and of the other fields of a module only their
initializers.
-/

/-- `FuncSignature` -/
structure FuncSignature where
  paramTypes : List ValueType
  resultTypes : List ValueType
  deriving DecidableEq

/-- `IsEmptySignature` -/
def FuncSignature.isEmpty (sig : FuncSignature) : Bool :=
  sig.resultTypes.isEmpty && sig.paramTypes.isEmpty

/-- `FuncDeclaration` and `BlockDeclaration`.  There is a `type_var` when
`has_func_type` is set. -/
structure FuncDeclaration where
  typeVar : Option Var
  sig : FuncSignature

/-- `ExprList`, by its first expression. -/
inductive ExprList where
  | nil
  /-- an expression that declares nothing -/
  | plain (rest : ExprList)
  | callIndirect (decl : FuncDeclaration) (rest : ExprList)
  /-- `block` and `loop` -/
  | body (decl : FuncDeclaration) (exprs rest : ExprList)
  /-- `if`, `if_except` and `try` -/
  | arms (decl : FuncDeclaration) (first second rest : ExprList)

structure Func where
  decl : FuncDeclaration
  paramBindings : BindingHash
  localBindings : BindingHash
  exprs : ExprList

inductive ModuleField where
  | func (func : Func)
  | funcImport (decl : FuncDeclaration)
  /-- a global, an element segment or a data segment, with its initializer -/
  | initializer (exprs : ExprList)

/-- The types are `func_types`, wherever the fields that declare them stand. -/
structure Module where
  funcTypeBindings : BindingHash
  funcTypes : List FuncSignature
  fields : List ModuleField

/-! ## Resolving -/

section

-- `func_type_bindings.FindIndex`
variable (find : Var -> Option Nat)

/-- `Module::GetFuncType` -/
def getFuncType (funcTypes : List FuncSignature) (var : Var) : Option FuncSignature :=
  (find var).bind fun index => funcTypes[index]?

/-- `Module::GetFuncTypeIndex` of a signature -/
def getFuncTypeIndex (funcTypes : List FuncSignature) (sig : FuncSignature) : Option Nat :=
  funcTypes.findIdx? fun funcType => decide (funcType = sig)

def resolveFuncType (funcTypes : List FuncSignature) (decl : FuncDeclaration) :
    FuncDeclaration × List FuncSignature :=
  match decl.typeVar with
  | some var =>
      if decl.sig.isEmpty then
        ({ decl with sig := (getFuncType find funcTypes var).getD decl.sig }, funcTypes)
      else
        (decl, funcTypes)
  | none =>
      match getFuncTypeIndex funcTypes decl.sig with
      | some _ => (decl, funcTypes)
      | none => (decl, funcTypes ++ [decl.sig])

def resolveBlockDeclaration (funcTypes : List FuncSignature) (decl : FuncDeclaration) :
    FuncDeclaration × List FuncSignature :=
  if decl.sig.paramTypes.length ≠ 0 ∨ decl.sig.resultTypes.length > 1 then
    resolveFuncType find funcTypes decl
  else
    (decl, funcTypes)

/-- The visitor with `ResolveFuncTypesExprVisitorDelegate`. -/
def resolveExprs : List FuncSignature -> ExprList -> ExprList × List FuncSignature
  | funcTypes, .nil => (.nil, funcTypes)
  | funcTypes, .plain rest =>
      let (rest, funcTypes) := resolveExprs funcTypes rest
      (.plain rest, funcTypes)
  | funcTypes, .callIndirect decl rest =>
      let (decl, funcTypes) := resolveFuncType find funcTypes decl
      let (rest, funcTypes) := resolveExprs funcTypes rest
      (.callIndirect decl rest, funcTypes)
  | funcTypes, .body decl exprs rest =>
      let (decl, funcTypes) := resolveBlockDeclaration find funcTypes decl
      let (exprs, funcTypes) := resolveExprs funcTypes exprs
      let (rest, funcTypes) := resolveExprs funcTypes rest
      (.body decl exprs rest, funcTypes)
  | funcTypes, .arms decl first second rest =>
      let (decl, funcTypes) := resolveBlockDeclaration find funcTypes decl
      let (first, funcTypes) := resolveExprs funcTypes first
      let (second, funcTypes) := resolveExprs funcTypes second
      let (rest, funcTypes) := resolveExprs funcTypes rest
      (.arms decl first second rest, funcTypes)

/-- The loop of `ResolveFuncTypes` for one field. -/
def resolveField (funcTypes : List FuncSignature) :
    ModuleField -> ModuleField × List FuncSignature
  | .func func =>
      let (decl, funcTypes) := resolveFuncType find funcTypes func.decl
      let (exprs, funcTypes) := resolveExprs find funcTypes func.exprs
      (.func { func with decl, exprs }, funcTypes)
  | .funcImport decl =>
      let (decl, funcTypes) := resolveFuncType find funcTypes decl
      (.funcImport decl, funcTypes)
  | .initializer exprs => (.initializer exprs, funcTypes)

end

/-- A field that is appended declares a type, and has no name. -/
def resolveFuncTypes (iteration : IterationOrder) (module : Module) : Module :=
  let find := findIndex iteration module.funcTypeBindings
  let (fields, funcTypes) := thread (resolveField find) module.funcTypes module.fields
  { module with fields, funcTypes }

/-! ## Validating -/

section

variable (find : Var -> Option Nat) (funcTypes : List FuncSignature)

/-- `CheckTypes`, where `true` stands for an error.  A parsed type is never `Any`. -/
def checkTypes (actual expected : List ValueType) : Bool :=
  if actual.length = expected.length then
    (List.zipWith (fun actual expected => decide (expected ≠ actual)) actual expected).any id
  else
    true

/-- `CheckFuncTypeVar` -/
def checkFuncTypeVar (var : Var) : Bool := (getFuncType find funcTypes var).isNone

def checkFuncSignature (decl : FuncDeclaration) : Bool :=
  match decl.typeVar with
  | some var =>
      match getFuncType find funcTypes var with
      | some sig =>
          checkTypes decl.sig.resultTypes sig.resultTypes ||
            checkTypes decl.sig.paramTypes sig.paramTypes
      | none => true
  | none => false

def checkBlockDeclaration (multiValue : Bool) (decl : FuncDeclaration) : Bool :=
  (decide (decl.sig.paramTypes.length > 0) && !multiValue) ||
    (decide (decl.sig.resultTypes.length > 1) && !multiValue) ||
      checkFuncSignature find funcTypes decl

/-- What `OnCallIndirectExpr` and `CheckImport` say about a declaration. -/
def checkTypeVar (decl : FuncDeclaration) : Bool :=
  match decl.typeVar with
  | some var => checkFuncTypeVar find funcTypes var
  | none => false

/-- The visitor with `CheckFuncSignatureExprVisitorDelegate`. -/
def checkExprSignatures : ExprList -> Bool
  | .nil => false
  | .plain rest => checkExprSignatures rest
  | .callIndirect decl rest => checkFuncSignature find funcTypes decl || checkExprSignatures rest
  | .body _ exprs rest => checkExprSignatures exprs || checkExprSignatures rest
  | .arms _ first second rest =>
      checkExprSignatures first || checkExprSignatures second || checkExprSignatures rest

def checkFieldSignatures : ModuleField -> Bool
  | .func func =>
      checkFuncSignature find funcTypes func.decl || checkExprSignatures find funcTypes func.exprs
  | .funcImport _ | .initializer _ => false

/-- What `CheckExprList` says about declarations. -/
def checkExprList (multiValue : Bool) : ExprList -> Bool
  | .nil => false
  | .plain rest => checkExprList multiValue rest
  | .callIndirect decl rest => checkTypeVar find funcTypes decl || checkExprList multiValue rest
  | .body decl exprs rest =>
      checkBlockDeclaration find funcTypes multiValue decl || checkExprList multiValue exprs ||
        checkExprList multiValue rest
  | .arms decl first second rest =>
      checkBlockDeclaration find funcTypes multiValue decl || checkExprList multiValue first ||
        checkExprList multiValue second || checkExprList multiValue rest

/-- A `CheckFunc` that finds too many results does not go into the function. -/
def checkFunc (multiValue : Bool) (func : Func) : Bool :=
  checkFuncSignature find funcTypes func.decl ||
    if !multiValue && decide (func.decl.sig.resultTypes.length > 1) then true
    else checkExprList find funcTypes multiValue func.exprs

/-- Whether an expression of the list declares something. -/
def ExprList.declares : ExprList -> Bool
  | .nil => false
  | .plain rest => rest.declares
  | .callIndirect _ _ | .body _ _ _ | .arms _ _ _ _ => true

/-- What `CheckModule` says about the declarations of a field.  An initializer
is a single constant or global. -/
def checkField (multiValue : Bool) : ModuleField -> Bool
  | .func func => checkFunc find funcTypes multiValue func
  | .funcImport decl => checkTypeVar find funcTypes decl
  | .initializer exprs => exprs.declares

end

/-- `ValidateFuncSignatures`, where `true` stands for failure. -/
def validateFuncSignatures (iteration : IterationOrder) (module : Module) : Bool :=
  module.fields.any
    (checkFieldSignatures (findIndex iteration module.funcTypeBindings) module.funcTypes)

/-- `ValidateModule`, where `others` is whether it finds something else. -/
def validateModule (iteration : IterationOrder) (multiValue others : Bool) (module : Module) :
    Bool :=
  others || module.fields.any
    (checkField (findIndex iteration module.funcTypeBindings) module.funcTypes multiValue)

end TypeUses
end Text
end WasmSandboxing
