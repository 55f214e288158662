import WasmSandboxing.Loading.Loader

namespace WasmSandboxing
namespace Loading

open Binary

/-!
# What an import finds

An import names an export of a registered module.  One of a defined module is
there or is not; one of a host module is what the host makes of the import.
-/

/-- The entity that a module exports under a name, if it is of the kind. -/
def Module.exported (module : Module) (kind : ExternalKind) (name : Name) : Option Nat :=
  (module.getExport name).bind fun export_ =>
    if export_.kind = kind then some export_.index else none

/-- The type of a global and whether it is mutable. -/
def Global.declares (global : Global) : Int × Bool :=
  (global.typedValue.type, global.mutable_)

variable {Code : Type}

namespace Loader

/-- What the host makes of an import, or what is stored of the entity that is
exported. -/
def finds {Found : Type} (loader : Loader Code) (moduleName fieldName : Name) (kind : ExternalKind)
    (made : HostImportDelegate -> Option Found) (stored : Nat -> Option Found) : Option Found :=
  (loader.env.findRegisteredModule moduleName).bind fun found =>
    match found.2.kind with
    | .host importDelegate => made importDelegate
    | .defined _ => (found.2.exported kind fieldName).bind stored

/-- The signature of the function that an import finds; a function of the host
is given the one that is declared. -/
def importedSig (loader : Loader Code) (moduleName fieldName : Name) (declared : FuncSignature) :
    Option FuncSignature :=
  loader.finds moduleName fieldName .func
    (fun importDelegate =>
      match importDelegate.importFunc moduleName fieldName declared with
      | .ok true => some declared
      | _ => none)
    (fun index => loader.env.funcs[index]?.bind fun func => loader.env.sigs[func.sigIndex]?)

def importedTable (loader : Loader Code) (moduleName fieldName : Name) (declared : Limits) :
    Option Limits :=
  loader.finds moduleName fieldName .table
    (fun importDelegate =>
      (importDelegate.importTable moduleName fieldName (.ofLimits declared)).toOption.map (·.limits))
    (fun index => loader.env.tables[index]?.map (·.limits))

def importedMemory (loader : Loader Code) (moduleName fieldName : Name) : Option Limits :=
  loader.finds moduleName fieldName .memory
    (fun importDelegate =>
      (importDelegate.importMemory moduleName fieldName noMemory).toOption.map (·.pageLimits))
    (fun index => loader.env.memories[index]?.map (·.pageLimits))

/-- The type and the mutability of the global that an import finds. -/
def importedGlobal (loader : Loader Code) (moduleName fieldName : Name) (type : Int)
    (mutable_ : Bool) : Option (Int × Bool) :=
  loader.finds moduleName fieldName .global
    (fun importDelegate =>
      (importDelegate.importGlobal moduleName fieldName ⟨ofType type, mutable_⟩).toOption.map
        Global.declares)
    (fun index => loader.env.globals[index]?.map Global.declares)

/-- A table or a memory may be imported as one of the limits that are declared. -/
def MatchesLimits (declared actual : Limits) : Prop :=
  declared.initial ≤ actual.initial ∧
    (declared.hasMax = true -> actual.hasMax = true ∧ actual.max ≤ declared.max)

/-- An import finds an entity of the type that it declares.  No module exports
exceptions. -/
def ImportFits (loader : Loader Code) : Event -> Prop
  | .onImportFunc _ moduleName fieldName _ sigIndex =>
      exists envSigIndex sig, loader.sigIndexMapping[sigIndex]? = some envSigIndex ∧
        loader.env.sigs[envSigIndex]? = some sig ∧
        loader.importedSig moduleName fieldName sig = some sig
  | .onImportTable _ moduleName fieldName _ _ elemLimits =>
      exists actual, loader.importedTable moduleName fieldName elemLimits = some actual ∧
        MatchesLimits elemLimits actual
  | .onImportMemory _ moduleName fieldName _ pageLimits =>
      exists actual, loader.importedMemory moduleName fieldName = some actual ∧
        MatchesLimits pageLimits actual
  | .onImportGlobal _ moduleName fieldName _ type mutable_ =>
      loader.importedGlobal moduleName fieldName type mutable_ = some (type, mutable_)
  | .onImportException _ _ _ _ _ => False
  | _ => True

/-- What makes the linking of an import exact: a global that it finds is as it
declares, the module has no table or memory yet if the one found would do, and
it is not one of an exception. -/
def LinkingExact (loader : Loader Code) : Event -> Prop
  | .onImportTable index moduleName fieldName tableIndex elemType elemLimits =>
      loader.tableIndex = none ∨
        ¬ loader.ImportFits
          (.onImportTable index moduleName fieldName tableIndex elemType elemLimits)
  | .onImportMemory index moduleName fieldName memoryIndex pageLimits =>
      loader.memoryIndex = none ∨
        ¬ loader.ImportFits (.onImportMemory index moduleName fieldName memoryIndex pageLimits)
  | .onImportGlobal _ moduleName fieldName _ type mutable_ =>
      forall found, loader.importedGlobal moduleName fieldName type mutable_ = some found ->
        found = (type, mutable_)
  | .onImportException _ _ _ _ _ => False
  | _ => True

end Loader

end Loading
end WasmSandboxing
