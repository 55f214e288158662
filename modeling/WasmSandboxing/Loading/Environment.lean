import WasmSandboxing.Binary.Sections

namespace WasmSandboxing
namespace Loading

open Binary

/-!
# The environment that modules are loaded into

What `Environment` holds of modules and of what they share, and the marks that
it can be reset to.  Value types are the codes of `Type`.
-/

structure FuncSignature where
  paramTypes : List Int
  resultTypes : List Int
  deriving DecidableEq

/-- The bytes of the union; those that a type does not use are zero. -/
abbrev Value := BitVec 128

def Value.i32 (value : Value) : BitVec 32 := value.setWidth 32

structure TypedValue where
  type : Int
  value : Value
  deriving DecidableEq

/-! ## Codes of `Type` -/

def i32Type : Int := -0x01
def i64Type : Int := -0x02
def f32Type : Int := -0x03
def f64Type : Int := -0x04
def v128Type : Int := -0x05
def voidType : Int := -0x40

/-! ## Entities -/

structure DefinedFunc where
  sigIndex : Nat
  offset : Nat
  localDeclCount : Nat
  localCount : Nat
  paramAndLocalTypes : List Int
  deriving DecidableEq

inductive Func where
  | defined (func : DefinedFunc)
  | host (moduleName fieldName : Name) (sigIndex : Nat)
  deriving DecidableEq

def Func.sigIndex : Func -> Nat
  | .defined func => func.sigIndex
  | .host _ _ sigIndex => sigIndex

/-- An entry that is not set is `invalidIndex`. -/
structure Table where
  limits : Limits
  funcIndexes : List Nat
  deriving DecidableEq

structure Memory where
  pageLimits : Limits
  data : List (BitVec 8)
  deriving DecidableEq

structure Global where
  typedValue : TypedValue
  mutable_ : Bool
  deriving DecidableEq

/-- `WABT_PAGE_SIZE` -/
def pageSize : Nat := 0x10000

def Table.ofLimits (limits : Limits) : Table :=
  ⟨limits, List.replicate limits.initial Read.invalidIndex⟩

def Memory.ofLimits (limits : Limits) : Memory :=
  ⟨limits, List.replicate (limits.initial * pageSize) 0⟩

/-- `std::vector::resize` -/
def resize (values : List Element) (size : Nat) (filler : Element) : List Element :=
  values.take size ++ List.replicate (size - values.length) filler

/-! ## Modules -/

structure Export where
  name : Name
  kind : ExternalKind
  index : Nat
  deriving DecidableEq

/-- The entries of a `BindingHash`, of which `find` gives the first of a name. -/
abbrev BindingHash := List (Name × Nat)

def BindingHash.findIndex (bindings : BindingHash) (name : Name) : Option Nat :=
  (bindings.find? fun binding => binding.1 = name).map (·.2)

/-- `HostImportDelegate`: what the host makes of an import, or why it refuses it.
Of a function it tells whether the callback is set. -/
structure HostImportDelegate where
  importFunc : Name -> Name -> FuncSignature -> Except Message Bool
  importTable : Name -> Name -> Table -> Except Message Table
  importMemory : Name -> Name -> Memory -> Except Message Memory
  importGlobal : Name -> Name -> Global -> Except Message Global

structure FuncImport where
  moduleName : Name
  fieldName : Name
  sigIndex : Nat
  deriving DecidableEq

structure LimitsImport where
  moduleName : Name
  fieldName : Name
  limits : Limits
  deriving DecidableEq

structure GlobalImport where
  moduleName : Name
  fieldName : Name
  type : Int
  mutable_ : Bool
  deriving DecidableEq

/-- The parts of `DefinedModule` that are its own.  The mappings are those that
its bodies are compiled with: the indices that stand in the `istream`. -/
structure DefinedModule where
  funcImports : List FuncImport
  tableImports : List LimitsImport
  memoryImports : List LimitsImport
  globalImports : List GlobalImport
  startFuncIndex : Option Nat
  istreamStart : Nat
  istreamEnd : Nat
  funcIndexMapping : List Nat
  globalIndexMapping : List Nat
  deriving DecidableEq

inductive ModuleKind where
  | defined (module : DefinedModule)
  | host (importDelegate : HostImportDelegate)

structure Module where
  name : Name
  exports : List Export
  exportBindings : BindingHash
  memoryIndex : Option Nat
  tableIndex : Option Nat
  kind : ModuleKind

namespace Module

def getExport (module : Module) (name : Name) : Option Export :=
  (module.exportBindings.findIndex name).bind fun index => module.exports[index]?

/-- Without the check for duplicates, which host modules are not subject to. -/
def addExport (module : Module) (kind : ExternalKind) (index : Nat) (name : Name) : Module :=
  { module with
    exports := module.exports ++ [⟨name, kind, index⟩]
    exportBindings := module.exportBindings ++ [(name, module.exports.length)] }

def isHost (module : Module) : Bool :=
  match module.kind with
  | .defined _ => false
  | .host _ => true

end Module

/-! ## The environment -/

structure Environment where
  modules : List Module
  sigs : List FuncSignature
  funcs : List Func
  memories : List Memory
  tables : List Table
  globals : List Global
  istream : List (BitVec 8)
  moduleBindings : BindingHash
  registeredModuleBindings : BindingHash

/-- `Environment::MarkPoint` -/
structure MarkPoint where
  modulesSize : Nat
  sigsSize : Nat
  funcsSize : Nat
  memoriesSize : Nat
  tablesSize : Nat
  globalsSize : Nat
  istreamSize : Nat

namespace Environment

def findRegisteredModule (env : Environment) (name : Name) : Option (Nat × Module) :=
  (env.registeredModuleBindings.findIndex name).bind fun index =>
    env.modules[index]?.map fun module => (index, module)

def funcSignaturesAreEqual (env : Environment) (first second : Nat) : Bool :=
  first = second || env.sigs[first]? = env.sigs[second]?

def mark (env : Environment) : MarkPoint where
  modulesSize := env.modules.length
  sigsSize := env.sigs.length
  funcsSize := env.funcs.length
  memoriesSize := env.memories.length
  tablesSize := env.tables.length
  globalsSize := env.globals.length
  istreamSize := env.istream.length

def resetToMarkPoint (env : Environment) (mark : MarkPoint) : Environment where
  modules := env.modules.take mark.modulesSize
  sigs := env.sigs.take mark.sigsSize
  funcs := env.funcs.take mark.funcsSize
  memories := env.memories.take mark.memoriesSize
  tables := env.tables.take mark.tablesSize
  globals := env.globals.take mark.globalsSize
  istream := env.istream.take mark.istreamSize
  -- Destroy entries in the binding hash.
  moduleBindings := env.moduleBindings.filter fun binding =>
    !((env.modules.drop mark.modulesSize).any fun module =>
      module.name != [] && module.name = binding.1)
  registeredModuleBindings := env.registeredModuleBindings.filter fun binding =>
    binding.2 < mark.modulesSize

def appendHostModule (env : Environment) (name : Name) (importDelegate : HostImportDelegate) :
    Environment :=
  { env with
    modules := env.modules ++ [⟨name, [], [], none, none, .host importDelegate⟩]
    registeredModuleBindings :=
      env.registeredModuleBindings ++ [(name, env.modules.length)] }

/-! ## `EmplaceBack…` -/

def addSig (env : Environment) (sig : FuncSignature) : Environment :=
  { env with sigs := env.sigs ++ [sig] }

def addFunc (env : Environment) (func : Func) : Environment :=
  { env with funcs := env.funcs ++ [func] }

def addTable (env : Environment) (table : Table) : Environment :=
  { env with tables := env.tables ++ [table] }

def addMemory (env : Environment) (memory : Memory) : Environment :=
  { env with memories := env.memories ++ [memory] }

def addGlobal (env : Environment) (global : Global) : Environment :=
  { env with globals := env.globals ++ [global] }

/-! ## Changes in place -/

def setModule (env : Environment) (index : Nat) (module : Module) : Environment :=
  { env with modules := env.modules.set index module }

def setFunc (env : Environment) (index : Nat) (func : Func) : Environment :=
  { env with funcs := env.funcs.set index func }

def setGlobal (env : Environment) (index : Nat) (global : Global) : Environment :=
  { env with globals := env.globals.set index global }

end Environment

end Loading
end WasmSandboxing
