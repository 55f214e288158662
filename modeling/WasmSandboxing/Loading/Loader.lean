import WasmSandboxing.Binary.Deliver
import WasmSandboxing.Loading.Environment

namespace WasmSandboxing
namespace Loading

open Binary

/-!
# Loading a module into an environment

`BinaryReaderInterp` and `ReadBinaryInterp`.  The module that is loaded and the
part of the `istream` that is emitted for it stand apart from the environment
until the load ends.  What the callbacks of function bodies check and emit is a
parameter: they see everything and change the module's own code only.
-/

structure ElemSegmentInfo where
  table : Nat
  position : Nat
  funcIndex : Nat
  deriving DecidableEq

structure DataSegmentInfo where
  memory : Nat
  address : Nat
  data : List (BitVec 8)
  deriving DecidableEq

/-- `BinaryReaderInterp` with the fields of `module_`; `Code` is what the
callbacks of bodies keep among them. -/
structure Loader (Code : Type) where
  env : Environment
  exports : List Export
  exportBindings : BindingHash
  memoryIndex : Option Nat
  tableIndex : Option Nat
  defined : DefinedModule
  emitted : List (BitVec 8)
  code : Code
  currentFunc : Option Nat
  sigIndexMapping : List Nat
  funcIndexMapping : List Nat
  globalIndexMapping : List Nat
  numFuncImports : Nat
  numGlobalImports : Nat
  elemSegmentInfos : List ElemSegmentInfo
  dataSegmentInfos : List DataSegmentInfo
  /-- Nothing stands for the value that the constructor leaves unset. -/
  initExprValue : Option TypedValue
  tableOffset : Nat

/-- What the callbacks of bodies do: type checking, and the code of the module
with what they add to it and patch in it. -/
structure Compiler (Code : Type) where
  start : Code
  answer : Event -> Loader Code -> Code × List (BitVec 8) × Option Failure

variable {Code : Type}

namespace Loader

abbrev Outcome (Code : Type) := Loader Code × Option Failure

def done (loader : Loader Code) : Outcome Code :=
  (loader, none)

def refuse (loader : Loader Code) (message : String) : Outcome Code :=
  (loader, some (.error (.text message)))

/-- A failed assertion, or an access out of range. -/
def fault (loader : Loader Code) (what : String) : Outcome Code :=
  (loader, some (.fault what))

/-! ## Types -/

def setEnv (loader : Loader Code) (env : Environment) : Loader Code :=
  { loader with env }

def setDefined (loader : Loader Code) (defined : DefinedModule) : Loader Code :=
  { loader with defined }

def onTypeCount (loader : Loader Code) (count : Nat) : Outcome Code :=
  done { loader with
    sigIndexMapping := (List.range count).map (loader.env.sigs.length + ·) }

def onType (loader : Loader Code) (index : Nat) (paramTypes resultTypes : List Int) :
    Outcome Code :=
  if loader.sigIndexMapping[index]? = some loader.env.sigs.length then
    done (loader.setEnv (loader.env.addSig ⟨paramTypes, resultTypes⟩))
  else
    loader.fault "TranslateSigIndexToEnv(index) == env_->GetFuncSignatureCount()"

/-! ## Imports -/

/-- `CheckImportLimits`, of what is found -/
def importLimitsError (declared actual : Limits) : Option String :=
  if actual.initial < declared.initial then
    some ("actual size (" ++ toString actual.initial ++ ") smaller than declared (" ++
      toString declared.initial ++ ")")
  else if declared.hasMax then
    if !actual.hasMax then
      some ("max size (unspecified) larger than declared (" ++ toString declared.max ++ ")")
    else if declared.max < actual.max then
      some ("max size (" ++ toString actual.max ++ ") larger than declared (" ++
        toString declared.max ++ ")")
    else
      none
  else
    none

/-- `AppendExport` to the host module at an index. -/
def appendHostExport (loader : Loader Code) (host : Nat × Module) (kind : ExternalKind)
    (itemIndex : Nat) (name : Name) : Loader Code :=
  loader.setEnv (loader.env.setModule host.1 (host.2.addExport kind itemIndex name))

/-- How an import goes on with a module of either sort.  The module is found
among those that are registered; one that is defined must export the field. -/
def link (loader : Loader Code) (moduleName fieldName : Name) (kind : ExternalKind)
    (host : Nat × Module -> HostImportDelegate -> Outcome Code)
    (defined : Export -> Outcome Code) : Outcome Code :=
  match loader.env.findRegisteredModule moduleName with
  | none => loader.refuse "unknown import module"
  | some found =>
      match found.2.kind with
      | .host importDelegate => host found importDelegate
      | .defined _ =>
          match found.2.getExport fieldName with
          | none => loader.refuse "unknown module field"
          | some export_ =>
              if export_.kind = kind then
                defined export_
              else
                loader.refuse "expected import to have another kind"

/-! ### Functions -/

def addFuncImport (loader : Loader Code) (envIndex : Nat) : Loader Code :=
  { loader with
    funcIndexMapping := loader.funcIndexMapping ++ [envIndex]
    numFuncImports := loader.numFuncImports + 1 }

def importHostFunc (loader : Loader Code) (moduleName fieldName : Name) (sigIndex : Nat)
    (host : Nat × Module) (importDelegate : HostImportDelegate) : Outcome Code :=
  let made := loader.setEnv (loader.env.addFunc (.host moduleName fieldName sigIndex))
  match importDelegate.importFunc moduleName fieldName
      ((loader.env.sigs[sigIndex]?).getD ⟨[], []⟩) with
  | .error message => (made, some (.error message))
  | .ok false => made.fault "func->callback"
  | .ok true =>
      done ((made.appendHostExport host .func loader.env.funcs.length fieldName).addFuncImport
        loader.env.funcs.length)

def importDefinedFunc (loader : Loader Code) (sigIndex : Nat) (export_ : Export) : Outcome Code :=
  match loader.env.funcs[export_.index]? with
  | none => loader.fault "index < funcs_.size()"
  | some func =>
      if loader.env.funcSignaturesAreEqual sigIndex func.sigIndex then
        done (loader.addFuncImport export_.index)
      else
        loader.refuse "import signature mismatch"

def onImportFunc (loader : Loader Code) (moduleName fieldName : Name) (sigIndex : Nat) :
    Outcome Code :=
  match loader.sigIndexMapping[sigIndex]? with
  | none => loader.fault "sig_index < sig_index_mapping_.size()"
  | some envSigIndex =>
      let loader := loader.setDefined { loader.defined with
        funcImports := loader.defined.funcImports ++ [⟨moduleName, fieldName, envSigIndex⟩] }
      loader.link moduleName fieldName .func
        (loader.importHostFunc moduleName fieldName envSigIndex)
        (loader.importDefinedFunc envSigIndex)

/-! ### Tables -/

def importHostTable (loader : Loader Code) (moduleName fieldName : Name) (elemLimits : Limits)
    (host : Nat × Module) (importDelegate : HostImportDelegate) : Outcome Code :=
  match importDelegate.importTable moduleName fieldName (.ofLimits elemLimits) with
  | .error message => (loader.setEnv (loader.env.addTable (.ofLimits elemLimits)),
      some (.error message))
  | .ok table =>
      match importLimitsError elemLimits table.limits with
      | some message => (loader.setEnv (loader.env.addTable table)).refuse message
      | none =>
          let made := loader.setEnv (loader.env.addTable { table with
            funcIndexes := resize table.funcIndexes table.limits.initial 0 })
          done ({ made with tableIndex := some loader.env.tables.length }.appendHostExport host
            .table loader.env.tables.length fieldName)

def importDefinedTable (loader : Loader Code) (elemLimits : Limits) (export_ : Export) :
    Outcome Code :=
  match loader.env.tables[export_.index]? with
  | none => loader.fault "index < tables_.size()"
  | some table =>
      match importLimitsError elemLimits table.limits with
      | some message => loader.refuse message
      | none => done { loader with tableIndex := some export_.index }

def onImportTable (loader : Loader Code) (moduleName fieldName : Name) (elemLimits : Limits) :
    Outcome Code :=
  if loader.tableIndex.isSome then
    loader.refuse "only one table allowed"
  else
    let loader := loader.setDefined { loader.defined with
      tableImports := loader.defined.tableImports ++ [⟨moduleName, fieldName, elemLimits⟩] }
    loader.link moduleName fieldName .table
      (loader.importHostTable moduleName fieldName elemLimits)
      (loader.importDefinedTable elemLimits)

/-! ### Memories -/

/-- `Memory()` -/
def noMemory : Memory :=
  ⟨⟨0, 0, false, false⟩, []⟩

def importHostMemory (loader : Loader Code) (moduleName fieldName : Name) (pageLimits : Limits)
    (host : Nat × Module) (importDelegate : HostImportDelegate) : Outcome Code :=
  match importDelegate.importMemory moduleName fieldName noMemory with
  | .error message => (loader.setEnv (loader.env.addMemory noMemory), some (.error message))
  | .ok memory =>
      match importLimitsError pageLimits memory.pageLimits with
      | some message => (loader.setEnv (loader.env.addMemory memory)).refuse message
      | none =>
          let made := loader.setEnv (loader.env.addMemory memory)
          done ({ made with memoryIndex := some loader.env.memories.length }.appendHostExport host
            .memory loader.env.memories.length fieldName)

def importDefinedMemory (loader : Loader Code) (pageLimits : Limits) (export_ : Export) :
    Outcome Code :=
  match loader.env.memories[export_.index]? with
  | none => loader.fault "index < memories_.size()"
  | some memory =>
      match importLimitsError pageLimits memory.pageLimits with
      | some message => loader.refuse message
      | none => done { loader with memoryIndex := some export_.index }

def onImportMemory (loader : Loader Code) (moduleName fieldName : Name) (pageLimits : Limits) :
    Outcome Code :=
  if loader.memoryIndex.isSome then
    loader.refuse "only one memory allowed"
  else
    let loader := loader.setDefined { loader.defined with
      memoryImports :=
        loader.defined.memoryImports ++ [⟨moduleName, fieldName, pageLimits⟩] }
    loader.link moduleName fieldName .memory
      (loader.importHostMemory moduleName fieldName pageLimits)
      (loader.importDefinedMemory pageLimits)

/-! ### Globals -/

def addGlobalImport (loader : Loader Code) (envIndex : Nat) : Loader Code :=
  { loader with
    globalIndexMapping := loader.globalIndexMapping ++ [envIndex]
    numGlobalImports := loader.numGlobalImports + 1 }

/-- `TypedValue(type)`, whose value is not set. -/
def ofType (type : Int) : TypedValue :=
  ⟨type, 0⟩

def importHostGlobal (loader : Loader Code) (moduleName fieldName : Name) (type : Int)
    (mutable_ : Bool) (host : Nat × Module) (importDelegate : HostImportDelegate) :
    Outcome Code :=
  match importDelegate.importGlobal moduleName fieldName ⟨ofType type, mutable_⟩ with
  | .error message => (loader.setEnv (loader.env.addGlobal ⟨ofType type, mutable_⟩),
      some (.error message))
  | .ok global =>
      let made := loader.setEnv (loader.env.addGlobal global)
      done ((made.appendHostExport host .global loader.env.globals.length
        fieldName).addGlobalImport loader.env.globals.length)

/-- TODO: check type and mutability -/
def importDefinedGlobal (loader : Loader Code) (export_ : Export) : Outcome Code :=
  done (loader.addGlobalImport export_.index)

def onImportGlobal (loader : Loader Code) (moduleName fieldName : Name) (type : Int)
    (mutable_ : Bool) : Outcome Code :=
  let loader := loader.setDefined { loader.defined with
    globalImports :=
      loader.defined.globalImports ++ [⟨moduleName, fieldName, type, mutable_⟩] }
  loader.link moduleName fieldName .global
    (loader.importHostGlobal moduleName fieldName type mutable_)
    loader.importDefinedGlobal

/-! ## Functions, tables and memories -/

def onFunctionCount (loader : Loader Code) (count : Nat) : Outcome Code :=
  done { loader with
    funcIndexMapping :=
      loader.funcIndexMapping ++ (List.range count).map (loader.env.funcs.length + ·) }

def onFunction (loader : Loader Code) (sigIndex : Nat) : Outcome Code :=
  match loader.sigIndexMapping[sigIndex]? with
  | none => loader.fault "sig_index < sig_index_mapping_.size()"
  | some envSigIndex =>
      done (loader.setEnv (loader.env.addFunc
        (.defined ⟨envSigIndex, Read.invalidIndex, 0, 0, []⟩)))

def onTable (loader : Loader Code) (elemLimits : Limits) : Outcome Code :=
  if loader.tableIndex.isSome then
    loader.refuse "only one table allowed"
  else
    done { loader with
      env := loader.env.addTable (.ofLimits elemLimits)
      tableIndex := some loader.env.tables.length }

def onMemory (loader : Loader Code) (pageLimits : Limits) : Outcome Code :=
  if loader.memoryIndex.isSome then
    loader.refuse "only one memory allowed"
  else
    done { loader with
      env := loader.env.addMemory (.ofLimits pageLimits)
      memoryIndex := some loader.env.memories.length }

/-! ## Globals and initialisers -/

def onGlobalCount (loader : Loader Code) (count : Nat) : Outcome Code :=
  done { loader with
    globalIndexMapping :=
      loader.globalIndexMapping ++ (List.range count).map (loader.env.globals.length + ·) }

def beginGlobal (loader : Loader Code) (index : Nat) (type : Int) (mutable_ : Bool) :
    Outcome Code :=
  if loader.globalIndexMapping[index]? = some loader.env.globals.length then
    done { loader with
      env := loader.env.addGlobal ⟨ofType type, mutable_⟩
      initExprValue := some ⟨voidType, (loader.initExprValue.map TypedValue.value).getD 0⟩ }
  else
    loader.fault "TranslateGlobalIndexToEnv(index) == env_->GetGlobalCount()"

/-- The global that an index of the module stands for, with its index in the
environment. -/
def globalAt (loader : Loader Code) (index : Nat) : Option (Nat × Global) :=
  loader.globalIndexMapping[index]?.bind fun envIndex =>
    loader.env.globals[envIndex]?.map fun global => (envIndex, global)

def endGlobalInitExpr (loader : Loader Code) (index : Nat) : Outcome Code :=
  match loader.globalAt index, loader.initExprValue with
  | some (envIndex, global), some value =>
      if value.type = global.typedValue.type then
        done (loader.setEnv (loader.env.setGlobal envIndex { global with typedValue := value }))
      else
        loader.refuse "type mismatch in global"
  | _, _ => loader.fault "index < globals_.size()"

def setInitExpr (loader : Loader Code) (value : TypedValue) : Outcome Code :=
  done { loader with initExprValue := some value }

def onInitExpr (loader : Loader Code) : InitExpr -> Outcome Code
  | .i32Const value => loader.setInitExpr ⟨i32Type, value.setWidth 128⟩
  | .i64Const value => loader.setInitExpr ⟨i64Type, value.setWidth 128⟩
  | .f32Const bits => loader.setInitExpr ⟨f32Type, bits.setWidth 128⟩
  | .f64Const bits => loader.setInitExpr ⟨f64Type, bits.setWidth 128⟩
  | .v128Const bits => loader.setInitExpr ⟨v128Type, bits⟩
  | .getGlobal index =>
      if loader.numGlobalImports ≤ index then
        loader.refuse "initializer expression can only reference an imported global"
      else
        match loader.globalAt index with
        | none => loader.fault "index < globals_.size()"
        | some (_, global) =>
            if global.mutable_ then
              loader.refuse "initializer expression cannot reference a mutable global"
            else
              loader.setInitExpr global.typedValue

/-! ## Exports and the start function -/

/-- `AppendExport` to the module that is loaded. -/
def appendExport (loader : Loader Code) (kind : ExternalKind) (itemIndex : Nat) (name : Name) :
    Outcome Code :=
  if (loader.exportBindings.findIndex name).isSome then
    loader.refuse "duplicate export"
  else
    done { loader with
      exports := loader.exports ++ [⟨name, kind, itemIndex⟩]
      exportBindings := loader.exportBindings ++ [(name, loader.exports.length)] }

def onExport (loader : Loader Code) (kind : ExternalKind) (itemIndex : Nat) (name : Name) :
    Outcome Code :=
  match kind with
  | .func =>
      match loader.funcIndexMapping[itemIndex]? with
      | none => loader.fault "func_index < func_index_mapping_.size()"
      | some envIndex => loader.appendExport kind envIndex name
  | .table => loader.appendExport kind (loader.tableIndex.getD Read.invalidIndex) name
  | .memory => loader.appendExport kind (loader.memoryIndex.getD Read.invalidIndex) name
  | .global =>
      match loader.globalAt itemIndex with
      | none => loader.fault "index < globals_.size()"
      | some (envIndex, global) =>
          if global.mutable_ then
            loader.refuse "mutable globals cannot be exported"
          else
            loader.appendExport kind envIndex name
  | .except => loader.fault "BinaryReaderInterp::OnExport(except) not implemented"

def onStartFunction (loader : Loader Code) (funcIndex : Nat) : Outcome Code :=
  match loader.funcIndexMapping[funcIndex]? with
  | none => loader.fault "func_index < func_index_mapping_.size()"
  | some envIndex =>
      match loader.env.funcs[envIndex]? with
      | none => loader.fault "index < funcs_.size()"
      | some func =>
          let sig := (loader.env.sigs[func.sigIndex]?).getD ⟨[], []⟩
          if sig.paramTypes.length ≠ 0 then
            loader.refuse "start function must be nullary"
          else if sig.resultTypes.length ≠ 0 then
            loader.refuse "start function must not return anything"
          else
            done { loader with
              defined := { loader.defined with startFuncIndex := some envIndex } }

/-! ## Segments -/

/-- The value that `EndElemSegmentInitExpr` and `OnDataSegmentData` assert to be
an i32. -/
def i32InitExpr (loader : Loader Code) : Option (BitVec 32) :=
  loader.initExprValue.bind fun value =>
    if value.type = i32Type then some value.value.i32 else none

def endElemSegmentInitExpr (loader : Loader Code) : Outcome Code :=
  match loader.i32InitExpr with
  | none => loader.fault "init_expr_value_.type == Type::I32"
  | some value => done { loader with tableOffset := value.toNat }

def tableOf (loader : Loader Code) : Option (Nat × Table) :=
  loader.tableIndex.bind fun index => loader.env.tables[index]?.map fun table => (index, table)

def memoryOf (loader : Loader Code) : Option (Nat × Memory) :=
  loader.memoryIndex.bind fun index =>
    loader.env.memories[index]?.map fun memory => (index, memory)

def onElemSegmentFunctionIndexCount (loader : Loader Code) (count : Nat) : Outcome Code :=
  match loader.tableOf with
  | none => loader.fault "module_->table_index != kInvalidIndex"
  | some (_, table) =>
      -- The sum is one of 32 bits.
      if table.funcIndexes.length < loader.tableOffset ∨
          table.funcIndexes.length < (loader.tableOffset + count) % 0x100000000 then
        loader.refuse "elem segment is out of bounds"
      else
        loader.done

def onElemSegmentFunctionIndex (loader : Loader Code) (funcIndex : Nat) : Outcome Code :=
  match loader.funcIndexMapping[funcIndex]? with
  | none => loader.refuse "invalid func_index"
  | some envIndex =>
      match loader.tableOf with
      | none => loader.fault "index < tables_.size()"
      | some (table, _) =>
          done { loader with
            elemSegmentInfos :=
              loader.elemSegmentInfos ++ [⟨table, loader.tableOffset, envIndex⟩]
            tableOffset := (loader.tableOffset + 1) % 0x100000000 }

def onDataSegmentData (loader : Loader Code) (data : List (BitVec 8)) : Outcome Code :=
  match loader.memoryOf with
  | none => loader.fault "module_->memory_index != kInvalidIndex"
  | some (index, memory) =>
      match loader.i32InitExpr with
      | none => loader.fault "init_expr_value_.type == Type::I32"
      | some address =>
          if memory.data.length < address.toNat + data.length then
            loader.refuse "data segment is out of bounds"
          else if data = [] then
            loader.done
          else
            done { loader with
              dataSegmentInfos :=
                loader.dataSegmentInfos ++ [⟨index, address.toNat, data⟩] }

/-! ## Function bodies -/

/-- What the parameter makes of a callback: other code, or an error. -/
def compile (compiler : Compiler Code) (event : Event) (loader : Loader Code) : Outcome Code :=
  ({ loader with
      code := (compiler.answer event loader).1
      emitted := (compiler.answer event loader).2.1 },
    (compiler.answer event loader).2.2)

def beginFunctionBody (compiler : Compiler Code) (loader : Loader Code) (index : Nat) :
    Outcome Code :=
  match loader.funcIndexMapping[index]? with
  | none => loader.fault "func_index < func_index_mapping_.size()"
  | some envIndex =>
      if index < loader.numFuncImports then
        loader.fault "func_index >= num_func_imports_"
      else
        match loader.env.funcs[envIndex]? with
        | some (.defined func) =>
            let sig := (loader.env.sigs[func.sigIndex]?).getD ⟨[], []⟩
            compile compiler (.beginFunctionBody index) { loader with
              env := loader.env.setFunc envIndex (.defined { func with
                offset := loader.env.istream.length + loader.emitted.length
                localDeclCount := 0
                localCount := 0
                paramAndLocalTypes := func.paramAndLocalTypes ++ sig.paramTypes })
              currentFunc := some envIndex }
        | _ => loader.fault "cast<DefinedFunc>"

/-- A callback that changes the function whose body is read. -/
def changeCurrentFunc (compiler : Compiler Code) (event : Event) (loader : Loader Code)
    (change : DefinedFunc -> DefinedFunc) : Outcome Code :=
  match loader.currentFunc with
  | none => loader.fault "current_func_"
  | some envIndex =>
      match loader.env.funcs[envIndex]? with
      | some (.defined func) =>
          compile compiler event
            (loader.setEnv (loader.env.setFunc envIndex (.defined (change func))))
      | _ => loader.fault "current_func_"

def onLocalDeclCount (compiler : Compiler Code) (loader : Loader Code) (count : Nat) :
    Outcome Code :=
  changeCurrentFunc compiler (.onLocalDeclCount count) loader fun func =>
    { func with localDeclCount := count }

def onLocalDecl (compiler : Compiler Code) (loader : Loader Code) (index count : Nat)
    (type : Int) : Outcome Code :=
  changeCurrentFunc compiler (.onLocalDecl index count type) loader fun func =>
    { func with
      localCount := (func.localCount + count) % 0x100000000
      paramAndLocalTypes := func.paramAndLocalTypes ++ List.replicate count type }

def endFunctionBody (compiler : Compiler Code) (loader : Loader Code) (index : Nat) :
    Outcome Code :=
  compile compiler (.endFunctionBody index) { loader with currentFunc := none }

/-! ## The end of the module -/

def applyElem (tables : List Table) (info : ElemSegmentInfo) : List Table :=
  tables.modify info.table fun table =>
    { table with funcIndexes := table.funcIndexes.set info.position info.funcIndex }

/-- `memcpy` of a segment to its place. -/
def applyData (memories : List Memory) (info : DataSegmentInfo) : List Memory :=
  memories.modify info.memory fun memory =>
    { memory with
      data := memory.data.take info.address ++ info.data ++
        memory.data.drop (info.address + info.data.length) }

def endModule (loader : Loader Code) : Outcome Code :=
  done (loader.setEnv { loader.env with
    tables := loader.elemSegmentInfos.foldl applyElem loader.env.tables
    memories := loader.dataSegmentInfos.foldl applyData loader.env.memories })

/-! ## All callbacks -/

def answer (compiler : Compiler Code) : Answer (Loader Code) := fun item loader =>
  match item.1 with
  | .onTypeCount count => loader.onTypeCount count
  | .onType index paramTypes resultTypes => loader.onType index paramTypes resultTypes
  | .onImportFunc _ moduleName fieldName _ sigIndex =>
      loader.onImportFunc moduleName fieldName sigIndex
  | .onImportTable _ moduleName fieldName _ _ elemLimits =>
      loader.onImportTable moduleName fieldName elemLimits
  | .onImportMemory _ moduleName fieldName _ pageLimits =>
      loader.onImportMemory moduleName fieldName pageLimits
  | .onImportGlobal _ moduleName fieldName _ type mutable_ =>
      loader.onImportGlobal moduleName fieldName type mutable_
  | .onFunctionCount count => loader.onFunctionCount count
  | .onFunction _ sigIndex => loader.onFunction sigIndex
  | .onTable _ _ elemLimits => loader.onTable elemLimits
  | .onMemory _ pageLimits => loader.onMemory pageLimits
  | .onGlobalCount count => loader.onGlobalCount count
  | .beginGlobal index type mutable_ => loader.beginGlobal index type mutable_
  | .endGlobalInitExpr index => loader.endGlobalInitExpr index
  | .onInitExpr _ init => loader.onInitExpr init
  | .onExport _ kind itemIndex name => loader.onExport kind itemIndex name
  | .onStartFunction funcIndex => loader.onStartFunction funcIndex
  | .endElemSegmentInitExpr _ => loader.endElemSegmentInitExpr
  | .onElemSegmentFunctionIndexCount _ count => loader.onElemSegmentFunctionIndexCount count
  | .onElemSegmentFunctionIndex _ funcIndex => loader.onElemSegmentFunctionIndex funcIndex
  | .beginFunctionBody index => loader.beginFunctionBody compiler index
  | .onLocalDeclCount count => loader.onLocalDeclCount compiler count
  | .onLocalDecl index count type => loader.onLocalDecl compiler index count type
  | .onExpr instr => loader.compile compiler (.onExpr instr)
  | .endFunctionBody index => loader.endFunctionBody compiler index
  | .onDataSegmentData _ data => loader.onDataSegmentData data
  | .endModule => loader.endModule
  -- `BinaryReaderNop`
  | _ => loader.done

def start (compiler : Compiler Code) (env : Environment) : Loader Code where
  env := env
  exports := []
  exportBindings := []
  memoryIndex := none
  tableIndex := none
  defined := ⟨[], [], [], [], none, 0, 0, [], []⟩
  emitted := []
  code := compiler.start
  currentFunc := none
  sigIndexMapping := []
  funcIndexMapping := []
  globalIndexMapping := []
  numFuncImports := 0
  numGlobalImports := 0
  elemSegmentInfos := []
  dataSegmentInfos := []
  initExprValue := none
  tableOffset := 0

def module (loader : Loader Code) : Module where
  name := []
  exports := loader.exports
  exportBindings := loader.exportBindings
  memoryIndex := loader.memoryIndex
  tableIndex := loader.tableIndex
  kind := .defined { loader.defined with
    istreamStart := loader.env.istream.length
    istreamEnd := loader.env.istream.length + loader.emitted.length
    funcIndexMapping := loader.funcIndexMapping
    globalIndexMapping := loader.globalIndexMapping }

/-- The environment with what is loaded into it. -/
def environment (loader : Loader Code) : Environment :=
  { loader.env with
    modules := loader.env.modules ++ [loader.module]
    istream := loader.env.istream ++ loader.emitted }

end Loader

def readBinaryInterp (compiler : Compiler Code) (env : Environment) (start : ModuleReader) :
    Environment × Option Failure :=
  match readBinary (Loader.answer compiler) start (.start compiler env) with
  | (loader, none) => (loader.environment, none)
  | (loader, some failure) => (loader.environment.resetToMarkPoint env.mark, some failure)

end Loading
end WasmSandboxing
