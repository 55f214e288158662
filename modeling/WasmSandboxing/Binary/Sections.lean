import WasmSandboxing.Binary.CustomSections

namespace WasmSandboxing
namespace Binary

open Foundation

/-!
# The sections of a module

`ReadModule` and the readers of the known sections, in the order of the source.
-/

namespace Read

def readSignature (index : Nat) : Read Unit := do
  let form <- take fun reader => reader.readType "type form"
  require (form = -0x20) ("unexpected type form (got " ++ typeCode form ++ ")")
  let numParams <- take fun reader => reader.readCount "function param count"
  let paramTypes <- Emitting.collected
    (fun _ => readConcreteType "function param type" "expected valid param type") numParams 0
  let numResults <- take fun reader => reader.readCount "function result count"
  let reader <- Emitting.get ModuleReader.reader
  require (numResults ≤ 1 || reader.features.multiValue) "result count must be 0 or 1"
  let resultTypes <- Emitting.collected
    (fun _ => readConcreteType "function result type" "expected valid result type") numResults 0
  pass (.onType index paramTypes resultTypes)

def readTypeSection : Read Unit := do
  let count <- take fun reader => reader.readCount "type count"
  Emitting.modify fun state => { state with numSignatures := count }
  pass (.onTypeCount count)
  Emitting.repeated readSignature count 0
  pass (.endSection .type)

def readImportFunc (index : Nat) (moduleName fieldName : Name) : Read Unit := do
  let sigIndex <- take fun reader => reader.readIndex "import signature index"
  let state <- Emitting.get id
  require (sigIndex < state.numSignatures) "invalid import signature index"
  pass (.onImport index .func moduleName fieldName)
  pass (.onImportFunc index moduleName fieldName state.numFuncImports sigIndex)
  Emitting.modify fun state => { state with numFuncImports := state.numFuncImports + 1 }

def readImportTable (index : Nat) (moduleName fieldName : Name) : Read Unit := do
  let (elemType, elemLimits) <- readTable
  pass (.onImport index .table moduleName fieldName)
  let state <- Emitting.get id
  pass (.onImportTable index moduleName fieldName state.numTableImports elemType elemLimits)
  Emitting.modify fun state => { state with numTableImports := state.numTableImports + 1 }

def readImportMemory (index : Nat) (moduleName fieldName : Name) : Read Unit := do
  let pageLimits <- readMemory
  pass (.onImport index .memory moduleName fieldName)
  let state <- Emitting.get id
  pass (.onImportMemory index moduleName fieldName state.numMemoryImports pageLimits)
  Emitting.modify fun state => { state with numMemoryImports := state.numMemoryImports + 1 }

def readImportGlobal (index : Nat) (moduleName fieldName : Name) : Read Unit := do
  let (type, mutable_) <- readGlobalHeader
  pass (.onImport index .global moduleName fieldName)
  let state <- Emitting.get id
  pass (.onImportGlobal index moduleName fieldName state.numGlobalImports type mutable_)
  Emitting.modify fun state => { state with numGlobalImports := state.numGlobalImports + 1 }

def readImportException (index : Nat) (moduleName fieldName : Name) : Read Unit := do
  let state <- Emitting.get id
  require state.features.exceptions "invalid import exception kind: exceptions not allowed"
  let sig <- readExceptionType
  pass (.onImport index .except moduleName fieldName)
  pass (.onImportException index moduleName fieldName state.numExceptionImports sig)
  Emitting.modify fun state => { state with numExceptionImports := state.numExceptionImports + 1 }

def readImport (index : Nat) : Read Unit := do
  let moduleName <- take fun reader => reader.readStr "import module name"
  let fieldName <- take fun reader => reader.readStr "import field name"
  let kind <- take fun reader => reader.readU8 "import kind"
  match externalKinds[kind]? with
  | some .func => readImportFunc index moduleName fieldName
  | some .table => readImportTable index moduleName fieldName
  | some .memory => readImportMemory index moduleName fieldName
  | some .global => readImportGlobal index moduleName fieldName
  | some .except => readImportException index moduleName fieldName
  | none => return ()  -- the `switch` has no `default`

def readImportSection : Read Unit := do
  let count <- take fun reader => reader.readCount "import count"
  pass (.onImportCount count)
  Emitting.repeated readImport count 0
  pass (.endSection .import_)

def readFunction (index : Nat) : Read Unit := do
  let sigIndex <- take fun reader => reader.readIndex "function signature index"
  let state <- Emitting.get id
  require (sigIndex < state.numSignatures)
    ("invalid function signature index: " ++ toString sigIndex)
  pass (.onFunction (state.numFuncImports + index) sigIndex)

def readFunctionSection : Read Unit := do
  let count <- take fun reader => reader.readCount "function signature count"
  Emitting.modify fun state => { state with numFunctionSignatures := count }
  pass (.onFunctionCount count)
  Emitting.repeated readFunction count 0
  pass (.endSection .function)

def readTableSection : Read Unit := do
  let count <- take fun reader => reader.readCount "table count"
  Emitting.modify fun state => { state with numTables := count }
  require (count ≤ 1) ("table count (" ++ toString count ++ ") must be 0 or 1")
  pass (.onTableCount count)
  Emitting.repeated (fun index => do
    let (elemType, elemLimits) <- readTable
    let state <- Emitting.get id
    pass (.onTable (state.numTableImports + index) elemType elemLimits)) count 0
  pass (.endSection .table)

def readMemorySection : Read Unit := do
  let count <- take fun reader => reader.readCount "memory count"
  Emitting.modify fun state => { state with numMemories := count }
  require (count ≤ 1) "memory count must be 0 or 1"
  pass (.onMemoryCount count)
  Emitting.repeated (fun index => do
    let pageLimits <- readMemory
    let state <- Emitting.get id
    pass (.onMemory (state.numMemoryImports + index) pageLimits)) count 0
  pass (.endSection .memory)

def readGlobal (index : Nat) : Read Unit := do
  let (type, mutable_) <- readGlobalHeader
  let state <- Emitting.get id
  pass (.beginGlobal (state.numGlobalImports + index) type mutable_)
  pass (.beginGlobalInitExpr (state.numGlobalImports + index))
  readInitExpr (state.numGlobalImports + index) false
  pass (.endGlobalInitExpr (state.numGlobalImports + index))

def readGlobalSection : Read Unit := do
  let count <- take fun reader => reader.readCount "global count"
  Emitting.modify fun state => { state with numGlobals := count }
  pass (.onGlobalCount count)
  Emitting.repeated readGlobal count 0
  pass (.endSection .global)

/-- What an export may refer to; exceptions come behind the exports. -/
def exportError (state : ModuleReader) (itemIndex : Nat) : ExternalKind -> Option String
  | .func =>
      if itemIndex < state.numTotalFuncs then none
      else some ("invalid export func index: " ++ toString itemIndex)
  | .table =>
      if itemIndex < state.numTotalTables then none
      else some ("invalid export table index: " ++ toString itemIndex)
  | .memory =>
      if itemIndex < state.numTotalMemories then none
      else some ("invalid export memory index: " ++ toString itemIndex)
  | .global =>
      if itemIndex < state.numTotalGlobals then none
      else some ("invalid export global index: " ++ toString itemIndex)
  | .except =>
      if state.features.exceptions then none
      else some "invalid export exception kind: exceptions not allowed"

def readExport (index : Nat) : Read Unit := do
  let name <- take fun reader => reader.readStr "export item name"
  let kind <- take fun reader => reader.readU8 "export kind"
  match externalKinds[kind]? with
  | none =>
      Emitting.fail (.error (.text ("invalid export external kind: " ++ toString kind)))
  | some known => do
      let itemIndex <- take fun reader => reader.readIndex "export item index"
      let state <- Emitting.get id
      require (exportError state itemIndex known).isNone
        ((exportError state itemIndex known).getD "")
      pass (.onExport index known itemIndex name)

def readExportSection : Read Unit := do
  let count <- take fun reader => reader.readCount "export count"
  pass (.onExportCount count)
  Emitting.repeated readExport count 0
  pass (.endSection .export_)

def readStartSection : Read Unit := do
  let funcIndex <- take fun reader => reader.readIndex "start function index"
  let state <- Emitting.get id
  require (funcIndex < state.numTotalFuncs)
    ("invalid start function index: " ++ toString funcIndex)
  pass (.onStartFunction funcIndex)
  pass (.endSection .start)

def readElemSegment (index : Nat) : Read Unit := do
  let tableIndex <- take fun reader => reader.readIndex "elem segment table index"
  pass (.beginElemSegment index tableIndex)
  pass (.beginElemSegmentInitExpr index)
  readInitExpr index true
  pass (.endElemSegmentInitExpr index)
  let count <- take fun reader => reader.readCount "elem segment function index count"
  pass (.onElemSegmentFunctionIndexCount index count)
  Emitting.repeated (fun _ => do
    let funcIndex <- take fun reader => reader.readIndex "elem segment function index"
    pass (.onElemSegmentFunctionIndex index funcIndex)) count 0

def readElemSection : Read Unit := do
  let count <- take fun reader => reader.readCount "elem segment count"
  pass (.onElemSegmentCount count)
  let state <- Emitting.get id
  require (count = 0 || 0 < state.numTotalTables) "elem section without table section"
  Emitting.repeated readElemSegment count 0
  pass (.endSection .elem)

/-! ## The code section -/

def readLocalDecls : Nat -> Nat -> Nat -> Read Unit
  | 0, _index, _totalLocals => return ()
  | count + 1, index, totalLocals => do
      let numLocalTypes <- take fun reader => reader.readIndex "local type count"
      require (0 < numLocalTypes) "local count must be > 0"
      require (totalLocals + numLocalTypes < 0xffffffff) "local count must be < 0x10000000"
      let localType <- readConcreteType "local type" "expected valid local type"
      pass (.onLocalDecl index numLocalTypes localType)
      readLocalDecls count (index + 1) (totalLocals + numLocalTypes)

/-- The callback of an opcode, with the offset behind what the opcode reads. -/
def opcodeItem (endOffset : Nat) (item : Instr × Nat) : Item :=
  (if Reader.closesFunction endOffset item.1 item.2 then .onEndFunc else .onExpr item.1, item.2)

def readFunctionBody (endOffset : Nat) : Read Unit where
  run state :=
    let decoded := state.reader.instructions endOffset (endOffset - state.offset) state.offset
    (decoded.1.map (opcodeItem endOffset),
      match Reader.bodyFailure endOffset decoded.1 decoded.2 with
      | some failure => .error failure
      | none => .ok ((), { state with offset := endOffset }))

def readBodyContents (index : Nat) : Read Unit := do
  let bodySize <- take fun reader => reader.readU32Leb128 "function body size"
  let start <- Emitting.get ModuleReader.offset
  let numLocalDecls <- take fun reader => reader.readCount "local declaration count"
  pass (.onLocalDeclCount numLocalDecls)
  readLocalDecls numLocalDecls 0 0
  readFunctionBody (start + bodySize)
  pass (.endFunctionBody index)

def readBody (index : Nat) : Read Unit := do
  let state <- Emitting.get id
  pass (.beginFunctionBody (state.numFuncImports + index))
  readBodyContents (state.numFuncImports + index)

def readCodeSection : Read Unit := do
  let count <- take Reader.readCodeHeader
  pass (.onFunctionBodyCount count)
  Emitting.repeated readBody count 0
  pass (.endSection .code)

def readDataSegment (index : Nat) : Read Unit := do
  let memoryIndex <- take fun reader => reader.readIndex "data segment memory index"
  pass (.beginDataSegment index memoryIndex)
  pass (.beginDataSegmentInitExpr index)
  readInitExpr index true
  pass (.endDataSegmentInitExpr index)
  let data <- take fun reader => reader.readBytes "data segment data"
  pass (.onDataSegmentData index data)

def readDataSection : Read Unit := do
  let count <- take fun reader => reader.readCount "data segment count"
  pass (.onDataSegmentCount count)
  let state <- Emitting.get id
  require (count = 0 || 0 < state.numTotalMemories) "data section without memory section"
  Emitting.repeated readDataSegment count 0
  pass (.endSection .data)

/-! ## The module -/

def readContents : BinarySection -> Read Unit
  | .custom => readCustomSection
  | .type => readTypeSection
  | .import_ => readImportSection
  | .function => readFunctionSection
  | .table => readTableSection
  | .memory => readMemorySection
  | .global => readGlobalSection
  | .export_ => readExportSection
  | .start => readStartSection
  | .elem => readElemSection
  | .code => readCodeSection
  | .data => readDataSection

def inOrder (last : Option BinarySection) (kind : BinarySection) : Bool :=
  kind = .custom || last.all fun last => last.number < kind.number

/-- The code and the size of a section, and what they are checked for. -/
def readSectionHeader : Read (BinarySection × Nat) := do
  let code <- take fun reader => reader.readU32Leb128 "section code"
  let size <- take fun reader => reader.readOffset "section size"
  Emitting.modify fun state => { state with readEnd := state.offset + size }
  match binarySections[code]? with
  | none => Emitting.fail (.error (.text ("invalid section code: " ++ toString code)))
  | some kind => do
      let state <- Emitting.get id
      require (state.readEnd ≤ state.data.length) "invalid section size: extends past end"
      require (inOrder state.lastKnownSection kind) "section out of order"
      require (!state.didReadNamesSection || kind = .custom)
        "section can not occur after Name section"
      return (kind, size)

/-- Behind a section that is read. -/
def finishSection (kind : BinarySection) : Read Unit := do
  let state <- Emitting.get id
  require (state.offset = state.readEnd) "unfinished section"
  Emitting.modify fun state =>
    { state with
      readEnd := state.data.length
      lastKnownSection := if kind = .custom then state.lastKnownSection else some kind }

/-- A round of the loop of `ReadSections`. -/
def readSection : Read Unit := do
  let (kind, size) <- readSectionHeader
  pass (.beginSection kind size)
  readContents kind
  finishSection kind

/-- A section takes two bytes at least, so that the bytes left bound the
rounds.  Errors stop the reading at once; without `stop_on_first_error` the
reading goes on and its result is an error all the same. -/
def readSections : Nat -> Read Unit
  | 0 => return ()
  | rounds + 1 => do
      let state <- Emitting.get id
      if state.offset < state.data.length then do
        readSection
        readSections rounds
      else
        return ()

def readModule : Read Unit := do
  let magic <- take fun reader => reader.readU32 "magic"
  require (magic = 0x6d736100) "bad magic value"
  let version <- take fun reader => reader.readU32 "version"
  require (version = 1) "bad wasm file version"
  let state <- Emitting.get id
  readSections (state.data.length - state.offset)
  pass .endModule

end Read

end Binary
end WasmSandboxing
