import WasmSandboxing.Binary.Orderly
import WasmSandboxing.Foundation.Symbols

namespace WasmSandboxing
namespace Binary

open Foundation

/-!
# Names of functions and locals

What `BinaryReaderIR` makes of the callbacks of the name section.  Unlike the
known sections a name section may fail and be left out, and what the delegate
recorded by then stays recorded.  So the delegate is run along with the reader.
-/

/-- The callbacks of `ReadNameSection` that `BinaryReaderIR` answers. -/
inductive NameEvent where
  | onModuleName (name : Name)
  | onFunctionNamesCount (count : Nat)
  | onFunctionName (index : Nat) (name : Name)
  | onLocalNameLocalCount (index count : Nat)
  | onLocalName (funcIndex localIndex : Nat) (name : Name)
  deriving DecidableEq

/-- `BindingHash`, with its entries in the order in which they were added. -/
abbrev BindingHash := List (Name × Nat)

/-- A `Func`, with the sizes of its signature and of `local_types`. -/
structure NamedFunc where
  name : Name
  numParams : Nat
  numLocals : Nat
  paramBindings : BindingHash
  localBindings : BindingHash
  deriving DecidableEq

namespace NamedFunc

def numParamsAndLocals (func : NamedFunc) : Nat := func.numParams + func.numLocals

/-- A function with its signature only. -/
def declared (numParams : Nat) : NamedFunc where
  name := []
  numParams := numParams
  numLocals := 0
  paramBindings := []
  localBindings := []

end NamedFunc

/-- The `Module` that is built, as far as names of functions and locals go. -/
structure NamedModule where
  name : Name
  /-- The number of parameters of each type. -/
  funcTypes : List Nat
  funcs : List NamedFunc
  funcBindings : BindingHash
  currentFunc : Nat
  deriving DecidableEq

namespace NamedModule

def empty : NamedModule where
  name := []
  funcTypes := []
  funcs := []
  funcBindings := []
  currentFunc := 0

/-- `OnImportFunc` and `OnFunction`, with a type that the reader has checked. -/
def declareFunc (ir : NamedModule) (sigIndex : Nat) : NamedModule :=
  { ir with funcs := ir.funcs ++ [.declared (ir.funcTypes[sigIndex]?.getD 0)] }

/-- The callbacks of the known sections. -/
def record (ir : NamedModule) : Event -> NamedModule
  | .onType _ paramTypes _ => { ir with funcTypes := ir.funcTypes ++ [paramTypes.length] }
  | .onImportFunc _ _ _ _ sigIndex => ir.declareFunc sigIndex
  | .onFunction _ sigIndex => ir.declareFunc sigIndex
  | .beginFunctionBody index => { ir with currentFunc := index }
  | .onLocalDecl _ count _ =>
      { ir with
        funcs := ir.funcs.modify ir.currentFunc fun func =>
          { func with numLocals := func.numLocals + count } }
  | _ => ir

/-! ## The callbacks of names -/

def makeDollarName (name : Name) : Name := ascii "$" ++ name

def onModuleName (ir : NamedModule) (name : Name) : NamedModule :=
  if name = [] then ir else { ir with name := makeDollarName name }

/-- A name and then the name with a number. -/
def numbered (name : Name) : Nat -> Name
  | 0 => name
  | counter + 1 => name ++ ascii "." ++ ascii (toString (counter + 1))

def onFunctionNamesCount (ir : NamedModule) (count : Nat) : Except Failure NamedModule :=
  if ir.funcs.length < count then
    .error (.error (.text "expected function name count <= function count"))
  else
    .ok ir

def onFunctionName (ir : NamedModule) (index : Nat) (name : Name) : Except Failure NamedModule :=
  if name = [] then
    .ok ir
  else if ir.funcs.length ≤ index then
    .error (.fault "module_->funcs[index]")
  else
    let dollarName := firstFresh (ir.funcBindings.map Prod.fst) (numbered (makeDollarName name))
    .ok { ir with
      funcs := ir.funcs.modify index fun func => { func with name := dollarName }
      funcBindings := ir.funcBindings ++ [(dollarName, index)] }

def onLocalNameLocalCount (ir : NamedModule) (index count : Nat) : Except Failure NamedModule :=
  match ir.funcs[index]? with
  | none => .error (.fault "index < module_->funcs.size()")
  | some func =>
      if func.numParamsAndLocals < count then
        .error (.error (.text "expected local name count <= local count"))
      else
        .ok ir

/-- A binding of a parameter, or of a local by its index behind the parameters. -/
def bindLocal (localIndex : Nat) (name : Name) (func : NamedFunc) : NamedFunc :=
  if localIndex < func.numParams then
    { func with paramBindings := func.paramBindings ++ [(makeDollarName name, localIndex)] }
  else
    { func with
      localBindings := func.localBindings ++
        [(makeDollarName name, localIndex - func.numParams)] }

def onLocalName (ir : NamedModule) (funcIndex localIndex : Nat) (name : Name) :
    Except Failure NamedModule :=
  if name = [] then
    .ok ir
  else if ir.funcs.length ≤ funcIndex then
    .error (.fault "module_->funcs[func_index]")
  else
    .ok { ir with funcs := ir.funcs.modify funcIndex (bindLocal localIndex name) }

def answer (ir : NamedModule) : NameEvent -> Except Failure NamedModule
  | .onModuleName name => .ok (ir.onModuleName name)
  | .onFunctionNamesCount count => ir.onFunctionNamesCount count
  | .onFunctionName index name => ir.onFunctionName index name
  | .onLocalNameLocalCount index count => ir.onLocalNameLocalCount index count
  | .onLocalName funcIndex localIndex name => ir.onLocalName funcIndex localIndex name

/-- A callback that fails records nothing. -/
def recordName (ir : NamedModule) (event : NameEvent) : NamedModule :=
  (ir.answer event).toOption.getD ir

end NamedModule

/-- `MakeTypeBindingReverseMapping`; there is no mapping where its assertion fails. -/
def makeTypeBindingReverseMapping (numTypes : Nat) (bindings : BindingHash) :
    Option (List Name) :=
  bindings.foldlM (fun mapping binding =>
    if binding.2 < mapping.length then some (mapping.set binding.2 binding.1) else none)
    (List.replicate numTypes [])

/-! ## The reader with its delegate -/

structure NamedReader where
  reader : ModuleReader
  ir : NamedModule

abbrev NameRead (Result : Type) := Emitting NamedReader NameEvent Failure Result

namespace NameRead

/-- Known sections, of whose callbacks the delegate notes some.  What else it
does can only stop the reader. -/
def known (read : Read Result) : NameRead Result :=
  Emitting.step fun state =>
    let ran := read.run state.reader
    ran.2.map fun (result, reader) =>
      (result, ⟨reader, ran.1.foldl (fun ir item => ir.record item.1) state.ir⟩)

def call (event : NameEvent) : NameRead Unit where
  run state := ([event], (state.ir.answer event).map fun ir => ((), { state with ir }))

def take (read : Reader -> Nat -> Except Failure (Result × Nat)) : NameRead Result :=
  known (Read.take read)

def require (holds : Bool) (message : String) : NameRead Unit :=
  Emitting.check holds (.error (.text message))

def failing (message : Option String) : NameRead Unit :=
  message.elim (return ()) fun message => Emitting.fail (.error (.text message))

def offset : NameRead Nat := Emitting.get fun state => state.reader.offset

/-- Names behind increasing indices. -/
def readNames (desc : String) (error : Reader -> Nat -> Nat -> Option String)
    (readName : Nat -> NameRead Unit) : Nat -> Nat -> NameRead Unit
  | 0, _lastIndex => return ()
  | count + 1, lastIndex => do
      let index <- take fun reader => reader.readIndex desc
      let reader <- Emitting.get fun state => state.reader.reader
      failing (error reader lastIndex index)
      readName index
      readNames desc error readName count index

def readFunctionNames : NameRead Unit := do
  let numNames <- take fun reader => reader.readCount "name count"
  call (.onFunctionNamesCount numNames)
  readNames "function index" Read.functionNameError (fun functionIndex => do
    let functionName <- take fun reader => reader.readStr "function name"
    call (.onFunctionName functionIndex functionName)) numNames Read.invalidIndex

def readLocalNamesOf (functionIndex : Nat) : NameRead Unit := do
  let numLocals <- take fun reader => reader.readCount "local count"
  call (.onLocalNameLocalCount functionIndex numLocals)
  readNames "named index" (fun _ => Read.localNameError) (fun localIndex => do
    let localName <- take fun reader => reader.readStr "name"
    call (.onLocalName functionIndex localIndex localName)) numLocals Read.invalidIndex

def readLocalNames : NameRead Unit := do
  let numFuncs <- take fun reader => reader.readCount "function count"
  readNames "function index" Read.localFunctionError readLocalNamesOf numFuncs Read.invalidIndex

def readModuleName : NameRead Unit := do
  let name <- take fun reader => reader.readStr "module name"
  call (.onModuleName name)

def setReadEnd (readEnd : Nat) : NameRead Unit :=
  known (Emitting.modify fun state => { state with readEnd })

/-- The contents of a sub-section that ends at `subsectionEnd`. -/
def readNameSubsection (nameType size subsectionEnd : Nat) : NameRead Unit :=
  if nameType = 0 then
    if size = 0 then return () else readModuleName
  else if nameType = 1 then
    if size = 0 then return () else readFunctionNames
  else if nameType = 2 then
    if size = 0 then return () else readLocalNames
  else
    -- Unknown subsection, skip it.
    known (Emitting.modify fun state => { state with offset := subsectionEnd })

/-- Every sub-section takes two bytes at least, so that the bytes left bound the
rounds; none stands for the type before the first. -/
def readNameSection : Nat -> Option Nat -> NameRead Unit
  | 0, _previous => return ()
  | rounds + 1, previous => do
      let state <- Emitting.get NamedReader.reader
      if state.offset < state.readEnd then do
        let nameType <- take fun reader => reader.readU32Leb128 "name type"
        require (!previous.any (nameType = ·)) "duplicate sub-section"
        require (!previous.any (nameType < ·)) "out-of-order sub-section"
        let size <- take fun reader => reader.readOffset "subsection size"
        let start <- offset
        require (start + size ≤ state.readEnd) "invalid sub-section size: extends past end"
        setReadEnd (start + size)
        readNameSubsection nameType size (start + size)
        let last <- offset
        require (last = start + size) "unfinished sub-section"
        setReadEnd state.readEnd
        readNameSection rounds (some nameType)
      else
        return ()

/-- The contents of a custom section, by its name. -/
def readCustomContents : NameRead Unit := do
  let name <- take fun reader => reader.readStr "section name"
  let state <- Emitting.get NamedReader.reader
  if state.readDebugNames && name = ascii "name" then do
    readNameSection (state.readEnd - state.offset) none
    known (Emitting.modify fun state => { state with didReadNamesSection := true })
  else if (ascii "reloc").isPrefixOf name then
    take Read.readRelocSection
  else if name = ascii "linking" then
    take Read.readLinkingSection
  else if state.features.exceptions && name = ascii "exception" then
    known Read.readExceptionSection
  else
    -- This is an unknown custom section, skip it.
    known (Emitting.modify fun state => { state with offset := state.readEnd })

/-- A section that cannot be read is left out unless the options say otherwise.
What the delegate recorded of it stays. -/
def leaveOut (state : NamedReader) : List NameEvent × Except Failure (Unit × NamedReader) ->
    List NameEvent × Except Failure (Unit × NamedReader)
  | (events, .error (.error message)) =>
      if state.reader.failOnCustomSectionError then
        (events, .error (.error message))
      else
        (events, .ok ((),
          { reader := { state.reader with offset := state.reader.readEnd }
            ir := events.foldl NamedModule.recordName state.ir }))
  | ran => ran

def readCustomSection : NameRead Unit where
  run state := leaveOut state (readCustomContents.run state)

def readContents (kind : BinarySection) : NameRead Unit :=
  if kind = .custom then readCustomSection else known (Read.readContents kind)

/-- A round of the loop of `ReadSections`. -/
def readSection : NameRead Unit := do
  let (kind, _size) <- known Read.readSectionHeader
  readContents kind
  known (Read.finishSection kind)

def readSections : Nat -> NameRead Unit
  | 0 => return ()
  | rounds + 1 => do
      let state <- Emitting.get NamedReader.reader
      if state.offset < state.data.length then do
        readSection
        readSections rounds
      else
        return ()

def readModule : NameRead Unit := do
  let magic <- take fun reader => reader.readU32 "magic"
  require (magic = 0x6d736100) "bad magic value"
  let version <- take fun reader => reader.readU32 "version"
  require (version = 1) "bad wasm file version"
  let state <- Emitting.get NamedReader.reader
  readSections (state.data.length - state.offset)

end NameRead

/-- `ReadBinaryIr`: the callbacks of names and the module, where it is read. -/
def readBinaryIr (data : List (BitVec 8)) (features : Features)
    (readDebugNames failOnCustomSectionError : Bool) : Option (List NameEvent × NamedModule) :=
  let ran := NameRead.readModule.run
    ⟨.start data features readDebugNames failOnCustomSectionError, .empty⟩
  ran.2.toOption.map fun result => (ran.1, result.2.ir)

end Binary
end WasmSandboxing
