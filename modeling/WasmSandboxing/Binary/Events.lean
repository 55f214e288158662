import WasmSandboxing.Binary.Decode
import WasmSandboxing.Foundation.Emitting

namespace WasmSandboxing
namespace Binary

open Foundation

/-!
# What a reader makes of a module

The callbacks of `BinaryReaderDelegate` that a delegate of this repository
answers with more than `Result::Ok`, and the reader's own fields.  A delegate
is called with values only, and all it can do to the reader is to stop it.  So
what the reader does is the sequence of its callbacks, each with the offset
that the delegate sees, and how it ends.
-/

inductive BinarySection where
  | custom | type | import_ | function | table | memory | global | export_ | start | elem | code
  | data
  deriving DecidableEq, Repr

def BinarySection.number : BinarySection -> Nat
  | .custom => 0
  | .type => 1
  | .import_ => 2
  | .function => 3
  | .table => 4
  | .memory => 5
  | .global => 6
  | .export_ => 7
  | .start => 8
  | .elem => 9
  | .code => 10
  | .data => 11

def binarySections : List BinarySection :=
  [.custom, .type, .import_, .function, .table, .memory, .global, .export_, .start, .elem, .code,
    .data]

inductive ExternalKind where
  | func | table | memory | global | except
  deriving DecidableEq, Repr

def externalKinds : List ExternalKind := [.func, .table, .memory, .global, .except]

abbrev Name := List (BitVec 8)

structure Limits where
  initial : Nat
  max : Nat
  hasMax : Bool
  isShared : Bool
  deriving DecidableEq, Repr

/-- What stands in front of the `end` of an initialiser. -/
inductive InitExpr where
  | i32Const (value : BitVec 32)
  | i64Const (value : BitVec 64)
  | f32Const (bits : BitVec 32)
  | f64Const (bits : BitVec 64)
  | v128Const (bits : BitVec 128)
  | getGlobal (index : Nat)
  deriving DecidableEq, Repr

inductive Event where
  | beginSection (kind : BinarySection) (size : Nat)
  /-- `EndTypeSection` and its like. -/
  | endSection (kind : BinarySection)
  | onTypeCount (count : Nat)
  | onType (index : Nat) (paramTypes resultTypes : List Int)
  | onImportCount (count : Nat)
  | onImport (index : Nat) (kind : ExternalKind) (moduleName fieldName : Name)
  | onImportFunc (index : Nat) (moduleName fieldName : Name) (funcIndex sigIndex : Nat)
  | onImportTable (index : Nat) (moduleName fieldName : Name) (tableIndex : Nat) (elemType : Int)
      (elemLimits : Limits)
  | onImportMemory (index : Nat) (moduleName fieldName : Name) (memoryIndex : Nat)
      (pageLimits : Limits)
  | onImportGlobal (index : Nat) (moduleName fieldName : Name) (globalIndex : Nat) (type : Int)
      (mutable_ : Bool)
  | onImportException (index : Nat) (moduleName fieldName : Name) (exceptIndex : Nat)
      (sig : List Int)
  | onFunctionCount (count : Nat)
  | onFunction (index sigIndex : Nat)
  | onTableCount (count : Nat)
  | onTable (index : Nat) (elemType : Int) (elemLimits : Limits)
  | onMemoryCount (count : Nat)
  | onMemory (index : Nat) (pageLimits : Limits)
  | onGlobalCount (count : Nat)
  | beginGlobal (index : Nat) (type : Int) (mutable_ : Bool)
  | beginGlobalInitExpr (index : Nat)
  | endGlobalInitExpr (index : Nat)
  /-- `OnInitExprI32ConstExpr` and its like. -/
  | onInitExpr (index : Nat) (init : InitExpr)
  | onExportCount (count : Nat)
  | onExport (index : Nat) (kind : ExternalKind) (itemIndex : Nat) (name : Name)
  | onStartFunction (index : Nat)
  | onElemSegmentCount (count : Nat)
  | beginElemSegment (index tableIndex : Nat)
  | beginElemSegmentInitExpr (index : Nat)
  | endElemSegmentInitExpr (index : Nat)
  | onElemSegmentFunctionIndexCount (index count : Nat)
  | onElemSegmentFunctionIndex (index funcIndex : Nat)
  | onFunctionBodyCount (count : Nat)
  | beginFunctionBody (index : Nat)
  | onLocalDeclCount (count : Nat)
  | onLocalDecl (index count : Nat) (type : Int)
  | onExpr (instr : Instr)
  | onEndFunc
  | endFunctionBody (index : Nat)
  | onDataSegmentCount (count : Nat)
  | beginDataSegment (index memoryIndex : Nat)
  | beginDataSegmentInitExpr (index : Nat)
  | endDataSegmentInitExpr (index : Nat)
  | onDataSegmentData (index : Nat) (data : List (BitVec 8))
  | onExceptionType (index : Nat) (sig : List Int)
  | endModule
  deriving DecidableEq

/-- A callback and the offset that the delegate sees. -/
abbrev Item := Event × Nat

/-- The fields of `BinaryReader`, with the options it is made with. -/
structure ModuleReader where
  data : List (BitVec 8)
  features : Features
  readDebugNames : Bool
  failOnCustomSectionError : Bool
  offset : Nat
  readEnd : Nat
  /-- Nothing stands for `BinarySection::Invalid`. -/
  lastKnownSection : Option BinarySection
  didReadNamesSection : Bool
  numSignatures : Nat
  numFuncImports : Nat
  numTableImports : Nat
  numMemoryImports : Nat
  numGlobalImports : Nat
  numExceptionImports : Nat
  numFunctionSignatures : Nat
  numTables : Nat
  numMemories : Nat
  numGlobals : Nat

namespace ModuleReader

/-- `BinaryReader::BinaryReader`. -/
def start (data : List (BitVec 8)) (features : Features)
    (readDebugNames failOnCustomSectionError : Bool) : ModuleReader where
  data := data
  features := features
  readDebugNames := readDebugNames
  failOnCustomSectionError := failOnCustomSectionError
  offset := 0
  readEnd := data.length
  lastKnownSection := none
  didReadNamesSection := false
  numSignatures := 0
  numFuncImports := 0
  numTableImports := 0
  numMemoryImports := 0
  numGlobalImports := 0
  numExceptionImports := 0
  numFunctionSignatures := 0
  numTables := 0
  numMemories := 0
  numGlobals := 0

def reader (state : ModuleReader) : Reader where
  data := state.data
  readEnd := state.readEnd
  features := state.features
  numFuncImports := state.numFuncImports
  numFunctionSignatures := state.numFunctionSignatures
  numSignatures := state.numSignatures

def numTotalFuncs (state : ModuleReader) : Nat :=
  state.numFuncImports + state.numFunctionSignatures

def numTotalTables (state : ModuleReader) : Nat :=
  state.numTableImports + state.numTables

def numTotalMemories (state : ModuleReader) : Nat :=
  state.numMemoryImports + state.numMemories

def numTotalGlobals (state : ModuleReader) : Nat :=
  state.numGlobalImports + state.numGlobals

end ModuleReader

abbrev Read (Result : Type) := Emitting ModuleReader Item Failure Result

namespace Read

def pass (event : Event) : Read Unit :=
  Emitting.emit fun state => (event, state.offset)

/-- A read of the reader from where it is. -/
def take (read : Reader -> Nat -> Except Failure (Result × Nat)) : Read Result :=
  Emitting.step fun state =>
    match read state.reader state.offset with
    | .error failure => .error failure
    | .ok (result, next) => .ok (result, { state with offset := next })

def require (holds : Bool) (message : String) : Read Unit :=
  Emitting.check holds (.error (.text message))

variable {Result : Type} {allowed : List Item -> Item -> Prop} {log : List Item}
  {state : ModuleReader}

@[simp] theorem meets_pass {post : List Item -> Unit -> ModuleReader -> Prop} {event : Event} :
    Emitting.Meets allowed (pass event) post log state ↔
      allowed log (event, state.offset) ∧ post (log ++ [(event, state.offset)]) () state :=
  Emitting.meets_emit

@[simp] theorem meets_take {post : List Item -> Result -> ModuleReader -> Prop}
    {read : Reader -> Nat -> Except Failure (Result × Nat)} :
    Emitting.Meets allowed (take read) post log state ↔
      forall result next, read state.reader state.offset = .ok (result, next) ->
        post log result { state with offset := next } := by
  rw [take, Emitting.meets_step]
  cases read state.reader state.offset with
  | error failure =>
      constructor
      · intro _ result next same
        cases same
      · intro _ result after same
        cases same
  | ok found =>
      rcases found with ⟨result, next⟩
      constructor
      · intro meets value after same
        cases same
        exact meets _ _ rfl
      · intro meets value after same
        cases same
        exact meets _ _ rfl

@[simp] theorem meets_require {post : List Item -> Unit -> ModuleReader -> Prop} {holds : Bool}
    {message : String} :
    Emitting.Meets allowed (require holds message) post log state ↔
      (holds = true -> post log () state) :=
  Emitting.meets_check

variable {Kept : Type} {quiet : Item -> Prop} {kept : ModuleReader -> Kept}

theorem frames_pass {event : Event} (isQuiet : forall offset, quiet (event, offset)) :
    Emitting.Frames quiet kept (pass event) :=
  Emitting.frames_emit fun state => isQuiet state.offset

theorem frames_take {read : Reader -> Nat -> Except Failure (Result × Nat)}
    (keeps : forall state offset, kept { state with offset := offset } = kept state) :
    Emitting.Frames quiet kept (take read) := by
  refine Emitting.frames_step fun state result after same => ?_
  cases ran : read state.reader state.offset with
  | error failure =>
      rw [ran] at same
      cases same
  | ok found =>
      rw [ran] at same
      cases same
      exact keeps state found.2

@[simp] theorem frames_require {holds : Bool} {message : String} :
    Emitting.Frames quiet kept (require holds message) :=
  Emitting.frames_check

end Read

end Binary
end WasmSandboxing
