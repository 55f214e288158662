import WasmSandboxing.Binary.SectionFrames

namespace WasmSandboxing
namespace Binary

open Foundation

/-!
# What an accepted module is made of

The sections of a module as they are read, and how the numbers that its
sections announce compare with what is delivered to the delegate.
-/

/-- A section: where its header starts, its contents from `before` to `after`
and the callbacks that they make. -/
structure SectionRead where
  header : Nat
  kind : BinarySection
  size : Nat
  before : ModuleReader
  items : List Item
  after : ModuleReader

namespace SectionRead

def log (found : SectionRead) : List Item :=
  (.beginSection found.kind found.size, found.before.offset) :: found.items

/-- The reader behind the section. -/
def next (found : SectionRead) : ModuleReader :=
  { found.after with
    readEnd := found.after.data.length
    lastKnownSection :=
      if found.kind = .custom then found.after.lastKnownSection else some found.kind }

end SectionRead

namespace ModuleReader

/-- The section that starts here, if it can be read. -/
def sectionRead (state : ModuleReader) : Option SectionRead :=
  match (Read.readSectionHeader.run state).2 with
  | .error _ => none
  | .ok ((kind, size), before) =>
      match ((Read.readContents kind).run before).2 with
      | .error _ => none
      | .ok ((), after) =>
          if after.offset = after.readEnd then
            some ⟨state.offset, kind, size, before, ((Read.readContents kind).run before).1, after⟩
          else
            none

def sectionReads : Nat -> ModuleReader -> List SectionRead
  | 0, _state => []
  | rounds + 1, state =>
      if state.offset < state.data.length then
        match state.sectionRead with
        | none => []
        | some found => found :: sectionReads rounds found.next
      else
        []

/-- The reader behind the magic number and the version. -/
def behindVersion (state : ModuleReader) : ModuleReader :=
  { state with offset := state.offset + 8 }

/-- The sections of a module, up to the first that cannot be read. -/
def sections (state : ModuleReader) : List SectionRead :=
  state.behindVersion.sectionReads (state.data.length - state.behindVersion.offset)

/-- The byte that stands for the kind of an import. -/
def importKind (reader : Reader) (offset : Nat) : Except Failure (Nat × Nat) := do
  let (_, offset) <- reader.readStr "import module name" offset
  let (_, offset) <- reader.readStr "import field name" offset
  reader.readU8 "import kind" offset

/-- The kinds of the next imports, as they stand in the module. -/
def importKinds : Nat -> Nat -> ModuleReader -> List Nat
  | 0, _index, _state => []
  | count + 1, index, state =>
      match importKind state.reader state.offset, ((Read.readImport index).run state).2 with
      | .ok (kind, _), .ok ((), after) => kind :: importKinds count (index + 1) after
      | _, _ => []

/-- The kinds of the imports of an import section. -/
def sectionImportKinds (state : ModuleReader) : List Nat :=
  match state.reader.readCount "import count" state.offset with
  | .error _ => []
  | .ok (count, offset) => importKinds count 0 { state with offset := offset }

end ModuleReader

/-! ## What is counted -/

def Event.isBody : Event -> Bool
  | .beginFunctionBody _ => true
  | _ => false

def Event.isImport : Event -> Bool
  | .onImport _ _ _ _ => true
  | _ => false

/-- The signatures that a callback announces. -/
def Event.signatures : Event -> Nat
  | .onFunctionCount count => count
  | _ => 0

def Event.imports : Event -> Nat
  | .onImportCount count => count
  | _ => 0

def numBodies (items : List Item) : Nat :=
  items.countP fun item => item.1.isBody

def numImported (items : List Item) : Nat :=
  items.countP fun item => item.1.isImport

def numSignatures (items : List Item) : Nat :=
  (items.map fun item => item.1.signatures).sum

def numImports (items : List Item) : Nat :=
  (items.map fun item => item.1.imports).sum

/-- Sections one behind another, each of the size that it declares. -/
def Contiguous : Nat -> List SectionRead -> Nat -> Prop
  | offset, [], last => offset = last
  | offset, found :: rest, last =>
      found.header = offset ∧ found.after.offset = found.before.offset + found.size ∧
        Contiguous found.after.offset rest last

/-- As many bodies are delivered as there are signatures, every import that is
counted is delivered with a kind that is defined, and the sections stand in
order and fill the module. -/
structure Complete (start : ModuleReader) (items : List Item) : Prop where
  bodies : numBodies items = numSignatures items
  imports : numImported items = numImports items
  ordered : ((start.sections.map (·.kind)).filter (· ≠ .custom)).Pairwise
    (fun first second => first.number < second.number)
  consumed : Contiguous (start.offset + 8) start.sections start.data.length

@[simp] theorem numBodies_append (first second : List Item) :
    numBodies (first ++ second) = numBodies first + numBodies second :=
  List.countP_append

@[simp] theorem numImported_append (first second : List Item) :
    numImported (first ++ second) = numImported first + numImported second :=
  List.countP_append

@[simp] theorem numSignatures_append (first second : List Item) :
    numSignatures (first ++ second) = numSignatures first + numSignatures second := by
  rw [numSignatures, List.map_append, List.sum_append]
  rfl

@[simp] theorem numImports_append (first second : List Item) :
    numImports (first ++ second) = numImports first + numImports second := by
  rw [numImports, List.map_append, List.sum_append]
  rfl

/-- What the callbacks of a log announce and deliver. -/
structure Tally where
  bodies : Nat
  imported : Nat
  signatures : Nat
  imports : Nat
  deriving DecidableEq

def tally (items : List Item) : Tally :=
  ⟨numBodies items, numImported items, numSignatures items, numImports items⟩

/-! ## Imports -/

namespace Read

/-- What is told of an import, whose kind is defined. -/
theorem importEvents_tally {log : List Item} {first second : Event} {offset behind : Nat}
    (isImport : first.isImport = true) (noBody : first.isBody = false)
    (noCount : first.signatures = 0 ∧ first.imports = 0)
    (other : second.isImport = false ∧ second.isBody = false ∧ second.signatures = 0 ∧
      second.imports = 0) :
    tally (log ++ [(first, offset)] ++ [(second, behind)]) =
      { tally log with imported := numImported log + 1 } := by
  simp [tally, numBodies, numImported, numSignatures, numImports, isImport, noBody, noCount, other]

/-- An import is delivered if its kind is defined; else nothing is told of it. -/
theorem readImport_meets (index : Nat) (log : List Item) (state : ModuleReader) :
    Emitting.Meets (fun _ _ => True) (readImport index)
      (fun after _ _ => exists kind next,
        ModuleReader.importKind state.reader state.offset = .ok (kind, next) ∧
          tally after =
            { tally log with
              imported := numImported log + if kind < externalKinds.length then 1 else 0 })
      log state := by
  simp only [readImport, Emitting.meets_bind, meets_take]
  intro moduleName afterModule readModule fieldName afterField readField kind afterKind readKind
  have same : ModuleReader.importKind state.reader state.offset = .ok (kind, afterKind) :=
    bind_ok.mpr ⟨_, readModule, bind_ok.mpr ⟨_, readField, readKind⟩⟩
  cases found : externalKinds[kind]? with
  | none =>
      have undefined : ¬ kind < externalKinds.length := by
        rw [List.getElem?_eq_none_iff] at found
        omega
      refine Emitting.meets_pure.mpr ⟨kind, afterKind, same, ?_⟩
      rw [if_neg undefined]
      rfl
  | some known =>
      have defined : kind < externalKinds.length := (List.getElem?_eq_some_iff.mp found).1
      have told : forall {after : List Item},
          tally after = { tally log with imported := numImported log + 1 } ->
          exists kind next, ModuleReader.importKind state.reader state.offset = .ok (kind, next) ∧
            tally after =
              { tally log with
                imported := numImported log + if kind < externalKinds.length then 1 else 0 } := by
        intro after counted
        refine ⟨kind, afterKind, same, ?_⟩
        rw [if_pos defined]
        exact counted
      cases known with
      | func =>
          simp only [readImportFunc, Emitting.meets_bind, meets_take, Emitting.meets_get,
            meets_require, meets_pass, Emitting.meets_modify, true_and]
          intro _ _ _ _
          exact told (importEvents_tally rfl rfl ⟨rfl, rfl⟩ ⟨rfl, rfl, rfl, rfl⟩)
      | table =>
          simp only [readImportTable, Emitting.meets_bind]
          have silent : Emitting.Frames (fun _ => False) (ModuleReader.outside .import_)
              readTable := frames_readTable
          refine silent.meets_silent fun _ _ _ => ?_
          simp only [Emitting.meets_bind, Emitting.meets_get, meets_pass, Emitting.meets_modify,
            true_and]
          exact told (importEvents_tally rfl rfl ⟨rfl, rfl⟩ ⟨rfl, rfl, rfl, rfl⟩)
      | memory =>
          simp only [readImportMemory, Emitting.meets_bind]
          have silent : Emitting.Frames (fun _ => False) (ModuleReader.outside .import_)
              readMemory := frames_readMemory
          refine silent.meets_silent fun _ _ _ => ?_
          simp only [Emitting.meets_bind, Emitting.meets_get, meets_pass, Emitting.meets_modify,
            true_and]
          exact told (importEvents_tally rfl rfl ⟨rfl, rfl⟩ ⟨rfl, rfl, rfl, rfl⟩)
      | global =>
          simp only [readImportGlobal, Emitting.meets_bind]
          have silent : Emitting.Frames (fun _ => False) (ModuleReader.outside .import_)
              readGlobalHeader := frames_readGlobalHeader
          refine silent.meets_silent fun _ _ _ => ?_
          simp only [Emitting.meets_bind, Emitting.meets_get, meets_pass, Emitting.meets_modify,
            true_and]
          exact told (importEvents_tally rfl rfl ⟨rfl, rfl⟩ ⟨rfl, rfl, rfl, rfl⟩)
      | except =>
          simp only [readImportException, Emitting.meets_bind, Emitting.meets_get, meets_require]
          intro _
          have silent : Emitting.Frames (fun _ => False) (ModuleReader.outside .import_)
              readExceptionType := frames_readExceptionType
          refine silent.meets_silent fun _ _ _ => ?_
          simp only [Emitting.meets_bind, meets_pass, Emitting.meets_modify, true_and]
          exact told (importEvents_tally rfl rfl ⟨rfl, rfl⟩ ⟨rfl, rfl, rfl, rfl⟩)

/-- The imports of a section are delivered but for those of undefined kinds. -/
theorem readImports_meets (count index : Nat) (log : List Item) (state : ModuleReader) :
    Emitting.Meets (fun _ _ => True) (Emitting.repeated readImport count index)
      (fun after _ _ =>
        (ModuleReader.importKinds count index state).length = count ∧
        tally after =
          { tally log with
            imported := numImported log +
              (ModuleReader.importKinds count index state).countP
                (· < externalKinds.length) })
      log state := by
  induction count generalizing index log state with
  | zero => exact Emitting.meets_pure.mpr ⟨rfl, rfl⟩
  | succ count inductionHypothesis =>
      refine Emitting.meets_bind.mpr ⟨(readImport_meets index log state).1, ?_⟩
      intro _ middle ran
      rcases (readImport_meets index log state).2 _ _ ran with ⟨kind, next, found, counted⟩
      have kinds : ModuleReader.importKinds (count + 1) index state =
          kind :: ModuleReader.importKinds count (index + 1) middle := by
        rw [ModuleReader.importKinds, found, ran]
      refine (inductionHypothesis (index + 1) _ middle).mono ?_
      rintro after _ _ ⟨length, tallied⟩
      rw [kinds]
      refine ⟨congrArg (· + 1) length, tallied.trans ?_⟩
      rw [List.countP_cons, counted]
      have delivered := congrArg Tally.imported counted
      simp only [tally] at delivered
      rw [delivered]
      simp only [decide_eq_true_eq, tally]
      congr 1
      omega

theorem readImportSection_meets (state : ModuleReader) :
    Emitting.Meets (fun _ _ => True) readImportSection
      (fun after _ _ =>
        numImports after = state.sectionImportKinds.length ∧
        numImported after = state.sectionImportKinds.countP (· < externalKinds.length))
      [] state := by
  simp only [readImportSection, Emitting.meets_bind, meets_take, meets_pass, true_and]
  intro count next counted
  have kinds : state.sectionImportKinds =
      ModuleReader.importKinds count 0 { state with offset := next } := by
    rw [ModuleReader.sectionImportKinds, counted]
  refine (readImports_meets count 0 _ _).mono ?_
  rintro after _ _ ⟨length, tallied⟩
  have delivered := congrArg Tally.imported tallied
  have announced := congrArg Tally.imports tallied
  simp only [tally] at delivered announced
  rw [kinds, length, numImports_append, numImported_append, delivered, announced]
  simp [numImports, numImported, Event.imports, Event.isImport]

/-! ## Functions and bodies -/

theorem readFunction_frames (index : Nat) :
    Emitting.Frames (fun item : Item => item.1.signatures = 0)
      ModuleReader.numFunctionSignatures (readFunction index) :=
  Emitting.frames_bind (frames_take fun _ _ => rfl) fun _ =>
    Emitting.frames_bind Emitting.frames_get fun _ => Emitting.frames_bind frames_require fun _ =>
      frames_pass fun _ => rfl

theorem numSignatures_quiet {items : List Item}
    (quiet : forall item, item ∈ items -> item.1.signatures = 0) : numSignatures items = 0 := by
  induction items with
  | nil => rfl
  | cons item rest inductionHypothesis =>
      have later := inductionHypothesis fun item isMember =>
        quiet item (List.mem_cons_of_mem _ isMember)
      rw [numSignatures, List.map_cons, List.sum_cons, quiet item List.mem_cons_self, Nat.zero_add]
      exact later

theorem numBodies_quiet {items : List Item}
    (quiet : forall item, item ∈ items -> item.1.isBody = false) : numBodies items = 0 := by
  refine List.countP_eq_zero.mpr fun item isMember => ?_
  rw [quiet item isMember]
  exact Bool.false_ne_true

/-- A function section announces what the reader then counts. -/
theorem readFunctionSection_meets (state : ModuleReader) :
    Emitting.Meets (fun _ _ => True) readFunctionSection
      (fun after _ next => numSignatures after = next.numFunctionSignatures) [] state := by
  simp only [readFunctionSection, Emitting.meets_bind, meets_take, meets_pass,
    Emitting.meets_modify, true_and]
  intro count next counted
  have frames := Emitting.frames_repeated readFunction_frames count 0
  refine ((frames.meets _ _).allow fun _ _ _ => trivial).mono ?_
  rintro after _ final ⟨same, items, rfl, quiet⟩
  rw [same, numSignatures_append, numSignatures_append, numSignatures_quiet quiet]
  simp [numSignatures, Event.signatures]

theorem readBody_meets (index : Nat) (log : List Item) (state : ModuleReader) :
    Emitting.Meets (fun _ _ => True) (readBody index)
      (fun after _ _ => numBodies after = numBodies log + 1) log state := by
  simp only [readBody, Emitting.meets_bind, Emitting.meets_get, meets_pass, true_and]
  refine (((readBodyContents_frames _).meets _ _).allow fun _ _ _ => trivial).mono ?_
  rintro after _ final ⟨_, items, rfl, inBody⟩
  have quiet : forall item, item ∈ items -> item.1.isBody = false := by
    intro item isMember
    have inside := inBody item isMember
    rcases item with ⟨event, offset⟩
    cases event with
    | beginFunctionBody _ => cases inside
    | _ => rfl
  rw [numBodies_append, numBodies_append, numBodies_quiet quiet]
  rfl

/-- A code section delivers a body for every signature. -/
theorem readCodeSection_meets (state : ModuleReader) :
    Emitting.Meets (fun _ _ => True) readCodeSection
      (fun after _ _ => numBodies after = state.numFunctionSignatures) [] state := by
  simp only [readCodeSection, Emitting.meets_bind, meets_take, meets_pass, true_and]
  intro count next header
  have same : state.numFunctionSignatures = count := readCodeHeader_count header
  refine (Emitting.meets_repeated (fun index log _ => numBodies log = index) count 0
    (fun index log state _ holds => (readBody_meets index log state).mono
      fun _ _ _ counted => counted.trans (congrArg (· + 1) holds)) rfl).mono ?_
  intro after _ _ counted
  rw [numBodies_append, counted, same, Nat.zero_add]
  rfl

/-! ## One section -/

/-- The header of a section emits nothing and sets the end of the section. -/
theorem readSectionHeader_ok {state before : ModuleReader} {items : List Item}
    {kind : BinarySection} {size : Nat}
    (ran : readSectionHeader.run state = (items, .ok ((kind, size), before))) :
    items = [] ∧ inOrder state.lastKnownSection kind = true ∧ state.offset < before.offset ∧
      before.offset + size ≤ state.data.length ∧
      before = { state with offset := before.offset, readEnd := before.offset + size } := by
  have meets : Emitting.Meets (fun _ _ => True) readSectionHeader (fun log found before =>
      log = [] ∧ inOrder state.lastKnownSection found.1 = true ∧ state.offset < before.offset ∧
        before.offset + found.2 ≤ state.data.length ∧
        before = { state with offset := before.offset, readEnd := before.offset + found.2 })
      [] state := by
    simp only [readSectionHeader, Emitting.meets_bind, meets_take, Emitting.meets_modify]
    intro code behindCode readCode size behindSize readSize
    cases binarySections[code]? with
    | none => exact Emitting.meets_fail
    | some kind =>
        simp only [Emitting.meets_bind, Emitting.meets_get, meets_require, Emitting.meets_pure, id,
          true_and, and_true, decide_eq_true_eq]
        intro inside ordered _
        exact ⟨ordered, Nat.lt_trans (Reader.readU32Leb128_advances readCode)
          (Reader.readU32Leb128_advances readSize), inside⟩
  have result := meets.2 (kind, size) before (by rw [ran])
  rw [ran] at result
  exact result

end Read

namespace ModuleReader

theorem sectionRead_ok {state : ModuleReader} {found : SectionRead}
    (read : state.sectionRead = some found) :
    Read.readSectionHeader.run state = ([], .ok ((found.kind, found.size), found.before)) ∧
      (Read.readContents found.kind).run found.before = (found.items, .ok ((), found.after)) ∧
      found.header = state.offset ∧ found.after.offset = found.after.readEnd := by
  rw [sectionRead] at read
  cases header : Read.readSectionHeader.run state with
  | mk items result =>
      rw [header] at read
      rcases result with failure | ⟨⟨kind, size⟩, before⟩
      · cases read
      · rw [(Read.readSectionHeader_ok header).1]
        cases contents : (Read.readContents kind).run before with
        | mk inner result =>
            simp only [contents] at read
            rcases result with failure | ⟨⟨⟩, after⟩
            · cases read
            · simp only at read
              split at read
              · rename_i finished
                cases read
                exact ⟨rfl, contents, rfl, finished⟩
              · cases read

theorem finishSection_run {kind : BinarySection} {state : ModuleReader}
    (finished : state.offset = state.readEnd) :
    (Read.finishSection kind).run state = ([], .ok ((),
      { state with
        readEnd := state.data.length
        lastKnownSection := if kind = .custom then state.lastKnownSection else some kind })) := by
  have got : (Emitting.get id : Read ModuleReader).run state = ([], .ok (state, state)) := rfl
  rw [Read.finishSection, Emitting.run_bind_ok got, decide_eq_true finished]
  rfl

theorem finishSection_error {kind : BinarySection} {state : ModuleReader}
    (unfinished : state.offset ≠ state.readEnd) :
    (Read.finishSection kind).run state = ([], .error (.error (.text "unfinished section"))) := by
  have got : (Emitting.get id : Read ModuleReader).run state = ([], .ok (state, state)) := rfl
  rw [Read.finishSection, Emitting.run_bind_ok got, decide_eq_false unfinished]
  rfl

end ModuleReader

/-! ## What one section adds -/

theorem Read.Within.after {kind : BinarySection} {read : Read Unit} {before after : ModuleReader}
    {items : List Item} (within : Read.Within kind read)
    (ran : read.run before = (items, .ok ((), after))) :
    (forall item, item ∈ items -> kind.Makes item) ∧
      ModuleReader.outside kind after = ModuleReader.outside kind before := by
  have framed := within before
  rw [ran] at framed
  exact ⟨framed.1, framed.2 () after rfl⟩

theorem BinarySection.Makes.isBody {kind : BinarySection} {item : Item} (makes : kind.Makes item)
    (other : kind ≠ .code) : item.1.isBody = false := by
  rcases item with ⟨event, offset⟩
  rcases makes with inside | ⟨_, index, init, same⟩
  · cases event with
    | beginFunctionBody _ => exact (other (Option.some.inj inside).symm).elim
    | _ => rfl
  · rw [same]
    rfl

theorem BinarySection.Makes.isImport {kind : BinarySection} {item : Item} (makes : kind.Makes item)
    (other : kind ≠ .import_) : item.1.isImport = false ∧ item.1.imports = 0 := by
  rcases item with ⟨event, offset⟩
  rcases makes with inside | ⟨_, index, init, same⟩
  · cases event with
    | onImport _ _ _ _ | onImportCount _ => exact (other (Option.some.inj inside).symm).elim
    | _ => exact ⟨rfl, rfl⟩
  · rw [same]
    exact ⟨rfl, rfl⟩

theorem BinarySection.Makes.signatures {kind : BinarySection} {item : Item} (makes : kind.Makes item)
    (other : kind ≠ .function) : item.1.signatures = 0 := by
  rcases item with ⟨event, offset⟩
  rcases makes with inside | ⟨_, index, init, same⟩
  · cases event with
    | onFunctionCount _ => exact (other (Option.some.inj inside).symm).elim
    | _ => rfl
  · rw [same]
    rfl

theorem numImports_quiet {items : List Item}
    (quiet : forall item, item ∈ items -> item.1.isImport = false ∧ item.1.imports = 0) :
    numImports items = 0 ∧ numImported items = 0 := by
  constructor
  · induction items with
    | nil => rfl
    | cons item rest inductionHypothesis =>
        have later := inductionHypothesis fun item isMember =>
          quiet item (List.mem_cons_of_mem _ isMember)
        rw [numImports, List.map_cons, List.sum_cons, (quiet item List.mem_cons_self).2,
          Nat.zero_add]
        exact later
  · refine List.countP_eq_zero.mpr fun item isMember => ?_
    rw [(quiet item isMember).1]
    exact Bool.false_ne_true

/-- How a section that is read stands to the reader before it. -/
structure SectionRead.Fits (state : ModuleReader) (found : SectionRead) : Prop where
  header : found.header = state.offset
  behind : state.offset < found.after.offset
  size : found.after.offset = found.before.offset + found.size
  sameData : found.next.data = state.data
  inside : found.next.offset ≤ state.data.length
  nextOffset : found.next.offset = found.after.offset
  ordered : Read.inOrder state.lastKnownSection found.kind = true
  last : found.next.lastKnownSection =
    if found.kind = .custom then state.lastKnownSection else some found.kind
  sameSignatures : found.kind ≠ .function ->
    found.next.numFunctionSignatures = state.numFunctionSignatures
  function : found.kind = .function ->
    numSignatures found.items = found.next.numFunctionSignatures
  noFunction : found.kind ≠ .function -> numSignatures found.items = 0
  code : found.kind = .code -> numBodies found.items = state.numFunctionSignatures
  noCode : found.kind ≠ .code -> numBodies found.items = 0
  imports : found.kind = .import_ ->
    numImports found.items = found.before.sectionImportKinds.length ∧
      numImported found.items =
        found.before.sectionImportKinds.countP (· < externalKinds.length)
  noImports : found.kind ≠ .import_ ->
    numImports found.items = 0 ∧ numImported found.items = 0

theorem ModuleReader.sectionRead_fits {state : ModuleReader} {found : SectionRead}
    (read : state.sectionRead = some found) : found.Fits state := by
  rcases sectionRead_ok read with ⟨header, contents, start, finished⟩
  rcases Read.readSectionHeader_ok header with ⟨_, ordered, forward, inside, before⟩
  have framed := (Read.within_readContents found.kind).after contents
  have sameData : found.after.data = found.before.data := by
    have same := congrArg ModuleReader.data framed.2
    rwa [outside_data, outside_data] at same
  have sameEnd : found.after.readEnd = found.before.readEnd := by
    have same := congrArg ModuleReader.readEnd framed.2
    rwa [outside_readEnd, outside_readEnd] at same
  have sameLast : found.after.lastKnownSection = found.before.lastKnownSection := by
    have same := congrArg ModuleReader.lastKnownSection framed.2
    rwa [outside_lastKnownSection, outside_lastKnownSection] at same
  have beforeEnd : found.before.readEnd = found.before.offset + found.size := by rw [before]
  have size : found.after.offset = found.before.offset + found.size := by
    rw [finished, sameEnd, beforeEnd]
  constructor
  case header => exact start
  case behind => omega
  case size => exact size
  case sameData =>
    change found.after.data = _
    rw [sameData, before]
  case inside =>
    change found.after.offset ≤ _
    omega
  case nextOffset => rfl
  case ordered => exact ordered
  case last =>
    change (if found.kind = .custom then found.after.lastKnownSection else _) = _
    rw [sameLast, before]
  case sameSignatures =>
    intro other
    change found.after.numFunctionSignatures = _
    have same := congrArg ModuleReader.numFunctionSignatures framed.2
    rw [outside_numFunctionSignatures other, outside_numFunctionSignatures other] at same
    rw [same, before]
  case function =>
    intro kind
    rw [kind] at contents
    have meets := (Read.readFunctionSection_meets found.before).2 () found.after
    change (Read.readFunctionSection.run found.before) = _ at contents
    rw [contents] at meets
    exact meets rfl
  case noFunction =>
    intro other
    exact Read.numSignatures_quiet fun item isMember => (framed.1 item isMember).signatures other
  case code =>
    intro kind
    rw [kind] at contents
    have meets := (Read.readCodeSection_meets found.before).2 () found.after
    change (Read.readCodeSection.run found.before) = _ at contents
    rw [contents] at meets
    exact (meets rfl).trans (by rw [before])
  case noCode =>
    intro other
    exact Read.numBodies_quiet fun item isMember => (framed.1 item isMember).isBody other
  case imports =>
    intro kind
    rw [kind] at contents
    have meets := (Read.readImportSection_meets found.before).2 () found.after
    change (Read.readImportSection.run found.before) = _ at contents
    rw [contents] at meets
    exact meets rfl
  case noImports =>
    intro other
    exact numImports_quiet fun item isMember => (framed.1 item isMember).isImport other

/-! ## All sections -/

/-- Sections read one behind another, up to the end of the module. -/
inductive Reads : ModuleReader -> List SectionRead -> Prop where
  | done {state : ModuleReader} (finished : state.data.length ≤ state.offset) : Reads state []
  | next {state : ModuleReader} {found : SectionRead} {rest : List SectionRead}
      (read : state.sectionRead = some found) (later : Reads found.next rest) :
      Reads state (found :: rest)

def sectionsLog (sections : List SectionRead) : List Item :=
  sections.flatMap SectionRead.log

theorem numBodies_sections (found : SectionRead) (rest : List SectionRead) :
    numBodies (sectionsLog (found :: rest)) =
      numBodies found.items + numBodies (sectionsLog rest) := by
  change numBodies ([_] ++ found.items ++ sectionsLog rest) = _
  rw [numBodies_append, numBodies_append]
  exact congrArg (· + _) (Nat.zero_add _)

theorem numSignatures_sections (found : SectionRead) (rest : List SectionRead) :
    numSignatures (sectionsLog (found :: rest)) =
      numSignatures found.items + numSignatures (sectionsLog rest) := by
  change numSignatures ([_] ++ found.items ++ sectionsLog rest) = _
  rw [numSignatures_append, numSignatures_append]
  exact congrArg (· + _) (Nat.zero_add _)

theorem numImported_sections (found : SectionRead) (rest : List SectionRead) :
    numImported (sectionsLog (found :: rest)) =
      numImported found.items + numImported (sectionsLog rest) := by
  change numImported ([_] ++ found.items ++ sectionsLog rest) = _
  rw [numImported_append, numImported_append]
  exact congrArg (· + _) (Nat.zero_add _)

theorem numImports_sections (found : SectionRead) (rest : List SectionRead) :
    numImports (sectionsLog (found :: rest)) =
      numImports found.items + numImports (sectionsLog rest) := by
  change numImports ([_] ++ found.items ++ sectionsLog rest) = _
  rw [numImports_append, numImports_append]
  exact congrArg (· + _) (Nat.zero_add _)

namespace Reads

variable {state : ModuleReader} {sections : List SectionRead}

/-- Known sections come behind those before. -/
theorem above (reads : Reads state sections) {last : BinarySection}
    (known : state.lastKnownSection = some last) :
    forall found, found ∈ sections -> found.kind ≠ .custom -> last.number < found.kind.number := by
  induction reads generalizing last with
  | done _ =>
      intro found isMember
      cases isMember
  | @next state first rest read later inductionHypothesis =>
      have fits := ModuleReader.sectionRead_fits read
      have ordered := fits.ordered
      have follows := fits.last
      intro found isMember other
      by_cases custom : first.kind = .custom
      · rw [if_pos custom, known] at follows
        rcases List.mem_cons.mp isMember with rfl | isMember
        · exact (other custom).elim
        · exact inductionHypothesis follows found isMember other
      · rw [if_neg custom] at follows
        have inFront : last.number < first.kind.number := by
          rw [known] at ordered
          simpa [Read.inOrder, custom] using ordered
        rcases List.mem_cons.mp isMember with rfl | isMember
        · exact inFront
        · exact Nat.lt_trans inFront (inductionHypothesis follows found isMember other)

theorem ordered (reads : Reads state sections) :
    ((sections.map (·.kind)).filter (· ≠ .custom)).Pairwise
      (fun first second => first.number < second.number) := by
  induction reads with
  | done _ => exact .nil
  | @next state first rest read later inductionHypothesis =>
      have follows := (ModuleReader.sectionRead_fits read).last
      by_cases custom : first.kind = .custom
      · simpa [custom] using inductionHypothesis
      · rw [if_neg custom] at follows
        rw [List.map_cons, List.filter_cons_of_pos (by simpa using custom)]
        refine .cons (fun kind isMember => ?_) inductionHypothesis
        rw [List.mem_filter, List.mem_map] at isMember
        rcases isMember with ⟨⟨found, isMember, rfl⟩, other⟩
        exact later.above follows found isMember (of_decide_eq_true other)

/-- Behind the function section no signatures are announced. -/
theorem noFunction (reads : Reads state sections) {last : BinarySection}
    (known : state.lastKnownSection = some last) (behind : 3 ≤ last.number) :
    numSignatures (sectionsLog sections) = 0 := by
  have noneOf : forall found, found ∈ sections -> found.kind ≠ .function := by
    intro found isMember kind
    have inFront := reads.above known found isMember (by rw [kind]; exact nofun)
    rw [kind] at inFront
    exact absurd inFront (Nat.not_lt.mpr behind)
  clear known
  induction reads with
  | done _ => rfl
  | @next state first rest read later inductionHypothesis =>
      rw [numSignatures_sections,
        (ModuleReader.sectionRead_fits read).noFunction (noneOf first List.mem_cons_self),
        inductionHypothesis fun found isMember => noneOf found (List.mem_cons_of_mem _ isMember)]

/-- Behind the code section no bodies are delivered. -/
theorem noCode (reads : Reads state sections)
    (none_ : (sections.any fun found => found.kind = .code) = false) :
    numBodies (sectionsLog sections) = 0 := by
  induction reads with
  | done _ => rfl
  | @next state first rest read later inductionHypothesis =>
      rw [List.any_cons, Bool.or_eq_false_iff] at none_
      rw [numBodies_sections, inductionHypothesis none_.2,
        (ModuleReader.sectionRead_fits read).noCode (of_decide_eq_false none_.1)]

end Reads

/-- Until the function section is read no signatures are counted. -/
def ModuleReader.Fresh (state : ModuleReader) : Prop :=
  (forall last, state.lastKnownSection = some last -> last.number < 3) ->
    state.numFunctionSignatures = 0

namespace SectionRead.Fits

variable {state : ModuleReader} {found : SectionRead}

theorem inFront (fits : found.Fits state) (other : found.kind ≠ .custom) {last : BinarySection}
    (known : state.lastKnownSection = some last) : last.number < found.kind.number := by
  have ordered := fits.ordered
  rw [known] at ordered
  simpa [Read.inOrder, other] using ordered

theorem fresh (fits : found.Fits state) (before : state.Fresh) : found.next.Fresh := by
  intro early
  have follows := fits.last
  by_cases function : found.kind = .function
  · rw [function, if_neg (by exact nofun)] at follows
    exact absurd (early _ follows) (Nat.lt_irrefl 3)
  · rw [fits.sameSignatures function]
    refine before fun last known => ?_
    by_cases custom : found.kind = .custom
    · rw [if_pos custom, known] at follows
      exact early last follows
    · rw [if_neg custom] at follows
      exact Nat.lt_trans (fits.inFront custom known) (early _ follows)

/-- The reader counts the signatures that are announced. -/
theorem signatures (fits : found.Fits state) (before : state.Fresh) :
    found.next.numFunctionSignatures =
      state.numFunctionSignatures + numSignatures found.items := by
  by_cases function : found.kind = .function
  · have none_ : state.numFunctionSignatures = 0 := by
      refine before fun last known => ?_
      have inFront := fits.inFront (by rw [function]; exact nofun) known
      rw [function] at inFront
      exact inFront
    rw [fits.function function, none_, Nat.zero_add]
  · rw [fits.sameSignatures function, fits.noFunction function, Nat.add_zero]

end SectionRead.Fits

namespace Reads

variable {state : ModuleReader} {sections : List SectionRead}

/-- A code section delivers a body for every signature. -/
theorem bodies (reads : Reads state sections) (fresh : state.Fresh) :
    numBodies (sectionsLog sections) =
      if sections.any fun found => found.kind = .code then
        state.numFunctionSignatures + numSignatures (sectionsLog sections)
      else 0 := by
  induction reads with
  | done _ => rfl
  | @next state first rest read later inductionHypothesis =>
      have fits := ModuleReader.sectionRead_fits read
      rw [numBodies_sections, numSignatures_sections, List.any_cons]
      by_cases code : first.kind = .code
      · have notFunction : first.kind ≠ .function := by
          rw [code]
          exact nofun
        have known : first.next.lastKnownSection = some .code := by
          rw [fits.last, code, if_neg (by exact nofun)]
        have noMore : (rest.any fun found => found.kind = .code) = false := by
          rw [List.any_eq_false]
          intro found isMember kind
          have same := of_decide_eq_true kind
          have behind := later.above known found isMember (by rw [same]; exact nofun)
          rw [same] at behind
          exact Nat.lt_irrefl _ behind
        rw [later.noCode noMore, later.noFunction known (by decide), fits.code code,
          fits.noFunction notFunction, decide_eq_true code, Bool.true_or]
        rfl
      · rw [inductionHypothesis (fits.fresh fresh), fits.noCode code, Nat.zero_add,
          fits.signatures fresh, decide_eq_false code, Bool.false_or, Nat.add_assoc]

/-- All imports are delivered exactly if all are of defined kinds. -/
theorem imports (reads : Reads state sections) :
    numImported (sectionsLog sections) ≤ numImports (sectionsLog sections) ∧
      (numImported (sectionsLog sections) = numImports (sectionsLog sections) ↔
        forall found, found ∈ sections -> found.kind = .import_ ->
          forall kind, kind ∈ found.before.sectionImportKinds -> kind < externalKinds.length) := by
  induction reads with
  | done _ =>
      refine ⟨Nat.le_refl _, fun _ found isMember => ?_, fun _ => rfl⟩
      cases isMember
  | @next state first rest read later inductionHypothesis =>
      have fits := ModuleReader.sectionRead_fits read
      rcases inductionHypothesis with ⟨less, same⟩
      have here : numImported first.items ≤ numImports first.items ∧
          (numImported first.items = numImports first.items ↔ (first.kind = .import_ ->
            forall kind, kind ∈ first.before.sectionImportKinds ->
              kind < externalKinds.length)) := by
        by_cases import_ : first.kind = .import_
        · rw [(fits.imports import_).1, (fits.imports import_).2]
          refine ⟨List.countP_le_length, ?_⟩
          rw [List.countP_eq_length]
          simp [import_]
        · rw [(fits.noImports import_).1, (fits.noImports import_).2]
          exact ⟨Nat.le_refl _, fun _ kind => (import_ kind).elim, fun _ => rfl⟩
      rw [numImported_sections, numImports_sections]
      refine ⟨Nat.add_le_add here.1 less, fun total => ?_, fun all => ?_⟩
      · have parts : numImported first.items = numImports first.items ∧
            numImported (sectionsLog rest) = numImports (sectionsLog rest) := by
          omega
        intro found isMember
        rcases List.mem_cons.mp isMember with rfl | isMember
        · exact here.2.mp parts.1
        · exact same.mp parts.2 found isMember
      · rw [here.2.mpr (all first List.mem_cons_self), same.mpr fun found isMember =>
          all found (List.mem_cons_of_mem _ isMember)]

end Reads

/-! ## The module -/

/-- What is delivered of a module that is accepted. -/
def Accepted (start : ModuleReader) (items : List Item) : Prop :=
  exists final, Read.readModule.run start = (items, .ok ((), final))

section

variable {data : List (BitVec 8)} {features : Features}
  {readDebugNames failOnCustomSectionError : Bool} {items : List Item}

end

def noFeatures : Features :=
  ⟨false, false, false, false, false⟩

end Binary
end WasmSandboxing
