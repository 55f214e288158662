import WasmSandboxing.Binary.Sections

namespace WasmSandboxing
namespace Binary

open Foundation

/-!
# What a section leaves alone

The contents of a section make the callbacks of that section only, and change
its own counts only.
-/

/-- The section whose contents make a callback; none for those between sections. -/
def Event.within : Event -> Option BinarySection
  | .beginSection _ _ => none
  | .endSection kind => some kind
  | .onTypeCount _ => some .type
  | .onType _ _ _ => some .type
  | .onImportCount _ => some .import_
  | .onImport _ _ _ _ => some .import_
  | .onImportFunc _ _ _ _ _ => some .import_
  | .onImportTable _ _ _ _ _ _ => some .import_
  | .onImportMemory _ _ _ _ _ => some .import_
  | .onImportGlobal _ _ _ _ _ _ => some .import_
  | .onImportException _ _ _ _ _ => some .import_
  | .onFunctionCount _ => some .function
  | .onFunction _ _ => some .function
  | .onTableCount _ => some .table
  | .onTable _ _ _ => some .table
  | .onMemoryCount _ => some .memory
  | .onMemory _ _ => some .memory
  | .onGlobalCount _ => some .global
  | .beginGlobal _ _ _ => some .global
  | .beginGlobalInitExpr _ => some .global
  | .endGlobalInitExpr _ => some .global
  | .onInitExpr _ _ => none
  | .onExportCount _ => some .export_
  | .onExport _ _ _ _ => some .export_
  | .onStartFunction _ => some .start
  | .onElemSegmentCount _ => some .elem
  | .beginElemSegment _ _ => some .elem
  | .beginElemSegmentInitExpr _ => some .elem
  | .endElemSegmentInitExpr _ => some .elem
  | .onElemSegmentFunctionIndexCount _ _ => some .elem
  | .onElemSegmentFunctionIndex _ _ => some .elem
  | .onFunctionBodyCount _ => some .code
  | .beginFunctionBody _ => some .code
  | .onLocalDeclCount _ => some .code
  | .onLocalDecl _ _ _ => some .code
  | .onExpr _ => some .code
  | .onEndFunc => some .code
  | .endFunctionBody _ => some .code
  | .onDataSegmentCount _ => some .data
  | .beginDataSegment _ _ => some .data
  | .beginDataSegmentInitExpr _ => some .data
  | .endDataSegmentInitExpr _ => some .data
  | .onDataSegmentData _ _ => some .data
  | .onExceptionType _ _ => some .custom
  | .endModule => none

/-- The sections that hold initialisers. -/
def BinarySection.hasInitExprs : BinarySection -> Bool
  | .global => true
  | .elem => true
  | .data => true
  | _ => false

/-- The callbacks that the contents of a section can make. -/
def BinarySection.Makes (kind : BinarySection) (item : Item) : Prop :=
  item.1.within = some kind ∨
    kind.hasInitExprs = true ∧ exists index init, item.1 = .onInitExpr index init

/-- The callbacks of a body behind its first. -/
def Event.inBody : Event -> Bool
  | .onLocalDeclCount _ => true
  | .onLocalDecl _ _ _ => true
  | .onExpr _ => true
  | .onEndFunc => true
  | .endFunctionBody _ => true
  | _ => false

def Event.InBody (item : Item) : Prop :=
  item.1.inBody = true

theorem Event.inBody_within {item : Item} (inBody : Event.InBody item) :
    item.1.within = some .code := by
  rcases item with ⟨event, offset⟩
  cases event with
  | onLocalDeclCount _ | onLocalDecl _ _ _ | onExpr _ | onEndFunc | endFunctionBody _ => rfl
  | _ => cases inBody

namespace ModuleReader

/-- The reader without its place and without what a section counts. -/
def outside (kind : BinarySection) (state : ModuleReader) : ModuleReader :=
  match kind with
  | .custom => { state with offset := 0, didReadNamesSection := false }
  | .type => { state with offset := 0, numSignatures := 0 }
  | .import_ =>
      { state with
        offset := 0, numFuncImports := 0, numTableImports := 0, numMemoryImports := 0
        numGlobalImports := 0, numExceptionImports := 0 }
  | .function => { state with offset := 0, numFunctionSignatures := 0 }
  | .table => { state with offset := 0, numTables := 0 }
  | .memory => { state with offset := 0, numMemories := 0 }
  | .global => { state with offset := 0, numGlobals := 0 }
  | .export_ | .start | .elem | .code | .data => { state with offset := 0 }

theorem outside_offset (kind : BinarySection) (state : ModuleReader) (offset : Nat) :
    outside kind { state with offset := offset } = outside kind state := by
  cases kind <;> rfl

theorem outside_data (kind : BinarySection) (state : ModuleReader) :
    (outside kind state).data = state.data := by
  cases kind <;> rfl

theorem outside_readEnd (kind : BinarySection) (state : ModuleReader) :
    (outside kind state).readEnd = state.readEnd := by
  cases kind <;> rfl

theorem outside_lastKnownSection (kind : BinarySection) (state : ModuleReader) :
    (outside kind state).lastKnownSection = state.lastKnownSection := by
  cases kind <;> rfl

theorem outside_numFunctionSignatures {kind : BinarySection} (other : kind ≠ .function)
    (state : ModuleReader) :
    (outside kind state).numFunctionSignatures = state.numFunctionSignatures := by
  cases kind with
  | function => exact (other rfl).elim
  | _ => rfl

end ModuleReader

namespace Read

open ModuleReader
open Emitting (frames_bind frames_pure frames_get frames_modify frames_fail frames_repeated
  frames_collected)

/-- The contents of a section frame what is outside of it. -/
abbrev Within (kind : BinarySection) (read : Read Result) : Prop :=
  Emitting.Frames kind.Makes (outside kind) read

variable {kind : BinarySection} {quiet : Item -> Prop}

theorem frames_read {read : Reader -> Nat -> Except Failure (Result × Nat)} :
    Emitting.Frames quiet (outside kind) (take read) :=
  frames_take (outside_offset kind)

theorem within_pass {event : Event} (inside : event.within = some kind) :
    Within kind (pass event) :=
  frames_pass fun _ => .inl inside

theorem frames_ite {holds : Prop} [Decidable holds] {first second : Read Result}
    (here : Emitting.Frames quiet (outside kind) first)
    (there : Emitting.Frames quiet (outside kind) second) :
    Emitting.Frames quiet (outside kind) (if holds then first else second) := by
  split
  · exact here
  · exact there

theorem frames_readConcreteType {desc message : String} :
    Emitting.Frames quiet (outside kind) (readConcreteType desc message) :=
  frames_bind frames_read fun _ => frames_bind frames_get fun _ =>
    frames_bind frames_require fun _ => frames_pure

theorem frames_readTable : Emitting.Frames quiet (outside kind) readTable :=
  frames_bind frames_read fun _ => frames_bind frames_require fun _ =>
    frames_bind frames_read fun _ => frames_bind frames_read fun _ =>
      frames_bind frames_require fun _ => frames_ite
        (frames_bind frames_read fun _ => frames_bind frames_require fun _ =>
          frames_pure)
        frames_pure

theorem frames_readMemory : Emitting.Frames quiet (outside kind) readMemory :=
  frames_bind frames_read fun _ => frames_bind frames_read fun _ =>
    frames_bind frames_require fun _ => frames_bind frames_require fun _ =>
      frames_ite
        (frames_bind frames_read fun _ => frames_bind frames_require fun _ =>
          frames_bind frames_require fun _ => frames_pure)
        frames_pure

theorem frames_readGlobalHeader : Emitting.Frames quiet (outside kind) readGlobalHeader :=
  frames_bind frames_readConcreteType fun _ => frames_bind frames_read fun _ =>
    frames_bind frames_require fun _ => frames_pure

theorem frames_readExceptionType : Emitting.Frames quiet (outside kind) readExceptionType :=
  frames_bind frames_read fun _ =>
    frames_collected (fun _ => frames_readConcreteType) _ _

theorem within_readInitExpr {index : Nat} {requireI32 : Bool}
    (hasInitExprs : kind.hasInitExprs = true) : Within kind (readInitExpr index requireI32) :=
  frames_bind frames_read fun _ => frames_ite frames_pure
    (frames_bind frames_read fun init =>
      frames_bind (frames_pass fun _ => .inr ⟨hasInitExprs, index, init, rfl⟩) fun _ =>
        frames_bind frames_require fun _ => frames_bind frames_read fun _ =>
          frames_require)

/-! ## The sections -/

theorem within_readTypeSection : Within .type readTypeSection := by
  refine frames_bind frames_read fun _ =>
    frames_bind (frames_modify fun _ => rfl) fun _ =>
      frames_bind (within_pass rfl) fun _ =>
        frames_bind (frames_repeated (fun _ => ?_) _ _) fun _ => within_pass rfl
  exact frames_bind frames_read fun _ => frames_bind frames_require fun _ =>
    frames_bind frames_read fun _ =>
      frames_bind (frames_collected (fun _ => frames_readConcreteType) _ _)
        fun _ => frames_bind frames_read fun _ =>
          frames_bind frames_get fun _ =>
            frames_bind frames_require fun _ =>
              frames_bind
                (frames_collected (fun _ => frames_readConcreteType) _ _)
                fun _ => within_pass rfl

theorem within_readImport (index : Nat) : Within .import_ (readImport index) := by
  refine frames_bind frames_read fun _ => frames_bind frames_read fun _ =>
    frames_bind frames_read fun kind => ?_
  rcases externalKinds[kind]? with _ | known
  · exact frames_pure
  · cases known with
    | func =>
        exact frames_bind frames_read fun _ =>
          frames_bind frames_get fun _ =>
            frames_bind frames_require fun _ =>
              frames_bind (within_pass rfl) fun _ =>
                frames_bind (within_pass rfl) fun _ =>
                  frames_modify fun _ => rfl
    | table =>
        exact frames_bind frames_readTable fun _ =>
          frames_bind (within_pass rfl) fun _ =>
            frames_bind frames_get fun _ =>
              frames_bind (within_pass rfl) fun _ => frames_modify fun _ => rfl
    | memory =>
        exact frames_bind frames_readMemory fun _ =>
          frames_bind (within_pass rfl) fun _ =>
            frames_bind frames_get fun _ =>
              frames_bind (within_pass rfl) fun _ => frames_modify fun _ => rfl
    | global =>
        exact frames_bind frames_readGlobalHeader fun _ =>
          frames_bind (within_pass rfl) fun _ =>
            frames_bind frames_get fun _ =>
              frames_bind (within_pass rfl) fun _ => frames_modify fun _ => rfl
    | except =>
        exact frames_bind frames_get fun _ =>
          frames_bind frames_require fun _ =>
            frames_bind frames_readExceptionType fun _ =>
              frames_bind (within_pass rfl) fun _ =>
                frames_bind (within_pass rfl) fun _ =>
                  frames_modify fun _ => rfl

theorem within_readImportSection : Within .import_ readImportSection :=
  frames_bind frames_read fun _ => frames_bind (within_pass rfl) fun _ =>
    frames_bind (frames_repeated within_readImport _ _) fun _ => within_pass rfl

theorem within_readFunctionSection : Within .function readFunctionSection := by
  refine frames_bind frames_read fun _ => frames_bind (frames_modify fun _ => rfl) fun _ =>
    frames_bind (within_pass rfl) fun _ =>
      frames_bind (frames_repeated (fun _ => ?_) _ _) fun _ => within_pass rfl
  exact frames_bind frames_read fun _ => frames_bind frames_get fun _ =>
    frames_bind frames_require fun _ => within_pass rfl

theorem frames_readTableSection : Within .table readTableSection := by
  refine frames_bind frames_read fun _ => frames_bind (frames_modify fun _ => rfl) fun _ =>
    frames_bind frames_require fun _ => frames_bind (within_pass rfl) fun _ =>
      frames_bind (frames_repeated (fun _ => ?_) _ _) fun _ => within_pass rfl
  exact frames_bind frames_readTable fun _ => frames_bind frames_get fun _ => within_pass rfl

theorem frames_readMemorySection : Within .memory readMemorySection := by
  refine frames_bind frames_read fun _ => frames_bind (frames_modify fun _ => rfl) fun _ =>
    frames_bind frames_require fun _ => frames_bind (within_pass rfl) fun _ =>
      frames_bind (frames_repeated (fun _ => ?_) _ _) fun _ => within_pass rfl
  exact frames_bind frames_readMemory fun _ => frames_bind frames_get fun _ => within_pass rfl

theorem within_readGlobalSection : Within .global readGlobalSection := by
  refine frames_bind frames_read fun _ => frames_bind (frames_modify fun _ => rfl) fun _ =>
    frames_bind (within_pass rfl) fun _ =>
      frames_bind (frames_repeated (fun _ => ?_) _ _) fun _ => within_pass rfl
  exact frames_bind frames_readGlobalHeader fun _ => frames_bind frames_get fun _ =>
    frames_bind (within_pass rfl) fun _ => frames_bind (within_pass rfl) fun _ =>
      frames_bind (within_readInitExpr rfl) fun _ => within_pass rfl

theorem within_readExportSection : Within .export_ readExportSection := by
  refine frames_bind frames_read fun _ => frames_bind (within_pass rfl) fun _ =>
    frames_bind (frames_repeated (fun _ => ?_) _ _) fun _ => within_pass rfl
  refine frames_bind frames_read fun _ => frames_bind frames_read fun kind => ?_
  rcases externalKinds[kind]? with _ | known
  · exact frames_fail
  · exact frames_bind frames_read fun _ => frames_bind frames_get fun _ =>
      frames_bind frames_require fun _ => within_pass rfl

theorem within_readStartSection : Within .start readStartSection :=
  frames_bind frames_read fun _ => frames_bind frames_get fun _ =>
    frames_bind frames_require fun _ => frames_bind (within_pass rfl) fun _ => within_pass rfl

theorem within_readElemSection : Within .elem readElemSection := by
  refine frames_bind frames_read fun _ => frames_bind (within_pass rfl) fun _ =>
    frames_bind frames_get fun _ => frames_bind frames_require fun _ =>
      frames_bind (frames_repeated (fun _ => ?_) _ _) fun _ => within_pass rfl
  refine frames_bind frames_read fun _ => frames_bind (within_pass rfl) fun _ =>
    frames_bind (within_pass rfl) fun _ => frames_bind (within_readInitExpr rfl) fun _ =>
      frames_bind (within_pass rfl) fun _ => frames_bind frames_read fun _ =>
        frames_bind (within_pass rfl) fun _ => frames_repeated (fun _ => ?_) _ _
  exact frames_bind frames_read fun _ => within_pass rfl

theorem within_readDataSection : Within .data readDataSection := by
  refine frames_bind frames_read fun _ => frames_bind (within_pass rfl) fun _ =>
    frames_bind frames_get fun _ => frames_bind frames_require fun _ =>
      frames_bind (frames_repeated (fun _ => ?_) _ _) fun _ => within_pass rfl
  exact frames_bind frames_read fun _ => frames_bind (within_pass rfl) fun _ =>
    frames_bind (within_pass rfl) fun _ => frames_bind (within_readInitExpr rfl) fun _ =>
      frames_bind (within_pass rfl) fun _ => frames_bind frames_read fun _ => within_pass rfl

theorem readLocalDecls_frames (count index totalLocals : Nat) :
    Emitting.Frames Event.InBody (outside .code) (readLocalDecls count index totalLocals) := by
  induction count generalizing index totalLocals with
  | zero => exact frames_pure
  | succ count inductionHypothesis =>
      exact frames_bind frames_read fun _ => frames_bind frames_require fun _ =>
        frames_bind frames_require fun _ => frames_bind frames_readConcreteType fun _ =>
          frames_bind (frames_pass fun _ => rfl) fun _ => inductionHypothesis _ _

theorem readFunctionBody_frames (endOffset : Nat) :
    Emitting.Frames Event.InBody (outside .code) (readFunctionBody endOffset) := by
  intro state
  refine ⟨fun item isMember => ?_, fun result after same => ?_⟩
  · rcases List.mem_map.mp isMember with ⟨decoded, _, rfl⟩
    rw [opcodeItem]
    split
    · rfl
    · rfl
  · rw [readFunctionBody] at same
    simp only at same
    split at same
    · cases same
    · cases same
      rfl

theorem readBodyContents_frames (index : Nat) :
    Emitting.Frames Event.InBody (outside .code) (readBodyContents index) :=
  frames_bind frames_read fun _ => frames_bind frames_get fun _ =>
    frames_bind frames_read fun _ =>
      frames_bind (frames_pass fun _ => rfl) fun _ =>
        frames_bind (readLocalDecls_frames _ _ _) fun _ =>
          frames_bind (readFunctionBody_frames _) fun _ => frames_pass fun _ => rfl

theorem within_readCodeSection : Within .code readCodeSection := by
  refine frames_bind frames_read fun _ => frames_bind (within_pass rfl) fun _ =>
    frames_bind (frames_repeated (fun _ => ?_) _ _) fun _ => within_pass rfl
  exact frames_bind frames_get fun _ => frames_bind (within_pass rfl) fun _ =>
    (readBodyContents_frames _).weaken fun item inBody => .inl (Event.inBody_within inBody)

theorem within_readCustomContents : Within .custom readCustomContents := by
  refine frames_bind frames_read fun name => frames_bind frames_get fun state => ?_
  refine frames_ite ?_ (frames_ite frames_read (frames_ite frames_read (frames_ite ?_ ?_)))
  · exact frames_bind frames_read fun _ => frames_modify fun _ => rfl
  · exact frames_bind frames_read fun _ => frames_repeated (fun _ =>
      frames_bind frames_readExceptionType fun _ => within_pass rfl) _ _
  · exact frames_modify fun _ => rfl

theorem within_readCustomSection : Within .custom readCustomSection := by
  intro state
  have framed : Within .custom readNamedSection :=
    frames_bind within_readCustomContents fun _ => within_pass rfl
  have here := framed state
  change (forall item, item ∈ (leaveOut state (readNamedSection.run state)).1 -> _) ∧
    forall result after, (leaveOut state (readNamedSection.run state)).2 = _ -> _
  generalize readNamedSection.run state = ran at here
  rcases ran with ⟨items, (message | what) | ended⟩
  · rw [leaveOut]
    split
    · exact here
    · refine ⟨here.1, fun result after same => ?_⟩
      cases same
      exact outside_offset .custom state _
  · exact here
  · exact here

/-- Every section keeps to itself. -/
theorem within_readContents (kind : BinarySection) : Within kind (readContents kind) := by
  cases kind with
  | custom => exact within_readCustomSection
  | type => exact within_readTypeSection
  | import_ => exact within_readImportSection
  | function => exact within_readFunctionSection
  | table => exact frames_readTableSection
  | memory => exact frames_readMemorySection
  | global => exact within_readGlobalSection
  | export_ => exact within_readExportSection
  | start => exact within_readStartSection
  | elem => exact within_readElemSection
  | code => exact within_readCodeSection
  | data => exact within_readDataSection

end Read

end Binary
end WasmSandboxing
