import WasmSandboxing.Binary.Complete
import WasmSandboxing.Binary.Declared

namespace WasmSandboxing
namespace Binary

open Foundation

/-!
# The callbacks come in order

The reader's counts agree with what it has told the delegate, and every
callback of a module is one that may come next.
-/

open ModuleReader (outside)

theorem inOrder_trans {last : Option BinarySection} {kind later : BinarySection}
    (known : kind ≠ .custom) (here : Read.inOrder last kind = true)
    (there : Read.inOrder (some kind) later = true) : Read.inOrder last later = true := by
  cases last with
  | none => simp [Read.inOrder]
  | some last =>
      simp only [Read.inOrder, Bool.or_eq_true, decide_eq_true_eq, Option.all_some] at *
      rcases there with there | there
      · exact .inl there
      · rcases here with here | here
        · exact (known here).elim
        · exact .inr (by omega)

/-- What the reader counts, exceptions apart. -/
structure Counts where
  numSignatures : Nat
  numFuncImports : Nat
  numFunctionSignatures : Nat
  numTableImports : Nat
  numTables : Nat
  numMemoryImports : Nat
  numMemories : Nat
  numGlobalImports : Nat
  numGlobals : Nat

def ModuleReader.counts (state : ModuleReader) : Counts where
  numSignatures := state.numSignatures
  numFuncImports := state.numFuncImports
  numFunctionSignatures := state.numFunctionSignatures
  numTableImports := state.numTableImports
  numTables := state.numTables
  numMemoryImports := state.numMemoryImports
  numMemories := state.numMemories
  numGlobalImports := state.numGlobalImports
  numGlobals := state.numGlobals

/-- The sections that count nothing. -/
def BinarySection.countsNothing : BinarySection -> Bool
  | .custom | .export_ | .start | .elem | .code | .data => true
  | _ => false

theorem ModuleReader.counts_outside {state after : ModuleReader} {kind : BinarySection}
    (nothing : kind.countsNothing = true) (same : outside kind after = outside kind state) :
    after.counts = state.counts := by
  cases kind with
  | custom | export_ | start | elem | code | data =>
      have counted := congrArg ModuleReader.counts same
      exact counted
  | _ => cases nothing

/-- How the counts of the reader stand to what it told, with the known sections
up to `last` behind it. -/
structure Agrees (last : Option BinarySection) (found : Declared) (counts : Counts) : Prop where
  types : found.types.length = counts.numSignatures
  numFuncImports : found.numFuncImports = counts.numFuncImports
  funcs : found.funcs.length = counts.numFuncImports + counts.numFunctionSignatures
  numTables : found.numTables = counts.numTableImports + counts.numTables
  numMemories : found.numMemories = counts.numMemoryImports + counts.numMemories
  numGlobalImports : found.numGlobalImports = counts.numGlobalImports
  globals : found.globals.length = counts.numGlobalImports + counts.numGlobals
  noTypes : Read.inOrder last .type = true -> found.typeCount = none ∧ counts.numSignatures = 0
  noFuncs : Read.inOrder last .function = true ->
    found.funcCount = none ∧ counts.numFunctionSignatures = 0
  noTables : Read.inOrder last .table = true -> counts.numTables = 0
  noMemories : Read.inOrder last .memory = true -> counts.numMemories = 0
  noGlobals : Read.inOrder last .global = true ->
    found.globalCount = none ∧ counts.numGlobals = 0

namespace Agrees

variable {last : Option BinarySection} {found : Declared} {counts : Counts}

theorem nothing (data : List (BitVec 8)) (features : Features)
    (readDebugNames failOnCustomSectionError : Bool) :
    Agrees none .nothing
      (ModuleReader.start data features readDebugNames failOnCustomSectionError).counts :=
  ⟨rfl, rfl, rfl, rfl, rfl, rfl, rfl, fun _ => ⟨rfl, rfl⟩, fun _ => ⟨rfl, rfl⟩, fun _ => rfl,
    fun _ => rfl, fun _ => ⟨rfl, rfl⟩⟩

theorem advance {kind : BinarySection} (agrees : Agrees last found counts)
    (known : kind ≠ .custom) (ordered : Read.inOrder last kind = true) :
    Agrees (some kind) found counts where
  __ := agrees
  noTypes := fun later => agrees.noTypes (inOrder_trans known ordered later)
  noFuncs := fun later => agrees.noFuncs (inOrder_trans known ordered later)
  noTables := fun later => agrees.noTables (inOrder_trans known ordered later)
  noMemories := fun later => agrees.noMemories (inOrder_trans known ordered later)
  noGlobals := fun later => agrees.noGlobals (inOrder_trans known ordered later)

end Agrees

namespace Read

variable {last : Option BinarySection} {log : List Item} {state : ModuleReader}

/-- What a section keeps: its callbacks come in order, and the counts agree
with what is declared behind it. -/
def KeepsOrder (kind : BinarySection) : Prop :=
  forall last log state, inOrder last kind = true -> Agrees last (declared log) state.counts ->
    Emitting.Meets Orderly (readContents kind)
      (fun log _ state =>
        Agrees (if kind = .custom then last else some kind) (declared log) state.counts)
      log state

/-- What emits nothing leaves the counts alone. -/
theorem meets_counts {read : Read Result} {post : List Item -> Result -> ModuleReader -> Prop}
    (silent : Emitting.Frames (fun _ => False) (outside .export_) read)
    (holds : forall result next, next.counts = state.counts -> post log result next) :
    Emitting.Meets Orderly read post log state :=
  silent.meets_silent fun result next same =>
    holds result next (ModuleReader.counts_outside rfl same)

/-! ## Types -/

theorem readSignature_meets {index : Nat}
    (next_ : index = (declared log).types.length ∧
      exists count, (declared log).typeCount = some count ∧ index < count) :
    Emitting.Meets Orderly (readSignature index)
      (fun after _ next => next.counts = state.counts ∧
        exists paramTypes resultTypes,
          declared after = (declared log).record (.onType index paramTypes resultTypes))
      log state := by
  simp only [readSignature, Emitting.meets_bind, meets_take, meets_require, Emitting.meets_get]
  intro _ _ _ _ _ _ _
  refine meets_counts (Emitting.frames_collected (fun _ => frames_readConcreteType) _ _) ?_
  intro paramTypes _ sameParams _ _ _ _
  refine meets_counts (Emitting.frames_collected (fun _ => frames_readConcreteType) _ _) ?_
  intro resultTypes _ sameResults
  refine meets_pass.mpr ⟨next_, sameResults.trans sameParams, paramTypes, resultTypes, ?_⟩
  rw [declared_append]

theorem keepsOrder_type : KeepsOrder .type := by
  intro last log state ordered agrees
  rcases agrees.noTypes ordered with ⟨noCount, noSignatures⟩
  have noTypes : (declared log).types = [] :=
    List.eq_nil_of_length_eq_zero (agrees.types.trans noSignatures)
  simp only [readContents, readTypeSection, Emitting.meets_bind, meets_take,
    Emitting.meets_modify, meets_pass]
  intro count offset _
  refine ⟨⟨noCount, noTypes⟩, ?_⟩
  refine (Emitting.meets_repeated (fun index after next =>
    next.counts = { state.counts with numSignatures := count } ∧
      exists types, types.length = index ∧
        declared after = { declared log with typeCount := some count, types })
    count 0 ?_ ⟨rfl, [], rfl, ?_⟩).mono ?_
  · rintro index after next bound ⟨same, types, length, known⟩
    refine (readSignature_meets ?_).mono ?_
    · rw [known]
      exact ⟨length.symm, count, rfl, by omega⟩
    · rintro later _ final ⟨sameFinal, paramTypes, resultTypes, knownFinal⟩
      refine ⟨sameFinal.trans same, types ++ [(paramTypes, resultTypes)], ?_, ?_⟩
      · rw [List.length_append, length]
        rfl
      · rw [knownFinal, known]
        rfl
  · rw [declared_append]
    change { declared log with typeCount := some count } = _
    rw [← noTypes]
  · rintro after _ next ⟨same, types, length, known⟩
    refine ⟨trivial, ?_⟩
    rw [declared_append, known]
    rw [same]
    exact {
      (agrees.advance (by decide) ordered) with
      types := length.trans (Nat.zero_add count)
      noTypes := fun again => absurd again Bool.false_ne_true }

/-! ## Imports -/

/-- An import adds to what is declared and to the counts alike. -/
theorem readImport_keeps {index : Nat} (ordered : inOrder last .import_ = true)
    (agrees : Agrees last (declared log) state.counts) :
    Emitting.Meets Orderly (readImport index)
      (fun after _ next => Agrees last (declared after) next.counts) log state := by
  have known : BinarySection.import_ ≠ .custom := by decide
  rcases agrees.noFuncs (inOrder_trans known ordered rfl) with ⟨noFuncs, noSignatures⟩
  rcases agrees.noGlobals (inOrder_trans known ordered rfl) with ⟨noGlobals, noneDefined⟩
  have funcs : (declared log).funcs.length = state.numFuncImports := by
    rw [agrees.funcs, noSignatures]
    rfl
  have globals : (declared log).globals.length = state.numGlobalImports := by
    rw [agrees.globals, noneDefined]
    rfl
  simp only [readImport, Emitting.meets_bind, meets_take]
  intro moduleName _ _ fieldName _ _ kind _ _
  cases externalKinds[kind]? with
  | none => exact Emitting.meets_pure.mpr agrees
  | some defined =>
      cases defined with
      | func =>
          simp only [readImportFunc, Emitting.meets_bind, meets_take, Emitting.meets_get,
            meets_require, meets_pass, Emitting.meets_modify, decide_eq_true_eq]
          intro sigIndex _ _ inRange
          refine ⟨trivial, ⟨?_, ?_, ?_, ?_⟩, ?_⟩
          all_goals simp only [declared_append, Declared.record, id]
          · exact noFuncs
          · exact funcs.symm
          · exact agrees.numFuncImports.symm
          · exact Nat.lt_of_lt_of_eq inRange agrees.types.symm
          · exact { agrees with
              numFuncImports := congrArg (· + 1) agrees.numFuncImports
              funcs := by
                rw [List.length_append, funcs]
                change _ = state.numFuncImports + 1 + state.counts.numFunctionSignatures
                rw [noSignatures]
                rfl }
      | table =>
          simp only [readImportTable, Emitting.meets_bind]
          refine meets_counts frames_readTable fun _ next same => ?_
          have here := agrees
          rw [← show next.counts = state.counts from same] at here
          simp only [Emitting.meets_bind, Emitting.meets_get, meets_pass, Emitting.meets_modify]
          refine ⟨trivial, trivial, ?_⟩
          simp only [declared_append, Declared.record]
          exact { here with
            numTables := by
              have counted : (declared log).numTables = next.numTableImports + next.numTables :=
                here.numTables
              change (declared log).numTables + 1 = next.numTableImports + 1 + next.numTables
              omega }
      | memory =>
          simp only [readImportMemory, Emitting.meets_bind]
          refine meets_counts frames_readMemory fun _ next same => ?_
          have here := agrees
          rw [← show next.counts = state.counts from same] at here
          simp only [Emitting.meets_bind, Emitting.meets_get, meets_pass, Emitting.meets_modify]
          refine ⟨trivial, trivial, ?_⟩
          simp only [declared_append, Declared.record]
          exact { here with
            numMemories := by
              have counted : (declared log).numMemories = next.numMemoryImports + next.numMemories :=
                here.numMemories
              change (declared log).numMemories + 1 = next.numMemoryImports + 1 + next.numMemories
              omega }
      | global =>
          simp only [readImportGlobal, Emitting.meets_bind]
          refine meets_counts frames_readGlobalHeader fun header next same => ?_
          have here := agrees
          rw [← show next.counts = state.counts from same] at here
          have sameImports : next.numGlobalImports = state.numGlobalImports :=
            congrArg Counts.numGlobalImports same
          have sameGlobals : next.numGlobals = state.numGlobals :=
            congrArg Counts.numGlobals same
          simp only [Emitting.meets_bind, Emitting.meets_get, meets_pass, Emitting.meets_modify]
          refine ⟨trivial, ⟨?_, ?_, ?_⟩, ?_⟩
          all_goals simp only [declared_append, Declared.record, id]
          · exact noGlobals
          · exact sameImports.trans globals.symm
          · exact here.numGlobalImports.symm
          · exact { here with
              numGlobalImports := congrArg (· + 1) here.numGlobalImports
              globals := by
                rw [List.length_append, globals]
                change _ = next.numGlobalImports + 1 + next.numGlobals
                rw [sameImports, sameGlobals]
                exact (congrArg (state.numGlobalImports + 1 + ·) noneDefined).symm }
      | except =>
          simp only [readImportException, Emitting.meets_bind, Emitting.meets_get, meets_require]
          intro _
          refine meets_counts frames_readExceptionType fun _ next same => ?_
          have here := agrees
          rw [← show next.counts = state.counts from same] at here
          simp only [Emitting.meets_bind, meets_pass, Emitting.meets_modify]
          refine ⟨trivial, trivial, ?_⟩
          simp only [declared_append, Declared.record]
          exact { here with }

theorem keepsOrder_import : KeepsOrder .import_ := by
  intro last log state ordered agrees
  simp only [readContents, readImportSection, Emitting.meets_bind, meets_take, meets_pass]
  intro count offset _
  refine ⟨trivial, ?_⟩
  refine (Emitting.meets_repeated (fun _ after next => Agrees last (declared after) next.counts)
    count 0 (fun index after next _ here => readImport_keeps ordered here) ?_).mono ?_
  · rw [declared_append]
    exact agrees
  · intro after _ next here
    refine ⟨trivial, ?_⟩
    rw [declared_append]
    exact here.advance (by decide) ordered

/-! ## Functions, tables and memories -/

theorem keepsOrder_function : KeepsOrder .function := by
  intro last log state ordered agrees
  rcases agrees.noFuncs ordered with ⟨noCount, noSignatures⟩
  have imported : (declared log).funcs.length = (declared log).numFuncImports := by
    rw [agrees.funcs, noSignatures, agrees.numFuncImports]
    rfl
  simp only [readContents, readFunctionSection, Emitting.meets_bind, meets_take,
    Emitting.meets_modify, meets_pass]
  intro count offset _
  refine ⟨⟨noCount, imported⟩, ?_⟩
  refine (Emitting.meets_repeated (fun index after next =>
    next.counts = { state.counts with numFunctionSignatures := count } ∧
      exists funcs, funcs.length = (declared log).numFuncImports + index ∧
        declared after = { declared log with funcCount := some count, funcs })
    count 0 ?_ ⟨rfl, (declared log).funcs, imported, ?_⟩).mono ?_
  · rintro index after next bound ⟨same, funcs, length, known⟩
    have sameSignatures : next.numSignatures = state.counts.numSignatures :=
      congrArg Counts.numSignatures same
    have sameImports : next.numFuncImports = state.counts.numFuncImports :=
      congrArg Counts.numFuncImports same
    simp only [readFunction, Emitting.meets_bind, meets_take, Emitting.meets_get, meets_require,
      meets_pass, decide_eq_true_eq]
    intro sigIndex _ _ inRange
    refine ⟨?_, same, funcs ++ [sigIndex], ?_, ?_⟩
    · rw [Orderly, known]
      refine ⟨?_, ?_, count, rfl, ?_⟩
      · change next.numFuncImports + index = funcs.length
        rw [length, sameImports, agrees.numFuncImports]
      · change sigIndex < (declared log).types.length
        rw [agrees.types, ← sameSignatures]
        exact inRange
      · change next.numFuncImports + index < (declared log).numFuncImports + count
        rw [sameImports, agrees.numFuncImports]
        omega
    · rw [List.length_append, length]
      rfl
    · rw [declared_append, known]
      rfl
  · rw [declared_append]
    rfl
  · rintro after _ next ⟨same, funcs, length, known⟩
    refine ⟨trivial, ?_⟩
    rw [declared_append, known]
    rw [same]
    exact {
      (agrees.advance (by decide) ordered) with
      funcs := by
        rw [Nat.zero_add, agrees.numFuncImports] at length
        exact length
      noFuncs := fun again => absurd again Bool.false_ne_true }

theorem keepsOrder_table : KeepsOrder .table := by
  intro last log state ordered agrees
  have noTables := agrees.noTables ordered
  simp only [readContents, readTableSection, Emitting.meets_bind, meets_take,
    Emitting.meets_modify, meets_require, meets_pass]
  intro count offset _ _
  refine ⟨trivial, ?_⟩
  refine (Emitting.meets_repeated (fun index after next =>
    next.counts = { state.counts with numTables := count } ∧
      declared after = { declared log with numTables := (declared log).numTables + index })
    count 0 ?_ ⟨rfl, ?_⟩).mono ?_
  · rintro index after next bound ⟨same, known⟩
    refine Emitting.meets_bind.mpr ?_
    refine meets_counts frames_readTable fun found later sameLater => ?_
    simp only [Emitting.meets_bind, Emitting.meets_get, meets_pass]
    refine ⟨trivial, sameLater.trans same, ?_⟩
    rw [declared_append, known]
    rfl
  · rw [declared_append]
    rfl
  · rintro after _ next ⟨same, known⟩
    refine ⟨trivial, ?_⟩
    rw [declared_append, known]
    rw [same]
    exact {
      (agrees.advance (by decide) ordered) with
      numTables := by
        have counted := agrees.numTables
        change (declared log).numTables + (0 + count) = state.counts.numTableImports + count
        omega
      noTables := fun again => absurd again Bool.false_ne_true }

theorem keepsOrder_memory : KeepsOrder .memory := by
  intro last log state ordered agrees
  have noMemories := agrees.noMemories ordered
  simp only [readContents, readMemorySection, Emitting.meets_bind, meets_take,
    Emitting.meets_modify, meets_require, meets_pass]
  intro count offset _ _
  refine ⟨trivial, ?_⟩
  refine (Emitting.meets_repeated (fun index after next =>
    next.counts = { state.counts with numMemories := count } ∧
      declared after = { declared log with numMemories := (declared log).numMemories + index })
    count 0 ?_ ⟨rfl, ?_⟩).mono ?_
  · rintro index after next bound ⟨same, known⟩
    refine Emitting.meets_bind.mpr ?_
    refine meets_counts frames_readMemory fun found later sameLater => ?_
    simp only [Emitting.meets_bind, Emitting.meets_get, meets_pass]
    refine ⟨trivial, sameLater.trans same, ?_⟩
    rw [declared_append, known]
    rfl
  · rw [declared_append]
    rfl
  · rintro after _ next ⟨same, known⟩
    refine ⟨trivial, ?_⟩
    rw [declared_append, known]
    rw [same]
    exact {
      (agrees.advance (by decide) ordered) with
      numMemories := by
        have counted := agrees.numMemories
        change (declared log).numMemories + (0 + count) = state.counts.numMemoryImports + count
        omega
      noMemories := fun again => absurd again Bool.false_ne_true }

/-! ## Globals -/

/-- What is made of an initialiser declares nothing. -/
theorem readInitExpr_quiet {index : Nat} {requireI32 : Bool} :
    Emitting.Frames Event.Quiet (outside .export_) (readInitExpr index requireI32) :=
  Emitting.frames_bind frames_read fun _ => frames_ite Emitting.frames_pure
    (Emitting.frames_bind frames_read fun _ =>
      Emitting.frames_bind (frames_pass fun _ _ => ⟨rfl, trivial⟩) fun _ =>
        Emitting.frames_bind frames_require fun _ => Emitting.frames_bind frames_read fun _ =>
          frames_require)

/-- What declares nothing comes in order. -/
theorem meets_quiet {read : Read Result} {post : List Item -> Result -> ModuleReader -> Prop}
    (quiet : Emitting.Frames Event.Quiet (outside .export_) read)
    (holds : forall after result next, declared after = declared log ->
      next.counts = state.counts -> post after result next) :
    Emitting.Meets Orderly read post log state := by
  refine ((quiet.meets log state).allow fun log item isQuiet => (isQuiet (declared log)).2).mono ?_
  rintro after result next ⟨same, items, rfl, all⟩
  exact holds _ result next (declared_quiet all) (ModuleReader.counts_outside rfl same)

theorem readGlobal_meets {index : Nat}
    (next_ : state.numGlobalImports + index = (declared log).globals.length ∧
      exists count, (declared log).globalCount = some count ∧
        state.numGlobalImports + index < (declared log).numGlobalImports + count)
    (imports : (declared log).numGlobalImports = state.numGlobalImports) :
    Emitting.Meets Orderly (readGlobal index)
      (fun after _ next => next.counts = state.counts ∧
        exists type mutable_, declared after = (declared log).record
          (.beginGlobal (state.numGlobalImports + index) type mutable_)) log state := by
  refine Emitting.meets_bind.mpr ?_
  refine meets_counts frames_readGlobalHeader fun header middle sameHeader => ?_
  have sameImports : middle.numGlobalImports = state.numGlobalImports :=
    congrArg Counts.numGlobalImports sameHeader
  simp only [Emitting.meets_bind, Emitting.meets_get, meets_pass, id, sameImports]
  refine ⟨next_, trivial, ?_⟩
  refine meets_quiet readInitExpr_quiet fun after _ next sameDeclared sameCounts => ?_
  rw [declared_append, declared_append] at sameDeclared
  refine ⟨?_, sameCounts.trans sameHeader, header.1, header.2, ?_⟩
  · rw [Orderly, sameDeclared]
    refine ⟨?_, ?_⟩
    · change state.numGlobalImports + index + 1 = ((declared log).globals ++ [_]).length
      rw [List.length_append, ← next_.1]
      rfl
    · change (declared log).numGlobalImports ≤ state.numGlobalImports + index
      rw [imports]
      exact Nat.le_add_right _ _
  · rw [declared_append, sameDeclared]
    rfl

theorem keepsOrder_global : KeepsOrder .global := by
  intro last log state ordered agrees
  rcases agrees.noGlobals ordered with ⟨noCount, noneDefined⟩
  have imported : (declared log).globals.length = (declared log).numGlobalImports := by
    rw [agrees.globals, noneDefined, agrees.numGlobalImports]
    rfl
  simp only [readContents, readGlobalSection, Emitting.meets_bind, meets_take,
    Emitting.meets_modify, meets_pass]
  intro count offset _
  refine ⟨⟨noCount, imported⟩, ?_⟩
  refine (Emitting.meets_repeated (fun index after next =>
    next.counts = { state.counts with numGlobals := count } ∧
      exists globals, globals.length = (declared log).numGlobalImports + index ∧
        declared after = { declared log with globalCount := some count, globals })
    count 0 ?_ ⟨rfl, (declared log).globals, imported, ?_⟩).mono ?_
  · rintro index after next bound ⟨same, globals, length, known⟩
    have sameImports : next.numGlobalImports = state.counts.numGlobalImports :=
      congrArg Counts.numGlobalImports same
    refine (readGlobal_meets ?_ ?_).mono ?_
    · rw [known, sameImports, ← agrees.numGlobalImports]
      exact ⟨length.symm, count, rfl, by simp only; omega⟩
    · rw [known, sameImports, ← agrees.numGlobalImports]
    · rintro later _ final ⟨sameFinal, type, mutable_, knownFinal⟩
      refine ⟨sameFinal.trans same, globals ++ [(type, mutable_)], ?_, ?_⟩
      · rw [List.length_append, length]
        rfl
      · rw [knownFinal, known]
        rfl
  · rw [declared_append]
    rfl
  · rintro after _ next ⟨same, globals, length, known⟩
    refine ⟨trivial, ?_⟩
    rw [declared_append, known, same]
    exact {
      (agrees.advance (by decide) ordered) with
      globals := by
        rw [Nat.zero_add, agrees.numGlobalImports] at length
        exact length
      noGlobals := fun again => absurd again Bool.false_ne_true }

/-! ## Sections that declare nothing -/

/-- A section that declares nothing keeps what the counts agree with. -/
theorem keepsOrder_of_meets {kind : BinarySection} (known : kind ≠ .custom)
    (meets : forall last log state, inOrder last kind = true ->
      Agrees last (declared log) state.counts ->
      Emitting.Meets Orderly (readContents kind)
        (fun after _ next => declared after = declared log ∧ next.counts = state.counts)
        log state) : KeepsOrder kind := by
  intro last log state ordered agrees
  refine (meets last log state ordered agrees).mono ?_
  rintro after _ next ⟨sameDeclared, sameCounts⟩
  rw [if_neg known, sameDeclared, sameCounts]
  exact agrees.advance known ordered

theorem exportError_allows {itemIndex : Nat} {kind : ExternalKind}
    (agrees : Agrees last (declared log) state.counts)
    (fine : (exportError state itemIndex kind).isNone = true) :
    (declared log).AllowsExport itemIndex kind := by
  cases kind with
  | func =>
      have inRange : itemIndex < state.numTotalFuncs := by
        by_contra outOfRange
        rw [exportError, if_neg outOfRange] at fine
        cases fine
      exact Nat.lt_of_lt_of_eq inRange agrees.funcs.symm
  | table =>
      have inRange : itemIndex < state.numTotalTables := by
        by_contra outOfRange
        rw [exportError, if_neg outOfRange] at fine
        cases fine
      exact Nat.lt_of_lt_of_eq (Nat.zero_lt_of_lt inRange) agrees.numTables.symm
  | memory =>
      have inRange : itemIndex < state.numTotalMemories := by
        by_contra outOfRange
        rw [exportError, if_neg outOfRange] at fine
        cases fine
      exact Nat.lt_of_lt_of_eq (Nat.zero_lt_of_lt inRange) agrees.numMemories.symm
  | global =>
      have inRange : itemIndex < state.numTotalGlobals := by
        by_contra outOfRange
        rw [exportError, if_neg outOfRange] at fine
        cases fine
      exact Nat.lt_of_lt_of_eq inRange agrees.globals.symm
  | except => trivial

theorem keepsOrder_export : KeepsOrder .export_ := by
  refine keepsOrder_of_meets (by decide) fun last log state ordered agrees => ?_
  simp only [readContents, readExportSection, Emitting.meets_bind, meets_take, meets_pass]
  intro count offset _
  refine ⟨trivial, ?_⟩
  refine (Emitting.meets_repeated (fun _ after next =>
    declared after = declared log ∧ next.counts = state.counts) count 0 ?_ ⟨?_, rfl⟩).mono ?_
  · rintro index after next _ ⟨known, same⟩
    simp only [readExport, Emitting.meets_bind, meets_take]
    intro name _ _ kind _ _
    cases externalKinds[kind]? with
    | none => exact Emitting.meets_fail
    | some defined =>
        simp only [Emitting.meets_bind, meets_take, Emitting.meets_get, meets_require, meets_pass]
        intro itemIndex _ _ fine
        have agrees_ : Agrees last (declared after) next.counts := by
          rw [known]
          exact same ▸ agrees
        exact ⟨exportError_allows agrees_ fine, (declared_append _ _).trans known, same⟩
  · rw [declared_append]
    rfl
  · rintro after _ next ⟨known, same⟩
    rw [declared_append]
    exact ⟨trivial, known, same⟩

theorem keepsOrder_start : KeepsOrder .start := by
  refine keepsOrder_of_meets (by decide) fun last log state ordered agrees => ?_
  simp only [readContents, readStartSection, Emitting.meets_bind, meets_take, Emitting.meets_get,
    meets_require, meets_pass, decide_eq_true_eq]
  intro funcIndex _ _ inRange
  rw [declared_append, declared_append]
  exact ⟨Nat.lt_of_lt_of_eq inRange agrees.funcs.symm, trivial, rfl, rfl⟩

theorem keepsOrder_elem : KeepsOrder .elem := by
  refine keepsOrder_of_meets (by decide) fun last log state ordered agrees => ?_
  simp only [readContents, readElemSection, Emitting.meets_bind, meets_take, Emitting.meets_get,
    meets_require, meets_pass, Bool.or_eq_true, decide_eq_true_eq]
  intro count offset _
  refine ⟨trivial, fun hasTable => ?_⟩
  refine (Emitting.meets_repeated (fun _ after next =>
    declared after = declared log ∧ next.counts = state.counts) count 0 ?_ ⟨?_, rfl⟩).mono ?_
  · rintro index after next bound ⟨known, same⟩
    have table : 0 < (declared log).numTables := by
      rcases hasTable with none_ | hasTable
      · omega
      · exact Nat.lt_of_lt_of_eq hasTable agrees.numTables.symm
    simp only [readElemSegment, Emitting.meets_bind, meets_take, meets_pass]
    intro tableIndex _ _
    refine ⟨trivial, trivial, ?_⟩
    refine meets_quiet readInitExpr_quiet fun later _ final sameDeclared sameCounts => ?_
    rw [declared_append, declared_append] at sameDeclared
    have unchanged : declared later = declared log := sameDeclared.trans known
    refine ⟨trivial, fun numIndexes _ _ => ⟨?_, ?_⟩⟩
    · rw [Orderly, declared_append, unchanged]
      exact table
    · refine (Emitting.meets_repeated (fun _ after next =>
        declared after = declared log ∧ next.counts = state.counts) numIndexes 0 ?_
        ⟨?_, sameCounts.trans same⟩).mono fun _ _ _ holds => holds
      · rintro _ inner reading _ ⟨knownInner, sameInner⟩
        simp only [Emitting.meets_bind, meets_take, meets_pass]
        intro funcIndex _ _
        rw [declared_append]
        refine ⟨?_, knownInner, sameInner⟩
        rw [Orderly, knownInner]
        exact table
      · rw [declared_append, declared_append]
        exact unchanged
  · rw [declared_append]
    rfl
  · rintro after _ next ⟨known, same⟩
    rw [declared_append]
    exact ⟨trivial, known, same⟩

theorem inBody_quiet {item : Item} (inBody : Event.InBody item) : Event.Quiet item := by
  rcases item with ⟨event, offset⟩
  intro found
  cases event with
  | onLocalDeclCount _ | onLocalDecl _ _ _ | onExpr _ | onEndFunc | endFunctionBody _ =>
      exact ⟨rfl, trivial⟩
  | _ => cases inBody

theorem keepsOrder_code : KeepsOrder .code := by
  refine keepsOrder_of_meets (by decide) fun last log state ordered agrees => ?_
  simp only [readContents, readCodeSection, Emitting.meets_bind, meets_take, meets_pass]
  intro count offset header
  have announced : state.numFunctionSignatures = count := readCodeHeader_count header
  refine ⟨trivial, ?_⟩
  refine (Emitting.meets_repeated (fun _ after next =>
    declared after = declared log ∧ next.counts = state.counts) count 0 ?_ ⟨?_, rfl⟩).mono ?_
  · rintro index after next bound ⟨known, same⟩
    have sameImports : next.numFuncImports = state.counts.numFuncImports :=
      congrArg Counts.numFuncImports same
    simp only [readBody, Emitting.meets_bind, Emitting.meets_get, meets_pass]
    refine ⟨?_, ?_⟩
    · rw [Orderly, known]
      have funcs := agrees.funcs
      have defined : state.counts.numFunctionSignatures = count := announced
      refine ⟨?_, ?_⟩
      · rw [agrees.numFuncImports]
        exact sameImports ▸ Nat.le_add_right _ _
      · change next.numFuncImports + index < _
        omega
    · refine meets_quiet (((readBodyContents_frames _).weaken fun item => inBody_quiet)) ?_
      intro later _ final sameDeclared sameCounts
      rw [declared_append] at sameDeclared
      exact ⟨sameDeclared.trans known, sameCounts.trans same⟩
  · rw [declared_append]
    rfl
  · rintro after _ next ⟨known, same⟩
    rw [declared_append]
    exact ⟨trivial, known, same⟩

theorem keepsOrder_data : KeepsOrder .data := by
  refine keepsOrder_of_meets (by decide) fun last log state ordered agrees => ?_
  simp only [readContents, readDataSection, Emitting.meets_bind, meets_take, Emitting.meets_get,
    meets_require, meets_pass, Bool.or_eq_true, decide_eq_true_eq]
  intro count offset _
  refine ⟨trivial, fun hasMemory => ?_⟩
  refine (Emitting.meets_repeated (fun _ after next =>
    declared after = declared log ∧ next.counts = state.counts) count 0 ?_ ⟨?_, rfl⟩).mono ?_
  · rintro index after next bound ⟨known, same⟩
    have memory : 0 < (declared log).numMemories := by
      rcases hasMemory with none_ | hasMemory
      · omega
      · exact Nat.lt_of_lt_of_eq hasMemory agrees.numMemories.symm
    simp only [readDataSegment, Emitting.meets_bind, meets_take, meets_pass]
    intro memoryIndex _ _
    refine ⟨trivial, trivial, ?_⟩
    refine meets_quiet readInitExpr_quiet fun later _ final sameDeclared sameCounts => ?_
    rw [declared_append, declared_append] at sameDeclared
    have unchanged : declared later = declared log := sameDeclared.trans known
    refine ⟨trivial, fun data _ _ => ?_⟩
    rw [declared_append, declared_append]
    refine ⟨?_, unchanged, sameCounts.trans same⟩
    rw [Orderly, declared_append, unchanged]
    exact memory
  · rw [declared_append]
    rfl
  · rintro after _ next ⟨known, same⟩
    rw [declared_append]
    exact ⟨trivial, known, same⟩

theorem keepsOrder_custom : KeepsOrder .custom := by
  intro last log state _ agrees
  have quiet : Emitting.Frames Event.Quiet (outside .custom) (readContents .custom) := by
    refine (within_readContents .custom).weaken fun item makes found => ?_
    rcases item with ⟨event, offset⟩
    rcases makes with inside | ⟨hasInitExprs, _⟩
    · cases event with
      | onExceptionType _ _ | endSection _ => exact ⟨rfl, trivial⟩
      | _ => cases inside
    · cases hasInitExprs
  refine ((quiet.meets log state).allow fun log item isQuiet => (isQuiet (declared log)).2).mono ?_
  rintro after _ next ⟨same, items, rfl, all⟩
  rw [if_pos rfl, declared_quiet all, ModuleReader.counts_outside rfl same]
  exact agrees

theorem keepsOrder (kind : BinarySection) : KeepsOrder kind := by
  cases kind with
  | custom => exact keepsOrder_custom
  | type => exact keepsOrder_type
  | import_ => exact keepsOrder_import
  | function => exact keepsOrder_function
  | table => exact keepsOrder_table
  | memory => exact keepsOrder_memory
  | global => exact keepsOrder_global
  | export_ => exact keepsOrder_export
  | start => exact keepsOrder_start
  | elem => exact keepsOrder_elem
  | code => exact keepsOrder_code
  | data => exact keepsOrder_data

/-! ## The module -/

theorem readSection_keeps
    (agrees : Agrees state.lastKnownSection (declared log) state.counts) :
    Emitting.Meets Orderly readSection
      (fun after _ next => Agrees next.lastKnownSection (declared after) next.counts)
      log state := by
  simp only [readSection, readSectionHeader, Emitting.meets_bind, meets_take,
    Emitting.meets_modify]
  intro code _ _ size offset _
  cases binarySections[code]? with
  | none => exact Emitting.meets_fail
  | some kind =>
      simp only [Emitting.meets_bind, Emitting.meets_get, meets_require, Emitting.meets_pure,
        meets_pass]
      intro _ ordered _
      refine ⟨trivial, ?_⟩
      refine ((keepsOrder kind state.lastKnownSection _ _ ordered ?_).and_kept
        (within_readContents kind)).mono ?_
      · rw [declared_append]
        exact agrees
      · rintro after _ next ⟨here, same⟩
        have sameLast := congrArg ModuleReader.lastKnownSection same
        rw [ModuleReader.outside_lastKnownSection, ModuleReader.outside_lastKnownSection] at sameLast
        simp only [finishSection, Emitting.meets_bind, Emitting.meets_get, meets_require,
          Emitting.meets_modify]
        intro _
        rw [sameLast]
        exact here

theorem readSections_keeps (rounds : Nat)
    (agrees : Agrees state.lastKnownSection (declared log) state.counts) :
    Emitting.Meets Orderly (readSections rounds) (fun _ _ _ => True) log state := by
  induction rounds generalizing log state with
  | zero => exact Emitting.meets_pure.mpr trivial
  | succ rounds inductionHypothesis =>
      simp only [readSections, Emitting.meets_bind, Emitting.meets_get, id]
      split
      · exact Emitting.meets_bind.mpr ((readSection_keeps agrees).mono
          fun _ _ _ later => inductionHypothesis later)
      · exact Emitting.meets_pure.mpr trivial

end Read

/-- The callbacks of a module come in order. -/
theorem orderly (data : List (BitVec 8)) (features : Features)
    (readDebugNames failOnCustomSectionError : Bool) :
    Emitting.Sequel Orderly []
      (Read.readModule.run
        (.start data features readDebugNames failOnCustomSectionError)).1 := by
  have meets : Emitting.Meets Orderly Read.readModule (fun _ _ _ => True) []
      (.start data features readDebugNames failOnCustomSectionError) := by
    simp only [Read.readModule, Emitting.meets_bind, Read.meets_take, Read.meets_require,
      Emitting.meets_get]
    intro _ _ _ _ _ _ _ _
    refine (Read.readSections_keeps _ ?_).mono fun _ _ _ _ => ?_
    · exact .nothing data features readDebugNames failOnCustomSectionError
    · exact Read.meets_pass.mpr ⟨trivial, trivial⟩
  exact meets.1

/-! ## The end of the module -/

def Event.NotEnd (item : Item) : Prop :=
  item.1 ≠ .endModule

theorem notEnd_of_makes {kind : BinarySection} {item : Item} (makes : kind.Makes item) :
    Event.NotEnd item := by
  rcases item with ⟨event, offset⟩
  intro same
  rcases makes with inside | ⟨_, index, init, isInit⟩
  · rw [show event = .endModule from same] at inside
    cases inside
  · rw [show event = .endModule from same] at isInit
    cases isInit

/-- Either it fails before the end of the module is told, or that is the last
that is told. -/
def EndsModule (read : Read Unit) : Prop :=
  forall state,
    (exists failure, (read.run state).2 = .error failure ∧
      forall item, item ∈ (read.run state).1 -> Event.NotEnd item) ∨
    exists items offset next,
      read.run state = (items ++ [(.endModule, offset)], .ok ((), next)) ∧
        forall item, item ∈ items -> Event.NotEnd item

theorem endsModule_end : EndsModule (Read.pass .endModule) :=
  fun state => .inr ⟨[], state.offset, state, rfl, nofun⟩

theorem endsModule_bind {read : Read Result} {later : Result -> Read Unit} {kept : ModuleReader -> Kept}
    (notEnd : Emitting.Frames Event.NotEnd kept read) (closes : forall value, EndsModule (later value)) :
    EndsModule (read >>= later) := by
  intro state
  have here := (notEnd state).1
  cases ran : read.run state with
  | mk items result =>
      rw [ran] at here
      rcases result with failure | ⟨value, middle⟩
      · rw [Emitting.run_bind_error ran]
        exact .inl ⟨failure, rfl, here⟩
      · rw [Emitting.run_bind_ok ran]
        have both : forall {rest : List Item}, (forall item, item ∈ rest -> Event.NotEnd item) ->
            forall item, item ∈ items ++ rest -> Event.NotEnd item := by
          intro rest there item isMember
          rcases List.mem_append.mp isMember with isMember | isMember
          · exact here item isMember
          · exact there item isMember
        rcases closes value middle with ⟨failure, failed, there⟩ | ⟨rest, offset, next, same, there⟩
        · exact .inl ⟨failure, failed, both there⟩
        · rw [same]
          exact .inr ⟨items ++ rest, offset, next, by rw [List.append_assoc], both there⟩

namespace Read

theorem readSections_notEnd (rounds : Nat) :
    Emitting.Frames Event.NotEnd (fun _ => ()) (readSections rounds) := by
  have plain : forall {Value : Type} {read : Reader -> Nat -> Except Failure (Value × Nat)},
      Emitting.Frames Event.NotEnd (fun _ => ()) (take read) := frames_take fun _ _ => rfl
  induction rounds with
  | zero => exact Emitting.frames_pure
  | succ rounds inductionHypothesis =>
      refine Emitting.frames_bind Emitting.frames_get fun state => ?_
      split
      · refine Emitting.frames_bind (Emitting.frames_bind ?_ fun found => ?_)
          fun _ => inductionHypothesis
        · refine Emitting.frames_bind plain fun code => Emitting.frames_bind plain fun _ =>
            Emitting.frames_bind (Emitting.frames_modify fun _ => rfl) fun _ => ?_
          cases binarySections[code]? with
          | none => exact Emitting.frames_fail
          | some kind =>
              exact Emitting.frames_bind Emitting.frames_get fun _ =>
                Emitting.frames_bind frames_require fun _ =>
                  Emitting.frames_bind frames_require fun _ =>
                    Emitting.frames_bind frames_require fun _ => Emitting.frames_pure
        · refine Emitting.frames_bind (frames_pass fun _ => nofun) fun _ =>
            Emitting.frames_bind
              ((within_readContents found.1).weaken fun _ => notEnd_of_makes).forget fun _ => ?_
          exact Emitting.frames_bind Emitting.frames_get fun _ =>
            Emitting.frames_bind frames_require fun _ => Emitting.frames_modify fun _ => rfl
      · exact Emitting.frames_pure

theorem endsModule_readModule : EndsModule readModule := by
  have plain : forall {Value : Type} {read : Reader -> Nat -> Except Failure (Value × Nat)},
      Emitting.Frames Event.NotEnd (fun _ => ()) (take read) := frames_take fun _ _ => rfl
  have checked : forall {holds : Bool} {message : String},
      Emitting.Frames Event.NotEnd (fun _ => ()) (require holds message) := frames_require
  have got : Emitting.Frames Event.NotEnd (fun _ => ())
      (Emitting.get id : Read ModuleReader) := Emitting.frames_get
  exact endsModule_bind plain fun _ => endsModule_bind checked fun _ => endsModule_bind plain fun _ =>
    endsModule_bind checked fun _ =>
      endsModule_bind got fun _ =>
        endsModule_bind (readSections_notEnd _) fun _ => endsModule_end

end Read

/-- Nothing in front of another callback is the end of the module. -/
theorem notEnd_before {state : ModuleReader} {before rest : List Item} {item : Item}
    (split : (Read.readModule.run state).1 = before ++ item :: rest) :
    forall earlier, earlier ∈ before -> Event.NotEnd earlier := by
  intro earlier isMember
  rcases Read.endsModule_readModule state with ⟨failure, _, notEnd⟩ | ⟨items, offset, next, same, notEnd⟩
  · exact notEnd earlier (split ▸ List.mem_append_left _ isMember)
  · rw [same] at split
    change items ++ [_] = before ++ item :: rest at split
    have within : before.length ≤ items.length := by
      have length := congrArg List.length split
      simp only [List.length_append, List.length_cons, List.length_nil] at length
      omega
    have front := congrArg (List.take before.length) split
    rw [List.take_append_of_le_length within, List.take_left' rfl] at front
    exact notEnd earlier (List.mem_of_mem_take (front ▸ isMember))

end Binary
end WasmSandboxing
