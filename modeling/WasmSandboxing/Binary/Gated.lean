import WasmSandboxing.Binary.SectionFrames
import WasmSandboxing.Foundation.Guarding
import Mathlib.Tactic.Ring

namespace WasmSandboxing
namespace Binary

open Foundation

/-!
# What the reader lets through

The reader asks for features in three places: in front of an opcode, where it
reads a value type, and where it counts results.  Every callback that it makes
has passed what its place asks for, and what it counts is a number of 32 bits.
-/

/-- `BinaryReader::IsConcreteType` -/
def Features.Concrete (features : Features) (type : Int) : Prop :=
  type = -0x01 ∨ type = -0x02 ∨ type = -0x03 ∨ type = -0x04 ∨
    (type = -0x05 ∧ features.simd = true)

/-- `BinaryReader::IsBlockType` without the bound of an index. -/
def Features.Block (features : Features) (type : Int) : Prop :=
  features.Concrete type ∨ type = -0x40 ∨ (features.multiValue = true ∧ 0 ≤ type)

/-- What is asked of an opcode: its case, the feature of its case and its block
type if it has one. -/
structure Instr.Gated (features : Features) (instr : Instr) : Prop where
  case_ : exists row, opcodeCase instr.opcode = some row ∧ row.callback = instr.callback ∧
    features.enabled row.feature = true
  block : forall row desc rest, opcodeCase instr.opcode = some row ->
    row.immediates = .blockType desc :: rest ->
    exists type values, instr.immediates = type :: values ∧ features.Block type

def InitExpr.Gated (features : Features) : InitExpr -> Prop
  | .v128Const _ => features.simd = true
  | _ => True

def Event.Gated (features : Features) : Event -> Prop
  | .onType _ paramTypes resultTypes =>
      (forall type, type ∈ paramTypes -> features.Concrete type) ∧
        (resultTypes.length ≤ 1 ∨ features.multiValue = true) ∧
        forall type, type ∈ resultTypes -> features.Concrete type
  | .onImportGlobal _ _ _ _ type _ => features.Concrete type
  | .onImportException _ _ _ _ sig =>
      features.exceptions = true ∧ forall type, type ∈ sig -> features.Concrete type
  | .beginGlobal _ type _ => features.Concrete type
  | .onInitExpr _ init => init.Gated features
  | .onExport _ kind _ _ => kind = .except -> features.exceptions = true
  | .onElemSegmentFunctionIndexCount _ count => count < 2 ^ 32
  | .onLocalDecl _ _ type => features.Concrete type
  | .onExpr instr => instr.Gated features
  | .onExceptionType _ sig =>
      features.exceptions = true ∧ forall type, type ∈ sig -> features.Concrete type
  | _ => True

theorem Reader.isConcreteType_iff {reader : Reader} {type : Int} :
    reader.isConcreteType type = true ↔ reader.features.Concrete type := by
  simp only [isConcreteType, Features.Concrete, Bool.or_eq_true, Bool.and_eq_true,
    decide_eq_true_eq, or_assoc]

theorem Reader.isBlockType_block {reader : Reader} {type : Int}
    (isBlockType : reader.isBlockType type = true) : reader.features.Block type := by
  rw [Reader.isBlockType, Bool.or_eq_true, Bool.or_eq_true, isConcreteType_iff, Bool.and_eq_true,
    Bool.and_eq_true, decide_eq_true_eq, decide_eq_true_eq] at isBlockType
  rcases isBlockType with (concrete | void) | ⟨⟨multiValue, above⟩, _⟩
  · exact .inl concrete
  · exact .inr (.inl void)
  · exact .inr (.inr ⟨multiValue, above⟩)

/-! ## Counts -/

theorem Reader.lebBits_lt (reader : Reader) (offset count : Nat) :
    reader.lebBits offset count < 0x80 ^ count := by
  induction count generalizing offset with
  | zero => exact Nat.one_pos
  | succ count inductionHypothesis =>
      have rest := inductionHypothesis (offset + 1)
      have first := Nat.mod_lt (reader.byte offset) (show 0 < 0x80 by decide)
      rw [lebBits, Nat.pow_succ]
      omega

theorem Reader.lebBits_succ (reader : Reader) (offset count : Nat) :
    reader.lebBits offset (count + 1) =
      reader.lebBits offset count + 0x80 ^ count * (reader.byte (offset + count) % 0x80) := by
  induction count generalizing offset with
  | zero => simp only [lebBits, Nat.pow_zero, Nat.mul_zero, Nat.add_zero, Nat.one_mul, Nat.zero_add]
  | succ count inductionHypothesis =>
      rw [lebBits, inductionHypothesis (offset + 1), lebBits, Nat.pow_succ, Nat.add_right_comm offset,
        Nat.add_assoc offset count 1]
      ring

theorem Reader.readU32Leb128_lt {reader : Reader} {desc : String} {offset number next : Nat}
    (read : reader.readU32Leb128 desc offset = .ok (number, next)) : number < 2 ^ 32 := by
  unfold readU32Leb128 at read
  cases found : reader.lebLast offset 5 with
  | none =>
      rw [found] at read
      cases read
  | some last =>
      rw [found] at read
      change (if _ then _ else _) = _ at read
      split at read
      · cases read
      · rename_i fits
        have same : reader.lebBits offset (last + 1) = number :=
          congrArg Prod.fst (Except.ok.inj read)
        have inRange : last < 5 := List.mem_range.mp (List.mem_of_find?_eq_some found)
        rw [← same]
        by_cases isLast : last = 4
        · subst isLast
          have lower := reader.lebBits_lt offset 4
          rw [lebBits_succ]
          omega
        · refine Nat.lt_of_lt_of_le (reader.lebBits_lt offset (last + 1)) ?_
          exact Nat.le_trans (Nat.pow_le_pow_right (by decide) (show last + 1 ≤ 4 by omega))
            (by decide)

theorem Reader.readCount_lt {reader : Reader} {desc : String} {offset number next : Nat}
    (read : reader.readCount desc offset = .ok (number, next)) : number < 2 ^ 32 := by
  rcases bind_ok.mp read with ⟨⟨found, after⟩, counted, checked⟩
  change (if _ then _ else _) = _ at checked
  split at checked
  · cases checked
  · cases checked
    exact readU32Leb128_lt counted

/-! ## Opcodes -/

theorem Reader.readInstr_gated {reader : Reader} {offset next : Nat} {instr : Instr}
    (read : reader.readInstr offset = .ok (instr, next)) : instr.Gated reader.features := by
  rcases bind_ok.mp read with ⟨⟨opcode, after⟩, _, later⟩
  dsimp only at later
  cases found : opcodeCase opcode with
  | none =>
      rw [found] at later
      cases later
  | some row =>
      rw [found] at later
      change (if _ then _ else _) = _ at later
      split at later
      · rename_i enabled
        rcases bind_ok.mp later with ⟨⟨values, behind⟩, immediates, done⟩
        cases done
        refine ⟨⟨row, found, rfl, enabled⟩, fun other desc rest same shape => ?_⟩
        rw [found, Option.some.injEq] at same
        subst same
        rw [shape] at immediates
        rcases bind_ok.mp immediates with ⟨⟨first, middle⟩, here, later⟩
        rcases bind_ok.mp later with ⟨⟨others, behind⟩, _, done⟩
        cases done
        rcases bind_ok.mp here with ⟨⟨type, behind⟩, _, checked⟩
        change (if _ then _ else _) = _ at checked
        split at checked
        · rename_i isBlockType
          cases checked
          exact ⟨type, others, rfl, isBlockType_block isBlockType⟩
        · cases checked
      · cases later

theorem Reader.instructions_gated {reader : Reader} {endOffset rounds offset : Nat}
    {item : Instr × Nat} (isMember : item ∈ (reader.instructions endOffset rounds offset).1) :
    item.1.Gated reader.features := by
  induction rounds generalizing offset with
  | zero => cases isMember
  | succ rounds inductionHypothesis =>
      rw [instructions] at isMember
      split at isMember
      · cases read : reader.readInstr offset with
        | error failure =>
            rw [read] at isMember
            cases isMember
        | ok found =>
            rcases found with ⟨instr, next⟩
            rw [read] at isMember
            rcases List.mem_cons.mp isMember with rfl | isMember
            · exact readInstr_gated read
            · exact inductionHypothesis isMember
      · cases isMember

namespace Read

open Emitting (Guards guards_bind guards_pure guards_fail guards_get guards_modify guards_check
  guards_emit guards_step guards_repeated guards_collected guards_ite)

/-- From a reader with these features everything that is let out is gated. -/
abbrev Gates (features : Features) (read : Read Result) (post : Result -> Prop) : Prop :=
  Guards (fun state : ModuleReader => state.features = features)
    (fun item : Item => item.1.Gated features) read post

variable {features : Features}

theorem gates_pass {event : Event} (gated : event.Gated features) :
    Gates features (pass event) fun _ => True :=
  guards_emit fun _ _ => gated

theorem gates_take {read : Reader -> Nat -> Except Failure (Result × Nat)} {post : Result -> Prop}
    (holds : forall reader offset result next, reader.features = features ->
      read reader offset = .ok (result, next) -> post result) :
    Gates features (take read) post := by
  refine guards_step fun state result after same ran => ?_
  cases taken : read state.reader state.offset with
  | error failure =>
      rw [taken] at ran
      cases ran
  | ok found =>
      rw [taken] at ran
      cases ran
      exact ⟨holds state.reader state.offset found.1 found.2 same taken, same⟩

theorem gates_read {read : Reader -> Nat -> Except Failure (Result × Nat)} :
    Gates features (take read) fun _ => True :=
  gates_take fun _ _ _ _ _ _ => trivial

theorem gates_require {holds : Bool} {message : String} :
    Gates features (require holds message) fun _ => holds = true :=
  guards_check

theorem gates_frames (kind : BinarySection) {read : Read Result}
    (frames : Emitting.Frames (fun item => item.1.Gated features) (ModuleReader.outside kind) read) :
    Gates features read fun _ => True :=
  frames.guards (fun _ => id) fun state after same holds => by
    have features_ := congrArg ModuleReader.features same
    cases kind <;> exact features_.trans holds

/-! ## What the sections hold -/

theorem gates_readConcreteType {desc message : String} :
    Gates features (readConcreteType desc message) features.Concrete := by
  refine guards_bind gates_read fun type _ => guards_bind guards_get fun reader here => ?_
  rcases here with ⟨state, same, rfl⟩
  refine guards_bind gates_require fun _ isConcreteType => guards_pure ?_
  have concrete := Reader.isConcreteType_iff.mp isConcreteType
  change state.features.Concrete type at concrete
  rw [same] at concrete
  exact concrete

theorem gates_concreteTypes {desc message : String} (count index : Nat) :
    Gates features (Emitting.collected (fun _ => readConcreteType desc message) count index)
      fun types => types.length = count ∧ forall type, type ∈ types -> features.Concrete type :=
  guards_collected (fun _ => gates_readConcreteType) count index

theorem gates_readGlobalHeader :
    Gates features readGlobalHeader fun header => features.Concrete header.1 :=
  guards_bind gates_readConcreteType fun _ concrete => guards_bind gates_read fun _ _ =>
    guards_bind gates_require fun _ _ => guards_pure concrete

theorem gates_readExceptionType :
    Gates features readExceptionType fun sig => forall type, type ∈ sig -> features.Concrete type :=
  guards_bind gates_read fun count _ => (gates_concreteTypes count 0).mono fun _ => And.right

theorem readInitValue_gated {opcode offset next : Nat} {reader : Reader} {init : InitExpr}
    (read : readInitValue opcode reader offset = .ok (init, next)) :
    init.Gated reader.features := by
  have always : forall (number : Except Failure (Nat × Nat)) (make : Nat -> InitExpr),
      (forall value, (make value).Gated reader.features) ->
      number.bind (fun found => .ok (make found.1, found.2)) = .ok (init, next) ->
      init.Gated reader.features := by
    intro number make gated ran
    rcases bind_ok.mp ran with ⟨⟨value, after⟩, _, done⟩
    cases done
    exact gated value
  have signed : forall (number : Except Failure (Int × Nat)) (make : Int -> InitExpr),
      (forall value, (make value).Gated reader.features) ->
      number.bind (fun found => .ok (make found.1, found.2)) = .ok (init, next) ->
      init.Gated reader.features := by
    intro number make gated ran
    rcases bind_ok.mp ran with ⟨⟨value, after⟩, _, done⟩
    cases done
    exact gated value
  rw [readInitValue] at read
  split at read
  · exact signed _ (fun value => .i32Const (BitVec.ofInt 32 value)) (fun _ => trivial) read
  · split at read
    · exact signed _ (fun value => .i64Const (BitVec.ofInt 64 value)) (fun _ => trivial) read
    · split at read
      · exact always _ (fun bits => .f32Const (BitVec.ofNat 32 bits)) (fun _ => trivial) read
      · split at read
        · exact always _ (fun bits => .f64Const (BitVec.ofNat 64 bits)) (fun _ => trivial) read
        · split at read
          · split at read
            · rename_i simd
              exact always _ (fun bits => .v128Const (BitVec.ofNat 128 bits)) (fun _ => simd) read
            · cases read
          · split at read
            · exact always _ .getGlobal (fun _ => trivial) read
            · cases read

theorem gates_readInitExpr {index : Nat} {requireI32 : Bool} :
    Gates features (readInitExpr index requireI32) fun _ => True :=
  guards_bind gates_read fun _ _ => guards_ite (fun _ => guards_pure trivial) fun _ =>
    guards_bind (gates_take fun _ _ _ _ same read => same ▸ readInitValue_gated read) fun _ gated =>
      guards_bind (gates_pass gated) fun _ _ => guards_bind gates_require fun _ _ =>
        guards_bind gates_read fun _ _ => gates_require.mono fun _ _ => trivial

/-! ## The sections -/

theorem gates_modify {change : ModuleReader -> ModuleReader}
    (keeps : forall state, (change state).features = state.features) :
    Gates features (Emitting.modify change) fun _ => True :=
  guards_modify fun state same => (keeps state).trans same

theorem gates_readSignature (index : Nat) :
    Gates features (readSignature index) fun _ => True := by
  refine guards_bind gates_read fun _ _ => guards_bind gates_require fun _ _ =>
    guards_bind gates_read fun _ _ => guards_bind (gates_concreteTypes _ _) fun _ params =>
      guards_bind gates_read fun numResults _ => guards_bind guards_get fun reader here => ?_
  rcases here with ⟨state, same, rfl⟩
  refine guards_bind gates_require fun _ few => guards_bind (gates_concreteTypes _ _)
    fun _ results => gates_pass ⟨params.2, ?_, results.2⟩
  rw [Bool.or_eq_true, decide_eq_true_eq] at few
  rw [results.1]
  exact few.imp_right fun multiValue => same ▸ multiValue

theorem gates_readTypeSection : Gates features readTypeSection fun _ => True :=
  guards_bind gates_read fun _ _ => guards_bind (gates_modify fun _ => rfl) fun _ _ =>
    guards_bind (gates_pass trivial) fun _ _ =>
      guards_bind (guards_repeated gates_readSignature _ _) fun _ _ => gates_pass trivial

theorem gates_readTable : Gates features readTable fun _ => True :=
  gates_frames .table frames_readTable

theorem gates_readMemory : Gates features readMemory fun _ => True :=
  gates_frames .memory frames_readMemory

theorem gates_readImport (index : Nat) : Gates features (readImport index) fun _ => True := by
  refine guards_bind gates_read fun _ _ => guards_bind gates_read fun _ _ =>
    guards_bind gates_read fun kind _ => ?_
  rcases externalKinds[kind]? with _ | known
  · exact guards_pure trivial
  · cases known with
    | func =>
        exact guards_bind gates_read fun _ _ => guards_bind guards_get fun _ _ =>
          guards_bind gates_require fun _ _ => guards_bind (gates_pass trivial) fun _ _ =>
            guards_bind (gates_pass trivial) fun _ _ => gates_modify fun _ => rfl
    | table =>
        exact guards_bind gates_readTable fun _ _ => guards_bind (gates_pass trivial) fun _ _ =>
          guards_bind guards_get fun _ _ => guards_bind (gates_pass trivial) fun _ _ =>
            gates_modify fun _ => rfl
    | memory =>
        exact guards_bind gates_readMemory fun _ _ => guards_bind (gates_pass trivial) fun _ _ =>
          guards_bind guards_get fun _ _ => guards_bind (gates_pass trivial) fun _ _ =>
            gates_modify fun _ => rfl
    | global =>
        exact guards_bind gates_readGlobalHeader fun _ concrete =>
          guards_bind (gates_pass trivial) fun _ _ => guards_bind guards_get fun _ _ =>
            guards_bind (gates_pass concrete) fun _ _ => gates_modify fun _ => rfl
    | except =>
        refine guards_bind guards_get fun reader here => ?_
        rcases here with ⟨state, same, rfl⟩
        exact guards_bind gates_require fun _ enabled =>
          guards_bind gates_readExceptionType fun _ concrete =>
            guards_bind (gates_pass trivial) fun _ _ =>
              guards_bind (gates_pass ⟨same ▸ enabled, concrete⟩) fun _ _ =>
                gates_modify fun _ => rfl

theorem gates_readImportSection : Gates features readImportSection fun _ => True :=
  guards_bind gates_read fun _ _ => guards_bind (gates_pass trivial) fun _ _ =>
    guards_bind (guards_repeated gates_readImport _ _) fun _ _ => gates_pass trivial

theorem gates_readFunctionSection : Gates features readFunctionSection fun _ => True := by
  refine guards_bind gates_read fun _ _ => guards_bind (gates_modify fun _ => rfl) fun _ _ =>
    guards_bind (gates_pass trivial) fun _ _ =>
      guards_bind (guards_repeated (fun _ => ?_) _ _) fun _ _ => gates_pass trivial
  exact guards_bind gates_read fun _ _ => guards_bind guards_get fun _ _ =>
    guards_bind gates_require fun _ _ => gates_pass trivial

theorem gates_readTableSection : Gates features readTableSection fun _ => True := by
  refine guards_bind gates_read fun _ _ => guards_bind (gates_modify fun _ => rfl) fun _ _ =>
    guards_bind gates_require fun _ _ => guards_bind (gates_pass trivial) fun _ _ =>
      guards_bind (guards_repeated (fun _ => ?_) _ _) fun _ _ => gates_pass trivial
  exact guards_bind gates_readTable fun _ _ => guards_bind guards_get fun _ _ => gates_pass trivial

theorem gates_readMemorySection : Gates features readMemorySection fun _ => True := by
  refine guards_bind gates_read fun _ _ => guards_bind (gates_modify fun _ => rfl) fun _ _ =>
    guards_bind gates_require fun _ _ => guards_bind (gates_pass trivial) fun _ _ =>
      guards_bind (guards_repeated (fun _ => ?_) _ _) fun _ _ => gates_pass trivial
  exact guards_bind gates_readMemory fun _ _ => guards_bind guards_get fun _ _ =>
    gates_pass trivial

theorem gates_readGlobalSection : Gates features readGlobalSection fun _ => True := by
  refine guards_bind gates_read fun _ _ => guards_bind (gates_modify fun _ => rfl) fun _ _ =>
    guards_bind (gates_pass trivial) fun _ _ =>
      guards_bind (guards_repeated (fun _ => ?_) _ _) fun _ _ => gates_pass trivial
  exact guards_bind gates_readGlobalHeader fun _ concrete => guards_bind guards_get fun _ _ =>
    guards_bind (gates_pass concrete) fun _ _ => guards_bind (gates_pass trivial) fun _ _ =>
      guards_bind gates_readInitExpr fun _ _ => gates_pass trivial

theorem gates_readExport (index : Nat) : Gates features (readExport index) fun _ => True := by
  refine guards_bind gates_read fun _ _ => guards_bind gates_read fun kind _ => ?_
  rcases externalKinds[kind]? with _ | known
  · exact guards_fail
  · refine guards_bind gates_read fun _ _ => guards_bind guards_get fun reader here => ?_
    rcases here with ⟨state, same, rfl⟩
    refine guards_bind gates_require fun _ allowed => gates_pass fun isExcept => ?_
    cases isExcept
    rw [exportError] at allowed
    split at allowed
    · rename_i enabled
      exact same ▸ enabled
    · cases allowed

theorem gates_readExportSection : Gates features readExportSection fun _ => True :=
  guards_bind gates_read fun _ _ => guards_bind (gates_pass trivial) fun _ _ =>
    guards_bind (guards_repeated gates_readExport _ _) fun _ _ => gates_pass trivial

theorem gates_readStartSection : Gates features readStartSection fun _ => True :=
  guards_bind gates_read fun _ _ => guards_bind guards_get fun _ _ =>
    guards_bind gates_require fun _ _ => guards_bind (gates_pass trivial) fun _ _ =>
      gates_pass trivial

theorem gates_segmentCount {index count : Nat} (small : count < 2 ^ 32) :
    Gates features (pass (.onElemSegmentFunctionIndexCount index count)) fun _ => True :=
  gates_pass small

theorem gates_readElemSection : Gates features readElemSection fun _ => True := by
  refine guards_bind gates_read fun _ _ => guards_bind (gates_pass trivial) fun _ _ =>
    guards_bind guards_get fun _ _ => guards_bind gates_require fun _ _ =>
      guards_bind (guards_repeated (fun _ => ?_) _ _) fun _ _ => gates_pass trivial
  refine guards_bind gates_read fun _ _ => guards_bind (gates_pass trivial) fun _ _ =>
    guards_bind (gates_pass trivial) fun _ _ => guards_bind gates_readInitExpr fun _ _ =>
      guards_bind (gates_pass trivial) fun _ _ =>
        guards_bind (gates_take fun _ _ _ _ _ => Reader.readCount_lt) fun count small => ?_
  refine guards_bind (gates_segmentCount small) fun _ _ => guards_repeated (fun _ => ?_) _ _
  exact guards_bind gates_read fun _ _ => gates_pass trivial

theorem gates_readDataSection : Gates features readDataSection fun _ => True := by
  refine guards_bind gates_read fun _ _ => guards_bind (gates_pass trivial) fun _ _ =>
    guards_bind guards_get fun _ _ => guards_bind gates_require fun _ _ =>
      guards_bind (guards_repeated (fun _ => ?_) _ _) fun _ _ => gates_pass trivial
  exact guards_bind gates_read fun _ _ => guards_bind (gates_pass trivial) fun _ _ =>
    guards_bind (gates_pass trivial) fun _ _ => guards_bind gates_readInitExpr fun _ _ =>
      guards_bind (gates_pass trivial) fun _ _ => guards_bind gates_read fun _ _ =>
        gates_pass trivial

theorem gates_readLocalDecls (count index totalLocals : Nat) :
    Gates features (readLocalDecls count index totalLocals) fun _ => True := by
  induction count generalizing index totalLocals with
  | zero => exact guards_pure trivial
  | succ count inductionHypothesis =>
      exact guards_bind gates_read fun _ _ => guards_bind gates_require fun _ _ =>
        guards_bind gates_require fun _ _ => guards_bind gates_readConcreteType fun _ concrete =>
          guards_bind (gates_pass concrete) fun _ _ => inductionHypothesis _ _

theorem gates_readFunctionBody (endOffset : Nat) :
    Gates features (readFunctionBody endOffset) fun _ => True := by
  intro state same
  refine ⟨fun item isMember => ?_, fun result after ran => ⟨trivial, ?_⟩⟩
  · rcases List.mem_map.mp isMember with ⟨decoded, isDecoded, rfl⟩
    have gated := Reader.instructions_gated isDecoded
    change decoded.1.Gated state.features at gated
    rw [opcodeItem]
    split
    · trivial
    · rw [← same]
      exact gated
  · have framed := congrArg ModuleReader.features
      ((readFunctionBody_frames endOffset state).2 result after ran)
    exact framed.trans same

theorem gates_readCodeSection : Gates features readCodeSection fun _ => True := by
  refine guards_bind gates_read fun _ _ => guards_bind (gates_pass trivial) fun _ _ =>
    guards_bind (guards_repeated (fun _ => ?_) _ _) fun _ _ => gates_pass trivial
  refine guards_bind guards_get fun _ _ => guards_bind (gates_pass trivial) fun _ _ => ?_
  exact guards_bind gates_read fun _ _ => guards_bind guards_get fun _ _ =>
    guards_bind gates_read fun _ _ => guards_bind (gates_pass trivial) fun _ _ =>
      guards_bind (gates_readLocalDecls _ _ _) fun _ _ =>
        guards_bind (gates_readFunctionBody _) fun _ _ => gates_pass trivial

theorem gates_exceptionType {index : Nat} {sig : List Int} (enabled : features.exceptions = true)
    (concrete : forall type, type ∈ sig -> features.Concrete type) :
    Gates features (pass (.onExceptionType index sig)) fun _ => True :=
  gates_pass ⟨enabled, concrete⟩

theorem gates_readCustomContents : Gates features readCustomContents fun _ => True := by
  refine guards_bind gates_read fun name _ => guards_bind guards_get fun reader here => ?_
  rcases here with ⟨state, same, rfl⟩
  refine guards_ite (fun _ => ?_) fun _ => guards_ite (fun _ => gates_read) fun _ =>
    guards_ite (fun _ => gates_read) fun _ => guards_ite (fun isException => ?_) fun _ =>
      gates_modify fun _ => rfl
  · exact guards_bind gates_read fun _ _ => gates_modify fun _ => rfl
  · rw [Bool.and_eq_true] at isException
    refine guards_bind gates_read fun _ _ => guards_repeated (fun index => ?_) _ _
    refine guards_bind gates_readExceptionType fun sig concrete => ?_
    exact gates_exceptionType (same ▸ isException.1) concrete

theorem gates_readCustomSection : Gates features readCustomSection fun _ => True := by
  intro state same
  have gated : Gates features readNamedSection fun _ => True :=
    guards_bind gates_readCustomContents fun _ _ => gates_pass trivial
  have here := gated state same
  change (forall item, item ∈ (leaveOut state (readNamedSection.run state)).1 -> _) ∧
    forall result after, (leaveOut state (readNamedSection.run state)).2 = _ -> _
  generalize readNamedSection.run state = ran at here
  rcases ran with ⟨items, (message | what) | ended⟩
  · rw [leaveOut]
    split
    · exact here
    · refine ⟨here.1, fun result after ended => ?_⟩
      cases ended
      exact ⟨trivial, same⟩
  · exact here
  · exact here

/-! ## The module -/

theorem gates_readContents (kind : BinarySection) :
    Gates features (readContents kind) fun _ => True := by
  cases kind with
  | custom => exact gates_readCustomSection
  | type => exact gates_readTypeSection
  | import_ => exact gates_readImportSection
  | function => exact gates_readFunctionSection
  | table => exact gates_readTableSection
  | memory => exact gates_readMemorySection
  | global => exact gates_readGlobalSection
  | export_ => exact gates_readExportSection
  | start => exact gates_readStartSection
  | elem => exact gates_readElemSection
  | code => exact gates_readCodeSection
  | data => exact gates_readDataSection

theorem gates_readSectionHeader : Gates features readSectionHeader fun _ => True := by
  refine guards_bind gates_read fun code _ => guards_bind gates_read fun _ _ =>
    guards_bind (gates_modify fun _ => rfl) fun _ _ => ?_
  rcases binarySections[code]? with _ | kind
  · exact guards_fail
  · exact guards_bind guards_get fun _ _ => guards_bind gates_require fun _ _ =>
      guards_bind gates_require fun _ _ => guards_bind gates_require fun _ _ =>
        guards_pure trivial

theorem gates_readSection : Gates features readSection fun _ => True :=
  guards_bind gates_readSectionHeader fun header _ => guards_bind (gates_pass trivial) fun _ _ =>
    guards_bind (gates_readContents header.1) fun _ _ => guards_bind guards_get fun _ _ =>
      guards_bind gates_require fun _ _ => gates_modify fun _ => rfl

theorem gates_readSections (rounds : Nat) : Gates features (readSections rounds) fun _ => True := by
  induction rounds with
  | zero => exact guards_pure trivial
  | succ rounds inductionHypothesis =>
      exact guards_bind guards_get fun _ _ => guards_ite
        (fun _ => guards_bind gates_readSection fun _ _ => inductionHypothesis)
        fun _ => guards_pure trivial

theorem gates_readModule : Gates features readModule fun _ => True :=
  guards_bind gates_read fun _ _ => guards_bind gates_require fun _ _ =>
    guards_bind gates_read fun _ _ => guards_bind gates_require fun _ _ =>
      guards_bind guards_get fun _ _ => guards_bind (gates_readSections _) fun _ _ =>
        gates_pass trivial

end Read

/-- Every callback of a module is gated. -/
theorem gated (data : List (BitVec 8)) (features : Features)
    (readDebugNames failOnCustomSectionError : Bool) {item : Item}
    (isMember : item ∈ (Read.readModule.run
      (.start data features readDebugNames failOnCustomSectionError)).1) :
    item.1.Gated features :=
  (Read.gates_readModule _ rfl).1 item isMember

end Binary
end WasmSandboxing
