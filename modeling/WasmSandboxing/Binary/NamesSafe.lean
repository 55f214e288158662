import WasmSandboxing.Binary.Complete
import WasmSandboxing.Binary.NameSection

namespace WasmSandboxing
namespace Binary

open Foundation

/-!
# Indices of names

The reader checks the function of every name, and of a local's name only how
many there are.  What the delegate binds is what the callbacks say, so that the
bindings are in range exactly if the locals that are named exist.
-/

/-- The function that a callback is about is among the first `limit`. -/
def NameEvent.Below (limit : Nat) : NameEvent -> Prop
  | .onFunctionName index _ => index < limit
  | .onLocalNameLocalCount index _ => index < limit
  | .onLocalName funcIndex _ _ => funcIndex < limit
  | _ => True

/-- What a custom section leaves alone. -/
def ModuleReader.settled (reader : ModuleReader) : Counts × Option BinarySection :=
  (reader.counts, reader.lastKnownSection)

theorem ModuleReader.settled_outside {reader after : ModuleReader}
    (same : outside .custom after = outside .custom reader) : after.settled = reader.settled := by
  have last := congrArg ModuleReader.lastKnownSection same
  rw [outside_lastKnownSection, outside_lastKnownSection] at last
  exact Prod.ext (counts_outside rfl same) last

theorem ModuleReader.numTotalFuncs_settled {reader after : ModuleReader}
    (same : after.settled = reader.settled) : after.numTotalFuncs = reader.numTotalFuncs := by
  exact congrArg (fun settled : Counts × Option BinarySection =>
    settled.1.numFuncImports + settled.1.numFunctionSignatures) same

namespace NameRead

/-- A part of a custom section, with `limit` functions declared: the callbacks
are about these, and the delegate is where they leave it. -/
def Names (limit : Nat) (read : NameRead Result) : Prop :=
  forall state, state.reader.numTotalFuncs = limit ->
    (forall event, event ∈ (read.run state).1 -> event.Below limit) ∧
      forall result after, (read.run state).2 = .ok (result, after) ->
        after.reader.settled = state.reader.settled ∧
          after.ir = (read.run state).1.foldl NamedModule.recordName state.ir

section Rules

variable {limit : Nat} {First Result : Type}

theorem names_pure {result : Result} : Names limit (return result : NameRead Result) := by
  refine fun state _ => ⟨fun event member => absurd member List.not_mem_nil, ?_⟩
  intro found after same
  cases same
  exact ⟨rfl, rfl⟩

theorem names_fail {failure : Failure} :
    Names limit (Emitting.fail failure : NameRead Result) := by
  refine fun state _ => ⟨fun event member => absurd member List.not_mem_nil, ?_⟩
  intro found after same
  cases same

theorem names_bind {first : NameRead First} {later : First -> NameRead Result}
    (here : Names limit first) (there : forall value, Names limit (later value)) :
    Names limit (first >>= later) := by
  intro state declared
  have begun := here state declared
  cases ran : first.run state with
  | mk events result =>
      rw [ran] at begun
      rcases result with failure | ⟨value, middle⟩
      · rw [Emitting.run_bind_error ran]
        refine ⟨begun.1, fun result after same => ?_⟩
        cases same
      · rcases begun.2 value middle rfl with ⟨settled, tracked⟩
        have ends := there value middle
          ((ModuleReader.numTotalFuncs_settled settled).trans declared)
        rw [Emitting.run_bind_ok ran]
        constructor
        · intro event member
          rcases List.mem_append.mp member with member | member
          · exact begun.1 event member
          · exact ends.1 event member
        · intro result after same
          rcases ends.2 result after same with ⟨settledLater, trackedLater⟩
          refine ⟨settledLater.trans settled, ?_⟩
          rw [List.foldl_append, trackedLater, tracked]

/-- The state is one with `limit` functions. -/
theorem names_get {value : NamedReader -> First} {later : First -> NameRead Result}
    (there : forall state, state.reader.numTotalFuncs = limit ->
      Names limit (later (value state))) : Names limit (Emitting.get value >>= later) := by
  intro state declared
  have got : (Emitting.get value : NameRead First).run state = ([], .ok (value state, state)) := rfl
  rw [Emitting.run_bind_ok got]
  exact there state declared state declared

theorem names_failing {message : Option String} {later : Unit -> NameRead Result}
    (there : message = none -> Names limit (later ())) :
    Names limit (failing message >>= later) := by
  cases message with
  | none => exact names_bind names_pure fun _ => there rfl
  | some message =>
      intro state declared
      have failed : (failing (some message)).run state =
        ([], .error (.error (.text message))) := rfl
      rw [Emitting.run_bind_error failed]
      refine ⟨fun event member => absurd member List.not_mem_nil, fun result after same => ?_⟩
      cases same

theorem names_require {holds : Bool} {message : String} :
    Names limit (require holds message) := by
  cases holds with
  | true => exact names_pure
  | false => exact names_fail

theorem names_call {event : NameEvent} (below : event.Below limit) : Names limit (call event) := by
  intro state _
  refine ⟨fun found member => List.mem_singleton.mp member ▸ below, fun result after same => ?_⟩
  change (state.ir.answer event).map _ = _ at same
  change _ ∧ _ = state.ir.recordName event
  rw [NamedModule.recordName]
  cases answered : state.ir.answer event with
  | error failure =>
      rw [answered] at same
      cases same
  | ok ir =>
      rw [answered] at same
      cases same
      exact ⟨rfl, rfl⟩

theorem record_custom {item : Item} (makes : BinarySection.custom.Makes item) (ir : NamedModule) :
    ir.record item.1 = ir := by
  rcases item with ⟨event, offset⟩
  rcases makes with inside | ⟨hasInitExprs, _⟩
  · cases event with
    | onExceptionType _ _ | endSection _ => rfl
    | _ => cases inside
  · cases hasInitExprs

/-- What the reader does by itself in a custom section. -/
theorem names_known {read : Read Result}
    (frames : Emitting.Frames BinarySection.custom.Makes ModuleReader.settled read) :
    Names limit (known read) := by
  intro state _
  refine ⟨fun event member => absurd member List.not_mem_nil, fun result after same => ?_⟩
  have framed := frames state.reader
  change (read.run state.reader).2.map _ = _ at same
  cases ran : (read.run state.reader).2 with
  | error failure =>
      rw [ran] at same
      cases same
  | ok found =>
      rw [ran] at same
      cases same
      refine ⟨framed.2 found.1 found.2 ran, ?_⟩
      have quiet := framed.1
      change (read.run state.reader).1.foldl _ state.ir = state.ir
      generalize (read.run state.reader).1 = items at quiet
      induction items with
      | nil => rfl
      | cons item items inductionHypothesis =>
          rw [List.foldl_cons, record_custom (quiet item List.mem_cons_self)]
          exact inductionHypothesis fun other member => quiet other (List.mem_cons_of_mem _ member)

theorem names_take {read : Reader -> Nat -> Except Failure (Result × Nat)} :
    Names limit (take read) :=
  names_known (Read.frames_take fun _ _ => rfl)

theorem names_setReadEnd {readEnd : Nat} : Names limit (setReadEnd readEnd) :=
  names_known (Emitting.frames_modify fun _ => rfl)

end Rules

/-! ## The name section -/

section Names

variable {limit : Nat}

/-- The index of a name is read and checked in front of the name. -/
theorem names_readNames {desc : String} {error : Reader -> Nat -> Nat -> Option String}
    {readName : Nat -> NameRead Unit}
    (names : forall reader lastIndex index, reader.numTotalFuncs = limit ->
      error reader lastIndex index = none -> Names limit (readName index))
    (count lastIndex : Nat) : Names limit (readNames desc error readName count lastIndex) := by
  induction count generalizing lastIndex with
  | zero => exact names_pure
  | succ count inductionHypothesis =>
      refine names_bind names_take fun index => names_get fun state declared => ?_
      refine names_failing fun passes => ?_
      exact names_bind (names state.reader.reader lastIndex index declared passes) fun _ =>
        inductionHypothesis index

theorem functionNameError_none {reader : Reader} {lastIndex index : Nat}
    (passes : Read.functionNameError reader lastIndex index = none) :
    index < reader.numTotalFuncs := by
  rw [Read.functionNameError] at passes
  split at passes
  · cases passes
  · split at passes
    · cases passes
    · split at passes
      · cases passes
      · exact Nat.lt_of_not_le ‹_›

theorem localFunctionError_none {reader : Reader} {lastIndex index : Nat}
    (passes : Read.localFunctionError reader lastIndex index = none) :
    index < reader.numTotalFuncs := by
  rw [Read.localFunctionError] at passes
  split at passes
  · cases passes
  · exact Nat.lt_of_not_le ‹_›

theorem names_readFunctionNames : Names limit readFunctionNames := by
  refine names_bind names_take fun numNames => names_bind (names_call trivial) fun _ => ?_
  refine names_readNames (fun reader lastIndex index declared passes => ?_) _ _
  have below := functionNameError_none passes
  rw [declared] at below
  exact names_bind names_take fun _ => names_call below

theorem names_readLocalNamesOf {functionIndex : Nat} (below : functionIndex < limit) :
    Names limit (readLocalNamesOf functionIndex) := by
  refine names_bind names_take fun numLocals => names_bind (names_call below) fun _ => ?_
  refine names_readNames (fun _ _ localIndex _ _ => names_bind names_take fun localName => ?_) _ _
  have named : NameEvent.Below limit (.onLocalName functionIndex localIndex localName) := below
  exact names_call named

theorem names_readLocalNames : Names limit readLocalNames := by
  refine names_bind names_take fun numFuncs => ?_
  refine names_readNames (fun reader lastIndex index declared passes => ?_) _ _
  have below := localFunctionError_none passes
  rw [declared] at below
  exact names_readLocalNamesOf below

theorem names_readNameSubsection {nameType size subsectionEnd : Nat} :
    Names limit (readNameSubsection nameType size subsectionEnd) := by
  rw [readNameSubsection]
  split
  · split
    · exact names_pure
    · exact names_bind names_take fun _ => names_call trivial
  · split
    · split
      · exact names_pure
      · exact names_readFunctionNames
    · split
      · split
        · exact names_pure
        · exact names_readLocalNames
      · exact names_known (Emitting.frames_modify fun _ => rfl)

theorem names_readNameSection (rounds : Nat) (previous : Option Nat) :
    Names limit (readNameSection rounds previous) := by
  induction rounds generalizing previous with
  | zero => exact names_pure
  | succ rounds inductionHypothesis =>
      refine names_get fun state _ => ?_
      split
      · refine names_bind names_take fun nameType => ?_
        refine names_bind names_require fun _ => names_bind names_require fun _ => ?_
        refine names_bind names_take fun size => names_get fun _ _ => ?_
        refine names_bind names_require fun _ => names_bind names_setReadEnd fun _ => ?_
        refine names_bind names_readNameSubsection fun _ => names_get fun _ _ => ?_
        refine names_bind names_require fun _ => names_bind names_setReadEnd fun _ => ?_
        exact inductionHypothesis (some nameType)
      · exact names_pure

theorem frames_readExceptionSection :
    Emitting.Frames BinarySection.custom.Makes ModuleReader.settled Read.readExceptionSection := by
  have within : Read.Within .custom Read.readExceptionSection :=
    Emitting.frames_bind Read.frames_read fun _ => Emitting.frames_repeated (fun _ =>
      Emitting.frames_bind Read.frames_readExceptionType fun _ => Read.within_pass rfl) _ _
  exact fun state => ⟨(within state).1, fun result after same =>
    ModuleReader.settled_outside ((within state).2 result after same)⟩

theorem names_readCustomContents : Names limit readCustomContents := by
  refine names_bind names_take fun name => names_get fun state _ => ?_
  split
  · exact names_bind (names_readNameSection _ _) fun _ =>
      names_known (Emitting.frames_modify fun _ => rfl)
  · split
    · exact names_take
    · split
      · exact names_take
      · split
        · exact names_known frames_readExceptionSection
        · exact names_known (Emitting.frames_modify fun _ => rfl)

/-- A section that is left out leaves what is recorded of it. -/
theorem names_readCustomSection : Names limit readCustomSection := by
  intro state declared
  have contents := @names_readCustomContents limit state declared
  have ran : readCustomSection.run state = leaveOut state (readCustomContents.run state) := rfl
  rw [ran]
  clear ran
  generalize readCustomContents.run state = ran at contents
  rcases ran with ⟨events, (message | what) | ended⟩
  · rw [leaveOut]
    split
    · exact contents
    · refine ⟨contents.1, fun result after same => ?_⟩
      cases same
      exact ⟨rfl, rfl⟩
  · exact contents
  · exact contents

end Names

end NameRead

/-! ## What is recorded -/

/-- The parameter that a callback names in the function `index`. -/
def paramBinding (index numParams : Nat) : NameEvent -> Option (Name × Nat)
  | .onLocalName funcIndex localIndex name =>
      if funcIndex = index ∧ name ≠ [] ∧ localIndex < numParams then
        some (NamedModule.makeDollarName name, localIndex)
      else none
  | _ => none

/-- The local that a callback names in the function `index`. -/
def localBinding (index numParams : Nat) : NameEvent -> Option (Name × Nat)
  | .onLocalName funcIndex localIndex name =>
      if funcIndex = index ∧ name ≠ [] ∧ numParams ≤ localIndex then
        some (NamedModule.makeDollarName name, localIndex - numParams)
      else none
  | _ => none

/-- The bindings are those that the callbacks make. -/
structure Faithful (log : List NameEvent) (ir : NamedModule) : Prop where
  params : forall index func, ir.funcs[index]? = some func ->
    func.paramBindings = log.filterMap (paramBinding index func.numParams)
  locals : forall index func, ir.funcs[index]? = some func ->
    func.localBindings = log.filterMap (localBinding index func.numParams)
  below : forall event, event ∈ log -> event.Below ir.funcs.length
  funcs : forall binding, binding ∈ ir.funcBindings -> binding.2 < ir.funcs.length

theorem NameEvent.Below.mono {limit more : Nat} {event : NameEvent} (below : event.Below limit)
    (atMost : limit ≤ more) : event.Below more := by
  cases event with
  | onModuleName _ | onFunctionNamesCount _ => trivial
  | onFunctionName _ _ | onLocalNameLocalCount _ _ | onLocalName _ _ _ =>
      exact Nat.lt_of_lt_of_le below atMost

/-- No callback is about a function that is not declared. -/
theorem filterMap_beyond {log : List NameEvent} {index numParams : Nat}
    (below : forall event, event ∈ log -> event.Below index) :
    log.filterMap (paramBinding index numParams) = [] ∧
      log.filterMap (localBinding index numParams) = [] := by
  constructor
  all_goals
    rw [List.filterMap_eq_nil_iff]
    intro event member
    have isBelow := below event member
    cases event with
    | onLocalName funcIndex localIndex name => exact if_neg fun both => Nat.ne_of_lt isBelow both.1
    | _ => rfl

namespace Faithful

variable {log : List NameEvent} {ir after : NamedModule}

theorem empty : Faithful [] .empty where
  params _ _ found := by cases found
  locals _ _ found := by cases found
  below _ member := absurd member List.not_mem_nil
  funcs _ member := absurd member List.not_mem_nil

/-- Functions may be added, and all but the bindings of one may change. -/
theorem extend (faithful : Faithful log ir) (bindings : after.funcBindings = ir.funcBindings)
    (longer : ir.funcs.length ≤ after.funcs.length)
    (funcs : forall (index : Nat) func, after.funcs[index]? = some func ->
      (∃ old : NamedFunc, ir.funcs[index]? = some old ∧ func.numParams = old.numParams ∧
        func.paramBindings = old.paramBindings ∧ func.localBindings = old.localBindings) ∨
      (ir.funcs.length ≤ index ∧ func.paramBindings = [] ∧ func.localBindings = [])) :
    Faithful log after where
  params index func found := by
    rcases funcs index func found with ⟨old, present, same, params, _⟩ | ⟨beyond, params, _⟩
    · rw [params, same]
      exact faithful.params index old present
    · rw [params]
      exact (filterMap_beyond fun event member =>
        (faithful.below event member).mono beyond).1.symm
  locals index func found := by
    rcases funcs index func found with ⟨old, present, same, _, locals⟩ | ⟨beyond, _, locals⟩
    · rw [locals, same]
      exact faithful.locals index old present
    · rw [locals]
      exact (filterMap_beyond fun event member =>
        (faithful.below event member).mono beyond).2.symm
  below event member := (faithful.below event member).mono longer
  funcs binding member :=
    Nat.lt_of_lt_of_le (faithful.funcs binding (bindings ▸ member)) longer

theorem declareFunc (faithful : Faithful log ir) (sigIndex : Nat) :
    Faithful log (ir.declareFunc sigIndex) := by
  refine faithful.extend rfl ?_ fun index func found => ?_
  · rw [NamedModule.declareFunc, List.length_append]
    exact Nat.le_add_right ..
  · change (ir.funcs ++ [_])[index]? = some func at found
    rcases Nat.lt_or_ge index ir.funcs.length with inside | beyond
    · rw [List.getElem?_append_left inside] at found
      exact .inl ⟨func, found, rfl, rfl, rfl⟩
    · rw [List.getElem?_append_right beyond] at found
      have only := List.mem_singleton.mp (List.mem_of_getElem? found)
      subst only
      exact .inr ⟨beyond, rfl, rfl⟩

/-- A change of a function that leaves its bindings alone. -/
theorem modify (faithful : Faithful log ir) {at_ : Nat}
    {change : NamedFunc -> NamedFunc} (changed : after.funcs = ir.funcs.modify at_ change)
    (bindings : after.funcBindings = ir.funcBindings)
    (keeps : forall func, (change func).numParams = func.numParams ∧
      (change func).paramBindings = func.paramBindings ∧
      (change func).localBindings = func.localBindings) : Faithful log after := by
  refine faithful.extend bindings ?_ fun index func found => .inl ?_
  · rw [changed, List.length_modify]
  · rw [changed, List.getElem?_modify] at found
    cases present : ir.funcs[index]? with
    | none =>
        rw [present] at found
        cases found
    | some old =>
        rw [present] at found
        cases found
        refine ⟨old, rfl, ?_⟩
        dsimp only
        split
        · exact keeps old
        · exact ⟨rfl, rfl, rfl⟩

/-- The known sections bind nothing. -/
theorem record (faithful : Faithful log ir) (event : Event) : Faithful log (ir.record event) := by
  cases event with
  | onImportFunc _ _ _ _ sigIndex | onFunction _ sigIndex => exact faithful.declareFunc sigIndex
  | onLocalDecl _ _ _ => exact faithful.modify rfl rfl fun _ => ⟨rfl, rfl, rfl⟩
  | _ => exact ⟨faithful.params, faithful.locals, faithful.below, faithful.funcs⟩

/-- A callback that binds nothing. -/
theorem silent (faithful : Faithful log ir) {event : NameEvent}
    (below : event.Below ir.funcs.length)
    (noBinding : forall index numParams, paramBinding index numParams event = none ∧
      localBinding index numParams event = none) : Faithful (log ++ [event]) ir where
  params index func found := by
    rw [List.filterMap_append, List.filterMap_cons_none (noBinding index _).1]
    exact (faithful.params index func found).trans (List.append_nil _).symm
  locals index func found := by
    rw [List.filterMap_append, List.filterMap_cons_none (noBinding index _).2]
    exact (faithful.locals index func found).trans (List.append_nil _).symm
  below other member := by
    rcases List.mem_append.mp member with member | member
    · exact faithful.below other member
    · exact List.mem_singleton.mp member ▸ below
  funcs := faithful.funcs

/-- A name for a function that is declared. -/
theorem bindFunc (faithful : Faithful log ir) {index : Nat} (dollarName : Name)
    (below : index < ir.funcs.length) :
    Faithful log { ir with
      funcs := ir.funcs.modify index fun func => { func with name := dollarName }
      funcBindings := ir.funcBindings ++ [(dollarName, index)] } := by
  have renamed : Faithful log { ir with
      funcs := ir.funcs.modify index fun func => { func with name := dollarName } } :=
    faithful.modify rfl rfl fun _ => ⟨rfl, rfl, rfl⟩
  refine ⟨renamed.params, renamed.locals, renamed.below, fun binding member => ?_⟩
  rcases List.mem_append.mp member with member | member
  · exact renamed.funcs binding member
  · rw [List.mem_singleton.mp member]
    exact Nat.lt_of_lt_of_eq below (List.length_modify ..).symm

theorem onFunctionName (faithful : Faithful log ir) {index : Nat} (name : Name)
    (below : index < ir.funcs.length) :
    Faithful (log ++ [.onFunctionName index name])
      (ir.recordName (.onFunctionName index name)) := by
  have isBelow : NameEvent.Below ir.funcs.length (.onFunctionName index name) := below
  have unbound := faithful.silent isBelow fun _ _ => ⟨rfl, rfl⟩
  rw [NamedModule.recordName, NamedModule.answer, NamedModule.onFunctionName]
  by_cases empty : name = []
  · rw [if_pos empty]
    exact unbound
  · rw [if_neg empty, if_neg (Nat.not_le.mpr below)]
    exact unbound.bindFunc _ below

theorem bindLocal_bindings (localIndex : Nat) (name : Name) (func : NamedFunc) (index : Nat)
    (named : name ≠ []) :
    (NamedModule.bindLocal localIndex name func).paramBindings =
        func.paramBindings ++
          [NameEvent.onLocalName index localIndex name].filterMap
            (paramBinding index func.numParams) ∧
      (NamedModule.bindLocal localIndex name func).localBindings =
        func.localBindings ++
          [NameEvent.onLocalName index localIndex name].filterMap
            (localBinding index func.numParams) ∧
      (NamedModule.bindLocal localIndex name func).numParams = func.numParams := by
  rw [NamedModule.bindLocal]
  by_cases isParam : localIndex < func.numParams
  · rw [if_pos isParam]
    simp [paramBinding, localBinding, named, isParam]
  · rw [if_neg isParam]
    simp [paramBinding, localBinding, named, isParam, Nat.le_of_not_lt isParam]

/-- The other functions keep their bindings. -/
theorem filterMap_other {funcIndex localIndex index numParams : Nat} {name : Name}
    (other : funcIndex ≠ index) :
    [NameEvent.onLocalName funcIndex localIndex name].filterMap (paramBinding index numParams) =
        [] ∧
      [NameEvent.onLocalName funcIndex localIndex name].filterMap (localBinding index numParams) =
        [] := by
  simp [paramBinding, localBinding, other]

theorem onLocalName (faithful : Faithful log ir) {funcIndex : Nat} (localIndex : Nat)
    (name : Name) (below : funcIndex < ir.funcs.length) :
    Faithful (log ++ [.onLocalName funcIndex localIndex name])
      (ir.recordName (.onLocalName funcIndex localIndex name)) := by
  have isBelow : NameEvent.Below ir.funcs.length (.onLocalName funcIndex localIndex name) := below
  rw [NamedModule.recordName, NamedModule.answer, NamedModule.onLocalName]
  by_cases empty : name = []
  · rw [if_pos empty]
    exact faithful.silent isBelow fun _ _ => by simp [paramBinding, localBinding, empty]
  · rw [if_neg empty, if_neg (Nat.not_le.mpr below)]
    have bound : forall (index : Nat) func,
        (ir.funcs.modify funcIndex (NamedModule.bindLocal localIndex name))[index]? = some func ->
        func.paramBindings = (log ++ [NameEvent.onLocalName funcIndex localIndex name]).filterMap
            (paramBinding index func.numParams) ∧
          func.localBindings = (log ++ [NameEvent.onLocalName funcIndex localIndex name]).filterMap
            (localBinding index func.numParams) := by
      intro index func found
      rw [List.getElem?_modify] at found
      cases present : ir.funcs[index]? with
      | none =>
          rw [present] at found
          cases found
      | some old =>
          rw [present] at found
          cases found
          dsimp only
          have params := faithful.params index old present
          have locals := faithful.locals index old present
          rw [List.filterMap_append, List.filterMap_append]
          by_cases same : funcIndex = index
          · rw [if_pos same]
            have bindings := bindLocal_bindings localIndex name old index empty
            rcases bindings with ⟨atParams, atLocals, size⟩
            rw [atParams, atLocals, size, params, locals, same]
            exact ⟨rfl, rfl⟩
          · rw [if_neg same]
            rw [(filterMap_other same).1, (filterMap_other same).2, List.append_nil,
              List.append_nil]
            exact ⟨params, locals⟩
    refine ⟨fun index func found => (bound index func found).1,
      fun index func found => (bound index func found).2, fun other member => ?_,
      fun binding member => ?_⟩
    · change other.Below (ir.funcs.modify _ _).length
      rw [List.length_modify]
      rcases List.mem_append.mp member with member | member
      · exact faithful.below other member
      · exact List.mem_singleton.mp member ▸ isBelow
    · change binding.2 < (ir.funcs.modify _ _).length
      rw [List.length_modify]
      exact faithful.funcs binding member

/-- A callback of the name section makes its bindings. -/
theorem recordName (faithful : Faithful log ir) {event : NameEvent}
    (below : event.Below ir.funcs.length) : Faithful (log ++ [event]) (ir.recordName event) := by
  cases event with
  | onModuleName name =>
      have unbound := faithful.silent below fun _ _ => ⟨rfl, rfl⟩
      change Faithful _ (ir.onModuleName name)
      rw [NamedModule.onModuleName]
      split
      · exact unbound
      · exact ⟨unbound.params, unbound.locals, unbound.below, unbound.funcs⟩
  | onFunctionNamesCount count =>
      have unbound := faithful.silent below fun _ _ => ⟨rfl, rfl⟩
      rw [NamedModule.recordName, NamedModule.answer, NamedModule.onFunctionNamesCount]
      split
      · exact unbound
      · exact unbound
  | onFunctionName index name => exact faithful.onFunctionName name below
  | onLocalNameLocalCount index count =>
      have unbound := faithful.silent below fun _ _ => ⟨rfl, rfl⟩
      rw [NamedModule.recordName, NamedModule.answer, NamedModule.onLocalNameLocalCount]
      cases ir.funcs[index]? with
      | none => exact unbound
      | some func =>
          dsimp only
          split
          · exact unbound
          · exact unbound
  | onLocalName funcIndex localIndex name => exact faithful.onLocalName localIndex name below

end Faithful

theorem NamedModule.length_recordName (ir : NamedModule) (event : NameEvent) :
    (ir.recordName event).funcs.length = ir.funcs.length := by
  rw [recordName]
  cases event with
  | onModuleName name =>
      change (ir.onModuleName name).funcs.length = _
      rw [onModuleName]
      split <;> rfl
  | onFunctionNamesCount count =>
      rw [answer, onFunctionNamesCount]
      split <;> rfl
  | onFunctionName index name =>
      rw [answer, onFunctionName]
      split
      · rfl
      · split
        · rfl
        · exact List.length_modify ..
  | onLocalNameLocalCount index count =>
      rw [answer, onLocalNameLocalCount]
      cases ir.funcs[index]? with
      | none => rfl
      | some func =>
          dsimp only
          split <;> rfl
  | onLocalName funcIndex localIndex name =>
      rw [answer, onLocalName]
      split
      · rfl
      · split
        · rfl
        · exact List.length_modify ..

/-- A delegate notes the functions that are declared. -/
theorem NamedModule.length_record {ir : NamedModule} {found : Declared}
    (same : ir.funcs.length = found.funcs.length) (event : Event) :
    (ir.record event).funcs.length = (found.record event).funcs.length := by
  cases event with
  | onImportFunc _ _ _ _ _ | onFunction _ _ =>
      change (ir.funcs ++ [_]).length = (found.funcs ++ [_]).length
      rw [List.length_append, List.length_append, same]
      rfl
  | onLocalDecl _ _ _ => exact (List.length_modify ..).trans same
  | _ => exact same

/-! ## The module -/

namespace NameRead

/-- What holds between two sections: what the reader counts is declared, and
the bindings are those of the callbacks. -/
structure Steady (log : List NameEvent) (state : NamedReader) : Prop where
  counted : ∃ items : List Item,
    Agrees state.reader.lastKnownSection (declared items) state.reader.counts ∧
      state.ir.funcs.length = (declared items).funcs.length
  faithful : Faithful log state.ir

theorem Steady.length_funcs {log : List NameEvent} {state : NamedReader}
    (steady : Steady log state) : state.ir.funcs.length = state.reader.numTotalFuncs := by
  rcases steady.counted with ⟨items, agrees, same⟩
  rw [same, agrees.funcs]
  rfl

/-- Names are recorded in the functions that are declared. -/
theorem steady_names {log : List NameEvent} {state : NamedReader} {read : NameRead Unit}
    (names : Names state.reader.numTotalFuncs read) (steady : Steady log state) :
    Emitting.Meets (fun _ _ => True) read (fun log _ after => Steady log after ∧
      after.reader.settled = state.reader.settled) log state := by
  refine Emitting.Meets.of_run fun events result after ran => ?_
  have recorded := names state rfl
  rw [ran] at recorded
  rcases recorded.2 result after rfl with ⟨settled, tracked⟩
  have kept : forall events (log : List NameEvent) (ir : NamedModule), Faithful log ir ->
      (forall event, event ∈ events -> event.Below ir.funcs.length) ->
      Faithful (log ++ events) (events.foldl NamedModule.recordName ir) ∧
        (events.foldl NamedModule.recordName ir).funcs.length = ir.funcs.length := by
    intro events
    induction events with
    | nil =>
        intro log ir faithful _
        rw [List.append_nil]
        exact ⟨faithful, rfl⟩
    | cons event events inductionHypothesis =>
        intro log ir faithful below
        have length := ir.length_recordName event
        have later := inductionHypothesis (log ++ [event]) (ir.recordName event)
          (faithful.recordName (below event List.mem_cons_self)) fun other member => by
            rw [length]
            exact below other (List.mem_cons_of_mem _ member)
        rw [List.append_assoc, length] at later
        exact later
  have below : forall event, event ∈ events -> event.Below state.ir.funcs.length := by
    rw [steady.length_funcs]
    exact recorded.1
  rcases kept events log state.ir steady.faithful below with ⟨faithful, length⟩
  rw [← tracked] at faithful length
  refine ⟨⟨?_, faithful⟩, settled⟩
  rcases steady.counted with ⟨items, agrees, same⟩
  refine ⟨items, ?_, length.trans same⟩
  have counts : after.reader.counts = state.reader.counts := congrArg Prod.fst settled
  have last : after.reader.lastKnownSection = state.reader.lastKnownSection :=
    congrArg Prod.snd settled
  rw [counts, last]
  exact agrees

section Sections

variable {log : List NameEvent} {state : NamedReader}

theorem meets_known {Result : Type} {read : Read Result}
    {post : List NameEvent -> Result -> NamedReader -> Prop}
    (holds : forall items result reader, read.run state.reader = (items, .ok (result, reader)) ->
      post log result ⟨reader, items.foldl (fun ir item => ir.record item.1) state.ir⟩) :
    Emitting.Meets (fun _ _ => True) (known read) post log state := by
  refine Emitting.meets_step.mpr fun result after same => ?_
  rcases ran : read.run state.reader with ⟨items, failure | found⟩
  · rw [ran] at same
    cases same
  · rw [ran] at same
    cases same
    exact holds items _ _ ran

/-- A known section binds nothing, and what it declares the delegate notes. -/
theorem record_items (items : List Item) {before : List Item} {ir : NamedModule}
    (same : ir.funcs.length = (declared before).funcs.length) (faithful : Faithful log ir) :
    (items.foldl (fun ir item => ir.record item.1) ir).funcs.length =
        (declared (before ++ items)).funcs.length ∧
      Faithful log (items.foldl (fun ir item => ir.record item.1) ir) := by
  induction items generalizing before ir with
  | nil =>
      rw [List.append_nil]
      exact ⟨same, faithful⟩
  | cons item items inductionHypothesis =>
      have length := NamedModule.length_record same item.1
      rw [← declared_append] at length
      have later := inductionHypothesis length (faithful.record item.1)
      rw [List.append_assoc] at later
      exact later

/-- What holds in front of the end of a section. -/
def Contained (kind : BinarySection) (last : Option BinarySection) (log : List NameEvent)
    (state : NamedReader) : Prop :=
  (∃ items : List Item,
    Agrees (if kind = .custom then last else some kind) (declared items) state.reader.counts ∧
      state.ir.funcs.length = (declared items).funcs.length) ∧
    Faithful log state.ir ∧ state.reader.lastKnownSection = last

theorem steady_contents {kind : BinarySection} (steady : Steady log state)
    (ordered : Read.inOrder state.reader.lastKnownSection kind = true) :
    Emitting.Meets (fun _ _ => True) (readContents kind)
      (fun log _ after => Contained kind state.reader.lastKnownSection log after) log state := by
  rw [readContents]
  by_cases custom : kind = .custom
  · rw [if_pos custom]
    refine (steady_names names_readCustomSection steady).mono ?_
    rintro log _ after ⟨⟨⟨items, agrees, same⟩, faithful⟩, settled⟩
    have last : after.reader.lastKnownSection = state.reader.lastKnownSection :=
      congrArg Prod.snd settled
    rw [last] at agrees
    refine ⟨⟨items, ?_, same⟩, faithful, last⟩
    rw [if_pos custom]
    exact agrees
  · rw [if_neg custom]
    rcases steady.counted with ⟨before, agrees, same⟩
    refine meets_known fun items result reader ran => ?_
    have kept := (Read.keepsOrder kind _ before _ ordered agrees).2 result reader (by rw [ran])
    have outside := (Read.within_readContents kind state.reader).2 result reader (by rw [ran])
    have last := congrArg ModuleReader.lastKnownSection outside
    rw [ModuleReader.outside_lastKnownSection, ModuleReader.outside_lastKnownSection] at last
    rw [ran] at kept
    rcases record_items items same steady.faithful with ⟨length, faithful⟩
    exact ⟨⟨_, kept, length⟩, faithful, last⟩

theorem steady_section (steady : Steady log state) :
    Emitting.Meets (fun _ _ => True) readSection (fun log _ after => Steady log after)
      log state := by
  refine Emitting.meets_bind.mpr (meets_known fun items found before header => ?_)
  rcases found with ⟨kind, size⟩
  rcases Read.readSectionHeader_ok header with ⟨rfl, ordered, _, _, placed⟩
  have begun : Steady log ⟨before, state.ir⟩ := by
    rw [placed]
    exact ⟨steady.counted, steady.faithful⟩
  have sameLast : before.lastKnownSection = state.reader.lastKnownSection := by rw [placed]
  rw [← sameLast] at ordered
  refine Emitting.meets_bind.mpr ((steady_contents begun ordered).mono ?_)
  rintro log _ middle ⟨⟨items, agrees, same⟩, faithful, last⟩
  refine meets_known fun noItems result after finished => ?_
  by_cases ends : middle.reader.offset = middle.reader.readEnd
  · rw [ModuleReader.finishSection_run ends] at finished
    cases finished
    refine ⟨⟨items, ?_, same⟩, faithful⟩
    dsimp only
    rw [last]
    exact agrees
  · rw [ModuleReader.finishSection_error ends] at finished
    cases finished

theorem steady_sections (rounds : Nat) (steady : Steady log state) :
    Emitting.Meets (fun _ _ => True) (readSections rounds) (fun log _ after => Steady log after)
      log state := by
  induction rounds generalizing log state with
  | zero => exact Emitting.meets_pure.mpr steady
  | succ rounds inductionHypothesis =>
      refine Emitting.meets_bind.mpr (Emitting.meets_get.mpr ?_)
      split
      · exact Emitting.meets_bind.mpr ((steady_section steady).mono
          fun _ _ _ later => inductionHypothesis later)
      · exact Emitting.meets_pure.mpr steady

theorem steady_take {Result : Type} {read : Reader -> Nat -> Except Failure (Result × Nat)}
    (steady : Steady log state) :
    Emitting.Meets (fun _ _ => True) (take read) (fun log _ after => Steady log after)
      log state := by
  refine meets_known fun items result reader ran => ?_
  have silent := (Read.frames_take (fun _ _ => rfl) :
    Emitting.Frames (fun _ => False) ModuleReader.settled (Read.take read)) state.reader
  rw [ran] at silent
  have none_ : items = [] := List.eq_nil_iff_forall_not_mem.mpr silent.1
  have settled := silent.2 result reader rfl
  rcases steady.counted with ⟨before, agrees, same⟩
  subst none_
  refine ⟨⟨before, ?_, same⟩, steady.faithful⟩
  have counts : reader.counts = state.reader.counts := congrArg Prod.fst settled
  have last : reader.lastKnownSection = state.reader.lastKnownSection := congrArg Prod.snd settled
  change Agrees reader.lastKnownSection _ reader.counts
  rw [counts, last]
  exact agrees

theorem steady_module (steady : Steady log state) :
    Emitting.Meets (fun _ _ => True) readModule (fun log _ after => Steady log after)
      log state := by
  refine Emitting.meets_bind.mpr ((steady_take steady).mono fun log _ state steady => ?_)
  refine Emitting.meets_bind.mpr (Emitting.meets_check.mpr fun _ => ?_)
  refine Emitting.meets_bind.mpr ((steady_take steady).mono fun log _ state steady => ?_)
  refine Emitting.meets_bind.mpr (Emitting.meets_check.mpr fun _ => ?_)
  exact Emitting.meets_bind.mpr (Emitting.meets_get.mpr (steady_sections _ steady))

end Sections

end NameRead

/-- Where a module is read, its bindings are those of the callbacks. -/
theorem readBinaryIr_faithful {data : List (BitVec 8)} {features : Features}
    {readDebugNames failOnCustomSectionError : Bool} {log : List NameEvent} {ir : NamedModule}
    (read : readBinaryIr data features readDebugNames failOnCustomSectionError = some (log, ir)) :
    Faithful log ir := by
  have begun : NameRead.Steady []
      ⟨.start data features readDebugNames failOnCustomSectionError, .empty⟩ :=
    ⟨⟨[], .nothing data features readDebugNames failOnCustomSectionError, rfl⟩, .empty⟩
  have meets := (NameRead.steady_module begun).2
  rw [readBinaryIr] at read
  cases ran : (NameRead.readModule.run
      ⟨.start data features readDebugNames failOnCustomSectionError, .empty⟩).2 with
  | error failure =>
      rw [ran] at read
      cases read
  | ok found =>
      rw [ran] at read
      have steady := meets found.1 found.2 ran
      cases read
      exact steady.faithful

/-! ## Lookups -/

theorem foldlM_mapping {bindings : BindingHash} {mapping : List Name} :
    (bindings.foldlM (fun (mapping : List Name) binding =>
      if binding.2 < mapping.length then some (mapping.set binding.2 binding.1) else none)
      mapping).isSome = true ↔
        forall binding, binding ∈ bindings -> binding.2 < mapping.length := by
  induction bindings generalizing mapping with
  | nil => simp
  | cons binding bindings inductionHypothesis =>
      rw [List.foldlM_cons]
      by_cases inside : binding.2 < mapping.length
      · rw [if_pos inside]
        refine (@inductionHypothesis (mapping.set binding.2 binding.1)).trans ?_
        rw [List.length_set, List.forall_mem_cons]
        exact (and_iff_right inside).symm
      · rw [if_neg inside]
        constructor
        · intro isSome
          cases isSome
        · exact fun all => absurd (all binding List.mem_cons_self) inside

/-- The assertion holds exactly for bindings in range. -/
theorem mapping_isSome {numTypes : Nat} {bindings : BindingHash} :
    (makeTypeBindingReverseMapping numTypes bindings).isSome = true ↔
      forall binding, binding ∈ bindings -> binding.2 < numTypes := by
  rw [makeTypeBindingReverseMapping, foldlM_mapping, List.length_replicate]

namespace NamedModule

/-- Every binding is in range, and every mapping of bindings to names exists. -/
structure Safe (ir : NamedModule) : Prop where
  funcs : forall binding, binding ∈ ir.funcBindings -> binding.2 < ir.funcs.length
  params : forall func, func ∈ ir.funcs ->
    forall binding, binding ∈ func.paramBindings -> binding.2 < func.numParams
  locals : forall func, func ∈ ir.funcs ->
    forall binding, binding ∈ func.localBindings -> binding.2 < func.numLocals
  mappings : forall func, func ∈ ir.funcs ->
    (makeTypeBindingReverseMapping func.numParams func.paramBindings).isSome = true ∧
      (makeTypeBindingReverseMapping func.numLocals func.localBindings).isSome = true

end NamedModule

/-- Every local that the name section names is one of the function's parameters
and locals. -/
def LocalsExist (log : List NameEvent) (ir : NamedModule) : Prop :=
  forall funcIndex localIndex name func, .onLocalName funcIndex localIndex name ∈ log ->
    name ≠ [] -> ir.funcs[funcIndex]? = some func -> localIndex < func.numParamsAndLocals

namespace Faithful

variable {log : List NameEvent} {ir : NamedModule}

/-- Bindings of parameters are in range, whatever is named. -/
theorem params_lt (faithful : Faithful log ir) {index : Nat} {func : NamedFunc}
    (found : ir.funcs[index]? = some func) {binding : Name × Nat}
    (member : binding ∈ func.paramBindings) : binding.2 < func.numParams := by
  rw [faithful.params index func found, List.mem_filterMap] at member
  rcases member with ⟨event, _, made⟩
  cases event with
  | onLocalName funcIndex localIndex name =>
      rw [paramBinding] at made
      split at made
      · rename_i both
        cases made
        exact both.2.2
      · cases made
  | _ => cases made

theorem locals_lt_iff (faithful : Faithful log ir) :
    (forall func, func ∈ ir.funcs ->
      forall binding, binding ∈ func.localBindings -> binding.2 < func.numLocals) ↔
      LocalsExist log ir := by
  constructor
  · intro inRange funcIndex localIndex name func member named found
    rcases Nat.lt_or_ge localIndex func.numParams with isParam | isLocal
    · exact Nat.lt_of_lt_of_le isParam (Nat.le_add_right ..)
    · have made : localBinding funcIndex func.numParams
          (.onLocalName funcIndex localIndex name) =
          some (NamedModule.makeDollarName name, localIndex - func.numParams) :=
        if_pos ⟨rfl, named, isLocal⟩
      have bound := inRange func (List.mem_of_getElem? found) _
        ((faithful.locals funcIndex func found).symm ▸ List.mem_filterMap.mpr ⟨_, member, made⟩)
      rw [NamedFunc.numParamsAndLocals]
      dsimp only at bound
      omega
  · intro exist func isFunc binding member
    rcases List.getElem?_of_mem isFunc with ⟨index, found⟩
    rw [faithful.locals index func found, List.mem_filterMap] at member
    rcases member with ⟨event, isEvent, made⟩
    cases event with
    | onLocalName funcIndex localIndex name =>
        rw [localBinding] at made
        split at made
        · rename_i both
          cases made
          rcases both with ⟨rfl, named, isLocal⟩
          have bound := exist funcIndex localIndex name func isEvent named found
          rw [NamedFunc.numParamsAndLocals] at bound
          dsimp only
          omega
        · cases made
    | _ => cases made

end Faithful

/-- **Indices of names**: where a module is read, all bindings that its name
sections made are in range exactly if every local that is named exists. -/
theorem names_safe_iff {data : List (BitVec 8)} {features : Features}
    {readDebugNames failOnCustomSectionError : Bool} {log : List NameEvent} {ir : NamedModule}
    (read : readBinaryIr data features readDebugNames failOnCustomSectionError = some (log, ir)) :
    ir.Safe ↔ LocalsExist log ir := by
  have faithful := readBinaryIr_faithful read
  constructor
  · exact fun safe => faithful.locals_lt_iff.mp safe.locals
  · intro exist
    have locals := faithful.locals_lt_iff.mpr exist
    have params : forall func, func ∈ ir.funcs ->
        forall binding, binding ∈ func.paramBindings -> binding.2 < func.numParams := by
      intro func isFunc binding member
      rcases List.getElem?_of_mem isFunc with ⟨index, found⟩
      exact faithful.params_lt found member
    exact ⟨faithful.funcs, params, locals, fun func isFunc =>
      ⟨mapping_isSome.mpr (params func isFunc), mapping_isSome.mpr (locals func isFunc)⟩⟩

/-- A function with one local, for which the local 9 is named. -/
def strayName : List (BitVec 8) :=
  [0x00, 0x61, 0x73, 0x6d, 0x01, 0x00, 0x00, 0x00, 0x01, 0x04, 0x01, 0x60, 0x00, 0x00,
    0x03, 0x02, 0x01, 0x00, 0x0a, 0x06, 0x01, 0x04, 0x01, 0x01, 0x7f, 0x0b,
    0x00, 0x0d, 0x04, 0x6e, 0x61, 0x6d, 0x65, 0x02, 0x06, 0x01, 0x00, 0x01, 0x09, 0x01, 0x61]

theorem read_strayName : readBinaryIr strayName noFeatures true true =
    some ([.onLocalNameLocalCount 0 1, .onLocalName 0 9 [0x61]],
      { NamedModule.empty with
        funcTypes := [0]
        funcs := [{ NamedFunc.declared 0 with
          numLocals := 1, localBindings := [([0x24, 0x61], 9)] }] }) := by
  decide +kernel

theorem names_safe_iff_strayName :
    NamedModule.Safe
      { NamedModule.empty with
        funcTypes := [0]
        funcs := [{ NamedFunc.declared 0 with
          numLocals := 1, localBindings := [([0x24, 0x61], 9)] }] } ↔
      LocalsExist [.onLocalNameLocalCount 0 1, .onLocalName 0 9 [0x61]]
        { NamedModule.empty with
          funcTypes := [0]
          funcs := [{ NamedFunc.declared 0 with
            numLocals := 1, localBindings := [([0x24, 0x61], 9)] }] } :=
  names_safe_iff read_strayName

/-- A binding of a local that does not exist is recorded. -/
theorem names_unsafe : ¬ forall data features failOnCustomSectionError log ir,
    readBinaryIr data features true failOnCustomSectionError = some (log, ir) -> ir.Safe := by
  intro safe
  have bound := (safe strayName noFeatures true _ _ read_strayName).locals _ List.mem_cons_self
    ([0x24, 0x61], 9) List.mem_cons_self
  exact absurd bound (by decide)

end Binary
end WasmSandboxing
