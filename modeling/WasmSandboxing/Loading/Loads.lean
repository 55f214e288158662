import WasmSandboxing.Loading.Extends
import WasmSandboxing.Loading.Imported

namespace WasmSandboxing
namespace Loading

open Binary

/-!
# What holds while a module is loaded

The loader agrees with what the module has declared so far, and what it changes
of the environment it has added itself.
-/

def signature (type : List Int × List Int) : FuncSignature :=
  ⟨type.1, type.2⟩

def Func.isHost : Func -> Bool
  | .defined _ => false
  | .host _ _ _ => true

theorem Module.getExport_mem {module : Module} {name : Name} {export_ : Export}
    (found : module.getExport name = some export_) : export_ ∈ module.exports := by
  rw [getExport, Option.bind_eq_some_iff] at found
  rcases found with ⟨index, _, there⟩
  exact List.mem_of_getElem? there

variable {Code : Type}

namespace Loader

/-- Where `agreed`, the globals that are imported have the types that are
declared too. -/
structure Loads (agreed : Prop) (env : Environment) (found : Declared) (loader : Loader Code) : Prop where
  kept : env.Extends loader.env
  sigs : loader.env.sigs = env.sigs ++ found.types.map signature
  sigIndexMapping : loader.sigIndexMapping =
    (List.range (found.typeCount.getD 0)).map (env.sigs.length + ·)
  typeCount : found.types.length ≤ found.typeCount.getD 0
  funcSigs : forall func, func ∈ loader.env.funcs -> func.sigIndex < loader.env.sigs.length
  numFuncImports : loader.numFuncImports = found.numFuncImports
  importsFirst : found.numFuncImports ≤ found.funcs.length ∧
    found.numGlobalImports ≤ found.globals.length
  numFuncs : loader.funcIndexMapping.length = found.numFuncImports + found.funcCount.getD 0
  /-- A function has the signature that is declared. -/
  funcs : forall index sigIndex, found.funcs[index]? = some sigIndex ->
    exists envIndex func type, loader.funcIndexMapping[index]? = some envIndex ∧
      loader.env.funcs[envIndex]? = some func ∧ found.types[sigIndex]? = some type ∧
      loader.env.sigs[func.sigIndex]? = some (signature type) ∧
      (found.numFuncImports ≤ index -> env.funcs.length ≤ envIndex ∧ func.isHost = false)
  nextFuncs : forall index, found.funcs.length ≤ index ->
    index < found.numFuncImports + found.funcCount.getD 0 ->
    loader.funcIndexMapping[index]? =
      some (loader.env.funcs.length + (index - found.funcs.length))
  numGlobalImports : loader.numGlobalImports = found.numGlobalImports
  numGlobals : loader.globalIndexMapping.length =
    found.numGlobalImports + found.globalCount.getD 0
  globals : forall (index : Nat) (type : Int) (mutable_ : Bool),
    found.globals[index]? = some (type, mutable_) ->
    exists envIndex global, loader.globalIndexMapping[index]? = some envIndex ∧
      loader.env.globals[envIndex]? = some global ∧
      (found.numGlobalImports ≤ index -> env.globals.length ≤ envIndex) ∧
      (agreed ∨ found.numGlobalImports ≤ index ->
        global.typedValue.type = type ∧ global.mutable_ = mutable_)
  nextGlobals : forall index, found.globals.length ≤ index ->
    index < found.numGlobalImports + found.globalCount.getD 0 ->
    loader.globalIndexMapping[index]? =
      some (loader.env.globals.length + (index - found.globals.length))
  table : 0 < found.numTables -> exists index, loader.tableIndex = some index ∧
    index < loader.env.tables.length
  memory : 0 < found.numMemories -> exists index, loader.memoryIndex = some index ∧
    index < loader.env.memories.length
  exports : forall export_, export_ ∈ loader.exports ->
    loader.env.Has export_.kind export_.index
  currentFunc : forall index, loader.currentFunc = some index -> env.funcs.length ≤ index

variable {agreed : Prop} {env : Environment} {found : Declared} {loader next : Loader Code}

/-! ## Imports -/

/-- An import is refused at once, or goes on with what it finds. -/
theorem link_cases (loader : Loader Code) (moduleName : Name) {fieldName : Name}
    {kind : ExternalKind}
    {host : Nat × Module -> HostImportDelegate -> Outcome Code}
    {defined : Export -> Outcome Code} :
    (exists message, loader.link moduleName fieldName kind host defined = loader.refuse message) ∨
    (exists module importDelegate,
      loader.env.findRegisteredModule moduleName = some module ∧
      module.2.kind = .host importDelegate ∧
      loader.link moduleName fieldName kind host defined = host module importDelegate) ∨
    exists module own export_,
      loader.env.findRegisteredModule moduleName = some module ∧ module.2.kind = .defined own ∧
      module.2.getExport fieldName = some export_ ∧ export_.kind = kind ∧
      loader.link moduleName fieldName kind host defined = defined export_ := by
  rw [link]
  cases registered : loader.env.findRegisteredModule moduleName with
  | none => exact .inl ⟨_, rfl⟩
  | some module =>
      simp only
      cases sort : module.2.kind with
      | host importDelegate => exact .inr (.inl ⟨module, importDelegate, rfl, sort, rfl⟩)
      | defined own =>
          simp only
          cases exported : module.2.getExport fieldName with
          | none => exact .inl ⟨_, rfl⟩
          | some export_ =>
              simp only
              split
              · rename_i sameKind
                exact .inr (.inr ⟨module, own, export_, rfl, sort, exported, sameKind, rfl⟩)
              · exact .inl ⟨_, rfl⟩

/-- What a defined module exports is there. -/
theorem Loads.exported (loads : Loads agreed env found loader) (wellFormed : env.WellFormed)
    {moduleName fieldName : Name} {module : Nat × Module} {own : DefinedModule} {export_ : Export}
    (registered : loader.env.findRegisteredModule moduleName = some module)
    (sort : module.2.kind = .defined own) (exported : module.2.getExport fieldName = some export_) :
    loader.env.Has export_.kind export_.index := by
  rcases module with ⟨index, module⟩
  rcases loads.kept.findRegisteredModule registered with ⟨old, _, here, _, grows⟩
  have defined : old.isHost = false := by
    rw [Module.isHost, ← grows.sameKind, sort]
  rw [grows.defined defined] at exported
  exact loads.kept.has (wellFormed.exports old (List.mem_of_getElem? here) defined export_
    (Module.getExport_mem exported))

theorem Loads.hostExport (loads : Loads agreed env found loader) {moduleName : Name}
    {module : Nat × Module} {importDelegate : HostImportDelegate}
    (registered : loader.env.findRegisteredModule moduleName = some module)
    (sort : module.2.kind = .host importDelegate) :
    module.2.isHost = true ∧ loader.env.modules[module.1]? = some module.2 := by
  rcases module with ⟨index, module⟩
  rcases loads.kept.findRegisteredModule registered with ⟨old, _, _, there, _⟩
  refine ⟨?_, there⟩
  rw [Module.isHost, sort]

/-! ### What imports add -/

/-- The environment with more in its lists, but not in those that are still to
be filled by number. -/
structure Adds (found : Declared) (before after : Environment) : Prop where
  extend : before.Extends after
  sigs : after.sigs = before.sigs
  funcSigs : forall func, func ∈ after.funcs ->
    func ∈ before.funcs ∨ func.sigIndex < before.sigs.length
  noFuncs : found.funcCount ≠ none -> after.funcs.length = before.funcs.length
  noGlobals : found.globalCount ≠ none -> after.globals.length = before.globals.length

theorem Loads.setEnv {after : Environment} (loads : Loads agreed env found loader)
    (adds : Adds found loader.env after) : Loads agreed env found (loader.setEnv after) where
  __ := loads
  kept := loads.kept.trans adds.extend
  sigs := adds.sigs.trans loads.sigs
  funcSigs := by
    intro func isMember
    change func.sigIndex < after.sigs.length
    rw [adds.sigs]
    rcases adds.funcSigs func isMember with isMember | inRange
    · exact loads.funcSigs func isMember
    · exact inRange
  funcs := by
    intro index sigIndex known
    rcases loads.funcs index sigIndex known with ⟨envIndex, func, type, mapped, here, typed, sig, own⟩
    refine ⟨envIndex, func, type, mapped, getElem?_of_prefix adds.extend.funcs here, typed, ?_, own⟩
    change after.sigs[func.sigIndex]? = _
    rw [adds.sigs]
    exact sig
  nextFuncs := by
    intro index above below
    have counted : found.funcCount ≠ none := by
      intro none_
      have first := loads.importsFirst.1
      rw [none_, Option.getD_none] at below
      omega
    have mapped := loads.nextFuncs index above below
    rw [← adds.noFuncs counted] at mapped
    exact mapped
  globals := by
    intro index type mutable_ known
    rcases loads.globals index type mutable_ known with ⟨envIndex, global, mapped, here, own⟩
    exact ⟨envIndex, global, mapped, getElem?_of_prefix adds.extend.globals here, own⟩
  nextGlobals := by
    intro index above below
    have counted : found.globalCount ≠ none := by
      intro none_
      have first := loads.importsFirst.2
      rw [none_, Option.getD_none] at below
      omega
    have mapped := loads.nextGlobals index above below
    rw [← adds.noGlobals counted] at mapped
    exact mapped
  table := by
    intro some_
    rcases loads.table some_ with ⟨index, here, inRange⟩
    exact ⟨index, here, Nat.lt_of_lt_of_le inRange adds.extend.tables.length_le⟩
  memory := by
    intro some_
    rcases loads.memory some_ with ⟨index, here, inRange⟩
    exact ⟨index, here, Nat.lt_of_lt_of_le inRange adds.extend.memories.length_le⟩
  exports := fun export_ isMember => adds.extend.has (loads.exports export_ isMember)

/-- What an import adds to a host module, behind what it adds of its own. -/
theorem Adds.hostExport {middle : Environment} {module : Nat × Module}
    (adds : Adds found loader.env middle) (sameModules : middle.modules = loader.env.modules)
    (host : module.2.isHost = true) (here : loader.env.modules[module.1]? = some module.2)
    (kind : ExternalKind) (itemIndex : Nat) (name : Name) :
    Adds found loader.env
      (middle.setModule module.1 (module.2.addExport kind itemIndex name)) where
  extend := adds.extend.addExport (by rw [sameModules]; exact here) host kind itemIndex name
  sigs := adds.sigs
  funcSigs := adds.funcSigs
  noFuncs := adds.noFuncs
  noGlobals := adds.noGlobals

theorem Adds.addFunc (none_ : found.funcCount = none) {func : Func}
    (inRange : func.sigIndex < loader.env.sigs.length) :
    Adds found loader.env (loader.env.addFunc func) where
  extend := (Environment.Extends.refl _).addFunc func
  sigs := rfl
  funcSigs := by
    intro other isMember
    rcases List.mem_append.mp isMember with isMember | isMember
    · exact .inl isMember
    · rw [List.mem_singleton.mp isMember]
      exact .inr inRange
  noFuncs := fun some_ => (some_ none_).elim
  noGlobals := fun _ => rfl

theorem Adds.addTable (table : Table) : Adds found loader.env (loader.env.addTable table) where
  extend := (Environment.Extends.refl _).addTable table
  sigs := rfl
  funcSigs := fun _ => .inl
  noFuncs := fun _ => rfl
  noGlobals := fun _ => rfl

theorem Adds.addMemory (memory : Memory) :
    Adds found loader.env (loader.env.addMemory memory) where
  extend := (Environment.Extends.refl _).addMemory memory
  sigs := rfl
  funcSigs := fun _ => .inl
  noFuncs := fun _ => rfl
  noGlobals := fun _ => rfl

theorem Adds.addGlobal (none_ : found.globalCount = none) (global : Global) :
    Adds found loader.env (loader.env.addGlobal global) where
  extend := (Environment.Extends.refl _).addGlobal global
  sigs := rfl
  funcSigs := fun _ => .inl
  noFuncs := fun _ => rfl
  noGlobals := fun some_ => (some_ none_).elim

theorem Loads.setDefined (loads : Loads agreed env found loader) (defined : DefinedModule) :
    Loads agreed env found (loader.setDefined defined) :=
  { loads with }

/-- The signature that an index of the module stands for. -/
theorem Loads.sig (loads : Loads agreed env found loader) {sigIndex : Nat}
    (inRange : sigIndex < found.types.length) :
    exists envSigIndex type, loader.sigIndexMapping[sigIndex]? = some envSigIndex ∧
      found.types[sigIndex]? = some type ∧
      loader.env.sigs[envSigIndex]? = some (signature type) := by
  have here := List.getElem?_eq_getElem inRange
  refine ⟨env.sigs.length + sigIndex, found.types[sigIndex], ?_, here, ?_⟩
  · rw [loads.sigIndexMapping, List.getElem?_map,
      List.getElem?_range (Nat.lt_of_lt_of_le inRange loads.typeCount)]
    rfl
  · rw [loads.sigs, List.getElem?_append_right (Nat.le_add_right _ _), Nat.add_sub_cancel_left,
      List.getElem?_map, here]
    rfl

theorem Loads.addFuncImport {sigIndex envIndex : Nat} {func : Func} {type : List Int × List Int}
    (loads : Loads agreed env found loader) (none_ : found.funcCount = none)
    (imported : found.funcs.length = found.numFuncImports)
    (here : loader.env.funcs[envIndex]? = some func) (typed : found.types[sigIndex]? = some type)
    (sig : loader.env.sigs[func.sigIndex]? = some (signature type)) :
    Loads agreed env
      { found with
        numFuncImports := found.numFuncImports + 1
        funcs := found.funcs ++ [sigIndex] }
      (loader.addFuncImport envIndex) := by
  have length : loader.funcIndexMapping.length = found.funcs.length := by
    rw [loads.numFuncs, none_, imported]
    rfl
  exact {
    loads with
    numFuncImports := congrArg (· + 1) loads.numFuncImports
    importsFirst := by
      refine ⟨?_, loads.importsFirst.2⟩
      rw [List.length_append, imported]
      exact Nat.le_refl _
    numFuncs := by
      change (loader.funcIndexMapping ++ [envIndex]).length = _
      rw [List.length_append, length, imported]
      simp only [none_]
      rfl
    funcs := by
      intro index other known
      change exists found_ func_ type_, (loader.funcIndexMapping ++ [envIndex])[index]? = _ ∧ _
      rcases Nat.lt_trichotomy index found.funcs.length with below | same | above
      · rw [List.getElem?_append_left below] at known
        rcases loads.funcs index other known with
          ⟨mapped, known, type, atIndex, rest, typed, sig, _⟩
        refine ⟨mapped, known, type, ?_, rest, typed, sig, ?_⟩
        · rw [List.getElem?_append_left (length ▸ below)]
          exact atIndex
        · intro own
          change found.numFuncImports + 1 ≤ index at own
          omega
      · rw [same, List.getElem?_concat_length, Option.some.injEq] at known
        subst known
        refine ⟨envIndex, func, type, ?_, here, typed, sig, ?_⟩
        · rw [same, ← length, List.getElem?_concat_length]
        · intro own
          change found.numFuncImports + 1 ≤ index at own
          omega
      · rw [List.getElem?_eq_none (by simp; omega)] at known
        cases known
    nextFuncs := by
      intro index above below
      rw [List.length_append, imported] at above
      simp only [none_, Option.getD_none] at below
      exact absurd below (Nat.not_lt.mpr above) }

theorem Loads.onImportFunc {index sigIndex funcIndex : Nat} {moduleName fieldName : Name}
    (loads : Loads agreed env found loader) (wellFormed : env.WellFormed)
    (allowed : found.Allows (.onImportFunc index moduleName fieldName funcIndex sigIndex))
    (ran : loader.onImportFunc moduleName fieldName sigIndex = (next, none)) :
    Loads agreed env (found.record (.onImportFunc index moduleName fieldName funcIndex sigIndex)) next := by
  rcases allowed with ⟨none_, isNext, isImport, inRange⟩
  rcases loads.sig inRange with ⟨envSigIndex, type, mapped, typed, sig⟩
  have imported : found.funcs.length = found.numFuncImports := isNext.symm.trans isImport
  rw [Loader.onImportFunc, mapped] at ran
  simp only at ran
  generalize declared_ : loader.setDefined _ = middle at ran
  have here : Loads agreed env found middle := by
    rw [← declared_]
    exact loads.setDefined _
  have sameEnv : middle.env = loader.env := by
    rw [← declared_]
    rfl
  rw [← sameEnv] at sig
  clear declared_ mapped loads
  rcases link_cases middle moduleName with
    ⟨message, refused⟩ | ⟨module, importDelegate, registered, sort, linked⟩ |
      ⟨module, own, export_, registered, sort, exported, sameKind, linked⟩
  · rw [refused] at ran
    cases ran
  · rw [linked, importHostFunc] at ran
    have sigInRange := (List.getElem?_eq_some_iff.mp sig).1
    cases answered : importDelegate.importFunc moduleName fieldName
        ((middle.env.sigs[envSigIndex]?).getD ⟨[], []⟩) with
    | error message =>
        rw [answered] at ran
        cases ran
    | ok callback =>
        rw [answered] at ran
        cases callback with
        | false => cases ran
        | true =>
            cases ran
            rcases here.hostExport registered sort with ⟨host, there⟩
            have added : Adds found middle.env
                (middle.env.addFunc (.host moduleName fieldName envSigIndex)) :=
              .addFunc none_ sigInRange
            have last : (middle.env.funcs ++ [.host moduleName fieldName envSigIndex])[
                middle.env.funcs.length]? = some (.host moduleName fieldName envSigIndex) :=
              List.getElem?_concat_length
            exact (here.setEnv (added.hostExport rfl host there .func _ _)).addFuncImport none_
              imported last typed sig
  · rw [linked, importDefinedFunc] at ran
    cases found_ : middle.env.funcs[export_.index]? with
    | none =>
        rw [found_] at ran
        cases ran
    | some func =>
        simp only [found_] at ran
        split at ran
        · rename_i equal
          cases ran
          refine here.addFuncImport none_ imported found_ typed ?_
          rw [Environment.funcSignaturesAreEqual, Bool.or_eq_true, decide_eq_true_eq,
            decide_eq_true_eq] at equal
          rcases equal with equal | equal
          · rw [← equal]
            exact sig
          · rw [← equal]
            exact sig
        · cases ran

theorem Loads.setTable (loads : Loads agreed env found loader) {index : Nat}
    (inRange : index < loader.env.tables.length) (numTables : Nat) :
    Loads agreed env { found with numTables } { loader with tableIndex := some index } :=
  { loads with table := fun _ => ⟨index, rfl, inRange⟩ }

theorem Loads.setMemory (loads : Loads agreed env found loader) {index : Nat}
    (inRange : index < loader.env.memories.length) (numMemories : Nat) :
    Loads agreed env { found with numMemories } { loader with memoryIndex := some index } :=
  { loads with memory := fun _ => ⟨index, rfl, inRange⟩ }

theorem Loads.onImportTable {index tableIndex : Nat} {moduleName fieldName : Name} {elemType : Int}
    {elemLimits : Limits} (loads : Loads agreed env found loader) (wellFormed : env.WellFormed)
    (ran : loader.onImportTable moduleName fieldName elemLimits = (next, none)) :
    Loads agreed env
      (found.record (.onImportTable index moduleName fieldName tableIndex elemType elemLimits))
      next := by
  rw [Loader.onImportTable] at ran
  split at ran
  · cases ran
  · simp only at ran
    generalize declared_ : loader.setDefined _ = middle at ran
    have here : Loads agreed env found middle := by
      rw [← declared_]
      exact loads.setDefined _
    clear declared_ loads
    rcases link_cases middle moduleName with
      ⟨message, refused⟩ | ⟨module, importDelegate, registered, sort, linked⟩ |
        ⟨module, own, export_, registered, sort, exported, sameKind, linked⟩
    · rw [refused] at ran
      cases ran
    · rw [linked, importHostTable] at ran
      cases answered : importDelegate.importTable moduleName fieldName (.ofLimits elemLimits) with
      | error message =>
          rw [answered] at ran
          cases ran
      | ok table =>
          simp only [answered] at ran
          cases limits : importLimitsError elemLimits table.limits with
          | some message =>
              rw [limits] at ran
              cases ran
          | none =>
              rw [limits] at ran
              cases ran
              rcases here.hostExport registered sort with ⟨host, there⟩
              have added : Adds found middle.env (middle.env.addTable { table with
                  funcIndexes := resize table.funcIndexes table.limits.initial 0 }) := .addTable _
              refine (here.setEnv (added.hostExport rfl host there .table _ _)).setTable ?_ _
              change _ < (middle.env.tables ++ [_]).length
              rw [List.length_append]
              exact Nat.lt_succ_self _
    · rw [linked, importDefinedTable] at ran
      have inRange := here.exported wellFormed registered sort exported
      rw [sameKind] at inRange
      cases found_ : middle.env.tables[export_.index]? with
      | none =>
          rw [found_] at ran
          cases ran
      | some table =>
          simp only [found_] at ran
          split at ran
          · cases ran
          · cases ran
            exact here.setTable inRange _

theorem Loads.onImportMemory {index memoryIndex : Nat} {moduleName fieldName : Name}
    {pageLimits : Limits} (loads : Loads agreed env found loader) (wellFormed : env.WellFormed)
    (ran : loader.onImportMemory moduleName fieldName pageLimits = (next, none)) :
    Loads agreed env
      (found.record (.onImportMemory index moduleName fieldName memoryIndex pageLimits))
      next := by
  rw [Loader.onImportMemory] at ran
  split at ran
  · cases ran
  · simp only at ran
    generalize declared_ : loader.setDefined _ = middle at ran
    have here : Loads agreed env found middle := by
      rw [← declared_]
      exact loads.setDefined _
    clear declared_ loads
    rcases link_cases middle moduleName with
      ⟨message, refused⟩ | ⟨module, importDelegate, registered, sort, linked⟩ |
        ⟨module, own, export_, registered, sort, exported, sameKind, linked⟩
    · rw [refused] at ran
      cases ran
    · rw [linked, importHostMemory] at ran
      cases answered : importDelegate.importMemory moduleName fieldName noMemory with
      | error message =>
          rw [answered] at ran
          cases ran
      | ok memory =>
          simp only [answered] at ran
          cases limits : importLimitsError pageLimits memory.pageLimits with
          | some message =>
              rw [limits] at ran
              cases ran
          | none =>
              rw [limits] at ran
              cases ran
              rcases here.hostExport registered sort with ⟨host, there⟩
              have added : Adds found middle.env (middle.env.addMemory memory) := .addMemory _
              refine (here.setEnv (added.hostExport rfl host there .memory _ _)).setMemory ?_ _
              change _ < (middle.env.memories ++ [_]).length
              rw [List.length_append]
              exact Nat.lt_succ_self _
    · rw [linked, importDefinedMemory] at ran
      have inRange := here.exported wellFormed registered sort exported
      rw [sameKind] at inRange
      cases found_ : middle.env.memories[export_.index]? with
      | none =>
          rw [found_] at ran
          cases ran
      | some memory =>
          simp only [found_] at ran
          split at ran
          · cases ran
          · cases ran
            exact here.setMemory inRange _

theorem Loads.addGlobalImport {envIndex : Nat} {global : Global} {type : Int} {mutable_ : Bool}
    (loads : Loads agreed env found loader) (none_ : found.globalCount = none)
    (imported : found.globals.length = found.numGlobalImports)
    (here : loader.env.globals[envIndex]? = some global)
    (agrees : agreed -> global.typedValue.type = type ∧ global.mutable_ = mutable_) :
    Loads agreed env
      { found with
        numGlobalImports := found.numGlobalImports + 1
        globals := found.globals ++ [(type, mutable_)] }
      (loader.addGlobalImport envIndex) := by
  have length : loader.globalIndexMapping.length = found.globals.length := by
    rw [loads.numGlobals, none_, imported]
    rfl
  exact {
    loads with
    numGlobalImports := congrArg (· + 1) loads.numGlobalImports
    importsFirst := by
      refine ⟨loads.importsFirst.1, ?_⟩
      rw [List.length_append, imported]
      exact Nat.le_refl _
    numGlobals := by
      change (loader.globalIndexMapping ++ [envIndex]).length = _
      rw [List.length_append, length, imported]
      simp only [none_]
      rfl
    globals := by
      intro index otherType otherMutable known
      change exists found_ global_, (loader.globalIndexMapping ++ [envIndex])[index]? = _ ∧ _
      change (found.globals ++ [_])[index]? = _ at known
      rcases Nat.lt_trichotomy index found.globals.length with below | same | above
      · rw [List.getElem?_append_left below] at known
        rcases loads.globals index _ _ known with ⟨mapped, global, atIndex, there, _, typed⟩
        refine ⟨mapped, global, ?_, there, ?_, ?_⟩
        · rw [List.getElem?_append_left (length ▸ below)]
          exact atIndex
        · intro own
          change found.numGlobalImports + 1 ≤ index at own
          omega
        · exact fun given => typed (given.imp_right Nat.le_of_succ_le)
      · refine ⟨envIndex, global, ?_, here, ?_, ?_⟩
        · rw [same, ← length, List.getElem?_concat_length]
        · intro own
          change found.numGlobalImports + 1 ≤ index at own
          omega
        · rw [same, List.getElem?_concat_length, Option.some.injEq] at known
          cases known
          rintro (given | own)
          · exact agrees given
          · change found.numGlobalImports + 1 ≤ index at own
            omega
      · rw [List.getElem?_eq_none (by simp; omega)] at known
        cases known
    nextGlobals := by
      intro index above below
      rw [List.length_append, imported] at above
      simp only [none_, Option.getD_none] at below
      exact absurd below (Nat.not_lt.mpr above) }

theorem Loads.onImportGlobal {index globalIndex : Nat} {moduleName fieldName : Name} {type : Int}
    {mutable_ : Bool} (loads : Loads agreed env found loader) (wellFormed : env.WellFormed)
    (allowed : found.Allows
      (.onImportGlobal index moduleName fieldName globalIndex type mutable_))
    (agrees : agreed -> loader.LinkingExact
      (.onImportGlobal index moduleName fieldName globalIndex type mutable_))
    (ran : loader.onImportGlobal moduleName fieldName type mutable_ = (next, none)) :
    Loads agreed env
      (found.record (.onImportGlobal index moduleName fieldName globalIndex type mutable_))
      next := by
  rcases allowed with ⟨none_, isNext, isImport⟩
  have imported : found.globals.length = found.numGlobalImports := isNext.symm.trans isImport
  rw [Loader.onImportGlobal] at ran
  simp only at ran
  have sameFound : forall defined_, (loader.setDefined defined_).importedGlobal moduleName fieldName
      type mutable_ = loader.importedGlobal moduleName fieldName type mutable_ := fun _ => rfl
  generalize declared_ : loader.setDefined _ = middle at ran
  have agrees : forall global : Global, middle.importedGlobal moduleName fieldName type mutable_ =
      some (global.typedValue.type, global.mutable_) -> agreed ->
      global.typedValue.type = type ∧ global.mutable_ = mutable_ := by
    intro global finds given
    rw [← declared_, sameFound] at finds
    exact Prod.mk.inj (agrees given _ finds)
  have here : Loads agreed env found middle := by
    rw [← declared_]
    exact loads.setDefined _
  clear declared_ sameFound loads
  rcases link_cases middle moduleName with
    ⟨message, refused⟩ | ⟨module, importDelegate, registered, sort, linked⟩ |
      ⟨module, own, export_, registered, sort, exported, sameKind, linked⟩
  · rw [refused] at ran
    cases ran
  · rw [linked, importHostGlobal] at ran
    cases answered : importDelegate.importGlobal moduleName fieldName
        ⟨ofType type, mutable_⟩ with
    | error message =>
        rw [answered] at ran
        cases ran
    | ok global =>
        rw [answered] at ran
        cases ran
        rcases here.hostExport registered sort with ⟨host, there⟩
        have added : Adds found middle.env (middle.env.addGlobal global) := .addGlobal none_ _
        have last : (middle.env.globals ++ [global])[middle.env.globals.length]? = some global :=
          List.getElem?_concat_length
        refine (here.setEnv (added.hostExport rfl host there .global _ _)).addGlobalImport none_
          imported last (agrees global ?_)
        rw [importedGlobal, finds, registered, Option.bind_some, sort]
        simp only [answered]
        rfl
  · rw [linked, importDefinedGlobal] at ran
    cases ran
    have inRange := here.exported wellFormed registered sort exported
    rw [sameKind] at inRange
    refine here.addGlobalImport none_ imported (List.getElem?_eq_getElem inRange) (agrees _ ?_)
    rw [importedGlobal, finds, registered, Option.bind_some, sort, Module.exported, exported,
      Option.bind_some, if_pos sameKind, Option.bind_some, List.getElem?_eq_getElem inRange]
    rfl

/-! ## Types -/

theorem Loads.onTypeCount {count : Nat} (loads : Loads agreed env found loader)
    (allowed : found.Allows (.onTypeCount count))
    (ran : loader.onTypeCount count = (next, none)) :
    Loads agreed env (found.record (.onTypeCount count)) next := by
  rcases allowed with ⟨_, noTypes⟩
  cases ran
  have sigs := loads.sigs
  rw [noTypes, List.map_nil, List.append_nil] at sigs
  exact {
    loads with
    sigIndexMapping := by
      change (List.range count).map (loader.env.sigs.length + ·) = _
      rw [sigs]
      rfl
    typeCount := by
      rw [Declared.record, noTypes]
      exact Nat.zero_le _ }

theorem Loads.onType {index : Nat} {paramTypes resultTypes : List Int}
    (loads : Loads agreed env found loader) (allowed : found.Allows (.onType index paramTypes resultTypes))
    (ran : loader.onType index paramTypes resultTypes = (next, none)) :
    Loads agreed env (found.record (.onType index paramTypes resultTypes)) next := by
  rcases allowed with ⟨isNext, count, announced, inRange⟩
  rw [Loader.onType] at ran
  split at ran
  · cases ran
    have later : forall {sigIndex : Nat} {sig : FuncSignature},
        loader.env.sigs[sigIndex]? = some sig ->
        (loader.env.addSig ⟨paramTypes, resultTypes⟩).sigs[sigIndex]? = some sig := fun here =>
      getElem?_of_prefix (List.prefix_append _ _) here
    exact {
      loads with
      kept := loads.kept.addSig _
      sigs := by
        change loader.env.sigs ++ [_] = env.sigs ++ (found.types ++ [_]).map signature
        rw [loads.sigs, List.map_append, List.append_assoc]
        rfl
      typeCount := by
        change (found.types ++ [_]).length ≤ found.typeCount.getD 0
        rw [List.length_append, announced, ← isNext]
        exact inRange
      funcSigs := by
        intro func isMember
        refine Nat.lt_of_lt_of_le (loads.funcSigs func isMember) ?_
        change _ ≤ (loader.env.sigs ++ [_]).length
        rw [List.length_append]
        exact Nat.le_add_right _ _
      funcs := by
        intro position sigIndex known
        rcases loads.funcs position sigIndex known with
          ⟨envIndex, func, type, mapped, here, typed, sig, own⟩
        exact ⟨envIndex, func, type, mapped, here,
          getElem?_of_prefix (List.prefix_append _ _) typed, later sig, own⟩
      exports := fun export_ isMember =>
        ((Environment.Extends.refl loader.env).addSig _).has (loads.exports export_ isMember) }
  · cases ran

/-! ## Functions -/

theorem getElem?_upcoming {before : List Nat} {count base index : Nat}
    (above : before.length ≤ index) (below : index < before.length + count) :
    (before ++ (List.range count).map (base + ·))[index]? = some (base + (index - before.length)) := by
  rw [List.getElem?_append_right above, List.getElem?_map, List.getElem?_range (by omega)]
  rfl

theorem Loads.onFunctionCount {count : Nat} (loads : Loads agreed env found loader)
    (allowed : found.Allows (.onFunctionCount count))
    (ran : loader.onFunctionCount count = (next, none)) :
    Loads agreed env (found.record (.onFunctionCount count)) next := by
  rcases allowed with ⟨none_, imported⟩
  have length : loader.funcIndexMapping.length = found.funcs.length := by
    rw [loads.numFuncs, none_, imported]
    rfl
  cases ran
  exact {
    loads with
    numFuncs := by
      rw [Declared.record, List.length_append, length, imported, List.length_map,
        List.length_range]
      rfl
    funcs := by
      intro index sigIndex known
      rcases loads.funcs index sigIndex known with ⟨envIndex, func, type, mapped, rest⟩
      exact ⟨envIndex, func, type, getElem?_of_prefix (List.prefix_append _ _) mapped, rest⟩
    nextFuncs := by
      intro index above below
      change found.funcs.length ≤ index at above
      change index < found.numFuncImports + count at below
      rw [getElem?_upcoming (length ▸ above) (by omega), length]
      rfl }

theorem Loads.onFunction {index sigIndex : Nat} (loads : Loads agreed env found loader)
    (allowed : found.Allows (.onFunction index sigIndex))
    (ran : loader.onFunction sigIndex = (next, none)) :
    Loads agreed env (found.record (.onFunction index sigIndex)) next := by
  rcases allowed with ⟨isNext, inRange, count, announced, below⟩
  rcases loads.sig inRange with ⟨envSigIndex, type, mapped, typed, sig⟩
  have upcoming := loads.nextFuncs index (Nat.le_of_eq isNext.symm) (by rw [announced]; exact below)
  rw [isNext, Nat.sub_self, Nat.add_zero] at upcoming
  rw [Loader.onFunction, mapped] at ran
  cases ran
  exact {
    loads with
    kept := loads.kept.addFunc _
    funcSigs := by
      intro func isMember
      rcases List.mem_append.mp isMember with isMember | isMember
      · exact loads.funcSigs func isMember
      · rw [List.mem_singleton.mp isMember]
        exact (List.getElem?_eq_some_iff.mp sig).1
    importsFirst := by
      refine ⟨?_, loads.importsFirst.2⟩
      rw [Declared.record, List.length_append]
      exact Nat.le_succ_of_le loads.importsFirst.1
    funcs := by
      intro position other known
      change (found.funcs ++ [sigIndex])[position]? = some other at known
      rcases Nat.lt_trichotomy position found.funcs.length with before | same | behind
      · rw [List.getElem?_append_left before] at known
        rcases loads.funcs position other known with
          ⟨envIndex, func, type, atIndex, here, rest⟩
        exact ⟨envIndex, func, type, atIndex,
          getElem?_of_prefix (List.prefix_append _ _) here, rest⟩
      · rw [same, List.getElem?_concat_length, Option.some.injEq] at known
        subst known
        refine ⟨loader.env.funcs.length, _, type, same ▸ upcoming, List.getElem?_concat_length,
          typed, sig, fun _ => ⟨loads.kept.funcs.length_le, rfl⟩⟩
      · rw [List.getElem?_eq_none (by simp; omega)] at known
        cases known
    nextFuncs := by
      intro position above below
      change (found.funcs ++ [sigIndex]).length ≤ position at above
      change position < found.numFuncImports + found.funcCount.getD 0 at below
      rw [List.length_append, List.length_singleton] at above
      refine (loads.nextFuncs position (by omega) below).trans ?_
      rw [Declared.record, List.length_append]
      change _ = some ((loader.env.funcs ++ [_]).length + _)
      rw [List.length_append, List.length_singleton, List.length_singleton]
      exact congrArg some (by omega)
    exports := fun export_ isMember =>
      ((Environment.Extends.refl loader.env).addFunc _).has (loads.exports export_ isMember) }

/-! ## Tables and memories -/

theorem Loads.onTable {index : Nat} {elemType : Int} {elemLimits : Limits}
    (loads : Loads agreed env found loader) (ran : loader.onTable elemLimits = (next, none)) :
    Loads agreed env (found.record (.onTable index elemType elemLimits)) next := by
  rw [Loader.onTable] at ran
  split at ran
  · cases ran
  · cases ran
    have here := loads.setEnv (.addTable (.ofLimits elemLimits))
    refine here.setTable ?_ _
    change _ < (loader.env.tables ++ [_]).length
    rw [List.length_append]
    exact Nat.lt_succ_self _

theorem Loads.onMemory {index : Nat} {pageLimits : Limits} (loads : Loads agreed env found loader)
    (ran : loader.onMemory pageLimits = (next, none)) :
    Loads agreed env (found.record (.onMemory index pageLimits)) next := by
  rw [Loader.onMemory] at ran
  split at ran
  · cases ran
  · cases ran
    have here := loads.setEnv (.addMemory (.ofLimits pageLimits))
    refine here.setMemory ?_ _
    change _ < (loader.env.memories ++ [_]).length
    rw [List.length_append]
    exact Nat.lt_succ_self _

/-! ## Globals -/

theorem Loads.onGlobalCount {count : Nat} (loads : Loads agreed env found loader)
    (allowed : found.Allows (.onGlobalCount count))
    (ran : loader.onGlobalCount count = (next, none)) :
    Loads agreed env (found.record (.onGlobalCount count)) next := by
  rcases allowed with ⟨none_, imported⟩
  have length : loader.globalIndexMapping.length = found.globals.length := by
    rw [loads.numGlobals, none_, imported]
    rfl
  cases ran
  exact {
    loads with
    numGlobals := by
      rw [Declared.record, List.length_append, length, imported, List.length_map,
        List.length_range]
      rfl
    globals := by
      intro index type mutable_ known
      rcases loads.globals index type mutable_ known with ⟨envIndex, global, mapped, rest⟩
      exact ⟨envIndex, global, getElem?_of_prefix (List.prefix_append _ _) mapped, rest⟩
    nextGlobals := by
      intro index above below
      change found.globals.length ≤ index at above
      change index < found.numGlobalImports + count at below
      rw [getElem?_upcoming (length ▸ above) (by omega), length]
      rfl }

theorem Loads.beginGlobal {index : Nat} {type : Int} {mutable_ : Bool}
    (loads : Loads agreed env found loader) (allowed : found.Allows (.beginGlobal index type mutable_))
    (ran : loader.beginGlobal index type mutable_ = (next, none)) :
    Loads agreed env (found.record (.beginGlobal index type mutable_)) next := by
  rcases allowed with ⟨isNext, count, announced, below⟩
  have upcoming := loads.nextGlobals index (Nat.le_of_eq isNext.symm)
    (by rw [announced]; exact below)
  rw [isNext, Nat.sub_self, Nat.add_zero] at upcoming
  rw [Loader.beginGlobal] at ran
  split at ran
  · cases ran
    exact {
      loads with
      kept := loads.kept.addGlobal _
      importsFirst := by
        refine ⟨loads.importsFirst.1, ?_⟩
        rw [Declared.record, List.length_append]
        exact Nat.le_succ_of_le loads.importsFirst.2
      globals := by
        intro position otherType otherMutable known
        change (found.globals ++ [(type, mutable_)])[position]? = _ at known
        rcases Nat.lt_trichotomy position found.globals.length with before | same | behind
        · rw [List.getElem?_append_left before] at known
          rcases loads.globals position otherType otherMutable known with
            ⟨envIndex, global, atIndex, here, rest⟩
          exact ⟨envIndex, global, atIndex,
            getElem?_of_prefix (List.prefix_append _ _) here, rest⟩
        · rw [same, List.getElem?_concat_length, Option.some.injEq] at known
          cases known
          exact ⟨loader.env.globals.length, _, same ▸ upcoming, List.getElem?_concat_length,
            fun _ => loads.kept.globals.length_le, fun _ => ⟨rfl, rfl⟩⟩
        · rw [List.getElem?_eq_none (by simp; omega)] at known
          cases known
      nextGlobals := by
        intro position above below
        change (found.globals ++ [_]).length ≤ position at above
        change position < found.numGlobalImports + found.globalCount.getD 0 at below
        rw [List.length_append, List.length_singleton] at above
        refine (loads.nextGlobals position (by omega) below).trans ?_
        rw [Declared.record, List.length_append]
        change _ = some ((loader.env.globals ++ [_]).length + _)
        rw [List.length_append, List.length_singleton, List.length_singleton]
        exact congrArg some (by omega)
      exports := fun export_ isMember =>
        ((Environment.Extends.refl loader.env).addGlobal _).has (loads.exports export_ isMember) }
  · cases ran

/-- A global that the load has added may get another value. -/
theorem Loads.setGlobal {envIndex : Nat} {old new : Global} (loads : Loads agreed env found loader)
    (own : env.globals.length ≤ envIndex) (here : loader.env.globals[envIndex]? = some old)
    (sameType : new.typedValue.type = old.typedValue.type)
    (sameMutable : new.mutable_ = old.mutable_) :
    Loads agreed env found (loader.setEnv (loader.env.setGlobal envIndex new)) := by
  have length : (loader.env.globals.set envIndex new).length = loader.env.globals.length :=
    List.length_set
  exact {
    loads with
    kept := loads.kept.setGlobal own new
    globals := by
      intro index type mutable_ known
      rcases loads.globals index type mutable_ known with ⟨position, global, mapped, there, typed⟩
      by_cases same : envIndex = position
      · subst same
        rw [here, Option.some.injEq] at there
        subst there
        refine ⟨envIndex, new, mapped,
          List.getElem?_set_self (List.getElem?_eq_some_iff.mp here).1, ?_⟩
        rw [sameType, sameMutable]
        exact typed
      · exact ⟨position, global, mapped, (List.getElem?_set_ne same).trans there, typed⟩
    nextGlobals := by
      intro index above below
      change _ = some ((loader.env.globals.set envIndex new).length + _)
      rw [length]
      exact loads.nextGlobals index above below
    exports := by
      intro export_ isMember
      have has := loads.exports export_ isMember
      cases sort : export_.kind with
      | global =>
          rw [sort] at has
          exact Nat.lt_of_lt_of_eq has length.symm
      | func | table | memory | except =>
          rw [sort] at has
          exact has }

theorem Loads.endGlobalInitExpr {index : Nat} (loads : Loads agreed env found loader)
    (allowed : found.Allows (.endGlobalInitExpr index))
    (ran : loader.endGlobalInitExpr index = (next, none)) : Loads agreed env found next := by
  rcases allowed with ⟨last, own⟩
  have declared_ := List.getElem?_eq_getElem (l := found.globals) (i := index) (by omega)
  rcases loads.globals index _ _ declared_ with ⟨envIndex, global, mapped, here, typed⟩
  have global_ : loader.globalAt index = some (envIndex, global) := by
    rw [globalAt, mapped, Option.bind_some, here]
    rfl
  rw [Loader.endGlobalInitExpr, global_] at ran
  cases value : loader.initExprValue with
  | none =>
      rw [value] at ran
      cases ran
  | some value_ =>
      rw [value] at ran
      simp only at ran
      split at ran
      · rename_i same
        cases ran
        exact loads.setGlobal (typed.1 own) here same rfl
      · cases ran

theorem Loads.onInitExpr {init : InitExpr} (loads : Loads agreed env found loader)
    (ran : loader.onInitExpr init = (next, none)) : Loads agreed env found next := by
  cases init with
  | getGlobal index =>
      rw [Loader.onInitExpr] at ran
      split at ran
      · cases ran
      · cases at_ : loader.globalAt index with
        | none =>
            rw [at_] at ran
            cases ran
        | some known =>
            rw [at_] at ran
            simp only at ran
            split at ran
            · cases ran
            · cases ran
              exact { loads with }
  | _ =>
      cases ran
      exact { loads with }

/-! ## Exports and the start function -/

theorem Loads.appendExport {kind : ExternalKind} {itemIndex : Nat} {name : Name}
    (loads : Loads agreed env found loader) (has : loader.env.Has kind itemIndex)
    (ran : loader.appendExport kind itemIndex name = (next, none)) : Loads agreed env found next := by
  rw [Loader.appendExport] at ran
  split at ran
  · cases ran
  · cases ran
    exact {
      loads with
      exports := by
        intro export_ isMember
        rcases List.mem_append.mp isMember with isMember | isMember
        · exact loads.exports export_ isMember
        · rw [List.mem_singleton.mp isMember]
          exact has }

theorem Loads.onExport {index itemIndex : Nat} {kind : ExternalKind} {name : Name}
    (loads : Loads agreed env found loader) (allowed : found.Allows (.onExport index kind itemIndex name))
    (ran : loader.onExport kind itemIndex name = (next, none)) : Loads agreed env found next := by
  cases kind with
  | func =>
      have declared_ := List.getElem?_eq_getElem (l := found.funcs) (i := itemIndex) allowed
      rcases loads.funcs itemIndex _ declared_ with ⟨envIndex, func, _, mapped, here, _⟩
      rw [Loader.onExport, mapped] at ran
      refine loads.appendExport ?_ ran
      exact (List.getElem?_eq_some_iff.mp here).1
  | table =>
      rcases loads.table allowed with ⟨position, here, inRange⟩
      rw [Loader.onExport, here] at ran
      refine loads.appendExport ?_ ran
      exact inRange
  | memory =>
      rcases loads.memory allowed with ⟨position, here, inRange⟩
      rw [Loader.onExport, here] at ran
      refine loads.appendExport ?_ ran
      exact inRange
  | global =>
      rw [Loader.onExport] at ran
      cases at_ : loader.globalAt itemIndex with
      | none =>
          rw [at_] at ran
          cases ran
      | some known =>
          rw [at_] at ran
          simp only at ran
          split at ran
          · cases ran
          · rw [globalAt, Option.bind_eq_some_iff] at at_
            rcases at_ with ⟨envIndex, _, there⟩
            rw [Option.map_eq_some_iff] at there
            rcases there with ⟨global, here, rfl⟩
            refine loads.appendExport ?_ ran
            exact (List.getElem?_eq_some_iff.mp here).1
  | except => cases ran

theorem Loads.onStartFunction {funcIndex : Nat} (loads : Loads agreed env found loader)
    (ran : loader.onStartFunction funcIndex = (next, none)) : Loads agreed env found next := by
  rw [Loader.onStartFunction] at ran
  split at ran
  · cases ran
  · split at ran
    · cases ran
    · simp only at ran
      split at ran
      · cases ran
      · split at ran
        · cases ran
        · cases ran
          exact loads.setDefined _

/-! ## Segments -/

theorem Loads.endElemSegmentInitExpr (loads : Loads agreed env found loader)
    (ran : loader.endElemSegmentInitExpr = (next, none)) : Loads agreed env found next := by
  rw [Loader.endElemSegmentInitExpr] at ran
  split at ran
  · cases ran
  · cases ran
    exact { loads with }

theorem Loads.onElemSegmentFunctionIndexCount {count : Nat} (loads : Loads agreed env found loader)
    (ran : loader.onElemSegmentFunctionIndexCount count = (next, none)) : Loads agreed env found next := by
  rw [Loader.onElemSegmentFunctionIndexCount] at ran
  split at ran
  · cases ran
  · split at ran
    · cases ran
    · cases ran
      exact loads

theorem Loads.onElemSegmentFunctionIndex {funcIndex : Nat} (loads : Loads agreed env found loader)
    (ran : loader.onElemSegmentFunctionIndex funcIndex = (next, none)) : Loads agreed env found next := by
  rw [Loader.onElemSegmentFunctionIndex] at ran
  split at ran
  · cases ran
  · split at ran
    · cases ran
    · cases ran
      exact { loads with }

theorem Loads.onDataSegmentData {data : List (BitVec 8)} (loads : Loads agreed env found loader)
    (ran : loader.onDataSegmentData data = (next, none)) : Loads agreed env found next := by
  rw [Loader.onDataSegmentData] at ran
  split at ran
  · cases ran
  · split at ran
    · cases ran
    · split at ran
      · cases ran
      · split at ran
        · cases ran
          exact loads
        · cases ran
          exact { loads with }

/-! ## Function bodies -/

/-- What the bodies add to the code leaves the rest alone. -/
theorem Loads.compile {compiler : Compiler Code} {event : Event} (loads : Loads agreed env found loader) :
    Loads agreed env found (loader.compile compiler event).1 :=
  { loads with }

/-- A function of the module may change but for its signature. -/
theorem Loads.setFunc {envIndex : Nat} {old new : DefinedFunc} (loads : Loads agreed env found loader)
    (own : env.funcs.length ≤ envIndex)
    (here : loader.env.funcs[envIndex]? = some (.defined old))
    (sameSig : new.sigIndex = old.sigIndex) :
    Loads agreed env found (loader.setEnv (loader.env.setFunc envIndex (.defined new))) := by
  have length : (loader.env.funcs.set envIndex (.defined new)).length = loader.env.funcs.length :=
    List.length_set
  exact {
    loads with
    kept := loads.kept.setFunc own _
    funcSigs := by
      intro func isMember
      rcases List.mem_or_eq_of_mem_set isMember with isMember | rfl
      · exact loads.funcSigs func isMember
      · change new.sigIndex < _
        rw [sameSig]
        exact loads.funcSigs _ (List.mem_of_getElem? here)
    funcs := by
      intro index sigIndex known
      rcases loads.funcs index sigIndex known with
        ⟨position, func, type, mapped, there, typed, sig, isOwn⟩
      by_cases same : envIndex = position
      · subst same
        rw [here, Option.some.injEq] at there
        subst there
        refine ⟨envIndex, .defined new, type, mapped,
          List.getElem?_set_self (List.getElem?_eq_some_iff.mp here).1, typed, ?_, isOwn⟩
        change loader.env.sigs[new.sigIndex]? = _
        rw [sameSig]
        exact sig
      · exact ⟨position, func, type, mapped, (List.getElem?_set_ne same).trans there, typed, sig,
          isOwn⟩
    nextFuncs := by
      intro index above below
      change _ = some ((loader.env.funcs.set envIndex _).length + _)
      rw [length]
      exact loads.nextFuncs index above below
    exports := by
      intro export_ isMember
      have has := loads.exports export_ isMember
      cases sort : export_.kind with
      | func =>
          rw [sort] at has
          exact Nat.lt_of_lt_of_eq has length.symm
      | global | table | memory | except =>
          rw [sort] at has
          exact has }

theorem Loads.setCurrentFunc {envIndex : Nat} (loads : Loads agreed env found loader)
    (own : env.funcs.length ≤ envIndex) :
    Loads agreed env found { loader with currentFunc := some envIndex } :=
  { loads with
    currentFunc := by
      intro index same
      cases same
      exact own }

theorem Loads.noCurrentFunc (loads : Loads agreed env found loader) :
    Loads agreed env found { loader with currentFunc := none } :=
  { loads with
    currentFunc := by
      intro index same
      cases same }

theorem Loads.beginFunctionBody {compiler : Compiler Code} {index : Nat}
    (loads : Loads agreed env found loader) (allowed : found.Allows (.beginFunctionBody index))
    (ran : loader.beginFunctionBody compiler index = (next, none)) : Loads agreed env found next := by
  rcases allowed with ⟨own, inRange⟩
  have declared_ := List.getElem?_eq_getElem inRange
  rcases loads.funcs index _ declared_ with ⟨envIndex, func, _, mapped, here, _, _, isOwn⟩
  rw [Loader.beginFunctionBody, mapped] at ran
  simp only at ran
  split at ran
  · cases ran
  · rw [here] at ran
    cases func with
    | host _ _ _ => cases ran
    | defined func =>
        have same := congrArg Prod.fst ran
        rw [← show _ = next from same]
        refine (Loads.setCurrentFunc (loads.setFunc (isOwn own).1 here ?_) (isOwn own).1).compile
        rfl

theorem Loads.changeCurrentFunc {compiler : Compiler Code} {event : Event}
    {change : DefinedFunc -> DefinedFunc} (loads : Loads agreed env found loader)
    (ran : loader.changeCurrentFunc compiler event change = (next, none))
    (sameSig : forall func, (change func).sigIndex = func.sigIndex) :
    Loads agreed env found next := by
  rw [Loader.changeCurrentFunc] at ran
  cases current : loader.currentFunc with
  | none =>
      rw [current] at ran
      cases ran
  | some envIndex =>
      rw [current] at ran
      simp only at ran
      cases here : loader.env.funcs[envIndex]? with
      | none =>
          rw [here] at ran
          cases ran
      | some func =>
          rw [here] at ran
          cases func with
          | host _ _ _ => cases ran
          | defined func =>
              simp only at ran
              have same := congrArg Prod.fst ran
              rw [← show _ = next from same]
              exact (loads.setFunc (loads.currentFunc envIndex current) here (sameSig func)).compile

theorem Loads.onLocalDeclCount {compiler : Compiler Code} {count : Nat}
    (loads : Loads agreed env found loader)
    (ran : loader.onLocalDeclCount compiler count = (next, none)) : Loads agreed env found next := by
  rw [Loader.onLocalDeclCount] at ran
  exact loads.changeCurrentFunc ran fun _ => rfl

theorem Loads.onLocalDecl {compiler : Compiler Code} {index count : Nat} {type : Int}
    (loads : Loads agreed env found loader)
    (ran : loader.onLocalDecl compiler index count type = (next, none)) :
    Loads agreed env found next := by
  rw [Loader.onLocalDecl] at ran
  exact loads.changeCurrentFunc ran fun _ => rfl

/-! ## All callbacks -/

/-- A callback that comes in order and does not fail keeps it. -/
theorem Loads.answer {compiler : Compiler Code} {event : Event} {offset : Nat}
    (loads : Loads agreed env found loader) (wellFormed : env.WellFormed)
    (allowed : found.Allows event) (notEnd : event ≠ .endModule)
    (agrees : agreed -> loader.LinkingExact event)
    (ran : Loader.answer compiler (event, offset) loader = (next, none)) :
    Loads agreed env (found.record event) next := by
  cases event with
  | onTypeCount _ => exact loads.onTypeCount allowed ran
  | onType _ _ _ => exact loads.onType allowed ran
  | onImportFunc _ _ _ _ _ => exact loads.onImportFunc wellFormed allowed ran
  | onImportTable _ _ _ _ _ _ => exact loads.onImportTable wellFormed ran
  | onImportMemory _ _ _ _ _ => exact loads.onImportMemory wellFormed ran
  | onImportGlobal _ _ _ _ _ _ => exact loads.onImportGlobal wellFormed allowed agrees ran
  | onFunctionCount _ => exact loads.onFunctionCount allowed ran
  | onFunction _ _ => exact loads.onFunction allowed ran
  | onTable _ _ _ => exact loads.onTable ran
  | onMemory _ _ => exact loads.onMemory ran
  | onGlobalCount _ => exact loads.onGlobalCount allowed ran
  | beginGlobal _ _ _ => exact loads.beginGlobal allowed ran
  | endGlobalInitExpr _ => exact loads.endGlobalInitExpr allowed ran
  | onInitExpr _ _ => exact loads.onInitExpr ran
  | onExport _ _ _ _ => exact loads.onExport allowed ran
  | onStartFunction _ => exact loads.onStartFunction ran
  | endElemSegmentInitExpr _ => exact loads.endElemSegmentInitExpr ran
  | onElemSegmentFunctionIndexCount _ _ => exact loads.onElemSegmentFunctionIndexCount ran
  | onElemSegmentFunctionIndex _ _ => exact loads.onElemSegmentFunctionIndex ran
  | beginFunctionBody _ => exact loads.beginFunctionBody allowed ran
  | onLocalDeclCount _ => exact loads.onLocalDeclCount ran
  | onLocalDecl _ _ _ => exact loads.onLocalDecl ran
  | onExpr instr =>
      have same : (loader.compile compiler (.onExpr instr)).1 = next := congrArg Prod.fst ran
      exact same ▸ loads.compile
  | endFunctionBody index =>
      have same : (Loader.compile compiler (.endFunctionBody index)
          { loader with currentFunc := none }).1 = next := congrArg Prod.fst ran
      exact same ▸ loads.noCurrentFunc.compile
  | onDataSegmentData _ _ => exact loads.onDataSegmentData ran
  | endModule => exact (notEnd rfl).elim
  | _ =>
      cases ran
      exact loads

end Loader

end Loading
end WasmSandboxing
