import WasmSandboxing.Loading.Undo

namespace WasmSandboxing
namespace Loading

open Binary

/-!
# What a program does to an environment

The commands of a program that loads modules into one environment: hosts are
added, modules loaded, named and registered, and functions run.  Every
environment that is reached is one that modules can be loaded into.
-/

namespace Environment

/-- `Environment::Environment` -/
def empty : Environment where
  modules := []
  sigs := []
  funcs := []
  memories := []
  tables := []
  globals := []
  istream := []
  moduleBindings := []
  registeredModuleBindings := []

/-- The module that `register` refers to: of a name, or the last. -/
def registerTarget (env : Environment) (name : Name) : Option Nat :=
  if name = [] then
    if env.modules = [] then none else some (env.modules.length - 1)
  else
    env.moduleBindings.findIndex name

def register (env : Environment) (index : Nat) (name : Name) : Environment :=
  { env with registeredModuleBindings := env.registeredModuleBindings ++ [(name, index)] }

/-- The name of the last module, given behind its load. -/
def nameModule (env : Environment) (module : Module) (name : Name) : Environment :=
  { env with
    modules := env.modules.set (env.modules.length - 1) { module with name }
    moduleBindings := env.moduleBindings ++ [(name, env.modules.length - 1)] }

/-- What running functions changes: what memories hold, and the values of
globals. -/
structure Executes (before after : Environment) : Prop where
  modules : after.modules = before.modules
  sigs : after.sigs = before.sigs
  funcs : after.funcs = before.funcs
  memories : after.memories.length = before.memories.length
  tables : after.tables = before.tables
  numGlobals : after.globals.length = before.globals.length
  globals : forall (index : Nat) (global : Global), before.globals[index]? = some global ->
    exists later, after.globals[index]? = some later ∧
      later.typedValue.type = global.typedValue.type ∧ later.mutable_ = global.mutable_
  istream : after.istream = before.istream
  moduleBindings : after.moduleBindings = before.moduleBindings
  registered : after.registeredModuleBindings = before.registeredModuleBindings

end Environment

variable {Code : Type} {agreed : Prop} {compiler : Compiler Code} {env after : Environment}

/-! ## A load that succeeds -/

/-- What is loaded into what: the environment before, the reader at the start
of the module, and the loader in front of the end of the module. -/
structure Loaded (agreed : Prop) (compiler : Compiler Code) (env : Environment) (start : ModuleReader)
    (after : Environment) (items : List Item) (loader : Loader Code) : Prop where
  behind : Loader.Behind agreed env items loader
  read : exists offset, (Read.readModule.run start).1 = items ++ [(.endModule, offset)]
  delivered : deliver (Loader.answer compiler) items (.start compiler env) = (loader, none)
  result : after = loader.endModule.1.environment

theorem readBinary_ok {State : Type} {answer : Answer State} {start : ModuleReader}
    {state final : State} (ran : readBinary answer start state = (final, none)) :
    deliver answer (Read.readModule.run start).1 state = (final, none) ∧
      exists result, (Read.readModule.run start).2 = .ok result := by
  rw [readBinary] at ran
  split at ran
  · cases ran
  · rename_i reached delivered
    split at ran
    · cases ran
    · rename_i result ok
      cases ran
      exact ⟨delivered, result, ok⟩

theorem readBinaryInterp_ok {data : List (BitVec 8)} {features : Features}
    {readDebugNames failOnCustomSectionError : Bool} (wellFormed : env.WellFormed)
    (agrees : agreed -> Loader.LinksExactly compiler env
      (Read.readModule.run
        (.start data features readDebugNames failOnCustomSectionError)).1)
    (read : readBinaryInterp compiler env
      (.start data features readDebugNames failOnCustomSectionError) = (after, none)) :
    exists items loader, Loaded agreed compiler env
      (.start data features readDebugNames failOnCustomSectionError) after items loader := by
  have sequel := orderly data features readDebugNames failOnCustomSectionError
  generalize ModuleReader.start data features readDebugNames failOnCustomSectionError = start
    at read sequel agrees
  rw [readBinaryInterp] at read
  split at read
  · rename_i final ran
    cases read
    rcases readBinary_ok ran with ⟨delivered, result, ok⟩
    rcases Read.endsModule_readModule start with ⟨failure, failed, _⟩ | ⟨items, offset, next, same, notEnd⟩
    · rw [ok] at failed
      cases failed
    · rw [same] at delivered sequel agrees
      have agrees : agreed -> Loader.LinksExactly compiler env items := fun given => (agrees given).before
      have before := (Foundation.Emitting.sequel_append.mp sequel).1
      cases reached : deliver (Loader.answer compiler) items (.start compiler env) with
      | mk loader failure =>
          cases failure with
          | some failure =>
              rcases deliver_failed reached with ⟨front, item, rest, middle, rfl, ran, failed⟩
              rw [List.append_assoc, deliver_append _ ran, List.cons_append, deliver, failed]
                at delivered
              cases delivered
          | none =>
              rw [deliver_append _ reached] at delivered
              cases delivered
              exact ⟨items, loader, Loader.behind_deliver wellFormed agrees before notEnd reached,
                ⟨offset, congrArg Prod.fst same⟩, reached, rfl⟩
  · cases read

/-! ## A load that fails -/

theorem delivered_all {State : Type} {answer : Answer State} {items : List Item}
    {state after : State} (ran : deliver answer items state = (after, none)) :
    delivered answer items state = items := by
  induction items generalizing state with
  | nil => rfl
  | cons item rest inductionHypothesis =>
      rw [deliver] at ran
      rw [delivered]
      rcases answered : answer item state with ⟨next, _ | failed⟩
      · rw [answered] at ran
        exact congrArg (item :: ·) (inductionHypothesis ran)
      · rw [answered] at ran
        cases ran

theorem delivered_before {State : Type} {answer : Answer State} {before rest : List Item}
    {item : Item} {state reached after : State} {failure : Failure}
    (ran : deliver answer before state = (reached, none))
    (failed : answer item reached = (after, some failure)) :
    delivered answer (before ++ item :: rest) state = before := by
  induction before generalizing state with
  | nil =>
      cases ran
      rw [List.nil_append, delivered, failed]
  | cons first others inductionHypothesis =>
      rw [deliver] at ran
      rw [List.cons_append, delivered]
      rcases answered : answer first state with ⟨next, _ | failed⟩
      · rw [answered] at ran
        exact congrArg (first :: ·) (inductionHypothesis ran)
      · rw [answered] at ran
        cases ran

/-- What a load that fails has done to the environment: the loader behind the
last callback that did not fail, and what the one that did has left of it. -/
structure Fails (compiler : Compiler Code) (env : Environment) (start : ModuleReader)
    (after : Environment) (reached final : Loader Code) : Prop where
  behind : Loader.Behind False env
    (delivered (Loader.answer compiler) (Read.readModule.run start).1 (.start compiler env)) reached
  spoils : Loader.Spoils env reached final
  result : after = final.environment.resetToMarkPoint env.mark

theorem readBinaryInterp_error {data : List (BitVec 8)} {features : Features}
    {readDebugNames failOnCustomSectionError : Bool} {message : Message}
    (wellFormed : env.WellFormed)
    (read : readBinaryInterp compiler env
      (.start data features readDebugNames failOnCustomSectionError) =
        (after, some (.error message))) :
    exists reached final, Fails compiler env
      (.start data features readDebugNames failOnCustomSectionError) after reached final := by
  have sequel := orderly data features readDebugNames failOnCustomSectionError
  generalize ModuleReader.start data features readDebugNames failOnCustomSectionError = start
    at read sequel
  rw [readBinaryInterp] at read
  split at read
  · cases read
  · rename_i final failure ran
    cases read
    rw [readBinary] at ran
    split at ran
    · rename_i spoiled failure failed
      cases ran
      rcases deliver_failed failed with ⟨before, ⟨event, offset⟩, rest, reached, split, ran, answered⟩
      rw [split] at sequel
      have front := (Foundation.Emitting.sequel_append.mp sequel).1
      have allowed : (declared before).Allows event := sequel.at rfl
      have behind := Loader.behind_deliver wellFormed False.elim front (notEnd_before split) ran
      refine ⟨reached, final, ?_, behind.loads.failed allowed answered, rfl⟩
      rw [split, delivered_before ran answered]
      exact behind
    · rename_i reached ran_
      split at ran
      · rename_i failure failed
        cases ran
        rcases Read.endsModule_readModule start with ⟨_, _, notEnd⟩ | ⟨_, _, _, same, _⟩
        · have behind := Loader.behind_deliver wellFormed False.elim sequel notEnd ran_
          refine ⟨final, final, ?_, behind.loads.spoils, rfl⟩
          rw [delivered_all ran_]
          exact behind
        · rw [same] at failed
          cases failed
      · cases ran

/-! ## Runs -/

/-- A load that has succeeded: the environment before it, the reader at the
start of the module, and where the module stands since. -/
structure Load where
  env : Environment
  start : ModuleReader
  index : Nat

/-- The environments that a program reaches, with the loads that succeeded on
the way. -/
inductive Run (compiler : Compiler Code) : Environment -> List Load -> Prop where
  | empty : Run compiler .empty []
  | appendHostModule {env : Environment} {loads : List Load} (run : Run compiler env loads)
      (name : Name) (importDelegate : HostImportDelegate) :
      Run compiler (env.appendHostModule name importDelegate) loads
  | load {env after : Environment} {loads : List Load} (run : Run compiler env loads)
      {data : List (BitVec 8)} {features : Features}
      {readDebugNames failOnCustomSectionError : Bool}
      (read : readBinaryInterp compiler env
        (.start data features readDebugNames failOnCustomSectionError) = (after, none)) :
      Run compiler after (loads ++
        [⟨env, .start data features readDebugNames failOnCustomSectionError, env.modules.length⟩])
  | failed {env after : Environment} {loads : List Load} (run : Run compiler env loads)
      {data : List (BitVec 8)} {features : Features}
      {readDebugNames failOnCustomSectionError : Bool} {message : Message}
      (read : readBinaryInterp compiler env
        (.start data features readDebugNames failOnCustomSectionError) =
          (after, some (.error message))) :
      Run compiler after loads
  | execute {env after : Environment} {loads : List Load} (run : Run compiler env loads)
      (executes : env.Executes after) : Run compiler after loads
  /-- The start function traps, and the module is taken back. -/
  | unwound {env loaded after : Environment} {loads : List Load} (run : Run compiler env loads)
      {data : List (BitVec 8)} {features : Features}
      {readDebugNames failOnCustomSectionError : Bool}
      (read : readBinaryInterp compiler env
        (.start data features readDebugNames failOnCustomSectionError) = (loaded, none))
      (executes : loaded.Executes after) : Run compiler (after.resetToMarkPoint env.mark) loads
  | nameModule {env : Environment} {loads : List Load} (run : Run compiler env loads)
      {module : Module} (last : env.modules[env.modules.length - 1]? = some module)
      (unnamed : module.name = []) {name : Name} (named : name ≠ []) :
      Run compiler (env.nameModule module name) loads
  | register {env : Environment} {loads : List Load} (run : Run compiler env loads)
      {target name : Name} {index : Nat} (found : env.registerTarget target = some index) :
      Run compiler (env.register index name) loads

/-! ## Every environment can be loaded into -/

theorem has_of_lengths {before after : Environment} {kind : ExternalKind} {index : Nat}
    (has : before.Has kind index) (funcs : before.funcs.length ≤ after.funcs.length)
    (tables : before.tables.length ≤ after.tables.length)
    (memories : before.memories.length ≤ after.memories.length)
    (globals : before.globals.length ≤ after.globals.length) : after.Has kind index := by
  cases kind with
  | func => exact Nat.lt_of_lt_of_le has funcs
  | table => exact Nat.lt_of_lt_of_le has tables
  | memory => exact Nat.lt_of_lt_of_le has memories
  | global => exact Nat.lt_of_lt_of_le has globals
  | except => exact has

namespace Environment.WellFormed

theorem empty : Environment.empty.WellFormed :=
  ⟨nofun, nofun, nofun, nofun⟩

theorem appendHostModule (wellFormed : env.WellFormed) (name : Name)
    (importDelegate : HostImportDelegate) : (env.appendHostModule name importDelegate).WellFormed where
  registered := by
    intro binding isMember
    change binding.2 < (env.modules ++ [_]).length
    rw [List.length_append, List.length_singleton]
    rcases List.mem_append.mp isMember with isMember | isMember
    · exact Nat.lt_succ_of_lt (wellFormed.registered binding isMember)
    · rw [List.mem_singleton.mp isMember]
      exact Nat.lt_succ_self _
  named := by
    intro binding isMember
    rcases wellFormed.named binding isMember with ⟨module, here, named⟩
    exact ⟨module, getElem?_of_prefix (List.prefix_append _ _) here, named⟩
  sigs := wellFormed.sigs
  exports := by
    intro module isMember defined
    rcases List.mem_append.mp isMember with isMember | isMember
    · exact wellFormed.exports module isMember defined
    · rw [List.mem_singleton.mp isMember] at defined
      cases defined

/-- More exports for hosts, and other contents of as many entities. -/
theorem of_grown (wellFormed : env.WellFormed)
    (numModules : after.modules.length = env.modules.length)
    (modules : forall (index : Nat) (module : Module), env.modules[index]? = some module ->
      exists grown, after.modules[index]? = some grown ∧ module.Grows grown)
    (registered : after.registeredModuleBindings = env.registeredModuleBindings)
    (named : after.moduleBindings = env.moduleBindings) (sigs : after.sigs = env.sigs)
    (funcs : after.funcs = env.funcs) (tables : after.tables.length = env.tables.length)
    (memories : after.memories.length = env.memories.length)
    (globals : after.globals.length = env.globals.length) : after.WellFormed where
  registered := by
    rw [registered, numModules]
    exact wellFormed.registered
  named := by
    rw [named]
    intro binding isMember
    rcases wellFormed.named binding isMember with ⟨module, here, name, notEmpty⟩
    rcases modules binding.2 module here with ⟨grown, there, grows⟩
    exact ⟨grown, there, grows.sameName.trans name, notEmpty⟩
  sigs := by
    rw [funcs, sigs]
    exact wellFormed.sigs
  exports := by
    intro module isMember defined export_ exported
    rcases List.getElem?_of_mem isMember with ⟨index, there⟩
    have inRange := (List.getElem?_eq_some_iff.mp there).1
    rw [numModules] at inRange
    rcases modules index _ (List.getElem?_eq_getElem inRange) with ⟨grown, same, grows⟩
    rw [there, Option.some.injEq] at same
    subst same
    have sameModule := grows.defined (grows.isHost.symm.trans defined)
    rw [sameModule] at exported defined
    exact has_of_lengths (wellFormed.exports _ (List.getElem_mem inRange) defined export_ exported)
      (Nat.le_of_eq (congrArg List.length funcs).symm) (Nat.le_of_eq tables.symm)
      (Nat.le_of_eq memories.symm) (Nat.le_of_eq globals.symm)

theorem executes (wellFormed : env.WellFormed) (executes : env.Executes after) :
    after.WellFormed := by
  refine wellFormed.of_grown (congrArg List.length executes.modules) ?_ executes.registered
    executes.moduleBindings executes.sigs executes.funcs (congrArg List.length executes.tables)
    executes.memories executes.numGlobals
  intro index module here
  exact ⟨module, executes.modules ▸ here, .refl module⟩

theorem register (wellFormed : env.WellFormed) {index : Nat} (name : Name)
    (inRange : index < env.modules.length) : (env.register index name).WellFormed where
  __ := wellFormed
  registered := by
    intro binding isMember
    rcases List.mem_append.mp isMember with isMember | isMember
    · exact wellFormed.registered binding isMember
    · rw [List.mem_singleton.mp isMember]
      exact inRange

theorem registerTarget (wellFormed : env.WellFormed) {name : Name} {index : Nat}
    (found : env.registerTarget name = some index) : index < env.modules.length := by
  rw [Environment.registerTarget] at found
  split at found
  · split at found
    · cases found
    · rename_i notEmpty
      cases found
      exact Nat.sub_lt (List.length_pos_iff.mpr notEmpty) Nat.one_pos
  · rw [BindingHash.findIndex, Option.map_eq_some_iff] at found
    rcases found with ⟨binding, here, rfl⟩
    rcases wellFormed.named binding (List.mem_of_find?_eq_some here) with ⟨module, there, _⟩
    exact (List.getElem?_eq_some_iff.mp there).1

theorem nameModule (wellFormed : env.WellFormed) {module : Module}
    (last : env.modules[env.modules.length - 1]? = some module) (unnamed : module.name = [])
    {name : Name} (named : name ≠ []) : (env.nameModule module name).WellFormed where
  registered := by
    intro binding isMember
    change binding.2 < (env.modules.set _ _).length
    rw [List.length_set]
    exact wellFormed.registered binding isMember
  named := by
    intro binding isMember
    have inRange := (List.getElem?_eq_some_iff.mp last).1
    rcases List.mem_append.mp isMember with isMember | isMember
    · rcases wellFormed.named binding isMember with ⟨other, here, sameName, notEmpty⟩
      have apart : env.modules.length - 1 ≠ binding.2 := by
        intro same
        rw [← same, last, Option.some.injEq] at here
        rw [← here, unnamed] at sameName
        exact notEmpty sameName.symm
      exact ⟨other, (List.getElem?_set_ne apart).trans here, sameName, notEmpty⟩
    · rw [List.mem_singleton.mp isMember]
      exact ⟨{ module with name }, List.getElem?_set_self inRange, rfl, named⟩
  sigs := wellFormed.sigs
  exports := by
    intro other isMember defined
    rcases List.mem_or_eq_of_mem_set isMember with isMember | rfl
    · exact wellFormed.exports other isMember defined
    · exact wellFormed.exports module (List.mem_of_getElem? last) defined

theorem failed {start : ModuleReader} {reached final : Loader Code} (wellFormed : env.WellFormed)
    (fails : Fails compiler env start after reached final) : after.WellFormed := by
  rw [fails.result, reset_environment wellFormed fails.spoils.1]
  exact wellFormed.of_grown fails.spoils.1.numModules fails.spoils.1.modules rfl rfl rfl rfl rfl
    rfl rfl

end Environment.WellFormed

/-! ### Behind a load -/

theorem foldl_applyElem_length (infos : List ElemSegmentInfo) (tables : List Table) :
    (infos.foldl Loader.applyElem tables).length = tables.length := by
  induction infos generalizing tables with
  | nil => rfl
  | cons info rest inductionHypothesis =>
      exact (inductionHypothesis _).trans (List.length_modify _ _ _)

theorem foldl_applyData_length (infos : List DataSegmentInfo) (memories : List Memory) :
    (infos.foldl Loader.applyData memories).length = memories.length := by
  induction infos generalizing memories with
  | nil => rfl
  | cons info rest inductionHypothesis =>
      exact (inductionHypothesis _).trans (List.length_modify _ _ _)

namespace Loaded

variable {start : ModuleReader} {items : List Item} {loader : Loader Code}

theorem tables (loaded : Loaded agreed compiler env start after items loader) :
    after.tables.length = loader.env.tables.length := by
  rw [loaded.result]
  exact foldl_applyElem_length _ _

theorem memories (loaded : Loaded agreed compiler env start after items loader) :
    after.memories.length = loader.env.memories.length := by
  rw [loaded.result]
  exact foldl_applyData_length _ _

theorem modules (loaded : Loaded agreed compiler env start after items loader) :
    after.modules = loader.env.modules ++ [loader.module] := by
  rw [loaded.result]
  rfl

theorem sigs (loaded : Loaded agreed compiler env start after items loader) :
    after.sigs = loader.env.sigs := by
  rw [loaded.result]
  rfl

theorem funcs (loaded : Loaded agreed compiler env start after items loader) :
    after.funcs = loader.env.funcs := by
  rw [loaded.result]
  rfl

theorem globals (loaded : Loaded agreed compiler env start after items loader) :
    after.globals = loader.env.globals := by
  rw [loaded.result]
  rfl

theorem moduleBindings (loaded : Loaded agreed compiler env start after items loader) :
    after.moduleBindings = env.moduleBindings := by
  rw [loaded.result]
  exact loaded.behind.loads.kept.moduleBindings

theorem registered (loaded : Loaded agreed compiler env start after items loader) :
    after.registeredModuleBindings = env.registeredModuleBindings := by
  rw [loaded.result]
  exact loaded.behind.loads.kept.registered

theorem has (loaded : Loaded agreed compiler env start after items loader) {kind : ExternalKind}
    {index : Nat} (here : loader.env.Has kind index) : after.Has kind index :=
  has_of_lengths here (Nat.le_of_eq (congrArg List.length loaded.funcs).symm)
    (Nat.le_of_eq loaded.tables.symm) (Nat.le_of_eq loaded.memories.symm)
    (Nat.le_of_eq (congrArg List.length loaded.globals).symm)

theorem wellFormed (loaded : Loaded agreed compiler env start after items loader)
    (before : env.WellFormed) : after.WellFormed where
  registered := by
    rw [loaded.registered, loaded.modules, List.length_append, loaded.behind.loads.kept.numModules]
    exact fun binding isMember => Nat.lt_succ_of_lt (before.registered binding isMember)
  named := by
    rw [loaded.moduleBindings, loaded.modules]
    intro binding isMember
    rcases before.named binding isMember with ⟨module, here, name, notEmpty⟩
    rcases loaded.behind.loads.kept.modules binding.2 module here with ⟨grown, there, grows⟩
    exact ⟨grown, getElem?_of_prefix (List.prefix_append _ _) there, grows.sameName.trans name,
      notEmpty⟩
  sigs := by
    rw [loaded.funcs, loaded.sigs]
    exact loaded.behind.loads.funcSigs
  exports := by
    intro module isMember defined export_ exported
    rw [loaded.modules] at isMember
    rcases List.mem_append.mp isMember with isMember | isMember
    · rcases List.getElem?_of_mem isMember with ⟨index, there⟩
      have inRange := (List.getElem?_eq_some_iff.mp there).1
      rw [loaded.behind.loads.kept.numModules] at inRange
      rcases loaded.behind.loads.kept.modules index _ (List.getElem?_eq_getElem inRange) with
        ⟨grown, same, grows⟩
      rw [there, Option.some.injEq] at same
      subst same
      have sameModule := grows.defined (grows.isHost.symm.trans defined)
      rw [sameModule] at exported defined
      exact loaded.has (loaded.behind.loads.kept.has
        (before.exports _ (List.getElem_mem inRange) defined export_ exported))
    · rw [List.mem_singleton.mp isMember] at exported
      exact loaded.has (loaded.behind.loads.exports export_ exported)

/-- A module that is taken back leaves the entities that were there. -/
theorem unwound {later : Environment} (loaded : Loaded agreed compiler env start after items loader)
    (before : env.WellFormed) (executes : after.Executes later) :
    (later.resetToMarkPoint env.mark).WellFormed := by
  have kept := loaded.behind.loads.kept
  rcases reset_bindings before kept (executes.modules.trans loaded.modules) rfl
    (executes.moduleBindings.trans loaded.moduleBindings)
    (executes.registered.trans loaded.registered) with ⟨modules, named, registered⟩
  refine before.of_grown ?_ ?_ registered named ?_ ?_ ?_ ?_ ?_
  · rw [modules]
    exact kept.numModules
  · rw [modules]
    exact kept.modules
  · change later.sigs.take env.sigs.length = env.sigs
    rw [executes.sigs, loaded.sigs]
    exact take_of_prefix kept.sigs
  · change later.funcs.take env.funcs.length = env.funcs
    rw [executes.funcs, loaded.funcs]
    exact take_of_prefix kept.funcs
  · change (later.tables.take env.tables.length).length = env.tables.length
    rw [List.length_take_of_le]
    rw [executes.tables, loaded.tables]
    exact kept.tables.length_le
  · change (later.memories.take env.memories.length).length = env.memories.length
    rw [List.length_take_of_le]
    rw [executes.memories, loaded.memories]
    exact kept.memories.length_le
  · change (later.globals.take env.globals.length).length = env.globals.length
    rw [List.length_take_of_le]
    rw [executes.numGlobals, loaded.globals]
    exact kept.globals.length_le

end Loaded

theorem Run.wellFormed {loads : List Load} (run : Run compiler env loads) : env.WellFormed := by
  induction run with
  | empty => exact .empty
  | appendHostModule run name importDelegate inductionHypothesis =>
      exact inductionHypothesis.appendHostModule name importDelegate
  | load run read inductionHypothesis =>
      rcases readBinaryInterp_ok inductionHypothesis False.elim read with ⟨items, loader, loaded⟩
      exact loaded.wellFormed inductionHypothesis
  | failed run read inductionHypothesis =>
      rcases readBinaryInterp_error inductionHypothesis read with ⟨reached, final, fails⟩
      exact inductionHypothesis.failed fails
  | execute run executes inductionHypothesis => exact inductionHypothesis.executes executes
  | unwound run read executes inductionHypothesis =>
      rcases readBinaryInterp_ok inductionHypothesis False.elim read with ⟨items, loader, loaded⟩
      exact loaded.unwound inductionHypothesis executes
  | nameModule run last unnamed named inductionHypothesis =>
      exact inductionHypothesis.nameModule last unnamed named
  | register run found inductionHypothesis =>
      exact inductionHypothesis.register _ (inductionHypothesis.registerTarget found)

end Loading
end WasmSandboxing
