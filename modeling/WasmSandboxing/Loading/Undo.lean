import WasmSandboxing.Binary.Orderly
import WasmSandboxing.Loading.Loads

namespace WasmSandboxing
namespace Loading

open Binary

/-!
# What is left of a load that fails

The reset cuts every list of the environment to its length before the load.
What it leaves behind are the exports that the load has given to modules of the
host.
-/

/-- A callback that imports from a module of the host. -/
def Environment.importsFromHost (env : Environment) (event : Event) : Bool :=
  match event with
  | .onImportFunc _ moduleName _ _ _ | .onImportTable _ moduleName _ _ _ _
  | .onImportMemory _ moduleName _ _ _ | .onImportGlobal _ moduleName _ _ _ _ =>
      (env.findRegisteredModule moduleName).any fun found => found.2.isHost
  | _ => false

def Environment.numExports (env : Environment) : Nat :=
  (env.modules.map fun module => module.exports.length).sum

/-- One export more in one of the modules. -/
theorem numExports_set {modules : List Module} {index : Nat} {old new : Module}
    (found : modules[index]? = some old) (more : new.exports.length = old.exports.length + 1) :
    ((modules.set index new).map fun module => module.exports.length).sum =
      (modules.map fun module => module.exports.length).sum + 1 := by
  induction modules generalizing index with
  | nil => cases found
  | cons first rest inductionHypothesis =>
      cases index with
      | zero =>
          cases found
          simp only [List.set_cons_zero, List.map_cons, List.sum_cons, more]
          omega
      | succ index =>
          rw [List.getElem?_cons_succ] at found
          simp only [List.set_cons_succ, List.map_cons, List.sum_cons, inductionHypothesis found]
          omega

variable {Code : Type} {agreed : Prop} {env : Environment} {found : Declared} {loader next : Loader Code}
  {compiler : Compiler Code}

namespace Loader

/-! ## A callback that fails -/

/-- What a callback that fails may have done to the environment. -/
def Spoils (env : Environment) (loader next : Loader Code) : Prop :=
  env.Extends next.env ∧ next.env.modules = loader.env.modules

theorem Loads.spoils (loads : Loads agreed env found loader) : Spoils env loader loader :=
  ⟨loads.kept, rfl⟩

theorem Loads.failedLink {moduleName fieldName : Name} {kind : ExternalKind} {message : Message}
    {host : Nat × Module -> HostImportDelegate -> Outcome Code}
    {defined : Export -> Outcome Code} (loads : Loads agreed env found loader)
    (ran : loader.link moduleName fieldName kind host defined = (next, some (.error message)))
    (failedHost : forall module importDelegate,
      host module importDelegate = (next, some (.error message)) -> Spoils env loader next)
    (failedDefined : forall export_,
      defined export_ = (next, some (.error message)) -> Spoils env loader next) :
    Spoils env loader next := by
  rcases link_cases loader moduleName with
    ⟨text, refused⟩ | ⟨module, importDelegate, _, _, linked⟩ | ⟨module, own, export_, _, _, _, _, linked⟩
  · rw [refused] at ran
    cases ran
    exact loads.spoils
  · rw [linked] at ran
    exact failedHost module importDelegate ran
  · rw [linked] at ran
    exact failedDefined export_ ran

theorem Loads.failedImportFunc {moduleName fieldName : Name} {sigIndex : Nat} {message : Message}
    (loads : Loads agreed env found loader)
    (ran : loader.onImportFunc moduleName fieldName sigIndex = (next, some (.error message))) :
    Spoils env loader next := by
  rw [Loader.onImportFunc] at ran
  split at ran
  · cases ran
  · simp only at ran
    have spoils := (loads.setDefined _).failedLink ran
    refine spoils ?_ ?_
    · intro module importDelegate ran
      rw [importHostFunc] at ran
      split at ran
      · cases ran
        exact ⟨loads.kept.addFunc _, rfl⟩
      · cases ran
      · cases ran
    · intro export_ ran
      rw [importDefinedFunc] at ran
      split at ran
      · cases ran
      · split at ran
        · cases ran
        · cases ran
          exact loads.spoils

theorem Loads.failedImportTable {moduleName fieldName : Name} {elemLimits : Limits}
    {message : Message} (loads : Loads agreed env found loader)
    (ran : loader.onImportTable moduleName fieldName elemLimits = (next, some (.error message))) :
    Spoils env loader next := by
  rw [Loader.onImportTable] at ran
  split at ran
  · cases ran
    exact loads.spoils
  · simp only at ran
    have spoils := (loads.setDefined _).failedLink ran
    refine spoils ?_ ?_
    · intro module importDelegate ran
      rw [importHostTable] at ran
      split at ran
      · cases ran
        exact ⟨loads.kept.addTable _, rfl⟩
      · split at ran
        · cases ran
          exact ⟨loads.kept.addTable _, rfl⟩
        · cases ran
    · intro export_ ran
      rw [importDefinedTable] at ran
      split at ran
      · cases ran
      · split at ran
        · cases ran
          exact loads.spoils
        · cases ran

theorem Loads.failedImportMemory {moduleName fieldName : Name} {pageLimits : Limits}
    {message : Message} (loads : Loads agreed env found loader)
    (ran : loader.onImportMemory moduleName fieldName pageLimits =
      (next, some (.error message))) : Spoils env loader next := by
  rw [Loader.onImportMemory] at ran
  split at ran
  · cases ran
    exact loads.spoils
  · simp only at ran
    have spoils := (loads.setDefined _).failedLink ran
    refine spoils ?_ ?_
    · intro module importDelegate ran
      rw [importHostMemory] at ran
      split at ran
      · cases ran
        exact ⟨loads.kept.addMemory _, rfl⟩
      · split at ran
        · cases ran
          exact ⟨loads.kept.addMemory _, rfl⟩
        · cases ran
    · intro export_ ran
      rw [importDefinedMemory] at ran
      split at ran
      · cases ran
      · split at ran
        · cases ran
          exact loads.spoils
        · cases ran

theorem Loads.failedImportGlobal {moduleName fieldName : Name} {type : Int} {mutable_ : Bool}
    {message : Message} (loads : Loads agreed env found loader)
    (ran : loader.onImportGlobal moduleName fieldName type mutable_ =
      (next, some (.error message))) : Spoils env loader next := by
  rw [Loader.onImportGlobal] at ran
  simp only at ran
  have spoils := (loads.setDefined _).failedLink ran
  refine spoils ?_ ?_
  · intro module importDelegate ran
    rw [importHostGlobal] at ran
    split at ran
    · cases ran
      exact ⟨loads.kept.addGlobal _, rfl⟩
    · cases ran
  · intro export_ ran
    cases ran

theorem Loads.failedBody {event : Event} {message : Message} (loads : Loads agreed env found loader)
    (ran : loader.compile compiler event = (next, some (.error message))) :
    Spoils env loader next := by
  have same : (loader.compile compiler event).1 = next := congrArg Prod.fst ran
  rw [← same]
  exact ⟨loads.kept, rfl⟩

theorem Loads.failedBeginFunctionBody {index : Nat} {message : Message}
    (loads : Loads agreed env found loader) (allowed : found.Allows (.beginFunctionBody index))
    (ran : loader.beginFunctionBody compiler index = (next, some (.error message))) :
    Spoils env loader next := by
  rcases allowed with ⟨own, inRange⟩
  rcases loads.funcs index _ (List.getElem?_eq_getElem inRange) with
    ⟨envIndex, func, _, mapped, here, _, _, isOwn⟩
  rw [Loader.beginFunctionBody, mapped] at ran
  simp only at ran
  split at ran
  · cases ran
  · rw [here] at ran
    cases func with
    | host _ _ _ => cases ran
    | defined func =>
        simp only at ran
        have same := congrArg Prod.fst ran
        rw [← show _ = next from same]
        exact ⟨loads.kept.setFunc (isOwn own).1 _, rfl⟩

theorem Loads.failedChange {event : Event} {change : DefinedFunc -> DefinedFunc}
    {message : Message} (loads : Loads agreed env found loader)
    (ran : loader.changeCurrentFunc compiler event change = (next, some (.error message))) :
    Spoils env loader next := by
  rw [Loader.changeCurrentFunc] at ran
  cases current : loader.currentFunc with
  | none =>
      rw [current] at ran
      cases ran
  | some envIndex =>
      rw [current] at ran
      simp only at ran
      split at ran
      · have same := congrArg Prod.fst ran
        rw [← show _ = next from same]
        exact ⟨loads.kept.setFunc (loads.currentFunc envIndex current) _, rfl⟩
      · cases ran

theorem Loads.failedAppendExport {kind : ExternalKind} {itemIndex : Nat} {name : Name}
    {message : Message} (loads : Loads agreed env found loader)
    (ran : loader.appendExport kind itemIndex name = (next, some (.error message))) :
    Spoils env loader next := by
  rw [Loader.appendExport] at ran
  split at ran
  · cases ran
    exact loads.spoils
  · cases ran

theorem Loads.failedExport {kind : ExternalKind} {itemIndex : Nat} {name : Name}
    {message : Message} (loads : Loads agreed env found loader)
    (ran : loader.onExport kind itemIndex name = (next, some (.error message))) :
    Spoils env loader next := by
  rw [Loader.onExport.eq_def] at ran
  cases kind with
  | func =>
      simp only at ran
      split at ran
      · cases ran
      · exact loads.failedAppendExport ran
  | table | memory => exact loads.failedAppendExport ran
  | global =>
      simp only at ran
      split at ran
      · cases ran
      · split at ran
        · cases ran
          exact loads.spoils
        · exact loads.failedAppendExport ran
  | except => cases ran

/-- A callback that fails leaves behind what the reset takes away. -/
theorem Loads.failed {event : Event} {offset : Nat} {message : Message}
    (loads : Loads agreed env found loader) (allowed : found.Allows event)
    (ran : Loader.answer compiler (event, offset) loader = (next, some (.error message))) :
    Spoils env loader next := by
  cases event with
  | onType _ _ _ =>
      change loader.onType _ _ _ = _ at ran
      rw [Loader.onType] at ran
      split at ran
      · cases ran
      · cases ran
  | onImportFunc _ _ _ _ _ => exact loads.failedImportFunc ran
  | onImportTable _ _ _ _ _ _ => exact loads.failedImportTable ran
  | onImportMemory _ _ _ _ _ => exact loads.failedImportMemory ran
  | onImportGlobal _ _ _ _ _ _ => exact loads.failedImportGlobal ran
  | onFunction _ _ =>
      change loader.onFunction _ = _ at ran
      rw [Loader.onFunction] at ran
      split at ran
      · cases ran
      · cases ran
  | onTable _ _ _ =>
      change loader.onTable _ = _ at ran
      rw [Loader.onTable] at ran
      split at ran
      · cases ran
        exact loads.spoils
      · cases ran
  | onMemory _ _ =>
      change loader.onMemory _ = _ at ran
      rw [Loader.onMemory] at ran
      split at ran
      · cases ran
        exact loads.spoils
      · cases ran
  | beginGlobal _ _ _ =>
      change loader.beginGlobal _ _ _ = _ at ran
      rw [Loader.beginGlobal] at ran
      split at ran
      · cases ran
      · cases ran
  | endGlobalInitExpr _ =>
      change loader.endGlobalInitExpr _ = _ at ran
      rw [Loader.endGlobalInitExpr] at ran
      split at ran
      · split at ran
        · cases ran
        · cases ran
          exact loads.spoils
      · cases ran
  | onInitExpr _ init =>
      change loader.onInitExpr init = _ at ran
      cases init with
      | getGlobal index =>
          rw [Loader.onInitExpr] at ran
          split at ran
          · cases ran
            exact loads.spoils
          · split at ran
            · cases ran
            · split at ran
              · cases ran
                exact loads.spoils
              · cases ran
      | _ => cases ran
  | onExport _ _ _ _ => exact loads.failedExport ran
  | onStartFunction _ =>
      change loader.onStartFunction _ = _ at ran
      rw [Loader.onStartFunction] at ran
      split at ran
      · cases ran
      · split at ran
        · cases ran
        · simp only at ran
          split at ran
          · cases ran
            exact loads.spoils
          · split at ran
            · cases ran
              exact loads.spoils
            · cases ran
  | endElemSegmentInitExpr _ =>
      change loader.endElemSegmentInitExpr = _ at ran
      rw [Loader.endElemSegmentInitExpr] at ran
      split at ran
      · cases ran
      · cases ran
  | onElemSegmentFunctionIndexCount _ _ =>
      change loader.onElemSegmentFunctionIndexCount _ = _ at ran
      rw [Loader.onElemSegmentFunctionIndexCount] at ran
      split at ran
      · cases ran
      · split at ran
        · cases ran
          exact loads.spoils
        · cases ran
  | onElemSegmentFunctionIndex _ _ =>
      change loader.onElemSegmentFunctionIndex _ = _ at ran
      rw [Loader.onElemSegmentFunctionIndex] at ran
      split at ran
      · cases ran
        exact loads.spoils
      · split at ran
        · cases ran
        · cases ran
  | beginFunctionBody _ => exact loads.failedBeginFunctionBody allowed ran
  | onLocalDeclCount _ => exact loads.failedChange ran
  | onLocalDecl _ _ _ => exact loads.failedChange ran
  | onExpr _ => exact loads.failedBody ran
  | endFunctionBody _ =>
      have spoils := loads.noCurrentFunc.failedBody ran
      exact spoils
  | onDataSegmentData _ _ =>
      change loader.onDataSegmentData _ = _ at ran
      rw [Loader.onDataSegmentData] at ran
      split at ran
      · cases ran
      · split at ran
        · cases ran
        · split at ran
          · cases ran
            exact loads.spoils
          · split at ran
            · cases ran
            · cases ran
  | _ => cases ran

/-! ## What a load adds to the exports of the host -/

/-- An import from the host adds an export there; no other changes a module. -/
theorem Loads.linked {moduleName fieldName : Name} {kind : ExternalKind}
    {host : Nat × Module -> HostImportDelegate -> Outcome Code}
    {defined : Export -> Outcome Code} (loads : Loads agreed env found loader)
    (ran : loader.link moduleName fieldName kind host defined = (next, none))
    (hosted : forall module importDelegate, host module importDelegate = (next, none) ->
      exists itemIndex, next.env.modules =
        loader.env.modules.set module.1 (module.2.addExport kind itemIndex fieldName))
    (own : forall export_, defined export_ = (next, none) ->
      next.env.modules = loader.env.modules) :
    if (env.findRegisteredModule moduleName).any fun found => found.2.isHost then
      next.env.numExports = loader.env.numExports + 1
    else next.env.modules = loader.env.modules := by
  rcases link_cases loader moduleName with
    ⟨text, refused⟩ | ⟨⟨index, module⟩, importDelegate, registered, sort, linked⟩ |
      ⟨⟨index, module⟩, _, export_, registered, sort, _, _, linked⟩
  · rw [refused] at ran
    cases ran
  · rw [linked] at ran
    rcases loads.kept.findRegisteredModule registered with ⟨old, before, _, there, grows⟩
    have isHost : old.isHost = true := by
      rw [Module.isHost, ← grows.sameKind, sort]
    rw [before, Option.any_some, if_pos isHost]
    rcases hosted _ importDelegate ran with ⟨itemIndex, modules⟩
    rw [Environment.numExports, modules]
    exact numExports_set there List.length_append
  · rw [linked] at ran
    rcases loads.kept.findRegisteredModule registered with ⟨old, before, _, _, grows⟩
    have notHost : ¬ old.isHost = true := by
      rw [Module.isHost, ← grows.sameKind, sort]
      exact Bool.false_ne_true
    rw [before, Option.any_some, if_neg notHost]
    exact own export_ ran

theorem Loads.hostedFunc {moduleName fieldName : Name} {sigIndex : Nat}
    (loads : Loads agreed env found loader)
    (ran : loader.onImportFunc moduleName fieldName sigIndex = (next, none)) :
    if (env.findRegisteredModule moduleName).any fun found => found.2.isHost then
      next.env.numExports = loader.env.numExports + 1
    else next.env.modules = loader.env.modules := by
  rw [Loader.onImportFunc] at ran
  split at ran
  · cases ran
  · simp only at ran
    have linked := (loads.setDefined _).linked ran
    refine linked ?_ ?_
    · intro module importDelegate ran
      rw [importHostFunc] at ran
      split at ran
      · cases ran
      · cases ran
      · cases ran
        exact ⟨_, rfl⟩
    · intro export_ ran
      rw [importDefinedFunc] at ran
      split at ran
      · cases ran
      · split at ran
        · cases ran
          rfl
        · cases ran

theorem Loads.hostedTable {moduleName fieldName : Name} {elemLimits : Limits}
    (loads : Loads agreed env found loader)
    (ran : loader.onImportTable moduleName fieldName elemLimits = (next, none)) :
    if (env.findRegisteredModule moduleName).any fun found => found.2.isHost then
      next.env.numExports = loader.env.numExports + 1
    else next.env.modules = loader.env.modules := by
  rw [Loader.onImportTable] at ran
  split at ran
  · cases ran
  · simp only at ran
    have linked := (loads.setDefined _).linked ran
    refine linked ?_ ?_
    · intro module importDelegate ran
      rw [importHostTable] at ran
      split at ran
      · cases ran
      · split at ran
        · cases ran
        · cases ran
          exact ⟨_, rfl⟩
    · intro export_ ran
      rw [importDefinedTable] at ran
      split at ran
      · cases ran
      · split at ran
        · cases ran
        · cases ran
          rfl

theorem Loads.hostedMemory {moduleName fieldName : Name} {pageLimits : Limits}
    (loads : Loads agreed env found loader)
    (ran : loader.onImportMemory moduleName fieldName pageLimits = (next, none)) :
    if (env.findRegisteredModule moduleName).any fun found => found.2.isHost then
      next.env.numExports = loader.env.numExports + 1
    else next.env.modules = loader.env.modules := by
  rw [Loader.onImportMemory] at ran
  split at ran
  · cases ran
  · simp only at ran
    have linked := (loads.setDefined _).linked ran
    refine linked ?_ ?_
    · intro module importDelegate ran
      rw [importHostMemory] at ran
      split at ran
      · cases ran
      · split at ran
        · cases ran
        · cases ran
          exact ⟨_, rfl⟩
    · intro export_ ran
      rw [importDefinedMemory] at ran
      split at ran
      · cases ran
      · split at ran
        · cases ran
        · cases ran
          rfl

theorem Loads.hostedGlobal {moduleName fieldName : Name} {type : Int} {mutable_ : Bool}
    (loads : Loads agreed env found loader)
    (ran : loader.onImportGlobal moduleName fieldName type mutable_ = (next, none)) :
    if (env.findRegisteredModule moduleName).any fun found => found.2.isHost then
      next.env.numExports = loader.env.numExports + 1
    else next.env.modules = loader.env.modules := by
  rw [Loader.onImportGlobal] at ran
  simp only at ran
  have linked := (loads.setDefined _).linked ran
  refine linked ?_ ?_
  · intro module importDelegate ran
    rw [importHostGlobal] at ran
    split at ran
    · cases ran
    · cases ran
      exact ⟨_, rfl⟩
  · intro export_ ran
    cases ran
    rfl

/-- The callbacks that import an entity. -/
def imports : Event -> Bool
  | .onImportFunc _ _ _ _ _ => true
  | .onImportTable _ _ _ _ _ _ => true
  | .onImportMemory _ _ _ _ _ => true
  | .onImportGlobal _ _ _ _ _ _ => true
  | _ => false

theorem modules_changeCurrentFunc {event : Event} {change : DefinedFunc -> DefinedFunc} :
    (loader.changeCurrentFunc compiler event change).1.env.modules = loader.env.modules := by
  rw [Loader.changeCurrentFunc]
  split
  · rfl
  · split <;> rfl

theorem modules_appendExport {kind : ExternalKind} {itemIndex : Nat} {name : Name} :
    (loader.appendExport kind itemIndex name).1.env.modules = loader.env.modules := by
  rw [Loader.appendExport]
  split <;> rfl

/-- Whatever comes of it, a callback that imports nothing changes no module. -/
theorem modules_answer {event : Event} {offset : Nat} (other : imports event = false) :
    (Loader.answer compiler (event, offset) loader).1.env.modules = loader.env.modules := by
  cases event with
  | onImportFunc _ _ _ _ _ | onImportTable _ _ _ _ _ _ | onImportMemory _ _ _ _ _
  | onImportGlobal _ _ _ _ _ _ => cases other
  | onType _ _ _ =>
      change (loader.onType _ _ _).1.env.modules = _
      rw [Loader.onType]
      split <;> rfl
  | onFunction _ _ =>
      change (loader.onFunction _).1.env.modules = _
      rw [Loader.onFunction]
      split <;> rfl
  | onTable _ _ _ =>
      change (loader.onTable _).1.env.modules = _
      rw [Loader.onTable]
      split <;> rfl
  | onMemory _ _ =>
      change (loader.onMemory _).1.env.modules = _
      rw [Loader.onMemory]
      split <;> rfl
  | beginGlobal _ _ _ =>
      change (loader.beginGlobal _ _ _).1.env.modules = _
      rw [Loader.beginGlobal]
      split <;> rfl
  | endGlobalInitExpr _ =>
      change (loader.endGlobalInitExpr _).1.env.modules = _
      rw [Loader.endGlobalInitExpr]
      split
      · split <;> rfl
      · rfl
  | onInitExpr _ init =>
      change (loader.onInitExpr init).1.env.modules = _
      cases init with
      | getGlobal index =>
          rw [Loader.onInitExpr]
          split
          · rfl
          · split
            · rfl
            · split <;> rfl
      | _ => rfl
  | onExport _ kind _ _ =>
      change (loader.onExport kind _ _).1.env.modules = _
      rw [Loader.onExport.eq_def]
      cases kind with
      | func =>
          simp only
          split
          · rfl
          · exact modules_appendExport
      | table | memory => exact modules_appendExport
      | global =>
          simp only
          split
          · rfl
          · split
            · rfl
            · exact modules_appendExport
      | except => rfl
  | onStartFunction _ =>
      change (loader.onStartFunction _).1.env.modules = _
      rw [Loader.onStartFunction]
      split
      · rfl
      · split
        · rfl
        · simp only
          split
          · rfl
          · split <;> rfl
  | endElemSegmentInitExpr _ =>
      change loader.endElemSegmentInitExpr.1.env.modules = _
      rw [Loader.endElemSegmentInitExpr]
      split <;> rfl
  | onElemSegmentFunctionIndexCount _ _ =>
      change (loader.onElemSegmentFunctionIndexCount _).1.env.modules = _
      rw [Loader.onElemSegmentFunctionIndexCount]
      split
      · rfl
      · split <;> rfl
  | onElemSegmentFunctionIndex _ _ =>
      change (loader.onElemSegmentFunctionIndex _).1.env.modules = _
      rw [Loader.onElemSegmentFunctionIndex]
      split
      · rfl
      · split <;> rfl
  | beginFunctionBody _ =>
      change (loader.beginFunctionBody compiler _).1.env.modules = _
      rw [Loader.beginFunctionBody]
      split
      · rfl
      · split
        · rfl
        · split <;> rfl
  | onLocalDeclCount _ => exact modules_changeCurrentFunc
  | onLocalDecl _ _ _ => exact modules_changeCurrentFunc
  | onDataSegmentData _ _ =>
      change (loader.onDataSegmentData _).1.env.modules = _
      rw [Loader.onDataSegmentData]
      split
      · rfl
      · split
        · rfl
        · split
          · rfl
          · split <;> rfl
  | _ => rfl

/-- What a callback adds to the exports of the host. -/
theorem Loads.hosted {event : Event} {offset : Nat} (loads : Loads agreed env found loader)
    (ran : Loader.answer compiler (event, offset) loader = (next, none)) :
    if env.importsFromHost event then next.env.numExports = loader.env.numExports + 1
    else next.env.modules = loader.env.modules := by
  cases event with
  | onImportFunc _ _ _ _ _ => exact loads.hostedFunc ran
  | onImportTable _ _ _ _ _ _ => exact loads.hostedTable ran
  | onImportMemory _ _ _ _ _ => exact loads.hostedMemory ran
  | onImportGlobal _ _ _ _ _ _ => exact loads.hostedGlobal ran
  | _ =>
      have same := congrArg (fun outcome => outcome.1.env.modules) ran
      exact same.symm.trans (modules_answer rfl)

/-! ## A load that fails -/

theorem loads_start (compiler : Compiler Code) (wellFormed : env.WellFormed) :
    Loads agreed env .nothing (start compiler env) where
  kept := .refl env
  sigs := (List.append_nil _).symm
  sigIndexMapping := rfl
  typeCount := Nat.le_refl _
  funcSigs := wellFormed.sigs
  numFuncImports := rfl
  importsFirst := ⟨Nat.le_refl _, Nat.le_refl _⟩
  numFuncs := rfl
  funcs := fun index sigIndex known => by cases known
  nextFuncs := fun index _ below => by cases below
  numGlobalImports := rfl
  numGlobals := rfl
  globals := fun index type mutable_ known => by cases known
  nextGlobals := fun index _ below => by cases below
  table := fun some_ => by cases some_
  memory := fun some_ => by cases some_
  exports := fun export_ isMember => by cases isMember
  currentFunc := fun index same => by cases same

def hostImports (env : Environment) (log : List Item) : Nat :=
  log.countP fun item => env.importsFromHost item.1

/-- The loader behind the callbacks of a log. -/
structure Behind (agreed : Prop) (env : Environment) (log : List Item) (loader : Loader Code) : Prop where
  loads : Loads agreed env (declared log) loader
  numExports : loader.env.numExports = env.numExports + hostImports env log
  modules : hostImports env log = 0 -> loader.env.modules = env.modules

/-- Every import of a module is linked exactly. -/
def LinksExactly (compiler : Compiler Code) (env : Environment) (items : List Item) : Prop :=
  forall before item rest loader, items = before ++ item :: rest ->
    deliver (Loader.answer compiler) before (start compiler env) = (loader, none) ->
    loader.LinkingExact item.1

theorem LinksExactly.before {items rest : List Item}
    (links : LinksExactly compiler env (items ++ rest)) : LinksExactly compiler env items := by
  intro before item behind loader split ran
  refine links before item (behind ++ rest) loader ?_ ran
  rw [split, List.append_assoc, List.cons_append]

theorem behind_deliver {items : List Item} (wellFormed : env.WellFormed)
    (agrees : agreed -> LinksExactly compiler env items)
    (sequel : Foundation.Emitting.Sequel Orderly [] items)
    (notEnd : forall item, item ∈ items -> Event.NotEnd item)
    (ran : deliver (Loader.answer compiler) items (start compiler env) = (next, none)) :
    Behind agreed env items next := by
  have kept := deliver_keeps (fun log loader => Behind agreed env log loader ∧
      deliver (Loader.answer compiler) log (start compiler env) = (loader, none)) ?_
    ((sequel.and notEnd).both (Foundation.Emitting.sequel_split [] items))
    ⟨⟨loads_start compiler wellFormed, rfl, fun _ => rfl⟩, rfl⟩ ran
  · exact kept.1
  rintro log ⟨event, offset⟩ loader after ⟨⟨allowed, notEnd⟩, rest, split⟩ ⟨behind, before⟩ answered
  refine ⟨?_, deliver_one before answered⟩
  have hosted := behind.loads.hosted answered
  refine ⟨?_, ?_, ?_⟩
  · rw [declared_append]
    exact behind.loads.answer wellFormed allowed notEnd
      (fun given => agrees given log _ rest loader split before) answered
  · rw [hostImports, List.countP_append, List.countP_singleton]
    split at hosted
    · rename_i fromHost
      rw [if_pos fromHost, hosted, behind.numExports]
      rfl
    · rename_i other
      rw [if_neg other, Environment.numExports, hosted]
      exact behind.numExports
  · intro none_
    rw [hostImports, List.countP_append, List.countP_singleton] at none_
    split at hosted
    · rename_i fromHost
      rw [if_pos fromHost] at none_
      cases none_
    · rename_i other
      rw [if_neg other] at none_
      exact hosted.trans (behind.modules none_)

end Loader

theorem take_of_prefix {Element : Type} {front whole : List Element} (isFront : front <+: whole) :
    whole.take front.length = front :=
  (List.prefix_iff_eq_take.mp isFront).symm

/-- The reset takes the module away that is loaded, and the bindings stay. -/
theorem reset_bindings {later loaded : Environment} {module : Module}
    (wellFormed : env.WellFormed) (kept : env.Extends loaded)
    (modules : later.modules = loaded.modules ++ [module]) (unnamed : module.name = [])
    (named : later.moduleBindings = env.moduleBindings)
    (registered : later.registeredModuleBindings = env.registeredModuleBindings) :
    (later.resetToMarkPoint env.mark).modules = loaded.modules ∧
      (later.resetToMarkPoint env.mark).moduleBindings = env.moduleBindings ∧
      (later.resetToMarkPoint env.mark).registeredModuleBindings =
        env.registeredModuleBindings := by
  refine ⟨?_, ?_, ?_⟩
  · change later.modules.take env.modules.length = loaded.modules
    rw [modules]
    exact List.take_left' kept.numModules
  · change (later.moduleBindings.filter fun binding =>
      !((later.modules.drop env.modules.length).any fun module =>
        module.name != [] && module.name = binding.1)) = env.moduleBindings
    rw [modules, List.drop_left' kept.numModules, named]
    refine List.filter_eq_self.mpr fun _ _ => ?_
    rw [List.any_cons, unnamed]
    rfl
  · change (later.registeredModuleBindings.filter fun binding =>
      binding.2 < env.modules.length) = env.registeredModuleBindings
    rw [registered]
    exact List.filter_eq_self.mpr fun binding isMember =>
      decide_eq_true (wellFormed.registered binding isMember)

/-- The reset leaves what the modules of the host have got. -/
theorem reset_environment {loader : Loader Code} (wellFormed : env.WellFormed)
    (kept : env.Extends loader.env) :
    loader.environment.resetToMarkPoint env.mark =
      { env with modules := loader.env.modules } := by
  have later : loader.environment.modules = loader.env.modules ++ [loader.module] := rfl
  rcases reset_bindings wellFormed kept later rfl kept.moduleBindings kept.registered with
    ⟨modules, named, registered⟩
  have istream : loader.environment.istream.take env.istream.length = env.istream := by
    change (loader.env.istream ++ loader.emitted).take env.istream.length = env.istream
    rw [kept.istream]
    exact List.take_left' rfl
  have fields : loader.environment.resetToMarkPoint env.mark =
      ⟨(loader.environment.resetToMarkPoint env.mark).modules,
        loader.env.sigs.take env.sigs.length, loader.env.funcs.take env.funcs.length,
        loader.env.memories.take env.memories.length, loader.env.tables.take env.tables.length,
        loader.env.globals.take env.globals.length,
        loader.environment.istream.take env.istream.length,
        (loader.environment.resetToMarkPoint env.mark).moduleBindings,
        (loader.environment.resetToMarkPoint env.mark).registeredModuleBindings⟩ := rfl
  rw [fields, modules, named, registered, istream, take_of_prefix kept.sigs,
    take_of_prefix kept.funcs, take_of_prefix kept.memories, take_of_prefix kept.tables,
    take_of_prefix kept.globals]

end Loading
end WasmSandboxing
