import WasmSandboxing.Binary.Declared
import WasmSandboxing.Loading.Environment

namespace WasmSandboxing
namespace Loading

open Binary

/-!
# What a load adds to an environment

Every list of the environment keeps what it holds in front, but that host
modules may get exports.  What an environment must be like to be loaded into.
-/

theorem prefix_set {Element : Type} {front whole : List Element} {index : Nat}
    (isPrefix_ : front <+: whole) (behind : front.length ≤ index) (element : Element) :
    front <+: whole.set index element := by
  rcases isPrefix_ with ⟨rest, rfl⟩
  rw [List.set_append_right index element behind]
  exact List.prefix_append front _

theorem getElem?_of_prefix {Element : Type} {front whole : List Element} {index : Nat}
    {element : Element} (isPrefix_ : front <+: whole) (found : front[index]? = some element) :
    whole[index]? = some element := by
  rcases isPrefix_ with ⟨rest, rfl⟩
  rw [List.getElem?_append_left (List.getElem?_eq_some_iff.mp found).1]
  exact found

/-- A module as it was, with more exports if it is one of the host. -/
structure Module.Grows (before after : Module) : Prop where
  sameKind : after.kind = before.kind
  sameName : after.name = before.name
  exports : before.exports <+: after.exports
  defined : before.isHost = false -> after = before

theorem Module.Grows.refl (module : Module) : module.Grows module :=
  ⟨rfl, rfl, List.prefix_refl _, fun _ => rfl⟩

theorem Module.Grows.trans {first second third : Module} (here : first.Grows second)
    (there : second.Grows third) : first.Grows third where
  sameKind := there.sameKind.trans here.sameKind
  sameName := there.sameName.trans here.sameName
  exports := here.exports.trans there.exports
  defined := by
    intro defined
    have same := here.defined defined
    rw [same] at there
    exact there.defined defined

theorem Module.Grows.isHost {before after : Module} (grows : before.Grows after) :
    after.isHost = before.isHost := by
  rw [Module.isHost, grows.sameKind]
  rfl

theorem Module.Grows.addExport {before after : Module} {kind : ExternalKind} {index : Nat}
    {name : Name} (grows : before.Grows after) (host : after.isHost = true) :
    before.Grows (after.addExport kind index name) where
  sameKind := grows.sameKind
  sameName := grows.sameName
  exports := grows.exports.trans (List.prefix_append _ _)
  defined := by
    intro defined
    rw [grows.isHost, defined] at host
    cases host

namespace Environment

structure Extends (before after : Environment) : Prop where
  numModules : after.modules.length = before.modules.length
  modules : forall (index : Nat) (module : Module), before.modules[index]? = some module ->
    exists grown, after.modules[index]? = some grown ∧ module.Grows grown
  sigs : before.sigs <+: after.sigs
  funcs : before.funcs <+: after.funcs
  memories : before.memories <+: after.memories
  tables : before.tables <+: after.tables
  globals : before.globals <+: after.globals
  istream : after.istream = before.istream
  moduleBindings : after.moduleBindings = before.moduleBindings
  registered : after.registeredModuleBindings = before.registeredModuleBindings

namespace Extends

variable {before after : Environment}

theorem refl (env : Environment) : Extends env env where
  numModules := rfl
  modules := fun _ module found => ⟨module, found, .refl module⟩
  sigs := List.prefix_refl _
  funcs := List.prefix_refl _
  memories := List.prefix_refl _
  tables := List.prefix_refl _
  globals := List.prefix_refl _
  istream := rfl
  moduleBindings := rfl
  registered := rfl

theorem trans {first second third : Environment} (here : Extends first second)
    (there : Extends second third) : Extends first third where
  numModules := there.numModules.trans here.numModules
  modules := by
    intro index module found
    rcases here.modules index module found with ⟨grown, foundGrown, grows⟩
    rcases there.modules index grown foundGrown with ⟨last, foundLast, growsLast⟩
    exact ⟨last, foundLast, grows.trans growsLast⟩
  sigs := here.sigs.trans there.sigs
  funcs := here.funcs.trans there.funcs
  memories := here.memories.trans there.memories
  tables := here.tables.trans there.tables
  globals := here.globals.trans there.globals
  istream := there.istream.trans here.istream
  moduleBindings := there.moduleBindings.trans here.moduleBindings
  registered := there.registered.trans here.registered

theorem addSig (extend : Extends before after) (sig : FuncSignature) :
    Extends before (after.addSig sig) where
  __ := extend
  sigs := extend.sigs.trans (List.prefix_append _ _)

theorem addFunc (extend : Extends before after) (func : Func) :
    Extends before (after.addFunc func) where
  __ := extend
  funcs := extend.funcs.trans (List.prefix_append _ _)

theorem addTable (extend : Extends before after) (table : Table) :
    Extends before (after.addTable table) where
  __ := extend
  tables := extend.tables.trans (List.prefix_append _ _)

theorem addMemory (extend : Extends before after) (memory : Memory) :
    Extends before (after.addMemory memory) where
  __ := extend
  memories := extend.memories.trans (List.prefix_append _ _)

theorem addGlobal (extend : Extends before after) (global : Global) :
    Extends before (after.addGlobal global) where
  __ := extend
  globals := extend.globals.trans (List.prefix_append _ _)

theorem setFunc (extend : Extends before after) {index : Nat}
    (new : before.funcs.length ≤ index) (func : Func) :
    Extends before (after.setFunc index func) where
  __ := extend
  funcs := prefix_set extend.funcs new func

theorem setGlobal (extend : Extends before after) {index : Nat}
    (new : before.globals.length ≤ index) (global : Global) :
    Extends before (after.setGlobal index global) where
  __ := extend
  globals := prefix_set extend.globals new global

/-- A host module may get an export. -/
theorem addExport (extend : Extends before after) {index : Nat} {module : Module}
    (found : after.modules[index]? = some module) (host : module.isHost = true)
    (kind : ExternalKind) (itemIndex : Nat) (name : Name) :
    Extends before (after.setModule index (module.addExport kind itemIndex name)) where
  __ := extend
  numModules := by
    rw [setModule, List.length_set]
    exact extend.numModules
  modules := by
    intro other old earlier
    rcases extend.modules other old earlier with ⟨grown, there, grows⟩
    rw [setModule]
    by_cases same : index = other
    · subst same
      rw [found, Option.some.injEq] at there
      subst there
      refine ⟨module.addExport kind itemIndex name, ?_, grows.addExport host⟩
      exact List.getElem?_set_self (List.getElem?_eq_some_iff.mp found).1
    · exact ⟨grown, by rw [List.getElem?_set_ne same, there], grows⟩

/-- The same module is registered under a name. -/
theorem findRegisteredModule (extend : Extends before after) {name : Name} {index : Nat}
    {module : Module} (found : after.findRegisteredModule name = some (index, module)) :
    exists old, before.findRegisteredModule name = some (index, old) ∧
      before.modules[index]? = some old ∧ after.modules[index]? = some module ∧
      old.Grows module := by
  simp only [Environment.findRegisteredModule, extend.registered, Option.bind_eq_some_iff,
    Option.map_eq_some_iff, Prod.mk.injEq] at found ⊢
  rcases found with ⟨position, bound, grown, there, rfl, rfl⟩
  have inRange := (List.getElem?_eq_some_iff.mp there).1
  rw [extend.numModules] at inRange
  have here := List.getElem?_eq_getElem inRange
  rcases extend.modules position _ here with ⟨new, same, grows⟩
  rw [there, Option.some.injEq] at same
  subst same
  exact ⟨_, ⟨position, bound, _, here, rfl, rfl⟩, here, there, grows⟩

theorem findRegisteredModule_none (extend : Extends before after) {name : Name}
    (notFound : after.findRegisteredModule name = none) :
    before.findRegisteredModule name = none := by
  cases found : before.findRegisteredModule name with
  | none => rfl
  | some known =>
      rcases known with ⟨index, module⟩
      simp only [Environment.findRegisteredModule, Option.bind_eq_some_iff,
        Option.map_eq_some_iff, Prod.mk.injEq] at found
      rcases found with ⟨position, bound, old, here, rfl, rfl⟩
      rcases extend.modules position old here with ⟨new, there, _⟩
      rw [Environment.findRegisteredModule, extend.registered, bound, Option.bind_some, there]
        at notFound
      cases notFound

end Extends

/-- An entity of a kind stands at an index. -/
def Has (env : Environment) : ExternalKind -> Nat -> Prop
  | .func, index => index < env.funcs.length
  | .table, index => index < env.tables.length
  | .memory, index => index < env.memories.length
  | .global, index => index < env.globals.length
  | .except, _ => False

theorem Extends.has {before after : Environment} (extend : Extends before after)
    {kind : ExternalKind} {index : Nat} (here : before.Has kind index) : after.Has kind index := by
  cases kind with
  | func => exact Nat.lt_of_lt_of_le here extend.funcs.length_le
  | table => exact Nat.lt_of_lt_of_le here extend.tables.length_le
  | memory => exact Nat.lt_of_lt_of_le here extend.memories.length_le
  | global => exact Nat.lt_of_lt_of_le here extend.globals.length_le
  | except => exact here

/-- What the environment of a program is like between two loads. -/
structure WellFormed (env : Environment) : Prop where
  registered : forall binding, binding ∈ env.registeredModuleBindings ->
    binding.2 < env.modules.length
  named : forall binding, binding ∈ env.moduleBindings -> exists module,
    env.modules[binding.2]? = some module ∧ module.name = binding.1 ∧ binding.1 ≠ []
  sigs : forall func, func ∈ env.funcs -> func.sigIndex < env.sigs.length
  exports : forall module, module ∈ env.modules -> module.isHost = false ->
    forall export_, export_ ∈ module.exports -> env.Has export_.kind export_.index

end Environment

end Loading
end WasmSandboxing
