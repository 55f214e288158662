import WasmSandboxing.Loading.Linking
import WasmSandboxing.Loading.Spectest

namespace WasmSandboxing
namespace Loading

open Binary

/-!
# What linked modules operate on

A module refers to the functions and globals of the environment through the
mappings that its bodies are compiled with.  What it declares of an entity holds
of it when the module is loaded, and no later command of the program changes
the signature of a function or the type of a global.
-/

namespace Environment

/-- The functions that a mapping leads to have the signatures that are
declared. -/
def TypesFuncs (env : Environment) (mapping : List Nat) (found : Declared) : Prop :=
  forall index sigIndex : Nat, found.funcs[index]? = some sigIndex ->
    exists (envIndex : Nat) (func : Func) (type : List Int × List Int),
      mapping[index]? = some envIndex ∧ env.funcs[envIndex]? = some func ∧
      found.types[sigIndex]? = some type ∧
      env.sigs[func.sigIndex]? = some (signature type)

/-- The globals have the types that are declared, and are mutable where that is
declared. -/
def TypesGlobals (env : Environment) (mapping : List Nat) (found : Declared) : Prop :=
  forall (index : Nat) (type : Int) (mutable_ : Bool),
    found.globals[index]? = some (type, mutable_) ->
    exists envIndex global, mapping[index]? = some envIndex ∧
      env.globals[envIndex]? = some global ∧ global.declares = (type, mutable_)

/-- What a later environment keeps of the modules and of what they refer to. -/
structure Keeps (before after : Environment) : Prop where
  modules : forall (index : Nat) (module : Module), before.modules[index]? = some module ->
    exists later, after.modules[index]? = some later ∧ later.kind = module.kind
  sigs : before.sigs <+: after.sigs
  funcs : before.funcs <+: after.funcs
  globals : forall (index : Nat) (global : Global), before.globals[index]? = some global ->
    exists later, after.globals[index]? = some later ∧ later.declares = global.declares

variable {before after : Environment}

theorem Keeps.refl (env : Environment) : env.Keeps env where
  modules := fun _ module here => ⟨module, here, rfl⟩
  sigs := List.prefix_refl _
  funcs := List.prefix_refl _
  globals := fun _ global here => ⟨global, here, rfl⟩

theorem Keeps.trans {first second third : Environment} (here : first.Keeps second)
    (there : second.Keeps third) : first.Keeps third where
  modules := by
    intro index module found
    rcases here.modules index module found with ⟨middle, foundMiddle, same⟩
    rcases there.modules index middle foundMiddle with ⟨last, foundLast, sameLast⟩
    exact ⟨last, foundLast, sameLast.trans same⟩
  sigs := here.sigs.trans there.sigs
  funcs := here.funcs.trans there.funcs
  globals := by
    intro index global found
    rcases here.globals index global found with ⟨middle, foundMiddle, same⟩
    rcases there.globals index middle foundMiddle with ⟨last, foundLast, sameLast⟩
    exact ⟨last, foundLast, sameLast.trans same⟩

theorem Extends.keeps (extend : before.Extends after) : before.Keeps after where
  modules := by
    intro index module found
    rcases extend.modules index module found with ⟨grown, there, grows⟩
    exact ⟨grown, there, grows.sameKind⟩
  sigs := extend.sigs
  funcs := extend.funcs
  globals := fun _ global here => ⟨global, getElem?_of_prefix extend.globals here, rfl⟩

theorem Executes.keeps (executes : before.Executes after) : before.Keeps after where
  modules := fun index module here => ⟨module, executes.modules ▸ here, rfl⟩
  sigs := executes.sigs ▸ List.prefix_refl _
  funcs := executes.funcs ▸ List.prefix_refl _
  globals := by
    intro index global here
    rcases executes.globals index global here with ⟨later, there, sameType, sameMutable⟩
    exact ⟨later, there, Prod.ext sameType sameMutable⟩

theorem keeps_appendHostModule (env : Environment) (name : Name)
    (importDelegate : HostImportDelegate) :
    env.Keeps (env.appendHostModule name importDelegate) where
  __ := Keeps.refl env
  modules := fun _ module here =>
    ⟨module, getElem?_of_prefix (List.prefix_append _ _) here, rfl⟩

theorem keeps_nameModule {env : Environment} {module : Module}
    (last : env.modules[env.modules.length - 1]? = some module) (name : Name) :
    env.Keeps (env.nameModule module name) where
  __ := Keeps.refl env
  modules := by
    intro index other here
    by_cases same : env.modules.length - 1 = index
    · subst same
      rw [last, Option.some.injEq] at here
      subst here
      exact ⟨{ module with name },
        List.getElem?_set_self (List.getElem?_eq_some_iff.mp last).1, rfl⟩
    · exact ⟨other, (List.getElem?_set_ne same).trans here, rfl⟩

theorem TypesFuncs.keeps {mapping : List Nat} {found : Declared}
    (types : before.TypesFuncs mapping found) (keeps : before.Keeps after) :
    after.TypesFuncs mapping found := by
  intro index sigIndex known
  rcases types index sigIndex known with ⟨envIndex, func, type, mapped, here, typed, sig⟩
  exact ⟨envIndex, func, type, mapped, getElem?_of_prefix keeps.funcs here, typed,
    getElem?_of_prefix keeps.sigs sig⟩

theorem TypesGlobals.keeps {mapping : List Nat} {found : Declared}
    (types : before.TypesGlobals mapping found) (keeps : before.Keeps after) :
    after.TypesGlobals mapping found := by
  intro index type mutable_ known
  rcases types index type mutable_ known with ⟨envIndex, global, mapped, here, declares⟩
  rcases keeps.globals envIndex global here with ⟨later, there, same⟩
  exact ⟨envIndex, later, mapped, there, same.trans declares⟩

end Environment

/-! ## The modules of a run -/

variable {Code : Type} {compiler : Compiler Code} {agreed : Prop} {env after : Environment}
  {load : Load} {loads : List Load} {start : ModuleReader} {items : List Item}
  {loader : Loader Code}

namespace Load

def declared (load : Load) : Declared :=
  Binary.declared (Read.readModule.run load.start).1

/-- Every import of the module was linked exactly. -/
def Exact (load : Load) (compiler : Compiler Code) : Prop :=
  Loader.LinksExactly compiler load.env (Read.readModule.run load.start).1

/-- The functions and globals that the module operates on are of the types that
it has declared. -/
def Typed (load : Load) (env : Environment) : Prop :=
  exists module own, env.modules[load.index]? = some module ∧ module.kind = .defined own ∧
    env.TypesFuncs own.funcIndexMapping load.declared ∧
    env.TypesGlobals own.globalIndexMapping load.declared

theorem Typed.keeps (typed : load.Typed env) (keeps : env.Keeps after) : load.Typed after := by
  rcases typed with ⟨module, own, here, sort, funcs, globals⟩
  rcases keeps.modules load.index module here with ⟨later, there, same⟩
  exact ⟨later, own, there, same.trans sort, funcs.keeps keeps, globals.keeps keeps⟩

end Load

namespace Loaded

theorem declared (loaded : Loaded agreed compiler env start after items loader) (index : Nat) :
    (Load.mk env start index).declared = Binary.declared items := by
  rcases loaded.read with ⟨offset, same⟩
  rw [Load.declared, same, declared_append]
  rfl

/-- The module that is loaded refers to what it declares. -/
theorem typed (loaded : Loaded agreed compiler env start after items loader) (exact_ : agreed) :
    (Load.mk env start env.modules.length).Typed after := by
  have holds := loaded.behind.loads
  have here : after.modules[env.modules.length]? = some loader.module := by
    rw [loaded.modules, ← holds.kept.numModules, List.getElem?_concat_length]
  refine ⟨loader.module, _, here, rfl, ?_, ?_⟩
  · rw [loaded.declared]
    intro index sigIndex known
    rcases holds.funcs index sigIndex known with ⟨envIndex, func, type, mapped, here, typed, sig, _⟩
    rw [loaded.funcs, loaded.sigs]
    exact ⟨envIndex, func, type, mapped, here, typed, sig⟩
  · rw [loaded.declared]
    intro index type mutable_ known
    rcases holds.globals index type mutable_ known with ⟨envIndex, global, mapped, here, _, typed⟩
    rcases typed (.inl exact_) with ⟨sameType, sameMutable⟩
    rw [loaded.globals]
    exact ⟨envIndex, global, mapped, here, Prod.ext sameType sameMutable⟩

theorem keeps (loaded : Loaded agreed compiler env start after items loader) :
    env.Keeps after := by
  have kept := loaded.behind.loads.kept.keeps
  refine ⟨?_, ?_, ?_, ?_⟩
  · intro index module here
    rcases kept.modules index module here with ⟨later, there, same⟩
    rw [loaded.modules]
    exact ⟨later, getElem?_of_prefix (List.prefix_append _ _) there, same⟩
  · rw [loaded.sigs]
    exact kept.sigs
  · rw [loaded.funcs]
    exact kept.funcs
  · rw [loaded.globals]
    exact kept.globals

/-- A module that is taken back leaves the others as they were. -/
theorem keeps_unwound {later : Environment}
    (loaded : Loaded agreed compiler env start after items loader) (wellFormed : env.WellFormed)
    (executes : after.Executes later) : env.Keeps (later.resetToMarkPoint env.mark) := by
  have kept := loaded.behind.loads.kept
  have modules := (reset_bindings wellFormed kept (executes.modules.trans loaded.modules) rfl
    (executes.moduleBindings.trans loaded.moduleBindings)
    (executes.registered.trans loaded.registered)).1
  refine ⟨?_, ?_, ?_, ?_⟩
  · intro index module here
    rw [modules]
    exact kept.keeps.modules index module here
  · change env.sigs <+: later.sigs.take env.sigs.length
    rw [executes.sigs, loaded.sigs]
    exact List.prefix_take_iff.mpr ⟨kept.sigs, Nat.le_refl _⟩
  · change env.funcs <+: later.funcs.take env.funcs.length
    rw [executes.funcs, loaded.funcs]
    exact List.prefix_take_iff.mpr ⟨kept.funcs, Nat.le_refl _⟩
  · intro index global here
    rcases (loaded.keeps.trans executes.keeps).globals index global here with ⟨last, there, same⟩
    refine ⟨last, ?_, same⟩
    change (later.globals.take env.globals.length)[index]? = _
    rw [List.getElem?_take_of_lt (List.getElem?_eq_some_iff.mp here).1]
    exact there

end Loaded

theorem Fails.keeps {reached final : Loader Code}
    (fails : Fails compiler env start after reached final) (wellFormed : env.WellFormed) :
    env.Keeps after := by
  rw [fails.result, reset_environment wellFormed fails.spoils.1]
  exact { Environment.Keeps.refl env with modules := fails.spoils.1.keeps.modules }

/-- In a set of modules that are linked exactly, each operates on functions and
globals of the types that it declares. -/
theorem Run.typed (run : Run compiler env loads)
    (exact_ : forall load, load ∈ loads -> load.Exact compiler) :
    forall load, load ∈ loads -> load.Typed env := by
  induction run with
  | empty => exact fun load isMember => (List.not_mem_nil isMember).elim
  | appendHostModule run name importDelegate inductionHypothesis =>
      exact fun load isMember => (inductionHypothesis exact_ load isMember).keeps
        (Environment.keeps_appendHostModule _ name importDelegate)
  | load run read inductionHypothesis =>
      rcases readBinaryInterp_ok run.wellFormed id read with ⟨items, loader, loaded⟩
      intro load isMember
      rcases List.mem_append.mp isMember with isMember_ | isNew
      · have before := inductionHypothesis
          (fun other isOther => exact_ other (List.mem_append_left _ isOther)) load isMember_
        exact before.keeps loaded.keeps
      · rw [List.mem_singleton.mp isNew]
        exact loaded.typed (exact_ _ (List.mem_append_right _ (List.mem_singleton_self _)))
  | failed run read inductionHypothesis =>
      rcases readBinaryInterp_error run.wellFormed read with ⟨reached, final, fails⟩
      exact fun load isMember =>
        (inductionHypothesis exact_ load isMember).keeps (fails.keeps run.wellFormed)
  | execute run executes inductionHypothesis =>
      exact fun load isMember => (inductionHypothesis exact_ load isMember).keeps executes.keeps
  | unwound run read executes inductionHypothesis =>
      rcases readBinaryInterp_ok run.wellFormed False.elim read with ⟨items, loader, loaded⟩
      exact fun load isMember => (inductionHypothesis exact_ load isMember).keeps
        (loaded.keeps_unwound run.wellFormed executes)
  | nameModule run last unnamed named inductionHypothesis =>
      exact fun load isMember => (inductionHypothesis exact_ load isMember).keeps
        (Environment.keeps_nameModule last _)
  | register run found inductionHypothesis =>
      exact fun load isMember => (inductionHypothesis exact_ load isMember).keeps
        { Environment.Keeps.refl _ with }

/-! ## The linking of a module -/

namespace Loader

end Loader

end Loading
end WasmSandboxing
