import WasmSandboxing.Text.ApplyNamesExact
import WasmSandboxing.Text.GenerateNames

namespace WasmSandboxing
namespace Text

open Foundation Wasm

/-!
# Names there and back

`ApplyNames` puts names in the place of indices and `ResolveNames` puts indices
in the place of names.  Behind `GenerateNames`, where everything has a name of
its own, nothing is lost on the way.
-/

namespace Module

variable (module : Module) {reference : Reference}

theorem references_mem_iff : reference ∈ module.references ↔
    (∃ func, func ∈ module.funcs ∧ reference ∈ module.funcReferences func) ∨
      (∃ item, item ∈ module.exports ∧ reference ∈ module.exportReferences item) ∨
      (∃ initExpr, initExpr ∈ module.globals ∧ reference ∈ initExpr.references module.scope) ∨
      (∃ segment, segment ∈ module.elemSegments ∧ reference ∈ module.elemReferences segment) ∨
      (∃ segment, segment ∈ module.dataSegments ∧ reference ∈ module.dataReferences segment) ∨
      reference ∈ module.scope.references (module.starts.map fun var => (.entity .func, var)) := by
  simp only [references, List.mem_append, List.mem_flatMap, or_assoc]

theorem start_mem
    (isMember : reference ∈
      module.scope.references (module.starts.map fun var => (.entity .func, var))) :
    reference ∈ module.references :=
  module.references_mem_iff.mpr (.inr (.inr (.inr (.inr (.inr isMember)))))

/-- The module without exports and start functions, which `ApplyNames` may pass over. -/
def body (module : Module) : Module := { module with exports := [], starts := [] }

end Module

namespace Fields

/-! ## A reference and its name -/

/-- No block inside another has its label. -/
def Unshadowed (labels : List Name) : Prop :=
  forall (inner outer : Nat) (label : Name), label ≠ [] -> labels[inner]? = some label ->
    labels[outer]? = some label -> inner = outer

/-- The names by index are those that are bound. -/
structure Current.Listed (current : Current) : Prop where
  isBound : forall index, NameApplier.localName current index ≠ [] ->
    (NameApplier.localName current index, index) ∈ current.locals.space
  isNamed : forall (index : Nat) (name : Name), (name, index) ∈ current.locals.space ->
    NameApplier.localName current index ≠ []

/-- What the pass looks names up in is what is in scope of the reference. -/
structure Context.Sees (context : Context) (reference : Reference) : Prop where
  bindings : reference.scope.bindings = fun space => (context.space space).bindings
  exact : forall space, (context.space space).Exact
  labels : Unshadowed reference.scope.labels
  locals : forall current, context.current = some current ->
    reference.scope.locals = some current.locals ∧ current.Listed

/-- A name that is found is one that stands for the index. -/
theorem Context.Sees.denotes {context : Context} {scope : Scope} {site : Site} {index : Nat}
    (sees : context.Sees ⟨scope, site, .index index⟩) {name : Name}
    (found : context.name ⟨scope, site, .index index⟩ = some name) (isNamed : name ≠ []) :
    Reference.Denotes ⟨scope, site, .name ⟨name, isNamed⟩⟩ index := by
  cases site with
  | entity space =>
      have present : (context.space space).names[index]? = some name := found
      have isBound := (sees.exact space).mem_iff.mpr ⟨present, isNamed⟩
      change (name, index) ∈ scope.bindings space
      rw [show scope.bindings = _ from sees.bindings]
      exact isBound
  | blockType => cases found
  | label =>
      obtain rfl : name = scope.labels[index]?.getD [] := (Option.some.inj found).symm
      have present : scope.labels[index]? = some (scope.labels[index]?.getD []) := by
        cases here : scope.labels[index]? with
        | none => exact absurd (by rw [here]; rfl) isNamed
        | some label => rfl
      exact ⟨present, fun inner below same =>
        absurd (sees.labels inner index _ isNamed same present) (Nat.ne_of_lt below)⟩
  | «local» =>
      rcases Option.bind_eq_some_iff.mp found with ⟨current, inFunc, found⟩
      rcases Option.bind_eq_some_iff.mp found with ⟨position, same, found⟩
      obtain rfl : index = position := Option.some.inj same
      split at found
      · obtain rfl := Option.some.inj found
        rcases sees.locals current inFunc with ⟨locals, listed⟩
        exact ⟨current.locals, locals, listed.isBound index isNamed⟩
      · cases found

/-- Renaming changes no meaning. -/
theorem Context.Sees.rename_denotes {context : Context} {reference : Reference}
    (sees : context.Sees reference) {index : Nat} (indexed : reference.var = .index index) :
    (context.rename reference).Denotes index := by
  rcases reference with ⟨scope, site, var⟩
  cases indexed
  cases found : context.name ⟨scope, site, .index index⟩ with
  | none =>
      rw [context.rename_of_none _ found]
      rfl
  | some name =>
      rw [context.rename_index found]
      by_cases isNamed : name ≠ []
      · rw [dif_pos isNamed]
        exact sees.denotes found isNamed
      · rw [dif_neg isNamed]
        rfl

/-- What has a name is called by it. -/
theorem Context.Sees.rename_named {context : Context} {scope : Scope} {site : Site} {index : Nat}
    (sees : context.Sees ⟨scope, site, .index index⟩)
    (fine : context.Fine ⟨scope, site, .index index⟩) (looked : site ≠ .blockType)
    (hasName : ∃ symbol, Reference.Denotes ⟨scope, site, .name symbol⟩ index) :
    ∃ symbol, (context.rename ⟨scope, site, .index index⟩).var = .name symbol := by
  rcases fine.resolve_left looked with ⟨name, found, -⟩
  suffices isNamed : name ≠ [] by
    rw [context.rename_index found, dif_pos isNamed]
    exact ⟨_, rfl⟩
  rcases hasName with ⟨symbol, denotes⟩
  cases site with
  | entity space =>
      change (symbol.text, index) ∈ scope.bindings space at denotes
      rw [show scope.bindings = _ from sees.bindings] at denotes
      have present := ((sees.exact space).mem_iff.mp denotes).1
      obtain rfl : name = symbol.text := Option.some.inj (Eq.trans (Eq.symm found) present)
      exact symbol.nonempty
  | blockType => exact absurd rfl looked
  | label =>
      obtain rfl : name = scope.labels[index]?.getD [] := (Option.some.inj found).symm
      rw [denotes.1]
      exact symbol.nonempty
  | «local» =>
      rcases Option.bind_eq_some_iff.mp found with ⟨current, inFunc, found⟩
      rcases Option.bind_eq_some_iff.mp found with ⟨position, same, found⟩
      obtain rfl : index = position := Option.some.inj same
      rcases denotes with ⟨locals, here, isBound⟩
      rcases sees.locals current inFunc with ⟨locals_eq, listed⟩
      obtain rfl : locals = current.locals := Option.some.inj (here.symm.trans locals_eq)
      split at found
      · obtain rfl := Option.some.inj found
        exact listed.isNamed index symbol.text isBound
      · cases found

/-- What a reference stands for is unique where names are. -/
theorem denotes_functional {reference : Reference}
    (spaces : forall space, Unique (reference.scope.bindings space))
    (inFunc : forall locals, reference.scope.locals = some locals -> Unique locals.space)
    {first second : Nat} (isFirst : reference.Denotes first) (isSecond : reference.Denotes second) :
    first = second := by
  have of_unique {bindings : BindingHash} (unique : Unique bindings) {name : Name}
      (here : (name, first) ∈ bindings) (there : (name, second) ∈ bindings) : first = second :=
    congrArg Prod.snd (List.inj_on_of_nodup_map unique here there rfl)
  rcases reference with ⟨scope, site, var⟩
  cases var with
  | index own => exact isFirst.trans isSecond.symm
  | name symbol =>
      cases site with
      | entity space => exact of_unique (spaces space) isFirst isSecond
      | blockType => exact of_unique (spaces .funcType) isFirst isSecond
      | label =>
          rcases Nat.lt_trichotomy first second with before | same | behind
          · exact absurd isFirst.1 (isSecond.2 first before)
          · exact same
          · exact absurd isSecond.1 (isFirst.2 second behind)
      | «local» =>
          rcases isFirst with ⟨locals, here, isBound⟩
          rcases isSecond with ⟨others, there, alsoBound⟩
          obtain rfl : locals = others := Option.some.inj (here.symm.trans there)
          exact of_unique (inFunc locals here) isBound alsoBound

/-! ## Functions -/

/-- No parameter or local is bound to an empty name. -/
def Func.Spoken (func : Func) : Prop :=
  [] ∉ keys func.paramBindings ∧ [] ∉ keys func.localBindings

/-- Bindings are of parameters and locals that there are. -/
def Func.InRange (func : Func) : Prop :=
  (forall binding, binding ∈ func.paramBindings -> binding.2 < func.numParams) ∧
    forall binding, binding ∈ func.localBindings -> binding.2 < func.numLocals

/-- The names of a reverse mapping are those that are bound. -/
structure Maps (size : Nat) (bindings : BindingHash) (mapping : List Name) : Prop where
  isBound : forall index : Nat, mapping[index]?.getD [] ≠ [] ->
    (mapping[index]?.getD [], index) ∈ bindings
  isNamed : forall (index : Nat) (name : Name), (name, index) ∈ bindings ->
    mapping[index]?.getD [] ≠ []
  inRange : forall binding, binding ∈ bindings -> binding.2 < size

namespace Module

/-- Everything has a name of its own if it has one, and every reference is an
index. -/
structure Distinct (module : Module) : Prop where
  exact : forall space, (module.space space).Exact
  unique : module.toText.NamesUnique
  spoken : forall func, func ∈ module.funcs -> func.Spoken
  unshadowed : forall reference, reference ∈ module.toText.references ->
    Unshadowed reference.scope.labels
  indexed : forall reference, reference ∈ module.toText.references ->
    ∃ index, reference.var = .index index

end Module

namespace NameApplier

variable {iteration : IterationOrder} {module : Module}

end NameApplier

/-! ## What the pass leaves -/

/-- The reference stands where it stood, for what it stood for. -/
structure Stays (before after : Reference) : Prop where
  scope : after.scope = before.scope
  site : after.site = before.site
  denotes : forall index, before.var = .index index -> after.Denotes index
  passed : before.site = .blockType -> after.var = before.var

/-- No index stands where a name would do. -/
def Spelled (reference : Reference) : Prop :=
  reference.site ≠ .blockType -> forall index, reference.var = .index index ->
    forall symbol, ¬Reference.Denotes { reference with var := .name symbol } index

theorem Stays.refl (reference : Reference) : Stays reference reference where
  scope := rfl
  site := rfl
  passed := fun _ => rfl
  denotes := fun index indexed => by rw [Reference.Denotes, indexed]

theorem Context.rename_scope (context : Context) (reference : Reference) :
    (context.rename reference).scope = reference.scope ∧
      (context.rename reference).site = reference.site := by
  rw [rename]
  split
  · split <;> exact ⟨rfl, rfl⟩
  · exact ⟨rfl, rfl⟩

theorem Context.Sees.stays {context : Context} {reference : Reference}
    (sees : context.Sees reference) : Stays reference (context.rename reference) where
  scope := (context.rename_scope reference).1
  site := (context.rename_scope reference).2
  denotes := fun _ indexed => sees.rename_denotes indexed
  passed := by
    rcases reference with ⟨scope, site, var⟩
    rintro rfl
    rw [context.rename_blockType]

theorem Context.Sees.spelled {context : Context} {reference : Reference}
    (sees : context.Sees reference) (fine : context.Fine reference)
    (indexed : ∃ index, reference.var = .index index) : Spelled (context.rename reference) := by
  rcases reference with ⟨scope, site, var⟩
  rcases indexed with ⟨own, rfl⟩
  intro looked index stays symbol denotes
  rcases context.rename_scope ⟨scope, site, .index own⟩ with ⟨scope_eq, site_eq⟩
  rw [site_eq] at looked
  rw [scope_eq, site_eq] at denotes
  obtain rfl : own = index := by
    have same := sees.rename_denotes rfl
    rw [Reference.Denotes, stays] at same
    exact same
  rcases sees.rename_named fine looked ⟨symbol, denotes⟩ with ⟨name, named⟩
  cases stays.symm.trans named

/-- Resolving a reference that stays gives back the index. -/
theorem Stays.resolve {before after : Reference} (stays : Stays before after)
    (resolution : IterationOrder) (indexed : ∃ index, before.var = .index index)
    (spaces : forall space, Unique (before.scope.bindings space))
    (inFunc : forall locals, before.scope.locals = some locals -> Unique locals.space) :
    after.errors resolution = [] ∧ after.resolve resolution = before := by
  rcases before with ⟨scope, site, var⟩
  rcases after with ⟨_, _, now⟩
  cases stays.scope
  cases stays.site
  rcases indexed with ⟨index, rfl⟩
  have denotes := stays.denotes index rfl
  have passes : Reference.errors resolution ⟨scope, site, now⟩ = [] :=
    Reference.errors_eq_nil_iff.mpr fun _ => ⟨index, denotes⟩
  have looked : Reference.Visited ⟨scope, site, now⟩ ∨ ∃ index, now = .index index := by
    cases site with
    | entity space => exact .inl trivial
    | blockType => exact .inr ⟨index, stays.passed rfl⟩
    | label => exact .inl trivial
    | «local» =>
        cases now with
        | index own => exact .inr ⟨own, rfl⟩
        | name symbol =>
            rcases denotes with ⟨locals, here, -⟩
            exact .inl (Option.isSome_iff_exists.mpr ⟨locals, here⟩)
  rcases Reference.resolve_denotes passes looked with ⟨other, resolved, alsoDenotes⟩
  obtain rfl : index = other :=
    @denotes_functional ⟨scope, site, now⟩ spaces inFunc index other denotes alsoDenotes
  exact ⟨passes, congrArg (Reference.mk scope site) resolved⟩

/-! ## Whole modules -/

theorem forall₂_flatMap {Before After : Type} {related : Before -> After -> Prop}
    {holds : Reference -> Reference -> Prop} {first : Before -> List Reference}
    {second : After -> List Reference} {before : List Before} {after : List After}
    (parts : List.Forall₂ related before after)
    (each : forall one, one ∈ before -> forall other, related one other ->
      List.Forall₂ holds (first one) (second other)) :
    List.Forall₂ holds (before.flatMap first) (after.flatMap second) := by
  induction parts with
  | nil => exact .nil
  | cons pair _ inductionHypothesis =>
      rw [List.flatMap_cons, List.flatMap_cons]
      refine List.rel_append (each _ List.mem_cons_self _ pair) (inductionHypothesis ?_)
      exact fun one isMember => each one (List.mem_cons_of_mem _ isMember)

theorem exists_of_forall₂ {Before After : Type} {related : Before -> After -> Prop}
    {before : List Before} {after : List After} (parts : List.Forall₂ related before after)
    {other : After} (isMember : other ∈ after) : ∃ one, one ∈ before ∧ related one other := by
  induction parts with
  | nil => exact absurd isMember List.not_mem_nil
  | cons pair _ inductionHypothesis =>
      rcases List.mem_cons.mp isMember with rfl | inRest
      · exact ⟨_, List.mem_cons_self, pair⟩
      · rcases inductionHypothesis inRest with ⟨one, isBefore, holds⟩
        exact ⟨one, List.mem_cons_of_mem _ isBefore, holds⟩

namespace NameApplier

variable {iteration : IterationOrder} {module : Module}

/-- The reference is renamed by what is in scope of it. -/
structure Renames (iteration : IterationOrder) (module : Module) (before after : Reference) :
    Prop where
  intro ::
  renamed : ∃ current : Option Current,
    (forall inFunc, current = some inFunc ->
      ∃ func, func ∈ module.funcs ∧ currentOf iteration func = some inFunc) ∧
    Context.Sees ⟨iteration, module.space, current⟩ before ∧
    Context.Fine ⟨iteration, module.space, current⟩ before ∧
    after = Context.rename ⟨iteration, module.space, current⟩ before
  indexed : ∃ index, before.var = .index index

theorem Renames.stays {before after : Reference} (renames : Renames iteration module before after) :
    Stays before after := by
  rcases renames.renamed with ⟨current, -, sees, -, rfl⟩
  exact sees.stays

theorem Renames.spelled {before after : Reference}
    (renames : Renames iteration module before after) : Spelled after := by
  rcases renames.renamed with ⟨current, -, sees, fine, rfl⟩
  exact sees.spelled fine renames.indexed

section Parts

variable {after : Module}

end Parts

end NameApplier

end Fields
end Text
end WasmSandboxing
