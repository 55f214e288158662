import WasmSandboxing.Text.NamePasses

namespace WasmSandboxing
namespace Text

open Foundation Wasm

/-!
# From indices to names and back

`wasm2wat` generates names and applies them, and `wat2wasm` resolves them again.
The passes are taken together here: whoever reads the text gets the indices of
the binary.
-/

namespace Module

/-- The module without its functions. -/
def outer (module : Module) : Module := { module with funcs := [] }

theorem references_split (module : Module) : module.references =
    module.funcs.flatMap module.funcReferences ++ module.outer.references := by
  simp only [references, outer, List.flatMap_nil, List.nil_append, List.append_assoc]
  rfl

end Module

namespace Fields

/-! ## References in another scope -/

/-- The same `Var` at the same place, whatever is in scope. -/
def Alike (before after : Reference) : Prop := after.site = before.site ∧ after.var = before.var

theorem vars_alike (vars : List (Site × Var)) (first second : Scope) :
    List.Forall₂ Alike (first.references vars) (second.references vars) := by
  rw [Scope.references, Scope.references, List.forall₂_map_left_iff, List.forall₂_map_right_iff,
    List.forall₂_same]
  exact fun _ _ => ⟨rfl, rfl⟩

/-- The reference with the bindings of another scope. -/
def within (scope : Scope) (reference : Reference) : Reference :=
  { reference with scope := { scope with labels := reference.scope.labels } }

theorem vars_within (vars : List (Site × Var)) {first second : Scope}
    (same : second.labels = first.labels) :
    second.references vars = (first.references vars).map (within second) := by
  rw [Scope.references, Scope.references, List.map_map]
  refine List.map_congr_left fun pair _ => ?_
  rw [Function.comp_apply, within, ← same]

/-- References depend on the scope only as far as they carry it. -/
theorem references_within (exprs : ExprList) : forall {first second : Scope},
    second.labels = first.labels ->
      exprs.references second = (exprs.references first).map (within second) := by
  have push_within (scope : Scope) (label : Name) : within (scope.push label) = within scope := rfl
  induction exprs with
  | nil => exact fun _ => rfl
  | instr first rest restHypothesis =>
      intro outer inner same
      rw [ExprList.references, ExprList.references, List.map_append, vars_within _ same,
        restHypothesis same]
  | body type block exprs rest exprsHypothesis restHypothesis =>
      intro outer inner same
      have pushed : (inner.push block.label).labels = (outer.push block.label).labels :=
        congrArg (List.cons block.label) same
      rw [ExprList.references, ExprList.references, List.map_append, List.map_append,
        vars_within _ same, exprsHypothesis pushed, restHypothesis same, push_within]
  | arms type block first second rest firstHypothesis secondHypothesis restHypothesis =>
      intro outer inner same
      have pushed : (inner.push block.label).labels = (outer.push block.label).labels :=
        congrArg (List.cons block.label) same
      rw [ExprList.references, ExprList.references, List.map_append, List.map_append,
        List.map_append, vars_within _ same, firstHypothesis pushed, secondHypothesis pushed,
        restHypothesis same, push_within]

theorem within_alike (scope : Scope) (references : List Reference) :
    List.Forall₂ Alike references (references.map (within scope)) := by
  rw [List.forall₂_map_right_iff, List.forall₂_same]
  exact fun _ _ => ⟨rfl, rfl⟩

/-- Labels are given to blocks, and no `Var` is touched. -/
theorem nameLabels_alike (exprs : ExprList) : forall (count : Nat) (first second : Scope),
    List.Forall₂ Alike (exprs.references first)
      ((nameLabels count exprs).1.references second) := by
  induction exprs with
  | nil => exact fun _ _ _ => .nil
  | instr first rest restHypothesis =>
      intro count outer inner
      exact List.rel_append (vars_alike _ _ _) (restHypothesis _ _ _)
  | body type block exprs rest exprsHypothesis restHypothesis =>
      intro count outer inner
      exact List.rel_append (List.rel_append (vars_alike _ _ _) (exprsHypothesis _ _ _))
        (restHypothesis _ _ _)
  | arms type block first second rest firstHypothesis secondHypothesis restHypothesis =>
      intro count outer inner
      exact List.rel_append (List.rel_append (List.rel_append (vars_alike _ _ _)
        (firstHypothesis _ _ _)) (secondHypothesis _ _ _)) (restHypothesis _ _ _)

/-! ## Labels that are all named -/

/-- Each block around has a label of its own. -/
def Labelled (labels : List Name) : Prop := labels.Nodup ∧ [] ∉ labels

theorem Labelled.unshadowed {labels : List Name} (labelled : Labelled labels) :
    Unshadowed labels := by
  intro inner outer label _ atInner atOuter
  rcases List.getElem?_eq_some_iff.mp atInner with ⟨inside, inner_eq⟩
  rcases List.getElem?_eq_some_iff.mp atOuter with ⟨alsoInside, outer_eq⟩
  exact (labelled.1.getElem_inj_iff).mp (inner_eq.trans outer_eq.symm)

theorem Labelled.push {labels : List Name} (labelled : Labelled labels) {label : Name}
    (isNamed : label ≠ []) (fresh : label ∉ labels) : Labelled (label :: labels) := by
  refine ⟨List.nodup_cons.mpr ⟨fresh, labelled.1⟩, ?_⟩
  rw [List.mem_cons, not_or]
  exact ⟨Ne.symm isNamed, labelled.2⟩

theorem nested_labelled (exprs : ExprList) : forall {scope : Scope}, Labelled scope.labels ->
    Nested scope.labels exprs -> forall reference, reference ∈ exprs.references scope ->
      Labelled reference.scope.labels := by
  have of_vars {scope : Scope} (labelled : Labelled scope.labels) {vars : List (Site × Var)}
      {reference : Reference} (isMember : reference ∈ scope.references vars) :
      Labelled reference.scope.labels := by
    rcases List.mem_map.mp isMember with ⟨pair, -, rfl⟩
    exact labelled
  induction exprs with
  | nil => exact fun _ _ _ isMember => absurd isMember List.not_mem_nil
  | instr first rest restHypothesis =>
      intro scope labelled nested reference isMember
      rcases List.mem_append.mp isMember with isFirst | isRest
      · exact of_vars labelled isFirst
      · exact restHypothesis labelled nested reference isRest
  | body type block exprs rest exprsHypothesis restHypothesis =>
      rintro scope labelled ⟨isNamed, fresh, inner, behind⟩ reference isMember
      have pushed : Labelled (scope.push block.label).labels := labelled.push isNamed fresh
      rcases List.mem_append.mp isMember with isMember | isRest
      · rcases List.mem_append.mp isMember with isHead | isInner
        · exact of_vars labelled isHead
        · exact exprsHypothesis pushed inner reference isInner
      · exact restHypothesis labelled behind reference isRest
  | arms type block first second rest firstHypothesis secondHypothesis restHypothesis =>
      rintro scope labelled ⟨isNamed, fresh, left, right, behind⟩ reference isMember
      have pushed : Labelled (scope.push block.label).labels := labelled.push isNamed fresh
      rcases List.mem_append.mp isMember with isMember | isRest
      · rcases List.mem_append.mp isMember with isMember | isSecond
        · rcases List.mem_append.mp isMember with isHead | isFirst
          · exact of_vars labelled isHead
          · exact firstHypothesis pushed left reference isFirst
        · exact secondHypothesis pushed right reference isSecond
      · exact restHypothesis labelled behind reference isRest

/-! ## What generating names keeps -/

namespace Module

/-- Names are all that is different. -/
def Renamed (before after : Module) : Prop := after = { before with space := after.space }

theorem Renamed.trans {first second third : Module} (earlier : first.Renamed second)
    (later : second.Renamed third) : first.Renamed third := by
  rw [Renamed] at later ⊢
  rw [later]
  rw [Renamed] at earlier
  rw [earlier]

end Module

/-- What the reader of a binary gives: names that are bound, indices for
references, and no blocks outside functions. -/
structure Module.Plain (module : Module) : Prop where
  exact : forall space, (module.space space).Exact
  spoken : forall func, func ∈ module.funcs -> func.Spoken
  indexed : forall reference, reference ∈ module.toText.references ->
    ∃ index, reference.var = .index index
  flat : forall reference, reference ∈ module.toText.outer.references ->
    reference.scope.labels = []

theorem Module.Plain.wellFormed {module : Module} (plain : module.Plain) : module.WellFormed where
  bound := fun space _ _ present isNamed =>
    (plain.exact space).mem_iff.mpr ⟨present, isNamed⟩
  params := fun func isFunc => (plain.spoken func isFunc).1
  locals := fun func isFunc => (plain.spoken func isFunc).2

/-- What `VisitFunc` does to a function whose names do not clash. -/
structure Func.Labels (iteration : IterationOrder) (before after : Func) : Prop where
  clear : before.Clear
  named : before.Named iteration after
  spoken : after.Spoken
  decl : after.decl = before.decl
  numLocals : after.numLocals = before.numLocals
  exprs : after.exprs = (nameLabels 0 before.exprs).1

/-- What `GenerateNames` does to a module whose names do not clash. -/
structure Module.Generated (iteration : IterationOrder) (before after : Module) : Prop where
  kept : after = { before with space := after.space, funcs := after.funcs }
  spaces : forall space, (before.space space).Settled iteration (after.space space)
  exact : forall space, (after.space space).Exact
  funcs : List.Forall₂ (Func.Labels iteration) before.funcs after.funcs

theorem outer_within (module : Text.Module) (bindings : Space -> BindingHash) :
    Text.Module.references { module.outer with bindings := bindings } =
      module.outer.references.map (within ⟨bindings, none, []⟩) := by
  have vars (vars : List (Site × Var)) : Scope.references ⟨bindings, none, []⟩ vars =
      (module.scope.references vars).map (within ⟨bindings, none, []⟩) := vars_within vars rfl
  have exprs (exprs : ExprList) : exprs.references ⟨bindings, none, []⟩ =
      (exprs.references module.scope).map (within ⟨bindings, none, []⟩) := references_within exprs rfl
  have scope_eq : Text.Module.scope { module.outer with bindings := bindings } =
      ⟨bindings, none, []⟩ := rfl
  have outer_eq : module.outer.scope = module.scope := rfl
  have exports : Text.Module.exportReferences { module.outer with bindings := bindings } =
      fun item => (module.outer.exportReferences item).map (within ⟨bindings, none, []⟩) :=
    funext fun item => vars _
  have elems : Text.Module.elemReferences { module.outer with bindings := bindings } =
      fun segment => (module.outer.elemReferences segment).map (within ⟨bindings, none, []⟩) := by
    funext segment
    rw [Text.Module.elemReferences, Text.Module.elemReferences, scope_eq, outer_eq, List.map_append,
      List.map_append, ← vars, ← vars, ← exprs]
  have datas : Text.Module.dataReferences { module.outer with bindings := bindings } =
      fun segment => (module.outer.dataReferences segment).map (within ⟨bindings, none, []⟩) := by
    funext segment
    rw [Text.Module.dataReferences, Text.Module.dataReferences, scope_eq, outer_eq, List.map_append,
      ← vars, ← exprs]
  rw [Text.Module.references, Text.Module.references, exports, elems, datas, scope_eq, outer_eq]
  simp only [List.map_append, List.map_flatMap, vars, exprs]
  rfl

namespace Module.Generated

variable {iteration : IterationOrder} {before after : Module}

theorem outer_eq (generated : before.Generated iteration after) :
    after.toText.outer = { before.toText.outer with bindings := after.toText.bindings } := by
  rw [generated.kept]
  rfl

theorem outer_references (generated : before.Generated iteration after) :
    after.toText.outer.references =
      before.toText.outer.references.map (within ⟨after.toText.bindings, none, []⟩) := by
  rw [generated.outer_eq]
  exact outer_within before.toText after.toText.bindings

theorem func_alike {func named : Func} (labels : func.Labels iteration named) :
    List.Forall₂ Alike (before.toText.funcReferences func.toFunc)
      (after.toText.funcReferences named.toFunc) := by
  rw [Text.Module.funcReferences, Text.Module.funcReferences, labels.decl, labels.exprs]
  exact List.rel_append (vars_alike _ _ _) (nameLabels_alike _ _ _ _)

theorem alike (generated : before.Generated iteration after) :
    List.Forall₂ Alike before.toText.references after.toText.references := by
  rw [before.toText.references_split, after.toText.references_split, generated.outer_references]
  refine List.rel_append ?_ (within_alike _ _)
  change List.Forall₂ Alike ((before.funcs.map Func.toFunc).flatMap _)
    ((after.funcs.map Func.toFunc).flatMap _)
  rw [List.flatMap_map, List.flatMap_map]
  exact forall₂_flatMap generated.funcs fun _ _ _ labels => func_alike labels

theorem labelled (generated : before.Generated iteration after) (plain : before.Plain)
    {reference : Reference} (isMember : reference ∈ after.toText.references) :
    Labelled reference.scope.labels := by
  have bare : Labelled [] := ⟨List.nodup_nil, List.not_mem_nil⟩
  rw [after.toText.references_split, generated.outer_references] at isMember
  rcases List.mem_append.mp isMember with isInner | isOuter
  · rcases List.mem_flatMap.mp isInner with ⟨text, isFunc, isMember⟩
    rcases List.mem_map.mp isFunc with ⟨func, isAfter, rfl⟩
    rcases exists_of_forall₂ generated.funcs isAfter with ⟨old, -, labels⟩
    rcases List.mem_append.mp isMember with isType | isBody
    · rcases List.mem_map.mp isType with ⟨pair, -, rfl⟩
      exact bare
    · exact nested_labelled func.exprs bare labels.named.labels reference isBody
  · rcases List.mem_map.mp isOuter with ⟨old, isOld, rfl⟩
    rw [within, plain.flat old isOld]
    exact bare

theorem distinct (generated : before.Generated iteration after) (plain : before.Plain) :
    after.Distinct where
  exact := generated.exact
  unique := by
    refine ⟨fun space => (generated.spaces space).distinct, fun text isFunc => ?_⟩
    rcases List.mem_map.mp isFunc with ⟨func, isAfter, rfl⟩
    rcases exists_of_forall₂ generated.funcs isAfter with ⟨old, -, labels⟩
    rcases List.nodup_append'.mp labels.named.distinct with ⟨params, locals, apart⟩
    exact (Text.Module.unique_space_iff func.toFunc.locals).mpr ⟨⟨params, locals⟩, apart⟩
  spoken := by
    intro func isFunc
    rcases exists_of_forall₂ generated.funcs isFunc with ⟨old, -, labels⟩
    exact labels.spoken
  unshadowed := fun reference isMember => (generated.labelled plain isMember).unshadowed
  indexed := by
    intro reference isMember
    rcases exists_of_forall₂ generated.alike isMember with ⟨old, isOld, -, var_eq⟩
    rw [var_eq]
    exact plain.indexed old isOld

end Module.Generated

end Fields
end Text
end WasmSandboxing
