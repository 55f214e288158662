import WasmSandboxing.Text.ResolveNames

namespace WasmSandboxing
namespace Text

open Wasm

/-!
# What name resolution achieves

The index that a name stands for is stated by membership in the bindings in
scope, with the parameters and locals of a function as one index space.  The
resolver is followed reference by reference and compared with it.
-/

/-! ## Meaning of references -/

/-- Parameters and locals share one index space. -/
def Locals.space (locals : Locals) : BindingHash :=
  locals.paramBindings ++ locals.localBindings.map fun (name, index) =>
    (name, locals.numParams + index)

/-- No name is bound twice. -/
def Unique (bindings : BindingHash) : Prop := (bindings.map Prod.fst).Nodup

namespace Reference

/-- The reference stands for the index. -/
def Denotes (reference : Reference) (index : Nat) : Prop :=
  match reference.var, reference.site with
  | .index own, _ => index = own
  | .name symbol, .entity space => (symbol.text, index) ∈ reference.scope.bindings space
  | .name symbol, .blockType => (symbol.text, index) ∈ reference.scope.bindings .funcType
  | .name symbol, .label => reference.scope.labels[index]? = some symbol.text ∧
      forall inner, inner < index -> reference.scope.labels[inner]? ≠ some symbol.text
  | .name symbol, .local => ∃ locals, reference.scope.locals = some locals ∧
      (symbol.text, index) ∈ locals.space

def Bound (reference : Reference) : Prop := ∃ index, reference.Denotes index

/-- The resolver has a callback that looks the name up: none is called for the
type of a block, and the one for locals does nothing outside functions. -/
def Visited (reference : Reference) : Prop :=
  match reference.site with
  | .entity _ | .label => True
  | .local => reference.scope.locals.isSome
  | .blockType => False

end Reference

namespace Module

/-- No name is bound twice in one index space. -/
def NamesUnique (module : Module) : Prop :=
  (forall space, Unique (module.bindings space)) ∧
    forall func, func ∈ module.funcs -> Unique func.locals.space

/-- No name is bound twice in one table. -/
def TablesUnique (module : Module) : Prop :=
  (forall space, Unique (module.bindings space)) ∧
    forall func, func ∈ module.funcs -> Unique func.paramBindings ∧ Unique func.localBindings

end Module

/-- Resolution is exact: it succeeds on the modules whose names are bound, and
bound once, and leaves the index that each reference stands for. -/
def ResolvesExactly (iteration : IterationOrder) (module : Module) : Prop :=
  let (resolved, errors) := resolveNamesModule iteration module
  (errors = [] ↔ module.NamesUnique ∧
    forall reference, reference ∈ module.references -> reference.Bound) ∧
  (errors = [] -> List.Forall₂
    (fun before after => ∃ index, after.var = .index index ∧ before.Denotes index)
    module.references resolved.references)

/-! ## Lookups -/

theorem findIndex_mem {iteration : IterationOrder} {bindings : BindingHash} {symbol : Symbol}
    {index : Nat} (found : findIndex iteration bindings (.name symbol) = some index) :
    (symbol.text, index) ∈ bindings := by
  rcases List.lookup_eq_some_iff.mp found with ⟨front, back, split, _⟩
  apply (iteration.perm bindings).mem_iff.mp
  rw [split]
  exact List.mem_append_right _ List.mem_cons_self

theorem findIndex_none {iteration : IterationOrder} {bindings : BindingHash} {symbol : Symbol}
    (missing : findIndex iteration bindings (.name symbol) = none) (index : Nat) :
    (symbol.text, index) ∉ bindings := by
  intro member
  have other := List.lookup_eq_none_iff.mp missing _ ((iteration.perm bindings).mem_iff.mpr member)
  simp at other

theorem Locals.getLocalIndex_mem {iteration : IterationOrder} {locals : Locals}
    {symbol : Symbol} {index : Nat}
    (found : locals.getLocalIndex iteration (.name symbol) = some index) :
    (symbol.text, index) ∈ locals.space := by
  unfold Locals.getLocalIndex at found
  cases inParams : findIndex iteration locals.paramBindings (.name symbol) with
  | some position =>
      rw [inParams] at found
      cases found
      exact List.mem_append_left _ (findIndex_mem inParams)
  | none =>
      rw [inParams] at found
      rcases Option.map_eq_some_iff.mp found with ⟨position, inLocals, rfl⟩
      exact List.mem_append_right _ (List.mem_map.mpr ⟨_, findIndex_mem inLocals, rfl⟩)

theorem Locals.getLocalIndex_none {iteration : IterationOrder} {locals : Locals}
    {symbol : Symbol} (missing : locals.getLocalIndex iteration (.name symbol) = none)
    (index : Nat) : (symbol.text, index) ∉ locals.space := by
  unfold Locals.getLocalIndex at missing
  cases inParams : findIndex iteration locals.paramBindings (.name symbol) with
  | some position =>
      rw [inParams] at missing
      cases missing
  | none =>
      rw [inParams, Option.map_eq_none_iff] at missing
      intro member
      rcases List.mem_append.mp member with isParam | isLocal
      · exact findIndex_none inParams index isParam
      · rcases List.mem_map.mp isLocal with ⟨⟨name, position⟩, present, same⟩
        cases same
        exact findIndex_none missing position present

/-! ## One reference -/

namespace Reference

/-- What the resolver's lookup gives for a name. -/
def found (iteration : IterationOrder) (reference : Reference) (symbol : Symbol) : Option Nat :=
  match reference.site with
  | .entity space => findIndex iteration (reference.scope.bindings space) (.name symbol)
  | .blockType => none
  | .label => reference.scope.labels.findIdx? fun label => label = symbol.text
  | .local => reference.scope.locals.bind fun locals =>
      locals.getLocalIndex iteration (.name symbol)

/-- The word for the index space in an error. -/
def desc (reference : Reference) : String :=
  match reference.site with
  | .entity .func => "function"
  | .entity .funcType | .blockType => "function type"
  | .entity .table => "table"
  | .entity .memory => "memory"
  | .entity .global => "global"
  | .entity .except => "exception"
  | .label => "label"
  | .local => "local"

instance (reference : Reference) : Decidable reference.Visited := by
  unfold Visited
  split <;> infer_instance

/-- What becomes of the `Var`, and the errors that are reported for it. -/
def outcome (iteration : IterationOrder) (reference : Reference) : Var × List Error :=
  match reference.var with
  | .index index => (.index index, [])
  | .name symbol =>
      match reference.found iteration symbol with
      | some index => (.index index, [])
      | none =>
          (.name symbol, if reference.Visited then [.undefined reference.desc symbol.text] else [])

def resolve (iteration : IterationOrder) (reference : Reference) : Reference :=
  { reference with var := (reference.outcome iteration).1 }

def errors (iteration : IterationOrder) (reference : Reference) : List Error :=
  (reference.outcome iteration).2

theorem found_denotes {iteration : IterationOrder} {reference : Reference} {symbol : Symbol}
    (named : reference.var = .name symbol) {index : Nat}
    (present : reference.found iteration symbol = some index) : reference.Denotes index := by
  rcases reference with ⟨scope, site, var⟩
  subst named
  cases site with
  | entity space => exact findIndex_mem present
  | blockType => exact nomatch present
  | label =>
      rcases List.findIdx?_eq_some_iff_getElem.mp present with ⟨inside, same, inner⟩
      refine ⟨?_, fun position below => ?_⟩
      · rw [List.getElem?_eq_getElem inside, of_decide_eq_true same]
      · intro found
        rcases List.getElem?_eq_some_iff.mp found with ⟨_, equal⟩
        exact absurd (inner position below) (by simp [equal])
  | «local» =>
      rcases Option.bind_eq_some_iff.mp present with ⟨locals, here, found⟩
      exact ⟨locals, here, Locals.getLocalIndex_mem found⟩

theorem not_bound {iteration : IterationOrder} {reference : Reference} {symbol : Symbol}
    (named : reference.var = .name symbol) (visited : reference.Visited)
    (missing : reference.found iteration symbol = none) : ¬reference.Bound := by
  rcases reference with ⟨scope, site, var⟩
  subst named
  rintro ⟨index, denotes⟩
  cases site with
  | entity space => exact findIndex_none missing index denotes
  | blockType => exact visited
  | label =>
      rcases List.getElem?_eq_some_iff.mp denotes.1 with ⟨inside, same⟩
      have other := List.findIdx?_eq_none_iff.mp missing _ (List.getElem_mem inside)
      simp [same] at other
  | «local» =>
      rcases denotes with ⟨locals, here, member⟩
      change scope.locals = some locals at here
      simp only [found, here, Option.bind_some] at missing
      exact Locals.getLocalIndex_none missing index member

/-- A reference passes when it is bound or not looked at. -/
theorem errors_eq_nil_iff {iteration : IterationOrder} {reference : Reference} :
    reference.errors iteration = [] ↔ (reference.Visited -> reference.Bound) := by
  unfold errors outcome
  cases named : reference.var with
  | index index =>
      refine ⟨fun _ _ => ⟨index, ?_⟩, fun _ => rfl⟩
      simp only [Denotes, named]
  | name symbol =>
      simp only
      cases present : reference.found iteration symbol with
      | some index => exact ⟨fun _ _ => ⟨index, found_denotes named present⟩, fun _ => rfl⟩
      | none =>
          by_cases visited : reference.Visited
          · simp only [visited, forall_const]
            exact ⟨nofun, fun bound => absurd bound (not_bound named visited present)⟩
          · simp only [if_neg visited, true_iff]
            exact fun here => absurd here visited

/-- A reference that passes has become its index, unless nothing looked at it. -/
theorem resolve_denotes {iteration : IterationOrder} {reference : Reference}
    (passes : reference.errors iteration = [])
    (looked : reference.Visited ∨ ∃ index, reference.var = .index index) :
    ∃ index, (reference.resolve iteration).var = .index index ∧ reference.Denotes index := by
  cases named : reference.var with
  | index index =>
      refine ⟨index, by simp only [resolve, outcome, named], ?_⟩
      simp only [Denotes, named]
  | name symbol =>
      have visited : reference.Visited := looked.resolve_right fun ⟨index, same⟩ => by
        rw [named] at same
        cases same
      cases present : reference.found iteration symbol with
      | some index =>
          refine ⟨index, ?_, found_denotes named present⟩
          simp only [resolve, outcome, named, present]
      | none =>
          exact absurd (errors_eq_nil_iff.mp passes visited) (not_bound named visited present)

/-- A name that is not looked at stays. -/
theorem resolve_of_not_visited {iteration : IterationOrder} {reference : Reference}
    {symbol : Symbol} (named : reference.var = .name symbol) (passed : ¬reference.Visited) :
    (reference.resolve iteration).var = .name symbol := by
  have missing : reference.found iteration symbol = none := by
    rcases reference with ⟨scope, site, var⟩
    cases site with
    | entity space => exact absurd trivial passed
    | label => exact absurd trivial passed
    | blockType => rfl
    | «local» =>
        cases here : scope.locals with
        | none => simp only [found, here, Option.bind_none]
        | some locals => exact absurd (by simp only [Visited, here, Option.isSome_some]) passed
  simp only [resolve, outcome, named, missing]

end Reference

/-! ## The resolver, part by part -/

namespace NameResolver

variable {iteration : IterationOrder} {Part Item : Type}

def report (resolver : NameResolver) (errors : List Error) : NameResolver :=
  { resolver with errors := resolver.errors ++ errors }

@[simp] theorem report_labels (resolver : NameResolver) (errors : List Error) :
    (resolver.report errors).labels = resolver.labels := rfl

@[simp] theorem report_nil (resolver : NameResolver) : resolver.report [] = resolver := by
  simp [report]

@[simp] theorem report_report (resolver : NameResolver) (first second : List Error) :
    (resolver.report first).report second = resolver.report (first ++ second) := by
  simp [report]

/-- Under the given labels, the action resolves each reference of the part and
reports the given errors, and nothing else changes. -/
def Follows (iteration : IterationOrder) (labels : List Name)
    (references : Part -> List Reference) (errors : List Error) (part : Part)
    (action : StateM NameResolver Part) : Prop :=
  forall resolver, resolver.labels = labels ->
    references (action resolver).1 = (references part).map (Reference.resolve iteration) ∧
      (action resolver).2 = resolver.report errors

theorem Follows.labels {labels : List Name} {references : Part -> List Reference}
    {errors : List Error} {part : Part} {action : StateM NameResolver Part}
    (follows : Follows iteration labels references errors part action) {resolver : NameResolver}
    (same : resolver.labels = labels) : (action resolver).2.labels = labels := by
  rw [(follows resolver same).2, report_labels, same]

/-- What is reported for references. -/
def errorsOf (iteration : IterationOrder) (references : List Reference) : List Error :=
  references.flatMap (Reference.errors iteration)

theorem errorsOf_append (first second : List Reference) :
    errorsOf iteration (first ++ second) =
      errorsOf iteration first ++ errorsOf iteration second :=
  List.flatMap_append

/-- A single `Var`. -/
def Settles (iteration : IterationOrder) (scope : Scope) (site : Site) (var : Var)
    (action : StateM NameResolver Var) : Prop :=
  forall resolver, resolver.labels = scope.labels ->
    action resolver = ((Reference.resolve iteration ⟨scope, site, var⟩).var,
      resolver.report (Reference.errors iteration ⟨scope, site, var⟩))

theorem resolveVar_settles (scope : Scope) (space : Space) (var : Var) :
    Settles iteration scope (.entity space) var (resolveVar iteration (scope.bindings space)
      (Reference.desc ⟨scope, .entity space, var⟩) var) := by
  intro resolver _
  cases var with
  | index index => exact congrArg (Prod.mk _) (report_nil resolver).symm
  | name symbol =>
      have visited : Reference.Visited ⟨scope, .entity space, .name symbol⟩ := trivial
      cases found : findIndex iteration (scope.bindings space) (.name symbol) with
      | some index =>
          simp only [resolveVar, Reference.resolve, Reference.errors, Reference.outcome,
            Reference.found, found, setIndex]
          exact congrArg (Prod.mk _) (report_nil resolver).symm
      | none =>
          simp only [resolveVar, Reference.resolve, Reference.errors, Reference.outcome,
            Reference.found, found, setIndex, if_pos visited]
          rfl

theorem resolveLabelVar_settles (scope : Scope) (var : Var) :
    Settles iteration scope .label var (resolveLabelVar var) := by
  intro resolver same
  cases var with
  | index index => exact congrArg (Prod.mk _) (report_nil resolver).symm
  | name symbol =>
      have visited : Reference.Visited ⟨scope, .label, .name symbol⟩ := trivial
      change setIndex symbol "label"
        (resolver.labels.findIdx? fun label => label = symbol.text) resolver = _
      rw [same]
      cases found : scope.labels.findIdx? fun label => label = symbol.text with
      | some index =>
          simp only [Reference.resolve, Reference.errors, Reference.outcome, Reference.found, found,
            setIndex]
          exact congrArg (Prod.mk _) (report_nil resolver).symm
      | none =>
          simp only [Reference.resolve, Reference.errors, Reference.outcome, Reference.found, found,
            setIndex, if_pos visited]
          rfl

theorem resolveLocalVar_settles (scope : Scope) (var : Var) :
    Settles iteration scope .local var (resolveLocalVar iteration scope.locals var) := by
  intro resolver _
  cases var with
  | index index => exact congrArg (Prod.mk _) (report_nil resolver).symm
  | name symbol =>
      cases here : scope.locals with
      | none =>
          have passed : ¬Reference.Visited ⟨scope, .local, .name symbol⟩ := by
            simp [Reference.Visited, here]
          simp only [resolveLocalVar, Reference.resolve, Reference.errors, Reference.outcome,
            Reference.found, here, Option.bind_none, if_neg passed]
          exact congrArg (Prod.mk _) (report_nil resolver).symm
      | some locals =>
          have visited : Reference.Visited ⟨scope, .local, .name symbol⟩ := by
            simp [Reference.Visited, here]
          cases found : locals.getLocalIndex iteration (.name symbol) with
          | some index =>
              simp only [resolveLocalVar, Reference.resolve, Reference.errors, Reference.outcome,
                Reference.found, here, Option.bind_some, found, setIndex]
              exact congrArg (Prod.mk _) (report_nil resolver).symm
          | none =>
              simp only [resolveLocalVar, Reference.resolve, Reference.errors, Reference.outcome,
                Reference.found, here, Option.bind_some, found, setIndex, if_pos visited]
              rfl

theorem Settles.follows {scope : Scope} {site : Site} {var : Var}
    {action : StateM NameResolver Var} (settles : Settles iteration scope site var action)
    {references : Part -> List Reference} (build : Var -> Part)
    (single : forall var, references (build var) = [⟨scope, site, var⟩]) :
    Follows iteration scope.labels references
      (errorsOf iteration (references (build var))) (build var)
      (do return build (<- action)) := by
  intro resolver same
  change references (build (action resolver).1) = _ ∧ (action resolver).2 = _
  rw [settles resolver same, single, single]
  exact ⟨rfl, by rw [errorsOf, List.flatMap_singleton]⟩

theorem Follows.mapM {labels : List Name} {references : Item -> List Reference}
    {errors : Item -> List Error} {action : Item -> StateM NameResolver Item}
    {items : List Item} (each : forall item, item ∈ items ->
      Follows iteration labels references (errors item) item (action item)) :
    Follows iteration labels (fun items => items.flatMap references) (items.flatMap errors)
      items (items.mapM action) := by
  induction items with
  | nil =>
      intro resolver _
      exact ⟨rfl, (report_nil resolver).symm⟩
  | cons item rest inductionHypothesis =>
      intro resolver same
      rcases each item List.mem_cons_self resolver same with ⟨headReferences, headState⟩
      have restFollows := inductionHypothesis
        (fun other member => each other (List.mem_cons_of_mem _ member))
        (action item resolver).2 (by rw [headState, report_labels, same])
      rcases restFollows with ⟨restReferences, restState⟩
      rw [List.mapM_cons]
      refine ⟨?_, ?_⟩
      · change (((action item resolver).1 ::
          (rest.mapM action (action item resolver).2).1).flatMap references) =
            ((item :: rest).flatMap references).map (Reference.resolve iteration)
        dsimp only at restReferences
        rw [List.flatMap_cons, headReferences, restReferences, List.flatMap_cons, List.map_append]
      · change (rest.mapM action (action item resolver).2).2 = _
        rw [restState, headState, report_report, List.flatMap_cons]

theorem Settles.follows_self {scope : Scope} {site : Site} {var : Var}
    {action : StateM NameResolver Var} (settles : Settles iteration scope site var action) :
    Follows iteration scope.labels (fun var => [⟨scope, site, var⟩])
      (errorsOf iteration [⟨scope, site, var⟩]) var action := by
  intro resolver same
  rw [settles resolver same]
  exact ⟨rfl, by rw [errorsOf, List.flatMap_singleton]⟩

/-- The targets of a branch table, and other lists of references of one kind. -/
theorem vars_follow {scope : Scope} {site : Site} {action : Var -> StateM NameResolver Var}
    (settles : forall var, Settles iteration scope site var (action var)) (vars : List Var) :
    Follows iteration scope.labels
      (fun vars => scope.references (vars.map fun var => (site, var)))
      (errorsOf iteration (scope.references (vars.map fun var => (site, var))))
      vars (vars.mapM action) := by
  have spread : forall vars : List Var, scope.references (vars.map fun var => (site, var)) =
      vars.flatMap fun var => [⟨scope, site, var⟩] := by
    intro vars
    rw [Scope.references, List.map_map, List.map_eq_flatMap]
    rfl
  have single := Follows.mapM fun var (_ : var ∈ vars) => (settles var).follows_self
  simp only [spread, errorsOf, List.flatMap_assoc]
  exact single

theorem resolveDecl_follows (scope : Scope) (decl : FuncDeclaration) :
    Follows iteration scope.labels
      (fun decl => scope.references (decl.vars (.entity .funcType)))
      (errorsOf iteration (scope.references (decl.vars (.entity .funcType))))
      decl (resolveDecl iteration scope.bindings decl) := by
  rcases decl with ⟨typeVar, paramTypes⟩
  cases typeVar with
  | none =>
      intro resolver _
      exact ⟨rfl, (report_nil resolver).symm⟩
  | some var =>
      exact (resolveVar_settles scope .funcType var).follows
        (fun var => FuncDeclaration.mk (some var) paramTypes) fun _ => rfl

theorem onInstr_follows (scope : Scope) (instr : Instr) :
    Follows iteration scope.labels (fun instr => scope.references instr.vars)
      (errorsOf iteration (scope.references instr.vars)) instr
      (onInstr iteration scope.bindings scope.locals instr) := by
  cases instr with
  | plain type =>
      intro resolver _
      exact ⟨rfl, (report_nil resolver).symm⟩
  | br var => exact (resolveLabelVar_settles scope var).follows Instr.br fun _ => rfl
  | brIf var => exact (resolveLabelVar_settles scope var).follows Instr.brIf fun _ => rfl
  | brTable targets defaultTarget =>
      intro resolver same
      rcases vars_follow (@resolveLabelVar_settles iteration scope) targets resolver
        same with ⟨targetReferences, targetState⟩
      have last := (@resolveLabelVar_settles iteration scope defaultTarget).follows_self
        (targets.mapM resolveLabelVar resolver).2 (by rw [targetState, report_labels, same])
      rcases last with ⟨lastReferences, lastState⟩
      have spread : forall (targets : List Var) (var : Var),
          scope.references (Instr.brTable targets var).vars =
            scope.references (targets.map fun var => (.label, var)) ++ [⟨scope, .label, var⟩] := by
        intro targets var
        simp [Instr.vars, Scope.references]
      refine ⟨?_, ?_⟩
      · change scope.references (Instr.brTable (targets.mapM resolveLabelVar resolver).1
          (resolveLabelVar defaultTarget (targets.mapM resolveLabelVar resolver).2).1).vars =
            (scope.references (Instr.brTable targets defaultTarget).vars).map
              (Reference.resolve iteration)
        rw [spread, spread, List.map_append, ← targetReferences]
        exact congrArg _ lastReferences
      · change (resolveLabelVar defaultTarget (targets.mapM resolveLabelVar resolver).2).2 = _
        rw [spread, errorsOf_append, ← report_report, ← targetState]
        exact lastState
  | call var => exact (resolveVar_settles scope .func var).follows Instr.call fun _ => rfl
  | callIndirect decl => exact resolveDecl_follows scope decl
  | getGlobal var =>
      exact (resolveVar_settles scope .global var).follows Instr.getGlobal fun _ => rfl
  | setGlobal var =>
      exact (resolveVar_settles scope .global var).follows Instr.setGlobal fun _ => rfl
  | getLocal var => exact (resolveLocalVar_settles scope var).follows Instr.getLocal fun _ => rfl
  | setLocal var => exact (resolveLocalVar_settles scope var).follows Instr.setLocal fun _ => rfl
  | teeLocal var => exact (resolveLocalVar_settles scope var).follows Instr.teeLocal fun _ => rfl
  | throw var => exact (resolveVar_settles scope .except var).follows Instr.throw fun _ => rfl

theorem beginArms_follows (scope : Scope) (type : ArmsType) (block : Block)
    {resolver : NameResolver} (same : resolver.labels = scope.labels) :
    ∃ after, beginArms iteration scope.bindings type block resolver =
        ((after, block), { resolver with
          labels := block.label :: scope.labels
          errors := resolver.errors ++ errorsOf iteration (scope.references type.vars) }) ∧
      scope.references after.vars =
        (scope.references type.vars).map (Reference.resolve iteration) := by
  rw [← same]
  have entered : forall errors : List Error, errors = [] ->
      ({ resolver with labels := block.label :: resolver.labels } : NameResolver) =
        { resolver with
          labels := block.label :: resolver.labels
          errors := resolver.errors ++ errors } := by
    rintro errors rfl
    rw [List.append_nil]
  cases type with
  | ite => exact ⟨.ite, congrArg (Prod.mk _) (entered _ rfl), rfl⟩
  | tryCatch => exact ⟨.tryCatch, congrArg (Prod.mk _) (entered _ rfl), rfl⟩
  | ifExcept exceptVar =>
      let inner : Scope := scope.push block.label
      have settled := @resolveVar_settles iteration inner .except exceptVar
        { resolver with labels := block.label :: resolver.labels } (by rw [same]; rfl)
      refine ⟨.ifExcept (Reference.resolve iteration ⟨inner, .entity .except, exceptVar⟩).var,
        ?_, rfl⟩
      change ((ArmsType.ifExcept (resolveVar iteration (scope.bindings .except) "exception"
        exceptVar _).1, block), (resolveVar iteration (scope.bindings .except) "exception"
          exceptVar _).2) = _
      rw [show resolveVar iteration (scope.bindings .except) "exception" exceptVar
        { resolver with labels := block.label :: resolver.labels } = _ from settled]
      have one : errorsOf iteration (scope.references (ArmsType.ifExcept exceptVar).vars) =
          Reference.errors iteration ⟨inner, .entity .except, exceptVar⟩ :=
        List.flatMap_singleton _ _
      rw [one]
      rfl

/-- No callback is called for the type of a block. -/
theorem blockType_unchanged (scope : Scope) (decl : FuncDeclaration) :
    (scope.references (decl.vars .blockType)).map (Reference.resolve iteration) =
        scope.references (decl.vars .blockType) ∧
      errorsOf iteration (scope.references (decl.vars .blockType)) = [] := by
  rcases decl with ⟨typeVar | var, paramTypes⟩
  · exact ⟨rfl, rfl⟩
  · cases var with
    | index index => exact ⟨rfl, rfl⟩
    | name symbol =>
        have passed : ¬Reference.Visited ⟨scope, .blockType, .name symbol⟩ := id
        constructor
        · rfl
        · simp [FuncDeclaration.vars, Scope.references, errorsOf, Reference.errors,
            Reference.outcome, Reference.found, passed]

/-- The visitor keeps the labels in step with the blocks that enclose it. -/
theorem exprVisitor_follows (bindings : Space -> BindingHash) (locals : Option Locals)
    (exprs : ExprList) : forall (labels : List Name) (resolver : NameResolver),
      resolver.labels = labels -> ∃ after,
        ExprVisitor.visitExprList (delegate iteration bindings locals) exprs resolver =
          (true, after, resolver.report
            (errorsOf iteration (exprs.references ⟨bindings, locals, labels⟩))) ∧
        after.references ⟨bindings, locals, labels⟩ =
          (exprs.references ⟨bindings, locals, labels⟩).map (Reference.resolve iteration) := by
  induction exprs with
  | nil =>
      intro labels resolver _
      exact ⟨.nil, by rw [ExprList.references, errorsOf, List.flatMap_nil, report_nil]; rfl, rfl⟩
  | instr first rest restHypothesis =>
      intro labels resolver same
      rcases @onInstr_follows iteration ⟨bindings, locals, labels⟩ first resolver
        same with ⟨firstReferences, firstState⟩
      rcases restHypothesis labels (resolver.report _) same with
        ⟨restAfter, restVisit, restReferences⟩
      refine ⟨.instr (onInstr iteration bindings locals first resolver).1 restAfter, ?_, ?_⟩
      · rw [report_report, ← errorsOf_append] at restVisit
        have begun : (delegate iteration bindings locals).onInstr first resolver =
            (true, (onInstr iteration bindings locals first resolver).1, resolver.report _) :=
          congrArg (fun state => (true, _, state)) firstState
        exact Visit.map_of (Visit.check_of begun restVisit)
      · rw [ExprList.references, ExprList.references, restReferences, List.map_append]
        exact congrArg (· ++ _) firstReferences
  | body type block exprs rest exprsHypothesis restHypothesis =>
      intro labels resolver same
      rcases exprsHypothesis (block.label :: labels)
        { resolver with labels := block.label :: resolver.labels } (by rw [same]) with
        ⟨exprsAfter, exprsVisit, exprsReferences⟩
      let inner : Scope := ⟨bindings, locals, block.label :: labels⟩
      rcases restHypothesis labels (resolver.report (errorsOf iteration (exprs.references inner)))
        (by rw [report_labels, same]) with ⟨restAfter, restVisit, restReferences⟩
      have unchanged := @blockType_unchanged iteration
        ⟨bindings, locals, labels⟩ block.decl
      have entered : (delegate iteration bindings locals).beginBody type block resolver =
        (true, block, { resolver with labels := block.label :: resolver.labels }) := rfl
      have left : (delegate iteration bindings locals).endExpr
        ({ resolver with labels := block.label :: resolver.labels }.report
          (errorsOf iteration (exprs.references inner))) =
        (true, (), resolver.report (errorsOf iteration (exprs.references inner))) := rfl
      refine ⟨.body type block exprsAfter restAfter, ?_, ?_⟩
      · rw [ExprList.references, errorsOf_append, errorsOf_append, unchanged.2, List.nil_append,
          ← report_report]
        exact Visit.map_of (Visit.check_of entered (Visit.check_of exprsVisit
          (Visit.map_of (Visit.check_of left restVisit))))
      · rw [ExprList.references, ExprList.references, restReferences, List.map_append,
          List.map_append, unchanged.1]
        exact congrArg (_ ++ · ++ _) exprsReferences
  | arms type block first second rest firstHypothesis secondHypothesis restHypothesis =>
      intro labels resolver same
      let outer : Scope := ⟨bindings, locals, labels⟩
      let inner : Scope := ⟨bindings, locals, block.label :: labels⟩
      rcases @beginArms_follows iteration outer type block resolver same with
        ⟨typeAfter, typeVisit, typeReferences⟩
      generalize entered : NameResolver.mk (block.label :: labels)
        (resolver.errors ++ errorsOf iteration (outer.references type.vars)) = start at typeVisit
      have startLabels : start.labels = block.label :: labels := by rw [← entered]
      rcases firstHypothesis (block.label :: labels) start startLabels with
        ⟨firstAfter, firstVisit, firstReferences⟩
      rcases secondHypothesis (block.label :: labels)
        (start.report (errorsOf iteration (first.references inner)))
        startLabels with ⟨secondAfter, secondVisit, secondReferences⟩
      rcases restHypothesis labels (resolver.report (errorsOf iteration
          (outer.references type.vars) ++ errorsOf iteration (first.references inner) ++
            errorsOf iteration (second.references inner)))
        same with ⟨restAfter, restVisit, restReferences⟩
      have unchanged := @blockType_unchanged iteration outer block.decl
      have begun : (delegate iteration bindings locals).beginArms type block resolver =
          (true, (typeAfter, block), start) := by
        rw [← typeVisit]
        rfl
      have left : (delegate iteration bindings locals).endExpr
          ((start.report (errorsOf iteration (first.references inner))).report
            (errorsOf iteration (second.references inner))) =
          (true, (), resolver.report (errorsOf iteration (outer.references type.vars) ++
            errorsOf iteration (first.references inner) ++
              errorsOf iteration (second.references inner))) := by
        rw [← entered, report, report, report, ← same]
        simp only [List.append_assoc]
        rfl
      have split : forall (type : ArmsType) (decl : FuncDeclaration),
          outer.references (type.vars ++ decl.vars .blockType) =
            outer.references type.vars ++ outer.references (decl.vars .blockType) := fun _ _ =>
        List.map_append
      refine ⟨.arms typeAfter block firstAfter secondAfter restAfter, ?_, ?_⟩
      · rw [ExprList.references, split]
        rw [report_report] at restVisit
        simp only [errorsOf_append, unchanged.2, List.append_nil]
        exact Visit.map_of (Visit.check_of begun (Visit.check_of firstVisit
          (Visit.check_of secondVisit (Visit.map_of (Visit.check_of left restVisit)))))
      · rw [ExprList.references, ExprList.references, restReferences, split, split, typeReferences]
        simp only [List.map_append, unchanged.1]
        exact congrArg (· ++ _) (congr (congrArg _ (congrArg _ firstReferences)) secondReferences)

theorem visitExprList_follows (scope : Scope) (exprs : ExprList) :
    Follows iteration scope.labels (fun exprs => exprs.references scope)
      (errorsOf iteration (exprs.references scope)) exprs
      (visitExprList iteration scope.bindings scope.locals exprs) := by
  intro resolver same
  rcases @exprVisitor_follows iteration scope.bindings scope.locals exprs
    scope.labels resolver same with ⟨after, visit, references⟩
  constructor
  · rw [visitExprList, visit]
    exact references
  · rw [visitExprList, visit]

/-- The errors of one table. -/
def bindingErrors (bindings : BindingHash) (desc : String) : List Error :=
  (findDuplicates bindings).map fun name => .redefinition desc name

theorem checkDuplicateBindings_eq (bindings : BindingHash) (desc : String)
    (resolver : NameResolver) :
    checkDuplicateBindings bindings desc resolver =
      ((), resolver.report (bindingErrors bindings desc)) := by
  unfold checkDuplicateBindings bindingErrors
  generalize findDuplicates bindings = names
  induction names generalizing resolver with
  | nil => exact congrArg (Prod.mk ()) (report_nil resolver).symm
  | cons name rest inductionHypothesis =>
      change rest.forM (fun name => printError (.redefinition desc name))
        (resolver.report [.redefinition desc name]) = _
      rw [inductionHypothesis, report_report]
      rfl

def funcErrors (iteration : IterationOrder) (module : Module) (func : Func) : List Error :=
  let scope := { module.scope with locals := some func.locals }
  errorsOf iteration (scope.references (func.decl.vars (.entity .funcType))) ++
    bindingErrors func.paramBindings "parameter" ++ bindingErrors func.localBindings "local" ++
    errorsOf iteration (func.exprs.references scope)

theorem visitFunc_follows (module : Module) (func : Func) :
    Follows iteration [] module.funcReferences (funcErrors iteration module func) func
      (visitFunc iteration module.bindings func) := by
  intro resolver same
  let scope : Scope := { module.scope with locals := some func.locals }
  have params : forall (decl : FuncDeclaration) (resolver : NameResolver),
      (resolveDecl iteration module.bindings decl resolver).1.paramTypes = decl.paramTypes := by
    rintro ⟨_ | var, paramTypes⟩ resolver <;> rfl
  rcases @resolveDecl_follows iteration scope func.decl resolver same with
    ⟨declReferences, declState⟩
  let entered := (checkDuplicateBindings func.localBindings "local"
    (checkDuplicateBindings func.paramBindings "parameter"
      (resolveDecl iteration module.bindings func.decl resolver).2).2).2
  have enteredState : entered = resolver.report
      (errorsOf iteration (scope.references (func.decl.vars (.entity .funcType))) ++
        (bindingErrors func.paramBindings "parameter" ++
          bindingErrors func.localBindings "local")) := by
    simp only [entered, checkDuplicateBindings_eq, report_report]
    rw [show (resolveDecl iteration module.bindings func.decl resolver).2 = _ from declState,
      report_report]
  rcases @visitExprList_follows iteration scope func.exprs entered
    (by rw [enteredState, report_labels, same]; rfl) with ⟨bodyReferences, bodyState⟩
  constructor
  · change Module.funcReferences module
      { func with
        decl := (resolveDecl iteration module.bindings func.decl resolver).1
        exprs := (visitExprList iteration module.bindings (some func.locals) func.exprs
          entered).1 } = _
    simp only [Module.funcReferences, Func.locals, params, List.map_append]
    exact congr (congrArg _ declReferences) bodyReferences
  · change (visitExprList iteration module.bindings (some func.locals) func.exprs entered).2 = _
    rw [funcErrors, ← report_report]
    rw [show resolver.report _ = entered by rw [enteredState, List.append_assoc]]
    exact bodyState

theorem visitExport_follows (module : Module) (item : Export) :
    Follows iteration [] module.exportReferences (errorsOf iteration (module.exportReferences item))
      item (visitExport iteration module.bindings item) := by
  rcases item with ⟨kind, var⟩
  cases kind with
  | func => exact (resolveVar_settles module.scope .func var).follows (Export.mk .func) fun _ => rfl
  | table =>
      exact (resolveVar_settles module.scope .table var).follows (Export.mk .table) fun _ => rfl
  | memory =>
      exact (resolveVar_settles module.scope .memory var).follows (Export.mk .memory) fun _ => rfl
  | global =>
      exact (resolveVar_settles module.scope .global var).follows (Export.mk .global) fun _ => rfl
  | except =>
      exact (resolveVar_settles module.scope .except var).follows (Export.mk .except) fun _ => rfl

/-- A segment is a reference, an offset and a list. -/
theorem visitElemSegment_follows (module : Module) (segment : ElemSegment) :
    Follows iteration [] module.elemReferences (errorsOf iteration (module.elemReferences segment))
      segment (visitElemSegment iteration module.bindings segment) := by
  intro resolver same
  have table := @resolveVar_settles iteration module.scope .table segment.tableVar
    resolver same
  rcases @visitExprList_follows iteration module.scope segment.offset
    (resolveTableVar iteration module.bindings segment.tableVar resolver).2
    ((congrArg (fun result => result.2.labels) table).trans same) with
    ⟨offsetReferences, offsetState⟩
  have tableState : (resolveTableVar iteration module.bindings segment.tableVar resolver).2 =
      resolver.report (errorsOf iteration
        (module.scope.references [(.entity .table, segment.tableVar)])) := by
    rw [show resolveTableVar iteration module.bindings segment.tableVar resolver = _ from table,
      errorsOf, Scope.references, List.map_singleton, List.flatMap_singleton]
  rcases vars_follow (@resolveVar_settles iteration module.scope .func) segment.vars
    (visitExprList iteration module.bindings none segment.offset
      (resolveTableVar iteration module.bindings segment.tableVar resolver).2).2
    ((congrArg NameResolver.labels offsetState).trans
      ((congrArg (fun result => result.2.labels) table).trans same)) with
    ⟨varsReferences, varsState⟩
  constructor
  · simp only [Module.elemReferences, List.map_append]
    refine congr (congrArg _ (congr (congrArg _ ?_) offsetReferences)) varsReferences
    exact congrArg (fun result => [(⟨module.scope, .entity .table, result.1⟩ : Reference)]) table
  · refine varsState.trans ?_
    rw [show (visitExprList iteration module.bindings none segment.offset _).2 = _ from offsetState,
      tableState, report_report, report_report, ← errorsOf_append, ← errorsOf_append]
    rfl

theorem visitDataSegment_follows (module : Module) (segment : DataSegment) :
    Follows iteration [] module.dataReferences (errorsOf iteration (module.dataReferences segment))
      segment (visitDataSegment iteration module.bindings segment) := by
  intro resolver same
  have memory := @resolveVar_settles iteration module.scope .memory segment.memoryVar
    resolver same
  rcases @visitExprList_follows iteration module.scope segment.offset
    (resolveMemoryVar iteration module.bindings segment.memoryVar resolver).2
    ((congrArg (fun result => result.2.labels) memory).trans same) with
    ⟨offsetReferences, offsetState⟩
  constructor
  · simp only [Module.dataReferences, List.map_append]
    refine congr (congrArg _ ?_) offsetReferences
    exact congrArg (fun result => [(⟨module.scope, .entity .memory, result.1⟩ : Reference)]) memory
  · refine offsetState.trans ?_
    rw [show resolveMemoryVar iteration module.bindings segment.memoryVar resolver = _ from memory,
      report_report, Module.dataReferences, errorsOf_append]
    congr 2
    rw [errorsOf, Scope.references, List.map_singleton, List.flatMap_singleton]

theorem visitGlobal_follows (module : Module) (initExpr : ExprList) :
    Follows iteration [] (fun initExpr => initExpr.references module.scope)
      (errorsOf iteration (initExpr.references module.scope)) initExpr
      (visitGlobal iteration module.bindings initExpr) :=
  visitExprList_follows module.scope initExpr

/-- The errors of the tables of the module. -/
def spaceErrors (bindings : Space -> BindingHash) : List Error :=
  bindingErrors (bindings .func) "function" ++ bindingErrors (bindings .global) "global" ++
    bindingErrors (bindings .funcType) "function type" ++
    bindingErrors (bindings .table) "table" ++ bindingErrors (bindings .memory) "memory" ++
    bindingErrors (bindings .except) "except"

/-- The errors of the whole module, in the order of the visit. -/
def moduleErrors (iteration : IterationOrder) (module : Module) : List Error :=
  spaceErrors module.bindings ++ module.funcs.flatMap (funcErrors iteration module) ++
    module.exports.flatMap (fun item => errorsOf iteration (module.exportReferences item)) ++
    module.globals.flatMap
      (fun initExpr => errorsOf iteration (initExpr.references module.scope)) ++
    module.elemSegments.flatMap
      (fun segment => errorsOf iteration (module.elemReferences segment)) ++
    module.dataSegments.flatMap
      (fun segment => errorsOf iteration (module.dataReferences segment)) ++
    errorsOf iteration (module.scope.references (module.starts.map fun var => (.entity .func, var)))

theorem checkSpaces_eq (bindings : Space -> BindingHash) (resolver : NameResolver) :
    checkSpaces bindings resolver =
      ((), resolver.report (spaceErrors bindings)) := by
  change checkDuplicateBindings (bindings .except) "except"
    (checkDuplicateBindings (bindings .memory) "memory"
      (checkDuplicateBindings (bindings .table) "table"
        (checkDuplicateBindings (bindings .funcType) "function type"
          (checkDuplicateBindings (bindings .global) "global"
            (checkDuplicateBindings (bindings .func) "function" resolver).2).2).2).2).2 = _
  simp only [checkDuplicateBindings_eq, report_report, spaceErrors, List.append_assoc]

theorem visitModule_follows (module : Module) :
    Follows iteration [] Module.references (moduleErrors iteration module) module
      (visitModule iteration module) := by
  intro resolver same
  have funcs := Follows.mapM (fun func (_ : func ∈ module.funcs) =>
    @visitFunc_follows iteration module func)
  have exports := Follows.mapM (fun item (_ : item ∈ module.exports) =>
    @visitExport_follows iteration module item)
  have globals := Follows.mapM
    (fun initExpr (_ : initExpr ∈ module.globals) => @visitGlobal_follows iteration module initExpr)
  have elems := Follows.mapM
    (fun segment (_ : segment ∈ module.elemSegments) =>
      @visitElemSegment_follows iteration module segment)
  have datas := Follows.mapM
    (fun segment (_ : segment ∈ module.dataSegments) =>
      @visitDataSegment_follows iteration module segment)
  have starts := vars_follow (@resolveVar_settles iteration module.scope .func)
    module.starts
  have begun : (resolver.report (spaceErrors module.bindings)).labels = [] := same
  rcases funcs _ begun with ⟨funcReferences, funcState⟩
  rcases exports _ (funcs.labels begun) with ⟨exportReferences, exportState⟩
  rcases globals _ (exports.labels (funcs.labels begun)) with ⟨globalReferences, globalState⟩
  rcases elems _ (globals.labels (exports.labels (funcs.labels begun))) with
    ⟨elemReferences, elemState⟩
  rcases datas _ (elems.labels (globals.labels (exports.labels (funcs.labels begun)))) with
    ⟨dataReferences, dataState⟩
  rcases starts _ (datas.labels (elems.labels (globals.labels (exports.labels
    (funcs.labels begun))))) with ⟨startReferences, startState⟩
  have checked := checkSpaces_eq module.bindings resolver
  constructor
  · simp only [Module.references, List.map_append, ← funcReferences, ← exportReferences,
      ← globalReferences, ← elemReferences, ← dataReferences]
    simp only [visitModule, bind, StateT.bind, checked]
    rw [← startReferences]
    rfl
  · simp only [visitModule, bind, StateT.bind, checked]
    refine startState.trans ?_
    rw [dataState, elemState, globalState, exportState, funcState]
    simp only [report_report, moduleErrors, List.append_assoc]

theorem later_eq_nil_iff (seen names : List Name) :
    findDuplicates.later seen names = [] ↔
      names.Nodup ∧ forall name, name ∈ names -> name ∉ seen := by
  induction names generalizing seen with
  | nil => simp [findDuplicates.later]
  | cons name rest inductionHypothesis =>
      rw [findDuplicates.later]
      by_cases present : name ∈ seen
      · simp [present]
      · rw [if_neg present, inductionHypothesis]
        simp only [List.nodup_cons, List.mem_cons, not_or, forall_eq_or_imp]
        constructor
        · rintro ⟨distinct, fresh⟩
          exact ⟨⟨fun member => (fresh name member).1 rfl, distinct⟩, present,
            fun other member => (fresh other member).2⟩
        · rintro ⟨⟨missing, distinct⟩, _, fresh⟩
          exact ⟨distinct, fun other member =>
            ⟨fun same => missing (same ▸ member), fresh other member⟩⟩

theorem bindingErrors_eq_nil_iff (bindings : BindingHash) (desc : String) :
    bindingErrors bindings desc = [] ↔ Unique bindings := by
  rw [bindingErrors, List.map_eq_nil_iff, findDuplicates, later_eq_nil_iff, Unique]
  simp

theorem errorsOf_eq_nil_iff (references : List Reference) :
    errorsOf iteration references = [] ↔
      forall reference, reference ∈ references -> reference.Visited -> reference.Bound := by
  simp only [errorsOf, List.flatMap_eq_nil_iff, Reference.errors_eq_nil_iff]

theorem spaceErrors_eq_nil_iff (bindings : Space -> BindingHash) :
    spaceErrors bindings = [] ↔ forall space, Unique (bindings space) := by
  simp only [spaceErrors, List.append_eq_nil_iff, bindingErrors_eq_nil_iff]
  constructor
  · rintro ⟨⟨⟨⟨⟨func, global⟩, funcType⟩, table⟩, memory⟩, except⟩ space
    cases space <;> assumption
  · intro unique
    exact ⟨⟨⟨⟨⟨unique _, unique _⟩, unique _⟩, unique _⟩, unique _⟩, unique _⟩

theorem funcErrors_eq_nil_iff (module : Module) (func : Func) :
    funcErrors iteration module func = [] ↔
      (Unique func.paramBindings ∧ Unique func.localBindings) ∧
        forall reference, reference ∈ module.funcReferences func ->
          reference.Visited -> reference.Bound := by
  simp only [funcErrors, List.append_eq_nil_iff, bindingErrors_eq_nil_iff, errorsOf_eq_nil_iff,
    Module.funcReferences, List.forall_mem_append]
  constructor
  · rintro ⟨⟨⟨decl, params⟩, locals⟩, body⟩
    exact ⟨⟨params, locals⟩, decl, body⟩
  · rintro ⟨⟨params, locals⟩, decl, body⟩
    exact ⟨⟨⟨decl, params⟩, locals⟩, body⟩

end NameResolver

/-! ## Exactness -/

namespace Module

/-- Every check that the resolver makes is passed. -/
def ChecksPass (module : Module) : Prop :=
  module.TablesUnique ∧
    forall reference, reference ∈ module.references -> reference.Visited -> reference.Bound

/-- There is nothing in the module that the resolver does not check: a name that
a parameter shares with a local, the name of a block's type, and the name of a
local outside functions. -/
def Covered (module : Module) : Prop :=
  (forall func, func ∈ module.funcs ->
    (func.paramBindings.map Prod.fst).Disjoint (func.localBindings.map Prod.fst)) ∧
  forall reference, reference ∈ module.references ->
    reference.Visited ∨ ∃ index, reference.var = .index index

theorem unique_space_iff (locals : Locals) :
    Unique locals.space ↔ (Unique locals.paramBindings ∧ Unique locals.localBindings) ∧
      (locals.paramBindings.map Prod.fst).Disjoint (locals.localBindings.map Prod.fst) := by
  have keys : locals.space.map Prod.fst =
      locals.paramBindings.map Prod.fst ++ locals.localBindings.map Prod.fst := by
    rw [Locals.space, List.map_append, List.map_map]
    rfl
  rw [Unique, keys, List.nodup_append', and_assoc]
  rfl

theorem namesUnique_iff (module : Module) :
    module.NamesUnique ↔ module.TablesUnique ∧ forall func, func ∈ module.funcs ->
      (func.paramBindings.map Prod.fst).Disjoint (func.localBindings.map Prod.fst) := by
  simp only [NamesUnique, TablesUnique, unique_space_iff]
  constructor
  · rintro ⟨spaces, funcs⟩
    exact ⟨⟨spaces, fun func member => (funcs func member).1⟩, fun func member =>
      (funcs func member).2⟩
  · rintro ⟨⟨spaces, tables⟩, disjoint⟩
    exact ⟨spaces, fun func member => ⟨tables func member, disjoint func member⟩⟩

end Module

theorem moduleErrors_eq_nil_iff (iteration : IterationOrder) (module : Module) :
    NameResolver.moduleErrors iteration module = [] ↔ module.ChecksPass := by
  simp only [NameResolver.moduleErrors, List.append_eq_nil_iff, List.flatMap_eq_nil_iff,
    NameResolver.spaceErrors_eq_nil_iff, NameResolver.funcErrors_eq_nil_iff,
    NameResolver.errorsOf_eq_nil_iff, Module.ChecksPass, Module.TablesUnique, Module.references,
    List.forall_mem_append, List.forall_mem_flatMap]
  constructor
  · rintro ⟨⟨⟨⟨⟨⟨spaces, funcs⟩, exports⟩, globals⟩, elems⟩, datas⟩, starts⟩
    exact ⟨⟨spaces, fun func member => (funcs func member).1⟩,
      ⟨⟨⟨⟨fun func member => (funcs func member).2, exports⟩, globals⟩, elems⟩, datas⟩, starts⟩
  · rintro ⟨⟨spaces, tables⟩, ⟨⟨⟨⟨funcs, exports⟩, globals⟩, elems⟩, datas⟩, starts⟩
    exact ⟨⟨⟨⟨⟨⟨spaces, fun func member => ⟨tables func member, funcs func member⟩⟩, exports⟩,
      globals⟩, elems⟩, datas⟩, starts⟩

/-- What the resolver does to a module. -/
theorem resolveNamesModule_eq (iteration : IterationOrder) (module : Module) :
    (resolveNamesModule iteration module).1.references =
        module.references.map (Reference.resolve iteration) ∧
      (resolveNamesModule iteration module).2 =
        NameResolver.moduleErrors iteration module := by
  rcases @NameResolver.visitModule_follows iteration module ⟨[], []⟩ rfl with
    ⟨references, state⟩
  refine ⟨references, ?_⟩
  exact (congrArg NameResolver.errors state).trans (List.nil_append _)

/-- Resolution is exact unless a module passes every check that is made and has
something that is not checked. -/
theorem resolvesExactly_iff (iteration : IterationOrder) (module : Module) :
    ResolvesExactly iteration module ↔ (module.ChecksPass -> module.Covered) := by
  rcases resolveNamesModule_eq iteration module with ⟨references, errors⟩
  simp only [ResolvesExactly, references, errors, moduleErrors_eq_nil_iff,
    List.forall₂_map_right_iff, List.forall₂_same, Module.namesUnique_iff]
  constructor
  · rintro ⟨succeeds, settled⟩ passes
    refine ⟨(succeeds.mp passes).1.2, fun reference member => ?_⟩
    by_cases visited : reference.Visited
    · exact Or.inl visited
    · cases named : reference.var with
      | index index => exact Or.inr ⟨index, rfl⟩
      | name symbol =>
          rcases settled passes reference member with ⟨index, indexed, _⟩
          rw [Reference.resolve_of_not_visited named visited] at indexed
          cases indexed
  · intro covers
    refine ⟨⟨fun passes => ⟨⟨passes.1, (covers passes).1⟩, fun reference member => ?_⟩, ?_⟩,
      fun passes reference member => ?_⟩
    · rcases (covers passes).2 reference member with visited | ⟨index, indexed⟩
      · exact passes.2 reference member visited
      · exact ⟨index, by simp only [Reference.Denotes, indexed]⟩
    · rintro ⟨⟨tables, _⟩, bound⟩
      exact ⟨tables, fun reference member _ => bound reference member⟩
    · exact Reference.resolve_denotes
        (Reference.errors_eq_nil_iff.mpr (passes.2 reference member))
        ((covers passes).2 reference member)

/-- `(module (type $t (func)) (func (block (type $t))))`. -/
def namedBlockType : Module where
  bindings
    | .funcType => [(ascii "$t", 0)]
    | _ => []
  funcs := [⟨⟨none, []⟩, [], [],
    .body .block ⟨[], ⟨some (.name ⟨ascii "$t", by decide⟩), []⟩⟩ .nil .nil⟩]
  exports := []
  globals := []
  elemSegments := []
  dataSegments := []
  starts := []

/-- The name of the type stays, and no error is reported. -/
theorem block_type_not_resolved :
    ¬ResolvesExactly ⟨id, List.Perm.refl⟩ namedBlockType := by
  intro exact
  have settled := exact.2 rfl
  rcases List.forall₂_cons.mp settled with ⟨⟨index, indexed, _⟩, _⟩
  cases indexed

end Text
end WasmSandboxing
