import WasmSandboxing.Text.ApplyNames
import WasmSandboxing.Text.ResolveNamesExact

namespace WasmSandboxing
namespace Text
namespace Fields

open Foundation Wasm

/-!
# What applying names achieves

The pass is followed reference by reference.  It succeeds if every reference
that it looks at leads to something, and then has the names of what is referred
to in place of the indices.
-/

/-! ## One reference -/

/-- What the pass looks up names in. -/
structure Context where
  iteration : IterationOrder
  space : Space -> Entities
  current : Option Current

namespace Context

variable (context : Context) (reference : Reference)

/-- The name of what the reference stands for, empty where it has none. -/
def name : Option Name :=
  match reference.site with
  | .entity space =>
      (findIndex context.iteration (context.space space).bindings reference.var).bind
        fun index => (context.space space).names[index]?
  | .blockType => none
  | .label => some (NameApplier.findLabelByVar reference.scope.labels reference.var)
  | .local => context.current.bind fun current =>
      (current.locals.getLocalIndex context.iteration reference.var).bind fun index =>
        if index < current.locals.numParams + current.numLocals then
          some (NameApplier.localName current index)
        else none

/-- The reference is passed over, or leads to something, by its name if it has one. -/
def Fine : Prop :=
  reference.site = .blockType ∨ ∃ name, context.name reference = some name ∧
    forall symbol, reference.var = .name symbol -> name = symbol.text

/-- The reference with the name of what it stands for. -/
def rename : Reference :=
  match reference.var, context.name reference with
  | .index _, some name =>
      if isNamed : name ≠ [] then { reference with var := .name ⟨name, isNamed⟩ } else reference
  | _, _ => reference

theorem rename_of_none (missing : context.name reference = none) :
    context.rename reference = reference := by
  rw [rename, missing]
  split
  · rename_i impossible
    cases impossible
  · rfl

theorem rename_index {scope : Scope} {site : Site} {index : Nat} {name : Name}
    (found : context.name ⟨scope, site, .index index⟩ = some name) :
    context.rename ⟨scope, site, .index index⟩ = ⟨scope, site,
      if isNamed : name ≠ [] then .name ⟨name, isNamed⟩ else .index index⟩ := by
  simp only [rename, found]
  split <;> rfl

theorem fine_blockType {scope : Scope} {var : Var} : context.Fine ⟨scope, .blockType, var⟩ :=
  .inl rfl

theorem rename_blockType {scope : Scope} {var : Var} :
    context.rename ⟨scope, .blockType, var⟩ = ⟨scope, .blockType, var⟩ := by
  cases var <;> rfl

end Context

/-! ## Parts of a module -/

namespace NameApplier

open Visit

variable {context : Context} {Part First Second Item Result : Type}

/-- The labels are those of the blocks around. -/
def At (labels : List Name) (applier : NameApplier) : Prop := applier.labels = labels

def relabel (labels : List Name) (applier : NameApplier) : NameApplier :=
  { applier with labels := labels }

theorem relabel_self {labels : List Name} {applier : NameApplier} (here : At labels applier) :
    relabel labels applier = applier := by
  rw [← here]
  rfl

def renamed (context : Context) (references : List Reference) : List Reference :=
  references.map context.rename

/-- The visit, which is begun with the labels `before` and ends with `after`,
succeeds if every reference of the part is fine, and renames them all then. -/
abbrev Follows (context : Context) (before after : List Name)
    (references : Part -> List Reference) (part : Part) (visit : Visit NameApplier Part) : Prop :=
  Meets (At before) (relabel after)
    (forall reference, reference ∈ references part -> context.Fine reference)
    (fun result => references result = (references part).map context.rename) visit

theorem flatMap_eq_of_forall₂ {references : Item -> List Reference}
    {rename : Reference -> Reference} {items results : List Item}
    (related : List.Forall₂ (fun item result =>
      references result = (references item).map rename) items results) :
    results.flatMap references = (items.flatMap references).map rename := by
  induction related with
  | nil => rfl
  | cons same _ inductionHypothesis =>
      rw [List.flatMap_cons, List.flatMap_cons, List.map_append, same, inductionHypothesis]

namespace Follows

variable {before middle after labels : List Name} {references : Part -> List Reference}
  {part : Part} {visit : Visit NameApplier Part}

/-- What has no references is left as it is. -/
theorem done (absent : references part = []) :
    Follows context labels labels references part (Visit.done part) := by
  refine (Meets.done ?_ ?_).moves _ fun applier here => (relabel_self here).symm
  · rw [absent]
    rfl
  · rw [absent]
    exact fun reference isMember => absurd isMember List.not_mem_nil

theorem map (follows : Follows context before after references part visit) (change : Part -> Result)
    (changed : Result -> List Reference)
    (same : forall part, changed (change part) = references part) :
    Follows context before after changed (change part) (visit.map change) := by
  refine (Meets.map follows fun result holds => ?_).congr ?_
  · rw [same, same, holds]
  · rw [same]

theorem check {first : First -> List Reference} {second : Second -> List Reference} {head : First}
    {rest : Second} {begin : Visit NameApplier First} {next : Visit NameApplier Second}
    (firstFollows : Follows context before middle first head begin)
    (secondFollows : Follows context middle after second rest next) :
    Follows context before after (fun parts => first parts.1 ++ second parts.2) (head, rest)
      (begin.check rest next) := by
  have both := Meets.check firstFollows secondFollows (fun _ _ => rfl) rest
  refine (both.weaken fun result holds => ?_).congr List.forall_mem_append.symm
  simp only [holds.1, holds.2, List.map_append]

theorem each {references : Item -> List Reference} {visit : Item -> Visit NameApplier Item}
    {items : List Item} (one : forall item, item ∈ items ->
      Follows context labels labels references item (visit item)) :
    Follows context labels labels (fun items => items.flatMap references) items
      (Visit.each visit items) := by
  have all := Meets.each fun item isMember =>
    (one item isMember).moves id fun applier here => relabel_self here
  refine ((all.weaken fun result related => ?_).moves _ fun applier here =>
    (relabel_self here).symm).congr List.forall_mem_flatMap.symm
  exact flatMap_eq_of_forall₂ related

/-- References that are passed over may stand before others. -/
theorem behind {front : List Reference}
    (fine : forall reference, reference ∈ front -> context.Fine reference)
    (same : front.map context.rename = front)
    (follows : Follows context before after references part visit) :
    Follows context before after (fun part => front ++ references part) part visit := by
  refine (Meets.weaken follows fun result holds => ?_).congr ?_
  · simp only [holds, List.map_append, same]
  · rw [List.forall_mem_append, and_iff_right fine]

/-- A visit that first enters a block. -/
theorem entered {inner : Visit NameApplier Part}
    (follows : Follows context middle after references part inner)
    (enters : forall applier, applier.labels = before ->
      visit applier = inner { applier with labels := middle }) :
    Follows context before after references part visit :=
  Meets.entered follows (relabel middle) (fun _ _ => rfl) enters

end Follows

/-! ## A single Var -/

variable {labels : List Name} {reference : Reference}

/-- A reference that leads to something, with the name of that. -/
theorem useNameForVar_meets (looked : reference.site ≠ .blockType) {name : Name}
    (found : context.name reference = some name) :
    Meets (At labels) id (context.Fine reference)
      (fun var => { reference with var := var } = context.rename reference)
      (useNameForVar name reference.var) := by
  rcases reference with ⟨scope, site, var⟩
  have fine_iff : context.Fine ⟨scope, site, var⟩ ↔
      forall symbol, var = .name symbol -> name = symbol.text := by
    simp only [Context.Fine, found, Option.some.injEq, exists_eq_left']
    exact or_iff_right looked
  cases var with
  | name symbol =>
      simp only [Var.name.injEq, forall_eq'] at fine_iff
      rw [useNameForVar]
      split
      · rename_i same
        exact Meets.done rfl (fine_iff.mpr same)
      · rename_i different
        exact Meets.failed (mt fine_iff.mp different) fun _ _ => rfl
  | index index =>
      exact Meets.done (context.rename_index found).symm (fine_iff.mpr (by simp))

/-- A reference that leads nowhere is not fine. -/
theorem unfine (looked : reference.site ≠ .blockType) (missing : context.name reference = none) :
    ¬context.Fine reference := by
  rintro (passed | ⟨name, found, -⟩)
  · exact looked passed
  · rw [missing] at found
    cases found

/-- A `Var` as a part with one reference. -/
theorem follows_of_meets {scope : Scope} {site : Site} {var : Var} {visit : Visit NameApplier Var}
    (meets : Meets (At labels) id (context.Fine ⟨scope, site, var⟩)
      (fun after => (⟨scope, site, after⟩ : Reference) = context.rename ⟨scope, site, var⟩) visit) :
    Follows context labels labels (fun var => [⟨scope, site, var⟩]) var visit := by
  refine ((meets.weaken fun after same => ?_).moves _ fun applier here =>
    (relabel_self here).symm).congr List.forall_mem_singleton.symm
  simp only [same, List.map_singleton]

theorem failed_follows {scope : Scope} {site : Site} {var : Var} {visit : Visit NameApplier Var}
    (looked : site ≠ .blockType) (missing : context.name ⟨scope, site, var⟩ = none)
    (fails : forall applier, (visit applier).1 = false) :
    Follows context labels labels (fun var => [⟨scope, site, var⟩]) var visit :=
  follows_of_meets (Meets.failed (unfine looked missing) fun applier _ => fails applier)

theorem useNameForEntityVar_follows (scope : Scope) (space : Space) (var : Var) :
    Follows context labels labels (fun var => [⟨scope, .entity space, var⟩]) var
      (useNameForEntityVar context.iteration (context.space space) var) := by
  have looked : Site.entity space ≠ .blockType := by simp
  rw [useNameForEntityVar]
  split
  · rename_i name found
    exact follows_of_meets (useNameForVar_meets looked found)
  · rename_i missing
    exact failed_follows looked missing fun _ => rfl

theorem useNameForLabelVar_follows (scope : Scope) (var : Var) :
    Follows context scope.labels scope.labels (fun var => [⟨scope, .label, var⟩]) var
      (useNameForLabelVar var) := by
  have looked : Site.label ≠ .blockType := by simp
  refine follows_of_meets fun applier here => ?_
  rw [useNameForLabelVar, show applier.labels = scope.labels from here]
  exact @useNameForVar_meets context scope.labels ⟨scope, .label, var⟩ looked _ rfl applier here

theorem useNameForParamAndLocalVar_follows (scope : Scope) (var : Var) :
    Follows context labels labels (fun var => [⟨scope, .local, var⟩]) var
      (useNameForParamAndLocalVar context.iteration context.current var) := by
  have looked : Site.local ≠ .blockType := by simp
  unfold useNameForParamAndLocalVar
  cases inFunc : context.current with
  | none =>
      exact failed_follows looked (by simp [Context.name, inFunc]) fun _ => rfl
  | some current =>
      simp only
      cases found : current.locals.getLocalIndex context.iteration var with
      | none => exact failed_follows looked (by simp [Context.name, inFunc, found]) fun _ => rfl
      | some index =>
          simp only
          split
          · rename_i inside
            have named : context.name ⟨scope, .local, var⟩ = some (localName current index) := by
              simp [Context.name, inFunc, found, inside]
            exact follows_of_meets (useNameForVar_meets looked named)
          · rename_i outside
            exact failed_follows looked (by simp [Context.name, inFunc, found, outside])
              fun _ => rfl

/-! ## Expressions -/

theorem useNameForDecl_follows (scope : Scope) (decl : FuncDeclaration) :
    Follows context labels labels
      (fun decl => scope.references (decl.vars (.entity .funcType))) decl
      (useNameForDecl context.iteration context.space decl) := by
  rcases decl with ⟨typeVar, paramTypes⟩
  cases typeVar with
  | none => exact .done rfl
  | some var =>
      exact (useNameForEntityVar_follows scope .funcType var).map
        (fun var => FuncDeclaration.mk (some var) paramTypes) _ fun _ => rfl

theorem onInstr_follows (scope : Scope) (instr : Instr) :
    Follows context scope.labels scope.labels (fun instr => scope.references instr.vars) instr
      (onInstr context.iteration context.space context.current instr) := by
  have entity := @useNameForEntityVar_follows context scope.labels scope
  have label := @useNameForLabelVar_follows context scope
  have localVar := @useNameForParamAndLocalVar_follows context scope.labels scope
  cases instr with
  | plain type => exact .done rfl
  | br var => exact (label var).map Instr.br _ fun _ => rfl
  | brIf var => exact (label var).map Instr.brIf _ fun _ => rfl
  | brTable targets defaultTarget =>
      have each := Follows.each fun target (_ : target ∈ targets) => label target
      refine (each.check (label defaultTarget)).map
        (fun parts => Instr.brTable parts.1 parts.2) _ fun parts => ?_
      rw [Scope.references, Instr.vars, List.map_map, List.map_append, List.map_eq_flatMap]
      rfl
  | call var => exact (entity .func var).map Instr.call _ fun _ => rfl
  | callIndirect decl => exact (useNameForDecl_follows scope decl).map Instr.callIndirect _ fun _ => rfl
  | getGlobal var => exact (entity .global var).map Instr.getGlobal _ fun _ => rfl
  | setGlobal var => exact (entity .global var).map Instr.setGlobal _ fun _ => rfl
  | getLocal var => exact (localVar var).map Instr.getLocal _ fun _ => rfl
  | setLocal var => exact (localVar var).map Instr.setLocal _ fun _ => rfl
  | teeLocal var => exact (localVar var).map Instr.teeLocal _ fun _ => rfl
  | throw var => exact (entity .except var).map Instr.throw _ fun _ => rfl

theorem blockType_behind {before after : List Name} {references : Part -> List Reference}
    {part : Part} {visit : Visit NameApplier Part} (scope : Scope) (decl : FuncDeclaration)
    (follows : Follows context before after references part visit) :
    Follows context before after
      (fun part => scope.references (decl.vars .blockType) ++ references part) part visit := by
  refine follows.behind (fun reference isMember => ?_) ?_
  · rcases List.mem_map.mp isMember with ⟨⟨site, var⟩, isVar, rfl⟩
    rcases List.mem_map.mp isVar with ⟨typeVar, -, same⟩
    cases same
    exact context.fine_blockType
  · rw [Scope.references, List.map_map]
    refine List.map_congr_left fun pair isVar => ?_
    rcases List.mem_map.mp isVar with ⟨typeVar, -, rfl⟩
    exact context.rename_blockType

/-- The end of a block. -/
theorem popLabel_follows (label : Name) (labels : List Name) :
    Follows context (label :: labels) labels (fun _ => []) () (Visit.succeed popLabel) := by
  intro applier begun
  refine ⟨true, (), { applier with labels := applier.labels.tail }, rfl, by simp, fun _ =>
    ⟨rfl, ?_⟩⟩
  rw [show applier.labels = label :: labels from begun]
  rfl

/-- `BeginIfExceptExpr` behind its label. -/
def typeVisit (context : Context) : ArmsType -> Visit NameApplier ArmsType
  | .ite => .done .ite
  | .ifExcept exceptVar =>
      (useNameForExceptVar context.iteration context.space exceptVar).map .ifExcept
  | .tryCatch => .done .tryCatch

theorem typeVisit_follows (scope : Scope) (type : ArmsType) :
    Follows context labels labels (fun type => scope.references type.vars) type
      (typeVisit context type) := by
  cases type with
  | ite => exact .done rfl
  | ifExcept exceptVar =>
      exact (useNameForEntityVar_follows scope .except exceptVar).map ArmsType.ifExcept _ fun _ => rfl
  | tryCatch => exact .done rfl

/-- A block is left, and what is behind it is visited. -/
theorem rest_follows {visit : Visit NameApplier ExprList} {rest : ExprList} {scope : Scope}
    (label : Name)
    (follows : Follows context scope.labels scope.labels (fun exprs => exprs.references scope) rest
      visit) :
    Follows context (label :: scope.labels) scope.labels (fun exprs => exprs.references scope) rest
      (((Visit.succeed popLabel).check rest visit).map Prod.snd) :=
  ((popLabel_follows label scope.labels).check follows).map Prod.snd _ fun _ => rfl

theorem beginArms_eq (context : Context) (type : ArmsType) (block : Block)
    (applier : NameApplier) :
    beginArms context.iteration context.space type block applier =
      ((typeVisit context type).map fun type => (type, block))
        { applier with labels := block.label :: applier.labels } := by
  cases type with
  | ite => rfl
  | tryCatch => rfl
  | ifExcept exceptVar => rfl

theorem check_map_entered {begin : Visit NameApplier First} {next : Visit NameApplier Second}
    {rest : Second} {head : First} {applier middle : NameApplier}
    {change : First × Second -> Result} (entered : begin applier = (true, head, middle)) :
    (begin.check rest next).map change applier =
      next.map (fun part => change (head, part)) middle := by
  simp only [Visit.map, Visit.check, entered]

theorem check_map_eq {Head : Type} {begin : Visit NameApplier (First × Head)}
    {visit : Visit NameApplier First} {next : Visit NameApplier Second} {rest : Second}
    {head : Head} {applier middle : NameApplier} {change : (First × Head) × Second -> Result}
    (entered : begin applier = (visit.map fun part => (part, head)) middle) :
    (begin.check rest next).map change applier =
      (visit.check rest next).map (fun parts => change ((parts.1, head), parts.2)) middle := by
  simp only [Visit.map, Visit.check, entered]
  rcases visit middle with ⟨ok, part, last⟩
  cases ok <;> rfl

/-- The labels of the pass are those of the blocks around what it visits. -/
theorem visitExprList_follows (exprs : ExprList) : forall scope : Scope,
    Follows context scope.labels scope.labels (fun exprs => exprs.references scope) exprs
      (visitExprList context.iteration context.space context.current exprs) := by
  induction exprs with
  | nil => exact fun scope => .done rfl
  | instr first rest inductionHypothesis =>
      exact fun scope => ((onInstr_follows scope first).check (inductionHypothesis scope)).map
        (fun parts => ExprList.instr parts.1 parts.2) _ fun _ => rfl
  | body type block exprs rest exprsHypothesis restHypothesis =>
      intro scope
      have parts := blockType_behind scope block.decl <|
        (exprsHypothesis (scope.push block.label)).check
          (rest_follows block.label (restHypothesis scope))
      have inner := parts.map (fun parts => ExprList.body type block parts.1 parts.2)
        (fun exprs => exprs.references scope) fun _ => List.append_assoc _ _ _
      refine inner.entered fun applier begun => ?_
      have entered : beginBody type block applier =
          (block, { applier with labels := block.label :: applier.labels }) := rfl
      rw [begun] at entered
      rw [visitExprList, ExprVisitor.visitExprList]
      exact check_map_entered (congrArg (Prod.mk true) entered)
  | arms type block first second rest firstHypothesis secondHypothesis restHypothesis =>
      intro scope
      have parts := (typeVisit_follows scope type).check <| blockType_behind scope block.decl <|
        (firstHypothesis (scope.push block.label)).check <|
          (secondHypothesis (scope.push block.label)).check
            (rest_follows block.label (restHypothesis scope))
      have inner := parts.map
        (fun parts => ExprList.arms parts.1 block parts.2.1 parts.2.2.1 parts.2.2.2)
        (fun exprs => exprs.references scope) fun _ => by
          simp only [ExprList.references, Scope.references, List.map_append, List.append_assoc]
      refine inner.entered fun applier begun => ?_
      have entered := beginArms_eq context type block applier
      rw [begun] at entered
      rw [visitExprList, ExprVisitor.visitExprList]
      exact check_map_eq entered

/-! ## Modules -/

variable (iteration : IterationOrder) (module : Module)

/-- The context outside functions. -/
def outside : Context := ⟨iteration, module.space, none⟩

def inside (func : Func) : Context := ⟨iteration, module.space, currentOf iteration func⟩

/-- Between the parts of a module. -/
def Ready (applier : NameApplier) : Prop := At [] applier ∧ applier.aborted = false

theorem Follows.ready {references : Part -> List Reference} {part : Part}
    {visit : Visit NameApplier Part} (follows : Follows context [] [] references part visit) :
    Meets Ready id (forall reference, reference ∈ references part -> context.Fine reference)
      (fun result => references result = (references part).map context.rename) visit :=
  (follows.moves id fun _ here => relabel_self here).restrict fun _ ready => ready.1

end NameApplier

end Fields
end Text
end WasmSandboxing
