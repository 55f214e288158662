import WasmSandboxing.CWriter.Mangle
import WasmSandboxing.CWriter.References
import WasmSandboxing.CWriter.ReservedSymbols
import Mathlib.Data.List.Find

namespace WasmSandboxing
namespace CWriter

open Foundation Wasm

/-!
# Names inside a function

`Write(Func)` with the symbol map that it keeps for one function.  Parameters,
locals, the label of the function and the labels of its blocks go into one map,
by their wasm names, and an insertion keeps what is already there.  Their C
names are unique in any case.
-/

/-- What has a C name inside a function. -/
inductive LocalEntity where
  | local (index : Nat)
  | label (name : LabelName)
  | stackVar (index : Nat) (type : ValueType)
  deriving DecidableEq, Repr

/-! ## The scope of a function -/

/-- `local_syms_`, every C name that has been given, and what has been done with
`local_sym_map_`. -/
structure LocalScope where
  symbols : List Name
  definitions : List (LocalEntity × Name)
  actions : List (SymbolAction LocalEntity Name Name)

namespace LocalScope

/-- `DefineLocalScopeName`. -/
def define (scope : LocalScope) (entity : LocalEntity) (name : Name) : LocalScope :=
  let unique := defineName scope.symbols (stripLeadingDollar name)
  { symbols := unique :: scope.symbols
    definitions := scope.definitions ++ [(entity, unique)]
    actions := scope.actions ++ [.declare entity name unique] }

/-- `Write(StackVar)`: a variable is named when it is first mentioned, in a map
of its own. -/
def stackVar (scope : LocalScope) (index : Nat) (type : ValueType) : LocalScope :=
  if .stackVar index type ∈ scope.definitions.map Prod.fst then scope
  else
    let unique := defineName scope.symbols (mangleType type ++ toText index)
    { scope with
      symbols := unique :: scope.symbols
      definitions := scope.definitions ++ [(.stackVar index type, unique)] }

/-- `Write(LocalName)`. -/
def refer (scope : LocalScope) (entity : LocalEntity) (name : Name) : LocalScope :=
  { scope with actions := scope.actions ++ [.refer entity name] }

/-- One mention in the body. -/
def mention (names : List Name) (scope : LocalScope) : Mention -> Option LocalScope
  | .define label => some (scope.define (.label label) label.text)
  | .stackVar index type => some (scope.stackVar index type)
  | .local index => names[index]?.map fun name => scope.refer (.local index) name
  | .goto label => some (scope.refer (.label label) label.text)
  | .entity _ => some scope

end LocalScope

/-- `WriteParams` and `WriteLocals`: the order in which parameters and locals
are declared. -/
def declarationOrder (params locals : List ValueType) : List Nat :=
  List.range params.length ++
    [ValueType.i32, .i64, .f32, .f64].flatMap fun type =>
      ((List.range locals.length).filter fun index => locals[index]? = some type).map
        fun index => params.length + index

/-- What the writer looks up for a body.  The variable of a local is a name, so
its type is that of the local that the name is bound to. -/
def funcContext (module : Module Scheme.binary) (func : Func Scheme.binary)
    (bindings : LocalBindings) (names : List Name) : Context where
  localType index := do
    let name <- names[index]?
    let index <- bindings.getLocalIndex func name
    (func.sig.params ++ func.localTypes)[index]?
  globalType index := module.globals[index]?.map Global.type
  funcSignature index := module.funcs[index]?.map Func.sig
  typeSignature index := module.funcTypes[index]?

/-- `Write(Func)`: parameters, locals, the function's label, the body and the
variable that is returned. -/
def writeLocalScope (globalSymbols : List Name) (names : List Name) (func : Func Scheme.binary)
    (body : Statements Scheme.applied) (returned : Option (CVar Scheme.applied)) :
    Option LocalScope := do
  let declared <- (declarationOrder func.sig.params func.localTypes).foldlM
    (fun (scope : LocalScope) index =>
      names[index]?.map fun name => scope.define (.local index) name)
    ⟨globalSymbols, [], []⟩
  let labelled := declared.define (.label .func) LabelName.func.text
  (mentions body ++ returned.toList.map CVar.mention).foldlM (LocalScope.mention names) labelled

/-- A function with its local names: its statements and the scope they are
written in. -/
def writeNamedFunc (module : Module Scheme.binary) (iteration : IterationOrder)
    (globalSymbols : List Name) (func : Func Scheme.binary) (entries : List (Nat × Name)) :
    Option (List Name × LocalScope) := do
  let bindings <- localBindings iteration func entries
  let names <- bindings.names func
  let (body, returned) <- writeFunc (funcContext module func bindings names) func.sig.result
    (ApplyNames.visitFunc func.exprs)
  let scope <- writeLocalScope globalSymbols names func body returned
  some (names, scope)

/-! ## What the scope keeps -/

namespace LocalScope

/-- The entries of the symbol map without their symbols, in order. -/
def keys (scope : LocalScope) : List (LocalEntity × Name) :=
  (SymbolAction.declared scope.actions).map fun entry => (entry.1, entry.2.1)

/-- C names are distinct and taken, the map holds what was defined, and nothing
is looked up before it is there. -/
structure Consistent (scope : LocalScope) : Prop where
  distinct : (scope.definitions.map Prod.snd).Nodup
  taken : forall entry, entry ∈ scope.definitions -> entry.2 ∈ scope.symbols
  declared : forall entity name symbol,
    (entity, name, symbol) ∈ SymbolAction.declared scope.actions ->
      (entity, symbol) ∈ scope.definitions
  ordered : SymbolAction.Ordered [] scope.actions

theorem consistent_start (symbols : List Name) : Consistent ⟨symbols, [], []⟩ where
  distinct := List.nodup_nil
  taken _ member := nomatch member
  declared _ _ _ member := nomatch member
  ordered := trivial

variable {scope : LocalScope}

/-- A name that is not taken can be given to anything. -/
theorem Consistent.distinct_append (consistent : scope.Consistent) (entity : LocalEntity)
    {unique : Name} (fresh : unique ∉ scope.symbols) :
    ((scope.definitions ++ [(entity, unique)]).map Prod.snd).Nodup := by
  rw [List.map_append, List.nodup_append']
  refine ⟨consistent.distinct, List.nodup_singleton _, ?_⟩
  intro symbol old new
  rcases List.mem_map.mp old with ⟨entry, member, rfl⟩
  have same : entry.2 = unique := List.mem_singleton.mp new
  exact fresh (same ▸ consistent.taken entry member)

theorem Consistent.taken_append (consistent : scope.Consistent) (entity : LocalEntity)
    (unique : Name) : forall entry, entry ∈ scope.definitions ++ [(entity, unique)] ->
      entry.2 ∈ unique :: scope.symbols := by
  intro entry member
  rcases List.mem_append.mp member with old | new
  · exact List.mem_cons_of_mem _ (consistent.taken entry old)
  · rw [List.mem_singleton.mp new]
    exact List.mem_cons_self

theorem Consistent.define (consistent : scope.Consistent) (entity : LocalEntity) (name : Name) :
    (scope.define entity name).Consistent where
  distinct := consistent.distinct_append entity (defineName_not_mem _ _)
  taken := consistent.taken_append entity _
  declared other otherName symbol member := by
    rw [LocalScope.define, SymbolAction.declared_append, List.mem_append] at member
    rcases member with old | new
    · exact List.mem_append_left _ (consistent.declared other otherName symbol old)
    · cases List.mem_singleton.mp new
      exact List.mem_append_right _ List.mem_cons_self
  ordered := consistent.ordered.append_declare entity name _

theorem keys_define (entity : LocalEntity) (name : Name) :
    (scope.define entity name).keys = scope.keys ++ [(entity, name)] := by
  rw [keys, LocalScope.define, SymbolAction.declared_append, List.map_append]
  rfl

theorem Consistent.stackVar (consistent : scope.Consistent) (index : Nat) (type : ValueType) :
    (scope.stackVar index type).Consistent := by
  unfold LocalScope.stackVar
  split
  · exact consistent
  · exact
      { distinct := consistent.distinct_append _ (defineName_not_mem _ _)
        taken := consistent.taken_append _ _
        declared := fun entity name symbol member =>
          List.mem_append_left _ (consistent.declared entity name symbol member)
        ordered := consistent.ordered }

theorem stackVar_actions (index : Nat) (type : ValueType) :
    (scope.stackVar index type).actions = scope.actions := by
  unfold LocalScope.stackVar
  split <;> rfl

theorem Consistent.refer (consistent : scope.Consistent) {entity : LocalEntity} {name : Name}
    (present : (entity, name) ∈ scope.keys) : (scope.refer entity name).Consistent where
  distinct := consistent.distinct
  taken := consistent.taken
  declared other otherName symbol member := by
    rw [LocalScope.refer, SymbolAction.declared_append] at member
    exact consistent.declared other otherName symbol (by simpa [SymbolAction.declared] using member)
  ordered := by
    rcases List.mem_map.mp present with ⟨⟨_, _, symbol⟩, member, same⟩
    cases same
    exact consistent.ordered.append_refer member

theorem keys_refer (entity : LocalEntity) (name : Name) :
    (scope.refer entity name).keys = scope.keys := by
  rw [keys, LocalScope.refer, SymbolAction.declared_append]
  simp [SymbolAction.declared, keys]

end LocalScope

/-! ## Mentions in scope -/

def labelKey (label : LabelName) : LocalEntity × Name := (.label label, label.text)

/-- The labels that a list of mentions defines. -/
def definedLabels : List Mention -> List LabelName
  | [] => []
  | .define label :: rest => label :: definedLabels rest
  | _ :: rest => definedLabels rest

/-- Every `goto` names a label that is known or defined before it. -/
def GotosInScope (known : List LabelName) : List Mention -> Prop
  | [] => True
  | .define label :: rest => GotosInScope (known ++ [label]) rest
  | .goto label :: rest => label ∈ known ∧ GotosInScope known rest
  | _ :: rest => GotosInScope known rest

theorem gotosInScope_append {first second : List Mention} {known : List LabelName} :
    GotosInScope known (first ++ second) ↔
      GotosInScope known first ∧ GotosInScope (known ++ definedLabels first) second := by
  induction first generalizing known with
  | nil => simp [GotosInScope, definedLabels]
  | cons mention rest inductionHypothesis =>
      cases mention <;> simp [GotosInScope, definedLabels, inductionHypothesis, and_assoc]

theorem GotosInScope.weaken {mentions : List Mention} {known more : List LabelName}
    (inScope : GotosInScope known mentions) (below : known ⊆ more) : GotosInScope more mentions := by
  induction mentions generalizing known more with
  | nil => exact trivial
  | cons mention rest inductionHypothesis =>
      cases mention with
      | define label =>
          exact inductionHypothesis inScope (List.append_subset.mpr
            ⟨List.Subset.trans below (List.subset_append_left _ _), List.subset_append_right _ _⟩)
      | goto label => exact ⟨below inScope.1, inductionHypothesis inScope.2 below⟩
      | stackVar index type => exact inductionHypothesis inScope below
      | «local» index => exact inductionHypothesis inScope below
      | entity entity => exact inductionHypothesis inScope below

/-- Stack variables have no part in it. -/
theorem gotosInScope_filter {mentions : List Mention} {known : List LabelName} :
    GotosInScope known (mentions.filter fun mention => !mention.isStackVar) ↔ GotosInScope known mentions := by
  induction mentions generalizing known with
  | nil => rfl
  | cons mention rest inductionHypothesis =>
      cases mention with
      | goto label => exact and_congr_right fun _ => inductionHypothesis
      | _ => exact inductionHypothesis

theorem definedLabels_filter (mentions : List Mention) :
    definedLabels (mentions.filter fun mention => !mention.isStackVar) =
      definedLabels mentions := by
  induction mentions with
  | nil => rfl
  | cons mention rest inductionHypothesis =>
      cases mention with
      | define label => exact congrArg (List.cons label) inductionHypothesis
      | _ => exact inductionHypothesis

/-- What a list of mentions leaves: the labels it defines, and a lookup for each
local and `goto` in it. -/
structure Walked (names : List Name) (mentions : List Mention) (scope final : LocalScope) :
    Prop where
  consistent : final.Consistent
  named : forall index, .local index ∈ mentions -> ∃ name, names[index]? = some name
  keys : final.keys = scope.keys ++ (definedLabels mentions).map labelKey
  refers : forall entity name, .refer entity name ∈ final.actions ↔
    .refer entity name ∈ scope.actions ∨
      (∃ index, .local index ∈ mentions ∧ names[index]? = some name ∧ entity = .local index) ∨
      ∃ label, .goto label ∈ mentions ∧ name = label.text ∧ entity = .label label

theorem walk_mentions {names : List Name} {mentions : List Mention} {known : List LabelName}
    {scope final : LocalScope} (consistent : scope.Consistent)
    (locals : forall index name, names[index]? = some name -> (.local index, name) ∈ scope.keys)
    (labels : forall label, label ∈ known -> labelKey label ∈ scope.keys)
    (inScope : GotosInScope known mentions)
    (walked : mentions.foldlM (LocalScope.mention names) scope = some final) :
    Walked names mentions scope final := by
  induction mentions generalizing known scope with
  | nil =>
      cases walked
      exact ⟨consistent, by simp, by simp [definedLabels], by simp⟩
  | cons mention rest inductionHypothesis =>
      rw [List.foldlM_cons, Option.bind_eq_bind, Option.bind_eq_some_iff] at walked
      rcases walked with ⟨next, here, later⟩
      cases mention with
      | define label =>
          cases here
          have keys := @LocalScope.keys_define scope (.label label) label.text
          have more : forall key, key ∈ scope.keys ->
              key ∈ (scope.define (.label label) label.text).keys := by
            intro key member
            rw [keys]
            exact List.mem_append_left _ member
          have run := inductionHypothesis (consistent.define (.label label) label.text)
            (fun index name found => more _ (locals index name found))
            (fun other member => by
              rcases List.mem_append.mp member with old | new
              · exact more _ (labels other old)
              · rw [keys, List.mem_singleton.mp new]
                exact List.mem_append_right _ List.mem_cons_self) inScope later
          refine ⟨run.consistent, by simpa using run.named, ?_, fun entity name => ?_⟩
          · rw [run.keys, keys, List.append_assoc]
            rfl
          · rw [run.refers]
            simp [LocalScope.define]
      | stackVar index type =>
          cases here
          have actions := @LocalScope.stackVar_actions scope index type
          have keys : (scope.stackVar index type).keys = scope.keys := by
            rw [LocalScope.keys, actions, LocalScope.keys]
          have run := inductionHypothesis (consistent.stackVar index type) (keys ▸ locals)
            (keys ▸ labels) inScope later
          refine ⟨run.consistent, by simpa using run.named, ?_, fun entity name => ?_⟩
          · rw [run.keys, keys]
            rfl
          · rw [run.refers, actions]
            simp
      | «local» index =>
          rcases Option.map_eq_some_iff.mp here with ⟨name, found, rfl⟩
          have keys := @LocalScope.keys_refer scope (.local index) name
          have run := inductionHypothesis (consistent.refer (locals index name found))
            (keys ▸ locals) (keys ▸ labels) inScope later
          refine ⟨run.consistent, fun other member => ?_, ?_, fun entity other => ?_⟩
          · rcases List.mem_cons.mp member with same | member
            · cases same
              exact ⟨name, found⟩
            · exact run.named other member
          · rw [run.keys, keys]
            rfl
          · rw [run.refers]
            simp only [LocalScope.refer, List.mem_append,
              SymbolAction.refer.injEq, List.mem_cons, Mention.local.injEq, reduceCtorEq, false_or]
            grind
      | goto label =>
          cases here
          have keys := @LocalScope.keys_refer scope (.label label) label.text
          have run := inductionHypothesis (consistent.refer (labels label inScope.1))
            (keys ▸ locals) (keys ▸ labels) inScope.2 later
          refine ⟨run.consistent, by simpa using run.named, ?_, fun entity other => ?_⟩
          · rw [run.keys, keys]
            rfl
          · rw [run.refers]
            simp only [LocalScope.refer, List.mem_append,
              SymbolAction.refer.injEq, List.mem_cons, Mention.goto.injEq, reduceCtorEq, false_or]
            grind
      | entity entity =>
          cases here
          have run := inductionHypothesis consistent locals labels inScope later
          exact ⟨run.consistent, by simpa using run.named, run.keys,
            fun other name => by rw [run.refers]; simp⟩

/-! ## Branches of a named body -/

/-- `ApplyNames` gives a branch the name of a block around it, or leaves the
function's own depth. -/
theorem gotoName_mem {labels known : List LabelName} (around : labels ⊆ known)
    (own : LabelName.func ∈ known) (depth : Nat) :
    gotoName (ApplyNames.useNameForVar labels depth) ∈ known := by
  unfold ApplyNames.useNameForVar
  cases found : labels[depth]? with
  | none => exact own
  | some label => exact around (List.mem_of_getElem? found)

theorem instr_inScope {labels known : List LabelName} (around : labels ⊆ known)
    (own : LabelName.func ∈ known) (instr : Instr Scheme.binary) :
    GotosInScope known (instrReferences (ApplyNames.visitInstr labels instr)) := by
  cases instr with
  | br var | brIf var => exact ⟨gotoName_mem around own var, trivial⟩
  | brTable targets defaultTarget =>
      change GotosInScope known ((targets.map (ApplyNames.useNameForVar labels)).map _ ++ _)
      rw [List.map_map]
      induction targets with
      | nil => exact ⟨gotoName_mem around own defaultTarget, trivial⟩
      | cons target rest inductionHypothesis =>
          exact ⟨gotoName_mem around own target, inductionHypothesis⟩
  | ret => exact ⟨own, trivial⟩
  | _ => trivial

theorem endsList_visitInstr (labels : List LabelName) (instr : Instr Scheme.binary) :
    definedLabels (instrReferences (ApplyNames.visitInstr labels instr)) = [] := by
  cases instr with
  | brTable targets defaultTarget =>
      change definedLabels ((targets.map (ApplyNames.useNameForVar labels)).map _ ++ _) = []
      induction targets with
      | nil => rfl
      | cons target rest inductionHypothesis => exact inductionHypothesis
  | _ => rfl

/-- A labelled construct is in scope when its parts are: what it contains may go
to its label, and nothing that was known is forgotten. -/
theorem construct_inScope {labels known : List LabelName} (around : labels ⊆ known)
    (own : LabelName.func ∈ known) (label : LabelName) {body rest : List Mention}
    (bodyInScope : forall known, label :: labels ⊆ known -> .func ∈ known ->
      GotosInScope known body)
    (restInScope : forall known, labels ⊆ known -> .func ∈ known -> GotosInScope known rest) :
    GotosInScope known (.define label :: (body ++ rest)) := by
  have kept : labels ⊆ known ++ [label] := List.subset_append_of_subset_left _ around
  change GotosInScope (known ++ [label]) (body ++ rest)
  rw [gotosInScope_append]
  constructor
  · apply bodyInScope
    · exact List.cons_subset.mpr ⟨List.mem_append_right _ List.mem_cons_self, kept⟩
    · exact List.mem_append_left _ own
  · apply restInScope
    · exact List.subset_append_of_subset_left _ kept
    · exact List.mem_append_left _ (List.mem_append_left _ own)

theorem visitExprList_ne_nil {exprs : ExprList Scheme.binary} (nonempty : exprs ≠ .nil)
    {labels : List LabelName} {count : Nat} :
    ApplyNames.visitExprList labels count exprs ≠ .nil := by
  intro same
  cases exprs <;> first | exact nonempty rfl | cases same

/-- Every `goto` of a body stands inside the block whose label it names. -/
theorem visitExprList_inScope (exprs : ExprList Scheme.binary) :
    forall (labels known : List LabelName) (count : Nat), labels ⊆ known -> .func ∈ known ->
      GotosInScope known (exprReferences (ApplyNames.visitExprList labels count exprs)) := by
  induction exprs with
  | nil => exact fun _ _ _ _ _ => trivial
  | instr first rest inductionHypothesis =>
      intro labels known count around own
      rw [ApplyNames.visitExprList, exprReferences, gotosInScope_append, endsList_visitInstr,
        List.append_nil]
      refine ⟨instr_inScope around own first, ?_⟩
      split
      · exact trivial
      · exact inductionHypothesis labels known count around own
  | block label result exprs rest exprsHypothesis restHypothesis =>
      intro labels known count around own
      exact construct_inScope around own (.block count)
        (fun known around own => exprsHypothesis _ known _ around own)
        (fun known around own => restHypothesis _ known _ around own)
  | loop label result exprs rest exprsHypothesis restHypothesis =>
      intro labels known count around own
      by_cases empty : exprs = .nil
      · subst empty
        exact restHypothesis labels known _ around own
      · rw [ApplyNames.visitExprList, exprReferences_loop (visitExprList_ne_nil empty)]
        exact construct_inScope around own (.loop count)
          (fun known around own => exprsHypothesis _ known _ around own)
          (fun known around own => restHypothesis _ known _ around own)
  | ite label result yes no rest yesHypothesis noHypothesis restHypothesis =>
      intro labels known count around own
      rw [ApplyNames.visitExprList, exprReferences, ← List.append_assoc]
      apply construct_inScope around own (.ite count)
      · intro known around own
        rw [gotosInScope_append]
        exact ⟨yesHypothesis _ known _ around own, noHypothesis _ _ _
          (List.subset_append_of_subset_left _ around) (List.mem_append_left _ own)⟩
      · exact fun known around own => restHypothesis _ known _ around own

theorem definedLabels_append (first second : List Mention) :
    definedLabels (first ++ second) = definedLabels first ++ definedLabels second := by
  induction first with
  | nil => rfl
  | cons mention rest inductionHypothesis =>
      cases mention with
      | define label => exact congrArg (List.cons label) inductionHypothesis
      | _ => exact inductionHypothesis

theorem definedLabels_instr (labels : List LabelName) (instr : Instr Scheme.binary) :
    definedLabels (instrReferences (ApplyNames.visitInstr labels instr)) = [] := by
  cases instr with
  | brTable targets defaultTarget =>
      rw [ApplyNames.visitInstr, instrReferences, definedLabels_append]
      induction targets with
      | nil => rfl
      | cons target rest inductionHypothesis => exact inductionHypothesis
  | _ => rfl

theorem definedLabels_loop {label own : LabelName} {result : Option ValueType}
    {exprs rest : ExprList Scheme.applied}
    (member : label ∈ definedLabels (exprReferences (.loop own result exprs rest))) :
    label = own ∨ label ∈ definedLabels (exprReferences exprs) ∨
      label ∈ definedLabels (exprReferences rest) := by
  by_cases empty : exprs = .nil
  · subst empty
    exact Or.inr (Or.inr member)
  · rw [exprReferences_loop empty, definedLabels, definedLabels_append, List.mem_cons,
      List.mem_append] at member
    exact member

/-- The labels of a body are those of its own blocks, by their numbers. -/
theorem definedLabels_number (exprs : ExprList Scheme.binary) :
    forall (labels : List LabelName) (count : Nat) (label : LabelName),
      label ∈ definedLabels (exprReferences (ApplyNames.visitExprList labels count exprs)) ->
        ∃ number, label.number = some number ∧ count ≤ number ∧
          number < count + ApplyNames.blockCount exprs := by
  induction exprs with
  | nil => exact fun _ _ _ member => nomatch member
  | instr first rest inductionHypothesis =>
      intro labels count label member
      rw [ApplyNames.visitExprList, exprReferences, definedLabels_append, definedLabels_instr,
        List.nil_append] at member
      split at member
      · cases member
      · exact inductionHypothesis labels count label member
  | block own result exprs rest exprsHypothesis restHypothesis =>
      intro labels count label member
      rw [ApplyNames.visitExprList, exprReferences, definedLabels, definedLabels_append,
        List.mem_cons, List.mem_append] at member
      rw [ApplyNames.blockCount]
      rcases member with rfl | inside | behind
      · exact ⟨count, rfl, by omega, by omega⟩
      · rcases exprsHypothesis _ _ label inside with ⟨number, same, above, below⟩
        exact ⟨number, same, by omega, by omega⟩
      · rcases restHypothesis _ _ label behind with ⟨number, same, above, below⟩
        exact ⟨number, same, by omega, by omega⟩
  | loop own result exprs rest exprsHypothesis restHypothesis =>
      intro labels count label member
      rw [ApplyNames.visitExprList] at member
      have parts := definedLabels_loop member
      rw [ApplyNames.blockCount]
      rcases parts with rfl | inside | behind
      · exact ⟨count, rfl, by omega, by omega⟩
      · rcases exprsHypothesis _ _ label inside with ⟨number, same, above, below⟩
        exact ⟨number, same, by omega, by omega⟩
      · rcases restHypothesis _ _ label behind with ⟨number, same, above, below⟩
        exact ⟨number, same, by omega, by omega⟩
  | ite own result yes no rest yesHypothesis noHypothesis restHypothesis =>
      intro labels count label member
      rw [ApplyNames.visitExprList, exprReferences, definedLabels, definedLabels_append,
        definedLabels_append, List.mem_cons, List.mem_append, List.mem_append] at member
      rw [ApplyNames.blockCount]
      rcases member with rfl | inYes | inNo | behind
      · exact ⟨count, rfl, by omega, by omega⟩
      · rcases yesHypothesis _ _ label inYes with ⟨number, same, above, below⟩
        exact ⟨number, same, by omega, by omega⟩
      · rcases noHypothesis _ _ label inNo with ⟨number, same, above, below⟩
        exact ⟨number, same, by omega, by omega⟩
      · rcases restHypothesis _ _ label behind with ⟨number, same, above, below⟩
        exact ⟨number, same, by omega, by omega⟩

/-- Labels whose numbers lie in ranges one behind the other are distinct. -/
theorem labels_nodup_append {first second : List LabelName} {bound : Nat}
    (firstNodup : first.Nodup) (secondNodup : second.Nodup)
    (below : forall label, label ∈ first ->
      ∃ number, label.number = some number ∧ number < bound)
    (above : forall label, label ∈ second ->
      ∃ number, label.number = some number ∧ bound ≤ number) : (first ++ second).Nodup := by
  rw [List.nodup_append']
  refine ⟨firstNodup, secondNodup, fun label inFirst inSecond => ?_⟩
  rcases below label inFirst with ⟨lower, isLower, small⟩
  rcases above label inSecond with ⟨upper, isUpper, large⟩
  rw [isLower] at isUpper
  cases isUpper
  omega

/-- A block, its body and what is behind it define distinct labels when the
parts do. -/
theorem construct_nodup {label : LabelName} {count size : Nat} {body rest : List LabelName}
    (own : label.number = some count) (bodyNodup : body.Nodup) (restNodup : rest.Nodup)
    (bodyNumber : forall label, label ∈ body ->
      ∃ number, label.number = some number ∧ count + 1 ≤ number ∧ number < count + 1 + size)
    (restNumber : forall label, label ∈ rest ->
      ∃ number, label.number = some number ∧ count + 1 + size ≤ number) :
    (label :: (body ++ rest)).Nodup := by
  have parts : (body ++ rest).Nodup := labels_nodup_append bodyNodup restNodup
    (fun label member => by
      rcases bodyNumber label member with ⟨number, same, _, below⟩
      exact ⟨number, same, below⟩) restNumber
  refine List.nodup_cons.mpr ⟨fun member => ?_, parts⟩
  rcases List.mem_append.mp member with inside | behind
  · rcases bodyNumber label inside with ⟨number, same, above, _⟩
    rw [own] at same
    cases same
    omega
  · rcases restNumber label behind with ⟨number, same, above⟩
    rw [own] at same
    cases same
    omega

/-- No two blocks of a body have the same label. -/
theorem definedLabels_nodup (exprs : ExprList Scheme.binary) :
    forall (labels : List LabelName) (count : Nat),
      (definedLabels (exprReferences (ApplyNames.visitExprList labels count exprs))).Nodup := by
  have lower : forall (exprs : ExprList Scheme.binary) (labels : List LabelName) (count : Nat)
      (label : LabelName),
      label ∈ definedLabels (exprReferences (ApplyNames.visitExprList labels count exprs)) ->
        ∃ number, label.number = some number ∧ count ≤ number := by
    intro exprs labels count label member
    rcases definedLabels_number exprs labels count label member with ⟨number, same, above, _⟩
    exact ⟨number, same, above⟩
  induction exprs with
  | nil => exact fun _ _ => List.nodup_nil
  | instr first rest inductionHypothesis =>
      intro labels count
      rw [ApplyNames.visitExprList, exprReferences, definedLabels_append, definedLabels_instr,
        List.nil_append]
      split
      · exact List.nodup_nil
      · exact inductionHypothesis labels count
  | block own result exprs rest exprsHypothesis restHypothesis =>
      intro labels count
      rw [ApplyNames.visitExprList, exprReferences, definedLabels, definedLabels_append]
      exact construct_nodup rfl (exprsHypothesis _ _) (restHypothesis _ _)
        (definedLabels_number exprs _ _) (lower rest _ _)
  | loop own result exprs rest exprsHypothesis restHypothesis =>
      intro labels count
      rw [ApplyNames.visitExprList]
      by_cases empty : exprs = .nil
      · subst empty
        exact restHypothesis labels _
      · rw [exprReferences_loop (visitExprList_ne_nil empty), definedLabels, definedLabels_append]
        exact construct_nodup rfl (exprsHypothesis _ _) (restHypothesis _ _)
          (definedLabels_number exprs _ _) (lower rest _ _)
  | ite own result yes no rest yesHypothesis noHypothesis restHypothesis =>
      intro labels count
      rw [ApplyNames.visitExprList, exprReferences, definedLabels, definedLabels_append,
        definedLabels_append]
      refine construct_nodup rfl (yesHypothesis _ _) (labels_nodup_append (noHypothesis _ _)
        (restHypothesis _ _) ?_ (lower rest _ _)) (definedLabels_number yes _ _) ?_
      · intro label member
        rcases definedLabels_number no _ _ label member with ⟨number, same, _, below⟩
        exact ⟨number, same, below⟩
      · intro label member
        rcases List.mem_append.mp member with inNo | behind
        · exact lower no _ _ label inNo
        · rcases lower rest _ _ label behind with ⟨number, same, above⟩
          exact ⟨number, same, by omega⟩

/-! ## Faithful local names -/

/-- Every `goto` and every use of a local is written with the C name that was
given to its label or local, each of which is declared once, and all C names of
the function are distinct. -/
structure LocalNamesFaithful (scope : LocalScope) : Prop where
  faithful : SymbolAction.Faithful scope.actions
  once : (scope.keys.map Prod.fst).Nodup
  distinct : (scope.definitions.map Prod.snd).Nodup

/-- No local that is used has the name of one that is declared before it, and no
label that is gone to has the name of a parameter or local. -/
def LocalNamesClear (func : Func Scheme.binary) (names : List Name) : Prop :=
  let references := exprReferences (ApplyNames.visitFunc func.exprs)
  (forall index, .local index ∈ references ->
    ((declarationOrder func.sig.params func.localTypes).find? fun other =>
      names[other]? = names[index]?) = some index) ∧
  forall label, .goto label ∈ references -> label.text ∉ names

/-- The key under which a parameter or local is declared. -/
def localKey (names : List Name) (index : Nat) : LocalEntity × Name :=
  (.local index, names.getD index [])

theorem declare_locals {names : List Name} {order : List Nat} {scope final : LocalScope}
    (consistent : scope.Consistent)
    (declared : order.foldlM (fun (scope : LocalScope) index =>
      names[index]?.map fun name => scope.define (.local index) name) scope = some final) :
    final.Consistent ∧ final.keys = scope.keys ++ order.map (localKey names) ∧
      forall entity name, .refer entity name ∈ final.actions ↔
        .refer entity name ∈ scope.actions := by
  induction order generalizing scope with
  | nil =>
      cases declared
      exact ⟨consistent, by simp, fun _ _ => Iff.rfl⟩
  | cons index rest inductionHypothesis =>
      rw [List.foldlM_cons, Option.bind_eq_bind, Option.bind_eq_some_iff] at declared
      rcases declared with ⟨next, here, later⟩
      rcases Option.map_eq_some_iff.mp here with ⟨name, found, rfl⟩
      rcases inductionHypothesis (consistent.define (.local index) name) later with
        ⟨kept, keys, refers⟩
      refine ⟨kept, ?_, fun entity other => ?_⟩
      · have named : localKey names index = (.local index, name) := by
          rw [localKey, List.getD_eq_getElem?_getD, found]
          rfl
        rw [keys, LocalScope.keys_define, List.append_assoc, List.map_cons, named]
        rfl
      · rw [refers]
        simp [LocalScope.define]

/-- A reverse mapping has an entry for each index. -/
theorem reverseMapping_length {size : Nat} {bindings : List (Name × Nat)} {mapping : List Name}
    (made : makeTypeBindingReverseMapping size bindings = some mapping) :
    mapping.length = size := by
  have fold : forall (start : List Name), bindings.foldlM (fun mapping (entry : Name × Nat) =>
      if entry.2 < mapping.length then some (mapping.set entry.2 entry.1) else none) start =
        some mapping -> mapping.length = start.length := by
    intro start folded
    clear made
    induction bindings generalizing start with
    | nil => cases folded; rfl
    | cons entry rest inductionHypothesis =>
        rw [List.foldlM_cons, Option.bind_eq_bind, Option.bind_eq_some_iff] at folded
        rcases folded with ⟨next, here, later⟩
        split at here
        · cases here
          rw [inductionHypothesis _ later, List.length_set]
        · cases here
  rw [fold _ made, List.length_replicate]

theorem names_length {bindings : LocalBindings} {func : Func Scheme.binary} {names : List Name}
    (found : bindings.names func = some names) :
    names.length = func.sig.params.length + func.localTypes.length := by
  simp only [LocalBindings.names, Option.bind_eq_bind, Option.bind_eq_some_iff,
    Option.some.injEq] at found
  rcases found with ⟨params, paramsFound, locals, localsFound, rfl⟩
  rw [List.length_append, reverseMapping_length paramsFound, reverseMapping_length localsFound]

/-- Every parameter and local is declared. -/
theorem mem_declarationOrder {params locals : List ValueType} {index : Nat} :
    index ∈ declarationOrder params locals ↔ index < params.length + locals.length := by
  rw [declarationOrder, List.mem_append]
  constructor
  · rintro (param | later)
    · have below := List.mem_range.mp param
      omega
    · rcases List.mem_flatMap.mp later with ⟨type, _, member⟩
      rcases List.mem_map.mp member with ⟨position, found, rfl⟩
      have below := List.mem_range.mp (List.mem_of_mem_filter found)
      omega
  · intro below
    by_cases param : index < params.length
    · exact Or.inl (List.mem_range.mpr param)
    · refine Or.inr (List.mem_flatMap.mpr ⟨locals[index - params.length], ?_, ?_⟩)
      · cases locals[index - params.length] <;> simp
      · refine List.mem_map.mpr ⟨index - params.length, ?_, by omega⟩
        rw [List.mem_filter, List.mem_range]
        exact ⟨by omega, by simp⟩

/-- No parameter or local is declared twice. -/
theorem declarationOrder_nodup (params locals : List ValueType) :
    (declarationOrder params locals).Nodup := by
  rw [declarationOrder, List.nodup_append']
  refine ⟨List.nodup_range, List.nodup_flatMap.mpr ⟨fun type _ => ?_, ?_⟩, ?_⟩
  · exact (List.nodup_range.filter _).map (add_right_injective params.length)
  · refine List.Pairwise.imp (fun {first second} different => ?_)
      (show [ValueType.i32, .i64, .f32, .f64].Nodup by decide)
    intro index inFirst inSecond
    rcases List.mem_map.mp inFirst with ⟨position, hasFirst, rfl⟩
    rcases List.mem_map.mp inSecond with ⟨other, hasSecond, same⟩
    rw [Nat.add_left_cancel_iff] at same
    subst same
    have firstType := of_decide_eq_true (List.mem_filter.mp hasFirst).2
    have secondType := of_decide_eq_true (List.mem_filter.mp hasSecond).2
    rw [firstType] at secondType
    exact different (Option.some.inj secondType)
  · intro index param later
    have below := List.mem_range.mp param
    rcases List.mem_flatMap.mp later with ⟨type, _, member⟩
    rcases List.mem_map.mp member with ⟨position, _, rfl⟩
    omega

/-- Distinct locals and distinct labels are declared once each. -/
theorem declared_once {names : List Name} {order : List Nat} {labels : List LabelName}
    (orderNodup : order.Nodup) (labelsNodup : labels.Nodup) :
    ((order.map (localKey names) ++ labels.map labelKey).map Prod.fst).Nodup := by
  rw [List.map_append, List.map_map, List.map_map, List.nodup_append']
  refine ⟨orderNodup.map fun first second same => ?_, labelsNodup.map fun first second same => ?_,
    fun entity inOrder inLabels => ?_⟩
  · cases same
    rfl
  · cases same
    rfl
  · rcases List.mem_map.mp inOrder with ⟨index, _, rfl⟩
    rcases List.mem_map.mp inLabels with ⟨label, _, same⟩
    cases same

namespace LocalScope

/-- The entity that a name finds. -/
def lookup (scope : LocalScope) (name : Name) : Option LocalEntity :=
  (scope.keys.find? fun key => key.2 = name).map Prod.fst

/-- C names are distinct, so a reference is faithful when it finds its entity. -/
theorem Consistent.faithful_iff {scope : LocalScope} (consistent : scope.Consistent) :
    SymbolAction.Faithful scope.actions ↔
      forall entity name, .refer entity name ∈ scope.actions -> scope.lookup name = some entity := by
  have found : forall name, scope.lookup name =
      (SymbolAction.first name (SymbolAction.declared scope.actions)).map Prod.fst := by
    intro name
    rw [lookup, keys, List.find?_map, Option.map_map]
    rfl
  rw [SymbolAction.faithful_iff consistent.ordered]
  refine forall_congr' fun entity => forall_congr' fun name => forall_congr' fun _ => ?_
  rw [found, Option.map_eq_some_iff]
  refine exists_congr fun entry => and_congr_right fun here => ?_
  have member : entry ∈ SymbolAction.declared scope.actions := List.mem_of_find?_eq_some here
  constructor
  · rintro ⟨own, same⟩
    have first := consistent.declared _ _ _ member
    have second := consistent.declared _ _ _ same
    exact congrArg Prod.fst (List.inj_on_of_nodup_map consistent.distinct first second rfl)
  · rintro rfl
    exact ⟨entry.2.1, member⟩

end LocalScope

section Lookup

variable {names : List Name} {order : List Nat} {labels : List LabelName} {scope : LocalScope}

/-- A local finds the first local of its name. -/
theorem lookup_local (keys : scope.keys = order.map (localKey names) ++ labels.map labelKey)
    (bounded : forall index, index ∈ order -> index < names.length) {index : Nat} {name : Name}
    (present : index ∈ order) (named : names[index]? = some name) :
    scope.lookup name =
      (order.find? fun other => names[other]? = names[index]?).map LocalEntity.local := by
  have same : (order.map (localKey names)).find? (fun key => key.2 = name) =
      (order.find? fun other => names[other]? = names[index]?).map (localKey names) := by
    rw [List.find?_map]
    refine congrArg _ (List.find?_congr fun other member => ?_)
    have below := bounded other member
    rw [Function.comp_apply, localKey, List.getD_eq_getElem?_getD, named,
      List.getElem?_eq_getElem below]
    simp
  have some : (order.find? fun other => names[other]? = names[index]?).isSome := by
    rw [List.find?_isSome]
    exact ⟨index, present, by simp⟩
  rcases Option.isSome_iff_exists.mp some with ⟨first, found⟩
  rw [LocalScope.lookup, keys, List.find?_append, same, found]
  rfl

/-- A label finds itself unless a local has its name. -/
theorem lookup_label (keys : scope.keys = order.map (localKey names) ++ labels.map labelKey)
    (complete : forall index, index ∈ order ↔ index < names.length) {label : LabelName}
    (present : label ∈ labels) :
    scope.lookup label.text = some (.label label) ↔ label.text ∉ names := by
  rw [LocalScope.lookup, keys, List.find?_append]
  cases found : (order.map (localKey names)).find? fun key => key.2 = label.text with
  | some key =>
      have member := List.mem_of_find?_eq_some found
      have same := List.find?_some found
      rcases List.mem_map.mp member with ⟨index, inOrder, rfl⟩
      have below := (complete index).mp inOrder
      rw [decide_eq_true_eq, localKey, List.getD_eq_getElem?_getD,
        List.getElem?_eq_getElem below] at same
      have taken : label.text ∈ names := by
        rw [← same]
        exact List.getElem_mem below
      refine ⟨fun equal => ?_, fun absent => absurd taken absent⟩
      cases equal
  | none =>
      have absent : label.text ∉ names := by
        intro member
        rcases List.getElem_of_mem member with ⟨index, below, same⟩
        have other := List.find?_eq_none.mp found (localKey names index)
          (List.mem_map_of_mem ((complete index).mpr below))
        apply other
        rw [decide_eq_true_eq, localKey, List.getD_eq_getElem?_getD,
          List.getElem?_eq_getElem below]
        exact same
      refine ⟨fun _ => absent, fun _ => ?_⟩
      have some : ((labels.map labelKey).find? fun key => key.2 = label.text).isSome := by
        rw [List.find?_isSome]
        exact ⟨labelKey label, List.mem_map_of_mem present, by simp [labelKey]⟩
      rcases Option.isSome_iff_exists.mp some with ⟨key, here⟩
      rcases List.mem_map.mp (List.mem_of_find?_eq_some here) with ⟨other, _, rfl⟩
      have same := List.find?_some here
      rw [decide_eq_true_eq] at same
      rw [here, LabelName.text_injective same]
      rfl

end Lookup

/-- A label that is gone to is known or defined. -/
theorem goto_mem {mentions : List Mention} {known : List LabelName} {label : LabelName}
    (inScope : GotosInScope known mentions) (used : .goto label ∈ mentions) :
    label ∈ known ++ definedLabels mentions := by
  induction mentions generalizing known with
  | nil => cases used
  | cons mention rest inductionHypothesis =>
      rcases List.mem_cons.mp used with here | later
      · subst here
        exact List.mem_append_left _ inScope.1
      · cases mention with
        | define other => simpa [definedLabels] using inductionHypothesis inScope later
        | goto other => exact inductionHypothesis inScope.2 later
        | _ => exact inductionHypothesis inScope later

theorem writeFunc_returned {context : Context} {result : Option ValueType}
    {exprs : ExprList Scheme.applied} {code : Statements Scheme.applied}
    {returned : Option (CVar Scheme.applied)}
    (written : writeFunc context result exprs = some (code, returned)) :
    returned = result.map fun type => .stack 0 type := by
  simp only [writeFunc, Option.bind_eq_bind, Option.bind_eq_some_iff, Option.some.injEq,
    Prod.mk.injEq] at written
  rcases written with ⟨_, _, _, rfl⟩
  rfl

/-- The scope of a function, once it has been written: its locals and labels in
their order, and a lookup for each local and `goto` of its body. -/
theorem writeLocalScope_walked {globalSymbols : List Name} {names : List Name}
    {func : Func Scheme.binary} {context : Context} {body : Statements Scheme.applied}
    {returned : Option (CVar Scheme.applied)} {scope : LocalScope}
    (total : names.length = func.sig.params.length + func.localTypes.length)
    (written : writeFunc context func.sig.result (ApplyNames.visitFunc func.exprs) =
      some (body, returned))
    (walked : writeLocalScope globalSymbols names func body returned = some scope) :
    scope.Consistent ∧
      (∃ labels : List LabelName, scope.keys = (declarationOrder func.sig.params func.localTypes).map
          (localKey names) ++ labels.map labelKey ∧ labels.Nodup ∧
        forall label, .goto label ∈ exprReferences (ApplyNames.visitFunc func.exprs) ->
          label ∈ labels) ∧
      (forall index, .local index ∈ exprReferences (ApplyNames.visitFunc func.exprs) ->
        ∃ name, names[index]? = some name) ∧
      forall entity name, .refer entity name ∈ scope.actions ↔
        (∃ index, .local index ∈ exprReferences (ApplyNames.visitFunc func.exprs) ∧
          names[index]? = some name ∧ entity = .local index) ∨
        ∃ label, .goto label ∈ exprReferences (ApplyNames.visitFunc func.exprs) ∧
          name = label.text ∧ entity = .label label := by
  simp only [writeLocalScope, Option.bind_eq_bind, Option.bind_eq_some_iff] at walked
  rcases walked with ⟨declared, localsDeclared, walked⟩
  rcases declare_locals (LocalScope.consistent_start globalSymbols) localsDeclared with
    ⟨consistent, localKeys, noRefers⟩
  have keys := @LocalScope.keys_define declared (.label .func) LabelName.func.text
  rw [localKeys] at keys
  have total : forall index name, names[index]? = some name ->
      (.local index, name) ∈ (declared.define (.label .func) LabelName.func.text).keys := by
    intro index name found
    rw [keys]
    refine List.mem_append_left _ (List.mem_append_right _ (List.mem_map.mpr ⟨index, ?_, ?_⟩))
    · rw [mem_declarationOrder, ← total]
      exact (List.getElem?_eq_some_iff.mp found).1
    · rw [localKey, List.getD_eq_getElem?_getD, found]
      rfl
  have own : forall label, label ∈ [LabelName.func] ->
      labelKey label ∈ (declared.define (.label .func) LabelName.func.text).keys := by
    intro label member
    rw [keys, List.mem_singleton.mp member]
    exact List.mem_append_right _ List.mem_cons_self
  have kept : (mentions body ++ returned.toList.map CVar.mention).filter
      (fun mention => !mention.isStackVar) =
        exprReferences (ApplyNames.visitFunc func.exprs) := by
    rw [List.filter_append, ← writeFunc_references written]
    have silent : (returned.toList.map CVar.mention).filter
        (fun mention => !mention.isStackVar) = [] := by
      rw [writeFunc_returned written]
      cases func.sig.result <;> rfl
    rw [silent, List.append_nil]
    rfl
  have mentioned : forall mention : Mention, mention.isStackVar = false ->
      (mention ∈ mentions body ++ returned.toList.map CVar.mention ↔
        mention ∈ exprReferences (ApplyNames.visitFunc func.exprs)) := by
    intro mention other
    rw [← kept, List.mem_filter, other]
    exact (and_iff_left rfl).symm
  have inScope : GotosInScope [.func] (mentions body ++ returned.toList.map CVar.mention) := by
    rw [← gotosInScope_filter, kept]
    exact visitExprList_inScope func.exprs [] [.func] 0 (List.nil_subset _) List.mem_cons_self
  have run := walk_mentions (consistent.define (.label .func) LabelName.func.text) total own
    inScope walked
  have labels : definedLabels (mentions body ++ returned.toList.map CVar.mention) =
      definedLabels (exprReferences (ApplyNames.visitFunc func.exprs)) := by
    rw [← kept, definedLabels_filter]
  refine ⟨run.consistent, ⟨.func :: definedLabels (mentions body ++
    returned.toList.map CVar.mention), ?_, ?_, ?_⟩, ?_, ?_⟩
  · rw [run.keys, keys, List.append_assoc]
    rfl
  · rw [labels, List.nodup_cons]
    refine ⟨fun member => ?_, definedLabels_nodup func.exprs [] 0⟩
    rcases definedLabels_number func.exprs [] 0 .func member with ⟨_, same, _⟩
    cases same
  · intro label used
    exact goto_mem inScope ((mentioned (.goto label) rfl).mpr used)
  · intro index used
    exact run.named index ((mentioned (.local index) rfl).mpr used)
  · intro entity name
    rw [run.refers]
    have none : .refer entity name ∉
        (declared.define (.label .func) LabelName.func.text).actions := by
      intro member
      rcases List.mem_append.mp member with early | declaration
      · exact nomatch (noRefers entity name).mp early
      · cases List.mem_singleton.mp declaration
    rw [or_iff_right none]
    simp only [mentioned (.local _) rfl, mentioned (.goto _) rfl]

/-- The names in a function are faithful precisely when they are clear. -/
theorem local_names_faithful_iff (module : Module Scheme.binary) (iteration : IterationOrder)
    (globalSymbols : List Name) (func : Func Scheme.binary) (entries : List (Nat × Name))
    (names : List Name) (scope : LocalScope)
    (written : writeNamedFunc module iteration globalSymbols func entries = some (names, scope)) :
    LocalNamesFaithful scope ↔ LocalNamesClear func names := by
  simp only [writeNamedFunc, Option.bind_eq_bind, Option.bind_eq_some_iff, Option.some.injEq,
    Prod.mk.injEq] at written
  rcases written with ⟨bindings, _, found, named, ⟨body, returned⟩, bodyWritten, final, walked,
    rfl, rfl⟩
  have total := names_length named
  rcases writeLocalScope_walked total bodyWritten walked with
    ⟨consistent, ⟨labels, keys, nodup, known⟩, namedLocals, refers⟩
  have complete : forall index, index ∈ declarationOrder func.sig.params func.localTypes ↔
      index < found.length := by
    intro index
    rw [mem_declarationOrder, total]
  have once : (final.keys.map Prod.fst).Nodup := by
    rw [keys]
    exact declared_once (declarationOrder_nodup _ _) nodup
  have settled : LocalNamesFaithful final ↔ SymbolAction.Faithful final.actions :=
    ⟨LocalNamesFaithful.faithful, fun faithful => ⟨faithful, once, consistent.distinct⟩⟩
  rw [settled, consistent.faithful_iff]
  constructor
  · intro faithful
    constructor
    · intro index used
      rcases namedLocals index used with ⟨name, here⟩
      have finds := faithful _ _ ((refers _ _).mpr (Or.inl ⟨index, used, here, rfl⟩))
      rw [lookup_local keys (fun index => (complete index).mp)
        ((complete index).mpr (List.getElem?_eq_some_iff.mp here).1) here,
        Option.map_eq_some_iff] at finds
      rcases finds with ⟨first, isFirst, same⟩
      cases same
      exact isFirst
    · intro label used
      exact (lookup_label keys complete (known label used)).mp
        (faithful _ _ ((refers _ _).mpr (Or.inr ⟨label, used, rfl, rfl⟩)))
  · rintro ⟨localsClear, labelsClear⟩ entity name member
    rcases (refers entity name).mp member with ⟨index, used, named, rfl⟩ | ⟨label, used, rfl, rfl⟩
    · have below := (List.getElem?_eq_some_iff.mp named).1
      rw [lookup_local keys (fun index => (complete index).mp) ((complete index).mpr below) named,
        localsClear index used]
      rfl
    · exact (lookup_label keys complete (known label used)).mpr (labelsClear label used)

/-! ## A local named like a block -/

/-- The iteration in the order of insertion. -/
def insertionOrder : IterationOrder := .inserted

/-- A module that holds one function. -/
def oneFuncModule (func : Func Scheme.binary) : Module Scheme.binary where
  imports := []
  funcTypes := [func.sig]
  funcs := [func]
  tables := []
  memories := []
  globals := []
  exports := []
  starts := []
  elemSegments := []
  dataSegments := []

/-- One parameter, and a block that is left by a branch. -/
def branchingFunc : Func Scheme.binary where
  typeVar := 0
  sig := ⟨[.i32], none⟩
  localTypes := []
  exprs := .block () none (.instr (.br (0 : Nat)) .nil) .nil

/-- `s_global_symbols` as names. -/
def reservedNames : List Name := globalSymbols.map ascii

set_option maxRecDepth 4000 in
/-- With a parameter called `x` the branch finds its label. -/
theorem local_names_faithful_iff_branch : ∃ names scope,
    writeNamedFunc (oneFuncModule branchingFunc) insertionOrder reservedNames branchingFunc
      [(0, ascii "x")] = some (names, scope) ∧
    (LocalNamesFaithful scope ↔ LocalNamesClear branchingFunc names) :=
  ⟨_, _, rfl, local_names_faithful_iff (oneFuncModule branchingFunc) insertionOrder reservedNames
    branchingFunc [(0, ascii "x")] _ _ rfl⟩

set_option maxRecDepth 4000 in
/-- The parameter is called `B0`: the branch to the block, whose label is
`B0_0`, is written `goto B0`. -/
theorem branch_goes_to_parameter : ∃ names scope,
    writeNamedFunc (oneFuncModule branchingFunc) insertionOrder reservedNames branchingFunc
      [(0, ascii "B0")] = some (names, scope) ∧
    scope.definitions = [(.local 0, ascii "B0"), (.label .func, ascii "Bfunc"),
      (.label (.block 0), ascii "B0_0")] ∧
    SymbolAction.resolve [] scope.actions = [(.label (.block 0), some (ascii "B0"))] ∧
    ¬ LocalNamesFaithful scope := by
  have run : (writeNamedFunc (oneFuncModule branchingFunc) insertionOrder reservedNames
      branchingFunc [(0, ascii "B0")]).any (fun written =>
        written.2.definitions == [(.local 0, ascii "B0"), (.label .func, ascii "Bfunc"),
          (.label (.block 0), ascii "B0_0")] &&
        SymbolAction.resolve [] written.2.actions == [(.label (.block 0), some (ascii "B0"))] &&
        (SymbolAction.declared written.2.actions).map (fun entry => (entry.1, entry.2.2)) ==
          [(.local 0, ascii "B0"), (.label .func, ascii "Bfunc"),
            (.label (.block 0), ascii "B0_0")]) = true := by
    decide +kernel
  rcases (Option.any_eq_true _ _).mp run with ⟨⟨names, scope⟩, written, found⟩
  rcases Bool.and_eq_true_iff.mp found with ⟨both, declares⟩
  rcases Bool.and_eq_true_iff.mp both with ⟨defines, resolves⟩
  have definitions := eq_of_beq defines
  have resolved := eq_of_beq resolves
  have declarations := eq_of_beq declares
  refine ⟨names, scope, written, definitions, resolved, fun holds => ?_⟩
  have found : (.label (.block 0), some (ascii "B0")) ∈ SymbolAction.resolve [] scope.actions := by
    rw [resolved]
    exact List.mem_cons_self
  rcases holds.faithful _ _ found with ⟨name, symbol, equal, declared⟩
  have own : (.label (.block 0), ascii "B0") ∈ (SymbolAction.declared scope.actions).map
      fun entry => (entry.1, entry.2.2) := by
    cases equal
    exact List.mem_map.mpr ⟨_, declared, rfl⟩
  rw [declarations] at own
  revert own
  decide

end CWriter
end WasmSandboxing
