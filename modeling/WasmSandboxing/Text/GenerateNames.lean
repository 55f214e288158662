import WasmSandboxing.Text.ModuleFields

namespace WasmSandboxing
namespace Text
namespace Fields

open Foundation Wasm

/-!
# Generating names

`generate-names.cc`.  Whatever has no name is given one that is made of a letter
and a number, or of the names of an import or an export.  A name that is bound
is compared with those bound in the same table; a label is compared with
nothing, and parameters and locals have a table each.
-/

/-! ## Names that are compared -/

/-- The names of a table. -/
def keys (bindings : BindingHash) : List Name := bindings.map Prod.fst

theorem keys_append (first second : BindingHash) :
    keys (first ++ second) = keys first ++ keys second :=
  List.map_append

/-- `GenerateName`, without an index for `kInvalidIndex`. -/
def generateName (base : Name) (index : Option Nat) (disambiguator : Nat) : Name :=
  numbered (base ++ index.elim [] toText) (ascii "_") disambiguator

/-- The loops of `GenerateAndBindName` and `MaybeUseAndBindName`: the first of the
candidates that is not in the table is bound. -/
def bindFresh (bindings : BindingHash) (candidate : Nat -> Name) (index : Nat) :
    BindingHash :=
  bindings ++ [(firstFresh (keys bindings) candidate, index)]

/-- An entity that has a name keeps it. -/
def Entities.maybeBind (entities : Entities) (candidate : Nat -> Name) (index : Nat) :
    Entities :=
  if entities.names[index]? = some [] then
    { names := entities.names.set index (firstFresh (keys entities.bindings) candidate)
      bindings := bindFresh entities.bindings candidate index }
  else
    entities

namespace Module

def maybeBind (module : Module) (space : Space) (candidate : Nat -> Name) (index : Nat) :
    Module :=
  { module with
    space := Function.update module.space space
      ((module.space space).maybeBind candidate index) }

/-- `MaybeGenerateAndBindName` -/
def maybeGenerateAndBindName (module : Module) (space : Space) (base : String) (index : Nat) :
    Module :=
  module.maybeBind space (generateName (ascii base) (some index)) index

/-- `MaybeUseAndBindName`, which is given the characters up to a null. -/
def maybeUseAndBindName (module : Module) (space : Space) (name : Name) (index : Nat) : Module :=
  module.maybeBind space (generateName (cStr name) none) index

/-- `VisitImport`, with the imports of each kind that have been visited. -/
def visitImport (state : Module × (ExternalKind -> Nat)) (item : Import) :
    Module × (ExternalKind -> Nat) :=
  let newName := ascii "$" ++ item.moduleName ++ ascii "." ++ item.fieldName
  (state.1.maybeUseAndBindName item.kind.space newName (state.2 item.kind),
    Function.update state.2 item.kind (state.2 item.kind + 1))

/-- `VisitExport`.  What is exported may not exist. -/
def visitExport (iteration : IterationOrder) (module : Module) (item : Export) : Module :=
  match findIndex iteration (module.space item.kind.space).bindings item.var with
  | some index =>
      if index < (module.space item.kind.space).names.length then
        module.maybeUseAndBindName item.kind.space (ascii "$" ++ item.name) index
      else module
  | none => module

/-- `VisitGlobal` and its like, on every entity of a space. -/
def visitSpace (space : Space) (base : String) (module : Module) : Module :=
  (List.range (module.space space).names.length).foldl
    (fun module index => module.maybeGenerateAndBindName space base index) module

end Module

/-! ## Names of parameters and locals -/

/-- `GenerateAndBindLocalNames` -/
def generateAndBindLocalNames (base : String) (indexToName : List Name)
    (bindings : BindingHash) : BindingHash :=
  (List.range indexToName.length).foldl (fun bindings index =>
    if indexToName[index]? = some [] then
      bindFresh bindings (generateName (ascii base) (some index)) index
    else bindings) bindings

/-! ## Labels -/

/-- `MaybeGenerateName`: "There's no bindings hash, so the name can't be a
duplicate." -/
def maybeGenerateName (base : Name) (index : Nat) (label : Name) : Name :=
  if label = [] then generateName base (some index) 0 else label

/-- `BeginBlockExpr` and `BeginLoopExpr` -/
def bodyBase : BodyType -> Name
  | .block => ascii "$B"
  | .loop => ascii "$L"

/-- `BeginIfExpr` and `BeginIfExceptExpr`; there is no `BeginTryExpr`. -/
def armsBase : ArmsType -> Option Name
  | .ite => some (ascii "$I")
  | .ifExcept _ => some (ascii "$E")
  | .tryCatch => none

/-- The expressions with their labels, and `label_count_` behind them. -/
def nameLabels : Nat -> ExprList -> ExprList × Nat
  | count, .nil => (.nil, count)
  | count, .instr first rest =>
      let named := nameLabels count rest
      (.instr first named.1, named.2)
  | count, .body type block exprs rest =>
      let label := maybeGenerateName (bodyBase type) count block.label
      let inner := nameLabels (count + 1) exprs
      let named := nameLabels inner.2 rest
      (.body type { block with label := label } inner.1 named.1, named.2)
  | count, .arms type block first second rest =>
      let label := (armsBase type).elim block.label fun base =>
        maybeGenerateName base count block.label
      let begun := (armsBase type).elim count fun _ => count + 1
      let left := nameLabels begun first
      let right := nameLabels left.2 second
      let named := nameLabels right.2 rest
      (.arms type { block with label := label } left.1 right.1 named.1, named.2)

/-! ## Functions and modules -/

/-- `VisitFunc` without the function's own name.  The reverse mapping asserts
that a binding is of a parameter or local that there is. -/
def visitFunc (iteration : IterationOrder) (func : Func) : Option Func := do
  let params <-
    makeTypeBindingReverseMapping func.numParams (iteration.order func.paramBindings)
  let locals <-
    makeTypeBindingReverseMapping func.numLocals (iteration.order func.localBindings)
  some { func with
    paramBindings := generateAndBindLocalNames "$p" params func.paramBindings
    localBindings := generateAndBindLocalNames "$l" locals func.localBindings
    exprs := (nameLabels 0 func.exprs).1 }

/-- The part of `VisitModule` that names what is in an index space. -/
def nameSpaces (iteration : IterationOrder) (module : Module) : Module :=
  let imported := (module.imports.foldl Module.visitImport (module, fun _ => 0)).1
  let exported := module.exports.foldl (Module.visitExport iteration) imported
  ((((((exported.visitSpace .global "$g").visitSpace .funcType "$t").visitSpace .func
    "$f").visitSpace .table "$T").visitSpace .memory "$M").visitSpace .except "$e")

/-- `GenerateNames`.  What is inside functions is named apart from them, as
neither looks at the names of the other. -/
def generateNames (iteration : IterationOrder) (module : Module) : Option Module := do
  let funcs <- module.funcs.mapM (visitFunc iteration)
  some { nameSpaces iteration module with funcs := funcs }

/-! ## Candidates -/

theorem generateName_injective (base : Name) (index : Option Nat) :
    Function.Injective (generateName base index) :=
  numbered_injective _ _

theorem generateName_ne_nil {base : Name} (named : base ≠ []) (index : Option Nat)
    (disambiguator : Nat) : generateName base index disambiguator ≠ [] := by
  rw [generateName, numbered]
  split
  · exact List.append_ne_nil_of_left_ne_nil named _
  · exact List.append_ne_nil_of_left_ne_nil (List.append_ne_nil_of_left_ne_nil named _) _

theorem ascii_ne_nil {base : String} (nonempty : base.toList ≠ []) : ascii base ≠ [] :=
  fun empty => nonempty (List.map_eq_nil_iff.mp empty)

/-- The search for a name that is not bound ends. -/
theorem firstFresh_ne_nil {base : Name} (named : base ≠ []) (taken : List Name)
    (index : Option Nat) : firstFresh taken (generateName base index) ≠ [] := by
  rcases firstFresh_candidate taken (generateName base index) with ⟨count, same⟩
  rw [same]
  exact generateName_ne_nil named index count

/-! ## Index spaces -/

namespace Entities

/-- Every name is bound to the index of its entity. -/
def Bound (entities : Entities) : Prop :=
  forall (index : Nat) (name : Name), entities.names[index]? = some name -> name ≠ [] ->
    (name, index) ∈ entities.bindings

/-- Names are added, and none is changed or bound a second time. -/
structure Extends (before after : Entities) : Prop where
  size : after.names.length = before.names.length
  kept : forall (index : Nat) (name : Name), before.names[index]? = some name -> name ≠ [] ->
    after.names[index]? = some name
  bindings : before.bindings <+: after.bindings
  distinct : (keys after.bindings).Nodup ↔ (keys before.bindings).Nodup
  bound : before.Bound -> after.Bound
  exact : before.Exact -> after.Exact

theorem Extends.refl (entities : Entities) : entities.Extends entities where
  size := rfl
  kept := fun _index _name present _named => present
  bindings := List.prefix_rfl
  distinct := Iff.rfl
  bound := id
  exact := id

theorem Extends.trans {first second third : Entities} (earlier : first.Extends second)
    (later : second.Extends third) : first.Extends third where
  size := later.size.trans earlier.size
  kept := fun index name present named =>
    later.kept index name (earlier.kept index name present named) named
  bindings := earlier.bindings.trans later.bindings
  distinct := later.distinct.trans earlier.distinct
  bound := fun bound => later.bound (earlier.bound bound)
  exact := fun exact => later.exact (earlier.exact exact)

/-- An entity that has a name still has it. -/
theorem Extends.named {before after : Entities} (extended : before.Extends after) {index : Nat}
    (named : before.names[index]? ≠ some []) : after.names[index]? ≠ some [] := by
  intro unnamed
  have inside : index < before.names.length := by
    rw [← extended.size]
    exact (List.getElem?_eq_some_iff.mp unnamed).1
  have present := List.getElem?_eq_getElem inside
  have isNamed : before.names[index] ≠ [] := fun empty => named (empty ▸ present)
  exact isNamed (Option.some.inj ((extended.kept index _ present isNamed).symm.trans unnamed))

theorem keys_bindFresh (bindings : BindingHash) (candidate : Nat -> Name) (index : Nat) :
    keys (bindFresh bindings candidate index) =
      keys bindings ++ [firstFresh (keys bindings) candidate] := by
  rw [keys, bindFresh, List.map_append]
  rfl

theorem keys_bindFresh_nodup {bindings : BindingHash} {candidate : Nat -> Name}
    (apart : Function.Injective candidate) (index : Nat) :
    (keys (bindFresh bindings candidate index)).Nodup ↔ (keys bindings).Nodup := by
  rw [keys_bindFresh, List.nodup_append]
  constructor
  · exact fun nodup => nodup.1
  · intro nodup
    refine ⟨nodup, List.nodup_singleton _, fun name isMember other isLast same => ?_⟩
    rw [List.mem_singleton] at isLast
    exact firstFresh_not_mem _ apart (isLast ▸ same ▸ isMember)

theorem maybeBind_extends (entities : Entities) {base : Name} (isNamed : base ≠ [])
    (number : Option Nat) (index : Nat) :
    entities.Extends (entities.maybeBind (generateName base number) index) := by
  have apart := generateName_injective base number
  rw [maybeBind]
  split
  · rename_i unnamed
    constructor
    case size => exact List.length_set
    case kept =>
      intro other name present named
      have different : index ≠ other := by
        rintro rfl
        exact named (Option.some.inj (present.symm.trans unnamed))
      rw [List.getElem?_set_ne different]
      exact present
    case bindings => exact List.prefix_append _ _
    case distinct => exact keys_bindFresh_nodup apart index
    case bound =>
      intro bound other name present named
      rw [List.getElem?_set] at present
      split at present
      · rename_i same
        split at present
        · cases present
          subst same
          exact List.mem_append_right _ (List.mem_singleton.mpr rfl)
        · cases present
      · exact List.mem_append_left _ (bound other name present named)
    case exact =>
      intro exact
      exact (exact.append_right _).trans
        (named_set unnamed (firstFresh_ne_nil isNamed _ number)).symm
  · exact .refl entities

theorem maybeBind_named (entities : Entities) {base : Name} (named : base ≠ [])
    (index : Option Nat) (position : Nat) :
    (entities.maybeBind (generateName base index) position).names[position]? ≠ some [] := by
  rw [maybeBind]
  split
  · rename_i unnamed
    have inside := (List.getElem?_eq_some_iff.mp unnamed).1
    change (entities.names.set position _)[position]? ≠ some []
    rw [List.getElem?_set_self inside]
    exact fun empty => firstFresh_ne_nil named _ index (Option.some.inj empty)
  · assumption

end Entities

namespace Module

/-- Every space is extended; what is in functions stays as it is. -/
def Extends (before after : Module) : Prop :=
  forall space, (before.space space).Extends (after.space space)

theorem Extends.refl (module : Module) : module.Extends module :=
  fun space => .refl (module.space space)

theorem Extends.trans {first second third : Module} (earlier : first.Extends second)
    (later : second.Extends third) : first.Extends third :=
  fun space => (earlier space).trans (later space)

theorem maybeBind_extends (module : Module) (space : Space) {base : Name} (isNamed : base ≠ [])
    (number : Option Nat) (index : Nat) :
    module.Extends (module.maybeBind space (generateName base number) index) := by
  intro other
  simp only [maybeBind, Function.update_apply]
  split
  · rename_i same
    subst same
    exact Entities.maybeBind_extends _ isNamed number index
  · exact .refl _

theorem foldl_extends {Item : Type} {step : Module -> Item -> Module}
    (each : forall (module : Module) (item : Item), module.Extends (step module item))
    (items : List Item) (module : Module) : module.Extends (items.foldl step module) := by
  induction items generalizing module with
  | nil => exact .refl module
  | cons item rest inductionHypothesis =>
      exact (each module item).trans (inductionHypothesis (step module item))

/-- What is given to `MaybeUseAndBindName` begins with a dollar. -/
theorem cStr_dollar_ne_nil (rest : Name) : cStr (ascii "$" ++ rest) ≠ [] := by
  have dollar : ascii "$" = [36] := rfl
  simp [cStr, dollar]

theorem visitImports_extends (items : List Import) (state : Module × (ExternalKind -> Nat)) :
    state.1.Extends (items.foldl visitImport state).1 := by
  induction items generalizing state with
  | nil => exact .refl state.1
  | cons item rest inductionHypothesis =>
      have first := maybeBind_extends state.1 item.kind.space
        (cStr_dollar_ne_nil (item.moduleName ++ ascii "." ++ item.fieldName)) none
        (state.2 item.kind)
      exact first.trans (inductionHypothesis (visitImport state item))

theorem visitExport_extends (iteration : IterationOrder) (module : Module) (item : Export) :
    module.Extends (visitExport iteration module item) := by
  rw [visitExport]
  split
  · split
    · exact maybeBind_extends module _ (cStr_dollar_ne_nil item.name) none _
    · exact .refl module
  · exact .refl module

theorem visitSpace_extends (space : Space) (base : String) (nonempty : base.toList ≠ [])
    (module : Module) : module.Extends (visitSpace space base module) :=
  foldl_extends (fun module index =>
    maybeBind_extends module space (ascii_ne_nil nonempty) (some index) index) _ module

/-- Every entity of the space has been given a name. -/
def Named (module : Module) (space : Space) : Prop :=
  [] ∉ (module.space space).names

theorem Extends.named {before after : Module} (extended : before.Extends after) {space : Space}
    (named : before.Named space) : after.Named space := by
  intro isMember
  rcases List.getElem?_of_mem isMember with ⟨index, unnamed⟩
  exact (extended space).named (fun empty => named (List.mem_of_getElem? empty)) unnamed

theorem visitSpace_named (space : Space) (base : String) (nonempty : base.toList ≠ [])
    (module : Module) : (visitSpace space base module).Named space := by
  have upTo (count : Nat) (module : Module) (index : Nat) (below : index < count) :
      (((List.range count).foldl (fun module index =>
        module.maybeGenerateAndBindName space base index) module).space space).names[index]? ≠
        some [] := by
    induction count with
    | zero => exact absurd below (Nat.not_lt_zero index)
    | succ count inductionHypothesis =>
        rw [List.range_succ, List.foldl_append, List.foldl_cons, List.foldl_nil]
        generalize (List.range count).foldl (fun module index =>
          module.maybeGenerateAndBindName space base index) module = reached at *
        rcases Nat.lt_succ_iff_lt_or_eq.mp below with before | rfl
        · exact (maybeBind_extends reached space (ascii_ne_nil nonempty) (some count) count space).named
            (inductionHypothesis before)
        · simp only [maybeGenerateAndBindName, maybeBind, Function.update_self]
          exact Entities.maybeBind_named _ (ascii_ne_nil nonempty) (some index) index
  intro isMember
  rcases List.getElem?_of_mem isMember with ⟨index, unnamed⟩
  have inside := (List.getElem?_eq_some_iff.mp unnamed).1
  rw [(visitSpace_extends space base nonempty module space).size] at inside
  exact upTo _ module index inside unnamed

end Module

theorem nameSpaces_extends (iteration : IterationOrder) (module : Module) :
    module.Extends (nameSpaces iteration module) := by
  have imported := Module.visitImports_extends module.imports (module, fun _ => 0)
  have exported := Module.foldl_extends (Module.visitExport_extends iteration) module.exports
    (module.imports.foldl Module.visitImport (module, fun _ => 0)).1
  exact (imported.trans exported).trans <|
    (Module.visitSpace_extends .global "$g" (by decide) _).trans <|
    (Module.visitSpace_extends .funcType "$t" (by decide) _).trans <|
    (Module.visitSpace_extends .func "$f" (by decide) _).trans <|
    (Module.visitSpace_extends .table "$T" (by decide) _).trans <|
    (Module.visitSpace_extends .memory "$M" (by decide) _).trans <|
    Module.visitSpace_extends .except "$e" (by decide) _

/-- The name of a space stays what the visits behind it leave. -/
theorem nameSpaces_named (iteration : IterationOrder) (module : Module) (space : Space) :
    (nameSpaces iteration module).Named space := by
  have global := Module.visitSpace_extends .global "$g" (by decide)
  have funcType := Module.visitSpace_extends .funcType "$t" (by decide)
  have func := Module.visitSpace_extends .func "$f" (by decide)
  have table := Module.visitSpace_extends .table "$T" (by decide)
  have memory := Module.visitSpace_extends .memory "$M" (by decide)
  have except := Module.visitSpace_extends .except "$e" (by decide)
  rw [nameSpaces]
  cases space with
  | global =>
      exact (((((funcType _).trans (func _)).trans (table _)).trans (memory _)).trans
        (except _)).named (Module.visitSpace_named .global "$g" (by decide) _)
  | funcType =>
      exact ((((func _).trans (table _)).trans (memory _)).trans (except _)).named
        (Module.visitSpace_named .funcType "$t" (by decide) _)
  | func =>
      exact (((table _).trans (memory _)).trans (except _)).named
        (Module.visitSpace_named .func "$f" (by decide) _)
  | table =>
      exact ((memory _).trans (except _)).named
        (Module.visitSpace_named .table "$T" (by decide) _)
  | memory => exact (except _).named (Module.visitSpace_named .memory "$M" (by decide) _)
  | except => exact Module.visitSpace_named .except "$e" (by decide) _

/-! ## Parameters and locals -/

/-- The parameters or locals that no name is bound to. -/
def missing (size : Nat) (bindings : BindingHash) : List Nat :=
  (List.range size).filter fun index => index ∉ bindings.map Prod.snd

theorem mem_missing {size index : Nat} {bindings : BindingHash} :
    index ∈ missing size bindings ↔ index < size ∧ forall name, (name, index) ∉ bindings := by
  rw [missing, List.mem_filter, List.mem_range, decide_eq_true_iff, List.mem_map]
  refine and_congr_right fun _ => ?_
  constructor
  · exact fun absent name isMember => absent ⟨(name, index), isMember, rfl⟩
  · rintro absent ⟨⟨name, other⟩, isMember, rfl⟩
    exact absent name isMember

/-- The bindings that are added, each by the names that are bound at first. -/
def added (base : String) (size : Nat) (bindings : BindingHash) : BindingHash :=
  (missing size bindings).map fun index =>
    (firstFresh (keys bindings) (generateName (ascii base) (some index)), index)

/-- The index is read back from a generated name, as no digit follows it. -/
theorem generateName_index {base : Name} {first second firstCount secondCount : Nat}
    (same : generateName base (some first) firstCount =
      generateName base (some second) secondCount) : first = second := by
  have isDigit (number : Nat) (byte : UInt8) (isMember : byte ∈ toText number) :
      decide (48 ≤ byte ∧ byte ≤ 57) = true := by
    rcases List.mem_map.mp isMember with ⟨char, isChar, rfl⟩
    have digit := digit_toUInt8
      (Nat.isDigit_of_mem_toDigits (by decide : 0 < 10) (by decide) isChar)
    exact decide_eq_true ⟨digit.1, digit.2.1⟩
  have front (index count : Nat) : ∃ rest, generateName base (some index) count =
      base ++ (toText index ++ rest) ∧
        rest.takeWhile (fun byte => decide (48 ≤ byte ∧ byte ≤ 57)) = [] := by
    rw [generateName, numbered]
    split
    · exact ⟨[], by rw [List.append_nil]; rfl, rfl⟩
    · refine ⟨ascii "_" ++ toText count, ?_, rfl⟩
      rw [List.append_assoc]
      rfl
  rcases front first firstCount with ⟨rest, first_eq, stops⟩
  rcases front second secondCount with ⟨other, second_eq, other_stops⟩
  rw [first_eq, second_eq] at same
  have digits := congrArg (List.takeWhile fun byte => decide (48 ≤ byte ∧ byte ≤ 57))
    (List.append_cancel_left same)
  rw [List.takeWhile_append_of_pos (isDigit first), List.takeWhile_append_of_pos (isDigit second),
    stops, other_stops, List.append_nil, List.append_nil] at digits
  exact toText_injective digits

/-- Names that have been generated for other indices are no candidates. -/
theorem firstFresh_append {base : Name} {taken generated : List Name} {index : Nat}
    (others : forall name, name ∈ generated ->
      ∃ other count, other ≠ index ∧ name = generateName base (some other) count) :
    firstFresh (taken ++ generated) (generateName base (some index)) =
      firstFresh taken (generateName base (some index)) := by
  have apart := generateName_injective base (some index)
  refine (firstFresh_firstFree (taken ++ generated) apart).unique
    ((firstFresh_firstFree taken apart).congr fun count => ?_)
  rw [List.mem_append]
  refine ⟨.inl, fun isMember => isMember.resolve_right fun isGenerated => ?_⟩
  rcases others _ isGenerated with ⟨other, otherCount, different, same⟩
  exact different (generateName_index same).symm

/-- The loop adds exactly the missing bindings. -/
theorem generateAndBindLocalNames_eq (base : String) {indexToName : List Name}
    {bindings : BindingHash}
    (mapped : forall index, indexToName[index]? = some [] ↔
      index < indexToName.length ∧ forall name, (name, index) ∉ bindings) :
    generateAndBindLocalNames base indexToName bindings =
      bindings ++ added base indexToName.length bindings := by
  rw [generateAndBindLocalNames, added, missing]
  have upTo (count : Nat) (within : count ≤ indexToName.length) :
      (List.range count).foldl (fun bindings index =>
        if indexToName[index]? = some [] then
          bindFresh bindings (generateName (ascii base) (some index)) index
        else bindings) bindings =
      bindings ++ ((List.range count).filter fun index => index ∉ bindings.map Prod.snd).map
        fun index => (firstFresh (keys bindings) (generateName (ascii base) (some index)), index) := by
    induction count with
    | zero => exact (List.append_nil bindings).symm
    | succ count inductionHypothesis =>
        have isMissing : indexToName[count]? = some [] ↔ count ∉ bindings.map Prod.snd := by
          rw [mapped, and_iff_right (by omega : count < indexToName.length), List.mem_map]
          constructor
          · rintro absent ⟨⟨name, other⟩, isMember, rfl⟩
            exact absent name isMember
          · exact fun absent name isMember => absent ⟨(name, count), isMember, rfl⟩
        rw [List.range_succ, List.foldl_append, List.foldl_cons, List.foldl_nil,
          inductionHypothesis (by omega), List.filter_append, List.map_append]
        by_cases unnamed : indexToName[count]? = some []
        · have isAdded : [count].filter (fun index => index ∉ bindings.map Prod.snd) = [count] := by
            refine List.filter_eq_self.mpr fun index isMember => ?_
            rw [List.mem_singleton.mp isMember]
            exact decide_eq_true (isMissing.mp unnamed)
          rw [if_pos unnamed, isAdded, bindFresh, keys_append, List.append_assoc,
            firstFresh_append]
          · rfl
          · intro name isGenerated
            rw [keys, List.map_map] at isGenerated
            rcases List.mem_map.mp isGenerated with ⟨other, isEarlier, rfl⟩
            have before := List.mem_range.mp (List.mem_of_mem_filter isEarlier)
            rcases firstFresh_candidate (keys bindings) (generateName (ascii base) (some other)) with
              ⟨otherCount, same⟩
            exact ⟨other, otherCount, Nat.ne_of_lt before, same⟩
        · have isLeft : [count].filter (fun index => index ∉ bindings.map Prod.snd) = [] := by
            refine List.filter_eq_nil_iff.mpr fun index isMember absent => ?_
            rw [List.mem_singleton.mp isMember] at absent
            exact unnamed (isMissing.mpr (of_decide_eq_true absent))
          rw [if_neg unnamed, isLeft, List.map_nil, List.append_nil]
  exact upTo _ (Nat.le_refl _)

/-- The reverse mapping is empty where no name is bound. -/
theorem reverseMapping_spec {bindings : BindingHash} (nonempty : [] ∉ keys bindings)
    {mapping : List Name} (inRange : forall binding, binding ∈ bindings ->
      binding.2 < mapping.length) :
    ∃ result, bindings.foldlM (fun (mapping : List Name) (binding : Name × Nat) =>
        if binding.2 < mapping.length then some (mapping.set binding.2 binding.1) else none)
        mapping = some result ∧ result.length = mapping.length ∧
      forall index : Nat, result[index]? = some [] ↔
        mapping[index]? = some [] ∧ forall name, (name, index) ∉ bindings := by
  induction bindings generalizing mapping with
  | nil =>
      refine ⟨mapping, rfl, rfl, fun index => ?_⟩
      exact (and_iff_left fun name isMember => List.not_mem_nil isMember).symm
  | cons binding rest inductionHypothesis =>
      rcases binding with ⟨name, position⟩
      have inside := inRange (name, position) List.mem_cons_self
      have named : name ≠ [] := fun empty => nonempty (empty ▸ List.mem_cons_self)
      have inRest (other : Name × Nat) (isMember : other ∈ rest) :
          other.2 < (mapping.set position name).length := by
        rw [List.length_set]
        exact inRange other (List.mem_cons_of_mem _ isMember)
      rcases inductionHypothesis (fun isMember => nonempty (List.mem_cons_of_mem _ isMember)) inRest
        with ⟨result, folded, length_eq, empty_iff⟩
      refine ⟨result, ?_, length_eq.trans List.length_set, fun index => ?_⟩
      · rw [List.foldlM_cons, if_pos inside]
        exact folded
      · rw [empty_iff, List.getElem?_set]
        simp only [List.mem_cons, Prod.mk.injEq, not_or, not_and]
        by_cases here : position = index
        · subst here
          rw [if_pos rfl, if_pos inside]
          constructor
          · exact fun empty => absurd (Option.some.inj empty.1) named
          · exact fun absent => absurd rfl ((absent.2 name).1 rfl)
        · rw [if_neg here]
          refine and_congr_right fun _ => forall_congr' fun other => ?_
          exact (and_iff_right fun _ same => here same.symm).symm

/-- The assertion holds exactly when what is bound is there. -/
theorem makeTypeBindingReverseMapping_spec (iteration : IterationOrder) {bindings : BindingHash}
    (nonempty : [] ∉ keys bindings) {size : Nat}
    (inRange : forall binding, binding ∈ bindings -> binding.2 < size) :
    ∃ mapping, makeTypeBindingReverseMapping size (iteration.order bindings) = some mapping ∧
      mapping.length = size ∧ forall index : Nat, mapping[index]? = some [] ↔
        index < size ∧ forall name, (name, index) ∉ bindings := by
  have perm := iteration.perm bindings
  have ordered_nonempty : [] ∉ keys (iteration.order bindings) :=
    fun isMember => nonempty ((perm.map Prod.fst).mem_iff.mp isMember)
  have ordered_inRange (binding : Name × Nat) (isMember : binding ∈ iteration.order bindings) :
      binding.2 < (List.replicate size ([] : Name)).length := by
    rw [List.length_replicate]
    exact inRange binding (perm.mem_iff.mp isMember)
  rcases reverseMapping_spec ordered_nonempty ordered_inRange with
    ⟨mapping, folded, length_eq, empty_iff⟩
  refine ⟨mapping, folded, length_eq.trans List.length_replicate, fun index => ?_⟩
  rw [empty_iff, List.getElem?_replicate]
  refine and_congr ?_ (forall_congr' fun name => not_congr perm.mem_iff)
  split
  · rename_i inside
    exact iff_of_true rfl inside
  · rename_i outside
    exact iff_of_false nofun outside

theorem reverseMapping_inRange {bindings : BindingHash} {mapping result : List Name}
    (folded : bindings.foldlM (fun (mapping : List Name) (binding : Name × Nat) =>
        if binding.2 < mapping.length then some (mapping.set binding.2 binding.1) else none)
        mapping = some result) :
    forall binding, binding ∈ bindings -> binding.2 < mapping.length := by
  induction bindings generalizing mapping with
  | nil => exact fun binding isMember => absurd isMember List.not_mem_nil
  | cons first rest inductionHypothesis =>
      rw [List.foldlM_cons] at folded
      split at folded
      · rename_i inside
        intro binding isMember
        rcases List.mem_cons.mp isMember with rfl | later
        · exact inside
        · have below := inductionHypothesis folded binding later
          rwa [List.length_set] at below
      · cases folded

theorem makeTypeBindingReverseMapping_inRange {iteration : IterationOrder}
    {bindings : BindingHash} {size : Nat} {mapping : List Name}
    (mapped : makeTypeBindingReverseMapping size (iteration.order bindings) = some mapping) :
    forall binding, binding ∈ bindings -> binding.2 < size := by
  intro binding isMember
  have below := reverseMapping_inRange mapped binding ((iteration.perm bindings).mem_iff.mpr isMember)
  rwa [List.length_replicate] at below

theorem mem_added {base : String} {size index : Nat} {bindings : BindingHash} {name : Name} :
    (name, index) ∈ added base size bindings ↔
      (index < size ∧ forall name, (name, index) ∉ bindings) ∧
        FirstFree (keys bindings) (generateName (ascii base) (some index)) name := by
  have fresh := firstFresh_firstFree (keys bindings)
    (generateName_injective (ascii base) (some index))
  rw [added, List.mem_map, ← mem_missing]
  constructor
  · rintro ⟨other, isMissing, same⟩
    cases same
    exact ⟨isMissing, fresh⟩
  · rintro ⟨isMissing, isFirst⟩
    exact ⟨index, isMissing, by rw [fresh.unique isFirst]⟩

/-- Names for different indices are different. -/
theorem keys_added_nodup (base : String) (size : Nat) (bindings : BindingHash) :
    (keys (added base size bindings)).Nodup := by
  rw [keys, added, List.map_map]
  refine List.Nodup.map_on (fun first _ second _ same => ?_) (List.nodup_range.filter _)
  rcases firstFresh_candidate (keys bindings) (generateName (ascii base) (some first)) with
    ⟨firstCount, first_eq⟩
  rcases firstFresh_candidate (keys bindings) (generateName (ascii base) (some second)) with
    ⟨secondCount, second_eq⟩
  exact generateName_index (first_eq.symm.trans (same.trans second_eq))

theorem mem_keys {bindings : BindingHash} {name : Name} :
    name ∈ keys bindings ↔ ∃ index, (name, index) ∈ bindings := by
  rw [keys, List.mem_map]
  constructor
  · rintro ⟨⟨other, index⟩, isMember, rfl⟩
    exact ⟨index, isMember⟩
  · rintro ⟨index, isMember⟩
    exact ⟨(name, index), isMember, rfl⟩

/-- The names of one table that are generated are not bound in another. -/
def Clear (base : String) (size : Nat) (bindings other : BindingHash) : Prop :=
  forall index, index < size -> (forall name, (name, index) ∉ bindings) ->
    forall name, FirstFree (keys bindings) (generateName (ascii base) (some index)) name ->
      name ∉ keys other

theorem clear_iff {base : String} {size : Nat} {bindings other : BindingHash} :
    Clear base size bindings other ↔
      List.Disjoint (keys (added base size bindings)) (keys other) := by
  constructor
  · intro clear name isAdded isOther
    rcases mem_keys.mp isAdded with ⟨index, isMember⟩
    rcases mem_added.mp isMember with ⟨⟨below, absent⟩, isFirst⟩
    exact clear index below absent name isFirst isOther
  · intro disjoint index below absent name isFirst isOther
    exact disjoint (mem_keys.mpr ⟨index, mem_added.mpr ⟨⟨below, absent⟩, isFirst⟩⟩) isOther

/-- A generated parameter name is no generated local name. -/
theorem added_disjoint (paramSize localSize : Nat) (params locals : BindingHash) :
    List.Disjoint (keys (added "$p" paramSize params)) (keys (added "$l" localSize locals)) := by
  have second {base : String} {size : Nat} {bindings : BindingHash} {name : Name}
      (isAdded : name ∈ keys (added base size bindings)) : ∃ rest, name = ascii base ++ rest := by
    rcases mem_keys.mp isAdded with ⟨index, isMember⟩
    rcases (mem_added.mp isMember).2 with ⟨count, rfl, -⟩
    rw [generateName, numbered]
    split
    · exact ⟨_, rfl⟩
    · exact ⟨_, by rw [List.append_assoc]⟩
  intro name isParam isLocal
  rcases second isParam with ⟨rest, rfl⟩
  rcases second isLocal with ⟨other, same⟩
  have letters := congrArg (fun name => name[1]?) same
  simp [ascii] at letters
  exact absurd letters (by decide)

theorem added_fresh (base : String) (size : Nat) (bindings : BindingHash) :
    List.Disjoint (keys bindings) (keys (added base size bindings)) := by
  intro name isBound isAdded
  rcases mem_keys.mp isAdded with ⟨index, isMember⟩
  rcases (mem_added.mp isMember).2 with ⟨count, -, free, -⟩
  exact free isBound

/-- Which names of parameters and locals are distinct behind `VisitFunc`. -/
theorem keys_nodup_iff (numParams numLocals : Nat) (params locals : BindingHash) :
    (keys (params ++ added "$p" numParams params) ++
        keys (locals ++ added "$l" numLocals locals)).Nodup ↔
      (keys params ++ keys locals).Nodup ∧ Clear "$p" numParams params locals ∧
        Clear "$l" numLocals locals params := by
  rw [clear_iff, clear_iff, keys_append, keys_append]
  simp only [List.nodup_append', List.disjoint_append_left, List.disjoint_append_right]
  have paramsFresh := added_fresh "$p" numParams params
  have localsFresh := added_fresh "$l" numLocals locals
  have apart := added_disjoint numParams numLocals params locals
  have paramsNodup := keys_added_nodup "$p" numParams params
  have localsNodup := keys_added_nodup "$l" numLocals locals
  constructor
  · rintro ⟨⟨first, -⟩, ⟨second, -⟩, ⟨joint, paramsLeft⟩, localsRight, -⟩
    exact ⟨⟨first, second, joint⟩, paramsLeft, List.disjoint_comm.mp localsRight⟩
  · rintro ⟨⟨first, second, joint⟩, paramsClear, localsClear⟩
    exact ⟨⟨first, paramsNodup, paramsFresh⟩, ⟨second, localsNodup, localsFresh⟩,
      ⟨joint, paramsClear⟩, List.disjoint_comm.mp localsClear, apart⟩

/-! ## Labels -/

/-- Every block has a label that no block around it has. -/
def Nested : List Name -> ExprList -> Prop
  | _, .nil => True
  | around, .instr _ rest => Nested around rest
  | around, .body _ block exprs rest =>
      block.label ≠ [] ∧ block.label ∉ around ∧ Nested (block.label :: around) exprs ∧
        Nested around rest
  | around, .arms _ block first second rest =>
      block.label ≠ [] ∧ block.label ∉ around ∧ Nested (block.label :: around) first ∧
        Nested (block.label :: around) second ∧ Nested around rest

/-- The labels of all blocks, in the order in which they begin. -/
def labels : ExprList -> List Name
  | .nil => []
  | .instr _ rest => labels rest
  | .body _ block exprs rest => block.label :: labels exprs ++ labels rest
  | .arms _ block first second rest =>
      block.label :: labels first ++ labels second ++ labels rest

/-- A label as it is written, if it is, and what it would be called otherwise. -/
structure LabelSite where
  label : Name
  base : Name
  number : Nat

/-- `GenerateName` for a label. -/
def LabelSite.generated (site : LabelSite) : Name := site.base ++ toText site.number

def LabelSite.name (site : LabelSite) : Name := if site.label = [] then site.generated else site.label

/-- A label that is written differs from one around it, be that written too or
generated; and a label that is generated differs from one that is written. -/
structure LabelSite.Apart (outer inner : LabelSite) : Prop where
  written : outer.label ≠ [] -> inner.label ≠ [] -> inner.label ≠ outer.label
  within : outer.label = [] -> inner.label ≠ [] -> inner.label ≠ outer.generated
  around : outer.label ≠ [] -> inner.label = [] -> inner.generated ≠ outer.label

/-- How many labels are numbered; `try` has no part in it. -/
def labelCount : ExprList -> Nat
  | .nil => 0
  | .instr _ rest => labelCount rest
  | .body _ _ exprs rest => 1 + labelCount exprs + labelCount rest
  | .arms type _ first second rest =>
      (armsBase type).elim 0 (fun _ => 1) + labelCount first + labelCount second + labelCount rest

/-- The blocks of a `try` are labelled, and every label is apart from those around it. -/
def LabelsClear : List LabelSite -> Nat -> ExprList -> Prop
  | _, _, .nil => True
  | around, count, .instr _ rest => LabelsClear around count rest
  | around, count, .body type block exprs rest =>
      let site : LabelSite := ⟨block.label, bodyBase type, count⟩
      (forall outer, outer ∈ around -> outer.Apart site) ∧
        LabelsClear (site :: around) (count + 1) exprs ∧
        LabelsClear around (count + 1 + labelCount exprs) rest
  | around, count, .arms type block first second rest =>
      let site : LabelSite := ⟨block.label, (armsBase type).getD [], count⟩
      let begun := count + (armsBase type).elim 0 fun _ => 1
      (armsBase type = none -> block.label ≠ []) ∧ (forall outer, outer ∈ around -> outer.Apart site) ∧
        LabelsClear (site :: around) begun first ∧
        LabelsClear (site :: around) (begun + labelCount first) second ∧
        LabelsClear around (begun + labelCount first + labelCount second) rest

theorem nameLabels_count (count : Nat) (exprs : ExprList) :
    (nameLabels count exprs).2 = count + labelCount exprs := by
  induction exprs generalizing count with
  | nil => rfl
  | instr first rest inductionHypothesis => exact inductionHypothesis count
  | body type block exprs rest innerHypothesis restHypothesis =>
      simp only [nameLabels, labelCount, innerHypothesis, restHypothesis]
      omega
  | arms type block first second rest firstHypothesis secondHypothesis restHypothesis =>
      simp only [nameLabels, labelCount, firstHypothesis, secondHypothesis, restHypothesis]
      cases armsBase type with
      | none => simp only [Option.elim_none]; omega
      | some base => simp only [Option.elim_some]; omega

/-- The site of a block around has been numbered before, unless it has a label. -/
def LabelSite.Before (count : Nat) (site : LabelSite) : Prop :=
  site.label ≠ [] ∨ site.number < count ∧ site.base.length = 2

theorem LabelSite.Before.mono {count later : Nat} {site : LabelSite} (before : site.Before count)
    (le : count ≤ later) : site.Before later :=
  before.imp_right fun numbered => ⟨Nat.lt_of_lt_of_le numbered.1 le, numbered.2⟩

/-- The names that two sites get differ exactly if the sites are apart. -/
theorem LabelSite.apart_iff {count : Nat} {outer inner : LabelSite} (before : outer.Before count)
    (numbered : inner.label ≠ [] ∨ inner.number = count ∧ inner.base.length = 2) :
    outer.Apart inner ↔ inner.name ≠ outer.name := by
  rw [LabelSite.name, LabelSite.name]
  by_cases innerLabel : inner.label = []
  · rw [if_pos innerLabel]
    rcases numbered.resolve_left (fun named => named innerLabel) with ⟨number, inner_length⟩
    by_cases outerLabel : outer.label = []
    · rw [if_pos outerLabel]
      rcases before.resolve_left (fun named => named outerLabel) with ⟨earlier, outer_length⟩
      refine iff_of_true ⟨fun named => absurd outerLabel named, fun _ named => absurd innerLabel named,
        fun named => absurd outerLabel named⟩ fun same => ?_
      have numbers := (List.append_inj same (inner_length.trans outer_length.symm)).2
      have equal := toText_injective numbers
      omega
    · rw [if_neg outerLabel]
      exact ⟨fun apart => apart.around outerLabel innerLabel, fun different =>
        ⟨fun _ named => absurd innerLabel named, fun empty => absurd empty outerLabel,
          fun _ _ => different⟩⟩
  · rw [if_neg innerLabel]
    by_cases outerLabel : outer.label = []
    · rw [if_pos outerLabel]
      exact ⟨fun apart => apart.within outerLabel innerLabel, fun different =>
        ⟨fun named => absurd outerLabel named, fun _ _ => different,
          fun named => absurd outerLabel named⟩⟩
    · rw [if_neg outerLabel]
      exact ⟨fun apart => apart.written outerLabel innerLabel, fun different =>
        ⟨fun _ _ => different, fun empty => absurd empty outerLabel,
          fun _ empty => absurd empty innerLabel⟩⟩

theorem LabelSite.name_ne_nil {site : LabelSite} (numbered : site.label ≠ [] ∨ site.base.length = 2) :
    site.name ≠ [] := by
  rw [LabelSite.name]
  split
  · rename_i empty
    have length_eq := numbered.resolve_left fun named => named empty
    refine List.append_ne_nil_of_left_ne_nil (fun none => ?_) _
    rw [none] at length_eq
    cases length_eq
  · assumption

theorem maybeGenerateName_eq (base : Name) (count : Nat) (label : Name) :
    maybeGenerateName base count label = (LabelSite.mk label base count).name := by
  rw [maybeGenerateName, LabelSite.name]
  rfl

theorem bodyBase_length (type : BodyType) : (bodyBase type).length = 2 := by
  cases type <;> rfl

theorem armsBase_length {type : ArmsType} {base : Name} (named : armsBase type = some base) :
    base.length = 2 := by
  cases type with
  | ite | ifExcept var =>
      cases named
      rfl
  | tryCatch => cases named

theorem name_not_mem_iff {around : List LabelSite} {count : Nat} {inner : LabelSite}
    (before : forall outer, outer ∈ around -> outer.Before count)
    (numbered : inner.label ≠ [] ∨ inner.number = count ∧ inner.base.length = 2) :
    inner.name ∉ around.map LabelSite.name ↔ forall outer, outer ∈ around -> outer.Apart inner := by
  rw [List.mem_map, not_exists]
  refine forall_congr' fun outer => ?_
  rw [not_and]
  refine forall_congr' fun isMember => ?_
  rw [LabelSite.apart_iff (before outer isMember) numbered]
  exact not_congr eq_comm

/-- The sites around what is inside a block, when its own is one of them. -/
theorem before_cons {around : List LabelSite} {count later : Nat} {site : LabelSite} (le : count ≤ later)
    (before : forall outer, outer ∈ around -> outer.Before count) (here : site.Before later) :
    forall outer, outer ∈ site :: around -> outer.Before later := by
  intro outer isMember
  rcases List.mem_cons.mp isMember with rfl | isOuter
  · exact here
  · exact (before outer isOuter).mono le

/-- Labels are nested without repetition exactly if they are clear as written. -/
theorem nested_nameLabels_iff {around : List LabelSite} {count : Nat} (exprs : ExprList)
    (before : forall outer, outer ∈ around -> outer.Before count) :
    Nested (around.map LabelSite.name) (nameLabels count exprs).1 ↔ LabelsClear around count exprs := by
  induction exprs generalizing around count with
  | nil => exact Iff.rfl
  | instr first rest inductionHypothesis => exact inductionHypothesis before
  | body type block exprs rest innerHypothesis restHypothesis =>
      have length_eq := bodyBase_length type
      have named : (LabelSite.mk block.label (bodyBase type) count).name ≠ [] :=
        LabelSite.name_ne_nil (.inr length_eq)
      have here : (LabelSite.mk block.label (bodyBase type) count).Before (count + 1) :=
        .inr ⟨Nat.lt_succ_self count, length_eq⟩
      have inner := innerHypothesis (before_cons (Nat.le_succ count) before here)
      have behind (outer : LabelSite) (isMember : outer ∈ around) :
          outer.Before (count + 1 + labelCount exprs) :=
        (before outer isMember).mono (by omega)
      have apart := name_not_mem_iff before (.inr ⟨rfl, length_eq⟩ :
        (LabelSite.mk block.label (bodyBase type) count).label ≠ [] ∨ _)
      simp only [nameLabels, Nested, LabelsClear, maybeGenerateName_eq, nameLabels_count]
      rw [and_iff_right named, apart, restHypothesis behind]
      exact and_congr_right fun _ => and_congr_left fun _ => inner
  | arms type block first second rest firstHypothesis secondHypothesis restHypothesis =>
      cases base_eq : armsBase type with
      | none =>
          simp only [nameLabels, Nested, LabelsClear, base_eq, Option.elim_none, Option.getD_none,
            nameLabels_count, true_implies, Nat.add_zero]
          refine and_congr_right fun named => ?_
          have name_eq : (LabelSite.mk block.label [] count).name = block.label := if_neg named
          have here : (LabelSite.mk block.label [] count).Before count := .inl named
          have around_first := before_cons (Nat.le_refl count) before here
          have around_second := before_cons (Nat.le_add_right count (labelCount first)) before
            (here.mono (Nat.le_add_right count (labelCount first)))
          have behind (outer : LabelSite) (isMember : outer ∈ around) :
              outer.Before (count + labelCount first + labelCount second) :=
            (before outer isMember).mono (by omega)
          have apart := name_not_mem_iff before (.inl named :
            (LabelSite.mk block.label [] count).label ≠ [] ∨ _)
          have inFirst := firstHypothesis around_first
          have inSecond := secondHypothesis around_second
          rw [List.map_cons, name_eq] at inFirst inSecond
          rw [name_eq] at apart
          rw [apart, inFirst, inSecond, restHypothesis behind]
      | some base =>
          have length_eq := armsBase_length base_eq
          have named : (LabelSite.mk block.label base count).name ≠ [] :=
            LabelSite.name_ne_nil (.inr length_eq)
          have here : (LabelSite.mk block.label base count).Before (count + 1) :=
            .inr ⟨Nat.lt_succ_self count, length_eq⟩
          have around_first := before_cons (Nat.le_succ count) before here
          have le_second : count ≤ count + 1 + labelCount first := by omega
          have around_second := before_cons le_second before
            (here.mono (Nat.le_add_right (count + 1) (labelCount first)))
          have behind (outer : LabelSite) (isMember : outer ∈ around) :
              outer.Before (count + 1 + labelCount first + labelCount second) :=
            (before outer isMember).mono (by omega)
          have apart := name_not_mem_iff before (.inr ⟨rfl, length_eq⟩ :
            (LabelSite.mk block.label base count).label ≠ [] ∨ _)
          simp only [nameLabels, Nested, LabelsClear, base_eq, Option.elim_some, Option.getD_some,
            nameLabels_count, maybeGenerateName_eq, reduceCtorEq, false_implies, true_and]
          rw [and_iff_right named, apart, restHypothesis behind]
          exact and_congr_right fun _ => and_congr (firstHypothesis around_first)
            (and_congr_left fun _ => secondHypothesis around_second)

/-- A label that is written is kept. -/
theorem labels_nameLabels (count : Nat) (exprs : ExprList) :
    List.Forall₂ (fun before after => before ≠ [] -> after = before) (labels exprs)
      (labels (nameLabels count exprs).1) := by
  have keeps (base : Name) (count : Nat) (label : Name) (named : label ≠ []) :
      maybeGenerateName base count label = label := if_neg named
  induction exprs generalizing count with
  | nil => exact .nil
  | instr first rest inductionHypothesis => exact inductionHypothesis count
  | body type block exprs rest innerHypothesis restHypothesis =>
      exact List.rel_append (.cons (keeps _ _ _) (innerHypothesis _)) (restHypothesis _)
  | arms type block first second rest firstHypothesis secondHypothesis restHypothesis =>
      refine List.rel_append (List.rel_append (.cons ?_ (firstHypothesis _)) (secondHypothesis _))
        (restHypothesis _)
      cases armsBase type with
      | none => exact fun _ => rfl
      | some base => exact keeps base count block.label

/-! ## What is named in the end -/

/-- Every parameter, local and block of a function has a name of its own that
leads back to it, and the names that were there are kept. -/
structure Func.Named (iteration : IterationOrder) (before after : Func) : Prop where
  params : forall index, index < before.numParams ->
    ∃ symbol : Symbol, (symbol.text, index) ∈ after.paramBindings
  locals : forall index, index < before.numLocals ->
    ∃ symbol : Symbol, (symbol.text, index) ∈ after.localBindings
  distinct : (keys after.paramBindings ++ keys after.localBindings).Nodup
  findsParam : forall (symbol : Symbol) (index : Nat), (symbol.text, index) ∈ after.paramBindings ->
    index < before.numParams ∧
      after.locals.getLocalIndex iteration (.name symbol) = some index
  findsLocal : forall (symbol : Symbol) (index : Nat), (symbol.text, index) ∈ after.localBindings ->
    index < before.numLocals ∧
      after.locals.getLocalIndex iteration (.name symbol) = some (before.numParams + index)
  keptParams : before.paramBindings <+: after.paramBindings
  keptLocals : before.localBindings <+: after.localBindings
  labels : Nested [] after.exprs
  keptLabels : List.Forall₂ (fun old new => old ≠ [] -> new = old)
    (Fields.labels before.exprs) (Fields.labels after.exprs)

/-- The bindings of a function are of what it has, its names are distinct as far
as there are any, and none is what a parameter, local or block is called that
has none; no `try` is without a label. -/
structure Func.Clear (func : Func) : Prop where
  paramsInRange : forall binding, binding ∈ func.paramBindings -> binding.2 < func.numParams
  localsInRange : forall binding, binding ∈ func.localBindings -> binding.2 < func.numLocals
  distinct : (keys func.paramBindings ++ keys func.localBindings).Nodup
  params : Fields.Clear "$p" func.numParams func.paramBindings func.localBindings
  locals : Fields.Clear "$l" func.numLocals func.localBindings func.paramBindings
  labels : LabelsClear [] 0 func.exprs

/-- The name of a distinct binding is found, in whatever order is iterated. -/
theorem lookup_eq_some (iteration : IterationOrder) {bindings : BindingHash}
    (distinct : (keys bindings).Nodup) {name : Name} {index : Nat}
    (isMember : (name, index) ∈ bindings) :
    (iteration.order bindings).lookup name = some index := by
  have ordered := (iteration.perm bindings).mem_iff.mpr isMember
  cases found : (iteration.order bindings).lookup name with
  | none => exact absurd (List.lookup_eq_none_iff.mp found _ ordered) (by simp)
  | some other =>
      rcases List.lookup_eq_some_iff.mp found with ⟨front, back, split, -⟩
      have isOther : (name, other) ∈ bindings := by
        rw [← (iteration.perm bindings).mem_iff, split]
        exact List.mem_append_right _ List.mem_cons_self
      have same := List.inj_on_of_nodup_map distinct isMember isOther rfl
      cases same
      rfl

theorem lookup_eq_none (iteration : IterationOrder) {bindings : BindingHash} {name : Name}
    (absent : name ∉ keys bindings) : (iteration.order bindings).lookup name = none := by
  refine List.lookup_eq_none_iff.mpr fun binding isMember => ?_
  refine bne_iff_ne.mpr ?_
  rintro rfl
  exact absent (List.mem_map_of_mem ((iteration.perm bindings).mem_iff.mp isMember))

/-- Behind the loop everything of the table is bound. -/
theorem bound_of_added {base : String} (nonempty : ascii base ≠ []) {size index : Nat}
    {bindings : BindingHash} (named : [] ∉ keys bindings) (below : index < size) :
    ∃ symbol : Symbol, (symbol.text, index) ∈ bindings ++ added base size bindings := by
  by_cases present : ∃ name, (name, index) ∈ bindings
  · rcases present with ⟨name, isMember⟩
    have isNamed : name ≠ [] := fun empty => named (empty ▸ mem_keys.mpr ⟨index, isMember⟩)
    exact ⟨⟨name, isNamed⟩, List.mem_append_left _ isMember⟩
  · have isFirst := firstFresh_firstFree (keys bindings)
      (generateName_injective (ascii base) (some index))
    refine ⟨⟨_, firstFresh_ne_nil nonempty (keys bindings) (some index)⟩,
      List.mem_append_right _ (mem_added.mpr ⟨⟨below, not_exists.mp present⟩, isFirst⟩)⟩

theorem inRange_of_added {base : String} {size : Nat} {bindings : BindingHash}
    (inRange : forall binding, binding ∈ bindings -> binding.2 < size) {name : Name} {index : Nat}
    (isMember : (name, index) ∈ bindings ++ added base size bindings) : index < size := by
  rcases List.mem_append.mp isMember with before | isAdded
  · exact inRange _ before
  · exact (mem_added.mp isAdded).1.1

/-- What `VisitFunc` leaves, when the assertions hold. -/
theorem visitFunc_eq (iteration : IterationOrder) {func : Func}
    (paramsNamed : [] ∉ keys func.paramBindings) (localsNamed : [] ∉ keys func.localBindings)
    (paramsInRange : forall binding, binding ∈ func.paramBindings -> binding.2 < func.numParams)
    (localsInRange : forall binding, binding ∈ func.localBindings -> binding.2 < func.numLocals) :
    visitFunc iteration func = some { func with
      paramBindings := func.paramBindings ++ added "$p" func.numParams func.paramBindings
      localBindings := func.localBindings ++ added "$l" func.numLocals func.localBindings
      exprs := (nameLabels 0 func.exprs).1 } := by
  rcases makeTypeBindingReverseMapping_spec iteration paramsNamed paramsInRange with
    ⟨params, params_eq, params_length, params_empty⟩
  rcases makeTypeBindingReverseMapping_spec iteration localsNamed localsInRange with
    ⟨locals, locals_eq, locals_length, locals_empty⟩
  rw [← params_length] at params_empty
  rw [← locals_length] at locals_empty
  rw [visitFunc, params_eq, locals_eq]
  change some _ = some _
  rw [generateAndBindLocalNames_eq "$p" params_empty, params_length,
    generateAndBindLocalNames_eq "$l" locals_empty, locals_length]

/-- A function is named as it should be exactly if it is clear. -/
theorem visitFunc_named_iff (iteration : IterationOrder) {func : Func}
    (paramsNamed : [] ∉ keys func.paramBindings) (localsNamed : [] ∉ keys func.localBindings) :
    (∃ after, visitFunc iteration func = some after ∧ func.Named iteration after) ↔
      func.Clear := by
  have nested := @nested_nameLabels_iff [] 0 func.exprs fun _ isMember =>
    absurd isMember List.not_mem_nil
  have distinct_iff := keys_nodup_iff func.numParams func.numLocals func.paramBindings
    func.localBindings
  constructor
  · rintro ⟨after, visited, named⟩
    have ranges : (forall binding, binding ∈ func.paramBindings -> binding.2 < func.numParams) ∧
        (forall binding, binding ∈ func.localBindings -> binding.2 < func.numLocals) := by
      rw [visitFunc, Option.bind_eq_bind, Option.bind_eq_some_iff] at visited
      rcases visited with ⟨params, params_eq, visited⟩
      rw [Option.bind_eq_some_iff] at visited
      rcases visited with ⟨locals, locals_eq, -⟩
      exact ⟨makeTypeBindingReverseMapping_inRange params_eq,
        makeTypeBindingReverseMapping_inRange locals_eq⟩
    rw [visitFunc_eq iteration paramsNamed localsNamed ranges.1 ranges.2] at visited
    cases visited
    rcases distinct_iff.mp named.distinct with ⟨distinct, params, locals⟩
    exact ⟨ranges.1, ranges.2, distinct, params, locals, nested.mp named.labels⟩
  · intro clear
    have distinct := distinct_iff.mpr ⟨clear.distinct, clear.params, clear.locals⟩
    rcases List.nodup_append'.mp distinct with ⟨paramsDistinct, localsDistinct, apart⟩
    refine ⟨_, visitFunc_eq iteration paramsNamed localsNamed clear.paramsInRange
      clear.localsInRange, ?_⟩
    constructor
    case params => exact fun index below => bound_of_added (by simp [ascii]) paramsNamed below
    case locals => exact fun index below => bound_of_added (by simp [ascii]) localsNamed below
    case distinct => exact distinct
    case findsParam =>
      intro symbol index isMember
      refine ⟨inRange_of_added clear.paramsInRange isMember, ?_⟩
      rw [Locals.getLocalIndex, Text.Func.locals, findIndex, lookup_eq_some iteration paramsDistinct
        isMember]
    case findsLocal =>
      intro symbol index isMember
      have absent := fun isParam => apart isParam (mem_keys.mpr ⟨index, isMember⟩)
      refine ⟨inRange_of_added clear.localsInRange isMember, ?_⟩
      simp only [Locals.getLocalIndex, Text.Func.locals, findIndex, lookup_eq_none iteration absent,
        lookup_eq_some iteration localsDistinct isMember, Option.map_some]
      rfl
    case keptParams => exact List.prefix_append _ _
    case keptLocals => exact List.prefix_append _ _
    case labels => exact nested.mpr clear.labels
    case keptLabels => exact labels_nameLabels 0 func.exprs

/-- A parameter without a name is called `$p0` although a local is called so. -/
example : ¬(Func.mk ⟨⟨none, [.i32]⟩, [], [(ascii "$p0", 0)], .nil⟩ 1).Clear := fun clear =>
  clear.params 0 Nat.one_pos (by simp) (ascii "$p0")
    ⟨0, by decide, by simp [keys], fun earlier before => absurd before (Nat.not_lt_zero earlier)⟩
    (by decide)

/-- Every entity of a space has a name of its own that leads back to it, and the
names that were there are kept. -/
structure Entities.Settled (iteration : IterationOrder) (before after : Entities) : Prop where
  named : [] ∉ after.names
  distinct : (keys after.bindings).Nodup
  finds : forall (index : Nat) (name : Name), after.names[index]? = some name ->
    (iteration.order after.bindings).lookup name = some index
  size : after.names.length = before.names.length
  kept : forall (index : Nat) (name : Name), before.names[index]? = some name -> name ≠ [] ->
    after.names[index]? = some name
  keptBindings : before.bindings <+: after.bindings

structure Module.Settled (iteration : IterationOrder) (before after : Module) : Prop where
  spaces : forall space, (before.space space).Settled iteration (after.space space)
  funcs : List.Forall₂ (Func.Named iteration) before.funcs after.funcs

/-- What is promised of every module: what has a name is bound by it, and no
parameter or local has an empty name. -/
structure Module.WellFormed (module : Module) : Prop where
  bound : forall space, (module.space space).Bound
  params : forall func, func ∈ module.funcs -> [] ∉ keys func.paramBindings
  locals : forall func, func ∈ module.funcs -> [] ∉ keys func.localBindings

theorem Entities.Extends.settled_iff (iteration : IterationOrder) {before after : Entities}
    (extended : before.Extends after) (bound : before.Bound) (named : [] ∉ after.names) :
    before.Settled iteration after ↔ (keys before.bindings).Nodup := by
  constructor
  · exact fun settled => extended.distinct.mp settled.distinct
  · intro nodup
    have distinct := extended.distinct.mpr nodup
    refine ⟨named, distinct, fun index name present => ?_, extended.size, extended.kept,
      extended.bindings⟩
    have isNamed : name ≠ [] := fun empty => named (empty ▸ List.mem_of_getElem? present)
    exact lookup_eq_some iteration distinct (extended.bound bound index name present isNamed)

/-- Results of a function on each element of a list, or none. -/
theorem mapM_forall₂_iff {Item : Type} {visit : Item -> Option Item} {right : Item -> Item -> Prop}
    {good : Item -> Prop} {items : List Item}
    (each : forall item, item ∈ items ->
      ((∃ after, visit item = some after ∧ right item after) ↔ good item)) :
    (∃ results, items.mapM visit = some results ∧ List.Forall₂ right items results) ↔
      forall item, item ∈ items -> good item := by
  induction items with
  | nil => exact iff_of_true ⟨[], rfl, .nil⟩ fun item isMember => absurd isMember List.not_mem_nil
  | cons item rest inductionHypothesis =>
      have first := each item List.mem_cons_self
      have others := inductionHypothesis fun other isMember =>
        each other (List.mem_cons_of_mem _ isMember)
      rw [List.forall_mem_cons, ← first, ← others, List.mapM_cons]
      constructor
      · rintro ⟨results, mapped, related⟩
        rw [Option.bind_eq_bind, Option.bind_eq_some_iff] at mapped
        rcases mapped with ⟨after, visited, mapped⟩
        rw [Option.bind_eq_bind, Option.bind_eq_some_iff] at mapped
        rcases mapped with ⟨later, rest_eq, same⟩
        cases same
        cases related with
        | cons head tail => exact ⟨⟨after, visited, head⟩, later, rest_eq, tail⟩
      · rintro ⟨⟨after, visited, head⟩, later, rest_eq, tail⟩
        refine ⟨after :: later, ?_, .cons head tail⟩
        rw [visited, rest_eq]
        rfl

/-- `GenerateNames` gives everything a name of its own exactly if the names of
each space are distinct and each function is clear. -/
theorem generateNames_settled_iff (iteration : IterationOrder) {module : Module}
    (wellFormed : module.WellFormed) :
    (∃ named, generateNames iteration module = some named ∧ module.Settled iteration named) ↔
      (forall space, (keys (module.space space).bindings).Nodup) ∧
        forall func, func ∈ module.funcs -> func.Clear := by
  have spaces (space : Space) := (nameSpaces_extends iteration module space).settled_iff
    iteration (wellFormed.bound space) (nameSpaces_named iteration module space)
  have funcs := mapM_forall₂_iff fun func isMember => visitFunc_named_iff iteration
    (wellFormed.params func isMember) (wellFormed.locals func isMember)
  rw [← funcs, generateNames]
  generalize nameSpaces iteration module = spaced at *
  constructor
  · rintro ⟨named, generated, settled⟩
    rw [Option.bind_eq_bind, Option.bind_eq_some_iff] at generated
    rcases generated with ⟨results, mapped, same⟩
    obtain rfl := Option.some.inj same
    exact ⟨fun space => (spaces space).mp (settled.spaces space), results, mapped, settled.funcs⟩
  · rintro ⟨distinct, results, mapped, related⟩
    refine ⟨{ spaced with funcs := results }, ?_, ?_⟩
    · rw [mapped]
      rfl
    · exact ⟨fun space => (spaces space).mpr (distinct space), related⟩

/-- One function with a parameter and a block without names, and a local `$x`. -/
def unnamedModule : Module :=
  { Module.empty with
    space := fun space => ⟨if space = .func then [[]] else [], []⟩
    funcs := [⟨⟨⟨none, [.i32]⟩, [], [(ascii "$x", 0)], .body .block ⟨[], ⟨none, []⟩⟩ .nil .nil⟩, 1⟩] }

theorem unnamedModule_wellFormed : unnamedModule.WellFormed := by
  constructor
  case bound =>
    intro space index name present isNamed
    have isMember : name ∈ (unnamedModule.space space).names := List.mem_of_getElem? present
    cases space <;> simp [unnamedModule, isNamed] at isMember
  case params => simp [unnamedModule, keys]
  case locals => simp [unnamedModule, keys, ascii]

theorem unnamedModule_settled :
    ∃ named, generateNames .inserted unnamedModule = some named ∧
      unnamedModule.Settled .inserted named := by
  refine (generateNames_settled_iff .inserted unnamedModule_wellFormed).mpr
    ⟨fun space => List.nodup_nil, ?_⟩
  intro func isMember
  obtain rfl := List.mem_singleton.mp isMember
  constructor
  case paramsInRange => simp
  case localsInRange => simp
  case distinct => exact List.nodup_singleton _
  case params =>
    intro index below absent name isFirst isOther
    obtain rfl : index = 0 := Nat.lt_one_iff.mp below
    rcases isFirst.bounded (generateName_injective _ _) with ⟨count, le, rfl⟩
    obtain rfl : count = 0 := Nat.le_zero.mp le
    exact absurd isOther (by decide)
  case locals => exact clear_iff.mpr (by simp [keys])
  case labels => simp [LabelsClear]

end Fields
end Text
end WasmSandboxing
