import WasmSandboxing.Foundation.Symbols
import WasmSandboxing.Wasm.Labels
import WasmSandboxing.Wasm.Module

namespace WasmSandboxing
namespace Wasm

open Foundation

/-!
# Names

The names that the binary reader takes from name sections and that
`GenerateNames` gives to what is still unnamed.  The entities of a kind have
names of their own, so a name says nothing about the kind; and the reader adds
local names without comparing them.
-/

/-- ASCII text. -/
def ascii (text : String) : Name := text.toList.map fun char => char.toUInt8

/-- `std::to_string`. -/
def toText (number : Nat) : Name := (Nat.toDigits 10 number).map fun char => char.toUInt8

theorem digit_toUInt8 {char : Char} (digit : char.isDigit = true) :
    48 ≤ char.toUInt8 ∧ char.toUInt8 ≤ 57 ∧ Char.ofNat char.toUInt8.toNat = char := by
  simp only [Char.isDigit, Bool.and_eq_true, decide_eq_true_eq, ge_iff_le,
    UInt32.le_iff_toNat_le] at digit
  have range : 48 ≤ char.toNat ∧ char.toNat ≤ 57 := digit
  have same : char.toUInt8.toNat = char.toNat := by
    change char.toNat % 2 ^ 8 = char.toNat
    omega
  refine ⟨?_, ?_, by rw [same, Char.ofNat_toNat]⟩
  · rw [UInt8.le_iff_toNat_le, same]
    exact range.1
  · rw [UInt8.le_iff_toNat_le, same]
    exact range.2

theorem toText_injective : Function.Injective toText := by
  intro first second same
  have decode : forall number,
      (toText number).map (fun byte => Char.ofNat byte.toNat) = Nat.toDigits 10 number := by
    intro number
    rw [toText, List.map_map]
    refine (List.map_congr_left fun char member => ?_).trans (List.map_id _)
    exact (digit_toUInt8 (Nat.isDigit_of_mem_toDigits (by decide) (by decide) member)).2.2
  have digits : Nat.toDigits 10 first = Nat.toDigits 10 second := by
    rw [← decode first, ← decode second, same]
  rw [← Nat.ofDigitChars_toDigits (by decide : 1 < 10) (by decide) (n := first), digits,
    Nat.ofDigitChars_toDigits (by decide) (by decide)]

theorem toText_ne_nil (number : Nat) : toText number ≠ [] := by
  rw [toText, Ne, List.map_eq_nil_iff]
  exact Nat.toDigits_ne_nil

/-- `base`, or `base` with a mark and a positive number. -/
def numbered (base mark : Name) (count : Nat) : Name :=
  if count = 0 then base else base ++ (mark ++ toText count)

theorem numbered_injective (base mark : Name) : Function.Injective (numbered base mark) := by
  intro first second same
  have longer : forall count, base ++ (mark ++ toText count) ≠ base := by
    intro count unchanged
    have suffix : mark ++ toText count = [] := List.append_right_eq_self.mp unchanged
    exact toText_ne_nil count (List.append_eq_nil_iff.mp suffix).2
  unfold numbered at same
  split at same <;> split at same
  · omega
  · exact absurd same.symm (longer second)
  · exact absurd same (longer first)
  · exact toText_injective (List.append_cancel_left (List.append_cancel_left same))

/-- `MakeDollarName`. -/
def makeDollarName (name : Name) : Name := ascii "$" ++ name

/-- `c_str()` handed to a function that takes a C string: a NUL ends the text. -/
def cStr (name : Name) : Name := name.takeWhile fun byte => byte ≠ 0

/-- The text of a label: `kImplicitFuncLabel`, or a prefix and the number. -/
def LabelName.text : LabelName -> Name
  | func => ascii "$Bfunc"
  | block count => ascii "$B" ++ toText count
  | loop count => ascii "$L" ++ toText count
  | ite count => ascii "$I" ++ toText count

theorem LabelName.text_injective : Function.Injective LabelName.text := by
  have notDigits : forall count, ascii "func" ≠ toText count := by
    intro count same
    have letter : (102 : UInt8) ∈ toText count := by
      rw [← same]
      decide
    rcases List.mem_map.mp letter with ⟨digit, member, equal⟩
    have range := digit_toUInt8 (Nat.isDigit_of_mem_toDigits (by decide) (by decide) member)
    rw [equal] at range
    exact absurd range.2.1 (by decide)
  intro first second same
  cases first <;> cases second <;> simp only [LabelName.text] at same
  case func.func => rfl
  case func.block count =>
    have digits : ascii "$B" ++ ascii "func" = ascii "$B" ++ toText count := same
    exact absurd (List.append_cancel_left digits) (notDigits count)
  case block.func count =>
    have digits : ascii "$B" ++ ascii "func" = ascii "$B" ++ toText count := same.symm
    exact absurd (List.append_cancel_left digits) (notDigits count)
  case block.block => rw [toText_injective (List.append_cancel_left same)]
  case loop.loop => rw [toText_injective (List.append_cancel_left same)]
  case ite.ite => rw [toText_injective (List.append_cancel_left same)]
  all_goals
    have marks := congrArg (fun text => text[1]?) same
    exact absurd marks (by simp [ascii, List.getElem?_append]; decide)

/-- What the name sections give, in the order in which the reader meets it; an
index may occur again in a later section. -/
structure NameSection where
  functions : List (Nat × Name)
  locals : Nat -> List (Nat × Name)

/-! ## Entities of the module -/

/-- A function, table, memory or global by its kind and index. -/
abbrev Entity := ExternalKind × Nat

/-- The entities of one kind: the name of each, empty as long as there is none,
and the keys of the kind's `BindingHash`. -/
structure Bindings where
  names : List Name
  bound : List Name

namespace Bindings

def unnamed (size : Nat) : Bindings := ⟨List.replicate size [], []⟩

/-- Set a name and bind it. -/
def bind (bindings : Bindings) (index : Nat) (name : Name) : Bindings :=
  ⟨bindings.names.set index name, name :: bindings.bound⟩

/-- `OnFunctionName`: a name that is bound already gets a suffix. -/
def onFunctionName (bindings : Bindings) (index : Nat) (name : Name) : Bindings :=
  if name = [] then bindings
  else bindings.bind index
    (firstFresh bindings.bound (numbered (makeDollarName name) (ascii ".")))

/-- `MaybeGenerateAndBindName` and `MaybeUseAndBindName`: keep a name, else bind
the given text, disambiguated by a number. -/
def maybeBind (bindings : Bindings) (index : Nat) (base : Name) : Bindings :=
  if bindings.names[index]? = some [] then
    bindings.bind index (firstFresh bindings.bound (numbered base (ascii "_")))
  else bindings

/-- Names are bound, and no two indices have the same one. -/
structure Distinct (bindings : Bindings) : Prop where
  bound : forall name, name ∈ bindings.names -> name ≠ [] -> name ∈ bindings.bound
  unique : forall (first second : Nat) (name : Name), bindings.names[first]? = some name ->
    bindings.names[second]? = some name -> name ≠ [] -> first = second

theorem unnamed_distinct (size : Nat) : (unnamed size).Distinct := by
  have empty : forall name, name ∈ (unnamed size).names -> name = [] := fun name member =>
    (List.mem_replicate.mp member).2
  refine ⟨fun name member named => absurd (empty name member) named, ?_⟩
  intro first second name found _ named
  exact absurd (empty name (List.mem_of_getElem? found)) named

theorem Distinct.bind {bindings : Bindings} (distinct : bindings.Distinct) (index : Nat)
    {name : Name} (fresh : name ∉ bindings.bound) : (bindings.bind index name).Distinct := by
  have other : forall (position : Nat) (found : Name), (bindings.bind index name).names[position]? = some found ->
      found ≠ [] -> (position = index ∧ found = name) ∨ bindings.names[position]? = some found := by
    intro position found present named
    rw [Bindings.bind, List.getElem?_set] at present
    split at present
    · split at present
      · cases present
        exact Or.inl ⟨Eq.symm ‹_›, rfl⟩
      · cases present
    · exact Or.inr present
  constructor
  · intro found member named
    rcases List.getElem?_of_mem member with ⟨position, present⟩
    rcases other position found present named with ⟨_, rfl⟩ | old
    · exact List.mem_cons_self
    · exact List.mem_cons_of_mem _ (distinct.bound found (List.mem_of_getElem? old) named)
  · intro first second found firstPresent secondPresent named
    rcases other first found firstPresent named with ⟨firstHere, rfl⟩ | firstOld <;>
      rcases other second _ secondPresent named with ⟨secondHere, same⟩ | secondOld
    · rw [firstHere, secondHere]
    · exact absurd (distinct.bound _ (List.mem_of_getElem? secondOld) named) fresh
    · exact absurd (distinct.bound _ (List.mem_of_getElem? firstOld) named) (same ▸ fresh)
    · exact distinct.unique first second found firstOld secondOld named

theorem Distinct.onFunctionName {bindings : Bindings} (distinct : bindings.Distinct)
    (index : Nat) (name : Name) : (bindings.onFunctionName index name).Distinct := by
  unfold Bindings.onFunctionName
  split
  · exact distinct
  · exact distinct.bind index (firstFresh_not_mem _ (numbered_injective _ _))

theorem Distinct.maybeBind {bindings : Bindings} (distinct : bindings.Distinct) (index : Nat)
    (base : Name) : (bindings.maybeBind index base).Distinct := by
  unfold Bindings.maybeBind
  split
  · exact distinct.bind index (firstFresh_not_mem _ (numbered_injective _ _))
  · exact distinct

/-- Every index has a name when its request has been made. -/
theorem maybeBind_named {bindings : Bindings} {index : Nat} {base : Name} (named : base ≠ [])
    {position : Nat} (settled : position = index ∨ bindings.names[position]? ≠ some []) :
    (bindings.maybeBind index base).names[position]? ≠ some [] := by
  have chosen : firstFresh bindings.bound (numbered base (ascii "_")) ≠ [] := by
    rcases firstFresh_candidate bindings.bound (numbered base (ascii "_")) with ⟨count, same⟩
    rw [same, numbered]
    split
    · exact named
    · exact List.append_ne_nil_of_left_ne_nil named _
  unfold Bindings.maybeBind
  split
  · rw [Bindings.bind, List.getElem?_set]
    split
    · split
      · exact fun empty => chosen (Option.some.inj empty)
      · exact fun none => nomatch none
    · exact settled.resolve_left (Ne.symm ‹_›)
  · rcases settled with rfl | named
    · assumption
    · exact named

theorem onFunctionName_length (bindings : Bindings) (index : Nat) (name : Name) :
    (bindings.onFunctionName index name).names.length = bindings.names.length := by
  unfold Bindings.onFunctionName
  split
  · rfl
  · exact List.length_set

theorem maybeBind_length (bindings : Bindings) (index : Nat) (base : Name) :
    (bindings.maybeBind index base).names.length = bindings.names.length := by
  unfold Bindings.maybeBind
  split
  · exact List.length_set
  · rfl

end Bindings

namespace Module

variable {S : Scheme}

/-- How many entities of a kind there are, imported ones included. -/
def size (module : Module S) : ExternalKind -> Nat
  | .func => module.funcs.length
  | .table => module.tables.length
  | .memory => module.memories.length
  | .global => module.globals.length

end Module

/-- The entities that imports stand for, when `next` are the indices that the
next import of each kind gets. -/
def importEntities (next : ExternalKind -> Nat) : List Import -> List (Import × Entity)
  | [] => []
  | item :: rest =>
      (item, (item.kind, next item.kind)) ::
        importEntities (Function.update next item.kind (next item.kind + 1)) rest

def External.entity : External Scheme.binary -> Entity
  | .func var => (.func, var)
  | .table var => (.table, var)
  | .memory var => (.memory, var)
  | .global var => (.global, var)

abbrev ModuleNames := ExternalKind -> Bindings

namespace GenerateNames

/-- `VisitGlobal`, `VisitFunc` and their like: a prefix and the index. -/
def generated (kind : ExternalKind) (base : String) (size : Nat) : List (Entity × Name) :=
  (List.range size).map fun index => ((kind, index), ascii base ++ toText index)

/-- The names that `VisitModule` asks for, in its order. -/
def requests (module : Module Scheme.binary) : List (Entity × Name) :=
  ((importEntities (fun _ => 0) module.imports).map fun (item, entity) =>
      (entity, cStr (makeDollarName (item.moduleName ++ ascii "." ++ item.fieldName)))) ++
    (module.exports.map fun item => (item.var.entity, cStr (makeDollarName item.name))) ++
    generated .global "$g" (module.size .global) ++ generated .func "$f" (module.size .func) ++
    generated .table "$T" (module.size .table) ++ generated .memory "$M" (module.size .memory)

def request (names : ModuleNames) (item : Entity × Name) : ModuleNames :=
  Function.update names item.1.1 ((names item.1.1).maybeBind item.1.2 item.2)

/-- The names that the reader leaves: those of functions in name sections. -/
def readNames (module : Module Scheme.binary) (nameSection : NameSection) : ModuleNames
  | .func => nameSection.functions.foldl (fun bindings (index, name) =>
      bindings.onFunctionName index name) (.unnamed (module.size .func))
  | kind => .unnamed (module.size kind)

/-- The names of a module's entities behind `GenerateNames`. -/
def moduleNames (module : Module Scheme.binary) (nameSection : NameSection) : ModuleNames :=
  (requests module).foldl request (readNames module nameSection)

theorem request_distinct {names : ModuleNames} (distinct : forall kind, (names kind).Distinct)
    (item : Entity × Name) (kind : ExternalKind) : (request names item kind).Distinct := by
  by_cases same : kind = item.1.1
  · subst same
    rw [request, Function.update_self]
    exact (distinct _).maybeBind item.1.2 item.2
  · rw [request, Function.update_of_ne same]
    exact distinct kind

theorem readNames_distinct (module : Module Scheme.binary) (nameSection : NameSection)
    (kind : ExternalKind) : (readNames module nameSection kind).Distinct := by
  have functions : forall (entries : List (Nat × Name)) (bindings : Bindings), bindings.Distinct ->
      (entries.foldl (fun bindings (index, name) =>
        bindings.onFunctionName index name) bindings).Distinct := by
    intro entries
    induction entries with
    | nil => exact fun bindings distinct => distinct
    | cons entry rest inductionHypothesis =>
        exact fun bindings distinct =>
          inductionHypothesis _ (distinct.onFunctionName entry.1 entry.2)
  cases kind with
  | func => exact functions nameSection.functions _ (Bindings.unnamed_distinct _)
  | table => exact Bindings.unnamed_distinct _
  | memory => exact Bindings.unnamed_distinct _
  | global => exact Bindings.unnamed_distinct _

/-- Within a kind, names are distinct. -/
theorem moduleNames_distinct (module : Module Scheme.binary) (nameSection : NameSection) :
    forall kind, (moduleNames module nameSection kind).Distinct := by
  have fold : forall (items : List (Entity × Name)) (names : ModuleNames),
      (forall kind, (names kind).Distinct) ->
        forall kind, (items.foldl request names kind).Distinct := by
    intro items
    induction items with
    | nil => exact fun names distinct => distinct
    | cons item rest inductionHypothesis =>
        exact fun names distinct => inductionHypothesis _ (request_distinct distinct item)
  exact fold _ _ (readNames_distinct module nameSection)

theorem moduleNames_length (module : Module Scheme.binary) (nameSection : NameSection)
    (kind : ExternalKind) :
    (moduleNames module nameSection kind).names.length = module.size kind := by
  have read : (readNames module nameSection kind).names.length =
      module.size kind := by
    have functions : forall (entries : List (Nat × Name)) (bindings : Bindings),
        (entries.foldl (fun bindings (index, name) =>
          bindings.onFunctionName index name) bindings).names.length = bindings.names.length := by
      intro entries
      induction entries with
      | nil => exact fun _ => rfl
      | cons entry rest inductionHypothesis =>
          intro bindings
          rw [List.foldl_cons, inductionHypothesis, Bindings.onFunctionName_length]
    cases kind with
    | func => exact (functions _ _).trans List.length_replicate
    | table => exact List.length_replicate
    | memory => exact List.length_replicate
    | global => exact List.length_replicate
  have requested : forall (items : List (Entity × Name)) (names : ModuleNames),
      (items.foldl request names kind).names.length =
        (names kind).names.length := by
    intro items
    induction items with
    | nil => exact fun _ => rfl
    | cons item rest inductionHypothesis =>
        intro names
        rw [List.foldl_cons, inductionHypothesis]
        by_cases same : kind = item.1.1
        · subst same
          rw [request, Function.update_self, Bindings.maybeBind_length]
        · rw [request, Function.update_of_ne same]
  rw [moduleNames, requested, read]

theorem requests_named (module : Module Scheme.binary) :
    forall item, item ∈ requests module -> item.2 ≠ [] := by
  have dollar : forall name, cStr (makeDollarName name) ≠ [] := fun name empty => nomatch empty
  have numberedKind : forall (kind : ExternalKind) (base : String) (size : Nat),
      forall item, item ∈ generated kind base size -> item.2 ≠ [] := by
    intro kind base size item member
    rcases List.mem_map.mp member with ⟨index, _, rfl⟩
    exact List.append_ne_nil_of_right_ne_nil _ (toText_ne_nil index)
  intro item member
  simp only [requests, List.mem_append] at member
  rcases member with ((((imported | exported) | global) | func) | table) | memory
  · rcases List.mem_map.mp imported with ⟨_, _, rfl⟩
    exact dollar _
  · rcases List.mem_map.mp exported with ⟨_, _, rfl⟩
    exact dollar _
  all_goals exact numberedKind _ _ _ item ‹_›

/-- A request names its entity and takes no name away. -/
theorem foldl_request_named {items : List (Entity × Name)}
    (named : forall item, item ∈ items -> item.2 ≠ []) (kind : ExternalKind) (index : Nat)
    (names : ModuleNames) (settled : (∃ name, ((kind, index), name) ∈ items) ∨
      (names kind).names[index]? ≠ some []) :
    (items.foldl request names kind).names[index]? ≠ some [] := by
  induction items generalizing names with
  | nil => exact settled.resolve_left (by simp)
  | cons item rest inductionHypothesis =>
      apply inductionHypothesis (fun other member => named other (List.mem_cons_of_mem _ member))
      by_cases later : ∃ name, ((kind, index), name) ∈ rest
      · exact Or.inl later
      · refine Or.inr ?_
        have here : (∃ name, item = ((kind, index), name)) ∨
            (names kind).names[index]? ≠ some [] := by
          refine settled.imp_left fun ⟨name, member⟩ => ?_
          rcases List.mem_cons.mp member with same | member
          · exact ⟨name, same.symm⟩
          · exact absurd ⟨name, member⟩ later
        by_cases same : kind = item.1.1
        · subst same
          rw [request, Function.update_self]
          apply Bindings.maybeBind_named (named item List.mem_cons_self)
          refine here.imp_left fun ⟨name, same⟩ => ?_
          rw [same]
        · rw [request, Function.update_of_ne same]
          refine here.resolve_left fun ⟨name, equal⟩ => same ?_
          rw [equal]

theorem moduleNames_named (module : Module Scheme.binary) (nameSection : NameSection)
    {kind : ExternalKind} {index : Nat} (present : index < module.size kind) :
    (moduleNames module nameSection kind).names[index]? ≠ some [] := by
  refine foldl_request_named (requests_named module) kind index _ (Or.inl ?_)
  have own : forall base, ((kind, index), ascii base ++ toText index) ∈
      generated kind base (module.size kind) := fun base =>
    List.mem_map.mpr ⟨index, List.mem_range.mpr present, rfl⟩
  simp only [requests, List.mem_append]
  cases kind with
  | func => exact ⟨_, Or.inl (Or.inl (Or.inr (own "$f")))⟩
  | table => exact ⟨_, Or.inl (Or.inr (own "$T"))⟩
  | memory => exact ⟨_, Or.inr (own "$M")⟩
  | global => exact ⟨_, Or.inl (Or.inl (Or.inl (Or.inr (own "$g"))))⟩

end GenerateNames

/-! ## Locals -/

/-- The order in which a `std::unordered_multimap` is iterated, which is not
specified. -/
structure IterationOrder where
  order : List (Name × Nat) -> List (Name × Nat)
  perm : forall bindings, (order bindings).Perm bindings

/-- The iteration in the order of insertion. -/
def IterationOrder.inserted : IterationOrder := ⟨id, List.Perm.refl⟩

/-- `MakeTypeBindingReverseMapping` over bindings in the order of iteration.  An
index that is not below `size` fails the assertion. -/
def makeTypeBindingReverseMapping (size : Nat) (bindings : List (Name × Nat)) :
    Option (List Name) :=
  bindings.foldlM (fun mapping (name, index) =>
    if index < mapping.length then some (mapping.set index name) else none)
    (List.replicate size [])

/-- The bindings of a function's parameters and of its locals. -/
structure LocalBindings where
  params : List (Name × Nat)
  locals : List (Name × Nat)

/-- `OnLocalName` for every local name that is read. -/
def readLocalNames (numParams : Nat) (entries : List (Nat × Name)) : LocalBindings :=
  let named := entries.filter fun (_, name) => name ≠ []
  { params := (named.filter fun (index, _) => index < numParams).map fun (index, name) =>
      (makeDollarName name, index)
    locals := (named.filter fun (index, _) => numParams ≤ index).map fun (index, name) =>
      (makeDollarName name, index - numParams) }

namespace GenerateNames

/-- `GenerateAndBindLocalNames`, with the names read so far. -/
def generateAndBindLocalNames (base : String) (indexToName : List Name)
    (bindings : List (Name × Nat)) : List (Name × Nat) :=
  (List.range indexToName.length).foldl (fun bindings index =>
    if indexToName[index]? = some [] then
      (firstFresh (bindings.map Prod.fst) (numbered (ascii base ++ toText index) (ascii "_")),
        index) :: bindings
    else bindings) bindings

/-- `VisitFunc` on the bindings of a function. -/
def visitLocals (iteration : IterationOrder) (numParams numLocals : Nat)
    (bindings : LocalBindings) : Option LocalBindings := do
  let params <- makeTypeBindingReverseMapping numParams (iteration.order bindings.params)
  let locals <- makeTypeBindingReverseMapping numLocals (iteration.order bindings.locals)
  some ⟨generateAndBindLocalNames "$p" params bindings.params,
    generateAndBindLocalNames "$l" locals bindings.locals⟩

end GenerateNames

/-- The bindings that `ApplyNames` and the C writer see, in the order in which
both iterate over them. -/
def localBindings (iteration : IterationOrder) (func : Func Scheme.binary)
    (entries : List (Nat × Name)) : Option LocalBindings := do
  let numParams := func.sig.params.length
  let bindings <- GenerateNames.visitLocals iteration numParams func.localTypes.length
    (readLocalNames numParams entries)
  some ⟨iteration.order bindings.params, iteration.order bindings.locals⟩

namespace LocalBindings

/-- The name of each parameter and local. -/
def names (bindings : LocalBindings) (func : Func Scheme.binary) : Option (List Name) := do
  let params <- makeTypeBindingReverseMapping func.sig.params.length bindings.params
  let locals <- makeTypeBindingReverseMapping func.localTypes.length bindings.locals
  some (params ++ locals)

/-- `GetLocalIndex` of a name: parameters are looked up first. -/
def getLocalIndex (bindings : LocalBindings) (func : Func Scheme.binary) (name : Name) :
    Option Nat :=
  match bindings.params.lookup name with
  | some index => some index
  | none => (bindings.locals.lookup name).map fun index => func.sig.params.length + index

end LocalBindings

end Wasm
end WasmSandboxing
