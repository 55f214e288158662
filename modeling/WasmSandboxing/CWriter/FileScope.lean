import WasmSandboxing.CWriter.Initializers
import WasmSandboxing.CWriter.LocalScope

namespace WasmSandboxing
namespace CWriter

open Foundation Wasm

/-!
# Names at file scope

`WriteCHeader` and `WriteCSource` with the symbol map that they keep for the
whole module.  Functions, globals, memories and tables go into one map by their
wasm names, although these are told apart by kind, and an insertion keeps what
is already there.
-/

/-- One use of a name at file scope: the declaration of an import, the
definition of an entity, or a reference to one. -/
inductive FileMention where
  | declare (item : Import) (entity : Entity)
  | define (entity : Entity)
  | refer (entity : Entity)

/-! ## Where entities are mentioned -/

section Mentions

variable (module : Module Scheme.binary)

/-- The entities of a kind that are not imported. -/
def definedEntities (kind : ExternalKind) : List Entity :=
  ((List.range (module.size kind)).filter fun index => module.numImports kind ≤ index).map
    fun index => (kind, index)

def InitExpr.entities : InitExpr Scheme.binary -> List Entity
  | .const _ => []
  | .global var => [(.global, var)]

def InitStatement.entities : InitStatement Scheme.binary -> List Entity
  | .allocateMemory _ _ => [(.memory, 0)]
  | .memcpy offset _ => (.memory, 0) :: offset.entities
  | .allocateTable _ _ => [(.table, 0)]
  | .setOffset offset => offset.entities
  | .setElem _ _ func => [(.table, 0), (.func, func)]

def Mention.entities : Mention -> List Entity
  | .entity mentioned => [mentioned]
  | _ => []

/-- `WriteImports`. -/
def writeImports : List FileMention :=
  (importEntities (fun _ => 0) module.imports).map fun (item, entity) => .declare item entity

/-- `init_globals`. -/
def writeInitGlobals : Option (List Entity) := do
  let statements <- (definedEntities module .global).mapM fun entity => do
    let global <- module.globals[entity.2]?
    let init <- writeInitExpr global.initExpr
    some (entity :: init.entities)
  some statements.flatten

/-- `Write(Func)` beside the names of its own scope. -/
def writeFuncEntities (iteration : IterationOrder) (func : Func Scheme.binary)
    (entries : List (Nat × Name)) : Option (List Entity) := do
  let bindings <- localBindings iteration func entries
  let names <- bindings.names func
  let (body, _) <- writeFunc (funcContext module func bindings names) func.sig.result
    (ApplyNames.visitFunc func.exprs)
  some ((mentions body).flatMap Mention.entities)

/-- `WriteFuncs`. -/
def writeFuncs (iteration : IterationOrder) (nameSection : NameSection) :
    Option (List Entity) := do
  let bodies <- (definedEntities module .func).mapM fun entity => do
    let func <- module.funcs[entity.2]?
    let body <- writeFuncEntities module iteration func (nameSection.locals entity.2)
    some (entity :: body)
  some bodies.flatten

/-- The type of a function as element segments refer to it. -/
def funcTypeIndex (var : Nat) : Nat := (module.funcs[var]?.map Func.typeVar).getD 0

/-- `init_memory`, `init_table`, `init_exports` and `init`. -/
def writeInits : Option (List Entity) := do
  let memory <- writeDataInitializers module
  let table <- writeElemInitializers module (funcTypeIndex module)
  some (memory.flatMap InitStatement.entities ++ table.flatMap InitStatement.entities ++
    module.exports.map (fun item => item.var.entity) ++ module.starts.map fun var => (.func, var))

/-- The whole output, `WriteCHeader` and `WriteCSource`. -/
def fileMentions (iteration : IterationOrder) (nameSection : NameSection) :
    Option (List FileMention) := do
  let globals <- writeInitGlobals module
  let funcs <- writeFuncs module iteration nameSection
  let inits <- writeInits module
  some (writeImports module ++ (definedEntities module .func).map .define ++
    (definedEntities module .global).map .define ++ globals.map .refer ++
    (definedEntities module .memory).map .define ++ (definedEntities module .table).map .define ++
    (funcs ++ inits).map .refer)

end Mentions

/-! ## The scope of the file -/

/-- `global_syms_`, `import_syms_` and what has been done with
`global_sym_map_`. -/
structure FileScope where
  symbols : List Name
  importNames : List Name
  actions : List (SymbolAction Entity Name Name)

/-- The wasm name of an entity. -/
def entityName (names : ModuleNames) (entity : Entity) : Option Name :=
  (names entity.1).names[entity.2]?

/-- The mangled name of an imported field. -/
def mangledField (module : Module Scheme.binary) (item : Import) (entity : Entity) :
    Option Name :=
  match entity.1 with
  | .func => module.funcs[entity.2]?.map fun func =>
      mangleFuncName item.fieldName func.sig.params func.sig.result
  | .global => module.globals[entity.2]?.map fun global =>
      mangleGlobalName item.fieldName global.type
  | .memory | .table => some (mangleName item.fieldName)

namespace FileScope

/-- `DefineImportName`. -/
def defineImportName (scope : FileScope) (entity : Entity) (name moduleName field : Name) :
    FileScope where
  symbols := (mangleName moduleName ++ field) :: scope.symbols
  importNames := name :: scope.importNames
  actions := scope.actions ++ [.declare entity name (mangleName moduleName ++ field)]

/-- `DefineGlobalScopeName`. -/
def defineGlobalScopeName (scope : FileScope) (entity : Entity) (name : Name) : FileScope :=
  let unique := defineName scope.symbols (stripLeadingDollar name)
  { scope with
    symbols := unique :: scope.symbols
    actions := scope.actions ++ [.declare entity name unique] }

/-- `GetGlobalName`, which `Write(GlobalName)`, `Write(ExternalPtr)` and
`Write(ExternalRef)` call. -/
def getGlobalName (scope : FileScope) (entity : Entity) (name : Name) : FileScope :=
  { scope with actions := scope.actions ++ [.refer entity name] }

/-- `is_import` in `Write(ExternalPtr)` and `Write(ExternalRef)`: what is found
is then a pointer to the entity. -/
def isImport (scope : FileScope) (name : Name) : Bool :=
  scope.importNames.any fun other => other = name

def mention (module : Module Scheme.binary) (names : ModuleNames) (scope : FileScope) :
    FileMention -> Option FileScope
  | .declare item entity => do
      let name <- entityName names entity
      let field <- mangledField module item entity
      some (scope.defineImportName entity name item.moduleName field)
  | .define entity => (entityName names entity).map fun name =>
      scope.defineGlobalScopeName entity name
  | .refer entity => (entityName names entity).map fun name => scope.getGlobalName entity name

end FileScope

/-- `WriteModule` after `GenerateNames` and `ApplyNames`, with the symbols that
are taken from the beginning. -/
def writeFileScope (reserved : List Name) (module : Module Scheme.binary)
    (iteration : IterationOrder) (nameSection : NameSection) : Option FileScope := do
  let mentions <- fileMentions module iteration nameSection
  mentions.foldlM (FileScope.mention module (GenerateNames.moduleNames module nameSection))
    ⟨reserved, [], []⟩

/-! ## Faithfulness -/

/-- Every reference finds the symbol that was declared for its entity, and is
taken for an import just when the entity is one. -/
structure FileNamesFaithful (module : Module Scheme.binary) (scope : FileScope) : Prop where
  faithful : SymbolAction.Faithful scope.actions
  pointers : forall entity name, .refer entity name ∈ scope.actions ->
    (scope.isImport name = true ↔
      entity ∈ (importEntities (fun _ => 0) module.imports).map Prod.snd)

/-- The entities in the order in which they are put into the map. -/
def fileOrder (module : Module Scheme.binary) : List Entity :=
  (importEntities (fun _ => 0) module.imports).map Prod.snd ++ definedEntities module .func ++
    definedEntities module .global ++ definedEntities module .memory ++
    definedEntities module .table

/-- The symbol of an import. -/
def ImportSymbol (module : Module Scheme.binary) (entity : Entity) (symbol : Name) : Prop :=
  ∃ item field, (item, entity) ∈ importEntities (fun _ => 0) module.imports ∧
    mangledField module item entity = some field ∧
    symbol = mangleName item.moduleName ++ field

/-- The entities that the output refers to: functions and globals where they are
defined, and whatever expressions, initialisers and exports mention. -/
def referenced (module : Module Scheme.binary) : List Entity :=
  (writeInitGlobals module).getD [] ++
    (definedEntities module .func).flatMap (fun entity =>
      entity :: ((module.funcs[entity.2]?.map fun func =>
        (exprReferences (ApplyNames.visitFunc func.exprs)).flatMap Mention.entities).getD [])) ++
    (writeInits module).getD []

/-- The first entity under the name of a referenced one is that entity, or has
the same symbol because both are imports. -/
def FileNamesClear (module : Module Scheme.binary) (names : ModuleNames) : Prop :=
  forall entity, entity ∈ referenced module -> ∃ first,
    (fileOrder module).find? (fun other => entityName names other = entityName names entity) =
      some first ∧
    (first = entity ∨
      ∃ symbol, ImportSymbol module first symbol ∧ ImportSymbol module entity symbol)

/-! ## Entities and their names -/

theorem mem_importEntities_iff {next : ExternalKind -> Nat} {imports : List Import}
    {kind : ExternalKind} {index : Nat} :
    (kind, index) ∈ (importEntities next imports).map Prod.snd ↔
      next kind ≤ index ∧
        index < next kind + (imports.filter fun item => item.kind = kind).length := by
  induction imports generalizing next with
  | nil => simp [importEntities]
  | cons item rest inductionHypothesis =>
      rw [importEntities, List.map_cons, List.mem_cons, inductionHypothesis, Prod.mk.injEq]
      by_cases same : item.kind = kind
      · subst same
        simp only [Function.update_self, decide_true, List.filter_cons_of_pos, List.length_cons,
          true_and]
        omega
      · simp only [Function.update_of_ne (Ne.symm same), decide_eq_true_eq, same, not_false_eq_true,
          List.filter_cons_of_neg]
        exact or_iff_right fun ⟨equal, _⟩ => same equal.symm

theorem importEntities_nodup (next : ExternalKind -> Nat) (imports : List Import) :
    ((importEntities next imports).map Prod.snd).Nodup := by
  induction imports generalizing next with
  | nil => exact List.nodup_nil
  | cons item rest inductionHypothesis =>
      rw [importEntities, List.map_cons, List.nodup_cons]
      refine ⟨fun member => ?_, inductionHypothesis _⟩
      rw [mem_importEntities_iff, Function.update_self] at member
      omega

theorem mem_imports_iff {module : Module Scheme.binary} {entity : Entity} :
    entity ∈ (importEntities (fun _ => 0) module.imports).map Prod.snd ↔
      entity.2 < module.numImports entity.1 := by
  rcases entity with ⟨kind, index⟩
  rw [mem_importEntities_iff]
  simp [Module.numImports]

theorem mem_definedEntities_iff {module : Module Scheme.binary} {kind : ExternalKind}
    {entity : Entity} :
    entity ∈ definedEntities module kind ↔
      entity.1 = kind ∧ entity.2 < module.size kind ∧ module.numImports kind ≤ entity.2 := by
  rcases entity with ⟨own, index⟩
  simp only [definedEntities, List.mem_map, List.mem_filter, List.mem_range, decide_eq_true_eq,
    Prod.mk.injEq]
  constructor
  · rintro ⟨_, inside, rfl, rfl⟩
    exact ⟨rfl, inside⟩
  · rintro ⟨rfl, inside⟩
    exact ⟨index, inside, rfl, rfl⟩

theorem importSymbol_mem {module : Module Scheme.binary} {entity : Entity} {symbol : Name}
    (imported : ImportSymbol module entity symbol) :
    entity ∈ (importEntities (fun _ => 0) module.imports).map Prod.snd := by
  rcases imported with ⟨item, _, member, _, _⟩
  exact List.mem_map.mpr ⟨_, member, rfl⟩

/-- An entity is imported once. -/
theorem importSymbol_unique {module : Module Scheme.binary} {entity : Entity}
    {first second : Name} (one : ImportSymbol module entity first)
    (other : ImportSymbol module entity second) : first = second := by
  rcases one with ⟨item, field, member, mangled, rfl⟩
  rcases other with ⟨otherItem, otherField, otherMember, otherMangled, rfl⟩
  have same : (item, entity) = (otherItem, entity) :=
    List.inj_on_of_nodup_map (importEntities_nodup _ _) member otherMember rfl
  cases same
  rw [mangled] at otherMangled
  cases otherMangled
  rfl

/-- What has a name is imported or defined. -/
theorem imported_or_defined {module : Module Scheme.binary} {nameSection : NameSection}
    {entity : Entity} {name : Name}
    (named : entityName (GenerateNames.moduleNames module nameSection) entity = some name) :
    entity ∈ (importEntities (fun _ => 0) module.imports).map Prod.snd ∨
      entity ∈ definedEntities module entity.1 := by
  have inside := (List.getElem?_eq_some_iff.mp named).1
  rw [GenerateNames.moduleNames_length] at inside
  rcases Nat.lt_or_ge entity.2 (module.numImports entity.1) with below | above
  · exact Or.inl (mem_imports_iff.mpr below)
  · exact Or.inr (mem_definedEntities_iff.mpr ⟨rfl, inside, above⟩)

/-- What has a name is put into the map. -/
theorem mem_fileOrder {module : Module Scheme.binary} {nameSection : NameSection}
    {entity : Entity} {name : Name}
    (named : entityName (GenerateNames.moduleNames module nameSection) entity = some name) :
    entity ∈ fileOrder module := by
  simp only [fileOrder, List.mem_append]
  rcases imported_or_defined named with imported | own
  · exact Or.inl (Or.inl (Or.inl (Or.inl imported)))
  · rcases entity with ⟨kind, index⟩
    cases kind with
    | func => exact Or.inl (Or.inl (Or.inl (Or.inr own)))
    | global => exact Or.inl (Or.inl (Or.inr own))
    | memory => exact Or.inl (Or.inr own)
    | table => exact Or.inr own

/-! ## What the scope keeps -/

namespace FileScope

variable {module : Module Scheme.binary} {names : ModuleNames} {scope final : FileScope}

/-- The entities in the map, in order. -/
def keys (scope : FileScope) : List Entity :=
  (SymbolAction.declared scope.actions).map Prod.fst

/-- Entries have the names of their entities, symbols are taken and tell
entities apart unless both are imports, and nothing is looked up before it is
there. -/
structure Consistent (module : Module Scheme.binary) (names : ModuleNames) (scope : FileScope) :
    Prop where
  ordered : SymbolAction.Ordered [] scope.actions
  named : forall entity name symbol,
    (entity, name, symbol) ∈ SymbolAction.declared scope.actions ->
      entityName names entity = some name
  taken : forall entity name symbol,
    (entity, name, symbol) ∈ SymbolAction.declared scope.actions -> symbol ∈ scope.symbols
  apart : forall first firstName second secondName symbol,
    (first, firstName, symbol) ∈ SymbolAction.declared scope.actions ->
    (second, secondName, symbol) ∈ SymbolAction.declared scope.actions ->
      first = second ∨ (ImportSymbol module first symbol ∧ ImportSymbol module second symbol)
  imports : forall entity name symbol,
    (entity, name, symbol) ∈ SymbolAction.declared scope.actions ->
      entity.2 < module.numImports entity.1 -> ImportSymbol module entity symbol
  pointers : forall name, name ∈ scope.importNames ↔
    ∃ entity, entity ∈ scope.keys ∧ entity.2 < module.numImports entity.1 ∧
      entityName names entity = some name

theorem consistent_start (symbols : List Name) : Consistent module names ⟨symbols, [], []⟩ where
  ordered := trivial
  named _ _ _ member := nomatch member
  taken _ _ _ member := nomatch member
  apart _ _ _ _ _ member := nomatch member
  imports _ _ _ member := nomatch member
  pointers _ := ⟨fun member => (nomatch member), fun ⟨_, member, _⟩ => (nomatch member)⟩

theorem declared_declare (actions : List (SymbolAction Entity Name Name)) (entity : Entity)
    (name symbol : Name) :
    SymbolAction.declared (actions ++ [.declare entity name symbol]) =
      SymbolAction.declared actions ++ [(entity, name, symbol)] :=
  SymbolAction.declared_append _ _

theorem declared_refer (actions : List (SymbolAction Entity Name Name)) (entity : Entity)
    (name : Name) :
    SymbolAction.declared (actions ++ [.refer entity name]) = SymbolAction.declared actions := by
  rw [SymbolAction.declared_append]
  exact List.append_nil _

/-- One more entry, whose symbol is new or both are imports. -/
theorem Consistent.declare (consistent : scope.Consistent module names) {entity : Entity}
    {name symbol : Name} (named : entityName names entity = some name)
    {importNames : List Name}
    (fresh : symbol ∉ scope.symbols ∨ (ImportSymbol module entity symbol ∧
      forall other, other ∈ scope.keys -> other.2 < module.numImports other.1))
    (imported : entity.2 < module.numImports entity.1 -> ImportSymbol module entity symbol)
    (pointers : forall other, other ∈ importNames ↔ other ∈ scope.importNames ∨
      (other = name ∧ entity.2 < module.numImports entity.1)) :
    Consistent module names ⟨symbol :: scope.symbols, importNames,
      scope.actions ++ [.declare entity name symbol]⟩ := by
  have clash : forall other otherName,
      (other, otherName, symbol) ∈ SymbolAction.declared scope.actions ->
        ImportSymbol module entity symbol ∧ ImportSymbol module other symbol := by
    intro other otherName member
    rcases fresh with fresh | ⟨own, early⟩
    · exact absurd (consistent.taken _ _ _ member) fresh
    · exact ⟨own, consistent.imports _ _ _ member
        (early other (List.mem_map.mpr ⟨_, member, rfl⟩))⟩
  constructor
  · exact consistent.ordered.append_declare entity name symbol
  · intro other otherName otherSymbol member
    rw [declared_declare, List.mem_append] at member
    rcases member with old | new
    · exact consistent.named _ _ _ old
    · cases List.mem_singleton.mp new
      exact named
  · intro other otherName otherSymbol member
    rw [declared_declare, List.mem_append] at member
    rcases member with old | new
    · exact List.mem_cons_of_mem _ (consistent.taken _ _ _ old)
    · cases List.mem_singleton.mp new
      exact List.mem_cons_self
  · intro first firstName second secondName shared firstMember secondMember
    rw [declared_declare, List.mem_append] at firstMember secondMember
    rcases firstMember with firstOld | firstNew <;> rcases secondMember with secondOld | secondNew
    · exact consistent.apart _ _ _ _ _ firstOld secondOld
    · cases List.mem_singleton.mp secondNew
      exact Or.inr (clash _ _ firstOld).symm
    · cases List.mem_singleton.mp firstNew
      exact Or.inr (clash _ _ secondOld)
    · cases List.mem_singleton.mp firstNew
      cases List.mem_singleton.mp secondNew
      exact Or.inl rfl
  · intro other otherName otherSymbol member below
    rw [declared_declare, List.mem_append] at member
    rcases member with old | new
    · exact consistent.imports _ _ _ old below
    · cases List.mem_singleton.mp new
      exact imported below
  · intro other
    rw [pointers, consistent.pointers]
    simp only [keys, declared_declare, List.map_append, List.map_cons, List.map_nil,
      List.mem_append, List.mem_singleton, or_and_right, exists_or, exists_eq_left, named,
      Option.some.injEq]
    exact or_congr_right ⟨fun ⟨same, below⟩ => ⟨below, same.symm⟩, fun ⟨below, same⟩ =>
      ⟨same.symm, below⟩⟩

theorem Consistent.getGlobalName (consistent : scope.Consistent module names) {entity : Entity}
    {name : Name} (named : entityName names entity = some name) (present : entity ∈ scope.keys) :
    (scope.getGlobalName entity name).Consistent module names := by
  rcases List.mem_map.mp present with ⟨⟨own, ownName, symbol⟩, member, rfl⟩
  have same : ownName = name :=
    Option.some.inj ((consistent.named _ _ _ member).symm.trans named)
  have unchanged := declared_refer scope.actions own name
  have keys : (scope.getGlobalName own name).keys = scope.keys :=
    congrArg (List.map Prod.fst) unchanged
  subst same
  constructor
  · exact consistent.ordered.append_refer member
  · intro other otherName otherSymbol found
    exact consistent.named _ _ _ (unchanged ▸ found)
  · intro other otherName otherSymbol found
    exact consistent.taken _ _ _ (unchanged ▸ found)
  · intro first firstName second secondName shared firstFound secondFound
    exact consistent.apart _ _ _ _ _ (unchanged ▸ firstFound) (unchanged ▸ secondFound)
  · intro other otherName otherSymbol found
    exact consistent.imports _ _ _ (unchanged ▸ found)
  · intro other
    rw [keys]
    exact consistent.pointers other

/-- Searching the entities by name is searching the map. -/
theorem Consistent.find_keys (consistent : scope.Consistent module names) (name : Name) :
    scope.keys.find? (fun other => entityName names other = some name) =
      (SymbolAction.first name (SymbolAction.declared scope.actions)).map Prod.fst := by
  rw [keys, List.find?_map, SymbolAction.first]
  congr 1
  apply List.find?_congr
  rintro ⟨entity, own, symbol⟩ member
  simp [consistent.named _ _ _ member]

end FileScope

/-! ## Mentions in scope -/

section Walk

variable {module : Module Scheme.binary} {names : ModuleNames}

/-- The entities that mentions put into the map. -/
def entered : List FileMention -> List Entity
  | [] => []
  | .declare _ entity :: rest | .define entity :: rest => entity :: entered rest
  | .refer _ :: rest => entered rest

/-- Imports come first, and what has a name is entered before it is referred
to. -/
def InFileScope (module : Module Scheme.binary) (names : ModuleNames) (known : List Entity) :
    List FileMention -> Prop
  | [] => True
  | .declare item entity :: rest =>
      (item, entity) ∈ importEntities (fun _ => 0) module.imports ∧
        (forall other, other ∈ known -> other.2 < module.numImports other.1) ∧
        InFileScope module names (known ++ [entity]) rest
  | .define entity :: rest =>
      module.numImports entity.1 ≤ entity.2 ∧ InFileScope module names (known ++ [entity]) rest
  | .refer entity :: rest =>
      (forall name, entityName names entity = some name -> entity ∈ known) ∧
        InFileScope module names known rest

theorem entered_append (first second : List FileMention) :
    entered (first ++ second) = entered first ++ entered second := by
  induction first with
  | nil => rfl
  | cons mention rest inductionHypothesis =>
      cases mention <;> simp [entered, inductionHypothesis]

theorem inFileScope_append {first second : List FileMention} {known : List Entity} :
    InFileScope module names known (first ++ second) ↔
      InFileScope module names known first ∧
        InFileScope module names (known ++ entered first) second := by
  induction first generalizing known with
  | nil => simp [InFileScope, entered]
  | cons mention rest inductionHypothesis =>
      cases mention <;> simp [InFileScope, entered, inductionHypothesis, and_assoc]

theorem entered_define (entities : List Entity) : entered (entities.map .define) = entities := by
  induction entities with
  | nil => rfl
  | cons entity rest inductionHypothesis => exact congrArg (List.cons entity) inductionHypothesis

theorem entered_refer (entities : List Entity) : entered (entities.map .refer) = [] := by
  induction entities with
  | nil => rfl
  | cons entity rest inductionHypothesis => exact inductionHypothesis

theorem inFileScope_define {known : List Entity} {entities : List Entity}
    (defined : forall entity, entity ∈ entities -> module.numImports entity.1 ≤ entity.2) :
    InFileScope module names known (entities.map .define) := by
  induction entities generalizing known with
  | nil => exact trivial
  | cons entity rest inductionHypothesis =>
      exact ⟨defined entity List.mem_cons_self, inductionHypothesis fun other member =>
        defined other (List.mem_cons_of_mem _ member)⟩

theorem inFileScope_refer {known : List Entity} {entities : List Entity}
    (present : forall entity, entity ∈ entities ->
      forall name, entityName names entity = some name -> entity ∈ known) :
    InFileScope module names known (entities.map .refer) := by
  induction entities with
  | nil => exact trivial
  | cons entity rest inductionHypothesis =>
      exact ⟨present entity List.mem_cons_self, inductionHypothesis fun other member =>
        present other (List.mem_cons_of_mem _ member)⟩

theorem inFileScope_imports {items : List (Import × Entity)} {known : List Entity}
    (declared : forall item, item ∈ items -> item ∈ importEntities (fun _ => 0) module.imports)
    (early : forall other, other ∈ known -> other.2 < module.numImports other.1) :
    InFileScope module names known (items.map fun (item, entity) => .declare item entity) ∧
      entered (items.map fun (item, entity) => FileMention.declare item entity) =
        items.map Prod.snd := by
  induction items generalizing known with
  | nil => exact ⟨trivial, rfl⟩
  | cons item rest inductionHypothesis =>
      have own := mem_imports_iff.mp
        (List.mem_map.mpr ⟨item, declared item List.mem_cons_self, rfl⟩)
      have later := @inductionHypothesis (known ++ [item.2])
        (fun other member => declared other (List.mem_cons_of_mem _ member))
        (fun other member => by
          rcases List.mem_append.mp member with old | new
          · exact early other old
          · rw [List.mem_singleton.mp new]
            exact own)
      exact ⟨⟨declared item List.mem_cons_self, early, later.1⟩,
        congrArg (List.cons item.2) later.2⟩

/-- What a list of mentions leaves. -/
structure FileWalked (module : Module Scheme.binary) (names : ModuleNames)
    (mentions : List FileMention) (scope final : FileScope) : Prop where
  consistent : final.Consistent module names
  keys : final.keys = scope.keys ++ entered mentions
  named : forall entity, .refer entity ∈ mentions -> ∃ name, entityName names entity = some name
  refers : forall entity name, .refer entity name ∈ final.actions ↔
    .refer entity name ∈ scope.actions ∨
      (.refer entity ∈ mentions ∧ entityName names entity = some name)

theorem file_walk {mentions : List FileMention} {scope final : FileScope}
    (consistent : scope.Consistent module names)
    (inScope : InFileScope module names scope.keys mentions)
    (walked : mentions.foldlM (FileScope.mention module names) scope = some final) :
    FileWalked module names mentions scope final := by
  induction mentions generalizing scope with
  | nil =>
      cases walked
      exact ⟨consistent, (List.append_nil _).symm, nofun, by simp⟩
  | cons mention rest inductionHypothesis =>
      rw [List.foldlM_cons, Option.bind_eq_bind, Option.bind_eq_some_iff] at walked
      rcases walked with ⟨next, here, later⟩
      cases mention with
      | declare item entity =>
          rcases inScope with ⟨member, early, inScope⟩
          simp only [FileScope.mention, Option.bind_eq_bind, Option.bind_eq_some_iff,
            Option.some.injEq] at here
          rcases here with ⟨name, named, field, mangled, rfl⟩
          have own : ImportSymbol module entity (mangleName item.moduleName ++ field) :=
            ⟨item, field, member, mangled, rfl⟩
          have below := mem_imports_iff.mp (importSymbol_mem own)
          have keys : (scope.defineImportName entity name item.moduleName field).keys =
              scope.keys ++ [entity] := by
            rw [FileScope.keys, FileScope.defineImportName, FileScope.declared_declare,
              List.map_append]
            rfl
          have run := inductionHypothesis
            (consistent.declare named (Or.inr ⟨own, early⟩) (fun _ => own) fun other => by
              simp only [List.mem_cons, below, and_true, or_comm])
            (by rw [← keys] at inScope; exact inScope) later
          refine ⟨run.consistent, ?_, by simpa using run.named, fun other otherName => ?_⟩
          · exact run.keys.trans ((congrArg (· ++ _) keys).trans (List.append_assoc _ _ _))
          · rw [run.refers]
            simp
      | define entity =>
          rcases inScope with ⟨above, inScope⟩
          rcases Option.map_eq_some_iff.mp here with ⟨name, named, rfl⟩
          have keys : (scope.defineGlobalScopeName entity name).keys = scope.keys ++ [entity] := by
            rw [FileScope.keys, FileScope.defineGlobalScopeName, FileScope.declared_declare,
              List.map_append]
            rfl
          have run := inductionHypothesis
            (consistent.declare named (Or.inl (defineName_not_mem _ _))
              (fun below => absurd below (Nat.not_lt.mpr above)) fun other => by
                simp only [Nat.not_lt.mpr above, and_false, or_false])
            (by rw [← keys] at inScope; exact inScope) later
          refine ⟨run.consistent, ?_, by simpa using run.named, fun other otherName => ?_⟩
          · exact run.keys.trans ((congrArg (· ++ _) keys).trans (List.append_assoc _ _ _))
          · rw [run.refers]
            simp
      | refer entity =>
          rcases inScope with ⟨present, inScope⟩
          rcases Option.map_eq_some_iff.mp here with ⟨name, named, rfl⟩
          have keys : (scope.getGlobalName entity name).keys = scope.keys :=
            congrArg (List.map Prod.fst) (FileScope.declared_refer scope.actions entity name)
          have run := inductionHypothesis
            (consistent.getGlobalName named (present name named))
            (by rw [← keys] at inScope; exact inScope) later
          refine ⟨run.consistent, run.keys.trans (congrArg (· ++ _) keys), ?_,
            fun other otherName => ?_⟩
          · intro other member
            rcases List.mem_cons.mp member with same | member
            · cases same
              exact ⟨name, named⟩
            · exact run.named other member
          · rw [run.refers, FileScope.getGlobalName, List.mem_append, List.mem_singleton,
              List.mem_cons, or_assoc]
            refine or_congr_right ⟨?_, ?_⟩
            · rintro (same | ⟨member, found⟩)
              · cases same
                exact ⟨Or.inl rfl, named⟩
              · exact ⟨Or.inr member, found⟩
            · rintro ⟨same | member, found⟩
              · cases same
                exact Or.inl (by rw [Option.some.inj (found.symm.trans named)])
              · exact Or.inr ⟨member, found⟩

end Walk

/-! ## The mentions of a module -/

section FileMentions

variable {module : Module Scheme.binary} {iteration : IterationOrder} {nameSection : NameSection}

theorem flatMap_entities_filter (mentions : List Mention) :
    (mentions.filter fun mention => !mention.isStackVar).flatMap Mention.entities =
      mentions.flatMap Mention.entities := by
  induction mentions with
  | nil => rfl
  | cons mention rest inductionHypothesis =>
      cases mention with
      | stackVar index type => exact inductionHypothesis
      | _ => exact congrArg (_ ++ ·) inductionHypothesis

theorem writeFuncEntities_eq {func : Func Scheme.binary} {entries : List (Nat × Name)}
    {entities : List Entity}
    (written : writeFuncEntities module iteration func entries = some entities) :
    entities = (exprReferences (ApplyNames.visitFunc func.exprs)).flatMap Mention.entities := by
  simp only [writeFuncEntities, Option.bind_eq_bind, Option.bind_eq_some_iff,
    Option.some.injEq] at written
  rcases written with ⟨_, _, _, _, ⟨body, _⟩, bodyWritten, rfl⟩
  rw [← writeFunc_references bodyWritten, references, flatMap_entities_filter]

theorem mapM_flatten {Item Part : Type} {write : Item -> Option (List Part)}
    {parts : Item -> List Part} {items : List Item} {written : List (List Part)}
    (agrees : forall item lists, write item = some lists -> lists = parts item)
    (all : items.mapM write = some written) : written.flatten = items.flatMap parts := by
  induction items generalizing written with
  | nil =>
      cases all
      rfl
  | cons item rest inductionHypothesis =>
      rw [List.mapM_cons] at all
      simp only [Option.bind_eq_bind, Option.bind_eq_some_iff, Option.pure_def,
        Option.some.injEq] at all
      rcases all with ⟨head, here, tail, later, rfl⟩
      rw [List.flatten_cons, List.flatMap_cons, inductionHypothesis later, agrees item head here]

theorem writeFuncs_eq {entities : List Entity}
    (written : writeFuncs module iteration nameSection = some entities) :
    entities = (definedEntities module .func).flatMap fun entity =>
      entity :: ((module.funcs[entity.2]?.map fun func =>
        (exprReferences (ApplyNames.visitFunc func.exprs)).flatMap Mention.entities).getD []) := by
  simp only [writeFuncs, Option.bind_eq_bind, Option.bind_eq_some_iff, Option.some.injEq] at written
  rcases written with ⟨bodies, all, rfl⟩
  refine mapM_flatten (fun entity lists here => ?_) all
  simp only [Option.bind_eq_some_iff, Option.some.injEq] at here
  rcases here with ⟨func, found, body, bodyWritten, rfl⟩
  rw [found, writeFuncEntities_eq bodyWritten]
  rfl

/-- The globals are entered when their initialisers are written. -/
theorem writeInitGlobals_kind {entities : List Entity}
    (written : writeInitGlobals module = some entities) :
    forall entity, entity ∈ entities -> entity.1 = .global := by
  simp only [writeInitGlobals, Option.bind_eq_bind, Option.bind_eq_some_iff,
    Option.some.injEq] at written
  rcases written with ⟨statements, all, rfl⟩
  have each := @mapM_flatten _ _ _ (fun entity => entity ::
    ((module.globals[entity.2]?.bind fun global => writeInitExpr global.initExpr).map
      InitExpr.entities).getD []) _ _ (fun entity lists here => by
    simp only [Option.bind_eq_some_iff, Option.some.injEq] at here
    rcases here with ⟨global, found, init, initWritten, rfl⟩
    rw [found, Option.bind_some, initWritten]
    rfl) all
  intro entity member
  rw [each] at member
  rcases List.mem_flatMap.mp member with ⟨own, defined, found⟩
  rcases List.mem_cons.mp found with rfl | found
  · exact (mem_definedEntities_iff.mp defined).1
  · cases init : (module.globals[own.2]?.bind fun global => writeInitExpr global.initExpr) with
    | none =>
        rw [init] at found
        exact nomatch found
    | some expr =>
        rw [init] at found
        cases expr with
        | const value => exact nomatch found
        | global var =>
            rw [List.mem_singleton.mp found]

/-- Whatever the output mentions is in scope there, and these are the entities
that the module refers to. -/
theorem fileMentions_inScope {mentions : List FileMention}
    (written : fileMentions module iteration nameSection = some mentions) :
    InFileScope module (GenerateNames.moduleNames module nameSection) [] mentions ∧
      entered mentions = fileOrder module ∧
      forall entity, .refer entity ∈ mentions ↔ entity ∈ referenced module := by
  simp only [fileMentions, Option.bind_eq_bind, Option.bind_eq_some_iff, Option.some.injEq]
    at written
  rcases written with ⟨globals, globalsWritten, funcs, funcsWritten, inits, initsWritten, rfl⟩
  have imports := @inFileScope_imports module (GenerateNames.moduleNames module nameSection)
    (importEntities (fun _ => 0) module.imports) [] (fun _ member => member) nofun
  have defined : forall kind entity, entity ∈ definedEntities module kind ->
      module.numImports entity.1 ≤ entity.2 := by
    intro kind entity member
    rcases mem_definedEntities_iff.mp member with ⟨rfl, _, above⟩
    exact above
  have order : entered (writeImports module ++ (definedEntities module .func).map .define ++
      (definedEntities module .global).map .define ++ globals.map .refer ++
      (definedEntities module .memory).map .define ++ (definedEntities module .table).map .define ++
      (funcs ++ inits).map .refer) = fileOrder module := by
    simp only [entered_append, entered_define, entered_refer, List.append_nil]
    rw [writeImports, imports.2, fileOrder]
  refine ⟨?_, order, fun entity => ?_⟩
  · simp only [inFileScope_append, entered_append, entered_define, entered_refer, List.nil_append,
      List.append_nil]
    refine ⟨⟨⟨⟨⟨⟨imports.1, ?_⟩, ?_⟩, ?_⟩, ?_⟩, ?_⟩, ?_⟩
    · exact inFileScope_define (defined _)
    · exact inFileScope_define (defined _)
    · refine inFileScope_refer fun entity member name named => ?_
      rw [writeImports, imports.2]
      rcases imported_or_defined named with imported | own
      · exact List.mem_append_left _ (List.mem_append_left _ imported)
      · rw [writeInitGlobals_kind globalsWritten entity member] at own
        exact List.mem_append_right _ own
    · exact inFileScope_define (defined _)
    · exact inFileScope_define (defined _)
    · refine inFileScope_refer fun entity _ name named => ?_
      rw [writeImports, imports.2]
      exact mem_fileOrder named
  · have none : FileMention.refer entity ∉ writeImports module := by
      intro member
      rcases List.mem_map.mp member with ⟨_, _, same⟩
      cases same
    simp only [referenced, globalsWritten, initsWritten, ← writeFuncs_eq funcsWritten,
      Option.getD_some, List.mem_append, List.mem_map, none, reduceCtorEq, and_false, exists_false,
      false_or, or_false, FileMention.refer.injEq, exists_eq_right, or_assoc]

end FileMentions

/-! ## When the names of a file are faithful -/

/-- Under the name of an import, an import comes first. -/
theorem find_fileOrder_imported {module : Module Scheme.binary} {names : ModuleNames}
    {other first : Entity} {name : Name}
    (imported : other ∈ (importEntities (fun _ => 0) module.imports).map Prod.snd)
    (named : entityName names other = some name)
    (found : (fileOrder module).find? (fun other => entityName names other = some name) =
      some first) : first ∈ (importEntities (fun _ => 0) module.imports).map Prod.snd := by
  simp only [fileOrder, List.append_assoc] at found
  rw [List.find?_append] at found
  cases early : List.find? (fun other => entityName names other = some name)
      ((importEntities (fun _ => 0) module.imports).map Prod.snd) with
  | none => exact absurd (List.find?_eq_none.mp early other imported) (by simp [named])
  | some hit =>
      rw [early] at found
      cases found
      exact List.mem_of_find?_eq_some early

/-- Every reference at file scope is faithful precisely when the names of the
referenced entities are clear. -/
theorem file_names_faithful_iff (reserved : List Name) (module : Module Scheme.binary)
    (iteration : IterationOrder) (nameSection : NameSection) (scope : FileScope)
    (written : writeFileScope reserved module iteration nameSection = some scope) :
    FileNamesFaithful module scope ↔
      FileNamesClear module (GenerateNames.moduleNames module nameSection) := by
  simp only [writeFileScope, Option.bind_eq_bind, Option.bind_eq_some_iff] at written
  rcases written with ⟨mentions, mentioned, walked⟩
  rcases fileMentions_inScope mentioned with ⟨inScope, order, refers⟩
  have run := file_walk (FileScope.consistent_start reserved) inScope walked
  have consistent := run.consistent
  have keys : scope.keys = fileOrder module := run.keys.trans order
  have refer : forall entity name, .refer entity name ∈ scope.actions ↔
      entity ∈ referenced module ∧
        entityName (GenerateNames.moduleNames module nameSection) entity = some name := by
    intro entity name
    rw [run.refers, refers]
    exact or_iff_right nofun
  constructor
  · intro holds entity used
    rcases run.named entity ((refers entity).mpr used) with ⟨name, named⟩
    rcases (SymbolAction.faithful_iff consistent.ordered).mp holds.faithful entity name
      ((refer entity name).mpr ⟨used, named⟩) with ⟨⟨first, firstName, symbol⟩, found, own, present⟩
    refine ⟨first, ?_, ?_⟩
    · rw [← keys, named, consistent.find_keys, found]
      rfl
    · rcases consistent.apart _ _ _ _ _ (List.mem_of_find?_eq_some found) present with
        same | ⟨firstImport, entityImport⟩
      · exact Or.inl same
      · exact Or.inr ⟨symbol, firstImport, entityImport⟩
  · intro clear
    have settled : forall entity name, .refer entity name ∈ scope.actions ->
        ∃ first symbol, SymbolAction.first name (SymbolAction.declared scope.actions) =
            some (first, name, symbol) ∧
          (first = entity ∨ (ImportSymbol module first symbol ∧
            ImportSymbol module entity symbol)) := by
      intro entity name member
      rcases (refer entity name).mp member with ⟨used, named⟩
      rcases clear entity used with ⟨first, found, shared⟩
      rw [← keys, named, consistent.find_keys, Option.map_eq_some_iff] at found
      rcases found with ⟨⟨own, ownName, symbol⟩, found, rfl⟩
      have same : ownName = name := by simpa using List.find?_some found
      subst same
      refine ⟨own, symbol, found, shared.imp_right fun ⟨common, ownImport, entityImport⟩ => ?_⟩
      have below := mem_imports_iff.mp (importSymbol_mem ownImport)
      have equal := importSymbol_unique ownImport
        (consistent.imports _ _ _ (List.mem_of_find?_eq_some found) below)
      exact ⟨equal ▸ ownImport, equal ▸ entityImport⟩
    have entry : forall entity name, .refer entity name ∈ scope.actions ->
        ∃ symbol, (entity, name, symbol) ∈ SymbolAction.declared scope.actions := by
      intro entity name member
      rcases (refer entity name).mp member with ⟨_, named⟩
      have inside : entity ∈ scope.keys := by
        rw [keys]
        exact mem_fileOrder named
      rcases List.mem_map.mp inside with ⟨⟨_, ownName, symbol⟩, found, rfl⟩
      have same := (consistent.named _ _ _ found).symm.trans named
      cases same
      exact ⟨symbol, found⟩
    constructor
    · rw [SymbolAction.faithful_iff consistent.ordered]
      intro entity name member
      rcases settled entity name member with ⟨first, symbol, found, rfl | ⟨_, entityImport⟩⟩
      · exact ⟨_, found, name, List.mem_of_find?_eq_some found⟩
      · rcases entry entity name member with ⟨own, present⟩
        have below := mem_imports_iff.mp (importSymbol_mem entityImport)
        have equal := importSymbol_unique entityImport (consistent.imports _ _ _ present below)
        exact ⟨_, found, name, equal ▸ present⟩
    · intro entity name member
      simp only [FileScope.isImport, List.any_eq_true, decide_eq_true_eq, exists_eq_right,
        consistent.pointers, mem_imports_iff]
      constructor
      · rintro ⟨other, inside, below, named⟩
        rcases settled entity name member with ⟨first, symbol, found, same | ⟨_, entityImport⟩⟩
        · subst same
          refine mem_imports_iff.mp (find_fileOrder_imported (mem_imports_iff.mpr below) named ?_)
          rw [← keys, consistent.find_keys, found]
          rfl
        · exact mem_imports_iff.mp (importSymbol_mem entityImport)
      · intro below
        rcases entry entity name member with ⟨symbol, present⟩
        exact ⟨entity, List.mem_map.mpr ⟨_, present, rfl⟩, below, consistent.named _ _ _ present⟩

/-! ## A function named like a global -/

/-- A module with an empty function and a global. -/
def oneGlobalModule : Module Scheme.binary where
  imports := []
  funcTypes := [⟨[], none⟩]
  funcs := [⟨0, ⟨[], none⟩, [], .nil⟩]
  tables := []
  memories := []
  globals := [⟨.i32, false, .instr (.const (.i32 0)) .nil⟩]
  exports := []
  starts := []
  elemSegments := []
  dataSegments := []

/-- The name section calls the function by the given name. -/
def namedFunction (name : String) : NameSection := ⟨[(0, ascii name)], fun _ => []⟩

/-- With a function called `f` the global's initialiser finds its global. -/
theorem file_names_faithful_iff_distinct : ∃ scope,
    writeFileScope [ascii "g0"] oneGlobalModule insertionOrder (namedFunction "f") = some scope ∧
    (FileNamesFaithful oneGlobalModule scope ↔ FileNamesClear oneGlobalModule
      (GenerateNames.moduleNames oneGlobalModule (namedFunction "f"))) :=
  ⟨_, rfl, file_names_faithful_iff [ascii "g0"] oneGlobalModule insertionOrder
    (namedFunction "f") _ rfl⟩

/-- The function is called `g0`, as the global will be: `init_globals` assigns
to the function. -/
theorem global_goes_to_function : ∃ scope,
    writeFileScope reservedNames oneGlobalModule insertionOrder (namedFunction "g0") =
      some scope ∧
    SymbolAction.resolve [] scope.actions =
      [((.global, 0), some (ascii "g0")), ((.func, 0), some (ascii "g0"))] ∧
    ¬ FileNamesFaithful oneGlobalModule scope := by
  have run : (writeFileScope reservedNames oneGlobalModule insertionOrder
      (namedFunction "g0")).any (fun scope =>
        SymbolAction.resolve [] scope.actions ==
            [((.global, 0), some (ascii "g0")), ((.func, 0), some (ascii "g0"))] &&
          (SymbolAction.declared scope.actions).map (fun entry => (entry.1, entry.2.2)) ==
            [((.func, 0), ascii "g0"), ((.global, 0), ascii "g0_0")]) = true := by
    decide +kernel
  rcases (Option.any_eq_true _ _).mp run with ⟨scope, written, found⟩
  rcases Bool.and_eq_true_iff.mp found with ⟨resolves, declares⟩
  have resolved := eq_of_beq resolves
  have declarations := eq_of_beq declares
  refine ⟨scope, written, resolved, fun holds => ?_⟩
  have found : ((.global, 0), some (ascii "g0")) ∈ SymbolAction.resolve [] scope.actions := by
    rw [resolved]
    exact List.mem_cons_self
  rcases holds.faithful _ _ found with ⟨name, symbol, equal, declared⟩
  have own : ((ExternalKind.global, 0), ascii "g0") ∈
      (SymbolAction.declared scope.actions).map fun entry => (entry.1, entry.2.2) := by
    cases equal
    exact List.mem_map.mpr ⟨_, declared, rfl⟩
  rw [declarations] at own
  revert own
  decide

end CWriter
end WasmSandboxing
