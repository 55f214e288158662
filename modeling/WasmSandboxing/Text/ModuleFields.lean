import WasmSandboxing.Text.Ir

namespace WasmSandboxing
namespace Text
namespace Fields

open Wasm

/-!
# Modules and their fields

`ParseModuleField` of `wast-parser.cc` and `Module::AppendField` of `ir.cc`.  A
module is put together field by field.  What a field adds to an index space is
bound to the number of entities that are there already, and imports are only
counted, so what a number stands for depends on the order of the fields.
-/

/-! ## Modules -/

/-- The entities of an index space: their names, empty where there is none, and
the `BindingHash` of the space. -/
structure Entities where
  names : List Name
  bindings : BindingHash

/-- A function without its own name, which is in the space of functions. -/
structure Func extends Text.Func where
  numLocals : Nat

def Func.numParams (func : Func) : Nat := func.decl.paramTypes.length

structure ImportName where
  moduleName : Name
  fieldName : Name

structure Import extends ImportName where
  kind : ExternalKind

structure Export extends Text.Export where
  name : Name

structure Module where
  space : Space -> Entities
  numImports : ExternalKind -> Nat
  imports : List Import
  exports : List Export
  exportBindings : BindingHash
  funcs : List Func
  globals : List ExprList
  elemSegments : List ElemSegment
  dataSegments : List DataSegment
  starts : List Var

namespace Module

/-- The module as far as references go. -/
def toText (module : Module) : Text.Module where
  bindings := fun space => (module.space space).bindings
  funcs := module.funcs.map Func.toFunc
  exports := module.exports.map Export.toExport
  globals := module.globals
  elemSegments := module.elemSegments
  dataSegments := module.dataSegments
  starts := module.starts

/-- A module before its first field. -/
def empty : Module := ⟨fun _ => ⟨[], []⟩, fun _ => 0, [], [], [], [], [], [], [], []⟩

def size (module : Module) (kind : ExternalKind) : Nat := (module.space kind.space).names.length

/-- `GetFuncIndex` and its like. -/
def getIndex (iteration : IterationOrder) (module : Module) (space : Space) (var : Var) :
    Option Nat :=
  findIndex iteration (module.space space).bindings var

/-- `IsImport`; `kInvalidIndex` is above every number of imports. -/
def isImport (iteration : IterationOrder) (module : Module) (kind : ExternalKind) (var : Var) :
    Bool :=
  (module.getIndex iteration kind.space var).any fun index => index < module.numImports kind

/-! ## AppendField -/

end Module

/-- A name is bound unless it is empty. -/
def Entities.append (entities : Entities) (name : Name) : Entities where
  names := entities.names ++ [name]
  bindings :=
    if name = [] then entities.bindings
    else entities.bindings ++ [(name, entities.names.length)]

namespace Module

/-- What the fields of entities have in common. -/
def push (module : Module) (space : Space) (name : Name) : Module :=
  { module with
    space := Function.update module.space space ((module.space space).append name) }

def appendFunc (module : Module) (name : Name) (func : Func) : Module :=
  { module.push .func name with funcs := module.funcs ++ [func] }

def appendGlobal (module : Module) (name : Name) (initExpr : ExprList) : Module :=
  { module.push .global name with globals := module.globals ++ [initExpr] }

def appendTable (module : Module) (name : Name) : Module := module.push .table name

def appendMemory (module : Module) (name : Name) : Module := module.push .memory name

def appendExcept (module : Module) (name : Name) : Module := module.push .except name

/-- "Exported names are allowed to be empty." -/
def appendExport (module : Module) (item : Export) : Module :=
  { module with
    exports := module.exports ++ [item]
    exportBindings := module.exportBindings ++ [(item.name, module.exports.length)] }

end Module

/-- What is imported; the global has no `init_expr` then. -/
inductive Imported where
  | func (func : Func)
  | table
  | memory
  | global
  | except

def Imported.kind : Imported -> ExternalKind
  | .func _ => .func
  | .table => .table
  | .memory => .memory
  | .global => .global
  | .except => .except

/-- `AppendField` of an `ImportModuleField`. -/
def Module.appendImport (module : Module) (importName : ImportName) (name : Name)
    (imported : Imported) : Module :=
  let pushed := match imported with
    | .func func => module.appendFunc name func
    | .table => module.appendTable name
    | .memory => module.appendMemory name
    | .global => module.appendGlobal name .nil
    | .except => module.appendExcept name
  { pushed with
    numImports :=
      Function.update module.numImports imported.kind (module.numImports imported.kind + 1)
    imports := module.imports ++ [⟨importName, imported.kind⟩] }

/-! ## Fields as they are written -/

inductive MemoryContents where
  | imported (importName : ImportName)
  | data
  | limits

inductive TableContents where
  | imported (importName : ImportName)
  | elements (vars : List Var)
  | limits

/-- A field as far as `AppendField` and the passes look at it, with the names of
its inline exports. -/
inductive ModuleField where
  | data (segment : DataSegment)
  | elem (segment : ElemSegment)
  | except (name : Name)
  | exported (item : Export)
  | func (name : Name) (exports : List Name) (inlineImport : Option ImportName) (func : Func)
  | type (name : Name)
  | global (name : Name) (exports : List Name) (inlineImport : Option ImportName)
      (initExpr : ExprList)
  | imported (importName : ImportName) (name : Name) (imported : Imported)
  | memory (name : Name) (exports : List Name) (contents : MemoryContents)
  | start (var : Var)
  | table (name : Name) (exports : List Name) (contents : TableContents)

/-- The module, and how often imports were found to be out of order. -/
structure WastParser where
  module : Module
  errors : Nat

namespace WastParser

/-- "imports must occur before all non-import definitions" -/
def checkImportOrdering (parser : WastParser) : WastParser :=
  let module := parser.module
  if module.size .func ≠ module.numImports .func ∨ module.size .table ≠ module.numImports .table ∨
      module.size .memory ≠ module.numImports .memory ∨
      module.size .global ≠ module.numImports .global ∨
      module.size .except ≠ module.numImports .except then
    { parser with errors := parser.errors + 1 }
  else parser

def modify (parser : WastParser) (change : Module -> Module) : WastParser :=
  { parser with module := change parser.module }

/-- `AppendInlineExportFields`, for the entity that was added last. -/
def appendInlineExportFields (kind : ExternalKind) (exports : List Name) (parser : WastParser) :
    WastParser :=
  parser.modify fun module =>
    exports.foldl (fun extended name =>
      extended.appendExport ⟨⟨kind, .index (module.size kind - 1)⟩, name⟩) module

/-- The offset of what is written inside a table or memory. -/
def zeroOffset : ExprList := .instr (.plain .const) .nil

def parseImport (parser : WastParser) (importName : ImportName) (name : Name)
    (imported : Imported) : WastParser :=
  parser.checkImportOrdering.modify fun module => module.appendImport importName name imported

end WastParser

/-! ## What the fields declare -/

/-- What a field adds to an index space. -/
structure Declaration where
  name : Name
  space : Space
  imported : Bool

namespace ModuleField

def declaration : ModuleField -> Option Declaration
  | .data _ | .elem _ | .exported _ | .start _ => none
  | .except name => some ⟨name, .except, false⟩
  | .func name _ inlineImport _ => some ⟨name, .func, inlineImport.isSome⟩
  | .type name => some ⟨name, .funcType, false⟩
  | .global name _ inlineImport _ => some ⟨name, .global, inlineImport.isSome⟩
  | .imported _ name entity => some ⟨name, entity.kind.space, true⟩
  | .memory name _ (.imported _) => some ⟨name, .memory, true⟩
  | .memory name _ .data | .memory name _ .limits => some ⟨name, .memory, false⟩
  | .table name _ (.imported _) => some ⟨name, .table, true⟩
  | .table name _ (.elements _) | .table name _ .limits => some ⟨name, .table, false⟩

/-- The exports of a field whose entity has the given number. -/
def exports (index : Nat) : ModuleField -> List Export
  | .exported item => [item]
  | .func _ exports _ _ => exports.map fun name => ⟨⟨.func, .index index⟩, name⟩
  | .global _ exports _ _ => exports.map fun name => ⟨⟨.global, .index index⟩, name⟩
  | .memory _ exports _ => exports.map fun name => ⟨⟨.memory, .index index⟩, name⟩
  | .table _ exports _ => exports.map fun name => ⟨⟨.table, .index index⟩, name⟩
  | .data _ | .elem _ | .except _ | .type _ | .imported _ _ _ | .start _ => []

/-- The segments of a field whose table has the given number. -/
def elemSegments (index : Nat) : ModuleField -> List ElemSegment
  | .elem segment => [segment]
  | .table _ _ (.elements vars) => [⟨.index index, WastParser.zeroOffset, vars⟩]
  | _ => []

def dataSegments (index : Nat) : ModuleField -> List DataSegment
  | .data segment => [segment]
  | .memory _ _ .data => [⟨.index index, WastParser.zeroOffset⟩]
  | _ => []

end ModuleField

/-- The entities of a space, in the order in which they are numbered. -/
def declarations (space : Space) (fields : List ModuleField) : List Declaration :=
  (fields.filterMap ModuleField.declaration).filter fun declaration => declaration.space = space

/-- The names that are bound, under the numbers of their entities. -/
def named (names : List Name) : BindingHash :=
  names.zipIdx.filter fun binding => binding.1 ≠ []

/-- Imports come before everything but types. -/
def Ordered (fields : List ModuleField) : Prop :=
  (fields.filterMap ModuleField.declaration).Pairwise fun earlier later =>
    later.imported -> earlier.space ≠ .funcType -> earlier.imported

namespace WastParser

/-- Inline exports change nothing but the exports. -/
theorem appendExports_eq (kind : ExternalKind) (index : Nat) (exports : List Name)
    (module : Module) :
    ∃ bindings, exports.foldl (fun extended name =>
        extended.appendExport ⟨⟨kind, .index index⟩, name⟩) module =
      { module with
        exports := module.exports ++ exports.map fun name => ⟨⟨kind, .index index⟩, name⟩
        exportBindings := bindings } := by
  induction exports generalizing module with
  | nil => exact ⟨module.exportBindings, by rw [List.map_nil, List.append_nil]; rfl⟩
  | cons name rest inductionHypothesis =>
      rcases inductionHypothesis (module.appendExport ⟨⟨kind, .index index⟩, name⟩) with
        ⟨bindings, same⟩
      refine ⟨bindings, same.trans ?_⟩
      rw [Module.appendExport, List.map_cons, List.append_assoc]
      rfl

section Inline

variable (kind : ExternalKind) (names : List Name) (parser : WastParser)

theorem appendInlineExportFields_eq :
    ∃ bindings, (appendInlineExportFields kind names parser).module = { parser.module with
      exports := parser.module.exports ++
        names.map fun name => ⟨⟨kind, .index (parser.module.size kind - 1)⟩, name⟩
      exportBindings := bindings } :=
  appendExports_eq kind (parser.module.size kind - 1) names parser.module

@[simp] theorem appendInlineExportFields_space :
    (appendInlineExportFields kind names parser).module.space = parser.module.space := by
  rcases appendInlineExportFields_eq kind names parser with ⟨_, same⟩
  rw [same]

@[simp] theorem appendInlineExportFields_errors :
    (appendInlineExportFields kind names parser).errors = parser.errors := rfl

end Inline

section Imports

variable (parser : WastParser) (importName : ImportName) (name : Name) (imported : Imported)

@[simp] theorem parseImport_errors :
    (parser.parseImport importName name imported).errors =
      parser.checkImportOrdering.errors := rfl

end Imports

variable (parser : WastParser) (field : ModuleField)

/-- The number of what the field declares. -/
def position : Nat :=
  field.declaration.elim 0 fun declaration => (parser.module.space declaration.space).names.length

end WastParser

/-! ## All fields -/

/-- What fields hold, given the numbers of what they declare. -/
def collectFrom {Item : Type} (collect : Nat -> ModuleField -> List Item)
    (before : List ModuleField) : List ModuleField -> List Item
  | [] => []
  | field :: rest =>
      collect (field.declaration.elim 0 fun declaration =>
        (declarations declaration.space before).length) field ++
          collectFrom collect (before ++ [field]) rest

/-- Entities are numbered as they are declared, names are bound to these numbers,
imports are counted, and an inline export or segment is of the entity around it. -/
structure Numbered (fields : List ModuleField) (module : Module) : Prop where
  names : forall space,
    (module.space space).names = (declarations space fields).map Declaration.name
  bindings : forall space, (module.space space).bindings = named (module.space space).names
  numImports : forall kind,
    module.numImports kind = (declarations kind.space fields).countP Declaration.imported
  exports : module.exports = collectFrom ModuleField.exports [] fields
  elemSegments : module.elemSegments = collectFrom ModuleField.elemSegments [] fields
  dataSegments : module.dataSegments = collectFrom ModuleField.dataSegments [] fields

theorem space_ne (kind : ExternalKind) : kind.space ≠ .funcType := by
  cases kind <;> simp [ExternalKind.space]

theorem mem_declarations {space : Space} {fields : List ModuleField} {declaration : Declaration} :
    declaration ∈ declarations space fields ↔
      declaration ∈ fields.filterMap ModuleField.declaration ∧ declaration.space = space := by
  rw [declarations, List.mem_filter, decide_eq_true_iff]

namespace WastParser

end WastParser

/-- The order that the parser asks for is enough for every kind. -/
theorem Ordered.pairwise {fields : List ModuleField} (ordered : Ordered fields)
    (kind : ExternalKind) : (declarations kind.space fields).Pairwise fun earlier later =>
      later.imported -> earlier.imported := by
  refine (List.Pairwise.filter _ ordered).imp_of_mem fun {earlier later} isMember _ before imported => ?_
  exact before imported ((mem_declarations.mp isMember).2 ▸ space_ne kind)

/-- What has a name is bound by it, once, and nothing else is. -/
def Entities.Exact (entities : Entities) : Prop := entities.bindings.Perm (named entities.names)

theorem mem_named {names : List Name} {name : Name} {index : Nat} :
    (name, index) ∈ named names ↔ names[index]? = some name ∧ name ≠ [] := by
  rw [named, List.mem_filter, List.mk_mem_zipIdx_iff_getElem?, decide_eq_true_iff]

theorem Entities.Exact.mem_iff {entities : Entities} (exact : entities.Exact) {name : Name}
    {index : Nat} : (name, index) ∈ entities.bindings ↔
      entities.names[index]? = some name ∧ name ≠ [] :=
  (List.Perm.mem_iff exact).trans mem_named

theorem Numbered.exact {fields : List ModuleField} {module : Module}
    (numbered : Numbered fields module) (space : Space) : (module.space space).Exact :=
  .of_eq (numbered.bindings space)

theorem named_split (front back : List Name) (name : Name) :
    named (front ++ name :: back) = named front ++
      (if name = [] then [] else [(name, front.length)]) ++
        (back.zipIdx (front.length + 1)).filter fun binding => binding.1 ≠ [] := by
  rw [named, List.zipIdx_append, List.zipIdx_cons, List.filter_append, List.filter_cons, Nat.zero_add,
    named]
  by_cases empty : name = []
  · simp [empty]
  · simp [empty]

/-- A name that is given to an entity is bound in addition. -/
theorem named_set {names : List Name} {name : Name} {index : Nat}
    (unnamed : names[index]? = some []) (isName : name ≠ []) :
    (named (names.set index name)).Perm (named names ++ [(name, index)]) := by
  rcases List.getElem?_eq_some_iff.mp unnamed with ⟨inside, empty⟩
  have length_eq : (names.take index).length = index := List.length_take_of_le inside.le
  have split : names = names.take index ++ [] :: names.drop (index + 1) := by
    rw [← empty, List.getElem_cons_drop, List.take_append_drop]
  have set_eq : names.set index name = names.take index ++ name :: names.drop (index + 1) :=
    List.set_eq_take_append_cons_drop.trans (if_pos inside)
  rw [set_eq, named_split, if_neg isName, length_eq]
  nth_rewrite 3 [split]
  rw [named_split, if_pos rfl, length_eq, List.append_nil, List.append_assoc, List.append_assoc]
  exact List.perm_append_comm.append_left _

end Fields
end Text
end WasmSandboxing
