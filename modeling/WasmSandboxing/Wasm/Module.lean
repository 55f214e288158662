import WasmSandboxing.Wasm.Ir

namespace WasmSandboxing
namespace Wasm

/-!
# Modules

`Module` of `ir.h` with the fields that validation, naming and the C writer
read.  An imported entity stands in the list of its kind, before the defined
ones, in the order of the imports.  The names that entities and locals are
given later are kept apart, by index.
-/

/-- A `std::string`: bytes, without any encoding assumed. -/
abbrev Name := List UInt8

/-- `Limits`; an absent maximum is `has_max == false`. -/
structure Limits where
  initial : Nat
  max : Option Nat
  deriving DecidableEq, Repr

inductive ExternalKind where
  | func | table | memory | global
  deriving DecidableEq, Repr

structure Func (S : Scheme) where
  typeVar : Nat
  sig : Signature
  localTypes : List ValueType
  exprs : ExprList S

structure Global (S : Scheme) where
  type : ValueType
  isMutable : Bool
  initExpr : ExprList S

structure Table where
  elemLimits : Limits

structure Memory where
  pageLimits : Limits

structure ElemSegment (S : Scheme) where
  tableVar : S.Table
  offset : ExprList S
  vars : List S.Func

structure DataSegment (S : Scheme) where
  memoryVar : S.Memory
  offset : ExprList S
  data : List (BitVec 8)

structure Import where
  moduleName : Name
  fieldName : Name
  kind : ExternalKind

/-- What an export or another use outside a body refers to. -/
inductive External (S : Scheme) where
  | func (var : S.Func)
  | table (var : S.Table)
  | memory (var : S.Memory)
  | global (var : S.Global)

structure Export (S : Scheme) where
  name : Name
  var : External S

structure Module (S : Scheme) where
  imports : List Import
  funcTypes : List Signature
  funcs : List (Func S)
  tables : List Table
  memories : List Memory
  globals : List (Global S)
  exports : List (Export S)
  starts : List S.Func
  elemSegments : List (ElemSegment S)
  dataSegments : List (DataSegment S)

namespace Module

variable {S : Scheme}

def numImports (module : Module S) (kind : ExternalKind) : Nat :=
  (module.imports.filter fun item => item.kind = kind).length

def numFuncImports (module : Module S) : Nat := module.numImports .func
def numTableImports (module : Module S) : Nat := module.numImports .table
def numMemoryImports (module : Module S) : Nat := module.numImports .memory
def numGlobalImports (module : Module S) : Nat := module.numImports .global

end Module

end Wasm
end WasmSandboxing
