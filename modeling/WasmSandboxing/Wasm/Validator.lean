import WasmSandboxing.Wasm.Module
import Mathlib.Algebra.Ring.Nat

namespace WasmSandboxing
namespace Wasm

/-!
# Validation outside function bodies

The checks of `Validator` on memories, tables and segments of a decoded module.
-/

namespace Validator

variable (module : Module Scheme.binary)

/-- `CheckConstInitExpr`: one constant, or the value of an imported immutable
global.  An empty expression leaves the type `Void`. -/
def checkConstInitExpr (expr : ExprList Scheme.binary) (expectedType : ValueType) : Bool :=
  match expr with
  | .instr (.const value) .nil => value.type == expectedType
  | .instr (.getGlobal var) .nil =>
      match module.globals[var]? with
      | some global =>
          global.type == expectedType && decide (var < module.numGlobalImports) &&
            !global.isMutable
      | none => false
  | _ => false

def checkLimits (limits : Limits) (absoluteMax : Nat) : Bool :=
  decide (limits.initial ≤ absoluteMax) &&
    match limits.max with
    | some max => decide (max ≤ absoluteMax) && decide (limits.initial ≤ max)
    | none => true

/-- `WABT_MAX_PAGES`. -/
def maxPages : Nat := 0x10000

/-- `CheckMemory` on every memory. -/
def checkMemories : Bool :=
  decide (module.memories.length ≤ 1) &&
    module.memories.all fun memory => checkLimits memory.pageLimits maxPages

/-- `CheckTable` on every table. -/
def checkTables : Bool :=
  decide (module.tables.length ≤ 1) &&
    module.tables.all fun table => checkLimits table.elemLimits (2 ^ 32 - 1)

def checkElemSegments : Bool :=
  module.elemSegments.all fun segment =>
    decide (segment.tableVar < module.tables.length) &&
      (segment.vars.all fun var => decide (var < module.funcs.length)) &&
      checkConstInitExpr module segment.offset .i32

def checkDataSegments : Bool :=
  module.dataSegments.all fun segment =>
    decide (segment.memoryVar < module.memories.length) &&
      checkConstInitExpr module segment.offset .i32

/-- The part of `CheckModule` that initialisation depends on. -/
def checkInitializers : Bool :=
  checkMemories module && checkTables module && checkElemSegments module &&
    checkDataSegments module

end Validator

end Wasm
end WasmSandboxing
