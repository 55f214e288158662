import WasmSandboxing.Binary.SectionFrames

namespace WasmSandboxing
namespace Binary

open Foundation

/-!
# What a module has declared

A delegate relies on the order of the callbacks.  The types come before what
refers to them, the imports of each kind before the definitions, and an index
that a callback has is that of the entity next to be declared or of one that is
declared already.
-/

structure Declared where
  typeCount : Option Nat
  types : List (List Int × List Int)
  numFuncImports : Nat
  funcCount : Option Nat
  /-- The signatures of the functions, those of imports first. -/
  funcs : List Nat
  numTables : Nat
  numMemories : Nat
  numGlobalImports : Nat
  globalCount : Option Nat
  /-- The types of the globals with their mutability, those of imports first. -/
  globals : List (Int × Bool)

namespace Declared

def nothing : Declared where
  typeCount := none
  types := []
  numFuncImports := 0
  funcCount := none
  funcs := []
  numTables := 0
  numMemories := 0
  numGlobalImports := 0
  globalCount := none
  globals := []

def record (declared : Declared) : Event -> Declared
  | .onTypeCount count => { declared with typeCount := some count }
  | .onType _ paramTypes resultTypes =>
      { declared with types := declared.types ++ [(paramTypes, resultTypes)] }
  | .onImportFunc _ _ _ _ sigIndex =>
      { declared with
        numFuncImports := declared.numFuncImports + 1
        funcs := declared.funcs ++ [sigIndex] }
  | .onImportTable _ _ _ _ _ _ => { declared with numTables := declared.numTables + 1 }
  | .onImportMemory _ _ _ _ _ => { declared with numMemories := declared.numMemories + 1 }
  | .onImportGlobal _ _ _ _ type mutable_ =>
      { declared with
        numGlobalImports := declared.numGlobalImports + 1
        globals := declared.globals ++ [(type, mutable_)] }
  | .onFunctionCount count => { declared with funcCount := some count }
  | .onFunction _ sigIndex => { declared with funcs := declared.funcs ++ [sigIndex] }
  | .onTable _ _ _ => { declared with numTables := declared.numTables + 1 }
  | .onMemory _ _ => { declared with numMemories := declared.numMemories + 1 }
  | .onGlobalCount count => { declared with globalCount := some count }
  | .beginGlobal _ type mutable_ =>
      { declared with globals := declared.globals ++ [(type, mutable_)] }
  | _ => declared

/-- What is declared of the entity that an export refers to. -/
def AllowsExport (declared : Declared) (itemIndex : Nat) : ExternalKind -> Prop
  | .func => itemIndex < declared.funcs.length
  | .table => 0 < declared.numTables
  | .memory => 0 < declared.numMemories
  | .global => itemIndex < declared.globals.length
  | .except => True

/-- The callbacks that may come next. -/
def Allows (declared : Declared) : Event -> Prop
  | .onTypeCount _ => declared.typeCount = none ∧ declared.types = []
  | .onType index _ _ =>
      index = declared.types.length ∧ exists count, declared.typeCount = some count ∧ index < count
  | .onImportFunc _ _ _ funcIndex sigIndex =>
      declared.funcCount = none ∧ funcIndex = declared.funcs.length ∧
        funcIndex = declared.numFuncImports ∧ sigIndex < declared.types.length
  | .onImportGlobal _ _ _ globalIndex _ _ =>
      declared.globalCount = none ∧ globalIndex = declared.globals.length ∧
        globalIndex = declared.numGlobalImports
  | .onFunctionCount _ =>
      declared.funcCount = none ∧ declared.funcs.length = declared.numFuncImports
  | .onFunction index sigIndex =>
      index = declared.funcs.length ∧ sigIndex < declared.types.length ∧
        exists count, declared.funcCount = some count ∧ index < declared.numFuncImports + count
  | .onGlobalCount _ =>
      declared.globalCount = none ∧ declared.globals.length = declared.numGlobalImports
  | .beginGlobal index _ _ =>
      index = declared.globals.length ∧ exists count, declared.globalCount = some count ∧
        index < declared.numGlobalImports + count
  | .endGlobalInitExpr index =>
      index + 1 = declared.globals.length ∧ declared.numGlobalImports ≤ index
  | .onExport _ kind itemIndex _ => declared.AllowsExport itemIndex kind
  | .onStartFunction index => index < declared.funcs.length
  | .onElemSegmentFunctionIndexCount _ _ => 0 < declared.numTables
  | .onElemSegmentFunctionIndex _ _ => 0 < declared.numTables
  | .beginFunctionBody index =>
      declared.numFuncImports ≤ index ∧ index < declared.funcs.length
  | .onDataSegmentData _ _ => 0 < declared.numMemories
  | _ => True

end Declared

def declared (log : List Item) : Declared :=
  log.foldl (fun declared item => declared.record item.1) .nothing

@[simp] theorem declared_nil : declared [] = .nothing :=
  rfl

@[simp] theorem declared_append (log : List Item) (item : Item) :
    declared (log ++ [item]) = (declared log).record item.1 := by
  rw [declared, List.foldl_append]
  rfl

/-- The items that leave what is declared as it is. -/
def Event.Quiet (item : Item) : Prop :=
  forall declared : Declared, declared.record item.1 = declared ∧ declared.Allows item.1

theorem declared_quiet {log items : List Item}
    (quiet : forall item, item ∈ items -> Event.Quiet item) :
    declared (log ++ items) = declared log := by
  induction items generalizing log with
  | nil => rw [List.append_nil]
  | cons item rest inductionHypothesis =>
      have here := (quiet item List.mem_cons_self (declared log)).1
      have later := @inductionHypothesis (log ++ [item]) fun item isMember =>
        quiet item (List.mem_cons_of_mem _ isMember)
      rw [List.append_assoc, declared_append, here] at later
      exact later

/-- Every callback is one that may come next. -/
def Orderly (log : List Item) (item : Item) : Prop :=
  (declared log).Allows item.1

end Binary
end WasmSandboxing
