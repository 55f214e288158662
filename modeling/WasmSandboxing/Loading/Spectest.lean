import WasmSandboxing.Loading.Run

namespace WasmSandboxing
namespace Loading

open Binary

/-!
# The host module of the tests

`SpectestHostImportDelegate`.
-/

/-- `PRIimport`, a character for each byte. -/
def importName (moduleName fieldName : Name) : String :=
  "\"" ++ String.ofList (moduleName.map fun byte => Char.ofNat byte.toNat) ++ "." ++
    String.ofList (fieldName.map fun byte => Char.ofNat byte.toNat) ++ "\""

def unknownImport (sort : String) (moduleName fieldName : Name) : Message :=
  .text ("unknown host " ++ sort ++ " import " ++ importName moduleName fieldName)

def spectestFuncs : List Name :=
  ["print", "print_i32", "print_f32", "print_f64", "print_i32_f32", "print_f64_f64"].map ascii

/-- The globals: the type and the value of each, whatever type is declared. -/
def spectestGlobals : List (Name × TypedValue) :=
  [(ascii "global_i32", ⟨i32Type, 666⟩), (ascii "global_f32", ⟨f32Type, 0x4426a666⟩),
    (ascii "global_i64", ⟨i64Type, 666⟩), (ascii "global_f64", ⟨f64Type, 0x4084d4cccccccccd⟩)]

def spectestImportDelegate : HostImportDelegate where
  importFunc moduleName fieldName _sig :=
    if spectestFuncs.any fun name => name = fieldName then .ok true
    else .error (unknownImport "function" moduleName fieldName)
  importTable moduleName fieldName table :=
    if fieldName = ascii "table" then
      .ok { table with limits := { table.limits with hasMax := true, initial := 10, max := 20 } }
    else .error (unknownImport "table" moduleName fieldName)
  importMemory moduleName fieldName memory :=
    if fieldName = ascii "memory" then
      .ok {
        pageLimits := { memory.pageLimits with hasMax := true, initial := 1, max := 2 }
        data := resize memory.data (1 * Read.maxPages) 0 }
    else .error (unknownImport "memory" moduleName fieldName)
  importGlobal moduleName fieldName global :=
    match spectestGlobals.find? fun known => known.1 = fieldName with
    | some known => .ok { global with typedValue := known.2 }
    | none => .error (unknownImport "global" moduleName fieldName)

/-- `InitEnvironment` of the tests. -/
def spectest : Environment where
  modules := [⟨ascii "spectest", [], [], none, none, .host spectestImportDelegate⟩]
  sigs := []
  funcs := []
  memories := []
  tables := []
  globals := []
  istream := []
  moduleBindings := []
  registeredModuleBindings := [(ascii "spectest", 0)]

theorem run_spectest {Code : Type} (compiler : Compiler Code) : Run compiler spectest [] :=
  .appendHostModule .empty (ascii "spectest") spectestImportDelegate

/-- What compiles no bodies. -/
def noBodies : Compiler Unit where
  start := ()
  answer _ loader := ((), loader.emitted, none)

end Loading
end WasmSandboxing
