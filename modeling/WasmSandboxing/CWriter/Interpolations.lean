import WasmSandboxing.CWriter.FileScope

namespace WasmSandboxing
namespace CWriter

open Foundation CLang Wasm

/-!
# Names in the text of the output

Every place where `WriteC` writes something that comes from a name of the
module.  Mangled and defined names are identifiers whatever they are made from;
comments and the names of exported functions take the bytes as they are.
-/

/-- What stands in the output for a name, or for the names in one comment. -/
inductive Interpolation where
  | comment (body : Text)
  | identifier (text : Text)

/-- A comment ends where it is closed by the writer, and an identifier is one. -/
def Interpolation.Safe : Interpolation -> Prop
  | comment body => StaysInside body
  | identifier text => isIdentifier text = true

/-! ## The places -/

def quote : UInt8 := 39

/-- All symbols of the actions are identifiers. -/
def SymbolsIdentify {Entity : Type} (actions : List (SymbolAction Entity Name Name)) : Prop :=
  forall entry, entry ∈ SymbolAction.declared actions -> isIdentifier entry.2.2 = true

theorem SymbolsIdentify.declare {Entity : Type} {actions : List (SymbolAction Entity Name Name)}
    (identify : SymbolsIdentify actions) (entity : Entity) (name : Name) {symbol : Name}
    (identifier : isIdentifier symbol = true) :
    SymbolsIdentify (actions ++ [.declare entity name symbol]) := by
  intro entry member
  rw [SymbolAction.declared_append, List.mem_append] at member
  rcases member with old | new
  · exact identify entry old
  · cases List.mem_singleton.mp new
    exact identifier

theorem SymbolsIdentify.refer {Entity : Type} {actions : List (SymbolAction Entity Name Name)}
    (identify : SymbolsIdentify actions) (entity : Entity) (name : Name) :
    SymbolsIdentify (actions ++ [.refer entity name]) := by
  intro entry member
  rw [SymbolAction.declared_append, List.mem_append] at member
  exact member.elim (identify entry) nofun

/-- The C names inside a function are identifiers as well. -/
def LocalScope.Identify (scope : LocalScope) : Prop :=
  SymbolsIdentify scope.actions ∧
    forall entry, entry ∈ scope.definitions -> isIdentifier entry.2 = true

theorem LocalScope.Identify.define {scope : LocalScope} (identify : scope.Identify)
    (entity : LocalEntity) (name : Name) : (scope.define entity name).Identify := by
  refine ⟨identify.1.declare entity name (isIdentifier_defineName _ _), fun entry member => ?_⟩
  rcases List.mem_append.mp member with old | new
  · exact identify.2 entry old
  · rw [List.mem_singleton.mp new]
    exact isIdentifier_defineName _ _

end CWriter
end WasmSandboxing
