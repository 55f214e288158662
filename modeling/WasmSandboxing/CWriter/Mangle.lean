import WasmSandboxing.CLang.Lexical
import WasmSandboxing.Wasm.Names

namespace WasmSandboxing
namespace CWriter

open Foundation CLang Wasm

/-!
# C names

The ways in which a wasm name becomes a C name: mangling, which escapes every
character that is not a letter, digit or underscore; legalising, which replaces
them; and defining, which legalises and then numbers until the name is new.
-/

def mangleType : ValueType -> Name
  | .i32 => ascii "i"
  | .i64 => ascii "j"
  | .f32 => ascii "f"
  | .f64 => ascii "d"

def mangleTypes (types : List ValueType) : Name :=
  if types = [] then ascii "v" else types.flatMap mangleType

/-- A digit of `%02X`. -/
def hexDigit (digit : UInt8) : UInt8 := if digit < 10 then 48 + digit else 55 + digit

/-- The prefix character of `MangleName`, which it escapes for this reason. -/
def manglePrefix : UInt8 := 90

def mangleChar (char : UInt8) : Name :=
  if (isAlnum char && char ≠ manglePrefix) || char == underscore then [char]
  else [manglePrefix, hexDigit (char / 16), hexDigit (char % 16)]

def mangleName (name : Name) : Name := ascii "Z_" ++ name.flatMap mangleChar

def mangleFuncName (name : Name) (params : List ValueType) (result : Option ValueType) : Name :=
  mangleName name ++ mangleName (mangleTypes result.toList ++ mangleTypes params)

def mangleGlobalName (name : Name) (type : ValueType) : Name :=
  mangleName name ++ mangleName (mangleType type)

def legalizeName : Name -> Name
  | [] => ascii "_"
  | first :: rest =>
      (if isAlpha first then first else underscore) ::
        rest.map fun char => if isAlnum char then char else underscore

def stripLeadingDollar : Name -> Name
  | 36 :: rest => rest
  | name => name

/-- The names that `DefineName` tries: the legal one, then that with a number. -/
def definedName (name : Name) : Nat -> Name
  | 0 => legalizeName name
  | count + 1 => legalizeName name ++ ascii "_" ++ toText count

/-- `DefineName`: the name that is inserted into the set and returned. -/
def defineName (symbols : List Name) (name : Name) : Name :=
  firstFresh symbols (definedName name)

/-! ## Freshness -/

theorem definedName_injective (name : Name) : Function.Injective (definedName name) := by
  intro first second same
  cases first with
  | zero =>
      cases second with
      | zero => rfl
      | succ second =>
          have longer := congrArg List.length same
          simp only [definedName, List.length_append] at longer
          have marked : (ascii "_").length = 1 := rfl
          omega
  | succ first =>
      cases second with
      | zero =>
          have longer := congrArg List.length same
          simp only [definedName, List.length_append] at longer
          have marked : (ascii "_").length = 1 := rfl
          omega
      | succ second => rw [toText_injective (List.append_cancel_left same)]

theorem defineName_not_mem (symbols : List Name) (name : Name) :
    defineName symbols name ∉ symbols :=
  firstFresh_not_mem symbols (definedName_injective name)

/-! ## Identifiers -/

theorem isWordChar_toText (number : Nat) : (toText number).all isWordChar = true := by
  rw [List.all_eq_true]
  intro char member
  rcases List.mem_map.mp member with ⟨digit, found, rfl⟩
  have range := digit_toUInt8 (Nat.isDigit_of_mem_toDigits (by decide) (by decide) found)
  simp [isWordChar, isAlnum, isDigit, range.1, range.2.1]

theorem isIdentifier_legalizeName (name : Name) : isIdentifier (legalizeName name) = true := by
  cases name with
  | nil => decide
  | cons first rest =>
      rw [legalizeName, isIdentifier, Bool.and_eq_true]
      constructor
      · split
        · rw [‹isAlpha first = true›]; rfl
        · rfl
      · rw [List.all_map, List.all_eq_true]
        intro char _
        change isWordChar (if isAlnum char then char else underscore) = true
        split
        · rw [isWordChar, ‹isAlnum char = true›]; rfl
        · rfl

theorem isIdentifier_defineName (symbols : List Name) (name : Name) :
    isIdentifier (defineName symbols name) = true := by
  rcases firstFresh_candidate symbols (definedName name) with ⟨count, same⟩
  rw [defineName, same]
  cases count with
  | zero => exact isIdentifier_legalizeName name
  | succ count =>
      rw [definedName, List.append_assoc, isIdentifier_append (isIdentifier_legalizeName name),
        List.all_append, isWordChar_toText]
      rfl

theorem isWordChar_mangleChar (char : UInt8) : (mangleChar char).all isWordChar = true := by
  have table : forall digit : Fin 16, isWordChar (hexDigit (UInt8.ofNat digit)) = true := by
    decide
  have digits : forall digit : UInt8, digit < 16 -> isWordChar (hexDigit digit) = true := by
    intro digit below
    have entry := table ⟨digit.toNat, below⟩
    rwa [UInt8.ofNat_toNat] at entry
  have high : char / 16 < 16 := by
    rw [UInt8.lt_iff_toNat_lt, UInt8.toNat_div]
    have bound := char.toNat_lt
    change char.toNat / 16 < 16
    omega
  have low : char % 16 < 16 := UInt8.mod_lt char (by decide)
  unfold mangleChar
  split
  · simp only [List.all_cons, List.all_nil, Bool.and_true, isWordChar]
    grind
  · simp only [List.all_cons, List.all_nil, Bool.and_true, digits _ high, digits _ low]
    rfl

theorem isIdentifier_mangleName (name : Name) : isIdentifier (mangleName name) = true := by
  rw [mangleName, isIdentifier_append (by decide), List.all_flatMap, List.all_eq_true]
  exact fun char _ => isWordChar_mangleChar char

end CWriter
end WasmSandboxing
