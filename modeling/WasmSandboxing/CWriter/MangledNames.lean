import WasmSandboxing.CWriter.FileScope
import WasmSandboxing.Foundation.PrefixCode

namespace WasmSandboxing
namespace CWriter

open Foundation CLang Wasm

/-!
# Reading mangled names back

The prefix letter of `MangleName` begins a name, before an underscore, and an
escaped character, before two hexadecimal digits, and stands nowhere else.  What
it begins is therefore told by the character after it, so that names that stand
one after the other can be taken apart.
-/

/-- What a mangled name is made of: its beginning and its characters. -/
def mangleToken : Option UInt8 -> Name
  | none => ascii "Z_"
  | some char => mangleChar char

theorem mangleName_eq (name : Name) :
    mangleName name = (none :: name.map some).flatMap mangleToken := by
  rw [mangleName, List.flatMap_cons, List.flatMap_map]
  rfl

theorem flatMap_mangleName (names : List Name) :
    names.flatMap mangleName = (marked names).flatMap mangleToken := by
  rw [marked, List.flatMap_assoc]
  exact List.flatMap_congr fun name _ => mangleName_eq name

/-- The value of a digit of `%02X`. -/
def hexValue (digit : UInt8) : UInt8 := if digit < 58 then digit - 48 else digit - 55

/-- What the first characters of a mangled name stand for. -/
def readToken : Name -> Option (Option UInt8)
  | [] => none
  | char :: rest =>
      if char = manglePrefix then
        if rest.head? = some underscore then some none
        else some (some (hexValue (rest.getD 0 0) * 16 + hexValue (rest.getD 1 0)))
      else some (some char)

theorem hexValue_hexDigit {digit : UInt8} (isDigit : digit < 16) :
    hexValue (hexDigit digit) = digit ∧ hexDigit digit ≠ underscore := by
  have table : forall digit : Fin 16,
      hexValue (hexDigit (UInt8.ofNat digit)) = UInt8.ofNat digit ∧
        hexDigit (UInt8.ofNat digit) ≠ underscore := by
    decide
  have entry := table ⟨digit.toNat, isDigit⟩
  rwa [UInt8.ofNat_toNat] at entry

theorem readToken_escaped (char : UInt8) (rest : Name) :
    readToken (manglePrefix :: hexDigit (char / 16) :: hexDigit (char % 16) :: rest) =
      some (some char) := by
  have high : char / 16 < 16 := by
    rw [UInt8.lt_iff_toNat_lt, UInt8.toNat_div]
    have bound := char.toNat_lt
    change char.toNat / 16 < 16
    omega
  have low : char % 16 < 16 := UInt8.mod_lt char (by decide)
  have whole : char / 16 * 16 + char % 16 = char := by
    rw [← UInt8.toNat_inj, UInt8.toNat_add, UInt8.toNat_mul, UInt8.toNat_div, UInt8.toNat_mod]
    have bound := char.toNat_lt
    change (char.toNat / 16 * 16 % 2 ^ 8 + char.toNat % 16) % 2 ^ 8 = char.toNat
    omega
  have other : (hexDigit (char / 16) :: hexDigit (char % 16) :: rest).head? ≠ some underscore :=
    fun same => (hexValue_hexDigit high).2 (Option.some.inj same)
  rw [readToken, if_pos rfl, if_neg other, List.getD_cons_zero, List.getD_cons_succ,
    List.getD_cons_zero, (hexValue_hexDigit high).1, (hexValue_hexDigit low).1, whole]

theorem readToken_append (token : Option UInt8) (rest : Name) :
    readToken (mangleToken token ++ rest) = some token := by
  cases token with
  | none => cases rest <;> rfl
  | some char =>
      rw [mangleToken, mangleChar]
      split
      case isTrue plain =>
          have other : char ≠ manglePrefix := by
            rintro rfl
            exact absurd plain (by decide)
          rw [List.singleton_append, readToken, if_neg other]
      case isFalse => exact readToken_escaped char rest

theorem mangleToken_code : PrefixCode mangleToken where
  apart := by
    intro first second rest others same
    have read := congrArg readToken same
    rw [readToken_append, readToken_append] at read
    exact Option.some.inj read
  nonempty := by
    intro token empty
    have read := readToken_append token []
    rw [empty] at read
    cases read

/-- Mangled names one after the other come from one list of names only. -/
theorem flatMap_mangleName_injective : Function.Injective (List.flatMap mangleName) := by
  intro first second same
  rw [flatMap_mangleName, flatMap_mangleName] at same
  exact marked_injective (mangleToken_code.flatMap_injective same)

/-! ## Signatures -/

theorem mangleType_injective : Function.Injective mangleType := by
  intro first second same
  cases first <;> cases second <;> first | rfl | cases same

/-- A type stands for itself at the beginning of a signature, and `v` for none. -/
theorem mangleTypes_none (type : ValueType) (rest : Name) : ascii "v" ≠ mangleType type ++ rest := by
  cases type <;> exact fun same => absurd (List.cons.inj same).1 (by decide)

theorem flatMap_mangleType_injective : Function.Injective (List.flatMap mangleType) := by
  refine PrefixCode.flatMap_injective ⟨fun first second rest others same => ?_, ?_⟩
  · cases first <;> cases second <;> first | rfl | cases same
  · exact fun type => by cases type <;> exact List.cons_ne_nil _ _

theorem mangleTypes_injective : Function.Injective mangleTypes := by
  intro first second same
  cases first with
  | nil =>
      cases second with
      | nil => rfl
      | cons type types => exact absurd same (mangleTypes_none type _)
  | cons type types =>
      cases second with
      | nil => exact absurd same.symm (mangleTypes_none type _)
      | cons other others => exact flatMap_mangleType_injective same

/-- The first character of a signature with at most one result is that of the result. -/
theorem mangleTypes_result (result : Option ValueType) :
    ∃ char, mangleTypes result.toList = [char] := by
  rcases result with - | (- | - | - | -) <;> exact ⟨_, rfl⟩

theorem mangleSignature_injective {params others : List ValueType}
    {result other : Option ValueType}
    (same : mangleTypes result.toList ++ mangleTypes params =
      mangleTypes other.toList ++ mangleTypes others) : params = others ∧ result = other := by
  rcases mangleTypes_result result with ⟨char, first⟩
  rcases mangleTypes_result other with ⟨char', second⟩
  have sameLength : (mangleTypes result.toList).length = (mangleTypes other.toList).length := by
    rw [first, second]
    rfl
  rcases List.append_inj same sameLength with ⟨sameResult, sameParams⟩
  have sameHead := congrArg List.head? (mangleTypes_injective sameResult)
  rw [Option.head?_toList, Option.head?_toList] at sameHead
  exact ⟨mangleTypes_injective sameParams, sameHead⟩

/-! ## Names -/

theorem mangled_two {first second first' second' : Name}
    (same : mangleName first ++ mangleName second = mangleName first' ++ mangleName second') :
    first = first' ∧ second = second' := by
  have sameList : [first, second] = [first', second'] := by
    apply flatMap_mangleName_injective
    simpa only [List.flatMap_cons, List.flatMap_nil, List.append_nil] using same
  simpa only [List.cons.injEq, and_true] using sameList

theorem mangled_three {first second third first' second' third' : Name}
    (same : mangleName first ++ (mangleName second ++ mangleName third) =
      mangleName first' ++ (mangleName second' ++ mangleName third')) :
    first = first' ∧ second = second' ∧ third = third' := by
  have sameList : [first, second, third] = [first', second', third'] := by
    apply flatMap_mangleName_injective
    simpa only [List.flatMap_cons, List.flatMap_nil, List.append_nil] using same
  simpa only [List.cons.injEq, and_true] using sameList

theorem mangleFuncName_injective {name name' : Name} {params params' : List ValueType}
    {result result' : Option ValueType}
    (same : mangleFuncName name params result = mangleFuncName name' params' result') :
    name = name' ∧ params = params' ∧ result = result' := by
  rcases mangled_two same with ⟨sameName, sameSignature⟩
  exact ⟨sameName, mangleSignature_injective sameSignature⟩

theorem mangleGlobalName_injective {name name' : Name} {type type' : ValueType}
    (same : mangleGlobalName name type = mangleGlobalName name' type') :
    name = name' ∧ type = type' := by
  rcases mangled_two same with ⟨sameName, sameType⟩
  exact ⟨sameName, mangleType_injective sameType⟩

/-- The symbol of `DefineImportName`. -/
def importSymbol (moduleName mangledFieldName : Name) : Name :=
  mangleName moduleName ++ mangledFieldName

theorem defineImportName_symbols (scope : FileScope) (entity : Entity)
    (name moduleName mangledFieldName : Name) :
    (scope.defineImportName entity name moduleName mangledFieldName).symbols =
      importSymbol moduleName mangledFieldName :: scope.symbols :=
  rfl

/-- Mangled names one after the other can be taken apart, all their characters
may stand in identifiers, and the names of functions and globals, and those of
imports of them, tell what they were made of. -/
theorem mangling_injective :
    (forall first second : List Name, first.length = second.length ->
      first.flatMap mangleName = second.flatMap mangleName -> first = second) ∧
    (forall name : Name, isIdentifier (mangleName name) = true) ∧
    (forall names : List Name, (names.flatMap mangleName).all isWordChar = true) ∧
    (Function.Injective fun (named : Name × List ValueType × Option ValueType) =>
      mangleFuncName named.1 named.2.1 named.2.2) ∧
    (Function.Injective fun (named : Name × ValueType) => mangleGlobalName named.1 named.2) ∧
    (Function.Injective fun (named : Name × Name × List ValueType × Option ValueType) =>
      importSymbol named.1 (mangleFuncName named.2.1 named.2.2.1 named.2.2.2)) ∧
    (Function.Injective fun (named : Name × Name × ValueType) =>
      importSymbol named.1 (mangleGlobalName named.2.1 named.2.2)) := by
  have identifiers (names : List Name) : (names.flatMap mangleName).all isWordChar = true := by
    rw [List.all_flatMap, List.all_eq_true]
    exact fun name _ => isWordChar_of_isIdentifier (isIdentifier_mangleName name)
  refine ⟨fun first second _ same => flatMap_mangleName_injective same, isIdentifier_mangleName,
    identifiers, ?funcs, ?globals, ?importedFuncs, ?importedGlobals⟩
  case funcs =>
    rintro ⟨name, params, result⟩ ⟨name', params', result'⟩ same
    rcases mangleFuncName_injective same with ⟨rfl, rfl, rfl⟩
    rfl
  case globals =>
    rintro ⟨name, type⟩ ⟨name', type'⟩ same
    rcases mangleGlobalName_injective same with ⟨rfl, rfl⟩
    rfl
  case importedFuncs =>
    rintro ⟨moduleName, name, params, result⟩ ⟨moduleName', name', params', result'⟩ same
    rcases mangled_three same with ⟨rfl, rfl, sameSignature⟩
    rcases mangleSignature_injective sameSignature with ⟨rfl, rfl⟩
    rfl
  case importedGlobals =>
    rintro ⟨moduleName, name, type⟩ ⟨moduleName', name', type'⟩ same
    rcases mangled_three same with ⟨rfl, rfl, sameType⟩
    cases mangleType_injective sameType
    rfl

end CWriter
end WasmSandboxing
