import Mathlib.Data.List.Infix

namespace WasmSandboxing
namespace CLang

/-!
# Characters, identifiers and comments

As much of the lexical grammar of C as decides what a name may do in a source
text: which characters an identifier has, and where a comment ends once lines
have been spliced.
-/

abbrev Text := List UInt8

def isDigit (char : UInt8) : Bool := 48 ≤ char && char ≤ 57
def isUpper (char : UInt8) : Bool := 65 ≤ char && char ≤ 90
def isLower (char : UInt8) : Bool := 97 ≤ char && char ≤ 122
def isAlpha (char : UInt8) : Bool := isUpper char || isLower char
def isAlnum (char : UInt8) : Bool := isAlpha char || isDigit char

def underscore : UInt8 := 95

def isWordChar (char : UInt8) : Bool := isAlnum char || char == underscore

/-- A letter or underscore, then letters, digits and underscores. -/
def isIdentifier : Text -> Bool
  | [] => false
  | first :: rest => (isAlpha first || first == underscore) && rest.all isWordChar

theorem isWordChar_of_isIdentifier {text : Text} (identifier : isIdentifier text = true) :
    text.all isWordChar = true := by
  cases text with
  | nil => rfl
  | cons first rest =>
      simp only [isIdentifier, Bool.and_eq_true, Bool.or_eq_true] at identifier
      simp only [List.all_cons, Bool.and_eq_true, isWordChar, isAlnum, Bool.or_eq_true]
      exact ⟨identifier.1.imp_left Or.inl, identifier.2⟩

/-- Word characters behind an identifier extend it. -/
theorem isIdentifier_append {first second : Text} (identifier : isIdentifier first = true) :
    isIdentifier (first ++ second) = second.all isWordChar := by
  cases first with
  | nil => cases identifier
  | cons char rest =>
      simp only [isIdentifier, Bool.and_eq_true] at identifier
      simp only [List.cons_append, isIdentifier, List.all_append, identifier.1, identifier.2,
        Bool.true_and]

/-! ## Comments -/

def backslash : UInt8 := 92
def newline : UInt8 := 10
def star : UInt8 := 42
def slash : UInt8 := 47

/-- Translation phase 2: a backslash before a newline is deleted with it. -/
def splice : Text -> Text
  | [] => []
  | first :: rest =>
      if first = backslash ∧ rest.head? = some newline then (splice rest).tail
      else first :: splice rest

/-- What follows the comment whose opening has just been read. -/
def skipComment : Text -> Option Text
  | [] => none
  | first :: rest =>
      if first = star ∧ rest.head? = some slash then some rest.tail else skipComment rest

/-- Whatever follows, a comment with this body ends where its writer ends it. -/
def StaysInside (body : Text) : Prop :=
  forall after, skipComment (splice (body ++ [star, slash] ++ after)) = some (splice after)

end CLang
end WasmSandboxing
