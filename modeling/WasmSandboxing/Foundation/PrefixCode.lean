import Mathlib.Data.List.Basic

namespace WasmSandboxing
namespace Foundation

/-!
# Reading words

A scanner takes one word after the other from the front of a text.  Where at
most one word begins a text, the words that a text begins with are determined,
and the scanner finds all of them.
-/

variable {α : Type}

/-- A reader of single words.  It answers for every text, so that no word
begins another one. -/
structure WordReader (IsWord : List α -> Prop) where
  next : List α -> Option (List α × List α)
  reads : forall text word rest, next text = some (word, rest) ↔ text = word ++ rest ∧ IsWord word
  nonempty : forall word, IsWord word -> word ≠ []

namespace WordReader

variable {IsWord : List α -> Prop} (reader : WordReader IsWord)

theorem next_append {word : List α} (isWord : IsWord word) (rest : List α) :
    reader.next (word ++ rest) = some (word, rest) :=
  (reader.reads ..).mpr ⟨rfl, isWord⟩

theorem length_rest {text word rest : List α} (found : reader.next text = some (word, rest)) :
    rest.length < text.length := by
  rcases (reader.reads ..).mp found with ⟨rfl, isWord⟩
  have positive := List.length_pos_of_ne_nil (reader.nonempty word isWord)
  rw [List.length_append]
  omega

/-- The words that a text begins with, and what is left of it. -/
def readAll (text : List α) : List (List α) × List α :=
  match found : reader.next text with
  | some (word, rest) =>
      have _shorter := reader.length_rest found
      ((word :: (readAll rest).1), (readAll rest).2)
  | none => ([], text)
termination_by text.length

theorem readAll_some {text word rest : List α} (found : reader.next text = some (word, rest)) :
    reader.readAll text = (word :: (reader.readAll rest).1, (reader.readAll rest).2) := by
  rw [readAll]
  split
  case h_1 word' rest' found' =>
    rw [found] at found'
    cases found'
    rfl
  case h_2 found' =>
    rw [found] at found'
    cases found'

theorem readAll_none {text : List α} (found : reader.next text = none) :
    reader.readAll text = ([], text) := by
  rw [readAll]
  split
  case h_1 found' =>
    rw [found] at found'
    cases found'
  case h_2 => rfl

/-- What is read are words, and they make up the text with what is left. -/
theorem readAll_sound (text : List α) :
    text = (reader.readAll text).1.flatten ++ (reader.readAll text).2 ∧
      forall word, word ∈ (reader.readAll text).1 -> IsWord word := by
  induction text using readAll.induct reader with
  | case1 text word rest found _shorter inductionHypothesis =>
      rcases (reader.reads ..).mp found with ⟨same, isWord⟩
      rw [reader.readAll_some found]
      constructor
      · rw [List.flatten_cons, List.append_assoc, ← inductionHypothesis.1, same]
      · intro other isMember
        rcases List.mem_cons.mp isMember with same | member
        · exact same ▸ isWord
        · exact inductionHypothesis.2 other member
  | case2 text found =>
      rw [reader.readAll_none found]
      exact ⟨rfl, fun word isMember => absurd isMember List.not_mem_nil⟩

/-- All words are read up to a place where none begins. -/
theorem readAll_flatten {words : List (List α)} {rest : List α}
    (areWords : forall word, word ∈ words -> IsWord word) (stops : reader.next rest = none) :
    reader.readAll (words.flatten ++ rest) = (words, rest) := by
  induction words with
  | nil => exact reader.readAll_none stops
  | cons word words inductionHypothesis =>
      have isWord := areWords word List.mem_cons_self
      have later := inductionHypothesis fun other member =>
        areWords other (List.mem_cons_of_mem word member)
      rw [List.flatten_cons, List.append_assoc,
        reader.readAll_some (reader.next_append isWord _), later]

end WordReader

/-! ## Codes -/

/-- A word of the code tells which it is, whatever comes after it. -/
structure PrefixCode {Symbol : Type} (code : Symbol -> List α) : Prop where
  apart : forall first second rest others, code first ++ rest = code second ++ others ->
    first = second
  nonempty : forall symbol, code symbol ≠ []

namespace PrefixCode

variable {Symbol : Type} {code : Symbol -> List α}

theorem flatMap_injective (isCode : PrefixCode code) : Function.Injective (List.flatMap code) := by
  intro first second same
  induction first generalizing second with
  | nil =>
      cases second with
      | nil => rfl
      | cons symbol symbols =>
          exact absurd (List.append_eq_nil_iff.mp same.symm).1 (isCode.nonempty symbol)
  | cons symbol symbols inductionHypothesis =>
      cases second with
      | nil => exact absurd (List.append_eq_nil_iff.mp same).1 (isCode.nonempty symbol)
      | cons other others =>
          simp only [List.flatMap_cons] at same
          cases isCode.apart symbol other _ _ same
          rw [inductionHypothesis (List.append_cancel_left same)]

end PrefixCode

/-- Lists one after the other, with a mark at the beginning of each. -/
def marked {Symbol : Type} (lists : List (List Symbol)) : List (Option Symbol) :=
  lists.flatMap fun symbols => none :: symbols.map some

theorem append_marked_injective {Symbol : Type} {first second : List Symbol}
    {lists others : List (List Symbol)}
    (same : first.map some ++ marked lists = second.map some ++ marked others) :
    first = second ∧ marked lists = marked others := by
  induction first generalizing second with
  | nil =>
      cases second with
      | nil => exact ⟨rfl, same⟩
      | cons symbol second => cases lists <;> cases same
  | cons symbol first inductionHypothesis =>
      cases second with
      | nil => cases others <;> cases same
      | cons other second =>
          rcases List.cons.inj same with ⟨sameSymbol, sameRest⟩
          rcases inductionHypothesis sameRest with ⟨sameSymbols, sameLists⟩
          exact ⟨congrArg₂ List.cons (Option.some.inj sameSymbol) sameSymbols, sameLists⟩

theorem marked_injective {Symbol : Type} : Function.Injective (@marked Symbol) := by
  intro first second same
  induction first generalizing second with
  | nil =>
      cases second with
      | nil => rfl
      | cons => cases same
  | cons symbols lists inductionHypothesis =>
      cases second with
      | nil => cases same
      | cons others second =>
          rcases append_marked_injective (List.cons.inj same).2 with ⟨sameSymbols, sameLists⟩
          rw [sameSymbols, inductionHypothesis sameLists]

end Foundation
end WasmSandboxing
