import WasmSandboxing.Foundation.Utf8
import WasmSandboxing.Text.Rules

namespace WasmSandboxing
namespace Text
namespace Lexer

open Foundation

/-!
# What a source consists of

A source is read piece by piece: blanks, parentheses and reserved characters,
the characters of strings, and the code points of comments.  Nothing here is
taken from the scanner.
-/

/-- What a place of the source is in; `depth` comments are around a block comment. -/
inductive Mode where
  | code | string | lineComment
  | blockComment (depth : Nat)
  deriving Repr, DecidableEq

/-- What a block comment stands in. -/
def outside : Nat -> Mode
  | 0 => .code
  | depth + 1 => .blockComment depth

/-- The number of bytes of the code point that begins with this byte. -/
def codePointLength (c : UInt8) : Nat :=
  if c < 0x80 then 1 else if c < 0xe0 then 2 else if c < 0xf0 then 3 else 4

/-- What follows the code point that a text begins with. -/
def afterCodePoint : List UInt8 -> Option (List UInt8)
  | [] => none
  | c :: rest =>
      if isCodePoint ((c :: rest).take (codePointLength c)) then
        some ((c :: rest).drop (codePointLength c))
      else none

/-- What follows the rest of an escape. -/
def afterEscape : List UInt8 -> Option (List UInt8)
  | [] => none
  | c :: rest =>
      if isSimpleEscape c then some rest
      else if isHexdigit c && (rest.head?.map isHexdigit).getD false then some rest.tail
      else none

/-- The piece at the beginning of a text, if it has one. -/
def piece : Mode -> List UInt8 -> Option (Mode × List UInt8)
  | _, [] => none
  | .code, c :: rest =>
      if c = quote then some (.string, rest)
      else if c = lpar then
        if rest.head? = some semicolon then some (.blockComment 0, rest.tail)
        else some (.code, rest)
      else if c = semicolon then
        if rest.head? = some semicolon then some (.lineComment, rest.tail) else none
      else if c = newline ∨ c = rpar ∨ isBlank c ∨ isReserved c then some (.code, rest)
      else none
  | .string, c :: rest =>
      if c = quote then some (.code, rest)
      else if c = backslash then (afterEscape rest).map (.string, ·)
      else if c < 0x20 then none
      else (afterCodePoint (c :: rest)).map (.string, ·)
  | .lineComment, c :: rest =>
      if c = newline then some (.code, rest)
      else (afterCodePoint (c :: rest)).map (.lineComment, ·)
  | .blockComment depth, c :: rest =>
      if c = lpar ∧ rest.head? = some semicolon then some (.blockComment (depth + 1), rest.tail)
      else if c = semicolon ∧ rest.head? = some rpar then
        some (outside depth, rest.tail)
      else (afterCodePoint (c :: rest)).map (.blockComment depth, ·)

/-- Pieces are read from one place of a source to another. -/
inductive Reads : Mode -> List UInt8 -> Mode -> List UInt8 -> Prop
  | stop : Reads mode text mode text
  | step : piece mode text = some (next, rest) -> Reads next rest last tail ->
      Reads mode text last tail

/-- Nothing or a byte that is no character is left. -/
def Leftover (tail : List UInt8) : Prop := tail = [] ∨ ∃ b, 0x80 ≤ b ∧ tail = [b]

/-- The source consists of pieces, up to its last byte. -/
def Quiet (mode : Mode) (text : List UInt8) : Prop :=
  ∃ last tail, Reads mode text last tail ∧ Leftover tail

/-! ## Code points -/

theorem codePointLength_pos (c : UInt8) : 0 < codePointLength c := by
  unfold codePointLength
  repeat' split
  all_goals decide

theorem isCodePoint_length {c : UInt8} {word : List UInt8}
    (isWord : isCodePoint (c :: word) = true) :
    codePointLength c = (c :: word).length := by
  rcases word with _ | ⟨b, _ | ⟨d, _ | ⟨e, _ | ⟨f, word⟩⟩⟩⟩
  case cons.cons.cons.cons => cases isWord
  all_goals
    simp only [isCodePoint, Bool.and_eq_true, decide_eq_true_eq] at isWord
    simp only [codePointLength, List.length_cons, List.length_nil]
    grind

theorem afterCodePoint_iff (text rest : List UInt8) :
    afterCodePoint text = some rest ↔
      ∃ word, text = word ++ rest ∧ isCodePoint word = true := by
  constructor
  · intro found
    cases text with
    | nil => cases found
    | cons c later =>
        rw [afterCodePoint] at found
        split at found
        · rename_i isWord
          rw [← Option.some.inj found]
          exact ⟨_, (List.take_append_drop _ _).symm, isWord⟩
        · cases found
  · rintro ⟨word, rfl, isWord⟩
    cases word with
    | nil => cases isWord
    | cons c word =>
        have length := isCodePoint_length isWord
        rw [List.cons_append, afterCodePoint, length, ← List.cons_append, List.take_left,
          List.drop_left, if_pos isWord]

theorem afterCodePoint_length {text rest : List UInt8} (found : afterCodePoint text = some rest) :
    rest.length < text.length := by
  rcases (afterCodePoint_iff text rest).mp found with ⟨word, rfl, isWord⟩
  cases word with
  | nil => cases isWord
  | cons c word =>
      rw [List.length_append, List.length_cons]
      omega

theorem afterCodePoint_ascii {c : UInt8} (small : c < 0x80) (rest : List UInt8) :
    afterCodePoint (c :: rest) = some rest :=
  (afterCodePoint_iff _ _).mpr ⟨[c], rfl, decide_eq_true small⟩

/-- A single byte that is not ASCII is no code point. -/
theorem afterCodePoint_single {c : UInt8} (large : 0x80 ≤ c) : afterCodePoint [c] = none := by
  cases found : afterCodePoint [c] with
  | none => rfl
  | some rest =>
      rcases (afterCodePoint_iff _ _).mp found with ⟨word, same, isWord⟩
      rcases word with _ | ⟨a, _ | ⟨b, word⟩⟩
      · cases isWord
      · cases same
        exact absurd (of_decide_eq_true isWord) (UInt8.not_lt.mpr large)
      · cases same

/-! ## Pieces -/

theorem piece_last (mode : Mode) {b : UInt8} (large : 0x80 ≤ b) : piece mode [b] = none := by
  have single := afterCodePoint_single large
  cases mode <;>
    grind [piece, quote, backslash, lpar, rpar, semicolon, newline, isBlank, isReserved]

theorem quiet_piece {mode next : Mode} {text rest : List UInt8}
    (found : piece mode text = some (next, rest)) : Quiet mode text ↔ Quiet next rest := by
  constructor
  · rintro ⟨last, tail, reads, leftover⟩
    cases reads with
    | stop =>
        rcases leftover with rfl | ⟨b, large, rfl⟩
        · cases mode <;> cases found
        · rw [piece_last mode large] at found
          cases found
    | step other later =>
        rw [found] at other
        cases other
        exact ⟨last, tail, later, leftover⟩
  · rintro ⟨last, tail, reads, leftover⟩
    exact ⟨last, tail, .step found reads, leftover⟩

theorem quiet_stuck {mode : Mode} {text : List UInt8} (stuck : piece mode text = none) :
    Quiet mode text ↔ Leftover text := by
  constructor
  · rintro ⟨last, tail, reads, leftover⟩
    cases reads with
    | stop => exact leftover
    | step found later =>
        rw [stuck] at found
        cases found
  · intro leftover
    exact ⟨mode, text, .stop, leftover⟩

end Lexer
end Text
end WasmSandboxing
