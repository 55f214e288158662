import Mathlib.Data.List.Basic
import Mathlib.Data.List.Chain
import Mathlib.Data.Nat.Notation

namespace WasmSandboxing
namespace Foundation

/-!
# UTF-8

Well-formed text is the encoding of a list of characters.  The characters that
begin with a given byte are described by ranges of its bytes, which is what a
decoder tests.
-/

namespace Utf8

/-- The bytes of a character as numbers. -/
def encode (char : Char) : List Nat :=
  (String.utf8EncodeChar char).map UInt8.toNat

/-- The bytes are the encoding of some characters. -/
def WellFormed (bytes : List Nat) : Prop :=
  ∃ chars : List Char, bytes = chars.flatMap encode

/-- A byte other than the first of a character. -/
def Continuation (byte : Nat) : Prop := 0x80 ≤ byte ∧ byte < 0xc0

/-- The bytes of a code point by the number of bytes it takes. -/
def codePoint (value : Nat) : List Nat :=
  if value ≤ 0x7f then [value]
  else if value ≤ 0x7ff then [value / 64 + 0xc0, value % 64 + 0x80]
  else if value ≤ 0xffff then
    [value / 4096 + 0xe0, value / 64 % 64 + 0x80, value % 64 + 0x80]
  else
    [value / 262144 + 0xf0, value / 4096 % 64 + 0x80, value / 64 % 64 + 0x80, value % 64 + 0x80]

theorem char_range (char : Char) :
    char.toNat < 0xd800 ∨ (0xdfff < char.toNat ∧ char.toNat < 0x110000) := char.valid

theorem encode_eq (char : Char) : encode char = codePoint char.toNat := by
  have range := char_range char
  have value : char.val.toNat = char.toNat := rfl
  simp only [encode, String.utf8EncodeChar, codePoint, value]
  split
  case isTrue small => simp; omega
  case isFalse =>
    split
    case isTrue small => simp; omega
    case isFalse =>
      split
      case isTrue small => simp; omega
      case isFalse => simp; omega

/-- Every code point outside the surrogates is that of a character. -/
theorem exists_char (value : Nat)
    (range : value < 0xd800 ∨ (0xdfff < value ∧ value < 0x110000)) :
    ∃ char : Char, encode char = codePoint value := by
  refine ⟨Char.ofNatAux value range, ?_⟩
  rw [encode_eq]
  rfl

/-! ## The bytes of a character -/

/-- The ranges of the bytes of a character. -/
inductive IsChar : List Nat -> Prop
  | one : a < 0x80 -> IsChar [a]
  | two : 0xc2 ≤ a -> a < 0xe0 -> Continuation b -> IsChar [a, b]
  | three : 0xe0 ≤ a -> a < 0xf0 -> Continuation b -> Continuation c ->
      -- Neither an overlong form nor a surrogate.
      (a = 0xe0 -> 0xa0 ≤ b) -> (a = 0xed -> b < 0xa0) -> IsChar [a, b, c]
  | four : 0xf0 ≤ a -> a < 0xf5 -> Continuation b -> Continuation c -> Continuation d ->
      (a = 0xf0 -> 0x90 ≤ b) -> (a = 0xf4 -> b < 0x90) -> IsChar [a, b, c, d]

theorem isChar_encode (char : Char) : IsChar (encode char) := by
  have range := char_range char
  rw [encode_eq, codePoint]
  split
  case isTrue small => exact .one (by omega)
  case isFalse =>
    split
    case isTrue small => exact .two (by omega) (by omega) ⟨by omega, by omega⟩
    case isFalse =>
      split
      case isTrue small =>
        exact .three (by omega) (by omega) ⟨by omega, by omega⟩ ⟨by omega, by omega⟩
          (fun _ => by omega) (fun _ => by omega)
      case isFalse =>
        exact .four (by omega) (by omega) ⟨by omega, by omega⟩ ⟨by omega, by omega⟩
          ⟨by omega, by omega⟩ (fun _ => by omega) (fun _ => by omega)

theorem IsChar.exists_encode {bytes : List Nat} (char : IsChar bytes) :
    ∃ char : Char, bytes = encode char := by
  cases char with
  | @one a small =>
      rcases exists_char a (by omega) with ⟨char, same⟩
      refine ⟨char, ?_⟩
      rw [same, codePoint, if_pos (by omega)]
  | @two a b low high second =>
      rcases second with ⟨secondLow, secondHigh⟩
      rcases exists_char ((a - 0xc0) * 64 + (b - 0x80)) (by omega) with ⟨char, same⟩
      refine ⟨char, ?_⟩
      rw [same, codePoint, if_neg (by omega), if_pos (by omega)]
      simp only [List.cons.injEq, and_true]
      omega
  | @three a b c low high second third overlong surrogate =>
      rcases second with ⟨secondLow, secondHigh⟩
      rcases third with ⟨thirdLow, thirdHigh⟩
      rcases exists_char ((a - 0xe0) * 4096 + (b - 0x80) * 64 + (c - 0x80)) (by omega) with
        ⟨char, same⟩
      refine ⟨char, ?_⟩
      rw [same, codePoint, if_neg (by omega), if_neg (by omega), if_pos (by omega)]
      simp only [List.cons.injEq, and_true]
      omega
  | @four a b c d low high second third fourth overlong above =>
      rcases second with ⟨secondLow, secondHigh⟩
      rcases third with ⟨thirdLow, thirdHigh⟩
      rcases fourth with ⟨fourthLow, fourthHigh⟩
      rcases exists_char
        ((a - 0xf0) * 262144 + (b - 0x80) * 4096 + (c - 0x80) * 64 + (d - 0x80)) (by omega) with
        ⟨char, same⟩
      refine ⟨char, ?_⟩
      rw [same, codePoint, if_neg (by omega), if_neg (by omega), if_neg (by omega)]
      simp only [List.cons.injEq, and_true]
      omega

/-! ## Well-formed text by its first character -/

theorem wellFormed_nil : WellFormed [] := ⟨[], rfl⟩

theorem WellFormed.cons {char rest : List Nat} (first : IsChar char) (later : WellFormed rest) :
    WellFormed (char ++ rest) := by
  rcases first.exists_encode with ⟨char, rfl⟩
  rcases later with ⟨chars, rfl⟩
  exact ⟨char :: chars, rfl⟩

theorem WellFormed.split {byte : Nat} {rest : List Nat} (text : WellFormed (byte :: rest)) :
    ∃ char later, byte :: rest = char ++ later ∧ IsChar char ∧ WellFormed later := by
  rcases text with ⟨chars, same⟩
  cases chars with
  | nil => cases same
  | cons char chars =>
      exact ⟨encode char, chars.flatMap encode, same, isChar_encode char, chars, rfl⟩

section Leading

variable {a : Nat} {rest : List Nat}

theorem wellFormed_one (low : a < 0x80) : WellFormed (a :: rest) ↔ WellFormed rest := by
  constructor
  · intro text
    rcases text.split with ⟨char, later, same, first, behind⟩
    cases first with
    | one _ =>
        cases same
        exact behind
    | two _ _ _ => cases same; omega
    | three _ _ _ _ _ _ => cases same; omega
    | four _ _ _ _ _ _ _ => cases same; omega
  · exact WellFormed.cons (IsChar.one low)

/-- A continuation byte, the first byte of an overlong form, or one that only
code points above the last begin with. -/
theorem not_wellFormed (stray : (0x80 ≤ a ∧ a < 0xc2) ∨ 0xf5 ≤ a) :
    ¬ WellFormed (a :: rest) := by
  intro text
  rcases text.split with ⟨char, later, same, first, _⟩
  cases first <;> cases same <;> omega

theorem wellFormed_two (low : 0xc2 ≤ a) (high : a < 0xe0) :
    WellFormed (a :: rest) ↔ ∃ b later, rest = b :: later ∧ Continuation b ∧ WellFormed later := by
  constructor
  · intro text
    rcases text.split with ⟨char, later, same, first, behind⟩
    cases first with
    | one _ => cases same; omega
    | two _ _ second =>
        cases same
        exact ⟨_, _, rfl, second, behind⟩
    | three _ _ _ _ _ _ => cases same; omega
    | four _ _ _ _ _ _ _ => cases same; omega
  · rintro ⟨b, later, rfl, second, behind⟩
    exact behind.cons (IsChar.two low high second)

theorem wellFormed_three (low : 0xe0 ≤ a) (high : a < 0xf0) :
    WellFormed (a :: rest) ↔ ∃ b c later, rest = b :: c :: later ∧
      (Continuation b ∧ Continuation c ∧ (a = 0xe0 -> 0xa0 ≤ b) ∧ (a = 0xed -> b < 0xa0)) ∧
      WellFormed later := by
  constructor
  · intro text
    rcases text.split with ⟨char, later, same, first, behind⟩
    cases first with
    | one _ => cases same; omega
    | two _ _ _ => cases same; omega
    | three _ _ second third overlong surrogate =>
        cases same
        exact ⟨_, _, _, rfl, ⟨second, third, overlong, surrogate⟩, behind⟩
    | four _ _ _ _ _ _ _ => cases same; omega
  · rintro ⟨b, c, later, rfl, ⟨second, third, overlong, surrogate⟩, behind⟩
    exact behind.cons (IsChar.three low high second third overlong surrogate)

theorem wellFormed_four (low : 0xf0 ≤ a) (high : a < 0xf5) :
    WellFormed (a :: rest) ↔ ∃ b c d later, rest = b :: c :: d :: later ∧
      (Continuation b ∧ Continuation c ∧ Continuation d ∧
        (a = 0xf0 -> 0x90 ≤ b) ∧ (a = 0xf4 -> b < 0x90)) ∧ WellFormed later := by
  constructor
  · intro text
    rcases text.split with ⟨char, later, same, first, behind⟩
    cases first with
    | one _ => cases same; omega
    | two _ _ _ => cases same; omega
    | three _ _ _ _ _ _ => cases same; omega
    | four _ _ second third fourth overlong above =>
        cases same
        exact ⟨_, _, _, _, rfl, ⟨second, third, fourth, overlong, above⟩, behind⟩
  · rintro ⟨b, c, d, later, rfl, ⟨second, third, fourth, overlong, above⟩, behind⟩
    exact behind.cons (IsChar.four low high second third fourth overlong above)

end Leading

/-! ## Surrogates -/

/-- No three bytes have the form of a surrogate. -/
def NoSurrogates (bytes : List Nat) : Prop := bytes.IsChain fun a b => a = 0xed -> b < 0xa0

theorem IsChar.noSurrogates {char : List Nat} (isChar : IsChar char) :
    NoSurrogates char ∧ forall last, last ∈ char.getLast? -> last ≠ 0xed := by
  cases isChar with
  | one _ => simp [NoSurrogates]; omega
  | two _ _ second =>
      have high := second.2
      simp [NoSurrogates]
      omega
  | three _ _ second third _ surrogate =>
      have high := third.2
      have middle := second.2
      simp [NoSurrogates]
      omega
  | four _ _ second third fourth _ _ =>
      have high := fourth.2
      have middle := third.2
      have low := second.2
      simp [NoSurrogates]
      omega

/-- Well-formed text has no surrogates. -/
theorem WellFormed.noSurrogates {bytes : List Nat} (text : WellFormed bytes) :
    NoSurrogates bytes := by
  rcases text with ⟨chars, rfl⟩
  induction chars with
  | nil => exact List.isChain_nil
  | cons char chars inductionHypothesis =>
      rcases (isChar_encode char).noSurrogates with ⟨first, last⟩
      rw [List.flatMap_cons]
      refine List.isChain_append.mpr ⟨first, inductionHypothesis, ?_⟩
      intro a isLast b _ same
      exact absurd same (last a isLast)

end Utf8

end Foundation
end WasmSandboxing
