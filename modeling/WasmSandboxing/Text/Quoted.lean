import WasmSandboxing.Foundation.PrefixCode
import WasmSandboxing.Literal.Integers
import WasmSandboxing.Wasm.Names

namespace WasmSandboxing
namespace Text

open Foundation Wasm Literal

/-!
# Quoted strings

The bytes that the writer puts between quotes, the rule by which the scanner
takes a string as one token, and what the parser makes of the token.
-/

def quote : UInt8 := 0x22

def backslash : UInt8 := 0x5c

/-! ## The scanner -/

/-- `hexdigit` -/
def isHexdigit (c : UInt8) : Bool :=
  (0x30 ≤ c && c ≤ 0x39) || (0x61 ≤ c && c ≤ 0x66) || (0x41 ≤ c && c ≤ 0x46)

/-- `[nrt\\'"]` -/
def isSimpleEscape (c : UInt8) : Bool :=
  c == 0x6e || c == 0x72 || c == 0x74 || c == backslash || c == 0x27 || c == quote

def isContinuation (c : UInt8) : Bool := 0x80 ≤ c && c < 0xc0

/-- The bytes of a code point.  The scanner is generated for UTF-8, and its
classes of characters contain the surrogates. -/
def isCodePoint : List UInt8 -> Bool
  | [a] => a < 0x80
  | [a, b] => 0xc2 ≤ a && a < 0xe0 && isContinuation b
  | [a, b, c] =>
      0xe0 ≤ a && a < 0xf0 && isContinuation b && isContinuation c && (a != 0xe0 || 0xa0 ≤ b)
  | [a, b, c, d] =>
      0xf0 ≤ a && a < 0xf5 && isContinuation b && isContinuation c && isContinuation d &&
        (a != 0xf0 || 0x90 ≤ b) && (a != 0xf4 || b < 0x90)
  | _ => false

/-- `[^"\\\x00-\x1f]` -/
def isPlain (word : List UInt8) : Bool :=
  isCodePoint word && word.all fun c => c != quote && c != backslash && 0x20 ≤ c

/-- An escape of one letter or of two digits. -/
def isEscape : List UInt8 -> Bool
  | [a, b] => a == backslash && isSimpleEscape b
  | [a, b, c] => a == backslash && isHexdigit b && isHexdigit c
  | _ => false

/-- `character` -/
def isCharacter (word : List UInt8) : Bool := isPlain word || isEscape word

/-- The `character` that a text begins with. -/
def nextCharacter (text : List UInt8) : Option (List UInt8 × List UInt8) :=
  ([1, 2, 3, 4].map fun count => text.splitAt count).find? fun pair => isCharacter pair.1

/-- The number of bytes of the character that begins with these bytes. -/
def characterLength : List UInt8 -> Nat
  | a :: b :: _ =>
      if a = backslash then if isSimpleEscape b then 2 else 3
      else if a < 0x80 then 1 else if a < 0xe0 then 2 else if a < 0xf0 then 3 else 4
  | _ => 1

theorem length_character {word : List UInt8} (isWord : isCharacter word = true)
    (rest : List UInt8) : characterLength (word ++ rest) = word.length := by
  rcases word with _ | ⟨a, _ | ⟨b, _ | ⟨c, _ | ⟨d, _ | ⟨e, word⟩⟩⟩⟩⟩
  case nil => cases isWord
  case cons.nil =>
      have plain : a < 0x80 ∧ a ≠ backslash := by
        simp [isCharacter, isPlain, isCodePoint, isEscape] at isWord
        grind
      cases rest with
      | nil => rfl
      | cons b rest =>
          simp only [List.cons_append, List.nil_append, characterLength, if_neg plain.2,
            if_pos plain.1]
          rfl
  case cons.cons.nil =>
      simp [isCharacter, isPlain, isCodePoint, isEscape] at isWord
      simp only [List.cons_append, List.nil_append, characterLength, List.length_cons,
        List.length_nil]
      grind
  case cons.cons.cons.nil =>
      simp [isCharacter, isPlain, isCodePoint, isEscape] at isWord
      simp only [List.cons_append, List.nil_append, characterLength, List.length_cons,
        List.length_nil]
      have apart : isHexdigit b = true -> isSimpleEscape b = false := by
        simp [isHexdigit, isSimpleEscape, backslash, quote]
        grind
      grind
  case cons.cons.cons.cons.nil =>
      simp [isCharacter, isPlain, isCodePoint, isEscape] at isWord
      simp only [List.cons_append, List.nil_append, characterLength, List.length_cons,
        List.length_nil]
      grind
  case cons.cons.cons.cons.cons => cases isWord

theorem length_character_mem {word : List UInt8} (isWord : isCharacter word = true) :
    word.length ∈ [1, 2, 3, 4] := by
  rcases word with _ | ⟨a, _ | ⟨b, _ | ⟨c, _ | ⟨d, _ | ⟨e, word⟩⟩⟩⟩⟩
  case nil => cases isWord
  case cons.cons.cons.cons.cons => cases isWord
  all_goals simp only [List.length_cons, List.length_nil]; decide

/-- The characters of a string, one after the other. -/
def characters : WordReader fun word => isCharacter word = true where
  next := nextCharacter
  nonempty word isWord empty := by
    rw [empty] at isWord
    cases isWord
  reads text word rest := by
    constructor
    · intro found
      have isWord := List.find?_some found
      rcases List.mem_map.mp (List.mem_of_find?_eq_some found) with ⟨count, _, same⟩
      have whole := List.take_append_drop count text
      rw [List.splitAt_eq, Prod.mk.injEq] at same
      rw [same.1, same.2] at whole
      exact ⟨whole.symm, isWord⟩
    · rintro ⟨rfl, isWord⟩
      have split : (word ++ rest).splitAt word.length = (word, rest) := by
        rw [List.splitAt_eq, List.take_left, List.drop_left]
      have tried : (word, rest) ∈ [1, 2, 3, 4].map fun count => (word ++ rest).splitAt count :=
        List.mem_map.mpr ⟨word.length, length_character_mem isWord, split⟩
      cases found : nextCharacter (word ++ rest) with
      | none => exact absurd isWord (List.find?_eq_none.mp found _ tried)
      | some pair =>
          have isOther := List.find?_some found
          rcases List.mem_map.mp (List.mem_of_find?_eq_some found) with ⟨count, _, same⟩
          have whole : pair.1 ++ pair.2 = word ++ rest := by
            rw [← same, List.splitAt_eq]
            exact List.take_append_drop count _
          have lengths : pair.1.length = word.length := by
            rw [← length_character isOther pair.2, ← length_character isWord rest, whole]
          rcases List.append_inj whole lengths with ⟨sameWord, sameRest⟩
          rw [← sameWord, ← sameRest]

/-- `text`: the token is taken up to the quote at which the characters stop. -/
def scanText : List UInt8 -> Option (List UInt8 × List UInt8)
  | [] => none
  | first :: input =>
      if first = quote then
        match characters.readAll input with
        | (words, last :: rest) =>
            if last = quote then some (quote :: words.flatten ++ [quote], rest) else none
        | (_, []) => none
      else none

/-- The tokens of the rule. -/
def IsText (token : List UInt8) : Prop :=
  ∃ words : List (List UInt8), (forall word, word ∈ words -> isCharacter word = true) ∧
    token = quote :: words.flatten ++ [quote]

theorem isCharacter_quote (rest : List UInt8) : isCharacter (quote :: rest) = false := by
  have plain : isPlain (quote :: rest) = false := by simp [isPlain]
  have escape : isEscape (quote :: rest) = false := by
    rcases rest with _ | ⟨b, _ | ⟨c, _ | ⟨d, rest⟩⟩⟩ <;> rfl
  rw [isCharacter, plain, escape]
  rfl

/-- No character begins with a quote, so that the characters stop at one. -/
theorem nextCharacter_quote (rest : List UInt8) : nextCharacter (quote :: rest) = none := by
  cases found : nextCharacter (quote :: rest) with
  | none => rfl
  | some pair =>
      rcases pair with ⟨word, later⟩
      rcases (characters.reads ..).mp found with ⟨same, isWord⟩
      cases word with
      | nil => cases isWord
      | cons first word =>
          rw [List.cons_append, List.cons.injEq] at same
          rw [← same.1, isCharacter_quote] at isWord
          cases isWord

/-- The token that a text begins with, if one does. -/
theorem scanText_iff (input token rest : List UInt8) :
    scanText input = some (token, rest) ↔ input = token ++ rest ∧ IsText token := by
  constructor
  · intro found
    cases input with
    | nil => cases found
    | cons first input =>
        rcases characters.readAll_sound input with ⟨whole, words⟩
        rw [scanText] at found
        by_cases opens : first = quote
        case neg =>
          rw [if_neg opens] at found
          cases found
        rcases read : characters.readAll input with ⟨inner, _ | ⟨last, later⟩⟩
        case nil =>
          rw [if_pos opens, read] at found
          cases found
        rw [read] at whole words
        by_cases closes : last = quote
        case neg =>
          simp only [if_pos opens, read, if_neg closes] at found
          cases found
        simp only [if_pos opens, read, if_pos closes, Option.some.injEq, Prod.mk.injEq] at found
        rcases found with ⟨rfl, rfl⟩
        refine ⟨?_, inner, words, rfl⟩
        rw [whole, opens, closes]
        simp
  · rintro ⟨rfl, words, areWords, rfl⟩
    have read := characters.readAll_flatten areWords (nextCharacter_quote rest)
    have shape : quote :: words.flatten ++ [quote] ++ rest =
        quote :: (words.flatten ++ quote :: rest) := by simp
    rw [shape, scanText, if_pos rfl, read]
    exact if_pos rfl

/-! ## The parser -/

/-- The byte of an escape of one letter. -/
def simpleEscape (c : UInt8) : Option UInt8 :=
  if c = 0x6e then some 0x0a
  else if c = 0x72 then some 0x0d
  else if c = 0x74 then some 0x09
  else if c = backslash then some backslash
  else if c = 0x27 then some 0x27
  else if c = quote then some quote
  else none

/-- `ParseHexdigit` -/
def hexdigit (c : UInt8) : Option Nat := parseHexdigit (Char.ofNat c.toNat)

/-- The loop of `RemoveEscapes`.  There is no result where it would read
beyond the end, and where its assertion fails. -/
def unescape : List UInt8 -> Option (List UInt8)
  | [] => some []
  | [c] => if c = backslash then none else some [c]
  | c :: escaped :: rest =>
      if c = backslash then
        match simpleEscape escaped with
        | some byte => (unescape rest).map (byte :: ·)
        | none =>
            match rest with
            | [] => none
            | low :: rest =>
                (hexdigit escaped).bind fun hi => (hexdigit low).bind fun lo =>
                  (unescape rest).map (UInt8.ofNat (hi <<< 4 ||| lo) :: ·)
      else (unescape (escaped :: rest)).map (c :: ·)

/-- `RemoveEscapes` -/
def removeEscapes (text : List UInt8) : Option (List UInt8) :=
  if text.length ≤ 2 then some [] else unescape ((text.drop 1).take (text.length - 2))

/-! ## The meaning of a token -/

/-- A digit and its value. -/
inductive Hexdigit : UInt8 -> Nat -> Prop
  | decimal : value < 10 -> Hexdigit (UInt8.ofNat (0x30 + value)) value
  | lower : value < 6 -> Hexdigit (UInt8.ofNat (0x61 + value)) (10 + value)
  | upper : value < 6 -> Hexdigit (UInt8.ofNat (0x41 + value)) (10 + value)

/-- The bytes that a character of a string stands for. -/
inductive Denotes : List UInt8 -> List UInt8 -> Prop
  | newline : Denotes [backslash, 0x6e] [0x0a]
  | carriageReturn : Denotes [backslash, 0x72] [0x0d]
  | tab : Denotes [backslash, 0x74] [0x09]
  | backslash : Denotes [backslash, backslash] [backslash]
  | apostrophe : Denotes [backslash, 0x27] [0x27]
  | quote : Denotes [backslash, quote] [quote]
  | hex : Hexdigit high hi -> Hexdigit low lo ->
      Denotes [backslash, high, low] [UInt8.ofNat (16 * hi + lo)]
  | plain : isPlain word = true -> Denotes word word

/-- A token whose characters stand for these bytes. -/
def Spells (token bytes : List UInt8) : Prop :=
  ∃ characters : List (List UInt8 × List UInt8),
    (forall character, character ∈ characters -> Denotes character.1 character.2) ∧
    token = quote :: characters.flatMap Prod.fst ++ [quote] ∧
    bytes = characters.flatMap Prod.snd

theorem isHexdigit_value {c : UInt8} (isDigit : isHexdigit c = true) :
    ∃ value, Hexdigit c value := by
  have spelled (base : Nat) (above : base ≤ c.toNat) :
      UInt8.ofNat (base + (c.toNat - base)) = c := by
    rw [Nat.add_sub_cancel' above, UInt8.ofNat_toNat]
  simp only [isHexdigit, Bool.or_eq_true, Bool.and_eq_true, decide_eq_true_eq,
    UInt8.le_iff_toNat_le] at isDigit
  rcases isDigit with (⟨above, below⟩ | ⟨above, below⟩) | ⟨above, below⟩
  · have small : c.toNat - 0x30 < 10 := Nat.sub_lt_left_of_lt_add above (Nat.lt_succ_of_le below)
    have digit := Hexdigit.decimal small
    rw [spelled 0x30 above] at digit
    exact ⟨_, digit⟩
  · have small : c.toNat - 0x61 < 6 := Nat.sub_lt_left_of_lt_add above (Nat.lt_succ_of_le below)
    have digit := Hexdigit.lower small
    rw [spelled 0x61 above] at digit
    exact ⟨_, digit⟩
  · have small : c.toNat - 0x41 < 6 := Nat.sub_lt_left_of_lt_add above (Nat.lt_succ_of_le below)
    have digit := Hexdigit.upper small
    rw [spelled 0x41 above] at digit
    exact ⟨_, digit⟩

theorem Hexdigit.parses {c : UInt8} {value : Nat} (isDigit : Hexdigit c value) :
    hexdigit c = some value ∧ simpleEscape c = none ∧ value < 16 := by
  have decimals : forall value : Fin 10, hexdigit (UInt8.ofNat (0x30 + value)) = some value.val ∧
      simpleEscape (UInt8.ofNat (0x30 + value)) = none := by decide
  have lowers : forall value : Fin 6,
      hexdigit (UInt8.ofNat (0x61 + value)) = some (10 + value.val) ∧
      simpleEscape (UInt8.ofNat (0x61 + value)) = none := by decide
  have uppers : forall value : Fin 6,
      hexdigit (UInt8.ofNat (0x41 + value)) = some (10 + value.val) ∧
      simpleEscape (UInt8.ofNat (0x41 + value)) = none := by decide
  cases isDigit with
  | decimal small =>
      exact ⟨(decimals ⟨_, small⟩).1, (decimals ⟨_, small⟩).2, by omega⟩
  | lower small => exact ⟨(lowers ⟨_, small⟩).1, (lowers ⟨_, small⟩).2, by omega⟩
  | upper small => exact ⟨(uppers ⟨_, small⟩).1, (uppers ⟨_, small⟩).2, by omega⟩

/-- Every character of the rule stands for some bytes. -/
theorem isCharacter_denotes {word : List UInt8} (isWord : isCharacter word = true) :
    ∃ bytes, Denotes word bytes := by
  rcases Bool.or_eq_true_iff.mp isWord with isWord | isWord
  · exact ⟨word, .plain isWord⟩
  rcases word with _ | ⟨a, _ | ⟨b, _ | ⟨c, _ | ⟨d, word⟩⟩⟩⟩
  case nil | cons.nil | cons.cons.cons.cons => cases isWord
  case cons.cons.nil =>
      simp only [isEscape, isSimpleEscape, Bool.and_eq_true, Bool.or_eq_true, beq_iff_eq] at isWord
      rcases isWord with ⟨rfl, ((((rfl | rfl) | rfl) | rfl) | rfl) | rfl⟩
      · exact ⟨_, .newline⟩
      · exact ⟨_, .carriageReturn⟩
      · exact ⟨_, .tab⟩
      · exact ⟨_, .backslash⟩
      · exact ⟨_, .apostrophe⟩
      · exact ⟨_, .quote⟩
  case cons.cons.cons.nil =>
      simp only [isEscape, Bool.and_eq_true, beq_iff_eq] at isWord
      rcases isWord with ⟨⟨rfl, isHigh⟩, isLow⟩
      rcases isHexdigit_value isHigh with ⟨hi, high⟩
      rcases isHexdigit_value isLow with ⟨lo, low⟩
      exact ⟨_, .hex high low⟩

/-! ## Removing the escapes -/

theorem unescape_cons {c : UInt8} (different : c ≠ backslash) (rest : List UInt8) :
    unescape (c :: rest) = (unescape rest).map (c :: ·) := by
  cases rest with
  | nil => exact if_neg different
  | cons escaped rest =>
      rw [unescape.eq_def]
      exact if_neg different

theorem unescape_copy {word : List UInt8} (plain : forall c, c ∈ word -> c ≠ backslash)
    (rest : List UInt8) : unescape (word ++ rest) = (unescape rest).map (word ++ ·) := by
  induction word with
  | nil => simp
  | cons c word inductionHypothesis =>
      have later := inductionHypothesis fun other member =>
        plain other (List.mem_cons_of_mem c member)
      rw [List.cons_append, unescape_cons (plain c List.mem_cons_self), later, Option.map_map]
      rfl

/-- An escape of one letter. -/
theorem unescape_simple {escaped byte : UInt8} (known : simpleEscape escaped = some byte)
    (rest : List UInt8) :
    unescape (backslash :: escaped :: rest) = (unescape rest).map (byte :: ·) := by
  rw [unescape.eq_def]
  refine (if_pos rfl).trans ?_
  rw [known]

/-- An escape of two digits. -/
theorem unescape_hex {high low : UInt8} {hi lo : Nat} (isHigh : Hexdigit high hi)
    (isLow : Hexdigit low lo) (rest : List UInt8) :
    unescape (backslash :: high :: low :: rest) =
      (unescape rest).map (UInt8.ofNat (16 * hi + lo) :: ·) := by
  have joined : hi <<< 4 ||| lo = 16 * hi + lo := by
    rw [← Nat.shiftLeft_add_eq_or_of_lt isLow.parses.2.2, Nat.shiftLeft_eq, Nat.mul_comm]
  rw [unescape.eq_def]
  refine (if_pos rfl).trans ?_
  rw [isHigh.parses.2.1, isHigh.parses.1]
  dsimp only [Option.bind_some]
  rw [isLow.parses.1, ← joined]
  rfl

theorem Denotes.unescape_append {word bytes : List UInt8} (denotes : Denotes word bytes)
    (rest : List UInt8) : unescape (word ++ rest) = (unescape rest).map (bytes ++ ·) := by
  cases denotes with
  | newline | carriageReturn | tab | backslash | apostrophe | quote =>
      exact unescape_simple (by decide) rest
  | hex high low => exact unescape_hex high low rest
  | plain isWord =>
      rw [isPlain, Bool.and_eq_true, List.all_eq_true] at isWord
      refine unescape_copy (fun c member same => ?_) rest
      have allowed := isWord.2 c member
      rw [same] at allowed
      cases allowed

/-- The escapes of a token are replaced by what they stand for, and all other
bytes are copied. -/
theorem Spells.removeEscapes_eq {token bytes : List UInt8} (spells : Spells token bytes) :
    removeEscapes token = some bytes := by
  rcases spells with ⟨characters, denote, rfl, rfl⟩
  have inner : unescape (characters.flatMap Prod.fst) = some (characters.flatMap Prod.snd) := by
    induction characters with
    | nil => rfl
    | cons character characters inductionHypothesis =>
        have later := inductionHypothesis fun other member =>
          denote other (List.mem_cons_of_mem character member)
        rw [List.flatMap_cons, List.flatMap_cons,
          (denote character List.mem_cons_self).unescape_append, later, Option.map_some]
  rw [removeEscapes]
  split
  case isTrue short =>
    have empty : characters.flatMap Prod.fst = [] := by
      rw [List.length_append, List.length_cons, List.length_singleton] at short
      exact List.length_eq_zero_iff.mp (by omega)
    rw [empty] at inner
    exact inner
  case isFalse =>
    have between : ((quote :: characters.flatMap Prod.fst ++ [quote]).drop 1).take
        ((quote :: characters.flatMap Prod.fst ++ [quote]).length - 2) =
          characters.flatMap Prod.fst := by simp
    rw [between, inner]

/-- Every token of the rule stands for some bytes. -/
theorem IsText.spells {token : List UInt8} (isText : IsText token) :
    ∃ bytes, Spells token bytes := by
  rcases isText with ⟨words, areWords, rfl⟩
  have denoted : ∃ characters : List (List UInt8 × List UInt8),
      (forall character, character ∈ characters -> Denotes character.1 character.2) ∧
        characters.map Prod.fst = words := by
    induction words with
    | nil => exact ⟨[], fun _ member => absurd member List.not_mem_nil, rfl⟩
    | cons word words inductionHypothesis =>
        rcases isCharacter_denotes (areWords word List.mem_cons_self) with ⟨bytes, denotes⟩
        rcases inductionHypothesis fun other member =>
          areWords other (List.mem_cons_of_mem word member) with ⟨characters, denote, same⟩
        refine ⟨(word, bytes) :: characters, fun character member => ?_, ?_⟩
        · rcases List.mem_cons.mp member with rfl | later
          · exact denotes
          · exact denote character later
        · rw [List.map_cons, same]
  rcases denoted with ⟨characters, denote, rfl⟩
  exact ⟨_, characters, denote, by rw [List.flatMap_def], rfl⟩

/-! ## The writer -/

set_option maxRecDepth 1024 in
/-- `s_is_char_escaped` -/
def isCharEscaped : List Nat := [
    1, 1, 1, 1, 1, 1, 1, 1, 1, 1, 1, 1, 1, 1, 1, 1, 1, 1, 1, 1, 1, 1, 1, 1,
    1, 1, 1, 1, 1, 1, 1, 1, 0, 0, 1, 0, 0, 0, 0, 0, 0, 0, 0, 0, 0, 0, 0, 0,
    0, 0, 0, 0, 0, 0, 0, 0, 0, 0, 0, 0, 0, 0, 0, 0, 0, 0, 0, 0, 0, 0, 0, 0,
    0, 0, 0, 0, 0, 0, 0, 0, 0, 0, 0, 0, 0, 0, 0, 0, 0, 0, 0, 0, 1, 0, 0, 0,
    0, 0, 0, 0, 0, 0, 0, 0, 0, 0, 0, 0, 0, 0, 0, 0, 0, 0, 0, 0, 0, 0, 0, 0,
    0, 0, 0, 0, 0, 0, 0, 1, 1, 1, 1, 1, 1, 1, 1, 1, 1, 1, 1, 1, 1, 1, 1, 1,
    1, 1, 1, 1, 1, 1, 1, 1, 1, 1, 1, 1, 1, 1, 1, 1, 1, 1, 1, 1, 1, 1, 1, 1,
    1, 1, 1, 1, 1, 1, 1, 1, 1, 1, 1, 1, 1, 1, 1, 1, 1, 1, 1, 1, 1, 1, 1, 1,
    1, 1, 1, 1, 1, 1, 1, 1, 1, 1, 1, 1, 1, 1, 1, 1, 1, 1, 1, 1, 1, 1, 1, 1,
    1, 1, 1, 1, 1, 1, 1, 1, 1, 1, 1, 1, 1, 1, 1, 1, 1, 1, 1, 1, 1, 1, 1, 1,
    1, 1, 1, 1, 1, 1, 1, 1, 1, 1, 1, 1, 1, 1, 1, 1]

/-- A digit of `s_hexdigits`. -/
def sHexdigit (digit : UInt8) : UInt8 :=
  (ascii "0123456789abcdef").getD digit.toNat 0

/-- What is written for a byte. -/
def quotedByte (c : UInt8) : List UInt8 :=
  if isCharEscaped.getD c.toNat 0 ≠ 0 then [backslash, sHexdigit (c >>> 4), sHexdigit (c &&& 0xf)]
  else [c]

/-- `WriteQuotedData` -/
def writeQuotedData (data : List UInt8) : List UInt8 :=
  quote :: data.flatMap quotedByte ++ [quote]

/-- The digits of the writer. -/
theorem hexdigit_sHexdigit {digit : UInt8} (small : digit.toNat < 16) :
    Hexdigit (sHexdigit digit) digit.toNat := by
  have decimals : forall value : Fin 10,
      sHexdigit (UInt8.ofNat value) = UInt8.ofNat (0x30 + value) := by decide
  have letters : forall value : Fin 6,
      sHexdigit (UInt8.ofNat (10 + value)) = UInt8.ofNat (0x61 + value) := by decide
  by_cases decimal : digit.toNat < 10
  · have entry := decimals ⟨digit.toNat, decimal⟩
    rw [UInt8.ofNat_toNat] at entry
    rw [entry]
    exact .decimal decimal
  · have isLetter : digit.toNat - 10 < 6 := by omega
    have same : 10 + (digit.toNat - 10) = digit.toNat := by omega
    have entry := letters ⟨digit.toNat - 10, isLetter⟩
    rw [same, UInt8.ofNat_toNat] at entry
    have digitOf := Hexdigit.lower isLetter
    rwa [same, ← entry] at digitOf

set_option maxRecDepth 4096 in
/-- The table leaves only bytes that the scanner takes as they are. -/
theorem isPlain_of_not_escaped {c : UInt8} (raw : isCharEscaped.getD c.toNat 0 = 0) :
    isPlain [c] = true := by
  have table : forall c : Fin 256, isCharEscaped.getD c 0 = 0 ->
      isPlain [UInt8.ofNat c] = true := by decide
  have entry := table ⟨c.toNat, c.toNat_lt⟩ raw
  rwa [UInt8.ofNat_toNat] at entry

theorem denotes_quotedByte (c : UInt8) : Denotes (quotedByte c) [c] := by
  rw [quotedByte]
  split
  case isTrue =>
    have shifted : (c >>> 4).toNat = c.toNat / 16 := by
      rw [UInt8.toNat_shiftRight]
      exact Nat.shiftRight_eq_div_pow c.toNat 4
    have masked : (c &&& 0xf).toNat = c.toNat % 16 := by
      rw [UInt8.toNat_and]
      exact Nat.and_two_pow_sub_one_eq_mod c.toNat 4
    have bound := c.toNat_lt
    have high := hexdigit_sHexdigit (show (c >>> 4).toNat < 16 by omega)
    have low := hexdigit_sHexdigit (show (c &&& 0xf).toNat < 16 by omega)
    have spelled := Denotes.hex high low
    rwa [shifted, masked, Nat.div_add_mod, UInt8.ofNat_toNat] at spelled
  case isFalse raw =>
    exact .plain (isPlain_of_not_escaped (Decidable.not_not.mp raw))

/-- What is written stands for the bytes. -/
theorem spells_writeQuotedData (data : List UInt8) : Spells (writeQuotedData data) data := by
  refine ⟨data.map fun c => (quotedByte c, [c]), ?_, ?_, ?_⟩
  · intro character member
    rcases List.mem_map.mp member with ⟨c, _, rfl⟩
    exact denotes_quotedByte c
  · rw [writeQuotedData, List.flatMap_map]
  · rw [List.flatMap_map]
    exact (List.flatMap_singleton' data).symm

theorem Hexdigit.isHexdigit {c : UInt8} {value : Nat} (isDigit : Hexdigit c value) :
    isHexdigit c = true := by
  have decimals : forall value : Fin 10,
      Text.isHexdigit (UInt8.ofNat (0x30 + value)) = true := by decide
  have letters : forall value : Fin 6, Text.isHexdigit (UInt8.ofNat (0x61 + value)) = true ∧
      Text.isHexdigit (UInt8.ofNat (0x41 + value)) = true := by decide
  cases isDigit with
  | decimal small => exact decimals ⟨_, small⟩
  | lower small => exact (letters ⟨_, small⟩).1
  | upper small => exact (letters ⟨_, small⟩).2

theorem Denotes.isCharacter {word bytes : List UInt8} (denotes : Denotes word bytes) :
    isCharacter word = true := by
  cases denotes with
  | newline | carriageReturn | tab | backslash | apostrophe | quote => rfl
  | hex high low => simp [Text.isCharacter, isEscape, high.isHexdigit, low.isHexdigit]
  | plain isWord => rw [Text.isCharacter, isWord, Bool.true_or]

theorem Spells.isText {token bytes : List UInt8} (spells : Spells token bytes) :
    IsText token := by
  rcases spells with ⟨characters, denote, rfl, rfl⟩
  refine ⟨characters.map Prod.fst, fun word member => ?_, by rw [List.flatMap_def]⟩
  rcases List.mem_map.mp member with ⟨character, isMember, rfl⟩
  exact (denote character isMember).isCharacter

/-- **Quoted strings round trip**: what the writer puts between quotes is one
token for the scanner, whatever follows it, from which the parser gets the
bytes back; and from every token that the scanner takes for a string the parser
gets the bytes that its characters stand for. -/
theorem quoted_strings_round_trip :
    (forall data rest : List UInt8,
      scanText (writeQuotedData data ++ rest) = some (writeQuotedData data, rest) ∧
        removeEscapes (writeQuotedData data) = some data) ∧
    (forall input token rest : List UInt8, scanText input = some (token, rest) ->
      ∃ bytes, Spells token bytes ∧ removeEscapes token = some bytes) := by
  constructor
  · intro data rest
    have spells := spells_writeQuotedData data
    exact ⟨(scanText_iff ..).mpr ⟨rfl, spells.isText⟩, spells.removeEscapes_eq⟩
  · intro input token rest found
    rcases ((scanText_iff ..).mp found).2.spells with ⟨bytes, spells⟩
    exact ⟨bytes, spells, spells.removeEscapes_eq⟩

/-- A quote, a control character and a digit after it are written and read. -/
theorem quoted_strings_round_trip_token :
    ∃ bytes, Spells (writeQuotedData [0x22, 0x07, 0x37]) bytes ∧
      removeEscapes (writeQuotedData [0x22, 0x07, 0x37]) = some bytes :=
  quoted_strings_round_trip.2 (writeQuotedData [0x22, 0x07, 0x37] ++ []) _ []
    (quoted_strings_round_trip.1 [0x22, 0x07, 0x37] []).1

end Text
end WasmSandboxing
