import WasmSandboxing.Text.LexerRefinement
import WasmSandboxing.Text.Rounds

namespace WasmSandboxing
namespace Text
namespace Lexer

open Foundation

/-!
# Lexical errors

Malformed UTF-8, strings and block comments that are not closed, and which of
them the lexer passes in silence.
-/

/-! ## Where a byte stands -/

/-- What the bytes in front of a place have opened, however wrong they are. -/
inductive Place where
  | code | openParen | semicolon
  | string | escape
  | lineComment
  | blockComment (depth : Nat) | openNested (depth : Nat) | closeNested (depth : Nat)
  deriving Repr, DecidableEq

def Place.mode : Place -> Mode
  | code | openParen | semicolon => .code
  | string | escape => .string
  | lineComment => .lineComment
  | blockComment depth | openNested depth | closeNested depth => .blockComment depth

/-- A place where nothing but its mode matters. -/
def Mode.place : Mode -> Place
  | code => .code
  | string => .string
  | lineComment => .lineComment
  | blockComment depth => .blockComment depth

def nextInCode (c : UInt8) : Place :=
  if c = quote then .string else if c = lpar then .openParen
  else if c = Lexer.semicolon then .semicolon else .code

def nextInComment (depth : Nat) (c : UInt8) : Place :=
  if c = lpar then .openNested depth else if c = Lexer.semicolon then .closeNested depth
  else .blockComment depth

def Place.next : Place -> UInt8 -> Place
  | code, c => nextInCode c
  | openParen, c => if c = Lexer.semicolon then .blockComment 0 else nextInCode c
  | semicolon, c => if c = Lexer.semicolon then .lineComment else nextInCode c
  | string, c =>
      if c = quote then .code else if c = backslash then .escape
      else if c = newline then .code else .string
  | escape, c => if c = newline then .code else .string
  | lineComment, c => if c = newline then .code else .lineComment
  | blockComment depth, c => nextInComment depth c
  | openNested depth, c =>
      if c = Lexer.semicolon then .blockComment (depth + 1) else nextInComment depth c
  | closeNested depth, c => if c = rpar then (outside depth).place else nextInComment depth c

/-- A line or the source ends within a string. -/
def opensString : Place -> List UInt8 -> Prop
  | place, [] => place.mode = .string
  | place, c :: rest => place.mode = .string ∧ c = newline ∨ opensString (place.next c) rest

/-- The mode in which a text ends. -/
def endMode (place : Place) (text : List UInt8) : Mode := (text.foldl Place.next place).mode

/-! ## The defects -/

/-- A string literal is not closed. -/
def UnterminatedString (source : List UInt8) : Prop := opensString .code source

/-- A block comment is not closed. -/
def UnterminatedComment (source : List UInt8) : Prop :=
  ∃ depth, endMode .code source = .blockComment depth

/-- The source is not UTF-8. -/
def MalformedUtf8 (source : List UInt8) : Prop := ¬Utf8.WellFormed (source.map UInt8.toNat)

def Defective (source : List UInt8) : Prop :=
  MalformedUtf8 source ∨ UnterminatedString source ∨ UnterminatedComment source

/-- Only defined tokens, blanks, and comments. -/
def OnlyTokens (source : List UInt8) : Prop := ∃ last, Reads .code source last []

/-- The source is read in pieces and has a defect that none of them shows: its last
byte alone is malformed, it ends within a string or a block comment, or the
bytes of a surrogate stand in a string or a comment. -/
def Lost (source : List UInt8) : Prop :=
  ∃ last tail, Reads .code source last tail ∧
    ((∃ b, 0x80 ≤ b ∧ tail = [b]) ∨
      tail = [] ∧ (last = .string ∨ (∃ depth, last = .blockComment depth) ∨
        ¬Utf8.NoSurrogates (source.map UInt8.toNat)))

/-! ## Code points -/

/-- The text is read code point by code point. -/
inductive Points : List UInt8 -> List UInt8 -> Prop
  | stop : Points text text
  | step : afterCodePoint text = some rest -> Points rest tail -> Points text tail

theorem Points.trans {text middle tail : List UInt8} (first : Points text middle)
    (later : Points middle tail) : Points text tail := by
  induction first with
  | stop => exact later
  | step found _ inductionHypothesis => exact .step found (inductionHypothesis later)

theorem Points.ascii {c : UInt8} (small : c < 0x80) (rest : List UInt8) :
    Points (c :: rest) rest :=
  .step (afterCodePoint_ascii small rest) .stop

theorem afterEscape_points {text rest : List UInt8} (found : afterEscape text = some rest) :
    Points text rest := by
  have simpleAscii (c : UInt8) : isSimpleEscape c = true -> c < 0x80 := by
    grind [isSimpleEscape, backslash, quote]
  have digitAscii (c : UInt8) : isHexdigit c = true -> c < 0x80 := by
    grind [isHexdigit]
  cases text with
  | nil => cases found
  | cons c text =>
      rw [afterEscape] at found
      split at found
      · rename_i simple
        cases found
        exact .ascii (simpleAscii c simple) _
      split at found
      · rename_i digits
        rw [Bool.and_eq_true] at digits
        cases found
        cases text with
        | nil => exact absurd digits.2 Bool.false_ne_true
        | cons d text =>
            have first := Points.ascii (digitAscii c digits.1) (d :: text)
            exact first.trans (.ascii (digitAscii d digits.2) text)
      · cases found

/-- The pieces, one by one. -/
inductive IsPiece : Mode -> List UInt8 -> Mode -> List UInt8 -> Prop
  | openString : IsPiece .code (quote :: rest) .string rest
  | openComment : IsPiece .code (lpar :: semicolon :: rest) (.blockComment 0) rest
  | lpar : rest.head? ≠ some semicolon -> IsPiece .code (lpar :: rest) .code rest
  | lineComment : IsPiece .code (semicolon :: semicolon :: rest) .lineComment rest
  | plain : c ≠ quote -> c ≠ Lexer.lpar -> c ≠ semicolon -> c < 0x80 ->
      IsPiece .code (c :: rest) .code rest
  | closeString : IsPiece .string (quote :: rest) .code rest
  | escape : afterEscape text = some rest -> IsPiece .string (backslash :: text) .string rest
  | character : c ≠ quote -> c ≠ backslash -> ¬c < 0x20 -> afterCodePoint (c :: text) = some rest ->
      IsPiece .string (c :: text) .string rest
  | lineEnd : IsPiece .lineComment (newline :: rest) .code rest
  | lineText : c ≠ newline -> afterCodePoint (c :: text) = some rest ->
      IsPiece .lineComment (c :: text) .lineComment rest
  | nested : IsPiece (.blockComment depth) (Lexer.lpar :: semicolon :: rest)
      (.blockComment (depth + 1)) rest
  | nestedEnd : IsPiece (.blockComment depth) (semicolon :: rpar :: rest) (outside depth) rest
  | commentText : ¬(c = Lexer.lpar ∧ text.head? = some semicolon) ->
      ¬(c = semicolon ∧ text.head? = some rpar) -> afterCodePoint (c :: text) = some rest ->
      IsPiece (.blockComment depth) (c :: text) (.blockComment depth) rest

theorem tail_of_head {c : UInt8} {text : List UInt8} (same : text.head? = some c) :
    text = c :: text.tail := by
  cases text with
  | nil => cases same
  | cons d text => cases same; rfl

theorem isPiece_of_piece {mode next : Mode} {text rest : List UInt8}
    (found : piece mode text = some (next, rest)) : IsPiece mode text next rest := by
  cases text with
  | nil => cases mode <;> cases found
  | cons c text =>
      cases mode with
      | code =>
          rw [piece] at found
          by_cases quotes : c = quote
          · rw [if_pos quotes] at found
            cases found
            exact quotes ▸ .openString
          rw [if_neg quotes] at found
          by_cases opens : c = lpar
          · rw [if_pos opens] at found
            split at found
            · rename_i follows
              cases found
              rw [opens, tail_of_head follows]
              exact .openComment
            · rename_i alone
              cases found
              exact opens ▸ .lpar alone
          rw [if_neg opens] at found
          by_cases comments : c = semicolon
          · rw [if_pos comments] at found
            split at found
            · rename_i follows
              cases found
              rw [comments, tail_of_head follows]
              exact .lineComment
            · cases found
          rw [if_neg comments] at found
          split at found
          · rename_i plain
            cases found
            exact .plain quotes opens comments
              (by grind [newline, rpar, isBlank, isReserved])
          · cases found
      | string =>
          rw [piece] at found
          split at found
          · rename_i quotes
            cases found
            exact quotes ▸ .closeString
          rename_i quotes
          split at found
          · rename_i escapes
            rcases Option.map_eq_some_iff.mp found with ⟨later, escape, same⟩
            cases same
            exact escapes ▸ .escape escape
          rename_i escapes
          split at found
          · cases found
          rename_i control
          rcases Option.map_eq_some_iff.mp found with ⟨later, point, same⟩
          cases same
          exact .character quotes escapes control point
      | lineComment =>
          rw [piece] at found
          split at found
          · rename_i ends
            cases found
            exact ends ▸ .lineEnd
          rename_i ends
          rcases Option.map_eq_some_iff.mp found with ⟨later, point, same⟩
          cases same
          exact .lineText ends point
      | blockComment depth =>
          rw [piece] at found
          split at found
          · rename_i both
            cases found
            rw [both.1, tail_of_head both.2]
            exact .nested
          rename_i opens
          split at found
          · rename_i both
            cases found
            rw [both.1, tail_of_head both.2]
            exact .nestedEnd
          rename_i closes
          rcases Option.map_eq_some_iff.mp found with ⟨later, point, same⟩
          cases same
          exact .commentText opens closes point

/-- A piece consists of code points. -/
theorem IsPiece.points {mode next : Mode} {text rest : List UInt8}
    (isPiece : IsPiece mode text next rest) : Points text rest := by
  cases isPiece with
  | openString | closeString | lineEnd | lpar => exact .ascii (by decide) _
  | openComment | lineComment | nested | nestedEnd =>
      exact (Points.ascii (by decide) _).trans (.ascii (by decide) _)
  | plain _ _ _ small => exact .ascii small _
  | escape found => exact (Points.ascii (by decide) _).trans (afterEscape_points found)
  | character _ _ _ found | lineText _ found | commentText _ _ found => exact .step found .stop

theorem Reads.points {mode last : Mode} {text tail : List UInt8}
    (reads : Reads mode text last tail) : Points text tail := by
  induction reads with
  | stop => exact .stop
  | step found _ inductionHypothesis => exact (isPiece_of_piece found).points.trans inductionHypothesis

/-- The bytes of a code point, as numbers. -/
theorem isCodePoint_ranges {a : UInt8} {word : List UInt8} (isWord : isCodePoint (a :: word) = true) :
    (word = [] ∧ a.toNat < 0x80) ∨
    (∃ b, word = [b] ∧ 0xc2 ≤ a.toNat ∧ a.toNat < 0xe0 ∧ Utf8.Continuation b.toNat) ∨
    (∃ b c, word = [b, c] ∧ 0xe0 ≤ a.toNat ∧ a.toNat < 0xf0 ∧ Utf8.Continuation b.toNat ∧
      Utf8.Continuation c.toNat ∧ (a.toNat = 0xe0 -> 0xa0 ≤ b.toNat)) ∨
    (∃ b c d, word = [b, c, d] ∧ 0xf0 ≤ a.toNat ∧ a.toNat < 0xf5 ∧ Utf8.Continuation b.toNat ∧
      Utf8.Continuation c.toNat ∧ Utf8.Continuation d.toNat ∧
      (a.toNat = 0xf0 -> 0x90 ≤ b.toNat) ∧ (a.toNat = 0xf4 -> b.toNat < 0x90)) := by
  have continuation {b : UInt8} (isNext : isContinuation b = true) :
      Utf8.Continuation b.toNat := by
    simp only [isContinuation, Bool.and_eq_true, decide_eq_true_eq, UInt8.le_iff_toNat_le,
      UInt8.lt_iff_toNat_lt] at isNext
    exact isNext
  rcases word with _ | ⟨b, _ | ⟨c, _ | ⟨d, _ | ⟨e, word⟩⟩⟩⟩
  case cons.cons.cons.cons => cases isWord
  case nil => exact .inl ⟨rfl, UInt8.lt_iff_toNat_lt.mp (of_decide_eq_true isWord)⟩
  case cons.nil =>
    simp only [isCodePoint, Bool.and_eq_true, decide_eq_true_eq, UInt8.le_iff_toNat_le,
      UInt8.lt_iff_toNat_lt] at isWord
    exact .inr (.inl ⟨b, rfl, isWord.1.1, isWord.1.2, continuation isWord.2⟩)
  case cons.cons.nil =>
    simp only [isCodePoint, Bool.and_eq_true, Bool.or_eq_true, bne_iff_ne, decide_eq_true_eq,
      UInt8.le_iff_toNat_le, UInt8.lt_iff_toNat_lt, ne_eq, ← UInt8.toNat_inj] at isWord
    exact .inr (.inr (.inl ⟨b, c, rfl, isWord.1.1.1.1, isWord.1.1.1.2, continuation isWord.1.1.2,
      continuation isWord.1.2, isWord.2.resolve_left ∘ not_not.mpr⟩))
  case cons.cons.cons.nil =>
    simp only [isCodePoint, Bool.and_eq_true, Bool.or_eq_true, bne_iff_ne, decide_eq_true_eq,
      UInt8.le_iff_toNat_le, UInt8.lt_iff_toNat_lt, ne_eq, ← UInt8.toNat_inj] at isWord
    rcases isWord with ⟨⟨⟨⟨⟨⟨high, low⟩, second⟩, third⟩, fourth⟩, overlong⟩, above⟩
    exact .inr (.inr (.inr ⟨b, c, d, rfl, high, low, continuation second, continuation third,
      continuation fourth, overlong.resolve_left ∘ not_not.mpr, above.resolve_left ∘ not_not.mpr⟩))

/-- Without surrogates a code point is that of a character. -/
theorem isCodePoint_isChar {word : List UInt8} (isWord : isCodePoint word = true)
    (plain : Utf8.NoSurrogates (word.map UInt8.toNat)) :
    Utf8.IsChar (word.map UInt8.toNat) := by
  cases word with
  | nil => cases isWord
  | cons a word =>
      rcases isCodePoint_ranges isWord with ⟨rfl, low⟩ | ⟨b, rfl, high, low, second⟩ |
        ⟨b, c, rfl, high, low, second, third, overlong⟩ |
        ⟨b, c, d, rfl, high, low, second, third, fourth, overlong, above⟩
      · exact .one low
      · exact .two high low second
      · exact .three high low second third overlong (List.isChain_cons_cons.mp plain).1
      · exact .four high low second third fourth overlong above

/-- What follows a code point in a well-formed text is well formed. -/
theorem wellFormed_codePoint {word rest : List UInt8} (isWord : isCodePoint word = true)
    (whole : Utf8.WellFormed ((word ++ rest).map UInt8.toNat)) :
    Utf8.WellFormed (rest.map UInt8.toNat) := by
  cases word with
  | nil => cases isWord
  | cons a word =>
      rcases isCodePoint_ranges isWord with ⟨rfl, low⟩ | ⟨b, rfl, high, low, second⟩ |
        ⟨b, c, rfl, high, low, second, third, overlong⟩ |
        ⟨b, c, d, rfl, high, low, second, third, fourth, overlong, above⟩
      · exact (Utf8.wellFormed_one low).mp whole
      · rcases (Utf8.wellFormed_two high low).mp whole with ⟨_, later, same, _, behind⟩
        cases same
        exact behind
      · rcases (Utf8.wellFormed_three high low).mp whole with ⟨_, _, later, same, _, behind⟩
        cases same
        exact behind
      · rcases (Utf8.wellFormed_four high low).mp whole with ⟨_, _, _, later, same, _, behind⟩
        cases same
        exact behind

/-- Code points without surrogates are well formed. -/
theorem Points.wellFormed {text tail : List UInt8} (points : Points text tail)
    (plain : Utf8.NoSurrogates (text.map UInt8.toNat)) (whole : tail = []) :
    Utf8.WellFormed (text.map UInt8.toNat) := by
  induction points with
  | stop =>
      rw [whole]
      exact Utf8.wellFormed_nil
  | step found _ inductionHypothesis =>
      rcases (afterCodePoint_iff _ _).mp found with ⟨word, rfl, isWord⟩
      rw [List.map_append] at plain ⊢
      rcases List.isChain_append.mp plain with ⟨first, later, _⟩
      exact (inductionHypothesis later whole).cons (isCodePoint_isChar isWord first)

theorem Points.not_wellFormed {text tail : List UInt8} {b : UInt8} (points : Points text tail)
    (large : 0x80 ≤ b) (broken : tail = [b]) : ¬Utf8.WellFormed (text.map UInt8.toNat) := by
  induction points with
  | stop =>
      intro whole
      rw [broken] at whole
      rcases Utf8.WellFormed.split whole with ⟨char, later, same, isChar, _⟩
      have high : 0x80 ≤ b.toNat := large
      cases isChar with
      | one low => cases same; omega
      | two _ _ _ | three _ _ _ _ _ _ | four _ _ _ _ _ _ _ => cases same
  | step found _ inductionHypothesis =>
      rcases (afterCodePoint_iff _ _).mp found with ⟨word, rfl, isWord⟩
      exact fun whole => inductionHypothesis broken (wellFormed_codePoint isWord whole)

/-! ## Places -/

/-- From one place and text on it is as from another. -/
structure Same (place : Place) (text : List UInt8) (next : Place) (rest : List UInt8) : Prop where
  opens : opensString place text ↔ opensString next rest
  ends : endMode place text = endMode next rest

theorem Same.trans {first second third : Place} {text middle rest : List UInt8}
    (one : Same first text second middle) (two : Same second middle third rest) :
    Same first text third rest :=
  ⟨one.opens.trans two.opens, one.ends.trans two.ends⟩

theorem Same.byte (place : Place) {c : UInt8} (within : place.mode ≠ .string ∨ c ≠ newline)
    (rest : List UInt8) : Same place (c :: rest) (place.next c) rest := by
  refine ⟨or_iff_right ?_, rfl⟩
  rintro ⟨isString, isNewline⟩
  rcases within with other | other
  · exact other isString
  · exact other isNewline

/-- The place behaves as its mode does. -/
structure Agrees (place : Place) (mode : Mode) (text : List UInt8) : Prop where
  mode_eq : place.mode = mode
  next_eq : forall c rest, text = c :: rest -> place.next c = mode.place.next c

theorem agrees_place (mode : Mode) (text : List UInt8) : Agrees mode.place mode text :=
  ⟨by cases mode <;> rfl, fun _ _ _ => rfl⟩

theorem Agrees.byte {place : Place} {mode : Mode} {c : UInt8} {rest : List UInt8}
    (agrees : Agrees place mode (c :: rest)) (within : mode ≠ .string ∨ c ≠ newline) :
    Same place (c :: rest) (mode.place.next c) rest := by
  have first := Same.byte place (agrees.mode_eq.symm ▸ within) rest
  rw [agrees.next_eq c rest rfl] at first
  exact first

theorem Agrees.base {place : Place} {mode : Mode} {c : UInt8} {rest : List UInt8}
    (agrees : Agrees place mode (c :: rest)) :
    Same place (c :: rest) mode.place (c :: rest) := by
  have next := agrees.next_eq c rest rfl
  have modes : place.mode = mode.place.mode :=
    agrees.mode_eq.trans (agrees_place mode (c :: rest)).mode_eq.symm
  exact ⟨by rw [opensString, opensString, next, modes], by rw [endMode, endMode,
    List.foldl_cons, List.foldl_cons, next]⟩

theorem not_ascii {b c : UInt8} (large : 0x80 ≤ b.toNat) (small : c < 0x80) : b ≠ c := by
  rintro rfl
  exact absurd small (UInt8.not_lt.mpr large)

theorem not_newline {b : UInt8} (large : 0x80 ≤ b.toNat) : b ≠ newline :=
  not_ascii large (by decide)

/-- A code point whose first byte changes nothing. -/
theorem same_codePoint {place : Place} {c : UInt8} {text rest : List UInt8}
    (stays : forall b : UInt8, 0x80 ≤ b.toNat -> place.next b = place)
    (first : place.next c = place) (within : place.mode ≠ .string ∨ c ≠ newline)
    (found : afterCodePoint (c :: text) = some rest) : Same place (c :: text) place rest := by
  have pass {b : UInt8} {later : List UInt8} (same : place.next b = place)
      (other : place.mode ≠ .string ∨ b ≠ newline) : Same place (b :: later) place later := by
    have step := Same.byte place other later
    rwa [same] at step
  have more {b : UInt8} {later : List UInt8} (isNext : Utf8.Continuation b.toNat) :
      Same place (b :: later) place later :=
    pass (stays b isNext.1) (.inr (not_newline isNext.1))
  rcases (afterCodePoint_iff _ _).mp found with ⟨_ | ⟨a, word⟩, same, isWord⟩
  · cases isWord
  · rw [List.cons_append, List.cons.injEq] at same
    rcases same with ⟨rfl, rfl⟩
    rcases isCodePoint_ranges isWord with ⟨rfl, _⟩ | ⟨b, rfl, _, _, second⟩ |
      ⟨b, d, rfl, _, _, second, third, _⟩ | ⟨b, d, e, rfl, _, _, second, third, fourth, _⟩
    · exact pass first within
    · exact (pass first within).trans (more second)
    · exact (pass first within).trans ((more second).trans (more third))
    · exact (pass first within).trans ((more second).trans ((more third).trans (more fourth)))

theorem same_escape {text rest : List UInt8} (found : afterEscape text = some rest) :
    Same .escape text .string rest := by
  have simple {c : UInt8} (isSimple : isSimpleEscape c = true) : c ≠ newline := by
    rintro rfl
    cases isSimple
  have digit {c : UInt8} (isDigit : isHexdigit c = true) :
      c ≠ newline ∧ c ≠ quote ∧ c ≠ backslash := by
    refine ⟨?_, ?_, ?_⟩ <;>
    · rintro rfl
      cases isDigit
  have after {c : UInt8} {later : List UInt8} (other : c ≠ newline) :
      Same .escape (c :: later) .string later := by
    have step := Same.byte .escape (.inr other) later
    rwa [Place.next, if_neg other] at step
  cases text with
  | nil => cases found
  | cons c text =>
      rw [afterEscape] at found
      split at found
      · rename_i isSimple
        cases found
        exact after (simple isSimple)
      split at found
      · rename_i digits
        rw [Bool.and_eq_true] at digits
        cases found
        cases text with
        | nil => exact absurd digits.2 Bool.false_ne_true
        | cons d text =>
            rcases digit digits.2 with ⟨notNewline, notQuote, notBackslash⟩
            have second := Same.byte .string (.inr notNewline) text
            rw [Place.next, if_neg notQuote, if_neg notBackslash, if_neg notNewline] at second
            exact (after (digit digits.1).1).trans second
      · cases found

theorem IsPiece.places {mode next : Mode} {text rest : List UInt8} {place : Place}
    (isPiece : IsPiece mode text next rest) (agrees : Agrees place mode text) :
    ∃ later, Agrees later next rest ∧ Same place text later rest := by
  cases isPiece with
  | openString => exact ⟨_, agrees_place .string rest, agrees.byte (.inr (by decide))⟩
  | openComment =>
      exact ⟨_, agrees_place (.blockComment 0) rest,
        (agrees.byte (.inr (by decide))).trans (.byte _ (.inr (by decide)) rest)⟩
  | lpar alone =>
      refine ⟨.openParen, ⟨rfl, ?_⟩, agrees.byte (.inr (by decide))⟩
      rintro c later rfl
      exact if_neg fun same => alone (congrArg some same)
  | lineComment =>
      exact ⟨_, agrees_place .lineComment rest,
        (agrees.byte (.inr (by decide))).trans (.byte _ (.inr (by decide)) rest)⟩
  | plain quotes opens comments small =>
      refine ⟨.code, agrees_place .code rest, ?_⟩
      have first := agrees.byte (.inl (by decide))
      rwa [Mode.place, Place.next, nextInCode, if_neg quotes, if_neg opens, if_neg comments]
        at first
  | closeString => exact ⟨_, agrees_place .code rest, agrees.byte (.inr (by decide))⟩
  | escape found =>
      exact ⟨.string, agrees_place .string rest,
        (agrees.byte (.inr (by decide))).trans (same_escape found)⟩
  | @character c later _ quotes escapes control found =>
      have within : c ≠ newline := fun same => control (same ▸ by decide)
      refine ⟨.string, agrees_place .string rest, agrees.base.trans
        (same_codePoint (fun b large => ?_) ?_ (.inr within) found)⟩
      · exact (if_neg (not_ascii large (by decide))).trans
          ((if_neg (not_ascii large (by decide))).trans (if_neg (not_newline large)))
      · exact (if_neg quotes).trans ((if_neg escapes).trans (if_neg within))
  | lineEnd => exact ⟨_, agrees_place .code rest, agrees.byte (.inl (by decide))⟩
  | lineText ends found =>
      refine ⟨.lineComment, agrees_place .lineComment rest, agrees.base.trans
        (same_codePoint (fun b large => ?_) (if_neg ends) (.inr ends) found)⟩
      exact if_neg (not_newline large)
  | nested =>
      exact ⟨_, agrees_place _ rest,
        (agrees.byte (.inr (by decide))).trans (.byte _ (.inr (by decide)) rest)⟩
  | nestedEnd =>
      exact ⟨_, agrees_place _ rest,
        (agrees.byte (.inr (by decide))).trans (.byte _ (.inr (by decide)) rest)⟩
  | @commentText c later _ depth opens closes found =>
      -- a parenthesis or a semicolon waits for what follows it
      by_cases paren : c = Lexer.lpar
      · have whole := afterCodePoint_ascii (c := c) (paren ▸ by decide) later
        rw [whole] at found
        cases found
        refine ⟨.openNested depth, ⟨rfl, ?_⟩, ?_⟩
        · rintro d rest rfl
          exact if_neg fun same => opens ⟨paren, congrArg some same⟩
        · have first := agrees.byte (.inl (by rintro ⟨⟩))
          rwa [Mode.place, Place.next, nextInComment, if_pos paren] at first
      by_cases semi : c = semicolon
      · have whole := afterCodePoint_ascii (c := c) (semi ▸ by decide) later
        rw [whole] at found
        cases found
        refine ⟨.closeNested depth, ⟨rfl, ?_⟩, ?_⟩
        · rintro d rest rfl
          exact if_neg fun same => closes ⟨semi, congrArg some same⟩
        · have first := agrees.byte (.inl (by rintro ⟨⟩))
          rwa [Mode.place, Place.next, nextInComment, if_neg paren, if_pos semi] at first
      refine ⟨.blockComment depth, agrees_place (.blockComment depth) rest, agrees.base.trans
        (same_codePoint (fun b large => ?_) ?_ (.inl (by rintro ⟨⟩)) found)⟩
      · exact (if_neg (not_ascii large (by decide))).trans (if_neg (not_ascii large (by decide)))
      · exact (if_neg paren).trans (if_neg semi)

/-- Pieces leave no string open on the way, and end in the mode that is read. -/
theorem Reads.places {mode last : Mode} {text tail : List UInt8} {place : Place}
    (reads : Reads mode text last tail) (agrees : Agrees place mode text) (whole : tail = []) :
    (opensString place text ↔ last = .string) ∧ endMode place text = last := by
  induction reads generalizing place with
  | stop =>
      rw [whole]
      exact ⟨by rw [opensString, agrees.mode_eq], agrees.mode_eq⟩
  | step found _ inductionHypothesis =>
      rcases (isPiece_of_piece found).places agrees with ⟨later, next, same⟩
      rcases inductionHypothesis next whole with ⟨opens, ends⟩
      exact ⟨same.opens.trans opens, same.ends.trans ends⟩

/-! ## What is reported -/

/-- What is lost are the defects of sources that nothing is reported for. -/
theorem lost_iff (source : List UInt8) : Lost source ↔ Quiet .code source ∧ Defective source := by
  constructor
  · rintro ⟨last, tail, reads, ⟨b, large, broken⟩ | ⟨whole, defect⟩⟩
    · exact ⟨⟨last, tail, reads, .inr ⟨b, large, broken⟩⟩,
        .inl (reads.points.not_wellFormed large broken)⟩
    · refine ⟨⟨last, tail, reads, .inl whole⟩, ?_⟩
      rcases reads.places (agrees_place .code source) whole with ⟨opens, ends⟩
      rcases defect with isString | ⟨depth, isComment⟩ | surrogates
      · exact .inr (.inl (opens.mpr isString))
      · exact .inr (.inr ⟨depth, ends.trans isComment⟩)
      · exact .inl fun wellFormed => surrogates wellFormed.noSurrogates
  · rintro ⟨⟨last, tail, reads, whole | broken⟩, defect⟩
    · refine ⟨last, tail, reads, .inr ⟨whole, ?_⟩⟩
      rcases reads.places (agrees_place .code source) whole with ⟨opens, ends⟩
      rcases defect with malformed | isString | ⟨depth, isComment⟩
      · exact .inr (.inr fun plain => malformed (reads.points.wellFormed plain whole))
      · exact .inl (opens.mp isString)
      · exact .inr (.inl ⟨depth, ends.symm.trans isComment⟩)
    · exact ⟨last, tail, reads, .inl broken⟩

theorem lex_quiet (source : List UInt8) (noise : Nat -> Nat -> UInt8) (demand : Demand)
    (ample : AllAmple source (lex source noise demand).2) :
    ∃ events, (lex source noise demand).1 = some events ∧
      (¬Reports events ↔ Quiet .code source) :=
  ⟨_, lex_lexText source noise demand ample,
    lexText_quiet _ ⟨.i, 0⟩ (fun same => by cases same) source (by omega)⟩

/-- Where every refill is ample, the lexer reports the defects of a source, and
nothing else of defined tokens, exactly if none of them is lost. -/
theorem lexical_errors_iff (source : List UInt8) (noise : Nat -> Nat -> UInt8) (demand : Demand)
    (ample : AllAmple source (lex source noise demand).2) :
    ∃ events, (lex source noise demand).1 = some events ∧
      ((Defective source -> Reports events) ∧
        (¬Defective source -> OnlyTokens source -> ¬Reports events) ↔ ¬Lost source) := by
  rcases lex_quiet source noise demand ample with ⟨events, lexed, quiet⟩
  refine ⟨events, lexed, ?_⟩
  rw [lost_iff, ← quiet]
  constructor
  · rintro ⟨reported, _⟩ ⟨silent, defect⟩
    exact silent (reported defect)
  · intro unlost
    refine ⟨fun defect => ?_, fun _ tokens => ?_⟩
    · by_contra silent
      exact unlost ⟨silent, defect⟩
    · rcases tokens with ⟨last, reads⟩
      exact quiet.mpr ⟨last, [], reads, .inl rfl⟩

/-- One byte is asked for at a time. -/
def bytewise : Demand where
  need _ _ := 1
  positive _ _ := Nat.one_pos
  bounded _ _ := by decide

theorem lexical_errors_iff_token :
    ∃ events, (lex [0x28, 0x29] (fun _size _index => 0) bytewise).1 = some events ∧
      ((Defective [0x28, 0x29] -> Reports events) ∧
        (¬Defective [0x28, 0x29] -> OnlyTokens [0x28, 0x29] -> ¬Reports events) ↔
          ¬Lost [0x28, 0x29]) :=
  lexical_errors_iff [0x28, 0x29] (fun _size _index => 0) bytewise (lex_ample _ _ _ (by decide))

/-- A block comment and a string that the source ends in, and a malformed byte that
is its last, are not reported. -/
theorem defects_lost :
    (∃ events, (lex [0x28, 0x3b] (fun _size _index => 0) bytewise).1 = some events ∧
      UnterminatedComment [0x28, 0x3b] ∧ ¬Reports events) ∧
    (∃ events, (lex [0x22, 0x61] (fun _size _index => 0) bytewise).1 = some events ∧
      UnterminatedString [0x22, 0x61] ∧ ¬Reports events) ∧
    (∃ events, (lex [0x61, 0x80] (fun _size _index => 0) bytewise).1 = some events ∧
      MalformedUtf8 [0x61, 0x80] ∧ ¬Reports events) := by
  have silent (source : List UInt8) (short : source.length + maxFill < initialLexerBufferSize)
      (quiet : Quiet .code source) :
      ∃ events, (lex source (fun _size _index => 0) bytewise).1 = some events ∧
        ¬Reports events := by
    rcases lex_quiet source _ bytewise (lex_ample source _ bytewise short) with
      ⟨events, lexed, iff⟩
    exact ⟨events, lexed, iff.mpr quiet⟩
  have last : Reads .code [0x61, 0x80] .code [0x80] := .step rfl .stop
  refine ⟨?_, ?_, ?_⟩
  · rcases silent [0x28, 0x3b] (by decide) ⟨_, [], .step rfl .stop, .inl rfl⟩ with
      ⟨events, lexed, nothing⟩
    exact ⟨events, lexed, ⟨0, rfl⟩, nothing⟩
  · rcases silent [0x22, 0x61] (by decide) ⟨_, [], .step rfl (.step rfl .stop), .inl rfl⟩ with
      ⟨events, lexed, nothing⟩
    exact ⟨events, lexed, .inr (.inr rfl), nothing⟩
  · rcases silent [0x61, 0x80] (by decide) ⟨_, _, last, .inr ⟨0x80, by decide, rfl⟩⟩ with
      ⟨events, lexed, nothing⟩
    exact ⟨events, lexed, last.points.not_wellFormed (b := 0x80) (by decide) rfl, nothing⟩

end Lexer
end Text
end WasmSandboxing
