import WasmSandboxing.Text.Lexer
import WasmSandboxing.Text.SourceText

namespace WasmSandboxing
namespace Text
namespace Lexer

/-!
# Rounds and pieces

A round takes some pieces of the source, or reports an error, or comes upon a
byte that is no character.
-/

/-! ## The automaton in the source -/

/-- The search goes on in a state that has been reached. -/
def arrive (state : State) (text : List UInt8) (count : Nat) (best : Option (Rule × Nat)) :
    Option (Rule × Nat) :=
  let best := (state.rule.map fun rule => (rule, count)).or best
  if state.final then best else longest state text count best

theorem longest_next {state next : State} {c : UInt8} (stepped : state.next c = some next)
    (rest : List UInt8) (count : Nat) (best : Option (Rule × Nat)) :
    longest state (c :: rest) count best = arrive next rest (count + 1) best := by
  rw [longest, stepped, arrive]

theorem longest_stuck {state : State} {c : UInt8} (stuck : state.next c = none)
    (rest : List UInt8) (count : Nat) (best : Option (Rule × Nat)) :
    longest state (c :: rest) count best = best := by
  rw [longest, stuck]

theorem arrive_matched (rule : Rule) (text : List UInt8) (count : Nat)
    (best : Option (Rule × Nat)) : arrive (.matched rule) text count best = some (rule, count) :=
  rfl

section

variable {state after : State} {c : UInt8} {rest : List UInt8} {count : Nat}
  {best : Option (Rule × Nat)}

/-- A text begins with the other bytes of a code point. -/
def completes : Follow -> Nat -> List UInt8 -> Bool
  | _, _, [] => false
  | follow, 0, b :: _ => follow.contains b
  | follow, count + 1, b :: rest => follow.contains b && completes .any count rest

theorem longest_more (after : State) (follow : Follow) (others : Nat) (text : List UInt8)
    (count : Nat) (best : Option (Rule × Nat)) :
    longest (.more after follow others) text count best =
      if completes follow others text then
        arrive after (text.drop (others + 1)) (count + (others + 1)) best
      else best := by
  induction others generalizing follow text count with
  | zero =>
      cases text with
      | nil => rfl
      | cons b rest =>
          by_cases isFollow : follow.contains b
          · have stepped : (State.more after follow 0).next b = some after := by
              rw [State.next, if_pos isFollow]
            rw [longest_next stepped, completes, if_pos isFollow]
            rfl
          · have stuck : (State.more after follow 0).next b = none := by
              rw [State.next, if_neg isFollow]
            rw [longest_stuck stuck, completes, if_neg isFollow]
  | succ others inductionHypothesis =>
      cases text with
      | nil => rfl
      | cons b rest =>
          by_cases isFollow : follow.contains b
          · have stepped : (State.more after follow (others + 1)).next b =
                some (.more after .any others) := by
              rw [State.next, if_pos isFollow]
            rw [longest_next stepped, completes, isFollow, Bool.true_and]
            refine (inductionHypothesis .any rest (count + 1)).trans ?_
            rw [List.drop_succ_cons, Nat.add_assoc, Nat.add_comm 1]
          · have stuck : (State.more after follow (others + 1)).next b = none := by
              rw [State.next, if_neg isFollow]
            rw [longest_stuck stuck, completes, Bool.eq_false_iff.mpr isFollow, Bool.false_and]
            rfl

theorem longest_lead {follow : Follow} {others : Nat}
    (starts : state.next c = some (.more after follow others))
    (length : codePointLength c = others + 2)
    (same : isCodePoint ((c :: rest).take (others + 2)) = completes follow others rest) :
    longest state (c :: rest) count best =
      if isCodePoint ((c :: rest).take (codePointLength c)) then
        arrive after ((c :: rest).drop (codePointLength c)) (count + codePointLength c) best
      else best := by
  rw [longest_next starts, length, same]
  refine (longest_more after follow others rest (count + 1) best).trans ?_
  rw [List.drop_succ_cons, Nat.add_assoc, Nat.add_comm 1]

theorem isCodePoint_two (high : 0xc2 ≤ c) (low : c < 0xe0) :
    isCodePoint ((c :: rest).take 2) = completes .any 0 rest := by
  rcases rest with _ | ⟨b, rest⟩
  · grind [isCodePoint, completes]
  · grind [isCodePoint, completes, Follow.contains, isContinuation]

theorem isCodePoint_three {follow : Follow} (high : 0xe0 ≤ c) (low : c < 0xf0)
    (follows : forall b, follow.contains b = (isContinuation b && (c != 0xe0 || 0xa0 ≤ b))) :
    isCodePoint ((c :: rest).take 3) = completes follow 1 rest := by
  rcases rest with _ | ⟨b, _ | ⟨d, rest⟩⟩
  · grind [isCodePoint, completes]
  · grind [isCodePoint, completes]
  · simp only [completes, follows]
    grind [isCodePoint, Follow.contains, isContinuation]

theorem isCodePoint_four {follow : Follow} (high : 0xf0 ≤ c) (low : c < 0xf5)
    (follows : forall b, follow.contains b =
      (isContinuation b && (c != 0xf0 || 0x90 ≤ b) && (c != 0xf4 || b < 0x90))) :
    isCodePoint ((c :: rest).take 4) = completes follow 2 rest := by
  rcases rest with _ | ⟨b, _ | ⟨d, _ | ⟨e, rest⟩⟩⟩
  · grind [isCodePoint, completes]
  · grind [isCodePoint, completes]
  · grind [isCodePoint, completes]
  · simp only [completes, follows]
    grind [isCodePoint, Follow.contains, isContinuation]

/-- The automaton goes over a code point, and stops within any other sequence. -/
theorem longest_codePoint (starts : state.next c = codePoint after c) :
    longest state (c :: rest) count best =
      if isCodePoint ((c :: rest).take (codePointLength c)) then
        arrive after ((c :: rest).drop (codePointLength c)) (count + codePointLength c) best
      else best := by
  unfold codePoint at starts
  split at starts
  · rename_i small
    rw [longest_next starts, codePointLength, if_pos small]
    exact (if_pos (decide_eq_true small)).symm
  split at starts
  · have broken : isCodePoint ((c :: rest).take (codePointLength c)) = false := by
      cases rest <;> grind [isCodePoint, codePointLength]
    rw [longest_stuck starts, broken]
    rfl
  split at starts
  · exact longest_lead starts (by grind [codePointLength]) (isCodePoint_two (by grind) (by grind))
  split at starts
  · refine longest_lead starts (by grind [codePointLength])
      (isCodePoint_three (by grind) (by grind) fun b => ?_)
    grind [Follow.contains, isContinuation]
  split at starts
  · refine longest_lead starts (by grind [codePointLength])
      (isCodePoint_three (by grind) (by grind) fun b => ?_)
    grind [Follow.contains, isContinuation]
  split at starts
  · refine longest_lead starts (by grind [codePointLength])
      (isCodePoint_four (by grind) (by grind) fun b => ?_)
    grind [Follow.contains, isContinuation]
  split at starts
  · refine longest_lead starts (by grind [codePointLength])
      (isCodePoint_four (by grind) (by grind) fun b => ?_)
    grind [Follow.contains, isContinuation]
  split at starts
  · refine longest_lead starts (by grind [codePointLength])
      (isCodePoint_four (by grind) (by grind) fun b => ?_)
    grind [Follow.contains, isContinuation]
  · have length : codePointLength c = 4 := by grind [codePointLength]
    have broken : isCodePoint ((c :: rest).take (codePointLength c)) = false := by
      rw [length]
      rcases rest with _ | ⟨b, _ | ⟨d, _ | ⟨e, rest⟩⟩⟩ <;>
        simp only [List.take_succ_cons, List.take_zero, List.take_nil, isCodePoint] <;> grind
    rw [longest_stuck starts, broken]
    rfl

end

/-! ## In front of the padding -/

/-- Some pieces are passed. -/
structure Advances (mode next : Mode) (text : List UInt8) (count : Nat) : Prop where
  inside : count ≤ text.length
  quiet : Quiet mode text ↔ Quiet next (text.drop count)

theorem Advances.refl (mode : Mode) (text : List UInt8) : Advances mode mode text 0 :=
  ⟨Nat.zero_le _, Iff.rfl⟩

theorem Advances.trans {mode middle next : Mode} {text : List UInt8} {count more : Nat}
    (first : Advances mode middle text count) (later : Advances middle next (text.drop count) more) :
    Advances mode next text (count + more) := by
  have inside := later.inside
  have before := first.inside
  rw [List.length_drop] at inside
  refine ⟨by omega, first.quiet.trans (later.quiet.trans ?_)⟩
  rw [List.drop_drop]

theorem Advances.piece {mode next : Mode} {text : List UInt8} {count : Nat}
    (inside : count ≤ text.length) (found : piece mode text = some (next, text.drop count)) :
    Advances mode next text count :=
  ⟨inside, quiet_piece found⟩

theorem isCodePoint_small {word : List UInt8} (isWord : isCodePoint word = true) :
    forall c, c ∈ word -> c < 0xf5 := by
  rcases word with _ | ⟨a, _ | ⟨b, _ | ⟨c, _ | ⟨d, _ | ⟨e, word⟩⟩⟩⟩⟩
  case cons.cons.cons.cons.cons => cases isWord
  all_goals
    simp only [isCodePoint, isContinuation, Bool.and_eq_true, decide_eq_true_eq] at isWord
    simp only [List.mem_cons, List.not_mem_nil, or_false]
    grind

/-- A code point that the padding follows ends in front of it. -/
theorem afterCodePoint_padded (text : List UInt8) :
    afterCodePoint (text ++ padding) = (afterCodePoint text).map (· ++ padding) := by
  cases found : afterCodePoint text with
  | some rest =>
      rcases (afterCodePoint_iff _ _).mp found with ⟨word, rfl, isWord⟩
      exact (afterCodePoint_iff _ _).mpr ⟨word, List.append_assoc .., isWord⟩
  | none =>
      cases padded : afterCodePoint (text ++ padding) with
      | none => rfl
      | some rest =>
          rcases (afterCodePoint_iff _ _).mp padded with ⟨word, same, isWord⟩
          rcases List.append_eq_append_iff.mp same with ⟨later, rfl, fake⟩ | ⟨later, rfl, _⟩
          · cases later with
            | nil =>
                rw [List.append_nil] at isWord
                have own := (afterCodePoint_iff text []).mpr ⟨text, (List.append_nil _).symm, isWord⟩
                rw [found] at own
                cases own
            | cons c later =>
                have padded : c ∈ padding := fake ▸ List.mem_cons_self
                have small := isCodePoint_small isWord c
                  (List.mem_append_right _ List.mem_cons_self)
                rw [List.eq_of_mem_replicate padded] at small
                exact absurd small (by decide)
          · have own := (afterCodePoint_iff (word ++ later) later).mpr ⟨word, rfl, isWord⟩
            rw [found] at own
            cases own

theorem afterCodePoint_drop {text rest : List UInt8} (found : afterCodePoint text = some rest) :
    rest = text.drop (text.length - rest.length) := by
  rcases (afterCodePoint_iff _ _).mp found with ⟨word, rfl, isWord⟩
  rw [List.length_append, Nat.add_sub_cancel, List.drop_left]

section

variable {state after : State} {c : UInt8} {text rest : List UInt8} {count : Nat}
  {best : Option (Rule × Nat)}

theorem longest_passes (starts : state.next c = codePoint after c)
    (found : afterCodePoint (c :: text) = some rest) :
    longest state (c :: text ++ padding) count best =
      arrive after (rest ++ padding) (count + ((c :: text).length - rest.length)) best := by
  rcases (afterCodePoint_iff _ _).mp found with ⟨_ | ⟨d, word⟩, same, isWord⟩
  · cases isWord
  · rw [List.cons_append, List.cons.injEq] at same
    rcases same with ⟨rfl, rfl⟩
    have length := isCodePoint_length isWord
    have whole : c :: (word ++ rest ++ padding) = c :: word ++ (rest ++ padding) := by
      rw [List.cons_append, List.append_assoc]
    have size : (c :: (word ++ rest)).length - rest.length = (c :: word).length := by
      rw [← List.cons_append, List.length_append, Nat.add_sub_cancel]
    rw [List.cons_append, longest_codePoint starts, length, whole, List.take_left, if_pos isWord,
      List.drop_left, size]

theorem longest_breaks (starts : state.next c = codePoint after c)
    (broken : afterCodePoint (c :: text) = none) :
    longest state (c :: text ++ padding) count best = best := by
  have padded := afterCodePoint_padded (c :: text)
  rw [broken, List.cons_append, afterCodePoint] at padded
  rw [List.cons_append, longest_codePoint starts]
  split at padded
  · cases padded
  · rename_i notWord
    rw [if_neg notWord]

end

theorem longest_padding (state : State) (count : Nat) (best : Option (Rule × Nat)) :
    longest state padding count best = best :=
  longest_stuck state.next_padding _ _ _

/-! ## Runs of pieces -/

theorem piece_plain {c : UInt8} (plain : c = newline ∨ c = rpar ∨ isBlank c ∨ isReserved c)
    (text : List UInt8) : piece .code (c :: text) = some (.code, text) := by
  grind [piece, quote, lpar, rpar, semicolon, newline, isBlank, isReserved]

/-- A run of single bytes, such as a word. -/
theorem longest_run (state : State) {rule : Rule} {isMember : UInt8 -> Bool}
    (goesOn : forall c, state.next c = if isMember c then some state else none)
    (accepts : state.rule = some rule) (open_ : state.final = false)
    (plain : forall c, isMember c = true -> isBlank c ∨ isReserved c)
    (text : List UInt8) (count : Nat) :
    ∃ more, longest state (text ++ padding) count (some (rule, count)) =
        some (rule, count + more) ∧ Advances .code .code text more := by
  induction text generalizing count with
  | nil => exact ⟨0, longest_padding state count _, .refl _ _⟩
  | cons c text inductionHypothesis =>
      by_cases member : isMember c
      · have stepped : state.next c = some state := by rw [goesOn, if_pos member]
        rcases inductionHypothesis (count + 1) with ⟨more, found, advances⟩
        refine ⟨1 + more, ?_, .trans (.piece (Nat.succ_le_succ (Nat.zero_le _)) ?_) advances⟩
        · rw [List.cons_append, longest_next stepped, arrive, accepts, open_, ← Nat.add_assoc]
          exact found
        · exact piece_plain (.inr (.inr (plain c member))) text
      · have stuck : state.next c = none := by rw [goesOn, if_neg member]
        exact ⟨0, longest_stuck stuck _ _ _, .refl _ _⟩

/-- A code point that is a piece, and what is read behind it. -/
theorem Advances.codePoint {mode next : Mode} {c : UInt8} {text rest : List UInt8} {more : Nat}
    (found : afterCodePoint (c :: text) = some rest)
    (isPiece : Lexer.piece mode (c :: text) = some (mode, rest))
    (later : Advances mode next rest more) :
    Advances mode next (c :: text) ((c :: text).length - rest.length + more) := by
  have suffix := afterCodePoint_drop found
  have first : Advances mode mode (c :: text) ((c :: text).length - rest.length) :=
    .piece (Nat.sub_le _ _) (suffix ▸ isPiece)
  exact first.trans (suffix ▸ later)

/-- The text of a line comment. -/
theorem longest_line (text : List UInt8) (count : Nat) :
    ∃ more, longest .lineCommentText (text ++ padding) count (some (.lineCommentText, count)) =
        some (.lineCommentText, count + more) ∧ Advances .lineComment .lineComment text more := by
  induction size : text.length using Nat.strong_induction_on generalizing text count with
  | h size inductionHypothesis =>
      cases text with
      | nil => exact ⟨0, longest_padding _ count _, .refl _ _⟩
      | cons c text =>
          by_cases ends : c = newline
          · have stuck : State.lineCommentText.next c = none := by rw [State.next, if_pos ends]
            exact ⟨0, longest_stuck stuck _ _ _, .refl _ _⟩
          · have starts : State.lineCommentText.next c = codePoint .lineCommentText c := by
              rw [State.next, if_neg ends]
            cases found : afterCodePoint (c :: text) with
            | none => exact ⟨0, longest_breaks starts found, .refl _ _⟩
            | some rest =>
                have shorter := afterCodePoint_length found
                rcases inductionHypothesis rest.length (size ▸ shorter) rest
                  (count + ((c :: text).length - rest.length)) rfl with ⟨more, ran, advances⟩
                refine ⟨(c :: text).length - rest.length + more, ?_, advances.codePoint found ?_⟩
                · rw [longest_passes starts found, ← Nat.add_assoc]
                  exact ran
                · rw [Lexer.piece, if_neg ends, found]
                  rfl

theorem longest_escape (text : List UInt8) (count : Nat) (best : Option (Rule × Nat)) :
    (afterEscape text = none ∧ longest .textEscape (text ++ padding) count best = best) ∨
      ∃ length, length ≤ text.length ∧ 0 < length ∧
        afterEscape text = some (text.drop length) ∧
        longest .textEscape (text ++ padding) count best =
          longest .text (text.drop length ++ padding) (count + length) best := by
  rcases text with _ | ⟨d, text⟩
  · exact .inl ⟨rfl, longest_padding _ count best⟩
  by_cases simple : isSimpleEscape d
  · have stepped : State.textEscape.next d = some .text := by rw [State.next, if_pos simple]
    refine .inr ⟨1, Nat.succ_le_succ (Nat.zero_le _), Nat.one_pos, ?_, longest_next stepped _ _ _⟩
    rw [afterEscape, if_pos simple]
    rfl
  by_cases high : isHexdigit d
  case neg =>
    have stuck : State.textEscape.next d = none := by
      rw [State.next, if_neg simple, if_neg high]
    refine .inl ⟨?_, longest_stuck stuck _ _ _⟩
    rw [afterEscape, if_neg simple, Bool.eq_false_iff.mpr high]
    rfl
  have stepped : State.textEscape.next d = some .textHex := by
    rw [State.next, if_neg simple, if_pos high]
  rw [List.cons_append, longest_next stepped, afterEscape, if_neg simple, high, Bool.true_and]
  change _ ∧ longest .textHex (text ++ padding) (count + 1) best = best ∨ ∃ length, _ ∧ _ ∧ _ ∧
    longest .textHex (text ++ padding) (count + 1) best = _
  rcases text with _ | ⟨e, text⟩
  · exact .inl ⟨rfl, longest_padding _ _ best⟩
  by_cases low : isHexdigit e
  · have stepped : State.textHex.next e = some .text := by rw [State.next, if_pos low]
    refine .inr ⟨2, Nat.succ_le_succ (Nat.succ_le_succ (Nat.zero_le _)), Nat.two_pos, ?_,
      longest_next stepped _ _ _⟩
    exact if_pos low
  · have stuck : State.textHex.next e = none := by rw [State.next, if_neg low]
    exact .inl ⟨if_neg low, longest_stuck stuck _ _ _⟩

/-- The search for the end of a string: nothing is matched before it. -/
def TextSearch (text : List UInt8) (count : Nat) (best found : Option (Rule × Nat)) : Prop :=
  found = best ∨ ∃ more, found = some (.text, count + more) ∧ Advances .string .code text more

theorem TextSearch.character {text : List UInt8} {count length : Nat}
    {best found : Option (Rule × Nat)} (advances : Advances .string .string text length)
    (later : TextSearch (text.drop length) (count + length) best found) :
    TextSearch text count best found := by
  rcases later with same | ⟨more, same, ends⟩
  · exact .inl same
  · exact .inr ⟨length + more, by rw [same, Nat.add_assoc], advances.trans ends⟩

/-- A text that is closed is taken as a whole. -/
theorem longest_text (state : State) (reads : forall c, state.next c = textNext c)
    (text : List UInt8) (count : Nat) (best : Option (Rule × Nat)) :
    TextSearch text count best (longest state (text ++ padding) count best) := by
  induction size : text.length using Nat.strong_induction_on
      generalizing state text count best with
  | h size inductionHypothesis =>
      have goOn (rest : List UInt8) (shorter : rest.length < text.length) (count : Nat) :=
        inductionHypothesis rest.length (size ▸ shorter) .text (fun _ => rfl) rest count best rfl
      cases text with
      | nil => exact .inl (longest_padding state count best)
      | cons c text =>
          by_cases closes : c = quote
          · have stepped : state.next c = some (.matched .text) := by
              rw [reads, textNext, if_pos closes]
            refine .inr ⟨1, longest_next stepped _ _ _, .piece (Nat.succ_le_succ (Nat.zero_le _)) ?_⟩
            rw [piece, if_pos closes]
            rfl
          by_cases escapes : c = backslash
          · have stepped : state.next c = some .textEscape := by
              rw [reads, textNext, if_neg closes, if_pos escapes]
            have isPiece : piece .string (c :: text) = (afterEscape text).map (.string, ·) := by
              rw [piece, if_neg closes, if_pos escapes]
            rw [List.cons_append, longest_next stepped]
            change TextSearch _ _ _ (longest .textEscape (text ++ padding) (count + 1) best)
            rcases longest_escape text (count + 1) best with
              ⟨_, stays⟩ | ⟨length, inside, positive, escape, goes⟩
            · exact .inl stays
            · rw [escape] at isPiece
              rw [goes, Nat.add_assoc, Nat.add_comm 1]
              refine .character (.piece (Nat.succ_le_succ inside) isPiece) ?_
              refine goOn _ ?_ _
              rw [List.length_drop, List.length_cons]
              omega
          by_cases control : c < 0x20
          · have stuck : state.next c = none := by
              rw [reads, textNext, if_neg closes, if_neg escapes, if_pos control]
            exact .inl (longest_stuck stuck _ _ _)
          have starts : state.next c = codePoint .text c := by
            rw [reads, textNext, if_neg closes, if_neg escapes, if_neg control]
          cases found : afterCodePoint (c :: text) with
          | none => exact .inl (longest_breaks starts found)
          | some rest =>
              have isPiece : piece .string (c :: text) = some (.string, rest) := by
                rw [piece, if_neg closes, if_neg escapes, if_neg control, found]
                rfl
              have suffix := afterCodePoint_drop found
              rw [longest_passes starts found]
              refine .character (.piece (Nat.sub_le _ _) (suffix ▸ isPiece)) ?_
              rw [← suffix]
              exact goOn rest (afterCodePoint_length found) _

/-! ## Rounds -/

/-- An error is reported. -/
def Reports (events : List Event) : Prop := ∃ error, Event.error error ∈ events

/-- Where the scanner is. -/
def Scanning.mode (scanning : Scanning) : Mode :=
  match scanning.condition with
  | .i => .code
  | .badText => .string
  | .lineComment => .lineComment
  | .blockComment => .blockComment (scanning.nesting - 1)

/-- Block comments are counted. -/
def Scanning.Nested (scanning : Scanning) : Prop :=
  scanning.condition = .blockComment -> 0 < scanning.nesting

/-- What a round comes to: pieces are passed, an error is reported that keeps the
source from being quiet, or a byte is met that is no character. -/
inductive Round (scanning : Scanning) (text : List UInt8) : Rule × Nat -> Prop
  | passes {rule : Rule} {length : Nat} {next : Scanning} :
      (forall atEnd lexeme, ∃ events, rule.act atEnd lexeme scanning = (events, next) ∧
        ¬Reports events) ->
      next.Nested -> Advances scanning.mode next.mode text length -> Round scanning text (rule, length)
  | reports {rule : Rule} {length : Nat} :
      (forall atEnd lexeme, Reports (rule.act atEnd lexeme scanning).1) ->
      ¬Quiet scanning.mode text -> Round scanning text (rule, length)
  | breaks {b : UInt8} {rest : List UInt8} :
      text = b :: rest -> 0x80 ≤ b -> piece scanning.mode text = none ->
      Round scanning text (.malformed, 1)

theorem not_reports_nil : ¬Reports [] := fun ⟨_, member⟩ => List.not_mem_nil member

theorem not_reports_token (token : Token) : ¬Reports [.token token] := by
  rintro ⟨error, member⟩
  cases List.mem_singleton.mp member

theorem reports_error (error : Error) : Reports [.error error] :=
  ⟨error, List.mem_singleton.mpr rfl⟩

theorem silent {rule : Rule} {scanning next : Scanning}
    (acts : forall atEnd lexeme, rule.act atEnd lexeme scanning = ([], next)) :
    forall atEnd lexeme, ∃ events, rule.act atEnd lexeme scanning = (events, next) ∧
      ¬Reports events :=
  fun atEnd lexeme => ⟨[], acts atEnd lexeme, not_reports_nil⟩

theorem tokens {rule : Rule} {scanning next : Scanning} {token : List UInt8 -> Token}
    (acts : forall atEnd lexeme, rule.act atEnd lexeme scanning = ([.token (token lexeme)], next)) :
    forall atEnd lexeme, ∃ events, rule.act atEnd lexeme scanning = (events, next) ∧
      ¬Reports events :=
  fun atEnd lexeme => ⟨_, acts atEnd lexeme, not_reports_token _⟩

theorem not_quiet {mode : Mode} {c : UInt8} {text : List UInt8}
    (stuck : piece mode (c :: text) = none) (ascii : c < 0x80 ∨ text ≠ []) :
    ¬Quiet mode (c :: text) := by
  rw [quiet_stuck stuck]
  rintro (none | ⟨b, large, same⟩)
  · cases none
  · cases same
    rcases ascii with small | more
    · exact UInt8.not_lt.mpr large small
    · exact more rfl

theorem scan_eq {condition : Condition} {text : List UInt8} {best : Option (Rule × Nat)}
    (found : longest (.start condition) text 0 none = best) :
    scan condition text = best.getD (.malformed, 1) := by
  rw [scan, found]

section

variable {nesting : Nat} {c : UInt8} {text : List UInt8}

theorem round_lineComment :
    Round ⟨.lineComment, nesting⟩ (c :: text) (scan .lineComment (c :: text ++ padding)) := by
  by_cases ends : c = newline
  · have stepped : (State.start .lineComment).next c = some (.matched .lineCommentEnd) := by
      rw [State.next, startNext, if_pos ends]
    rw [List.cons_append, scan_eq (longest_next stepped _ _ _)]
    refine .passes (silent fun _ _ => rfl) (fun same => by cases same)
      (.piece (Nat.succ_le_succ (Nat.zero_le _)) ?_)
    exact if_pos ends
  have starts : (State.start .lineComment).next c = codePoint .lineCommentText c := by
    rw [State.next, startNext, if_neg ends]
  have isPiece : piece .lineComment (c :: text) =
      (afterCodePoint (c :: text)).map (.lineComment, ·) := if_neg ends
  cases found : afterCodePoint (c :: text) with
  | none =>
      rw [found] at isPiece
      rw [scan_eq (longest_breaks starts found)]
      refine .breaks rfl ?_ isPiece
      by_contra small
      rw [afterCodePoint_ascii (UInt8.not_le.mp small)] at found
      cases found
  | some rest =>
      rw [found] at isPiece
      rcases longest_line rest ((c :: text).length - rest.length) with ⟨more, ran, advances⟩
      have whole : longest (.start .lineComment) (c :: text ++ padding) 0 none =
          some (.lineCommentText, (c :: text).length - rest.length + more) := by
        rw [longest_passes starts found, Nat.zero_add]
        exact ran
      rw [scan_eq whole]
      exact .passes (silent fun _ _ => rfl) (fun same => by cases same)
        (advances.codePoint found isPiece)

/-- What one code point of its own comes to. -/
theorem scan_codePoint (text : List UInt8) {condition : Condition} {rule : Rule}
    (starts : (State.start condition).next c = codePoint (.matched rule) c) :
    (∃ rest, afterCodePoint (c :: text) = some rest ∧
      scan condition (c :: text ++ padding) = (rule, (c :: text).length - rest.length)) ∨
    (afterCodePoint (c :: text) = none ∧ 0x80 ≤ c ∧
      scan condition (c :: text ++ padding) = (.malformed, 1)) := by
  cases found : afterCodePoint (c :: text) with
  | none =>
      refine .inr ⟨rfl, ?_, scan_eq (longest_breaks starts found)⟩
      by_contra small
      rw [afterCodePoint_ascii (UInt8.not_le.mp small)] at found
      cases found
  | some rest =>
      refine .inl ⟨rest, rfl, ?_⟩
      rw [scan_eq (longest_passes starts found), Nat.zero_add]
      rfl

/-- A byte that another one makes a longer lexeme with. -/
theorem scan_pair (text : List UInt8) {condition : Condition} {state : State} {second : UInt8} {one two : Rule}
    (stepped : (State.start condition).next c = some state) (accepts : state.rule = some one)
    (notFinal : state.final = false)
    (goesOn : forall d, state.next d = if d = second then some (.matched two) else none) :
    (text.head? = some second ∧ scan condition (c :: text ++ padding) = (two, 2)) ∨
    (text.head? ≠ some second ∧ scan condition (c :: text ++ padding) = (one, 1)) := by
  have first : longest (.start condition) (c :: text ++ padding) 0 none =
      longest state (text ++ padding) 1 (some (one, 1)) := by
    rw [List.cons_append, longest_next stepped, arrive, accepts, notFinal]
    rfl
  cases text with
  | nil =>
      refine .inr ⟨fun same => (by cases same), ?_⟩
      rw [scan_eq (first.trans (longest_padding _ _ _))]
      rfl
  | cons d text =>
      by_cases same : d = second
      · have pair : state.next d = some (.matched two) := by rw [goesOn, if_pos same]
        refine .inl ⟨congrArg some same, ?_⟩
        rw [scan_eq (first.trans (longest_next pair _ _ _))]
        rfl
      · have stuck : state.next d = none := by rw [goesOn, if_neg same]
        refine .inr ⟨fun some => same (Option.some.inj some), ?_⟩
        rw [scan_eq (first.trans (longest_stuck stuck _ _ _))]
        rfl

theorem drop_two (c : UInt8) {d : UInt8} (same : text.head? = some d) :
    (c :: text).drop 2 = text.tail ∧ 2 ≤ (c :: text).length := by
  cases text with
  | nil => cases same
  | cons e text => exact ⟨rfl, Nat.succ_le_succ (Nat.succ_le_succ (Nat.zero_le _))⟩

/-- One character of a block comment. -/
theorem round_comment {rule : Rule} (nested : 0 < nesting)
    (acts : forall atEnd lexeme, rule.act atEnd lexeme ⟨.blockComment, nesting⟩ =
      ([], ⟨.blockComment, nesting⟩))
    (isPiece : piece (.blockComment (nesting - 1)) (c :: text) =
      some (.blockComment (nesting - 1), text)) :
    Round ⟨.blockComment, nesting⟩ (c :: text) (rule, 1) :=
  .passes (silent acts) (fun _ => nested) (.piece (Nat.succ_le_succ (Nat.zero_le _)) isPiece)

theorem round_blockComment (nested : 0 < nesting) :
    Round ⟨.blockComment, nesting⟩ (c :: text) (scan .blockComment (c :: text ++ padding)) := by
  by_cases opens : c = lpar
  · have different : c ≠ semicolon := fun same => by
      rw [same] at opens
      exact absurd opens (by decide)
    have stepped : (State.start .blockComment).next c = some .openNested := by
      rw [State.next, startNext, if_pos opens]
    rcases scan_pair text stepped rfl rfl (fun _ => rfl) with
      ⟨follows, taken⟩ | ⟨alone, taken⟩
    · rw [taken]
      have isPiece : piece (.blockComment (nesting - 1)) (c :: text) =
          some (.blockComment (nesting - 1 + 1), text.tail) := if_pos ⟨opens, follows⟩
      rcases drop_two c follows with ⟨drop, inside⟩
      rw [← drop, Nat.sub_add_cancel nested] at isPiece
      exact .passes (silent fun _ _ => rfl) (fun _ => Nat.succ_pos _) (.piece inside isPiece)
    · rw [taken]
      refine round_comment nested (fun _ _ => rfl) ?_
      rw [piece, if_neg fun both => alone both.2, if_neg fun both => different both.1,
        afterCodePoint_ascii (opens ▸ by decide)]
      rfl
  by_cases closes : c = semicolon
  · have stepped : (State.start .blockComment).next c = some .closeNested := by
      rw [State.next, startNext, if_neg opens, if_pos closes]
    rcases scan_pair text stepped rfl rfl (fun _ => rfl) with
      ⟨follows, taken⟩ | ⟨alone, taken⟩
    · rw [taken]
      have isPiece : piece (.blockComment (nesting - 1)) (c :: text) =
          some (outside (nesting - 1), text.tail) := by
        rw [piece, if_neg fun both => opens both.1, if_pos ⟨closes, follows⟩]
      rcases drop_two c follows with ⟨drop, inside⟩
      rw [← drop] at isPiece
      obtain ⟨depth, rfl⟩ : ∃ depth, nesting = depth + 1 := ⟨nesting - 1, by omega⟩
      cases depth with
      | zero =>
          exact .passes (silent fun _ _ => rfl) (fun same => by cases same) (.piece inside isPiece)
      | succ depth =>
          exact .passes (silent fun _ _ => rfl) (fun _ => Nat.succ_pos _) (.piece inside isPiece)
    · rw [taken]
      refine round_comment nested (fun _ _ => rfl) ?_
      rw [piece, if_neg fun both => opens both.1, if_neg fun both => alone both.2,
        afterCodePoint_ascii (closes ▸ by decide)]
      rfl
  have isPiece : piece (.blockComment (nesting - 1)) (c :: text) =
      (afterCodePoint (c :: text)).map (.blockComment (nesting - 1), ·) := by
    rw [piece, if_neg fun both => opens both.1, if_neg fun both => closes both.1]
  by_cases ends : c = newline
  · have stepped : (State.start .blockComment).next c =
        some (.matched .blockCommentNewline) := by
      rw [State.next, startNext, if_neg opens, if_neg closes, if_pos ends]
    rw [List.cons_append, scan_eq (longest_next stepped _ _ _)]
    refine round_comment nested (fun _ _ => rfl) ?_
    rw [isPiece, afterCodePoint_ascii (ends ▸ by decide)]
    rfl
  have starts : (State.start .blockComment).next c =
      codePoint (.matched .blockCommentCharacter) c := by
    rw [State.next, startNext, if_neg opens, if_neg closes, if_neg ends]
  rcases scan_codePoint text starts with ⟨rest, found, taken⟩ | ⟨broken, large, taken⟩
  · rw [found] at isPiece
    rw [taken]
    have suffix := afterCodePoint_drop found
    exact .passes (silent fun _ _ => rfl) (fun _ => nested)
      (.piece (Nat.sub_le _ _) (suffix ▸ isPiece))
  · rw [broken] at isPiece
    rw [taken]
    exact .breaks rfl large isPiece

theorem piece_control (nul : c < 0x20) : piece .string (c :: text) = none := by
  have notQuote : c ≠ quote := fun same => by
    rw [same] at nul
    exact absurd nul (by decide)
  have notBackslash : c ≠ backslash := fun same => by
    rw [same] at nul
    exact absurd nul (by decide)
  rw [piece, if_neg notQuote, if_neg notBackslash, if_pos nul]

/-- A backslash in a string that is bad already. -/
theorem scan_backslash (text : List UInt8) :
    (∃ length, length ≤ text.length ∧ afterEscape text = some (text.drop length) ∧
      scan .badText (backslash :: text ++ padding) = (.badTextCharacter, length + 1)) ∨
    (afterEscape text = none ∧ ∃ length,
      scan .badText (backslash :: text ++ padding) = (.badEscape, length) ∨
      scan .badText (backslash :: text ++ padding) = (.illegalCharacter, length)) := by
  have stepped : (State.start .badText).next backslash = some .badEscape := rfl
  have first : longest (.start .badText) (backslash :: text ++ padding) 0 none =
      longest .badEscape (text ++ padding) 1 (some (.illegalCharacter, 1)) := by
    rw [List.cons_append, longest_next stepped]
    rfl
  rcases text with _ | ⟨d, text⟩
  · exact .inr ⟨rfl, 1, .inr (scan_eq (first.trans (longest_padding _ _ _)))⟩
  by_cases simple : isSimpleEscape d
  · have escaped : State.badEscape.next d = some (.matched .badTextCharacter) := by
      rw [State.next, if_pos simple]
    refine .inl ⟨1, Nat.succ_le_succ (Nat.zero_le _), ?_,
      scan_eq (first.trans (longest_next escaped _ _ _))⟩
    rw [afterEscape, if_pos simple]
    rfl
  by_cases high : isHexdigit d
  · have digit : State.badEscape.next d = some .badEscapeHex := by
      rw [State.next, if_neg simple, if_pos high]
    have second : longest (.start .badText) (backslash :: d :: text ++ padding) 0 none =
        longest .badEscapeHex (text ++ padding) 2 (some (.badEscape, 2)) :=
      first.trans (longest_next digit _ _ _)
    rw [afterEscape, if_neg simple, high, Bool.true_and]
    rcases text with _ | ⟨e, text⟩
    · exact .inr ⟨rfl, 2, .inl (scan_eq (second.trans (longest_padding _ _ _)))⟩
    by_cases low : isHexdigit e
    · have escaped : State.badEscapeHex.next e = some (.matched .badTextCharacter) := by
        rw [State.next, if_pos low]
      exact .inl ⟨2, Nat.succ_le_succ (Nat.succ_le_succ (Nat.zero_le _)), if_pos low,
        scan_eq (second.trans (longest_next escaped _ _ _))⟩
    · have stuck : State.badEscapeHex.next e = none := by rw [State.next, if_neg low]
      exact .inr ⟨if_neg low, 2, .inl (scan_eq (second.trans (longest_stuck stuck _ _ _)))⟩
  · refine .inr ⟨?_, ?_⟩
    · rw [afterEscape, if_neg simple, Bool.eq_false_iff.mpr high]
      rfl
    by_cases ends : d = newline
    · have stuck : State.badEscape.next d = none := by
        rw [State.next, if_neg simple, if_neg high, if_pos ends]
      exact ⟨1, .inr (scan_eq (first.trans (longest_stuck stuck _ _ _)))⟩
    have starts : State.badEscape.next d = codePoint (.matched .badEscape) d := by
      rw [State.next, if_neg simple, if_neg high, if_neg ends]
    cases found : afterCodePoint (d :: text) with
    | none => exact ⟨1, .inr (scan_eq (first.trans (longest_breaks starts found)))⟩
    | some rest => exact ⟨_, .inl (scan_eq (first.trans (longest_passes starts found)))⟩

theorem round_badText :
    Round ⟨.badText, nesting⟩ (c :: text) (scan .badText (c :: text ++ padding)) := by
  by_cases ends : c = newline
  · have stepped : (State.start .badText).next c = some (.matched .badTextNewline) := by
      rw [State.next, startNext, if_pos ends]
    rw [List.cons_append, scan_eq (longest_next stepped _ _ _)]
    exact .reports (fun _ _ => reports_error _)
      (not_quiet (piece_control (ends ▸ by decide)) (.inl (ends ▸ by decide)))
  by_cases closes : c = quote
  · have stepped : (State.start .badText).next c = some (.matched .badTextEnd) := by
      rw [State.next, startNext, if_neg ends, if_pos closes]
    rw [List.cons_append, scan_eq (longest_next stepped _ _ _)]
    exact .passes (tokens fun _ _ => rfl) (fun same => by cases same)
      (.piece (Nat.succ_le_succ (Nat.zero_le _)) (if_pos closes))
  by_cases escapes : c = backslash
  · have isPiece : piece .string (c :: text) = (afterEscape text).map (.string, ·) := by
      rw [piece, if_neg closes, if_pos escapes]
    rw [escapes] at isPiece ⊢
    rcases scan_backslash text with ⟨length, inside, found, taken⟩ | ⟨broken, length, taken⟩
    · rw [found] at isPiece
      rw [taken]
      exact .passes (silent fun _ _ => rfl) (fun same => by cases same)
        (.piece (Nat.succ_le_succ inside) isPiece)
    · rw [broken] at isPiece
      have notQuiet := not_quiet isPiece (.inl (by decide))
      rcases taken with taken | taken
      · rw [taken]
        exact .reports (fun _ _ => reports_error _) notQuiet
      · rw [taken]
        exact .reports (fun _ _ => reports_error _) notQuiet
  by_cases control : c < 0x20
  · have stepped : (State.start .badText).next c = some (.matched .illegalCharacter) := by
      rw [State.next, startNext, if_neg ends, if_neg closes, if_neg escapes, if_pos control]
    rw [List.cons_append, scan_eq (longest_next stepped _ _ _)]
    exact .reports (fun _ _ => reports_error _)
      (not_quiet (piece_control control) (.inl (UInt8.lt_trans control (by decide))))
  have starts : (State.start .badText).next c = codePoint (.matched .badTextCharacter) c := by
    rw [State.next, startNext, if_neg ends, if_neg closes, if_neg escapes, if_neg control]
  have isPiece : piece .string (c :: text) = (afterCodePoint (c :: text)).map (.string, ·) := by
    rw [piece, if_neg closes, if_neg escapes, if_neg control]
  rcases scan_codePoint text starts with ⟨rest, found, taken⟩ | ⟨broken, large, taken⟩
  · rw [found] at isPiece
    rw [taken]
    have suffix := afterCodePoint_drop found
    exact .passes (silent fun _ _ => rfl) (fun same => by cases same)
      (.piece (Nat.sub_le _ _) (suffix ▸ isPiece))
  · rw [broken] at isPiece
    rw [taken]
    exact .breaks rfl large isPiece

/-- The bytes of code that are not read together with others. -/
theorem advances_plain (plain : c = newline ∨ c = rpar ∨ isBlank c ∨ isReserved c) :
    Advances .code .code (c :: text) 1 :=
  .piece (Nat.succ_le_succ (Nat.zero_le _)) (piece_plain plain text)

theorem round_i : Round ⟨.i, nesting⟩ (c :: text) (scan .i (c :: text ++ padding)) := by
  by_cases blank : isBlank c
  · have stepped : (State.start .i).next c = some .blanks := by
      rw [State.next, startNext, if_pos blank]
    rcases longest_run .blanks (fun _ => rfl) rfl rfl (fun _ member => .inl member) text 1 with
      ⟨more, ran, advances⟩
    rw [List.cons_append, scan_eq ((longest_next stepped _ _ _).trans ran)]
    exact .passes (silent fun _ _ => rfl) (fun same => by cases same)
      ((advances_plain (.inr (.inr (.inl blank)))).trans advances)
  by_cases ends : c = newline
  · have stepped : (State.start .i).next c = some (.matched .newline) := by
      rw [State.next, startNext, if_neg blank, if_pos ends]
    rw [List.cons_append, scan_eq (longest_next stepped _ _ _)]
    exact .passes (silent fun _ _ => rfl) (fun same => by cases same) (advances_plain (.inl ends))
  by_cases quotes : c = quote
  · have stepped : (State.start .i).next c = some .openText := by
      rw [State.next, startNext, if_neg blank, if_neg ends, if_pos quotes]
    have opens : Advances .code .string (c :: text) 1 :=
      .piece (Nat.succ_le_succ (Nat.zero_le _)) (if_pos quotes)
    have first : longest (.start .i) (c :: text ++ padding) 0 none =
        longest .openText (text ++ padding) 1 (some (.badText, 1)) := longest_next stepped _ _ _
    rcases longest_text .openText (fun _ => rfl) text 1 (some (.badText, 1)) with
      bad | ⟨more, whole, advances⟩
    · rw [scan_eq (first.trans bad)]
      exact .passes (silent fun _ _ => rfl) (fun same => by cases same) opens
    · rw [scan_eq (first.trans whole)]
      exact .passes (tokens fun _ _ => rfl) (fun same => by cases same) (opens.trans advances)
  by_cases opens : c = lpar
  · have stepped : (State.start .i).next c = some .openParen := by
      rw [State.next, startNext, if_neg blank, if_neg ends, if_neg quotes, if_pos opens]
    rcases scan_pair text stepped rfl rfl (fun _ => rfl) with ⟨follows, taken⟩ | ⟨alone, taken⟩
    · rw [taken]
      rcases drop_two c follows with ⟨drop, inside⟩
      have isPiece : piece .code (c :: text) = some (.blockComment 0, text.tail) := by
        rw [piece, if_neg quotes, if_pos opens, if_pos follows]
      rw [← drop] at isPiece
      exact .passes (silent fun _ _ => rfl) (fun _ => Nat.one_pos) (.piece inside isPiece)
    · rw [taken]
      have isPiece : piece .code (c :: text) = some (.code, text) := by
        rw [piece, if_neg quotes, if_pos opens, if_neg alone]
      exact .passes (tokens fun _ _ => rfl) (fun same => by cases same)
        (.piece (Nat.succ_le_succ (Nat.zero_le _)) isPiece)
  by_cases closes : c = rpar
  · have stepped : (State.start .i).next c = some (.matched .rpar) := by
      rw [State.next, startNext, if_neg blank, if_neg ends, if_neg quotes, if_neg opens,
        if_pos closes]
    rw [List.cons_append, scan_eq (longest_next stepped _ _ _)]
    exact .passes (tokens fun _ _ => rfl) (fun same => by cases same)
      (advances_plain (.inr (.inl closes)))
  by_cases comments : c = semicolon
  · have stepped : (State.start .i).next c = some .semicolon := by
      rw [State.next, startNext, if_neg blank, if_neg ends, if_neg quotes, if_neg opens,
        if_neg closes, if_pos comments]
    rcases scan_pair text stepped rfl rfl (fun _ => rfl) with ⟨follows, taken⟩ | ⟨alone, taken⟩
    · rw [taken]
      rcases drop_two c follows with ⟨drop, inside⟩
      have isPiece : piece .code (c :: text) = some (.lineComment, text.tail) := by
        rw [piece, if_neg quotes, if_neg opens, if_pos comments, if_pos follows]
      rw [← drop] at isPiece
      exact .passes (silent fun _ _ => rfl) (fun same => by cases same) (.piece inside isPiece)
    · rw [taken]
      refine .reports (fun _ _ => reports_error _) (not_quiet ?_ (.inl (comments ▸ by decide)))
      change piece .code (c :: text) = none
      rw [piece, if_neg quotes, if_neg opens, if_pos comments, if_neg alone]
  by_cases reserved : isReserved c
  · have stepped : (State.start .i).next c = some .word := by
      rw [State.next, startNext, if_neg blank, if_neg ends, if_neg quotes, if_neg opens,
        if_neg closes, if_neg comments, if_pos reserved]
    rcases longest_run .word (fun _ => rfl) rfl rfl (fun _ member => .inr member) text 1 with
      ⟨more, ran, advances⟩
    rw [List.cons_append, scan_eq ((longest_next stepped _ _ _).trans ran)]
    exact .passes (tokens fun _ _ => rfl) (fun same => by cases same)
      ((advances_plain (.inr (.inr (.inr reserved)))).trans advances)
  have starts : (State.start .i).next c = codePoint (.matched .unexpectedChar) c := by
    rw [State.next, startNext, if_neg blank, if_neg ends, if_neg quotes, if_neg opens,
      if_neg closes, if_neg comments, if_neg reserved]
  have stuck : piece .code (c :: text) = none := by
    rw [piece, if_neg quotes, if_neg opens, if_neg comments, if_neg]
    rintro (same | same | same | same)
    · exact ends same
    · exact closes same
    · exact blank same
    · exact reserved same
  rcases scan_codePoint text starts with ⟨rest, found, taken⟩ | ⟨broken, large, taken⟩
  · rw [taken]
    refine .reports (fun _ _ => reports_error _) (not_quiet stuck ?_)
    by_contra plain
    rw [not_or, not_not] at plain
    rw [plain.2, afterCodePoint_single (UInt8.not_lt.mp plain.1)] at found
    cases found
  · rw [taken]
    exact .breaks rfl large stuck

theorem scan_round (c : UInt8) (text : List UInt8) {scanning : Scanning}
    (nested : scanning.Nested) :
    Round scanning (c :: text) (scan scanning.condition (c :: text ++ padding)) := by
  rcases scanning with ⟨condition, nesting⟩
  cases condition with
  | i => exact round_i
  | badText => exact round_badText
  | lineComment => exact round_lineComment
  | blockComment => exact round_blockComment (nested rfl)

end

/-! ## Whole sources -/

theorem reports_append {first rest : List Event} :
    Reports (first ++ rest) ↔ Reports first ∨ Reports rest := by
  simp only [Reports, List.mem_append, exists_or]

theorem scan_padding (condition : Condition) (count : Nat) :
    scan condition (List.replicate (count + 1) 0xff) = (.malformed, 1) :=
  scan_eq (longest_stuck (State.next_padding _) _ _ _)

/-- The padding is passed in silence. -/
theorem lexText_padding (fuel : Nat) (scanning : Scanning) {count : Nat} (small : count ≤ maxFill) :
    ¬Reports (lexText fuel scanning (List.replicate count 0xff)) := by
  induction fuel generalizing scanning count with
  | zero => exact not_reports_nil
  | succ fuel inductionHypothesis =>
      rw [lexText]
      split
      · exact not_reports_nil
      · rename_i long
        cases count with
        | zero =>
            have bounds := scanning.condition.need_bounds.1
            rw [List.length_replicate] at long
            omega
        | succ count =>
            have atEnd : decide ((List.replicate (count + 1) (0xff : UInt8)).length - 1 ≤ maxFill) =
                true := by
              rw [List.length_replicate]
              exact decide_eq_true (by omega)
            rw [scan_padding]
            dsimp only
            rw [atEnd, List.drop_replicate]
            exact inductionHypothesis scanning (by omega)

/-- Nothing is reported exactly if the source consists of pieces, up to its last
byte. -/
theorem lexText_quiet (fuel : Nat) (scanning : Scanning) (nested : scanning.Nested)
    (text : List UInt8) (enough : text.length < fuel) :
    ¬Reports (lexText fuel scanning (text ++ padding)) ↔ Quiet scanning.mode text := by
  induction fuel generalizing scanning text with
  | zero => exact absurd enough (Nat.not_lt_zero _)
  | succ fuel inductionHypothesis =>
      cases text with
      | nil =>
          exact iff_of_true (lexText_padding _ _ (Nat.le_refl _)) ⟨_, _, .stop, .inl rfl⟩
      | cons c text =>
          have round := scan_round c text nested
          have positive := scan_positive scanning.condition (c :: text ++ padding)
          have shown : (c :: text ++ padding).length = (c :: text).length + maxFill := by
            rw [List.length_append, padding, List.length_replicate]
          have long : ¬(c :: text ++ padding).length < scanning.condition.need := by
            have bounds := scanning.condition.need_bounds.2
            omega
          rw [lexText, if_neg long, shown]
          dsimp only
          generalize scan scanning.condition (c :: text ++ padding) = scanned at round positive ⊢
          cases round with
          | @passes rule length next acts later advances =>
              rcases acts (decide ((c :: text).length + maxFill - length ≤ maxFill))
                ((c :: text ++ padding).take length) with ⟨events, acted, silent⟩
              have inside := advances.inside
              rw [acted, reports_append, or_iff_right silent, advances.quiet,
                List.drop_append_of_le_length inside]
              refine inductionHypothesis next later _ ?_
              rw [List.length_drop]
              dsimp only at positive
              omega
          | reports loud notQuiet =>
              exact iff_of_false (not_not.mpr (reports_append.mpr (.inl (loud _ _)))) notQuiet
          | breaks same large stuck =>
              cases same
              cases text with
              | nil =>
                  refine iff_of_true ?_ ((quiet_stuck stuck).mpr (.inr ⟨c, large, rfl⟩))
                  exact lexText_padding fuel scanning (Nat.le_refl _)
              | cons d text =>
                  refine iff_of_false (not_not.mpr (reports_append.mpr (.inl ?_)))
                    (not_quiet stuck (.inr (List.cons_ne_nil d text)))
                  have early : decide ((c :: d :: text).length + maxFill - 1 ≤ maxFill) = false := by
                    rw [List.length_cons, List.length_cons]
                    exact decide_eq_false (by omega)
                  rw [early]
                  exact reports_error _

end Lexer
end Text
end WasmSandboxing
