import WasmSandboxing.Text.Quoted

namespace WasmSandboxing
namespace Text
namespace Lexer

/-!
# The rules of the scanner

The scanner takes the longest lexeme that one of the rules of its condition
matches, and a single byte where none does.  The rules whose lexemes are words
of reserved characters, which are told apart by a table of the words, are one
rule here, as they differ in the token only.
-/

/-- `YYCONDTYPE` -/
inductive Condition where
  | i | badText | lineComment | blockComment
  deriving Repr, DecidableEq

/-- How many bytes are asked for before a lexeme is begun. -/
def Condition.need : Condition -> Nat
  | i => 29
  | badText => 5
  | lineComment => 2
  | blockComment => 4

inductive Rule where
  | lpar | rpar
  /-- numbers, keywords, names and `reserved` -/
  | word
  | text
  /-- `'"' => BAD_TEXT` -/
  | badText
  | badTextCharacter | badTextNewline | badEscape | badTextEnd | illegalCharacter
  /-- `";;" => LINE_COMMENT` -/
  | lineComment
  | lineCommentEnd | lineCommentText
  /-- `"(;" => BLOCK_COMMENT` -/
  | blockComment
  | nestedComment | nestedCommentEnd | blockCommentNewline | blockCommentCharacter
  | newline | blanks | unexpectedChar
  /-- the rules for a byte that nothing else matches -/
  | malformed
  deriving Repr, DecidableEq

/-! ## The automaton -/

def newline : UInt8 := 0x0a

def lpar : UInt8 := 0x28

def rpar : UInt8 := 0x29

def semicolon : UInt8 := 0x3b

/-- `[ \t\r]` -/
def isBlank (c : UInt8) : Bool := c == 0x20 || c == 0x09 || c == 0x0d

/-- The characters of `reserved`. -/
def isReserved (c : UInt8) : Bool :=
  c == 0x21 || (0x23 ≤ c && c ≤ 0x27) || (0x2a ≤ c && c ≤ 0x3a) || (0x3c ≤ c && c ≤ 0x7e)

/-- The ranges of the second byte of a code point. -/
inductive Follow where
  | any | notOverlong | notOverlongLong | belowLimit
  deriving Repr, DecidableEq

def Follow.contains : Follow -> UInt8 -> Bool
  | any, c => 0x80 ≤ c && c < 0xc0
  | notOverlong, c => 0xa0 ≤ c && c < 0xc0
  | notOverlongLong, c => 0x90 ≤ c && c < 0xc0
  | belowLimit, c => 0x80 ≤ c && c < 0x90

/-- What has been seen of a lexeme. -/
inductive State where
  | start (condition : Condition)
  /-- a lexeme that nothing can make longer -/
  | matched (rule : Rule)
  | blanks | word | openParen | semicolon
  /-- the quote, the characters behind it, and the parts of an escape -/
  | openText | text | textEscape | textHex
  | badEscape | badEscapeHex
  | lineCommentText
  | openNested | closeNested
  /-- a code point, of which one byte and `count` others are left -/
  | more (after : State) (follow : Follow) (count : Nat)
  deriving Repr, DecidableEq

/-- The first byte of a code point, which leads to the state `after`. -/
def codePoint (after : State) (c : UInt8) : Option State :=
  if c < 0x80 then some after
  else if c < 0xc2 then none
  else if c < 0xe0 then some (.more after .any 0)
  else if c = 0xe0 then some (.more after .notOverlong 1)
  else if c < 0xf0 then some (.more after .any 1)
  else if c = 0xf0 then some (.more after .notOverlongLong 2)
  else if c < 0xf4 then some (.more after .any 2)
  else if c = 0xf4 then some (.more after .belowLimit 2)
  else none

def startNext : Condition -> UInt8 -> Option State
  | .i, c =>
      if isBlank c then some .blanks
      else if c = newline then some (.matched .newline)
      else if c = quote then some .openText
      else if c = lpar then some .openParen
      else if c = rpar then some (.matched .rpar)
      else if c = semicolon then some .semicolon
      else if isReserved c then some .word
      else codePoint (.matched .unexpectedChar) c
  | .badText, c =>
      if c = newline then some (.matched .badTextNewline)
      else if c = quote then some (.matched .badTextEnd)
      else if c = backslash then some .badEscape
      else if c < 0x20 then some (.matched .illegalCharacter)
      else codePoint (.matched .badTextCharacter) c
  | .lineComment, c =>
      if c = newline then some (.matched .lineCommentEnd) else codePoint .lineCommentText c
  | .blockComment, c =>
      if c = lpar then some .openNested
      else if c = semicolon then some .closeNested
      else if c = newline then some (.matched .blockCommentNewline)
      else codePoint (.matched .blockCommentCharacter) c

/-- The characters of a text, and the quote that ends it. -/
def textNext (c : UInt8) : Option State :=
  if c = quote then some (.matched .text)
  else if c = backslash then some .textEscape
  else if c < 0x20 then none
  else codePoint .text c

/-- One more byte of a lexeme, if there is a lexeme that goes on with it. -/
def State.next : State -> UInt8 -> Option State
  | start condition, c => startNext condition c
  | matched _, _ => none
  | blanks, c => if isBlank c then some .blanks else none
  | word, c => if isReserved c then some .word else none
  | openParen, c => if c = Lexer.semicolon then some (.matched .blockComment) else none
  | semicolon, c => if c = Lexer.semicolon then some (.matched .lineComment) else none
  | openText, c | text, c => textNext c
  | textEscape, c =>
      if isSimpleEscape c then some .text else if isHexdigit c then some .textHex else none
  | textHex, c => if isHexdigit c then some .text else none
  | badEscape, c =>
      if isSimpleEscape c then some (.matched .badTextCharacter)
      else if isHexdigit c then some .badEscapeHex
      else if c = newline then none
      else codePoint (.matched .badEscape) c
  | badEscapeHex, c => if isHexdigit c then some (.matched .badTextCharacter) else none
  | lineCommentText, c => if c = newline then none else codePoint .lineCommentText c
  | openNested, c => if c = Lexer.semicolon then some (.matched .nestedComment) else none
  | closeNested, c => if c = rpar then some (.matched .nestedCommentEnd) else none
  | more after follow count, c =>
      if follow.contains c then
        match count with
        | 0 => some after
        | count + 1 => some (.more after .any count)
      else none

theorem Follow.contains_padding (follow : Follow) : follow.contains 0xff = false := by
  cases follow <;> rfl

/-- No lexeme goes on with the padding. -/
theorem State.next_padding (state : State) : state.next 0xff = none := by
  cases state with
  | start condition => cases condition <;> rfl
  | more after follow count =>
      simp only [next, follow.contains_padding]
      rfl
  | _ => rfl

/-- The rule that matches what has been seen. -/
def State.rule : State -> Option Rule
  | start _ | text | textEscape | textHex | more _ _ _ => none
  | matched rule => some rule
  | blanks => some .blanks
  | word => some .word
  | openParen => some .lpar
  | semicolon => some .unexpectedChar
  | openText => some .badText
  | badEscape => some .illegalCharacter
  | badEscapeHex => some .badEscape
  | lineCommentText => some .lineCommentText
  | openNested | closeNested => some .blockCommentCharacter

/-- No other byte is looked at. -/
def State.final : State -> Bool
  | matched _ => true
  | _ => false

/-- The longest lexeme, if a rule matches one.  `best` is what has been matched
before. -/
def longest : State -> List UInt8 -> Nat -> Option (Rule × Nat) -> Option (Rule × Nat)
  | _, [], _, best => best
  | state, c :: rest, count, best =>
      match state.next c with
      | none => best
      | some state =>
          let best := (state.rule.map fun rule => (rule, count + 1)).or best
          if state.final then best else longest state rest (count + 1) best

/-- The rule that is taken at the beginning of a text, and the length of its lexeme. -/
def scan (condition : Condition) (text : List UInt8) : Rule × Nat :=
  (longest (.start condition) text 0 none).getD (.malformed, 1)

theorem scan_positive (condition : Condition) (text : List UInt8) :
    0 < (scan condition text).2 := by
  have positive : forall (state : State) (count : Nat) (best : Option (Rule × Nat)),
      (forall pair, best = some pair -> 0 < pair.2) ->
      forall pair, longest state text count best = some pair -> 0 < pair.2 := by
    induction text with
    | nil => exact fun _ _ _ before => before
    | cons c rest inductionHypothesis =>
        intro state count best before
        rw [longest]
        rcases state.next c with _ | next
        · exact before
        · have bests : forall pair,
              (next.rule.map fun rule => (rule, count + 1)).or best = some pair -> 0 < pair.2 := by
            rcases next.rule with _ | rule
            · exact before
            · rintro pair same
              cases same
              exact Nat.succ_pos count
          dsimp only
          split
          · exact bests
          · exact inductionHypothesis next (count + 1) _ bests
  unfold scan
  rcases found : longest (.start condition) text 0 none with _ | pair
  · exact Nat.one_pos
  · exact positive _ _ _ (fun _ none => by cases none) pair found

/-! ## The actions -/

inductive Error where
  | newlineInString
  | badEscape (text : List UInt8)
  | illegalCharacter
  | unexpectedChar
  /-- with what the message says of the place -/
  | malformedUtf8 (desc : String)
  deriving Repr, DecidableEq

/-- Words are what the table of tokens tells apart. -/
inductive Token where
  | lpar | rpar
  | word (text : List UInt8)
  | text (text : List UInt8)
  deriving Repr, DecidableEq

/-- What is seen of the scanner. -/
inductive Event where
  | token (token : Token)
  | error (error : Error)
  deriving Repr, DecidableEq

/-- `cond` and `comment_nesting_` between two lexemes.  `GetToken` begins in `i`,
where it also leaves off. -/
structure Scanning where
  condition : Condition
  nesting : Nat
  deriving Repr, DecidableEq

def Condition.desc : Condition -> String
  | i | lineComment => ""
  | badText => " in string"
  | blockComment => " in block comment"

/-- The action of a rule for the lexeme `text`.  At the end of the source a
malformed byte is taken for the padding. -/
def Rule.act (rule : Rule) (atEnd : Bool) (text : List UInt8) (scanning : Scanning) :
    List Event × Scanning :=
  match rule with
  | lpar => ([.token .lpar], scanning)
  | rpar => ([.token .rpar], scanning)
  | word => ([.token (.word text)], scanning)
  | .text => ([.token (.text text)], scanning)
  | badText => ([], { scanning with condition := .badText })
  | badTextCharacter => ([], scanning)
  | badTextNewline => ([.error .newlineInString], { scanning with condition := .i })
  | badEscape => ([.error (.badEscape text)], scanning)
  | badTextEnd => ([.token (.text text)], { scanning with condition := .i })
  | illegalCharacter => ([.error .illegalCharacter], scanning)
  | lineComment => ([], { scanning with condition := .lineComment })
  | lineCommentEnd => ([], { scanning with condition := .i })
  | lineCommentText => ([], scanning)
  | blockComment => ([], ⟨.blockComment, 1⟩)
  | nestedComment => ([], { scanning with nesting := scanning.nesting + 1 })
  | nestedCommentEnd =>
      let nesting := scanning.nesting - 1
      ([], ⟨if nesting = 0 then .i else scanning.condition, nesting⟩)
  | blockCommentNewline | blockCommentCharacter => ([], scanning)
  | newline | blanks => ([], scanning)
  | unexpectedChar => ([.error .unexpectedChar], scanning)
  | malformed =>
      (if atEnd then [] else [.error (.malformedUtf8 scanning.condition.desc)], scanning)

end Lexer
end Text
end WasmSandboxing
