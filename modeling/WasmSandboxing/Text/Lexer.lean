import WasmSandboxing.Text.LexerBuffer
import WasmSandboxing.Text.Rules

namespace WasmSandboxing
namespace Text
namespace Lexer

open Foundation

/-!
# The lexer

`GetToken` is called until the source has ended.  What the scanner does is given
twice: on the buffer, where it asks for bytes before it looks at them, and on
the padded source.  As long as every refill is ample, both do the same.
-/

theorem Condition.need_bounds (condition : Condition) :
    2 ≤ condition.need ∧ condition.need ≤ maxFill := by
  cases condition <;> decide

/-- How many bytes the generated scanner asks for before it looks at another byte
of a lexeme. -/
structure Demand where
  need : Condition -> List UInt8 -> Nat
  positive : forall condition lexeme, 0 < need condition lexeme
  bounded : forall condition lexeme, need condition lexeme ≤ maxFill

/-- A call of `Fill` that has succeeded: what it was asked for, and the buffer
before it. -/
structure Refilling where
  need : Nat
  buffer : LexerBuffer

section

variable (source : List UInt8) (noise : Nat -> Nat -> UInt8)

/-- `if (limit_ - cursor_ < need) FILL(need)` -/
def request (need : Nat) (buffer : LexerBuffer) : Option LexerBuffer × List Refilling :=
  if buffer.limit < buffer.cursor + need then
    match buffer.fill source noise need with
    | none => (none, [])
    | some after => (some after, [⟨need, buffer⟩])
  else (some buffer, [])

/-- What comes of one round of the scanner. -/
inductive Scanned where
  | lexeme (rule : Rule) (buffer : LexerBuffer)
  /-- `RETURN(Eof)` -/
  | eof
  /-- A byte is looked at that the buffer does not have. -/
  | stuck

/-- The marker is where the longest lexeme ends. -/
def stop (best : Option Rule) (buffer : LexerBuffer) : Scanned :=
  match best with
  | some rule => .lexeme rule { buffer with cursor := buffer.marker.toNat }
  | none => .lexeme .malformed { buffer with cursor := buffer.nextPos + 1 }

/-- The cursor passes a byte, and the marker is set where a rule matches. -/
def advance (rule : Option Rule) (buffer : LexerBuffer) : LexerBuffer :=
  let passed := { buffer with cursor := buffer.cursor + 1 }
  if rule.isSome then { passed with marker := passed.cursor } else passed

variable (demand : Demand)

/-- The automaton goes over a lexeme.  The byte at the cursor has been asked for. -/
def scanOn (condition : Condition) :
    Nat -> State -> Option Rule -> List UInt8 -> LexerBuffer -> Scanned × List Refilling
  | 0, _, _, _, _ => (.stuck, [])
  | fuel + 1, state, best, lexeme, buffer =>
      match buffer.bytes[buffer.cursor]? with
      | none => (.stuck, [])
      | some c =>
          match state.next c with
          | none => (stop best buffer, [])
          | some state =>
              let best := state.rule.or best
              let passed := advance state.rule buffer
              if state.final then (stop best passed, [])
              else
                match request source noise (demand.need condition (lexeme ++ [c])) passed with
                | (none, refills) => (.eof, refills)
                | (some buffer, refills) =>
                    let later := scanOn condition fuel state best (lexeme ++ [c]) buffer
                    (later.1, refills ++ later.2)

/-- A round of the loop in `GetToken`, up to the action. -/
def scanRound (fuel : Nat) (condition : Condition) (buffer : LexerBuffer) :
    Scanned × List Refilling :=
  match request source noise condition.need { buffer with nextPos := buffer.cursor } with
  | (none, refills) => (.eof, refills)
  | (some buffer, refills) =>
      let later := scanOn source noise demand condition fuel (.start condition) none [] buffer
      (later.1, refills ++ later.2)

/-- The test of `MAYBE_MALFORMED_UTF8` -/
def atEnd (buffer : LexerBuffer) : Bool :=
  buffer.eof && decide (buffer.limit - buffer.cursor ≤ maxFill)

/-- `yytext`, of length `yyleng` -/
def yytext (buffer : LexerBuffer) : List UInt8 :=
  slice buffer.bytes buffer.nextPos buffer.cursor

/-- The rounds up to the end of the source.  There is no result where one gets
stuck. -/
def lexFrom : Nat -> Scanning -> LexerBuffer -> Option (List Event) × List Refilling
  | 0, _, _ => (none, [])
  | fuel + 1, scanning, buffer =>
      match scanRound source noise demand (fuel + 1) scanning.condition buffer with
      | (.eof, refills) => (some [], refills)
      | (.stuck, refills) => (none, refills)
      | (.lexeme rule buffer, refills) =>
          let acted := rule.act (atEnd buffer) (yytext buffer) scanning
          let later := lexFrom fuel acted.2 buffer
          (later.1.map (acted.1 ++ ·), refills ++ later.2)

/-- The whole source, with the calls of `Fill` that succeed. -/
def lex : Option (List Event) × List Refilling :=
  lexFrom source noise demand (source.length + maxFill + 1) ⟨.i, 0⟩ LexerBuffer.start

end

/-- The rounds over what is left of the padded source. -/
def lexText : Nat -> Scanning -> List UInt8 -> List Event
  | 0, _, _ => []
  | fuel + 1, scanning, text =>
      if text.length < scanning.condition.need then []
      else
        let scanned := scan scanning.condition text
        let acted := scanned.1.act (decide (text.length - scanned.2 ≤ maxFill))
          (text.take scanned.2) scanning
        acted.1 ++ lexText fuel acted.2 (text.drop scanned.2)

end Lexer
end Text
end WasmSandboxing
