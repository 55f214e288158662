import WasmSandboxing.Foundation.Transition
import WasmSandboxing.Text.LexerBuffer

namespace WasmSandboxing
namespace Text

open Foundation

/-!
# The scanner and its buffer

The generated scanner moves its pointers over bytes that it has asked for.  As
long as it gets what it asks for, the buffer holds the source.
-/

/-- The scanner looks at no byte that it has not asked for.  `granted` is how
many from the cursor on it has been promised; no variable of the code says so. -/
structure Scanner where
  buffer : LexerBuffer
  granted : Nat

/-- What the scanner does to the pointers. -/
inductive ScannerStep where
  /-- `next_pos_ = cursor_` -/
  | token
  /-- `cursor_ += count`, over bytes that have been promised -/
  | advance (count : Nat)
  /-- `marker_ = cursor_` -/
  | backup
  /-- `cursor_ = marker_`, where the marker was set in this token -/
  | restore
  /-- `if (limit_ - cursor_ < need) FILL(need)`, for `YYMAXFILL` bytes at most -/
  | request (need : Nat)
  deriving Repr, DecidableEq

namespace Scanner

def start : Scanner where
  buffer := LexerBuffer.start
  granted := 0

/-- A step that has no result is not taken, or ends the scan. -/
def step (source : List UInt8) (noise : Nat -> Nat -> UInt8) (scanner : Scanner) :
    ScannerStep -> Option Scanner
  | .token =>
      some { scanner with buffer := { scanner.buffer with nextPos := scanner.buffer.cursor } }
  | .advance count =>
      if count ≤ scanner.granted then
        some
          { buffer := { scanner.buffer with cursor := scanner.buffer.cursor + count }
            granted := scanner.granted - count }
      else
        none
  | .backup =>
      some { scanner with buffer := { scanner.buffer with marker := scanner.buffer.cursor } }
  | .restore =>
      let marker := scanner.buffer.marker
      if scanner.buffer.nextPos ≤ marker then
        some
          { buffer := { scanner.buffer with cursor := marker.toNat }
            granted := scanner.granted + (scanner.buffer.cursor - marker.toNat) }
      else
        none
  | .request need =>
      if maxFill < need then
        none
      else if scanner.buffer.limit < scanner.buffer.cursor + need then
        (scanner.buffer.fill source noise need).map fun buffer =>
          { buffer := buffer
            granted := max scanner.granted need }
      else
        some { scanner with granted := max scanner.granted need }

end Scanner

def lexing (source : List UInt8) (noise : Nat -> Nat -> UInt8) : System Scanner ScannerStep where
  step := Scanner.step source noise

/-! ## Runs -/

namespace Scanner

open LexerBuffer

/-- Every refill that a step makes is ample. -/
def Permitted (source : List UInt8) (scanner : Scanner) : ScannerStep -> Prop
  | .request need =>
      scanner.buffer.limit < scanner.buffer.cursor + need -> Ample source need scanner.buffer
  | _ => True

/-- What has been promised is in the buffer. -/
structure Sound (source : List UInt8) (scanner : Scanner) : Prop where
  buffer : LexerBuffer.Sound source scanner.buffer
  promised : scanner.buffer.cursor + scanner.granted ≤ scanner.buffer.limit

variable {source : List UInt8} {noise : Nat -> Nat -> UInt8}

theorem step_sound (scanner : Scanner) (step : ScannerStep) (next : Scanner)
    (sound : Sound source scanner) (permitted : scanner.Permitted source step)
    (stepped : scanner.step source noise step = some next) : Sound source next := by
  rcases sound with ⟨sound, promised⟩
  have ahead : scanner.buffer.nextPos ≤ scanner.buffer.cursor := sound.token_le
  have behind := sound.marker_le
  have below := sound.cursor_le
  cases step with
  | token =>
      obtain rfl := Option.some.inj stepped
      exact ⟨sound.moved ahead (Nat.le_refl _) behind below, promised⟩
  | advance count =>
      rw [Scanner.step] at stepped
      split at stepped
      · rename_i inside
        obtain rfl := Option.some.inj stepped
        exact ⟨sound.moved (Nat.le_refl _) (by omega) (by omega) (by omega),
          by dsimp only; omega⟩
      · cases stepped
  | backup =>
      obtain rfl := Option.some.inj stepped
      exact ⟨sound.moved (Nat.le_refl _) ahead (Int.le_refl _) below, promised⟩
  | restore =>
      rw [Scanner.step] at stepped
      dsimp only at stepped
      split at stepped
      · rename_i inside
        obtain rfl := Option.some.inj stepped
        exact ⟨sound.moved (Nat.le_refl _) (by omega) (by omega) (by omega),
          by dsimp only; omega⟩
      · cases stepped
  | request need =>
      rw [Scanner.step] at stepped
      split at stepped
      · cases stepped
      · rename_i small
        split at stepped
        · rename_i short
          rcases Option.map_eq_some_iff.mp stepped with ⟨buffer, filled, rfl⟩
          have enough := (enough_iff_ample sound (Nat.le_of_not_lt small) filled).mpr
            (permitted short)
          have later := fill_sound sound filled
          have moved := later.cursor_le
          refine ⟨later, ?_⟩
          dsimp only
          rcases fill_refill sound filled with ⟨size, count, refill⟩
          have cursor := refill.cursor_eq
          have limit := refill.limit_eq
          split at limit <;> omega
        · obtain rfl := Option.some.inj stepped
          exact ⟨sound, by dsimp only; omega⟩

theorem start_sound (source : List UInt8) : Sound source start :=
  ⟨LexerBuffer.start_sound source, Nat.le_refl 0⟩

/-- The scanner's pointers stay in the buffer, and the buffer holds what the
source has, as long as every refill is ample. -/
theorem run_sound {steps : List ScannerStep} {last : Scanner}
    (each : (lexing source noise).EachStep (Permitted source) start steps)
    (ran : (lexing source noise).run start steps = some last) : Sound source last :=
  (System.always_of_eachStep step_sound (fun _scanner sound => sound) (start_sound source)
    each).final ran

/-- After a run whose refills are ample, a further one does what it is for
exactly if it is ample too and the marker was set in the present token. -/
theorem fill_refills_iff (source : List UInt8) (noise : Nat -> Nat -> UInt8)
    (steps : List ScannerStep) (last : Scanner) (need : Nat) (after : LexerBuffer)
    (each : (lexing source noise).EachStep (Permitted source) start steps)
    (ran : (lexing source noise).run start steps = some last) (small : need ≤ maxFill)
    (filled : last.buffer.fill source noise need = some after) :
    Refilled source need last.buffer after ↔
      Ample source need last.buffer ∧ last.buffer.nextPos ≤ last.buffer.marker :=
  refilled_iff (run_sound each ran).buffer small filled

/-- The first refill of a source of one byte. -/
theorem fill_refills_iff_first : ∃ after,
    (start.buffer.fill [0x28] (fun _size _index => 0) 29 = some after) ∧
      (Refilled [0x28] 29 start.buffer after ↔
        Ample [0x28] 29 start.buffer ∧ start.buffer.nextPos ≤ start.buffer.marker) := by
  rcases filled : start.buffer.fill [0x28] (fun _size _index => 0) 29 with _ | after
  · cases filled
  · exact ⟨after, rfl,
      fill_refills_iff [0x28] (fun _size _index => 0) [] start 29 after trivial rfl (by decide)
        filled⟩

/-! ## A comment that reaches the end of the buffer -/

/-- A line comment that fills the buffer. -/
def commentSource : List UInt8 := 0x3b :: 0x3b :: List.replicate (initialLexerBufferSize - 2) 0x20

/-- The scanner passes a byte of the comment. -/
def commentByte : List ScannerStep := [.advance 1, .backup, .request 1]

/-- The steps up to the request that follows the last byte of the comment. -/
def commentSteps : List ScannerStep :=
  [.request 29, .advance 2, .token, .request 2] ++
    (List.replicate (initialLexerBufferSize - 3) commentByte).flatten ++ [.advance 1, .backup]

/-- Bytes that are in the buffer are passed without a refill. -/
theorem run_commentBytes (source : List UInt8) (noise : Nat -> Nat -> UInt8) (count : Nat)
    (scanner : Scanner) (granted : 1 ≤ scanner.granted)
    (inside : scanner.buffer.cursor + count < scanner.buffer.limit) :
    ∃ marker granted, 1 ≤ granted ∧
      (lexing source noise).run scanner (List.replicate count commentByte).flatten =
        some
          { buffer := { scanner.buffer with cursor := scanner.buffer.cursor + count, marker }
            granted } := by
  induction count generalizing scanner with
  | zero => exact ⟨scanner.buffer.marker, scanner.granted, granted, rfl⟩
  | succ count inductionHypothesis =>
      let passed : Scanner :=
        { buffer :=
            { scanner.buffer with
              cursor := scanner.buffer.cursor + 1
              marker := (scanner.buffer.cursor + 1 : Nat) }
          granted := max (scanner.granted - 1) 1 }
      have first : (lexing source noise).run scanner commentByte = some passed := by
        have known : ¬scanner.buffer.limit < scanner.buffer.cursor + 1 + 1 := by omega
        simp only [commentByte, System.run, lexing, step, if_pos granted, if_neg known]
        rfl
      rcases inductionHypothesis passed (Nat.le_max_right _ _) (by dsimp only [passed]; omega) with
        ⟨marker, later, enough, ran⟩
      refine ⟨marker, later, enough, ?_⟩
      rw [List.replicate_succ, List.flatten_cons, System.run_append, first, Option.bind_some, ran]
      dsimp only [passed]
      rw [Nat.add_assoc, Nat.add_comm 1 count]

theorem commentSource_length : commentSource.length = initialLexerBufferSize := by
  rw [commentSource, List.length_cons, List.length_cons, List.length_replicate]
  rfl

/-- The first refill reads the whole source and leaves no room for the padding. -/
theorem commentSource_opened (noise : Nat -> Nat -> UInt8) : ∃ buffer granted,
    LexerBuffer.Sound commentSource buffer ∧
    buffer.eof = false ∧ buffer.nextPos = 2 ∧ buffer.cursor = 2 ∧
    buffer.limit = initialLexerBufferSize ∧ buffer.bytes.length = initialLexerBufferSize ∧
    buffer.readOffset = initialLexerBufferSize ∧ 1 ≤ granted ∧
    (lexing commentSource noise).run start [.request 29, .advance 2, .token, .request 2] =
      some { buffer, granted } := by
  rcases filled : LexerBuffer.start.fill commentSource noise 29 with _ | first
  · cases filled
  have sound := fill_sound (LexerBuffer.start_sound commentSource) filled
  rcases fill_refill (LexerBuffer.start_sound commentSource) filled with ⟨size, count, refill⟩
  have length := refill.length_eq
  have nextPos := refill.nextPos_eq
  have offset := refill.offset_eq
  have marker := refill.marker_eq
  have cursor : first.cursor = 0 := refill.cursor_eq
  have limit := refill.limit_eq
  have readOffset := refill.readOffset_eq
  have newSize : LexerBuffer.start.newBufferSize 29 = initialLexerBufferSize := by
    show doubleUntil 0 0 29 initialLexerBufferSize = initialLexerBufferSize
    rw [doubleUntil, if_neg (by decide)]
  rcases refill.grown (by decide) with ⟨rfl, rfl⟩
  rw [newSize] at length
  rw [newSize, commentSource_length] at limit readOffset
  have limit : first.limit = initialLexerBufferSize := limit.trans (by decide)
  have readOffset : first.readOffset = initialLexerBufferSize := readOffset.trans (by decide)
  have offset : first.bufferFileOffset = 0 := offset
  have marker : first.marker = 0 := marker
  have reading : first.eof = false := by
    by_contra finished
    have padded := (sound.ended (Bool.eq_true_of_not_eq_false finished)).1
    rw [commentSource_length, limit, offset] at padded
    exact absurd padded (by decide)
  have room : 2 ≤ first.limit := limit ▸ by decide
  have known : ¬first.limit < first.cursor + 2 + 2 := by
    rw [cursor, limit]
    decide
  have asked : (lexing commentSource noise).step start (.request 29) =
      some { buffer := first, granted := 29 } := by
    change step commentSource noise start (.request 29) = _
    rw [Scanner.step, if_neg (by decide), if_pos (by decide)]
    exact congrArg (Option.map _) filled
  refine ⟨{ first with nextPos := first.cursor + 2, cursor := first.cursor + 2 }, 27,
    sound.moved (by omega) (by omega) (by omega) (by omega), reading, by rw [cursor],
    by rw [cursor], limit, length, readOffset, by decide, ?_⟩
  rw [System.run_cons _ _ asked]
  simp [System.run, lexing, step, maxFill, known]

/-- The request that follows the comment is granted, and nothing is there: the
whole source has been read, and the buffer is still so full that its end is not
noticed. -/
theorem comment_refill_empty : ∃ last after,
    (lexing commentSource fun _size _index => 0).run start commentSteps = some last ∧
      last.buffer.nextPos ≤ last.buffer.marker ∧
      last.buffer.fill commentSource (fun _size _index => 0) 1 = some after ∧
      after.limit = after.cursor ∧ ¬Refilled commentSource 1 last.buffer after := by
  rcases commentSource_opened fun _size _index => 0 with
    ⟨opened, granted, sound, reading, nextPos, cursor, limit, length, readOffset, positive, ran⟩
  have inside : opened.cursor + (initialLexerBufferSize - 3) < opened.limit := by
    rw [cursor, limit]
    decide
  rcases run_commentBytes commentSource (fun _size _index => 0)
    (initialLexerBufferSize - 3) ⟨opened, granted⟩ positive inside with
    ⟨marker, later, enough, passed⟩
  let last : LexerBuffer :=
    { opened with
      nextPos := opened.nextPos
      cursor := opened.cursor + (initialLexerBufferSize - 3) + 1
      marker := (opened.cursor + (initialLexerBufferSize - 3) + 1 : Nat) }
  have finished : (lexing commentSource fun _size _index => 0).run start commentSteps =
      some { buffer := last, granted := later - 1 } := by
    rw [commentSteps, System.run_append, System.run_append, ran, Option.bind_some, passed,
      Option.bind_some]
    simp [System.run, lexing, step, enough, last]
  have atEnd : last.cursor = initialLexerBufferSize := by
    show opened.cursor + (initialLexerBufferSize - 3) + 1 = initialLexerBufferSize
    rw [cursor]
    rfl
  have lastSound : LexerBuffer.Sound commentSource last :=
    sound.moved (Nat.le_refl _) (by omega) (Int.le_refl _) (by omega)
  rcases refilled : last.fill commentSource (fun _size _index => 0) 1 with _ | after
  · rw [fill, if_neg (by rw [reading]; decide)] at refilled
    cases refilled
  have notAmple : ¬Ample commentSource 1 last := by
    have token : last.nextPos = 2 := nextPos
    have same : last.limit = initialLexerBufferSize := limit
    have size : last.bytes.length = initialLexerBufferSize := length
    have unread : last.readOffset = initialLexerBufferSize := readOffset
    rw [Ample, arriving, token, atEnd, same, size, unread, commentSource_length]
    decide
  have none : ¬1 ≤ after.limit - after.cursor := fun enough =>
    notAmple ((enough_iff_ample lastSound (by decide) refilled).mp enough)
  have inside : after.cursor ≤ after.limit := (fill_sound lastSound refilled).cursor_le
  exact ⟨{ buffer := last, granted := later - 1 }, after, finished, by dsimp only [last]; omega,
    refilled, by omega, fun all => none all.enough⟩

end Scanner

end Text
end WasmSandboxing
