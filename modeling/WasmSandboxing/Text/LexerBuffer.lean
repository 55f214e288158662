import WasmSandboxing.Foundation.Slices

namespace WasmSandboxing
namespace Text

open Foundation

/-!
# The buffer of the lexer

The generated scanner works on a window of the source.  Before it looks at bytes
that the window may not have, it asks for them, and the buffer is shifted or
grown, filled from the source, and padded where the source ends.  Pointers into
the buffer are kept as their distance from its beginning.
-/

/-- `YYMAXFILL` -/
def maxFill : Nat := 29

/-- `INITIAL_LEXER_BUFFER_SIZE` -/
def initialLexerBufferSize : Nat := 64 * 1024

/-- The "fake characters" at the end of the source. -/
def padding : List UInt8 := List.replicate maxFill 0xff

/-- The part of the lexer that `Fill` works on, and the source it reads. -/
structure LexerBuffer where
  /-- `buffer_`; its length is `buffer_size_` -/
  bytes : List UInt8
  bufferFileOffset : Nat
  eof : Bool
  /-- It is not moved when a token begins, and may have been left behind. -/
  marker : Int
  nextPos : Nat
  cursor : Nat
  limit : Nat
  /-- `read_offset_` of the source -/
  readOffset : Nat

namespace LexerBuffer

/-- All pointers are null before the first call. -/
def start : LexerBuffer where
  bytes := []
  bufferFileOffset := 0
  eof := false
  marker := 0
  nextPos := 0
  cursor := 0
  limit := 0
  readOffset := 0

/-- The bytes that are in use: those from the beginning of the token on. -/
def window (buffer : LexerBuffer) : List UInt8 :=
  slice buffer.bytes buffer.nextPos buffer.limit

/-! ## Refilling -/

/-- The loop that doubles the size of the new buffer.  A size of zero, which no
doubling makes larger, is never asked for. -/
def doubleUntil (oldSize free need newSize : Nat) : Nat :=
  if newSize - oldSize + free < need + maxFill ∧ 0 < newSize then
    doubleUntil oldSize free need (newSize * 2)
  else
    newSize
termination_by oldSize + need + maxFill - newSize

/-- `new_buffer_size` -/
def newBufferSize (buffer : LexerBuffer) (need : Nat) : Nat :=
  let oldSize := buffer.bytes.length
  doubleUntil oldSize buffer.nextPos need
    (if oldSize ≠ 0 then oldSize * 2 else initialLexerBufferSize)

/-- The window is moved to the beginning of `target`, and the pointers with it. -/
def rebase (buffer : LexerBuffer) (target : List UInt8) : LexerBuffer :=
  { buffer with
    bytes := overwrite target 0 buffer.window
    bufferFileOffset := buffer.bufferFileOffset + buffer.nextPos
    marker := buffer.marker - buffer.nextPos
    nextPos := buffer.nextPos - buffer.nextPos
    cursor := buffer.cursor - buffer.nextPos
    limit := buffer.limit - buffer.nextPos }

/-- The two ways to make room: `noise` is what a new buffer of a given size
happens to contain.  The second component is how much is then read. -/
def makeRoom (noise : Nat -> Nat -> UInt8) (need : Nat) (buffer : LexerBuffer) :
    LexerBuffer × Nat :=
  let free := buffer.nextPos
  if free < need then
    let newSize := buffer.newBufferSize need
    (buffer.rebase ((List.range newSize).map (noise newSize)),
      free + (newSize - buffer.bytes.length))
  else
    (buffer.rebase buffer.bytes, free)

/-- `limit_ += source_->Fill(limit_, size)` -/
def readSource (source : List UInt8) (size : Nat) (buffer : LexerBuffer) : LexerBuffer :=
  let data := (source.drop buffer.readOffset).take size
  { buffer with
    bytes := overwrite buffer.bytes buffer.limit data
    limit := buffer.limit + data.length
    readOffset := buffer.readOffset + data.length }

/-- A buffer that is not full is taken for the end of the source. -/
def padEnd (buffer : LexerBuffer) : LexerBuffer :=
  if buffer.limit + maxFill < buffer.bytes.length then
    { buffer with
      eof := true
      bytes := overwrite buffer.bytes buffer.limit padding
      limit := buffer.limit + padding.length }
  else
    buffer

/-- `WastLexer::Fill`, where `none` stands for `Result::Error`. -/
def fill (source : List UInt8) (noise : Nat -> Nat -> UInt8) (need : Nat) (buffer : LexerBuffer) :
    Option LexerBuffer :=
  if buffer.eof then
    none
  else
    let room := buffer.makeRoom noise need
    some (padEnd (readSource source room.2 room.1))

/-! ## What the buffer holds -/

/-- The pointers are in order, and the window is the part of the padded source
at the file offset of the token. -/
structure Held (source : List UInt8) (buffer : LexerBuffer) : Prop where
  token_le : buffer.nextPos ≤ buffer.cursor
  marker_le : buffer.marker ≤ buffer.cursor
  cursor_le : buffer.cursor ≤ buffer.limit
  limit_le : buffer.limit ≤ buffer.bytes.length
  holds : buffer.window =
    slice (source ++ padding) (buffer.bufferFileOffset + buffer.nextPos)
      (buffer.bufferFileOffset + buffer.limit)

/-- Until the end of the source, the window ends where the source is read on and
the buffer is as good as full.  At the end the padding follows the source. -/
structure Sound (source : List UInt8) (buffer : LexerBuffer) : Prop
    extends Held source buffer where
  reading : buffer.eof = false ->
    buffer.bufferFileOffset + buffer.limit = buffer.readOffset ∧
      buffer.readOffset ≤ source.length ∧ buffer.bytes.length ≤ buffer.limit + maxFill
  ended : buffer.eof = true ->
    buffer.bufferFileOffset + buffer.limit = source.length + maxFill ∧
      buffer.readOffset = source.length

variable {source : List UInt8} {noise : Nat -> Nat -> UInt8} {need : Nat}
  {buffer after : LexerBuffer}

theorem start_sound (source : List UInt8) : Sound source start where
  token_le := Nat.le_refl 0
  marker_le := Int.le_refl 0
  cursor_le := Nat.le_refl 0
  limit_le := Nat.le_refl 0
  holds := by rw [window, start, slice_self, slice_self]
  reading _ := ⟨rfl, Nat.zero_le _, Nat.zero_le _⟩
  ended finished := by cases finished

/-- The scanner may move its pointers within the window. -/
theorem Sound.moved {nextPos cursor : Nat} {marker : Int} (sound : Sound source buffer)
    (token : buffer.nextPos ≤ nextPos) (ahead : nextPos ≤ cursor) (behind : marker ≤ cursor)
    (below : cursor ≤ buffer.limit) :
    Sound source { buffer with nextPos, cursor, marker } := by
  refine ⟨⟨ahead, behind, below, sound.limit_le, ?_⟩, sound.reading, sound.ended⟩
  have whole := congrArg (List.drop (nextPos - buffer.nextPos)) sound.holds
  simp only [window, slice, List.drop_drop] at whole ⊢
  rw [Nat.add_sub_cancel' token] at whole
  refine whole.trans ?_
  congr 1
  omega

theorem padding_length : padding.length = maxFill := List.length_replicate

theorem window_length (limit_le : buffer.limit ≤ buffer.bytes.length) :
    buffer.window.length = buffer.limit - buffer.nextPos := by
  rw [window, slice_length, Nat.min_eq_left limit_le]

/-! ## Making room -/

theorem rebase_length {target : List UInt8} (limit_le : buffer.limit ≤ buffer.bytes.length)
    (room : buffer.limit - buffer.nextPos ≤ target.length) :
    (buffer.rebase target).bytes.length = target.length := by
  refine overwrite_length ?_
  rw [window_length limit_le, Nat.zero_add]
  exact room

theorem rebase_held {target : List UInt8} (held : Held source buffer)
    (room : buffer.limit - buffer.nextPos ≤ target.length) :
    Held source (buffer.rebase target) where
  token_le := Nat.sub_le_sub_right held.token_le _
  marker_le := by
    have behind := held.marker_le
    have ahead := held.token_le
    dsimp only [rebase]
    omega
  cursor_le := Nat.sub_le_sub_right held.cursor_le _
  limit_le := (rebase_length held.limit_le room).symm ▸ room
  holds := by
    have before := held.token_le
    have below := held.cursor_le
    have moved : slice (overwrite target 0 buffer.window) 0 (0 + buffer.window.length) =
        buffer.window := by
      rw [slice_overwrite (Nat.le_refl 0) (Nat.zero_le _), slice_self, List.nil_append]
    rw [window_length held.limit_le, Nat.zero_add] at moved
    dsimp only [window, rebase] at moved ⊢
    rw [Nat.sub_self, moved]
    refine held.holds.trans ?_
    congr 1
    omega

theorem doubleUntil_ge (oldSize free need newSize : Nat) :
    newSize ≤ doubleUntil oldSize free need newSize := by
  induction newSize using doubleUntil.induct oldSize free need with
  | case1 newSize again inductionHypothesis =>
      rw [doubleUntil, if_pos again]
      omega
  | case2 newSize done => rw [doubleUntil, if_neg done]

/-- When the loop ends there is room for the request and for the padding. -/
theorem doubleUntil_enough (oldSize free need newSize : Nat) (positive : 0 < newSize) :
    need + maxFill ≤ doubleUntil oldSize free need newSize - oldSize + free := by
  induction newSize using doubleUntil.induct oldSize free need with
  | case1 newSize again inductionHypothesis =>
      rw [doubleUntil, if_pos again]
      exact inductionHypothesis (by omega)
  | case2 newSize done =>
      rw [doubleUntil, if_neg done]
      omega

theorem newBufferSize_ge (buffer : LexerBuffer) (need : Nat) :
    buffer.bytes.length ≤ buffer.newBufferSize need := by
  refine Nat.le_trans ?_ (doubleUntil_ge _ _ _ _)
  split <;> omega

theorem newBufferSize_enough (buffer : LexerBuffer) (need : Nat) :
    need + maxFill ≤ buffer.newBufferSize need - buffer.bytes.length + buffer.nextPos := by
  refine doubleUntil_enough _ _ _ _ ?_
  split
  · omega
  · decide

/-- What is known of the buffer in which room was made, and of how much is read
into it. -/
structure Roomy (source : List UInt8) (need : Nat) (buffer : LexerBuffer)
    (room : LexerBuffer × Nat) : Prop extends Held source room.1 where
  nextPos_eq : room.1.nextPos = 0
  offset_eq : room.1.bufferFileOffset = buffer.bufferFileOffset + buffer.nextPos
  marker_eq : room.1.marker = buffer.marker - buffer.nextPos
  cursor_eq : room.1.cursor = buffer.cursor - buffer.nextPos
  limit_eq : room.1.limit = buffer.limit - buffer.nextPos
  readOffset_eq : room.1.readOffset = buffer.readOffset
  eof_eq : room.1.eof = buffer.eof
  fits : buffer.limit + room.1.bytes.length =
    room.1.limit + room.2 + buffer.bytes.length
  shifted : need ≤ buffer.nextPos ->
    room.2 = buffer.nextPos ∧ room.1.bytes.length = buffer.bytes.length
  grown : buffer.nextPos < need ->
    room.2 = buffer.nextPos + (buffer.newBufferSize need - buffer.bytes.length) ∧
      room.1.bytes.length = buffer.newBufferSize need

theorem makeRoom_roomy (noise : Nat -> Nat -> UInt8) (need : Nat) (held : Held source buffer) :
    Roomy source need buffer (buffer.makeRoom noise need) := by
  have before := held.token_le
  have below := held.cursor_le
  have inside := held.limit_le
  unfold makeRoom
  by_cases small : buffer.nextPos < need
  · have larger := newBufferSize_ge buffer need
    have size : ((List.range (buffer.newBufferSize need)).map
        (noise (buffer.newBufferSize need))).length = buffer.newBufferSize need := by
      rw [List.length_map, List.length_range]
    have room : buffer.limit - buffer.nextPos ≤ ((List.range (buffer.newBufferSize need)).map
        (noise (buffer.newBufferSize need))).length := by omega
    have length := rebase_length inside room
    simp only [if_pos small]
    exact
      { toHeld := rebase_held held room
        nextPos_eq := Nat.sub_self _
        offset_eq := rfl
        marker_eq := rfl
        cursor_eq := rfl
        limit_eq := rfl
        readOffset_eq := rfl
        eof_eq := rfl
        fits := by
          rw [length, size]
          dsimp only [rebase]
          omega
        shifted := fun large => absurd small (Nat.not_lt.mpr large)
        grown := fun _small => ⟨rfl, length.trans size⟩ }
  · have room : buffer.limit - buffer.nextPos ≤ buffer.bytes.length := by omega
    have length := rebase_length inside room
    simp only [if_neg small]
    exact
      { toHeld := rebase_held held room
        nextPos_eq := Nat.sub_self _
        offset_eq := rfl
        marker_eq := rfl
        cursor_eq := rfl
        limit_eq := rfl
        readOffset_eq := rfl
        eof_eq := rfl
        fits := by
          rw [length]
          dsimp only [rebase]
          omega
        shifted := fun _large => ⟨rfl, length⟩
        grown := fun less => absurd less small }

/-! ## Reading and padding -/

/-- Writing behind the window keeps what is held, if what is written is what the
source has there. -/
theorem held_of_overwrite (data : List UInt8) (held : Held source buffer)
    (fits : buffer.limit + data.length ≤ buffer.bytes.length)
    (follows : slice (source ++ padding) (buffer.bufferFileOffset + buffer.limit)
      (buffer.bufferFileOffset + buffer.limit + data.length) = data)
    (known : buffer.bufferFileOffset + buffer.limit ≤ source.length + maxFill)
    (same : after.bytes = overwrite buffer.bytes buffer.limit data ∧
      after.limit = buffer.limit + data.length ∧
      after.bufferFileOffset = buffer.bufferFileOffset ∧ after.nextPos = buffer.nextPos ∧
      after.cursor = buffer.cursor ∧ after.marker = buffer.marker) : Held source after := by
  rcases same with ⟨bytes, limit, offset, nextPos, cursor, marker⟩
  have before := Nat.le_trans held.token_le held.cursor_le
  refine ⟨?_, ?_, ?_, ?_, ?_⟩
  · rw [nextPos, cursor]
    exact held.token_le
  · rw [marker, cursor]
    exact held.marker_le
  · rw [cursor, limit]
    exact Nat.le_trans held.cursor_le (Nat.le_add_right _ _)
  · rw [bytes, limit, overwrite_length fits]
    exact fits
  · have whole := held.holds
    rw [window] at whole
    rw [window, bytes, limit, offset, nextPos, slice_overwrite before held.limit_le, whole,
      ← Nat.add_assoc]
    conv_lhs => rw [← follows]
    refine slice_append_slice (Nat.add_le_add_left before _) (Nat.le_add_right _ _) ?_
    rw [List.length_append, padding_length]
    exact known

theorem readSource_length (source : List UInt8) (size : Nat) (buffer : LexerBuffer) :
    ((source.drop buffer.readOffset).take size).length =
      min size (source.length - buffer.readOffset) := by
  rw [List.length_take, List.length_drop]

/-- The source is read on where the window ends. -/
theorem readSource_held {size : Nat} (held : Held source buffer)
    (fits : buffer.limit + size ≤ buffer.bytes.length)
    (reading : buffer.bufferFileOffset + buffer.limit = buffer.readOffset)
    (inside : buffer.readOffset ≤ source.length) :
    Held source (buffer.readSource source size) := by
  have length := readSource_length source size buffer
  refine held_of_overwrite ((source.drop buffer.readOffset).take size) held ?_ ?_ ?_
    ⟨rfl, rfl, rfl, rfl, rfl, rfl⟩
  · omega
  · rw [length, reading, slice_append_left _ (by omega), ← take_drop_eq_slice]
    exact List.take_eq_take_iff.mpr (by rw [List.length_drop]; omega)
  · omega

theorem padEnd_held (held : Held source buffer)
    (finished : buffer.limit + maxFill < buffer.bytes.length ->
      buffer.bufferFileOffset + buffer.limit = source.length) : Held source buffer.padEnd := by
  unfold padEnd
  split
  · rename_i short
    have last := finished short
    refine held_of_overwrite padding held ?_ ?_ ?_ ⟨rfl, rfl, rfl, rfl, rfl, rfl⟩
    · rw [padding_length]
      exact Nat.le_of_lt short
    · rw [last, slice, ← List.length_append, List.take_length, List.drop_left]
    · omega
  · exact held

/-! ## A whole refill -/

section

variable (buffer)

@[simp] theorem padEnd_bufferFileOffset :
    buffer.padEnd.bufferFileOffset = buffer.bufferFileOffset := by
  unfold padEnd
  split <;> rfl

@[simp] theorem padEnd_nextPos : buffer.padEnd.nextPos = buffer.nextPos := by
  unfold padEnd
  split <;> rfl

@[simp] theorem padEnd_cursor : buffer.padEnd.cursor = buffer.cursor := by
  unfold padEnd
  split <;> rfl

@[simp] theorem padEnd_marker : buffer.padEnd.marker = buffer.marker := by
  unfold padEnd
  split <;> rfl

@[simp] theorem padEnd_readOffset : buffer.padEnd.readOffset = buffer.readOffset := by
  unfold padEnd
  split <;> rfl

theorem padEnd_limit : buffer.padEnd.limit =
    if buffer.limit + maxFill < buffer.bytes.length then buffer.limit + maxFill
    else buffer.limit := by
  unfold padEnd
  split
  · exact congrArg (buffer.limit + ·) padding_length
  · rfl

end

theorem fill_eq_some (filled : buffer.fill source noise need = some after) :
    buffer.eof = false ∧ after = padEnd
      (readSource source (buffer.makeRoom noise need).2 (buffer.makeRoom noise need).1) := by
  unfold fill at filled
  split at filled
  · cases filled
  · rename_i reading
    exact ⟨Bool.not_eq_true _ ▸ reading, (Option.some.inj filled).symm⟩

theorem padEnd_length (buffer : LexerBuffer) :
    buffer.padEnd.bytes.length = buffer.bytes.length := by
  unfold padEnd
  split
  · rename_i short
    exact overwrite_length (by rw [padding_length]; exact Nat.le_of_lt short)
  · rfl

/-- Where a refill leaves the pointers, and what it reads. -/
structure Refill (source : List UInt8) (need : Nat) (buffer after : LexerBuffer)
    (size count : Nat) : Prop where
  length_eq : after.bytes.length = size
  nextPos_eq : after.nextPos = 0
  offset_eq : after.bufferFileOffset = buffer.bufferFileOffset + buffer.nextPos
  marker_eq : after.marker = buffer.marker - buffer.nextPos
  cursor_eq : after.cursor = buffer.cursor - buffer.nextPos
  readOffset_eq : after.readOffset = buffer.readOffset + count
  limit_eq : after.limit =
    if buffer.limit - buffer.nextPos + count + maxFill < size then
      buffer.limit - buffer.nextPos + count + maxFill
    else buffer.limit - buffer.nextPos + count
  shifted : need ≤ buffer.nextPos -> size = buffer.bytes.length ∧
    count = min buffer.nextPos (source.length - buffer.readOffset)
  grown : buffer.nextPos < need -> size = buffer.newBufferSize need ∧
    count = min (buffer.nextPos + (buffer.newBufferSize need - buffer.bytes.length))
      (source.length - buffer.readOffset)

theorem readSource_bytes_length (source : List UInt8) {size : Nat} (fits : buffer.limit + size ≤ buffer.bytes.length) :
    (buffer.readSource source size).bytes.length = buffer.bytes.length := by
  refine overwrite_length ?_
  rw [readSource_length]
  omega

theorem readSource_limit (source : List UInt8) (size : Nat) (buffer : LexerBuffer) :
    (buffer.readSource source size).limit =
      buffer.limit + min size (source.length - buffer.readOffset) :=
  congrArg (buffer.limit + ·) (readSource_length source size buffer)

theorem readSource_readOffset (source : List UInt8) (size : Nat) (buffer : LexerBuffer) :
    (buffer.readSource source size).readOffset =
      buffer.readOffset + min size (source.length - buffer.readOffset) :=
  congrArg (buffer.readOffset + ·) (readSource_length source size buffer)

theorem fill_refill (sound : Sound source buffer)
    (filled : buffer.fill source noise need = some after) :
    ∃ size count, Refill source need buffer after size count := by
  rcases fill_eq_some filled with ⟨reading, rfl⟩
  have room := makeRoom_roomy noise need sound.toHeld
  have full := (sound.reading reading).2.2
  have inside := sound.limit_le
  have fits := room.fits
  generalize buffer.makeRoom noise need = made at room fits ⊢
  have enough : made.1.limit + made.2 ≤ made.1.bytes.length := by omega
  refine ⟨made.1.bytes.length, min made.2 (source.length - buffer.readOffset), ?_, ?_, ?_, ?_, ?_,
    ?_, ?_, ?_, ?_⟩
  · rw [padEnd_length, readSource_bytes_length source enough]
  · rw [padEnd_nextPos]
    exact room.nextPos_eq
  · rw [padEnd_bufferFileOffset]
    exact room.offset_eq
  · rw [padEnd_marker]
    exact room.marker_eq
  · rw [padEnd_cursor]
    exact room.cursor_eq
  · rw [padEnd_readOffset, readSource_readOffset, room.readOffset_eq]
  · rw [padEnd_limit, readSource_limit, readSource_bytes_length source enough, room.limit_eq,
      room.readOffset_eq]
  · intro large
    rcases room.shifted large with ⟨size, length⟩
    exact ⟨length, by rw [size]⟩
  · intro small
    rcases room.grown small with ⟨size, length⟩
    exact ⟨length, by rw [size]⟩

/-- A refill keeps the invariant, whatever is asked for. -/
theorem fill_sound (sound : Sound source buffer)
    (filled : buffer.fill source noise need = some after) : Sound source after := by
  rcases fill_eq_some filled with ⟨reading, rfl⟩
  rcases sound.reading reading with ⟨offset, known, full⟩
  have room := makeRoom_roomy noise need sound.toHeld
  have before := Nat.le_trans sound.token_le sound.cursor_le
  have inside := sound.limit_le
  have moved := room.limit_eq
  have placed := room.offset_eq
  have fits := room.fits
  have unread := room.readOffset_eq
  have unfinished := room.eof_eq
  generalize buffer.makeRoom noise need = made at room moved placed fits unread unfinished ⊢
  have enough : made.1.limit + made.2 ≤ made.1.bytes.length := by omega
  have length := readSource_bytes_length source enough
  have limit := readSource_limit source made.2 made.1
  have readOffset := readSource_readOffset source made.2 made.1
  have kept : (made.1.readSource source made.2).bufferFileOffset = made.1.bufferFileOffset := rfl
  have unended : (made.1.readSource source made.2).eof = false := unfinished.trans reading
  have held : Held source (made.1.readSource source made.2) :=
    readSource_held room.toHeld enough (by omega) (by omega)
  generalize made.1.readSource source made.2 = read at held length limit readOffset kept unended ⊢
  -- a buffer that is not full has been read into until the source ended
  have finished : read.limit + maxFill < read.bytes.length -> read.readOffset = source.length := by
    omega
  refine ⟨padEnd_held held (by omega), ?_, ?_⟩
  · intro reading
    rw [padEnd_bufferFileOffset, padEnd_readOffset, padEnd_limit]
    unfold padEnd at reading ⊢
    split at reading
    · cases reading
    · rename_i fullNow
      rw [if_neg fullNow, if_neg fullNow]
      omega
  · intro ended
    rw [padEnd_bufferFileOffset, padEnd_readOffset, padEnd_limit]
    unfold padEnd at ended
    split at ended
    · rename_i short
      rw [if_pos short]
      omega
    · exact absurd (unended.symm.trans ended) (by decide)

/-- What a refill is for: the bytes that were asked for are there, the buffer
holds the padded source from the token on, the pointers are in it and in order,
the positions in the file are those from before, and nothing is lost or read
again. -/
structure Refilled (source : List UInt8) (need : Nat) (buffer after : LexerBuffer) : Prop where
  enough : need ≤ after.limit - after.cursor
  holds : after.window =
    slice (source ++ padding) (after.bufferFileOffset + after.nextPos)
      (after.bufferFileOffset + after.limit)
  nextPos_le : after.nextPos ≤ after.marker
  marker_le : after.marker ≤ after.cursor
  token_le : after.nextPos ≤ after.cursor
  cursor_le : after.cursor ≤ after.limit
  limit_le : after.limit ≤ after.bytes.length
  token_at : after.bufferFileOffset + after.nextPos = buffer.bufferFileOffset + buffer.nextPos
  cursor_at : after.bufferFileOffset + after.cursor = buffer.bufferFileOffset + buffer.cursor
  marker_at : after.bufferFileOffset + after.marker = buffer.bufferFileOffset + buffer.marker
  kept : buffer.bufferFileOffset + buffer.limit ≤ after.bufferFileOffset + after.limit
  reading : after.eof = false -> after.bufferFileOffset + after.limit = after.readOffset
  ended : after.eof = true -> after.bufferFileOffset + after.limit = source.length + maxFill

/-- How much is read into a buffer that is shifted. -/
def arriving (source : List UInt8) (buffer : LexerBuffer) : Nat :=
  min buffer.nextPos (source.length - buffer.readOffset)

/-- The buffer is grown, or what is read into it is enough, or it is padded.  It
is not padded when the source ends within `YYMAXFILL` bytes of the end of the
buffer. -/
def Ample (source : List UInt8) (need : Nat) (buffer : LexerBuffer) : Prop :=
  buffer.nextPos < need ∨ need ≤ buffer.limit + arriving source buffer - buffer.cursor ∨
    buffer.limit - buffer.nextPos + arriving source buffer + maxFill < buffer.bytes.length

instance (source : List UInt8) (need : Nat) (buffer : LexerBuffer) :
    Decidable (Ample source need buffer) :=
  inferInstanceAs (Decidable (_ ∨ _ ∨ _))

/-- The bytes that are asked for come exactly if the refill is ample. -/
theorem enough_iff_ample (sound : Sound source buffer) (small : need ≤ maxFill)
    (filled : buffer.fill source noise need = some after) :
    need ≤ after.limit - after.cursor ↔ Ample source need buffer := by
  rcases fill_refill sound filled with ⟨size, count, refill⟩
  have before := sound.token_le
  have below := sound.cursor_le
  have limit := refill.limit_eq
  have cursor := refill.cursor_eq
  unfold Ample
  by_cases shift : need ≤ buffer.nextPos
  · have grows : ¬buffer.nextPos < need := Nat.not_lt.mpr shift
    have arrived : count = arriving source buffer := (refill.shifted shift).2
    rw [or_iff_right grows, ← (refill.shifted shift).1, ← arrived, limit, cursor]
    split <;> omega
  · have grows : buffer.nextPos < need := Nat.lt_of_not_le shift
    refine iff_of_true ?_ (Or.inl grows)
    have enough := newBufferSize_enough buffer need
    have inside := sound.limit_le
    rcases refill.grown grows with ⟨rfl, arrived⟩
    rw [limit, cursor]
    split <;> omega

/-- A refill does what it is for exactly if it is ample and the marker has not
been left behind. -/
theorem refilled_iff (sound : Sound source buffer) (small : need ≤ maxFill)
    (filled : buffer.fill source noise need = some after) :
    Refilled source need buffer after ↔
      Ample source need buffer ∧ buffer.nextPos ≤ buffer.marker := by
  have later := fill_sound sound filled
  rcases fill_refill sound filled with ⟨size, count, refill⟩
  have before := sound.token_le
  have below := sound.cursor_le
  have limit := refill.limit_eq
  have cursor := refill.cursor_eq
  have nextPos := refill.nextPos_eq
  have marker := refill.marker_eq
  have offset := refill.offset_eq
  constructor
  · intro refilled
    refine ⟨(enough_iff_ample sound small filled).mp refilled.enough, ?_⟩
    have inside := refilled.nextPos_le
    omega
  · rintro ⟨ample, inside⟩
    exact
      { enough := (enough_iff_ample sound small filled).mpr ample
        holds := later.holds
        nextPos_le := by omega
        marker_le := later.marker_le
        token_le := later.token_le
        cursor_le := later.cursor_le
        limit_le := later.limit_le
        token_at := by omega
        cursor_at := by omega
        marker_at := by omega
        kept := by
          rw [limit, offset]
          split <;> omega
        reading := fun unended => (later.reading unended).1
        ended := fun finished => (later.ended finished).1 }

end LexerBuffer

end Text
end WasmSandboxing
