import WasmSandboxing.Foundation.Slices

namespace WasmSandboxing
namespace Text

open Foundation

/-!
# Sources of text

`lexer-source.cc`.  A source is a file or a buffer; it is read from an offset
on, and a range of it can be read without moving that offset.
-/

/-- `OffsetRange`, whose `end` is `stop` here. -/
structure OffsetRange where
  start : Nat
  stop : Nat
  deriving Repr, DecidableEq

/-- The range's `end` is never in front of its `start`, so that nothing wraps. -/
def OffsetRange.size (range : OffsetRange) : Nat := range.stop - range.start

/-- What `FILE*` points to: the bytes of the file and the offset in them. -/
structure OpenFile where
  contents : List UInt8
  offset : Nat
  deriving Repr, DecidableEq

/-- `LexerSourceFile`, whose file may not have been opened, and
`LexerSourceBuffer`. -/
inductive LexerSource where
  | file (file : Option OpenFile)
  | buffer (data : List UInt8) (readOffset : Nat)
  deriving Repr, DecidableEq

namespace LexerSource

/-- `Tell`, where `none` stands for `Result::Error`. -/
def tell : LexerSource -> Option Nat
  | file none => none
  | file (some opened) => some opened.offset
  | buffer _ readOffset => some readOffset

/-- `LexerSourceFile::Seek` -/
def seek (offset : Nat) : Option OpenFile -> Option OpenFile
  | none => none
  | some opened => some { opened with offset := offset }

/-- `LexerSourceFile::Fill`, with the bytes that it reads. -/
def fillFile (size : Nat) : Option OpenFile -> List UInt8 × Option OpenFile
  | none => ([], none)
  | some opened =>
      let read := (opened.contents.drop opened.offset).take size
      (read, some { opened with offset := opened.offset + read.length })

/-- `Fill` -/
def fill (size : Nat) : LexerSource -> List UInt8 × LexerSource
  | file opened =>
      let filled := fillFile size opened
      (filled.1, file filled.2)
  | buffer data readOffset =>
      let readSize := min size (data.length - readOffset)
      (slice data readOffset (readOffset + readSize), buffer data (readOffset + readSize))

/-- `ReadRange`.  A file is taken back to the offset it was at. -/
def readRange (range : OffsetRange) : LexerSource -> Option (List UInt8 × LexerSource)
  | file opened => do
      let oldOffset <- (file opened).tell
      let sought <- seek range.start opened
      let read := if 0 < range.size then fillFile range.size sought else ([], sought)
      let restored <- seek oldOffset read.2
      some (read.1, file restored)
  | buffer data readOffset =>
      let clamped : OffsetRange := ⟨min range.start data.length, min range.stop data.length⟩
      some (slice data clamped.start clamped.stop, buffer data readOffset)

/-- What a source has left to be read. -/
def unread : LexerSource -> Nat
  | file none => 0
  | file (some opened) => opened.contents.length - opened.offset
  | buffer data readOffset => data.length - readOffset

/-- A block that is full has been taken from what was left. -/
theorem unread_fill {size : Nat} (positive : 0 < size) (source : LexerSource)
    (full : ¬ (source.fill size).1.length < size) :
    (source.fill size).2.unread < source.unread := by
  cases source with
  | file opened =>
      cases opened with
      | none => exact absurd positive full
      | some opened =>
          simp only [fill, fillFile, List.length_take, List.length_drop, unread] at full ⊢
          omega
  | buffer data readOffset =>
      simp only [fill, slice_length, unread] at full ⊢
      omega

/-- A source of `data` that stands at `offset`; a file has been opened. -/
inductive At (data : List UInt8) (offset : Nat) : LexerSource -> Prop
  | file : At data offset (file (some ⟨data, offset⟩))
  | buffer : At data offset (buffer data offset)

variable {data : List UInt8} {offset : Nat} {source : LexerSource}

theorem At.tell (stands : At data offset source) : source.tell = some offset := by
  cases stands <;> rfl

/-- Filling reads what follows, as far as there is something. -/
theorem At.fill (stands : At data offset source) (inside : offset ≤ data.length) (size : Nat) :
    (source.fill size).1 = slice data offset (offset + size) ∧
      At data (min (offset + size) data.length) (source.fill size).2 := by
  have read_length : ((data.drop offset).take size).length = min size (data.length - offset) := by
    rw [List.length_take, List.length_drop]
  have reached : offset + min size (data.length - offset) = min (offset + size) data.length := by
    omega
  cases stands with
  | file =>
      refine ⟨take_drop_eq_slice data offset size, ?_⟩
      rw [← reached, ← read_length]
      exact .file
  | buffer =>
      constructor
      · change slice data offset (offset + min size (data.length - offset)) = _
        rw [reached, slice, slice, List.take_eq_take_min]
        simp only [Nat.min_assoc, Nat.min_self]
        rw [← List.take_eq_take_min]
      · rw [← reached]
        exact .buffer

/-- Reading a range leaves the source as it was. -/
theorem At.readRange (stands : At data offset source) {range : OffsetRange}
    (ordered : range.start ≤ range.stop) (inside : range.stop ≤ data.length) :
    source.readRange range = some (slice data range.start range.stop, source) := by
  cases stands with
  | file =>
      simp only [LexerSource.readRange, LexerSource.tell, seek, fillFile, Option.bind_eq_bind,
        Option.bind_some]
      by_cases filled : 0 < range.size
      · rw [if_pos filled, take_drop_eq_slice, OffsetRange.size, Nat.add_sub_cancel' ordered]
        rfl
      · have same : range.stop = range.start :=
          Nat.le_antisymm (Nat.le_of_sub_eq_zero (Nat.eq_zero_of_not_pos filled)) ordered
        rw [if_neg filled, same, slice_self]
        rfl
  | buffer =>
      rw [LexerSource.readRange, Nat.min_eq_left inside,
        Nat.min_eq_left (Nat.le_trans ordered inside)]

end LexerSource

end Text
end WasmSandboxing
