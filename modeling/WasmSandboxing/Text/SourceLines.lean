import WasmSandboxing.Foundation.Threading
import WasmSandboxing.Text.LexerSource
import WasmSandboxing.Text.Rules
import Mathlib.Algebra.Ring.Int.Defs

namespace WasmSandboxing
namespace Text
namespace SourceLines

open Foundation Lexer

/-!
# The source line of an error message

`lexer-source-line-finder.cc`.  The ranges of the lines are found block by block
and kept, and a line that is too long is cut around the columns of a location.
-/

/-! ## Finding lines -/

def carriageReturn : UInt8 := 0x0d

/-- An `int` or `Offset` that is taken as a `size_t`. -/
def sizeT (number : Int) : Nat := (number % 2 ^ 64).toNat

/-- What fits no `int` wraps around, though the language leaves it undefined. -/
def int32 (number : Int) : Int := number.bmod (2 ^ 32)

structure LexerSourceLineFinder where
  source : LexerSource
  lineRanges : List OffsetRange
  nextLineStart : Nat
  /-- "Last read character was a '\r' (carriage return)." -/
  lastCr : Bool
  eof : Bool

/-- "Line 0 should not be used; but it makes indexing simpler." -/
def construct (source : LexerSource) : LexerSourceLineFinder where
  source := source
  lineRanges := [⟨0, 0⟩]
  nextLineStart := 0
  lastCr := false
  eof := false

/-- `IsLineCached` and `GetCachedLine` -/
def cachedLine (finder : LexerSourceLineFinder) (line : Int) : Option OffsetRange :=
  finder.lineRanges[sizeT line]?

/-- The body of the loop over a block, at an offset of the source. -/
def scanCharacter (position : Nat) (finder : LexerSourceLineFinder) (c : UInt8) :
    LexerSourceLineFinder :=
  let found :=
    if c = newline then
      -- Don't include \n or \r in the line range.
      let lineOffset := position - finder.lastCr.toNat
      { finder with
        lineRanges := finder.lineRanges ++ [⟨finder.nextLineStart, lineOffset⟩]
        nextLineStart := lineOffset + finder.lastCr.toNat + 1 }
    else
      finder
  { found with lastCr := c == carriageReturn }

/-- The loop over a block. -/
def scan : Nat -> LexerSourceLineFinder -> List UInt8 -> LexerSourceLineFinder
  | _, finder, [] => finder
  | position, finder, c :: rest => scan (position + 1) (scanCharacter position finder c) rest

/-- The final line ends where the source does. -/
def addFinalLine (fileSize : Nat) (finder : LexerSourceLineFinder) : LexerSourceLineFinder :=
  { finder with lineRanges := finder.lineRanges ++ [⟨finder.nextLineStart, fileSize⟩] }

/-- What is done with a block that has been read at an offset. -/
def takeBlock (bufferSize bufferFileOffset : Nat) (finder : LexerSourceLineFinder)
    (filled : List UInt8 × LexerSource) : LexerSourceLineFinder :=
  let eof := decide (filled.1.length < bufferSize)
  let scanned :=
    scan bufferFileOffset { finder with source := filled.2, eof := eof } filled.1
  if eof then addFinalLine (bufferFileOffset + filled.1.length) scanned else scanned

theorem scan_source (position : Nat) (finder : LexerSourceLineFinder) (block : List UInt8) :
    (scan position finder block).source = finder.source := by
  induction block generalizing position finder with
  | nil => rfl
  | cons c rest inductionHypothesis =>
      rw [scan, inductionHypothesis, scanCharacter]
      split <;> rfl

theorem scan_eof (position : Nat) (finder : LexerSourceLineFinder) (block : List UInt8) :
    (scan position finder block).eof = finder.eof := by
  induction block generalizing position finder with
  | nil => rfl
  | cons c rest inductionHypothesis =>
      rw [scan, inductionHypothesis, scanCharacter]
      split <;> rfl

variable {bufferSize : Nat}

theorem takeBlock_source (bufferSize offset : Nat) (finder : LexerSourceLineFinder)
    (filled : List UInt8 × LexerSource) :
    (takeBlock bufferSize offset finder filled).source = filled.2 := by
  simp only [takeBlock]
  split
  · exact scan_source _ _ _
  · exact scan_source _ _ _

theorem takeBlock_eof (bufferSize offset : Nat) (finder : LexerSourceLineFinder)
    (filled : List UInt8 × LexerSource) :
    (takeBlock bufferSize offset finder filled).eof = decide (filled.1.length < bufferSize) := by
  simp only [takeBlock]
  split
  · exact scan_eof _ _ _
  · exact scan_eof _ _ _

/-- Either the end of the source is found, or less of it is left. -/
def left (finder : LexerSourceLineFinder) : Nat :=
  if finder.eof then 0 else finder.source.unread + 1

theorem left_takeBlock (positive : 0 < bufferSize) (offset : Nat)
    {finder : LexerSourceLineFinder} (more : finder.eof = false) :
    left (takeBlock bufferSize offset finder (finder.source.fill bufferSize)) < left finder := by
  rw [left, left, takeBlock_eof, takeBlock_source, more, if_neg Bool.false_ne_true]
  split
  · exact Nat.succ_pos _
  · rename_i full
    exact Nat.succ_lt_succ (LexerSource.unread_fill positive finder.source
      (of_decide_eq_false (Bool.eq_false_of_not_eq_true full)))

/-- The loop over the blocks of the source.  It fails only where `Tell` does. -/
def readBlocks (positive : 0 < bufferSize) (line : Int) (finder : LexerSourceLineFinder) :
    Bool × LexerSourceLineFinder :=
  if (cachedLine finder line).isSome then
    (true, finder)
  else if more : finder.eof then
    (true, finder)
  else
    match finder.source.tell with
    | none => (false, finder)
    | some bufferFileOffset =>
        readBlocks positive line
          (takeBlock bufferSize bufferFileOffset finder (finder.source.fill bufferSize))
termination_by left finder
decreasing_by exact left_takeBlock positive _ (Bool.eq_false_of_not_eq_true more)

/-- `GetLineOffsets` -/
def getLineOffsets (positive : 0 < bufferSize) (line : Int) (finder : LexerSourceLineFinder) :
    Option OffsetRange × LexerSourceLineFinder :=
  match cachedLine finder line with
  | some range => (some range, finder)
  | none =>
      let read := readBlocks positive line finder
      (if read.1 then cachedLine read.2 line else none, read.2)

/-- `const size_t kBufferSize = 1 << 16;` -/
def kBufferSize : Nat := 1 <<< 16

/-! ## Cutting a line -/

structure Location where
  line : Int
  firstColumn : Int
  lastColumn : Int

structure SourceLine where
  line : List UInt8
  columnOffset : Int
  deriving Repr, DecidableEq

/-- Where a line that is too long is centred, counted from its beginning. -/
def centerOn (location : Location) (maxLineLength : Nat) : Nat :=
  let columnCount := sizeT (int32 (location.lastColumn - location.firstColumn))
  if maxLineLength < columnCount then
    -- The column range doesn't fit, just center on first_column.
    sizeT (int32 (location.firstColumn - 1))
  else
    -- the entire range fits, display it all in the center.
    sizeT (int32 ((int32 (location.firstColumn + location.lastColumn)).tdiv 2 - 1))

/-- `ClampSourceLineOffsets` -/
def clampSourceLineOffsets (offsetRange : OffsetRange) (location : Location)
    (maxLineLength : Nat) : OffsetRange :=
  if maxLineLength < offsetRange.size then
    let center := centerOn location maxLineLength
    let moved :=
      if maxLineLength / 2 < center then offsetRange.start + (center - maxLineLength / 2)
      else offsetRange.start
    let start := min moved (offsetRange.stop - maxLineLength)
    ⟨start, start + maxLineLength⟩
  else
    offsetRange

/-- `"..."` -/
def ellipsis (shown : Bool) : List UInt8 := if shown then [0x2e, 0x2e, 0x2e] else []

/-- The part of a clamped range that is read. -/
def betweenEllipses (clamped : OffsetRange) (hasStartEllipsis hasEndEllipsis : Bool) :
    OffsetRange where
  start := if hasStartEllipsis then clamped.start + 3 else clamped.start
  stop := if hasEndEllipsis then clamped.stop - 3 else clamped.stop

/-- `GetSourceLine` -/
def getSourceLine (positive : 0 < bufferSize) (finder : LexerSourceLineFinder)
    (location : Location) (maxLineLength : Nat) : Option SourceLine × LexerSourceLineFinder :=
  match getLineOffsets positive location.line finder with
  | (none, found) => (none, found)
  | (some original, found) =>
      let clamped := clampSourceLineOffsets original location maxLineLength
      let hasStartEllipsis := original.start != clamped.start
      let hasEndEllipsis := original.stop != clamped.stop
      match found.source.readRange (betweenEllipses clamped hasStartEllipsis hasEndEllipsis) with
      | none => (none, found)
      | some (readLine, source) =>
          (some {
            line := ellipsis hasStartEllipsis ++ readLine ++ ellipsis hasEndEllipsis
            columnOffset := int32 (clamped.start - original.start : Nat) },
            { found with source := source })

/-! ## The lines of a source -/

def withoutReturn (line : List UInt8) : List UInt8 :=
  if line.getLast? = some carriageReturn then line.dropLast else line

/-- Every line but the last is ended by a newline. -/
def ended : List (List UInt8) -> List (List UInt8)
  | [] => []
  | [final] => [final]
  | line :: next :: rest => withoutReturn line :: ended (next :: rest)

/-- The lines of a source, without what ends them. -/
def sourceLines (data : List UInt8) : List (List UInt8) := ended (data.splitOn newline)

/-- The text of a line; lines are counted from one. -/
def textAt (data : List UInt8) (line : Int) : Option (List UInt8) :=
  if 0 < line then (sourceLines data)[(line - 1).toNat]? else none

/-- Lines that a newline ends, and what follows the last of these newlines. -/
def joined (completed : List (List UInt8)) (current : List UInt8) : List UInt8 :=
  completed.flatMap (fun line => line ++ [newline]) ++ current

theorem joined_concat (completed : List (List UInt8)) (current : List UInt8) :
    joined (completed ++ [current]) [] = joined completed current ++ [newline] := by
  rw [joined, joined, List.flatMap_append, List.flatMap_singleton, List.append_nil,
    List.append_assoc]

theorem sourceLines_joined {completed : List (List UInt8)}
    (apart : forall line, line ∈ completed -> newline ∉ line) (rest : List UInt8) :
    sourceLines (joined completed rest) = completed.map withoutReturn ++ sourceLines rest := by
  induction completed with
  | nil => rfl
  | cons line completed inductionHypothesis =>
      have within := inductionHypothesis fun other isMember =>
        apart other (List.mem_cons_of_mem _ isMember)
      have unfolded : joined (line :: completed) rest =
          line ++ newline :: joined completed rest := by
        simp only [joined, List.flatMap_cons, List.append_assoc, List.cons_append,
          List.nil_append]
      rw [unfolded, sourceLines,
        List.splitOn_append_cons_self_of_not_mem (apart line List.mem_cons_self)]
      rw [sourceLines] at within
      cases found : (joined completed rest).splitOn newline with
      | nil => exact absurd found (List.splitOn_ne_nil _ _)
      | cons next others =>
          rw [ended, ← found, within, List.map_cons, List.cons_append]

theorem sourceLines_final {line : List UInt8} (apart : newline ∉ line) :
    sourceLines line = [line] := by
  rw [sourceLines, List.splitOn_eq_singleton apart, ended]

/-! ## What has been found -/

/-- A range of the source that holds a text. -/
structure Spans (data : List UInt8) (range : OffsetRange) (text : List UInt8) : Prop where
  ordered : range.start ≤ range.stop
  inside : range.stop ≤ data.length
  holds : slice data range.start range.stop = text

theorem Spans.length {data text : List UInt8} {range : OffsetRange}
    (spans : Spans data range text) : text.length = range.stop - range.start := by
  rw [← spans.holds, slice_length, Nat.min_eq_left spans.inside]

/-- The finder has read the source up to a position: the lines that are
complete have been found, and `current` has begun. -/
structure Scanned (data : List UInt8) (position : Nat) (completed : List (List UInt8))
    (current : List UInt8) (finder : LexerSourceLineFinder) : Prop where
  inside : position ≤ data.length
  split : data.take position = joined completed current
  apart : forall line, line ∈ completed -> newline ∉ line
  begun : newline ∉ current
  ranges : ∃ ranges, finder.lineRanges = ⟨0, 0⟩ :: ranges ∧
    List.Forall₂ (Spans data) ranges (completed.map withoutReturn)
  start : finder.nextLineStart + current.length = position
  lastCr : finder.lastCr = (current.getLast? == some carriageReturn)

/-- A carriage return that the newline follows is no part of the line. -/
theorem withoutReturn_length (line : List UInt8) :
    (withoutReturn line).length =
      line.length - (line.getLast? == some carriageReturn).toNat := by
  rw [withoutReturn]
  by_cases last : line.getLast? = some carriageReturn
  · rw [if_pos last, List.length_dropLast, beq_iff_eq.mpr last]
    rfl
  · rw [if_neg last, beq_eq_false_iff_ne.mpr last]
    rfl

theorem withoutReturn_starts (line : List UInt8) : withoutReturn line <+: line := by
  rw [withoutReturn]
  split
  · exact List.dropLast_prefix line
  · exact List.prefix_rfl

namespace Scanned

variable {data current : List UInt8} {position : Nat} {completed : List (List UInt8)}
variable {finder : LexerSourceLineFinder}

/-- The line that has begun stands right in front of the position. -/
theorem slice_current (scanned : Scanned data position completed current finder) :
    slice data finder.nextLineStart position = current := by
  have front_length : (completed.flatMap fun line => line ++ [newline]).length =
      finder.nextLineStart := by
    have total := congrArg List.length scanned.split
    rw [List.length_take_of_le scanned.inside, joined, List.length_append] at total
    have start := scanned.start
    omega
  rw [slice, scanned.split, joined, List.drop_left' front_length]

theorem return_le (scanned : Scanned data position completed current finder) :
    finder.lastCr.toNat ≤ current.length := by
  rw [scanned.lastCr]
  cases current with
  | nil => exact Nat.le_refl 0
  | cons first rest => exact Nat.le_trans (Bool.toNat_le _) (Nat.succ_le_succ (Nat.zero_le _))

/-- The range that is added at a newline holds the line without its end. -/
theorem spans_current (scanned : Scanned data position completed current finder) :
    Spans data ⟨finder.nextLineStart, position - finder.lastCr.toNat⟩ (withoutReturn current) := by
  have start := scanned.start
  have within := scanned.return_le
  have inside := scanned.inside
  have shortened : (withoutReturn current).length = current.length - finder.lastCr.toNat := by
    rw [withoutReturn_length, scanned.lastCr]
  have stop_eq : position - finder.lastCr.toNat =
      finder.nextLineStart + (withoutReturn current).length := by omega
  have before : finder.nextLineStart + (withoutReturn current).length ≤ position := by omega
  have front := List.prefix_iff_eq_take.mp (withoutReturn_starts current)
  rw [stop_eq]
  refine ⟨Nat.le_add_right _ _, Nat.le_trans before inside, ?_⟩
  change slice data finder.nextLineStart (finder.nextLineStart + _) = _
  rw [← slice_take before, scanned.slice_current, ← front]

theorem ranges_append (scanned : Scanned data position completed current finder)
    {range : OffsetRange} {text : List UInt8} (spans : Spans data range text) :
    ∃ ranges, finder.lineRanges ++ [range] = ⟨0, 0⟩ :: ranges ∧
      List.Forall₂ (Spans data) ranges (completed.map withoutReturn ++ [text]) := by
  rcases scanned.ranges with ⟨ranges, ranges_eq, related⟩
  refine ⟨ranges ++ [range], ?_, List.rel_append related (.cons spans .nil)⟩
  rw [ranges_eq, List.cons_append]

/-- A newline completes the line that has begun. -/
theorem at_newline (scanned : Scanned data position completed current finder)
    (here : data[position]? = some newline) :
    Scanned data (position + 1) (completed ++ [current]) []
      (scanCharacter position finder newline) := by
  have within := scanned.return_le
  have start := scanned.start
  rw [scanCharacter, if_pos rfl]
  constructor
  · exact (List.getElem?_eq_some_iff.mp here).1
  · rw [List.take_add_one, here, scanned.split, joined_concat]
    rfl
  · intro line isMember
    rcases List.mem_append.mp isMember with before | isLast
    · exact scanned.apart line before
    · exact List.mem_singleton.mp isLast ▸ scanned.begun
  · exact List.not_mem_nil
  · rw [List.map_append]
    exact scanned.ranges_append scanned.spans_current
  · change position - finder.lastCr.toNat + finder.lastCr.toNat + 1 + 0 = position + 1
    omega
  · rfl

/-- Any other character is one more of the line. -/
theorem other (scanned : Scanned data position completed current finder) {c : UInt8}
    (here : data[position]? = some c) (different : c ≠ newline) :
    Scanned data (position + 1) completed (current ++ [c]) (scanCharacter position finder c) := by
  have start := scanned.start
  rw [scanCharacter, if_neg different]
  constructor
  · exact (List.getElem?_eq_some_iff.mp here).1
  · rw [List.take_add_one, here, scanned.split, joined, joined, List.append_assoc]
    rfl
  · exact scanned.apart
  · intro isMember
    rcases List.mem_append.mp isMember with before | isLast
    · exact scanned.begun before
    · exact different (List.mem_singleton.mp isLast).symm
  · exact scanned.ranges
  · change finder.nextLineStart + (current ++ [c]).length = position + 1
    rw [List.length_append, List.length_singleton, ← Nat.add_assoc, start]
  · change (c == carriageReturn) = _
    rw [List.getLast?_concat]
    rfl

/-- A block is scanned to its end, wherever it begins. -/
theorem scan_block {block : List UInt8} (scanned : Scanned data position completed current finder)
    (here : block <+: data.drop position) :
    ∃ completed current, Scanned data (position + block.length) completed current
      (scan position finder block) := by
  induction block generalizing position completed current finder with
  | nil => exact ⟨completed, current, scanned⟩
  | cons c rest inductionHypothesis =>
      have first : data[position]? = some c := by
        rcases here with ⟨later, split⟩
        rw [← List.head?_drop, ← split]
        rfl
      have others : rest <+: data.drop (position + 1) := by
        rcases here with ⟨later, split⟩
        refine ⟨later, ?_⟩
        rw [← List.drop_drop, ← split]
        rfl
      have length_eq : position + (c :: rest).length = position + 1 + rest.length := by
        rw [List.length_cons]
        omega
      rw [length_eq, scan]
      by_cases isNewline : c = newline
      · subst isNewline
        exact inductionHypothesis (scanned.at_newline first) others
      · exact inductionHypothesis (scanned.other first isNewline) others

/-- The lines that have been found are the first ones of the source. -/
theorem sourceLines_eq (scanned : Scanned data position completed current finder) :
    ∃ later, sourceLines data = completed.map withoutReturn ++ later := by
  refine ⟨sourceLines (current ++ data.drop position), ?_⟩
  rw [← sourceLines_joined scanned.apart, joined, ← List.append_assoc]
  congr 1
  exact (List.take_append_drop position data).symm.trans (congrArg (· ++ _) scanned.split)

/-- The last line is what has begun where the source ends. -/
theorem sourceLines_end (scanned : Scanned data position completed current finder)
    (isEnd : position = data.length) :
    sourceLines data = completed.map withoutReturn ++ [current] := by
  have whole : data = joined completed current := by
    rw [← scanned.split, isEnd, List.take_length]
  rw [whole, sourceLines_joined scanned.apart, sourceLines_final scanned.begun]

end Scanned

/-- What holds of a finder between two queries.  At the end of the source it has
found every line, and else the ones in front of the source's offset. -/
structure Held (data : List UInt8) (finder : LexerSourceLineFinder) : Prop where
  source : ∃ position, position ≤ data.length ∧ LexerSource.At data position finder.source
  found : ∃ ranges, finder.lineRanges = ⟨0, 0⟩ :: ranges ∧
    ∃ texts later, List.Forall₂ (Spans data) ranges texts ∧ sourceLines data = texts ++ later ∧
      (finder.eof -> later = [])
  scanned : finder.eof = false -> ∃ position completed current,
    LexerSource.At data position finder.source ∧
      Scanned data position completed current finder

section

variable {data : List UInt8} {finder : LexerSourceLineFinder}

theorem construct_held {source : LexerSource} (start : LexerSource.At data 0 source) :
    Held data (construct source) where
  source := ⟨0, Nat.zero_le _, start⟩
  found := ⟨[], rfl, [], sourceLines data, .nil, rfl, nofun⟩
  scanned := fun _more => ⟨0, [], [], start, {
    inside := Nat.zero_le _
    split := rfl
    apart := fun _line isMember => absurd isMember List.not_mem_nil
    begun := List.not_mem_nil
    ranges := ⟨[], rfl, .nil⟩
    start := rfl
    lastCr := rfl }⟩

theorem Scanned.held {position : Nat} {completed : List (List UInt8)} {current : List UInt8}
    (scanned : Scanned data position completed current finder)
    (stands : LexerSource.At data position finder.source) (more : finder.eof = false) :
    Held data finder where
  source := ⟨position, scanned.inside, stands⟩
  found := by
    rcases scanned.ranges with ⟨ranges, ranges_eq, related⟩
    rcases scanned.sourceLines_eq with ⟨later, lines_eq⟩
    exact ⟨ranges, ranges_eq, _, later, related, lines_eq, fun isEnd => by simp [more] at isEnd⟩
  scanned := fun _more => ⟨position, completed, current, stands, scanned⟩

/-- The final line is what is left of the source behind the last newline. -/
theorem Scanned.addFinalLine_held {completed : List (List UInt8)} {current : List UInt8}
    (scanned : Scanned data data.length completed current finder)
    (stands : LexerSource.At data data.length finder.source) (isEnd : finder.eof = true) :
    Held data (addFinalLine data.length finder) where
  source := ⟨data.length, Nat.le_refl _, stands⟩
  found := by
    have start := scanned.start
    have spans : Spans data ⟨finder.nextLineStart, data.length⟩ current :=
      ⟨start ▸ Nat.le_add_right _ _, Nat.le_refl _, scanned.slice_current⟩
    rcases scanned.ranges_append spans with ⟨ranges, ranges_eq, related⟩
    refine ⟨ranges, ranges_eq, _, [], related, ?_, fun _isEnd => rfl⟩
    rw [scanned.sourceLines_end rfl, List.append_nil]
  scanned := fun more => absurd (isEnd.symm.trans more) nofun

/-- A block is taken in wherever it ends; one that is not full is the last. -/
theorem Held.takeBlock {bufferSize position : Nat} (held : Held data finder)
    (more : finder.eof = false) (told : finder.source.tell = some position) :
    Held data (takeBlock bufferSize position finder (finder.source.fill bufferSize)) := by
  rcases held.scanned more with ⟨offset, completed, current, stands, scanned⟩
  have same : offset = position := Option.some.inj (stands.tell.symm.trans told)
  subst same
  rcases stands.fill scanned.inside bufferSize with ⟨read_eq, after⟩
  generalize finder.source.fill bufferSize = filled at read_eq after ⊢
  have read_length : filled.1.length = min (offset + bufferSize) data.length - offset := by
    rw [read_eq, slice_length]
  have inside := scanned.inside
  have reached : min (offset + bufferSize) data.length = offset + filled.1.length := by omega
  have isPrefix : filled.1 <+: data.drop offset := by
    rw [read_eq, ← take_drop_eq_slice]
    exact List.take_prefix _ _
  rw [reached] at after
  have taken : Scanned data offset completed current
      { finder with source := filled.2, eof := decide (filled.1.length < bufferSize) } :=
    { scanned with }
  rcases taken.scan_block isPrefix with ⟨completed, current, scanned_block⟩
  rw [SourceLines.takeBlock]
  by_cases last : filled.1.length < bufferSize
  · have isEnd : offset + filled.1.length = data.length := by omega
    rw [isEnd] at scanned_block after
    rw [if_pos (decide_eq_true last), isEnd]
    exact scanned_block.addFinalLine_held ((scan_source _ _ _).symm ▸ after)
      ((scan_eof _ _ _).trans (decide_eq_true last))
  · rw [if_neg (by simpa using last)]
    exact scanned_block.held ((scan_source _ _ _).symm ▸ after)
      ((scan_eof _ _ _).trans (decide_eq_false last))

/-- The loop ends with the line or at the end of the source. -/
theorem Held.readBlocks {bufferSize : Nat} (positive : 0 < bufferSize) (line : Int)
    (held : Held data finder) :
    (readBlocks positive line finder).1 = true ∧ Held data (readBlocks positive line finder).2 ∧
      ((cachedLine (readBlocks positive line finder).2 line).isSome ∨
        (readBlocks positive line finder).2.eof) := by
  fun_induction SourceLines.readBlocks positive line finder with
  | case1 finder cached => exact ⟨rfl, held, .inl cached⟩
  | case2 finder missing isEnd => exact ⟨rfl, held, .inr isEnd⟩
  | case3 finder missing more untold =>
      rcases held.source with ⟨position, inside, stands⟩
      exact absurd (untold.symm.trans stands.tell) nofun
  | case4 finder missing more offset told inductionHypothesis =>
      exact inductionHypothesis (held.takeBlock (Bool.eq_false_of_not_eq_true more) told)

end

/-! ## Finding the line of a location -/

/-- A location in a text: lines and columns are counted from one, `lastColumn`
is behind the last column, and no `int` overflows when columns are added. -/
structure Location.Proper (location : Location) : Prop where
  line : 0 < location.line
  line_small : location.line < 2 ^ 31
  first : 0 < location.firstColumn
  ordered : location.firstColumn ≤ location.lastColumn
  small : location.firstColumn + location.lastColumn < 2 ^ 31

variable {data : List UInt8} {finder : LexerSourceLineFinder} {line : Int}

theorem sizeT_eq (nonneg : 0 ≤ line) (small : line < 2 ^ 31) : sizeT line = line.toNat := by
  rw [sizeT]
  omega

/-- A line that is cached has the range of its text. -/
theorem Held.cachedLine_spans (held : Held data finder) (positive : 0 < line)
    (small : line < 2 ^ 31) {range : OffsetRange} (cached : cachedLine finder line = some range) :
    ∃ text, textAt data line = some text ∧ Spans data range text := by
  rcases held.found with ⟨ranges, ranges_eq, texts, later, related, lines_eq, -⟩
  have index_eq : sizeT line = (line - 1).toNat + 1 := by
    rw [sizeT_eq (Int.le_of_lt positive) small]
    omega
  rw [cachedLine, ranges_eq, index_eq, List.getElem?_cons_succ] at cached
  rcases List.getElem?_eq_some_iff.mp cached with ⟨inside, range_eq⟩
  have bound : (line - 1).toNat < texts.length := related.length_eq ▸ inside
  refine ⟨texts[(line - 1).toNat], ?_, ?_⟩
  · rw [textAt, if_pos positive, lines_eq, List.getElem?_append_left bound,
      List.getElem?_eq_getElem bound]
  · have spans := related.get inside bound
    rw [List.get_eq_getElem, List.get_eq_getElem, range_eq] at spans
    exact spans

/-- A line that is not cached at the end of the source does not exist. -/
theorem Held.textAt_none (held : Held data finder) (positive : 0 < line) (small : line < 2 ^ 31)
    (isEnd : finder.eof) (missing : cachedLine finder line = none) : textAt data line = none := by
  rcases held.found with ⟨ranges, ranges_eq, texts, later, related, lines_eq, complete⟩
  have index_eq : sizeT line = (line - 1).toNat + 1 := by
    rw [sizeT_eq (Int.le_of_lt positive) small]
    omega
  rw [cachedLine, ranges_eq, index_eq, List.getElem?_cons_succ, List.getElem?_eq_none_iff,
    related.length_eq] at missing
  rw [textAt, if_pos positive, lines_eq, complete isEnd, List.append_nil]
  exact List.getElem?_eq_none missing

/-- `GetLineOffsets` finds the range of a line exactly where there is one. -/
theorem Held.getLineOffsets {bufferSize : Nat} (bufferPositive : 0 < bufferSize)
    (held : Held data finder) (positive : 0 < line) (small : line < 2 ^ 31) :
    Option.Rel (Spans data) (getLineOffsets bufferPositive line finder).1 (textAt data line) ∧
      Held data (getLineOffsets bufferPositive line finder).2 := by
  have answer {last : LexerSourceLineFinder} (held : Held data last)
      (known : (cachedLine last line).isSome ∨ last.eof) :
      Option.Rel (Spans data) (cachedLine last line) (textAt data line) := by
    cases cached : cachedLine last line with
    | some range =>
        rcases held.cachedLine_spans positive small cached with ⟨text, text_eq, spans⟩
        rw [text_eq]
        exact .some spans
    | none =>
        rw [cached] at known
        rw [held.textAt_none positive small (known.resolve_left nofun) cached]
        exact .none
  rw [SourceLines.getLineOffsets]
  cases cached : cachedLine finder line with
  | some range =>
      have known := answer held (.inl (by rw [cached]; rfl))
      rw [cached] at known
      exact ⟨known, held⟩
  | none =>
      rcases held.readBlocks bufferPositive line with ⟨read, after, known⟩
      simp only [read, if_true]
      exact ⟨answer after known, after⟩

/-! ## Cutting around a location -/

theorem int32_eq {number : Int} (low : -2 ^ 31 ≤ number) (high : number < 2 ^ 31) :
    int32 number = number := by
  rw [int32]
  exact Int.bmod_eq_of_le (by omega) (by omega)

/-- Whole numbers in place of machine arithmetic, which a proper location does
not overflow. -/
theorem centerOn_eq {location : Location} (proper : location.Proper) (maxLineLength : Nat) :
    (centerOn location maxLineLength : Int) =
      if (maxLineLength : Int) < location.lastColumn - location.firstColumn then
        location.firstColumn - 1
      else (location.firstColumn + location.lastColumn) / 2 - 1 := by
  have first := proper.first
  have ordered := proper.ordered
  have small := proper.small
  have count_eq : sizeT (int32 (location.lastColumn - location.firstColumn)) =
      (location.lastColumn - location.firstColumn).toNat := by
    rw [int32_eq (by omega) (by omega), sizeT_eq (by omega) (by omega)]
  have first_eq : sizeT (int32 (location.firstColumn - 1)) = (location.firstColumn - 1).toNat := by
    rw [int32_eq (by omega) (by omega), sizeT_eq (by omega) (by omega)]
  have middle_eq : sizeT (int32
      ((int32 (location.firstColumn + location.lastColumn)).tdiv 2 - 1)) =
      ((location.firstColumn + location.lastColumn) / 2 - 1).toNat := by
    rw [int32_eq (by omega) small, Int.tdiv_eq_ediv_of_nonneg (by omega),
      int32_eq (by omega) (by omega), sizeT_eq (by omega) (by omega)]
  rw [centerOn]
  simp only [count_eq, first_eq, middle_eq]
  split <;> split <;> omega

/-- What a line of some length is cut to. -/
def cutRange (length : Nat) (location : Location) (maxLineLength : Nat) : OffsetRange :=
  clampSourceLineOffsets ⟨0, length⟩ location maxLineLength

/-- Where the line begins does not matter. -/
theorem clamp_moved {range : OffsetRange} (ordered : range.start ≤ range.stop)
    (location : Location) (maxLineLength : Nat) :
    clampSourceLineOffsets range location maxLineLength =
      ⟨range.start + (cutRange range.size location maxLineLength).start,
        range.start + (cutRange range.size location maxLineLength).stop⟩ := by
  rcases range with ⟨start, stop⟩
  change start ≤ stop at ordered
  simp only [cutRange, clampSourceLineOffsets, OffsetRange.size, Nat.sub_zero, Nat.zero_add]
  by_cases long : maxLineLength < stop - start
  · rw [if_pos long, if_pos long]
    have start_eq : min (if maxLineLength / 2 < centerOn location maxLineLength then
          start + (centerOn location maxLineLength - maxLineLength / 2) else start)
          (stop - maxLineLength) =
        start + min (if maxLineLength / 2 < centerOn location maxLineLength then
          centerOn location maxLineLength - maxLineLength / 2 else 0)
          (stop - start - maxLineLength) := by
      split <;> omega
    rw [start_eq, Nat.add_assoc]
  · rw [if_neg long, if_neg long]
    simp only [Nat.add_zero, Nat.add_sub_cancel' ordered]

/-- The line as it is shown, and how much of its beginning is missing. -/
def excerpt (text : List UInt8) (location : Location) (maxLineLength : Nat) : SourceLine :=
  let cut := cutRange text.length location maxLineLength
  let read := betweenEllipses cut (0 != cut.start) (text.length != cut.stop)
  { line := ellipsis (0 != cut.start) ++ slice text read.start read.stop ++
      ellipsis (text.length != cut.stop)
    columnOffset := int32 cut.start }

/-- What a cut does: it keeps as much as is allowed, all of it in the line, and
what it keeps has the columns of the location away from its ends. -/
structure Cut (length : Nat) (location : Location) (maxLineLength : Nat) (cut : OffsetRange) :
    Prop where
  stop : cut.stop = cut.start + min length maxLineLength
  inside : cut.stop ≤ length
  early : (cut.start : Int) < 2 ^ 31
  located : (length ≤ maxLineLength ∨
      location.lastColumn - location.firstColumn + 6 ≤ maxLineLength) ->
    ((0 < cut.start) -> (cut.start : Int) + 3 < location.firstColumn) ∧
      (cut.stop < length -> location.lastColumn + 2 ≤ cut.stop)
  headed : (maxLineLength : Int) < location.lastColumn - location.firstColumn ->
    ((0 < cut.start) -> (cut.start : Int) + 3 < location.firstColumn) ∧
      (cut.stop < length -> location.firstColumn + 3 ≤ cut.stop)

theorem cutRange_cut {location : Location} (proper : location.Proper) {maxLineLength : Nat}
    (enough : 8 ≤ maxLineLength) (length : Nat) :
    Cut length location maxLineLength (cutRange length location maxLineLength) := by
  have first := proper.first
  have ordered := proper.ordered
  have small := proper.small
  have center := centerOn_eq proper maxLineLength
  simp only [cutRange, clampSourceLineOffsets, OffsetRange.size, Nat.sub_zero, Nat.zero_add]
  generalize centerOn location maxLineLength = center at *
  by_cases long : maxLineLength < length
  · rw [if_pos long]
    constructor <;> (dsimp only; split at center <;> split <;> omega)
  · rw [if_neg long]
    constructor <;> dsimp only <;> omega

/-! ## What is shown of a line -/

/-- A column of the line that is neither cut off nor under an ellipsis. -/
structure Uncovered (text : List UInt8) (shown : SourceLine) (column : Int) : Prop where
  behind : shown.columnOffset + (if 0 < shown.columnOffset then 3 else 0) < column
  before : column + (if shown.columnOffset + shown.line.length < text.length then 3 else 0) ≤
    shown.columnOffset + shown.line.length

/-- The column offset takes a column to the same character of what is shown. -/
def Maps (text : List UInt8) (shown : SourceLine) (column : Int) : Prop :=
  shown.columnOffset < column ∧
    shown.line[(column - 1 - shown.columnOffset).toNat]? = text[(column - 1).toNat]?

/-- What is promised of the line that is shown for a location. -/
structure Shows (text : List UInt8) (location : Location) (maxLineLength : Nat)
    (shown : SourceLine) : Prop where
  length : shown.line.length = min text.length maxLineLength
  offset : 0 ≤ shown.columnOffset
  inside : shown.columnOffset + shown.line.length ≤ text.length
  startEllipsis : 0 < shown.columnOffset -> shown.line.take 3 = ellipsis true
  endEllipsis : shown.columnOffset + shown.line.length < text.length ->
    shown.line.drop (shown.line.length - 3) = ellipsis true
  kept : forall column, Uncovered text shown column -> Maps text shown column
  located : (text.length ≤ maxLineLength ∨
      location.lastColumn - location.firstColumn + 6 ≤ maxLineLength) ->
    forall column, location.firstColumn ≤ column -> column < location.lastColumn ->
      column ≤ text.length -> Uncovered text shown column
  headed : (maxLineLength : Int) < location.lastColumn - location.firstColumn ->
    location.firstColumn ≤ text.length -> Uncovered text shown location.firstColumn

theorem ellipsis_length (shown : Bool) : (ellipsis shown).length = if shown then 3 else 0 := by
  cases shown <;> rfl

/-- The text between two ellipses keeps its place. -/
theorem between_getElem? (text : List UInt8) (first last : Bool) {start stop index : Nat}
    (behind : (ellipsis first).length ≤ index)
    (before : start + index + (ellipsis last).length < stop) (inside : stop ≤ text.length) :
    (ellipsis first ++
      slice text (start + (ellipsis first).length) (stop - (ellipsis last).length) ++
      ellipsis last)[index]? = text[start + index]? := by
  have within : index - (ellipsis first).length <
      (slice text (start + (ellipsis first).length) (stop - (ellipsis last).length)).length := by
    rw [slice_length]
    omega
  rw [List.append_assoc, List.getElem?_append_right behind, List.getElem?_append_left within,
    slice, List.getElem?_drop, List.getElem?_take_of_lt (by omega)]
  congr 1
  omega

theorem excerpt_line (text : List UInt8) (location : Location) (maxLineLength : Nat) :
    (excerpt text location maxLineLength).line =
      ellipsis (0 != (cutRange text.length location maxLineLength).start) ++
        slice text
          ((cutRange text.length location maxLineLength).start +
            (ellipsis (0 != (cutRange text.length location maxLineLength).start)).length)
          ((cutRange text.length location maxLineLength).stop -
            (ellipsis
              (text.length != (cutRange text.length location maxLineLength).stop)).length) ++
        ellipsis (text.length != (cutRange text.length location maxLineLength).stop) := by
  have start_eq (shown : Bool) (start : Nat) :
      (if shown then start + 3 else start) = start + (ellipsis shown).length := by
    cases shown <;> rfl
  have stop_eq (shown : Bool) (stop : Nat) :
      (if shown then stop - 3 else stop) = stop - (ellipsis shown).length := by
    cases shown <;> rfl
  simp only [excerpt, betweenEllipses, start_eq, stop_eq]

section

variable {location : Location} {maxLineLength : Nat} {text : List UInt8} {cut : OffsetRange}

theorem startEllipsis_length (start : Nat) :
    (ellipsis (0 != start)).length = if 0 < start then 3 else 0 := by
  rw [ellipsis_length]
  cases start <;> rfl

theorem endEllipsis_length {length stop : Nat} (inside : stop ≤ length) :
    (ellipsis (length != stop)).length = if stop < length then 3 else 0 := by
  rw [ellipsis_length]
  by_cases same : length = stop
  · rw [same, if_neg (Nat.lt_irrefl stop), bne_self_eq_false, if_neg Bool.false_ne_true]
  · rw [if_pos (bne_iff_ne.mpr same), if_pos (by omega)]

/-- What a cut of the text shows has the length of the cut. -/
theorem Cut.length (enough : 8 ≤ maxLineLength)
    (isCut : Cut text.length location maxLineLength cut) :
    (ellipsis (0 != cut.start) ++
      slice text (cut.start + (ellipsis (0 != cut.start)).length)
        (cut.stop - (ellipsis (text.length != cut.stop)).length) ++
      ellipsis (text.length != cut.stop)).length = min text.length maxLineLength := by
  have stop := isCut.stop
  have inside := isCut.inside
  rw [List.length_append, List.length_append, slice_length, startEllipsis_length,
    endEllipsis_length inside]
  split <;> split <;> omega

/-- The line that is shown keeps every promise. -/
theorem excerpt_shows (proper : location.Proper) (enough : 8 ≤ maxLineLength)
    (text : List UInt8) :
    Shows text location maxLineLength (excerpt text location maxLineLength) := by
  have isCut := cutRange_cut proper enough text.length
  have line_eq := excerpt_line text location maxLineLength
  have offset_eq : (excerpt text location maxLineLength).columnOffset =
      (cutRange text.length location maxLineLength).start := by
    have nonneg : -2 ^ 31 ≤ ((cutRange text.length location maxLineLength).start : Int) := by omega
    simp only [excerpt]
    rw [int32_eq nonneg isCut.early]
  generalize excerpt text location maxLineLength = shown at *
  generalize cutRange text.length location maxLineLength = cut at *
  have stop := isCut.stop
  have inside := isCut.inside
  have first_length := startEllipsis_length cut.start
  have last_length := endEllipsis_length inside
  have length_eq : shown.line.length = min text.length maxLineLength := by
    rw [line_eq]
    exact isCut.length enough
  constructor
  case length => exact length_eq
  case offset => omega
  case inside => omega
  case startEllipsis =>
    intro moved
    have isMoved : (0 != cut.start) = true := bne_iff_ne.mpr (by omega)
    rw [line_eq, isMoved, List.append_assoc]
    exact List.take_left' rfl
  case endEllipsis =>
    intro shorter
    have isShorter : (text.length != cut.stop) = true := bne_iff_ne.mpr (by omega)
    have enough_shown : 3 ≤ shown.line.length := by omega
    rw [line_eq] at enough_shown ⊢
    rw [isShorter] at enough_shown ⊢
    rw [List.length_append]
    exact List.drop_left' (Nat.add_sub_cancel _ 3).symm
  case kept =>
    rintro column ⟨behind, before⟩
    have offset_lt : shown.columnOffset < column := by
      split at behind <;> omega
    refine ⟨offset_lt, ?_⟩
    have index_eq : (column - 1).toNat =
        cut.start + (column - 1 - shown.columnOffset).toNat := by omega
    rw [line_eq, index_eq]
    refine between_getElem? text _ _ ?_ ?_ inside
    · rw [first_length]
      split at behind <;> split <;> omega
    · rw [last_length]
      split at before <;> split <;> omega
  case located =>
    intro short column first_le lt_last le_length
    rcases isCut.located short with ⟨first, last⟩
    have positive := proper.first
    constructor
    · split <;> omega
    · have reached : shown.columnOffset + shown.line.length = cut.stop := by omega
      rw [reached]
      split <;> omega
  case headed =>
    intro wide le_length
    rcases isCut.headed wide with ⟨first, last⟩
    have positive := proper.first
    constructor
    · split <;> omega
    · split <;> omega

end

/-! ## Queries -/

/-- What a caller asks for. -/
structure Query where
  location : Location
  maxLineLength : Nat

/-- The location is in the text, and the length has room for both ellipses. -/
structure Query.Proper (query : Query) : Prop where
  location : query.location.Proper
  enough : 8 ≤ query.maxLineLength

/-- The answers to queries that are asked one after the other. -/
def answers {bufferSize : Nat} (positive : 0 < bufferSize) (finder : LexerSourceLineFinder)
    (queries : List Query) : List (Option SourceLine) :=
  (thread (fun finder query =>
    getSourceLine positive finder query.location query.maxLineLength) finder queries).1

/-- The answer to a query that is asked of the text itself. -/
def answer (data : List UInt8) (query : Query) : Option SourceLine :=
  (textAt data query.location.line).map fun text =>
    excerpt text query.location query.maxLineLength

/-- A range that is read gives the same part of the text that it holds. -/
theorem Spans.readRange {text : List UInt8} {range inner : OffsetRange} {position : Nat}
    {source : LexerSource} (spans : Spans data range text)
    (stands : LexerSource.At data position source) (ordered : inner.start ≤ inner.stop)
    (within : inner.stop ≤ range.size) :
    source.readRange ⟨range.start + inner.start, range.start + inner.stop⟩ =
      some (slice text inner.start inner.stop, source) := by
  have first := spans.ordered
  have inside := spans.inside
  rw [OffsetRange.size] at within
  have stop_le : range.start + inner.stop ≤ range.stop := by omega
  rw [stands.readRange (Nat.add_le_add_left ordered _) (Nat.le_trans stop_le inside),
    ← spans.holds, slice_slice stop_le]

/-- What is between the ellipses is in order and in the line. -/
theorem Cut.between {location : Location} {maxLineLength length : Nat} {cut : OffsetRange}
    (isCut : Cut length location maxLineLength cut) (enough : 8 ≤ maxLineLength) :
    (betweenEllipses cut (0 != cut.start) (length != cut.stop)).start ≤
        (betweenEllipses cut (0 != cut.start) (length != cut.stop)).stop ∧
      (betweenEllipses cut (0 != cut.start) (length != cut.stop)).stop ≤ length := by
  have stop := isCut.stop
  have inside := isCut.inside
  simp only [betweenEllipses, bne_iff_ne]
  constructor
  · split <;> split <;> omega
  · split <;> omega

/-- Moving a cut moves what is between the ellipses. -/
theorem betweenEllipses_moved {cut : OffsetRange} (start : Nat) (first : Bool) {last : Bool}
    (enough : last -> 3 ≤ cut.stop) :
    betweenEllipses ⟨start + cut.start, start + cut.stop⟩ first last =
      ⟨start + (betweenEllipses cut first last).start,
        start + (betweenEllipses cut first last).stop⟩ := by
  simp only [betweenEllipses, OffsetRange.mk.injEq]
  constructor
  · split
    · exact Nat.add_assoc _ _ _
    · rfl
  · split
    · rename_i isCut
      exact Nat.add_sub_assoc (enough isCut) start
    · rfl

/-- `GetSourceLine` answers from the text of the line, whatever was asked before. -/
theorem Held.getSourceLine {bufferSize : Nat} (positive : 0 < bufferSize) {query : Query}
    (held : Held data finder) (proper : query.Proper) :
    (getSourceLine positive finder query.location query.maxLineLength).1 = answer data query ∧
      Held data (getSourceLine positive finder query.location query.maxLineLength).2 := by
  rcases held.getLineOffsets positive proper.location.line proper.location.line_small with
    ⟨related, after⟩
  rw [SourceLines.getSourceLine, answer]
  generalize SourceLines.getLineOffsets positive query.location.line finder = offsets at *
  generalize textAt data query.location.line = known at *
  rcases offsets with ⟨found, last⟩
  cases related with
  | none => exact ⟨rfl, after⟩
  | @some range text spans =>
      have size_eq : range.size = text.length := spans.length.symm
      have isCut := cutRange_cut proper.location proper.enough text.length
      have ordered := spans.ordered
      have length_eq := spans.length
      rcases isCut.between proper.enough with ⟨between, within⟩
      dsimp only
      rw [clamp_moved spans.ordered, size_eq, Option.map_some, excerpt]
      generalize cutRange text.length query.location query.maxLineLength = cut at *
      have first_eq : (range.start != range.start + cut.start) = (0 != cut.start) := by
        rw [Bool.eq_iff_iff, bne_iff_ne, bne_iff_ne]
        omega
      have last_eq : (range.stop != range.start + cut.stop) = (text.length != cut.stop) := by
        rw [Bool.eq_iff_iff, bne_iff_ne, bne_iff_ne]
        omega
      rcases after.source with ⟨position, -, stands⟩
      have enough : (text.length != cut.stop) -> 3 ≤ cut.stop := by
        intro shorter
        have stop := isCut.stop
        have inside := isCut.inside
        have different := bne_iff_ne.mp shorter
        have enough := proper.enough
        omega
      have read := spans.readRange stands between (size_eq ▸ within)
      simp only [first_eq, last_eq, betweenEllipses_moved range.start _ enough, read,
        Nat.add_sub_cancel_left]
      exact ⟨trivial, after⟩

/-- Every query is answered from the text of its line alone, so that neither the
order of the queries nor the size of a block matters, and what is shown of a
line keeps its promises. -/
theorem answers_show {bufferSize : Nat} (positive : 0 < bufferSize) {source : LexerSource}
    (start : LexerSource.At data 0 source) (queries : List Query)
    (proper : forall query, query ∈ queries -> query.Proper) :
    answers positive (construct source) queries = queries.map (answer data) ∧
      forall query, query ∈ queries -> forall text, textAt data query.location.line = some text ->
        ∃ shown, answer data query = some shown ∧
          Shows text query.location query.maxLineLength shown := by
  constructor
  · have each (finder : LexerSourceLineFinder) (query : Query) (held : Held data finder)
        (isMember : query ∈ queries) :=
      held.getSourceLine positive (proper query isMember)
    exact thread_eq_map queries (construct_held start) each
  · intro query isMember text found
    have isProper := proper query isMember
    refine ⟨excerpt text query.location query.maxLineLength, ?_,
      excerpt_shows isProper.location isProper.enough text⟩
    rw [answer, found, Option.map_some]

/-- The text `"ab\r\ncdefghijklmnop"`. -/
def twoLines : List UInt8 :=
  [0x61, 0x62, 0x0d, 0x0a, 0x63, 0x64, 0x65, 0x66, 0x67, 0x68, 0x69, 0x6a, 0x6b, 0x6c, 0x6d, 0x6e,
    0x6f, 0x70]

/-- In blocks of three bytes the carriage return and its newline are apart. -/
theorem answers_show_twoLines :
    answers (by decide : 0 < 3) (construct (.buffer twoLines 0))
        [⟨⟨2, 7, 9⟩, 8⟩, ⟨⟨1, 1, 3⟩, 8⟩] =
      [some ⟨[0x2e, 0x2e, 0x2e, 0x69, 0x6a, 0x2e, 0x2e, 0x2e], 3⟩, some ⟨[0x61, 0x62], 0⟩] := by
  have proper (query : Query)
      (isMember : query ∈ [(⟨⟨2, 7, 9⟩, 8⟩ : Query), ⟨⟨1, 1, 3⟩, 8⟩]) : query.Proper := by
    simp only [List.mem_cons, List.not_mem_nil, or_false] at isMember
    rcases isMember with rfl | rfl
    · exact ⟨⟨by simp, by simp, by simp, by simp, by simp⟩, by simp⟩
    · exact ⟨⟨by simp, by simp, by simp, by simp, by simp⟩, by simp⟩
  have start : LexerSource.At twoLines 0 (.buffer twoLines 0) := .buffer
  have shown := answers_show (by decide : 0 < 3) start _ proper
  exact shown.1.trans (by decide)

/-- Of a location that is wider than what may be shown, columns are cut off. -/
theorem wide_location_cut : ∃ shown,
    (getSourceLine (by decide : 0 < kBufferSize) (construct (.buffer twoLines 0)) ⟨2, 1, 14⟩
      8).1 = some shown ∧
      ¬ forall column, 1 ≤ column -> column < 14 ->
        Maps [0x63, 0x64, 0x65, 0x66, 0x67, 0x68, 0x69, 0x6a, 0x6b, 0x6c, 0x6d, 0x6e, 0x6f, 0x70]
          shown column := by
  have held : Held twoLines (construct (.buffer twoLines 0)) := construct_held .buffer
  have proper : Query.Proper ⟨⟨2, 1, 14⟩, 8⟩ :=
    ⟨⟨by simp, by simp, by simp, by simp, by simp⟩, by simp⟩
  have answered := (held.getSourceLine (by decide : 0 < kBufferSize) proper).1
  refine ⟨⟨[0x63, 0x64, 0x65, 0x66, 0x67, 0x2e, 0x2e, 0x2e], 0⟩,
    answered.trans (by decide), fun all => ?_⟩
  have sixth := (all 6 (by decide) (by decide)).2
  simp at sixth

end SourceLines

end Text
end WasmSandboxing
