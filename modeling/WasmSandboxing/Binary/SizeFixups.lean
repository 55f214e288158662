import WasmSandboxing.Binary.Events
import WasmSandboxing.Binary.Leb128
import WasmSandboxing.Foundation.Slices
import WasmSandboxing.Foundation.Transition

namespace WasmSandboxing
namespace Binary

open Foundation

/-!
# Size-prefixed writes

`stream.cc` and the part of `binary-writer.cc` that writes a size before its
payload is known.  Space for the size is left first; once the payload is
there, the size is written and the payload is moved to where it ends.

A section and a subsection keep where their size stands in fields of the
writer, a function body in local variables of the loop that writes it.  The
relocations, which nothing else here reads, are left out.
-/

/-! ## The stream -/

/-- `MemoryStream`.  None of its writes fails. -/
structure MemoryStream where
  data : List (BitVec 8)
  offset : Nat
  deriving DecidableEq, Repr

namespace MemoryStream

/-- `buf_->data.resize(end)` where the data end before. -/
def resized (data : List (BitVec 8)) (stop : Nat) : List (BitVec 8) :=
  if stop > data.length then data ++ List.replicate (stop - data.length) 0 else data

/-- `WriteDataAt` by `WriteDataImpl` -/
def writeDataAt (stream : MemoryStream) (dstOffset : Nat) (src : List (BitVec 8)) : MemoryStream :=
  if src.length = 0 then stream
  else
    { stream with
      data := overwrite (resized stream.data (dstOffset + src.length)) dstOffset src }

def writeData (stream : MemoryStream) (src : List (BitVec 8)) : MemoryStream :=
  let written := stream.writeDataAt stream.offset src
  { written with offset := written.offset + src.length }

/-- `MoveData` by `MoveDataImpl` -/
def moveData (stream : MemoryStream) (dstOffset srcOffset size : Nat) : MemoryStream :=
  if size = 0 then stream
  else
    let srcEnd := srcOffset + size
    let dstEnd := dstOffset + size
    let data := resized stream.data (if srcEnd > dstEnd then srcEnd else dstEnd)
    { stream with data := overwrite data dstOffset (slice data srcOffset srcEnd) }

def addOffset (stream : MemoryStream) (delta : Int) : MemoryStream :=
  { stream with offset := (stream.offset + delta).toNat }

/-- What is before the offset. -/
def written (stream : MemoryStream) : List (BitVec 8) :=
  stream.data.take stream.offset

theorem resized_eq (data : List (BitVec 8)) (stop : Nat) :
    resized data stop = data ++ List.replicate (stop - data.length) 0 := by
  rw [resized]
  split
  · rfl
  · rename_i inside
    rw [Nat.sub_eq_zero_of_le (Nat.le_of_not_lt inside), List.replicate_zero, List.append_nil]

theorem le_resized_length (data : List (BitVec 8)) (stop : Nat) :
    stop ≤ (resized data stop).length := by
  rw [resized_eq, List.length_append, List.length_replicate]
  omega

/-- A write behind some bytes leaves them. -/
theorem writeDataAt_data {stream : MemoryStream} {front rest : List (BitVec 8)}
    (data : stream.data = front ++ rest) (src : List (BitVec 8)) :
    (stream.writeDataAt front.length src).data = front ++ src ++ rest.drop src.length := by
  rw [writeDataAt]
  split
  · rename_i empty
    rw [List.length_eq_zero_iff.mp empty, List.append_nil, List.length_nil, List.drop_zero, data]
  · have padding : List.replicate (front.length + src.length - (front ++ rest).length -
        (src.length - rest.length)) (0 : BitVec 8) = [] := by
      rw [List.length_append, Nat.add_sub_add_left, Nat.sub_self, List.replicate_zero]
    dsimp only
    rw [resized_eq, data, List.append_assoc]
    rw [show front.length = front.length + 0 from rfl, overwrite_append, overwrite_zero,
      List.drop_append, List.drop_replicate, Nat.add_zero, padding, List.append_nil,
      List.append_assoc]

@[simp] theorem writeDataAt_offset (stream : MemoryStream) (dstOffset : Nat)
    (src : List (BitVec 8)) : (stream.writeDataAt dstOffset src).offset = stream.offset := by
  rw [writeDataAt]
  split <;> rfl

@[simp] theorem moveData_offset (stream : MemoryStream) (dstOffset srcOffset size : Nat) :
    (stream.moveData dstOffset srcOffset size).offset = stream.offset := by
  rw [moveData]
  split <;> rfl

/-- Bytes that stand behind others are moved to any place behind these. -/
theorem moveData_data {stream : MemoryStream} {front space payload stale : List (BitVec 8)}
    (data : stream.data = front ++ space ++ payload ++ stale) (nonempty : payload.length ≠ 0)
    (room : Nat) :
    ∃ junk rest, junk.length = room ∧
      (stream.moveData (front.length + room) (front.length + space.length) payload.length).data =
        front ++ junk ++ payload ++ rest := by
  rw [moveData, if_neg nonempty]
  generalize largest : (if front.length + space.length + payload.length >
      front.length + room + payload.length then front.length + space.length + payload.length
    else front.length + room + payload.length) = stop
  have reaches : front.length + room + payload.length ≤ stop := by
    rw [← largest]
    split <;> omega
  have long := Nat.le_trans reaches (le_resized_length stream.data stop)
  dsimp only
  rw [largest]
  rw [resized_eq, data] at long ⊢
  generalize List.replicate _ (0 : BitVec 8) = zeros at long ⊢
  have moved : slice (front ++ space ++ payload ++ stale ++ zeros)
      (front.length + space.length) (front.length + space.length + payload.length) = payload := by
    rw [List.append_assoc _ stale, ← List.length_append]
    exact slice_between (front ++ space) payload (stale ++ zeros)
  have behind : front ++ space ++ payload ++ stale ++ zeros =
      front ++ (space ++ payload ++ stale ++ zeros) := by
    simp only [List.append_assoc]
  rw [moved, behind, overwrite_append, overwrite]
  rw [behind, List.length_append] at long
  refine ⟨(space ++ payload ++ stale ++ zeros).take room,
    (space ++ payload ++ stale ++ zeros).drop (room + payload.length),
    List.length_take_of_le (by omega), ?_⟩
  simp only [List.append_assoc]

end MemoryStream

namespace BinaryWriter

/-! ## Sizes -/

def u32Leb128Length (value : BitVec 32) : Nat :=
  if value >>> 7 = 0 then 1 else u32Leb128Length (value >>> 7) + 1
termination_by value.toNat
decreasing_by
  rename_i more
  rw [← BitVec.toNat_inj, Leb128.shifted_toNat] at more
  rw [Leb128.shifted_toNat]
  exact Nat.div_lt_self (Nat.pos_of_ne_zero fun zero => more (zero ▸ rfl)) (by decide)

def writeU32Leb128At (stream : MemoryStream) (offset : Nat) (value : BitVec 32) :
    Option MemoryStream := do
  let data <- Leb128.writeU32Leb128 value
  some (stream.writeDataAt offset data)

def writeFixedU32Leb128At (stream : MemoryStream) (offset : Nat) (value : BitVec 32) :
    MemoryStream :=
  stream.writeDataAt offset (Leb128.writeFixedU32Leb128 value)

/-- `MAX_U32_LEB128_BYTES` -/
def maxU32Leb128Bytes : Nat := 5

/-- `bytes_to_write` -/
def bytesToWrite (canonicalizeLebs : Bool) (lebSizeGuess : Nat) : Nat :=
  if canonicalizeLebs then lebSizeGuess else maxU32Leb128Bytes

/-- The offset of the space, unless an assertion fails. -/
def writeU32Leb128Space (canonicalizeLebs : Bool) (stream : MemoryStream) (lebSizeGuess : Nat) :
    Option (Nat × MemoryStream) :=
  if lebSizeGuess ≤ maxU32Leb128Bytes then
    let data := List.replicate (bytesToWrite canonicalizeLebs lebSizeGuess) 0
    some (stream.offset, stream.writeData data)
  else none

/-- The payload is moved to the end of a size of `lebSize` bytes if `delta` is not zero. -/
def movePayload (stream : MemoryStream) (offset lebSizeGuess lebSize size : Nat) : MemoryStream :=
  if (lebSize - lebSizeGuess : Int) ≠ 0 then
    let srcOffset := offset + lebSizeGuess
    let dstOffset := offset + lebSize
    stream.moveData dstOffset srcOffset size
  else stream

/-- How far the end of the payload has moved, which is an unsigned number only
because it is only ever added. -/
def writeFixupU32Leb128Size (canonicalizeLebs : Bool) (stream : MemoryStream)
    (offset lebSizeGuess : Nat) : Option (Int × MemoryStream) :=
  if canonicalizeLebs then do
    let size := stream.offset - offset - lebSizeGuess
    let lebSize := u32Leb128Length (BitVec.ofNat 32 size)
    let delta : Int := lebSize - lebSizeGuess
    let moved := movePayload stream offset lebSizeGuess lebSize size
    let fixed <- writeU32Leb128At moved offset (BitVec.ofNat 32 size)
    some (delta, fixed.addOffset delta)
  else
    let size := stream.offset - offset - maxU32Leb128Bytes
    some (0, writeFixedU32Leb128At stream offset (BitVec.ofNat 32 size))

/-- `U32Leb128Length` counts the bytes that are written. -/
theorem u32Leb128Length_eq {room : Nat} {value : BitVec 32} {code : List (BitVec 8)}
    (wrote : Leb128.lebLoop (fun value => value >>> 7) (fun value _ => value == 0) room value =
      some code) : code.length = u32Leb128Length value := by
  induction room generalizing value code with
  | zero => cases wrote
  | succ room inductionHypothesis =>
      rw [u32Leb128Length]
      by_cases last : value >>> 7 = 0
      · rw [Leb128.lebLoop, if_pos (beq_iff_eq.mpr last)] at wrote
        cases wrote
        rw [if_pos last]
        rfl
      · rw [Leb128.lebLoop, if_neg (fun ends => last (beq_iff_eq.mp ends))] at wrote
        rcases Option.bind_eq_some_iff.mp wrote with ⟨rest, later, same⟩
        cases same
        rw [if_neg last, List.length_cons, inductionHypothesis later]

/-- The number that stands for the size of a payload. -/
def sizeCode (canonicalizeLebs : Bool) (size : Nat) : List (BitVec 8) :=
  if canonicalizeLebs then (Leb128.writeU32Leb128 (BitVec.ofNat 32 size)).getD []
  else Leb128.writeFixedU32Leb128 (BitVec.ofNat 32 size)

/-- A code that reads as one number, whatever follows it. -/
def Encodes (code : List (BitVec 8)) (size : Nat) : Prop :=
  size < 2 ^ 32 ∧ forall rest,
    Leb128.readU32Leb128 (code ++ rest) = some (some (code.length, BitVec.ofNat 32 size))

theorem sizeCode_canonical (size : Nat) :
    Leb128.writeU32Leb128 (BitVec.ofNat 32 size) = some (sizeCode true size) := by
  rcases Leb128.writeU32Leb128_some (BitVec.ofNat 32 size) with ⟨code, wrote, _isCode, _same⟩
  rw [sizeCode, if_pos rfl, wrote, Option.getD_some]

theorem sizeCode_encodes (canonicalizeLebs : Bool) {size : Nat} (fits : size < 2 ^ 32) :
    Encodes (sizeCode canonicalizeLebs size) size := by
  refine ⟨fits, fun rest => ((Leb128.readU32Leb128_iff _).2 _ _).mpr ⟨_, rest, rfl, rfl, ?_⟩⟩
  cases canonicalizeLebs with
  | true =>
      rcases Leb128.writeU32Leb128_some (BitVec.ofNat 32 size) with ⟨code, wrote, isCode⟩
      cases (sizeCode_canonical size).symm.trans wrote
      exact isCode
  | false => exact Leb128.writeFixedU32Leb128_code (BitVec.ofNat 32 size)

@[simp] theorem movePayload_offset (stream : MemoryStream) (offset lebSizeGuess lebSize size : Nat) :
    (movePayload stream offset lebSizeGuess lebSize size).offset = stream.offset := by
  rw [movePayload]
  split
  · exact MemoryStream.moveData_offset ..
  · rfl

/-- Where the payload is then, it follows the room for its size. -/
theorem movePayload_data {stream : MemoryStream} {front space payload stale : List (BitVec 8)}
    (data : stream.data = front ++ space ++ payload ++ stale) (lebSize : Nat) :
    ∃ behind left, behind.drop lebSize = payload ++ left ∧
      (movePayload stream front.length space.length lebSize payload.length).data =
        front ++ behind := by
  have whole : stream.data = front ++ (space ++ payload ++ stale) := by
    rw [data, List.append_assoc, List.append_assoc, List.append_assoc]
  rw [movePayload]
  by_cases moves : (lebSize - space.length : Int) ≠ 0
  · rw [if_pos moves]
    by_cases empty : payload.length = 0
    · refine ⟨space ++ payload ++ stale, (space ++ payload ++ stale).drop lebSize, ?_, ?_⟩
      · rw [List.length_eq_zero_iff.mp empty, List.nil_append]
      · rw [MemoryStream.moveData, if_pos empty, whole]
    · rcases MemoryStream.moveData_data data empty lebSize with ⟨junk, left, length, moved⟩
      refine ⟨junk ++ payload ++ left, left, ?_, ?_⟩
      · rw [← length, List.append_assoc, List.drop_left]
      · rw [moved, List.append_assoc, List.append_assoc, List.append_assoc]
  · have same : lebSize = space.length := by omega
    refine ⟨space ++ payload ++ stale, stale, ?_, ?_⟩
    · rw [same, List.append_assoc, List.drop_left]
    · rw [if_neg moves, whole]

/-- A fix-up replaces the space by the size and keeps the payload and what is
in front of it. -/
theorem writeFixupU32Leb128Size_data (canonicalizeLebs : Bool) {stream : MemoryStream}
    {front space payload stale : List (BitVec 8)} {lebSizeGuess : Nat}
    (data : stream.data = front ++ space ++ payload ++ stale)
    (offset : stream.offset = front.length + space.length + payload.length)
    (reserved : space.length = bytesToWrite canonicalizeLebs lebSizeGuess) :
    ∃ delta fixed left,
      writeFixupU32Leb128Size canonicalizeLebs stream front.length lebSizeGuess =
        some (delta, fixed) ∧
      fixed.data = front ++ sizeCode canonicalizeLebs payload.length ++ payload ++ left ∧
      fixed.offset = front.length + (sizeCode canonicalizeLebs payload.length).length +
        payload.length := by
  cases canonicalizeLebs with
  | false =>
      have length : space.length = maxU32Leb128Bytes := reserved
      have size : stream.offset - front.length - maxU32Leb128Bytes = payload.length := by
        rw [offset, length]
        omega
      have whole : stream.data = front ++ (space ++ payload ++ stale) := by
        rw [data, List.append_assoc, List.append_assoc, List.append_assoc]
      refine ⟨_, _, stale, rfl, ?_, ?_⟩
      · rw [size, writeFixedU32Leb128At, MemoryStream.writeDataAt_data whole]
        change _ ++ (space ++ payload ++ stale).drop maxU32Leb128Bytes = _
        rw [← length, List.append_assoc space, List.drop_left, ← List.append_assoc]
        rfl
      · rw [size, writeFixedU32Leb128At, MemoryStream.writeDataAt_offset, offset, length]
        rfl
  | true =>
      have length : space.length = lebSizeGuess := reserved
      have size : stream.offset - front.length - lebSizeGuess = payload.length := by
        rw [offset, length]
        omega
      have lebSize := u32Leb128Length_eq (sizeCode_canonical payload.length)
      rcases movePayload_data data (sizeCode true payload.length).length with
        ⟨behind, left, follows, moved⟩
      rw [length] at moved
      have fixes : writeFixupU32Leb128Size true stream front.length lebSizeGuess =
          some (((sizeCode true payload.length).length : Int) - lebSizeGuess,
            ((movePayload stream front.length lebSizeGuess (sizeCode true payload.length).length
              payload.length).writeDataAt front.length (sizeCode true payload.length)).addOffset
                (((sizeCode true payload.length).length : Int) - lebSizeGuess)) := by
        rw [writeFixupU32Leb128Size, if_pos rfl]
        dsimp only
        rw [size, ← lebSize, writeU32Leb128At, sizeCode_canonical]
        rfl
      refine ⟨_, _, left, fixes, ?_, ?_⟩
      · rw [MemoryStream.addOffset, MemoryStream.writeDataAt_data moved, follows,
          ← List.append_assoc]
      · rw [MemoryStream.addOffset, MemoryStream.writeDataAt_offset, movePayload_offset]
        dsimp only
        omega

end BinaryWriter

/-! ## The writer -/

/-- `BinaryWriter`, with the local variables of the loops that have left space
for the size of a body: its offset and its guess. -/
structure BinaryWriter where
  stream : MemoryStream
  canonicalizeLebs : Bool
  sectionCount : Nat
  lastSectionOffset : Nat
  lastSectionLebSizeGuess : Nat
  lastSectionType : Option BinarySection
  lastSectionPayloadOffset : Nat
  lastSubsectionOffset : Nat
  lastSubsectionLebSizeGuess : Nat
  lastSubsectionPayloadOffset : Nat
  bodySizes : List (Nat × Nat)

/-- What the writer is made to do. -/
inductive WriterEvent where
  | data (src : List (BitVec 8))
  | beginSection (sectionCode : BinarySection)
  | endSection
  | beginSubsection
  | endSubsection
  | bodySpace (lebSizeGuess : Nat)
  | bodyFixup

namespace BinaryWriter

def start (canonicalizeLebs : Bool) : BinaryWriter where
  stream := ⟨[], 0⟩
  canonicalizeLebs := canonicalizeLebs
  sectionCount := 0
  lastSectionOffset := 0
  lastSectionLebSizeGuess := 0
  lastSectionType := none
  lastSectionPayloadOffset := 0
  lastSubsectionOffset := 0
  lastSubsectionLebSizeGuess := 0
  lastSubsectionPayloadOffset := 0
  bodySizes := []

/-- `LEB_SECTION_SIZE_GUESS` -/
def lebSectionSizeGuess : Nat := 1

/-- What `BeginKnownSection` does; `BeginCustomSection` writes the name after it. -/
def writeSectionHeader (writer : BinaryWriter) (sectionCode : BinarySection) :
    Option BinaryWriter :=
  if writer.lastSectionLebSizeGuess = 0 then do
    let coded := writer.stream.writeData [BitVec.ofNat 8 sectionCode.number]
    let (offset, spaced) <- writeU32Leb128Space writer.canonicalizeLebs coded lebSectionSizeGuess
    some
      { writer with
        stream := spaced
        lastSectionType := some sectionCode
        lastSectionLebSizeGuess := lebSectionSizeGuess
        lastSectionOffset := offset
        lastSectionPayloadOffset := spaced.offset }
  else none

def endSection (writer : BinaryWriter) : Option BinaryWriter :=
  if writer.lastSectionLebSizeGuess ≠ 0 then do
    let (_delta, fixed) <- writeFixupU32Leb128Size writer.canonicalizeLebs writer.stream
      writer.lastSectionOffset writer.lastSectionLebSizeGuess
    some
      { writer with
        stream := fixed
        lastSectionLebSizeGuess := 0
        sectionCount := writer.sectionCount + 1 }
  else none

def beginSubsection (writer : BinaryWriter) : Option BinaryWriter :=
  if writer.lastSubsectionLebSizeGuess = 0 then do
    let (offset, spaced) <- writeU32Leb128Space writer.canonicalizeLebs writer.stream
      lebSectionSizeGuess
    some
      { writer with
        stream := spaced
        lastSubsectionLebSizeGuess := lebSectionSizeGuess
        lastSubsectionOffset := offset
        lastSubsectionPayloadOffset := spaced.offset }
  else none

def endSubsection (writer : BinaryWriter) : Option BinaryWriter :=
  if writer.lastSubsectionLebSizeGuess ≠ 0 then do
    let (_delta, fixed) <- writeFixupU32Leb128Size writer.canonicalizeLebs writer.stream
      writer.lastSubsectionOffset writer.lastSubsectionLebSizeGuess
    some { writer with stream := fixed, lastSubsectionLebSizeGuess := 0 }
  else none

/-- `body_size_offset = WriteU32Leb128Space(leb_size_guess, ..)` -/
def bodySpace (writer : BinaryWriter) (lebSizeGuess : Nat) : Option BinaryWriter := do
  let (offset, spaced) <- writeU32Leb128Space writer.canonicalizeLebs writer.stream lebSizeGuess
  some { writer with stream := spaced, bodySizes := (offset, lebSizeGuess) :: writer.bodySizes }

/-- `WriteFixupU32Leb128Size(body_size_offset, leb_size_guess, ..)` -/
def bodyFixup (writer : BinaryWriter) : Option BinaryWriter :=
  match writer.bodySizes with
  | [] => none
  | (offset, lebSizeGuess) :: outer => do
      let (_delta, fixed) <- writeFixupU32Leb128Size writer.canonicalizeLebs writer.stream offset
        lebSizeGuess
      some { writer with stream := fixed, bodySizes := outer }

def step (writer : BinaryWriter) : WriterEvent -> Option BinaryWriter
  | .data src => some { writer with stream := writer.stream.writeData src }
  | .beginSection sectionCode => writer.writeSectionHeader sectionCode
  | .endSection => writer.endSection
  | .beginSubsection => writer.beginSubsection
  | .endSubsection => writer.endSubsection
  | .bodySpace lebSizeGuess => writer.bodySpace lebSizeGuess
  | .bodyFixup => writer.bodyFixup

def writing : System BinaryWriter WriterEvent := ⟨step⟩

end BinaryWriter

/-! ## Nested payloads -/

inductive SizeOwner where
  | sectionSize | subsectionSize | bodySize
  deriving DecidableEq

/-- A size that is not known yet, and what its surrounding payload has before it. -/
structure OpenSize where
  owner : SizeOwner
  lebSizeGuess : Nat
  front : List (BitVec 8)
  deriving DecidableEq

/-- The open sizes, the innermost one first, and what its payload is so far. -/
structure Nested where
  enclosing : List OpenSize
  payload : List (BitVec 8)
  deriving DecidableEq

namespace Nested

def empty : Nested := ⟨[], []⟩

def add (nested : Nested) (src : List (BitVec 8)) : Nested :=
  { nested with payload := nested.payload ++ src }

def opened (nested : Nested) (owner : SizeOwner) (lebSizeGuess : Nat) : Nested :=
  ⟨⟨owner, lebSizeGuess, nested.payload⟩ :: nested.enclosing, []⟩

/-- A payload of up to 2^32 - 1 bytes is done, and follows its size. -/
def closed (canonicalizeLebs : Bool) (nested : Nested) (owner : SizeOwner) : Option Nested :=
  match nested.enclosing with
  | [] => none
  | size :: outer =>
      if size.owner = owner ∧ nested.payload.length < 2 ^ 32 then
        some ⟨outer, size.front ++
          BinaryWriter.sizeCode canonicalizeLebs nested.payload.length ++ nested.payload⟩
      else none

/-- A section does not stand in a section, nor a subsection in a subsection. -/
def isOpen (nested : Nested) (owner : SizeOwner) : Bool :=
  nested.enclosing.any fun size => size.owner == owner

def step (canonicalizeLebs : Bool) (nested : Nested) : WriterEvent -> Option Nested
  | .data src => some (nested.add src)
  | .beginSection sectionCode =>
      if nested.isOpen .sectionSize then none
      else
        some ((nested.add [BitVec.ofNat 8 sectionCode.number]).opened .sectionSize
          BinaryWriter.lebSectionSizeGuess)
  | .endSection => nested.closed canonicalizeLebs .sectionSize
  | .beginSubsection =>
      if nested.isOpen .subsectionSize then none
      else some (nested.opened .subsectionSize BinaryWriter.lebSectionSizeGuess)
  | .endSubsection => nested.closed canonicalizeLebs .subsectionSize
  | .bodySpace lebSizeGuess =>
      if lebSizeGuess ≤ BinaryWriter.maxU32Leb128Bytes then
        some (nested.opened .bodySize lebSizeGuess)
      else none
  | .bodyFixup => nested.closed canonicalizeLebs .bodySize

def nesting (canonicalizeLebs : Bool) : System Nested WriterEvent := ⟨step canonicalizeLebs⟩

/-- What stands before the innermost payload. -/
def before (canonicalizeLebs : Bool) : List OpenSize -> List (BitVec 8)
  | [] => []
  | size :: outer => before canonicalizeLebs outer ++ size.front ++
      List.replicate (BinaryWriter.bytesToWrite canonicalizeLebs size.lebSizeGuess) 0

/-- All of the bytes, the open sizes left blank. -/
def bytes (canonicalizeLebs : Bool) (nested : Nested) : List (BitVec 8) :=
  before canonicalizeLebs nested.enclosing ++ nested.payload

/-- The positions of the open sizes of an owner, each with its guess. -/
def recorded (canonicalizeLebs : Bool) (owner : SizeOwner) : List OpenSize -> List (Nat × Nat)
  | [] => []
  | size :: outer =>
      if size.owner = owner then
        ((before canonicalizeLebs outer ++ size.front).length, size.lebSizeGuess) ::
          recorded canonicalizeLebs owner outer
      else recorded canonicalizeLebs owner outer

/-- A stream that has written the bytes.  What is left behind them of payloads
that were longer before does not matter. -/
def WrittenTo (canonicalizeLebs : Bool) (nested : Nested) (stream : MemoryStream) : Prop :=
  (∃ stale, stream.data = nested.bytes canonicalizeLebs ++ stale) ∧
    stream.offset = (nested.bytes canonicalizeLebs).length

/-- What a fix-up is to do to a stream: the payload behind the space is kept,
and its size is put in place of the space. -/
structure Framed (canonicalizeLebs : Bool) (offset lebSizeGuess : Nat)
    (earlier later : MemoryStream) (payload : List (BitVec 8)) : Prop where
  reserved : ∃ front space, earlier.written = front ++ space ++ payload ∧ front.length = offset ∧
    space.length = BinaryWriter.bytesToWrite canonicalizeLebs lebSizeGuess
  framed : ∃ code, BinaryWriter.Encodes code payload.length ∧
    later.written = earlier.written.take offset ++ code ++ payload ∧
    later.offset = offset + code.length + payload.length

namespace WrittenTo

variable {canonicalizeLebs : Bool} {nested : Nested} {stream : MemoryStream}

theorem written (holds : nested.WrittenTo canonicalizeLebs stream) :
    stream.written = nested.bytes canonicalizeLebs := by
  rcases holds with ⟨⟨stale, data⟩, offset⟩
  rw [MemoryStream.written, data, offset, List.take_left]

theorem writeData (holds : nested.WrittenTo canonicalizeLebs stream) (src : List (BitVec 8)) :
    (nested.add src).WrittenTo canonicalizeLebs (stream.writeData src) := by
  rcases holds with ⟨⟨stale, data⟩, offset⟩
  have more : (nested.add src).bytes canonicalizeLebs = nested.bytes canonicalizeLebs ++ src :=
    (List.append_assoc ..).symm
  rw [WrittenTo, more, MemoryStream.writeData, offset]
  refine ⟨⟨stale.drop src.length, MemoryStream.writeDataAt_data data src⟩, ?_⟩
  dsimp only
  rw [MemoryStream.writeDataAt_offset, offset, List.length_append]

theorem opened_bytes (owner : SizeOwner) (lebSizeGuess : Nat) :
    (nested.opened owner lebSizeGuess).bytes canonicalizeLebs =
      (nested.add (List.replicate (BinaryWriter.bytesToWrite canonicalizeLebs lebSizeGuess)
        0)).bytes canonicalizeLebs := by
  rw [bytes, bytes, opened, add, before, List.append_nil, List.append_assoc]

/-- The space that is left belongs to what is written. -/
theorem writeSpace (holds : nested.WrittenTo canonicalizeLebs stream) (owner : SizeOwner)
    {lebSizeGuess : Nat} (few : lebSizeGuess ≤ BinaryWriter.maxU32Leb128Bytes) :
    ∃ spaced, BinaryWriter.writeU32Leb128Space canonicalizeLebs stream lebSizeGuess =
        some ((nested.bytes canonicalizeLebs).length, spaced) ∧
      (nested.opened owner lebSizeGuess).WrittenTo canonicalizeLebs spaced := by
  refine ⟨stream.writeData (List.replicate
    (BinaryWriter.bytesToWrite canonicalizeLebs lebSizeGuess) 0), ?_, ?_⟩
  · rw [BinaryWriter.writeU32Leb128Space, if_pos few, holds.2]
  · rw [WrittenTo, opened_bytes]
    exact holds.writeData _

/-- The payload of the innermost size is done. -/
theorem fixup {size : OpenSize} {outer : List OpenSize} {payload : List (BitVec 8)}
    (holds : Nested.WrittenTo canonicalizeLebs ⟨size :: outer, payload⟩ stream)
    (fits : payload.length < 2 ^ 32) :
    ∃ delta fixed, BinaryWriter.writeFixupU32Leb128Size canonicalizeLebs stream
        (before canonicalizeLebs outer ++ size.front).length size.lebSizeGuess =
          some (delta, fixed) ∧
      Nested.WrittenTo canonicalizeLebs ⟨outer, size.front ++
        BinaryWriter.sizeCode canonicalizeLebs payload.length ++ payload⟩ fixed ∧
      Framed canonicalizeLebs (before canonicalizeLebs outer ++ size.front).length
        size.lebSizeGuess stream fixed payload := by
  have writes := holds.written
  rcases holds with ⟨⟨stale, data⟩, offset⟩
  rw [bytes, before] at data offset writes
  dsimp only at data offset writes
  have length : (List.replicate (BinaryWriter.bytesToWrite canonicalizeLebs size.lebSizeGuess)
      (0 : BitVec 8)).length = BinaryWriter.bytesToWrite canonicalizeLebs size.lebSizeGuess :=
    List.length_replicate
  generalize List.replicate _ (0 : BitVec 8) = space at data offset writes length
  rw [List.length_append, List.length_append] at offset
  rcases BinaryWriter.writeFixupU32Leb128Size_data canonicalizeLebs data offset length with
    ⟨delta, fixed, left, fixes, fixedData, fixedOffset⟩
  have same : Nested.bytes canonicalizeLebs ⟨outer, size.front ++
      BinaryWriter.sizeCode canonicalizeLebs payload.length ++ payload⟩ =
      before canonicalizeLebs outer ++ size.front ++
        BinaryWriter.sizeCode canonicalizeLebs payload.length ++ payload := by
    simp only [bytes, List.append_assoc]
  have framed : Nested.WrittenTo canonicalizeLebs ⟨outer, size.front ++
      BinaryWriter.sizeCode canonicalizeLebs payload.length ++ payload⟩ fixed := by
    rw [WrittenTo, same]
    refine ⟨⟨left, fixedData⟩, ?_⟩
    rw [fixedOffset]
    simp only [List.length_append]
  refine ⟨delta, fixed, fixes, framed, ⟨_, space, writes, rfl, length⟩,
    BinaryWriter.sizeCode canonicalizeLebs payload.length,
    BinaryWriter.sizeCode_encodes canonicalizeLebs fits, ?_, fixedOffset⟩
  rw [framed.written, same, writes, List.append_assoc _ space, List.take_left]

end WrittenTo

theorem closed_some {canonicalizeLebs : Bool} {nested next : Nested} {owner : SizeOwner}
    (closes : nested.closed canonicalizeLebs owner = some next) :
    ∃ size outer, nested = ⟨size :: outer, nested.payload⟩ ∧ size.owner = owner ∧
      nested.payload.length < 2 ^ 32 ∧
      next = ⟨outer, size.front ++
        BinaryWriter.sizeCode canonicalizeLebs nested.payload.length ++ nested.payload⟩ := by
  rcases nested with ⟨enclosing, payload⟩
  cases enclosing with
  | nil => cases closes
  | cons size outer =>
      rw [closed] at closes
      dsimp only at closes
      split at closes
      · rename_i done
        cases closes
        exact ⟨size, outer, rfl, done.1, done.2, rfl⟩
      · cases closes

/-! ### What is recorded -/

section Recorded

variable {canonicalizeLebs : Bool} {owner other : SizeOwner} {size : OpenSize}
  {outer : List OpenSize}

theorem recorded_own (own : size.owner = owner) :
    recorded canonicalizeLebs owner (size :: outer) =
      ((before canonicalizeLebs outer ++ size.front).length, size.lebSizeGuess) ::
        recorded canonicalizeLebs owner outer := by
  rw [recorded, if_pos own]

theorem recorded_other (own : size.owner = other) (differs : other ≠ owner) :
    recorded canonicalizeLebs owner (size :: outer) = recorded canonicalizeLebs owner outer := by
  rw [recorded, if_neg (own ▸ differs)]

theorem recorded_opened {nested : Nested} {lebSizeGuess : Nat} :
    recorded canonicalizeLebs owner (nested.opened owner lebSizeGuess).enclosing =
      ((nested.bytes canonicalizeLebs).length, lebSizeGuess) ::
        recorded canonicalizeLebs owner nested.enclosing :=
  recorded_own rfl

theorem recorded_opened_other {nested : Nested} {lebSizeGuess : Nat} (differs : other ≠ owner) :
    recorded canonicalizeLebs owner (nested.opened other lebSizeGuess).enclosing =
      recorded canonicalizeLebs owner nested.enclosing :=
  recorded_other rfl differs

theorem recorded_of_not_open {enclosing : List OpenSize}
    (none : ¬ (enclosing.any fun size => size.owner == owner) = true) :
    recorded canonicalizeLebs owner enclosing = [] := by
  induction enclosing with
  | nil => rfl
  | cons size outer inductionHypothesis =>
      rw [List.any_cons, Bool.or_eq_true, not_or, beq_iff_eq] at none
      rw [recorded_other rfl none.1]
      exact inductionHypothesis none.2

end Recorded

/-- The fields of a section, whose guess is zero while there is none. -/
def field (offset lebSizeGuess : Nat) : List (Nat × Nat) :=
  if lebSizeGuess = 0 then [] else [(offset, lebSizeGuess)]

theorem guess_of_field_nil {offset lebSizeGuess : Nat} (empty : [] = field offset lebSizeGuess) :
    lebSizeGuess = 0 := by
  rw [field] at empty
  split at empty
  · assumption
  · cases empty

theorem field_cons {offset lebSizeGuess position guess : Nat} {rest : List (Nat × Nat)}
    (recorded : (position, guess) :: rest = field offset lebSizeGuess) :
    lebSizeGuess ≠ 0 ∧ offset = position ∧ lebSizeGuess = guess ∧ rest = [] := by
  rw [field] at recorded
  split at recorded
  · cases recorded
  · rename_i positive
    cases recorded
    exact ⟨positive, rfl, rfl, rfl⟩

/-- The writer has written the bytes and has every open size on record. -/
structure Represents (canonicalizeLebs : Bool) (nested : Nested) (writer : BinaryWriter) :
    Prop where
  mode : writer.canonicalizeLebs = canonicalizeLebs
  written : nested.WrittenTo canonicalizeLebs writer.stream
  sections : recorded canonicalizeLebs .sectionSize nested.enclosing =
    field writer.lastSectionOffset writer.lastSectionLebSizeGuess
  subsections : recorded canonicalizeLebs .subsectionSize nested.enclosing =
    field writer.lastSubsectionOffset writer.lastSubsectionLebSizeGuess
  bodies : recorded canonicalizeLebs .bodySize nested.enclosing = writer.bodySizes

end Nested

namespace BinaryWriter

/-- The recorded offset and the guess of the size that an event writes. -/
def fixes (writer : BinaryWriter) : WriterEvent -> Option (Nat × Nat)
  | .endSection => some (writer.lastSectionOffset, writer.lastSectionLebSizeGuess)
  | .endSubsection => some (writer.lastSubsectionOffset, writer.lastSubsectionLebSizeGuess)
  | .bodyFixup => writer.bodySizes.head?
  | _ => none

/-- A step that writes a size frames the payload behind it. -/
def FixesUp (writer : BinaryWriter) (event : WriterEvent) (next : BinaryWriter) : Prop :=
  forall offset lebSizeGuess, writer.fixes event = some (offset, lebSizeGuess) ->
    ∃ payload, Nested.Framed writer.canonicalizeLebs offset lebSizeGuess writer.stream next.stream
      payload

theorem fixesUp_of_none {writer next : BinaryWriter} {event : WriterEvent}
    (nothing : writer.fixes event = none) : writer.FixesUp event next := by
  intro offset lebSizeGuess fixes
  rw [nothing] at fixes
  cases fixes

end BinaryWriter

namespace Nested
namespace Represents

variable {canonicalizeLebs : Bool} {nested next : Nested} {writer : BinaryWriter}

theorem start (canonicalizeLebs : Bool) :
    Represents canonicalizeLebs .empty (.start canonicalizeLebs) where
  mode := rfl
  written := ⟨⟨[], rfl⟩, rfl⟩
  sections := rfl
  subsections := rfl
  bodies := rfl

theorem beginSection (holds : Represents canonicalizeLebs nested writer)
    (sectionCode : BinarySection) (none : ¬ nested.isOpen .sectionSize = true) :
    ∃ after, writer.writeSectionHeader sectionCode = some after ∧
      Represents canonicalizeLebs ((nested.add [BitVec.ofNat 8 sectionCode.number]).opened
        .sectionSize BinaryWriter.lebSectionSizeGuess) after := by
  have nothing : recorded canonicalizeLebs .sectionSize nested.enclosing = [] :=
    recorded_of_not_open none
  have closed := guess_of_field_nil (nothing.symm.trans holds.sections)
  have coded := holds.written.writeData [BitVec.ofNat 8 sectionCode.number]
  rcases coded.writeSpace .sectionSize (show BinaryWriter.lebSectionSizeGuess ≤ _ by decide) with
    ⟨spaced, leaves, written⟩
  have begins : writer.writeSectionHeader sectionCode = some
      { writer with
        stream := spaced
        lastSectionType := some sectionCode
        lastSectionLebSizeGuess := BinaryWriter.lebSectionSizeGuess
        lastSectionOffset :=
          ((nested.add [BitVec.ofNat 8 sectionCode.number]).bytes canonicalizeLebs).length
        lastSectionPayloadOffset := spaced.offset } := by
    rw [BinaryWriter.writeSectionHeader, if_pos closed, holds.mode]
    dsimp only
    rw [leaves]
    rfl
  refine ⟨_, begins, holds.mode, written, ?_, ?_, ?_⟩
  · exact recorded_opened.trans (congrArg (_ :: ·) nothing)
  · exact (recorded_opened_other (by decide)).trans holds.subsections
  · exact (recorded_opened_other (by decide)).trans holds.bodies

theorem beginSubsection (holds : Represents canonicalizeLebs nested writer)
    (none : ¬ nested.isOpen .subsectionSize = true) :
    ∃ after, writer.beginSubsection = some after ∧ Represents canonicalizeLebs
      (nested.opened .subsectionSize BinaryWriter.lebSectionSizeGuess) after := by
  have nothing : recorded canonicalizeLebs .subsectionSize nested.enclosing = [] :=
    recorded_of_not_open none
  have closed := guess_of_field_nil (nothing.symm.trans holds.subsections)
  rcases holds.written.writeSpace .subsectionSize
    (show BinaryWriter.lebSectionSizeGuess ≤ _ by decide) with ⟨spaced, leaves, written⟩
  have begins : writer.beginSubsection = some
      { writer with
        stream := spaced
        lastSubsectionLebSizeGuess := BinaryWriter.lebSectionSizeGuess
        lastSubsectionOffset := (nested.bytes canonicalizeLebs).length
        lastSubsectionPayloadOffset := spaced.offset } := by
    rw [BinaryWriter.beginSubsection, if_pos closed, holds.mode, leaves]
    rfl
  refine ⟨_, begins, holds.mode, written, ?_, ?_, ?_⟩
  · exact (recorded_opened_other (by decide)).trans holds.sections
  · exact recorded_opened.trans (congrArg (_ :: ·) nothing)
  · exact (recorded_opened_other (by decide)).trans holds.bodies

theorem bodySpace (holds : Represents canonicalizeLebs nested writer) {lebSizeGuess : Nat}
    (few : lebSizeGuess ≤ BinaryWriter.maxU32Leb128Bytes) :
    ∃ after, writer.bodySpace lebSizeGuess = some after ∧
      Represents canonicalizeLebs (nested.opened .bodySize lebSizeGuess) after := by
  rcases holds.written.writeSpace .bodySize few with ⟨spaced, leaves, written⟩
  have begins : writer.bodySpace lebSizeGuess = some
      { writer with
        stream := spaced
        bodySizes := ((nested.bytes canonicalizeLebs).length, lebSizeGuess) :: writer.bodySizes } := by
    rw [BinaryWriter.bodySpace, holds.mode, leaves]
    rfl
  refine ⟨_, begins, holds.mode, written, ?_, ?_, ?_⟩
  · exact (recorded_opened_other (by decide)).trans holds.sections
  · exact (recorded_opened_other (by decide)).trans holds.subsections
  · exact recorded_opened.trans (congrArg (_ :: ·) holds.bodies)

theorem endSection (holds : Represents canonicalizeLebs nested writer)
    (closes : nested.closed canonicalizeLebs .sectionSize = some next) :
    ∃ after, writer.endSection = some after ∧ writer.FixesUp .endSection after ∧
      Represents canonicalizeLebs next after := by
  rcases closed_some closes with ⟨size, outer, whole, own, fits, rfl⟩
  rw [whole] at holds
  rcases holds.written.fixup fits with ⟨delta, fixed, fixes, written, framed⟩
  rcases field_cons ((recorded_own own).symm.trans holds.sections) with
    ⟨isOpen, offset, guess, nothing⟩
  have ends : writer.endSection = some
      { writer with
        stream := fixed
        lastSectionLebSizeGuess := 0
        sectionCount := writer.sectionCount + 1 } := by
    rw [BinaryWriter.endSection, if_pos isOpen, holds.mode, offset, guess, fixes]
    rfl
  refine ⟨_, ends, ?_, holds.mode, written, nothing, ?_, ?_⟩
  · rintro position ahead fixes
    cases fixes
    rw [holds.mode, offset, guess]
    exact ⟨_, framed⟩
  · exact (recorded_other own (by decide)).symm.trans holds.subsections
  · exact (recorded_other own (by decide)).symm.trans holds.bodies

theorem endSubsection (holds : Represents canonicalizeLebs nested writer)
    (closes : nested.closed canonicalizeLebs .subsectionSize = some next) :
    ∃ after, writer.endSubsection = some after ∧ writer.FixesUp .endSubsection after ∧
      Represents canonicalizeLebs next after := by
  rcases closed_some closes with ⟨size, outer, whole, own, fits, rfl⟩
  rw [whole] at holds
  rcases holds.written.fixup fits with ⟨delta, fixed, fixes, written, framed⟩
  rcases field_cons ((recorded_own own).symm.trans holds.subsections) with
    ⟨isOpen, offset, guess, nothing⟩
  have ends : writer.endSubsection = some
      { writer with stream := fixed, lastSubsectionLebSizeGuess := 0 } := by
    rw [BinaryWriter.endSubsection, if_pos isOpen, holds.mode, offset, guess, fixes]
    rfl
  refine ⟨_, ends, ?_, holds.mode, written, ?_, nothing, ?_⟩
  · rintro position ahead fixes
    cases fixes
    rw [holds.mode, offset, guess]
    exact ⟨_, framed⟩
  · exact (recorded_other own (by decide)).symm.trans holds.sections
  · exact (recorded_other own (by decide)).symm.trans holds.bodies

theorem bodyFixup (holds : Represents canonicalizeLebs nested writer)
    (closes : nested.closed canonicalizeLebs .bodySize = some next) :
    ∃ after, writer.bodyFixup = some after ∧ writer.FixesUp .bodyFixup after ∧
      Represents canonicalizeLebs next after := by
  rcases closed_some closes with ⟨size, outer, whole, own, fits, rfl⟩
  rw [whole] at holds
  rcases holds.written.fixup fits with ⟨delta, fixed, fixes, written, framed⟩
  have bodies := (recorded_own own).symm.trans holds.bodies
  have ends : writer.bodyFixup = some
      { writer with
        stream := fixed
        bodySizes := recorded canonicalizeLebs .bodySize outer } := by
    rw [BinaryWriter.bodyFixup, ← bodies, holds.mode]
    dsimp only
    rw [fixes]
    rfl
  refine ⟨_, ends, ?_, holds.mode, written, ?_, ?_, rfl⟩
  · rintro position ahead fixes
    rw [BinaryWriter.fixes, ← bodies] at fixes
    cases fixes
    rw [holds.mode]
    exact ⟨_, framed⟩
  · exact (recorded_other own (by decide)).symm.trans holds.sections
  · exact (recorded_other own (by decide)).symm.trans holds.subsections

/-- Every step that nesting allows is one of the writer's. -/
theorem matched (holds : Represents canonicalizeLebs nested writer) {event : WriterEvent}
    (stepped : nested.step canonicalizeLebs event = some next) :
    ∃ after, writer.step event = some after ∧ writer.FixesUp event after ∧
      Represents canonicalizeLebs next after := by
  cases event with
  | data src =>
      cases stepped
      exact ⟨_, rfl, BinaryWriter.fixesUp_of_none rfl, holds.mode, holds.written.writeData src,
        holds.sections, holds.subsections, holds.bodies⟩
  | beginSection sectionCode =>
      rw [Nested.step] at stepped
      split at stepped
      · cases stepped
      · rename_i none
        cases stepped
        rcases holds.beginSection sectionCode none with ⟨after, begins, represents⟩
        exact ⟨after, begins, BinaryWriter.fixesUp_of_none rfl, represents⟩
  | endSection => exact holds.endSection stepped
  | beginSubsection =>
      rw [Nested.step] at stepped
      split at stepped
      · cases stepped
      · rename_i none
        cases stepped
        rcases holds.beginSubsection none with ⟨after, begins, represents⟩
        exact ⟨after, begins, BinaryWriter.fixesUp_of_none rfl, represents⟩
  | endSubsection => exact holds.endSubsection stepped
  | bodySpace lebSizeGuess =>
      rw [Nested.step] at stepped
      split at stepped
      · rename_i few
        cases stepped
        rcases holds.bodySpace few with ⟨after, begins, represents⟩
        exact ⟨after, begins, BinaryWriter.fixesUp_of_none rfl, represents⟩
      · cases stepped
  | bodyFixup => exact holds.bodyFixup stepped

end Represents
end Nested

/-- Nested writes happen, each size frames the payload behind it when that is
done, and the stream has the bytes up to its offset with every size still open
on record at its place. -/
theorem BinaryWriter.fixups_frame (canonicalizeLebs : Bool) (events : List WriterEvent)
    (last : Nested) (nests : (Nested.nesting canonicalizeLebs).run .empty events = some last) :
    ∃ writer, writing.run (.start canonicalizeLebs) events = some writer ∧
      writing.EachDoes FixesUp (.start canonicalizeLebs) events ∧
      writer.stream.written = last.bytes canonicalizeLebs ∧
      writer.stream.offset = (last.bytes canonicalizeLebs).length ∧
      Nested.Represents canonicalizeLebs last writer := by
  have matched : forall nested writer event next,
      Nested.Represents canonicalizeLebs nested writer ->
      (Nested.nesting canonicalizeLebs).step nested event = some next ->
      ∃ after, writing.step writer event = some after ∧ writer.FixesUp event after ∧
        Nested.Represents canonicalizeLebs next after :=
    fun _nested _writer _event _next holds stepped => holds.matched stepped
  rcases System.run_of_matched matched (Nested.Represents.start canonicalizeLebs) nests with
    ⟨writer, ran, each, represents⟩
  exact ⟨writer, ran, each, represents.written.written, represents.written.2, represents⟩

/-- A code section with two bodies: the space for the size of the first one is
too long, and there is none for that of the second one. -/
theorem BinaryWriter.fixups_frame_bodies :
    ∃ writer, writing.run (.start true)
        [.beginSection .code, .data [2], .bodySpace 3, .data [0, 0x0b], .bodyFixup, .bodySpace 0,
          .data [0, 1, 0x0b], .bodyFixup, .endSection] = some writer ∧
      writer.stream.written = [10, 8, 2, 2, 0, 0x0b, 3, 0, 1, 0x0b] := by
  have nests : (Nested.nesting true).run .empty
      [.beginSection .code, .data [2], .bodySpace 3, .data [0, 0x0b], .bodyFixup, .bodySpace 0,
        .data [0, 1, 0x0b], .bodyFixup, .endSection] =
      some ⟨[], [10, 8, 2, 2, 0, 0x0b, 3, 0, 1, 0x0b]⟩ := by
    decide
  rcases fixups_frame true _ _ nests with ⟨writer, ran, _each, written, _offset⟩
  exact ⟨writer, ran, written⟩

end Binary
end WasmSandboxing
