import Mathlib.Algebra.Ring.Nat

namespace WasmSandboxing
namespace Binary

/-!
# The primitive reads

A reader holds the bytes of the module, the end of the section it is in and
what the sections before have counted.  Every read takes the offset it starts
from and gives the offset behind what it read.
-/

/-- The messages of `PrintError`, with their arguments. -/
inductive Message where
  | unableToRead (typeName desc : String)
  | invalidCount (desc : String) (count remaining : Nat)
  | unexpectedOpcode (prefixCode : Nat)
  | invalidCallIndex (index : Nat)
  | stackDepth (depth max : Nat)
  | text (message : String)
  deriving DecidableEq, Repr

/-- How a read ends short of success. -/
inductive Failure where
  /-- A reported error and `Result::Error`. -/
  | error (message : Message)
  /-- A failed assertion, or an access out of range. -/
  | fault (what : String)
  deriving DecidableEq, Repr

/-- The features that the reader asks for. -/
structure Features where
  exceptions : Bool
  satFloatToInt : Bool
  signExtension : Bool
  simd : Bool
  multiValue : Bool

/-- What stays fixed while the code section is read. -/
structure Reader where
  data : List (BitVec 8)
  readEnd : Nat
  features : Features
  numFuncImports : Nat
  numFunctionSignatures : Nat
  numSignatures : Nat

namespace Reader

def byte (reader : Reader) (offset : Nat) : Nat :=
  (reader.data[offset]?.getD 0).toNat

/-- The number in `size` bytes, lowest first. -/
def littleEndian (reader : Reader) (offset : Nat) : Nat -> Nat
  | 0 => 0
  | size + 1 => reader.byte offset + 256 * reader.littleEndian (offset + 1) size

def readT (reader : Reader) (size : Nat) (typeName desc : String) (offset : Nat) :
    Except Failure (Nat × Nat) :=
  if reader.readEnd < offset + size then
    .error (.error (.unableToRead typeName desc))
  else
    .ok (reader.littleEndian offset size, offset + size)

def readU8 (reader : Reader) := reader.readT 1 "uint8_t"

def readF32 (reader : Reader) := reader.readT 4 "float"

def readF64 (reader : Reader) := reader.readT 8 "double"

def readV128 (reader : Reader) := reader.readT 16 "v128"

/-! ## Variable-length numbers -/

/-- The first of `limit` bytes that ends a number, if the section has one. -/
def lebLast (reader : Reader) (offset limit : Nat) : Option Nat :=
  (List.range limit).find? fun index =>
    decide (offset + index < reader.readEnd) && decide (reader.byte (offset + index) < 0x80)

/-- Seven bits of each of `count` bytes, lowest first. -/
def lebBits (reader : Reader) (offset : Nat) : Nat -> Nat
  | 0 => 0
  | count + 1 => reader.byte offset % 0x80 + 0x80 * reader.lebBits (offset + 1) count

def readU32Leb128 (reader : Reader) (desc : String) (offset : Nat) : Except Failure (Nat × Nat) :=
  match reader.lebLast offset 5 with
  | none => .error (.error (.unableToRead "u32 leb128" desc))
  | some last =>
      -- The top bits set represent values > 32 bits.
      if last = 4 ∧ 0x10 ≤ reader.byte (offset + 4) then
        .error (.error (.unableToRead "u32 leb128" desc))
      else
        .ok (reader.lebBits offset (last + 1), offset + last + 1)

/-- The number whose sign is the highest bit of its last byte. -/
def lebSigned (reader : Reader) (offset last : Nat) : Int :=
  if reader.byte (offset + last) < 0x40 then
    reader.lebBits offset (last + 1)
  else
    (reader.lebBits offset (last + 1) : Int) - (0x80 ^ (last + 1) : Nat)

/-- A signed number in at most `limit` bytes, the last of which holds `spare`
values on either side of the sign. -/
def readSignedLeb128 (reader : Reader) (limit spare : Nat) (typeName desc : String)
    (offset : Nat) : Except Failure (Int × Nat) :=
  match reader.lebLast offset limit with
  | none => .error (.error (.unableToRead typeName desc))
  | some last =>
      -- The top bits should be a sign-extension of the sign bit.
      if last + 1 = limit ∧ spare ≤ reader.byte (offset + last) ∧
          reader.byte (offset + last) + spare < 0x80 then
        .error (.error (.unableToRead typeName desc))
      else
        .ok (reader.lebSigned offset last, offset + last + 1)

def readS32Leb128 (reader : Reader) := reader.readSignedLeb128 5 0x8 "i32 leb128"

def readS64Leb128 (reader : Reader) := reader.readSignedLeb128 10 0x1 "i64 leb128"

def readType (reader : Reader) := reader.readS32Leb128

def readIndex (reader : Reader) := reader.readU32Leb128

def readCount (reader : Reader) (desc : String) (offset : Nat) : Except Failure (Nat × Nat) := do
  let (count, offset) <- reader.readIndex desc offset
  if reader.readEnd - offset < count then
    .error (.error (.invalidCount desc count (reader.readEnd - offset)))
  else
    .ok (count, offset)

/-! ## Types -/

def isConcreteType (reader : Reader) (type : Int) : Bool :=
  type = -0x01 || type = -0x02 || type = -0x03 || type = -0x04 ||
    (type = -0x05 && reader.features.simd)

def isBlockType (reader : Reader) (type : Int) : Bool :=
  reader.isConcreteType type || type = -0x40 ||
    (reader.features.multiValue && decide (0 ≤ type) && decide (type < reader.numSignatures))

def numTotalFuncs (reader : Reader) : Nat :=
  reader.numFuncImports + reader.numFunctionSignatures

/-! ## What a read moves

A read that succeeds gives an offset behind the one it started from. -/

theorem readT_advances {reader : Reader} {size offset number next : Nat}
    {typeName desc : String} (read : reader.readT size typeName desc offset = .ok (number, next)) :
    next = offset + size := by
  unfold readT at read
  split at read
  · exact nomatch read
  · exact (congrArg Prod.snd (Except.ok.inj read)).symm

theorem readU32Leb128_advances {reader : Reader} {desc : String} {offset number next : Nat}
    (read : reader.readU32Leb128 desc offset = .ok (number, next)) : offset < next := by
  unfold readU32Leb128 at read
  cases found : reader.lebLast offset 5 with
  | none =>
      rw [found] at read
      exact nomatch read
  | some last =>
      rw [found] at read
      change (if _ then _ else _) = _ at read
      split at read
      · exact nomatch read
      · have same : offset + last + 1 = next := congrArg Prod.snd (Except.ok.inj read)
        omega

theorem readU32Leb128_error {reader : Reader} {desc : String} {offset : Nat} {failure : Failure}
    (read : reader.readU32Leb128 desc offset = .error failure) :
    exists message, failure = .error message := by
  unfold readU32Leb128 at read
  cases found : reader.lebLast offset 5 with
  | none =>
      rw [found] at read
      cases read
      exact ⟨_, rfl⟩
  | some last =>
      rw [found] at read
      change (if _ then _ else _) = _ at read
      split at read
      · cases read
        exact ⟨_, rfl⟩
      · exact nomatch read

theorem readSignedLeb128_advances {reader : Reader} {limit spare offset next : Nat}
    {typeName desc : String} {number : Int}
    (read : reader.readSignedLeb128 limit spare typeName desc offset = .ok (number, next)) :
    offset < next := by
  unfold readSignedLeb128 at read
  cases found : reader.lebLast offset limit with
  | none =>
      rw [found] at read
      exact nomatch read
  | some last =>
      rw [found] at read
      change (if _ then _ else _) = _ at read
      split at read
      · exact nomatch read
      · have same : offset + last + 1 = next := congrArg Prod.snd (Except.ok.inj read)
        omega

end Reader

end Binary
end WasmSandboxing
