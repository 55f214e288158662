import WasmSandboxing.Binary.Entities

namespace WasmSandboxing
namespace Binary

open Foundation

/-!
# Custom sections

The readers of the sections that a name tells apart.  The callbacks that they
make are names, relocations and symbols; of these only exceptions are passed
on.
-/

namespace Read

/-- `kInvalidIndex` -/
def invalidIndex : Nat := 0xffffffff

/-- Whether an index follows those before it; `invalidIndex` stands for none. -/
def outOfOrder (lastIndex index : Nat) : Bool :=
  lastIndex != invalidIndex && index ≤ lastIndex

def functionNameError (reader : Reader) (lastIndex index : Nat) : Option String :=
  if index = lastIndex then
    some ("duplicate function name: " ++ toString index)
  else if outOfOrder lastIndex index then
    some ("function index out of order: " ++ toString index)
  else if reader.numTotalFuncs ≤ index then
    some ("invalid function index: " ++ toString index)
  else
    none

def localFunctionError (reader : Reader) (lastIndex index : Nat) : Option String :=
  if reader.numTotalFuncs ≤ index then
    some ("invalid function index: " ++ toString index)
  else if outOfOrder lastIndex index then
    some ("locals function index out of order: " ++ toString index)
  else
    none

def localNameError (lastIndex index : Nat) : Option String :=
  if index = lastIndex then
    some ("duplicate local index: " ++ toString index)
  else if outOfOrder lastIndex index then
    some ("local index out of order: " ++ toString index)
  else
    none

/-- Names behind increasing indices; each is read by `readName`. -/
def readNames (desc : String) (error : Nat -> Nat -> Option String)
    (readName : Reader -> Nat -> Except Failure (Unit × Nat)) (reader : Reader) :
    Nat -> Nat -> Nat -> Except Failure (Unit × Nat)
  | 0, _lastIndex, offset => .ok ((), offset)
  | count + 1, lastIndex, offset => do
      let (index, offset) <- reader.readIndex desc offset
      match error lastIndex index with
      | some message => .error (.error (.text message))
      | none =>
          let ((), offset) <- readName reader offset
          readNames desc error readName reader count index offset

def readName (desc : String) (reader : Reader) (offset : Nat) : Except Failure (Unit × Nat) := do
  let (_, offset) <- reader.readStr desc offset
  .ok ((), offset)

def readFunctionNames (reader : Reader) (offset : Nat) : Except Failure (Unit × Nat) := do
  let (count, offset) <- reader.readCount "name count" offset
  readNames "function index" (functionNameError reader) (readName "function name") reader count
    invalidIndex offset

def readLocalNamesOf (reader : Reader) (offset : Nat) : Except Failure (Unit × Nat) := do
  let (count, offset) <- reader.readCount "local count" offset
  readNames "named index" localNameError (readName "name") reader count invalidIndex offset

def readLocalNames (reader : Reader) (offset : Nat) : Except Failure (Unit × Nat) := do
  let (count, offset) <- reader.readCount "function count" offset
  readNames "function index" (localFunctionError reader) readLocalNamesOf reader count
    invalidIndex offset

/-- A sub-section of the size that stands in front of it. -/
def readSubsection (contents : Reader -> Nat -> Nat -> Except Failure (Unit × Nat))
    (reader : Reader) (offset : Nat) : Except Failure (Unit × Nat) := do
  let (size, offset) <- reader.readOffset "subsection size" offset
  if reader.readEnd < offset + size then
    .error (.error (.text "invalid sub-section size: extends past end"))
  else
    let ((), last) <- contents { reader with readEnd := offset + size } size offset
    if last = offset + size then
      .ok ((), last)
    else
      .error (.error (.text "unfinished sub-section"))

def readNameSubsection (nameType : Nat) (reader : Reader) (size offset : Nat) :
    Except Failure (Unit × Nat) :=
  if nameType = 0 then
    if size = 0 then .ok ((), offset) else do
      let (_, offset) <- reader.readStr "module name" offset
      .ok ((), offset)
  else if nameType = 1 then
    if size = 0 then .ok ((), offset) else readFunctionNames reader offset
  else if nameType = 2 then
    if size = 0 then .ok ((), offset) else readLocalNames reader offset
  else
    -- Unknown subsection, skip it.
    .ok ((), reader.readEnd)

/-- Every sub-section takes two bytes at least, so that the bytes left bound the
rounds; none stands for the type before the first. -/
def readNameSection (reader : Reader) :
    Nat -> Option Nat -> Nat -> Except Failure (Unit × Nat)
  | 0, _previous, offset => .ok ((), offset)
  | rounds + 1, previous, offset =>
      if offset < reader.readEnd then do
        let (nameType, offset) <- reader.readU32Leb128 "name type" offset
        if previous.any (nameType = ·) then
          .error (.error (.text "duplicate sub-section"))
        else if previous.any (nameType < ·) then
          .error (.error (.text "out-of-order sub-section"))
        else
          let ((), offset) <- readSubsection (readNameSubsection nameType) reader offset
          readNameSection reader rounds (some nameType) offset
      else
        .ok ((), offset)

/-- `count` entries, one behind another. -/
def readEntries (readEntry : Reader -> Nat -> Except Failure (Unit × Nat)) (reader : Reader) :
    Nat -> Nat -> Except Failure (Unit × Nat)
  | 0, offset => .ok ((), offset)
  | count + 1, offset => do
      let ((), offset) <- readEntry reader offset
      readEntries readEntry reader count offset

def readReloc (reader : Reader) (offset : Nat) : Except Failure (Unit × Nat) := do
  let (type, offset) <- reader.readU32Leb128 "relocation type" offset
  let (_, offset) <- reader.readOffset "offset" offset
  let (_, offset) <- reader.readIndex "index" offset
  if type = 3 || type = 4 || type = 5 || type = 8 || type = 9 then
    let (_, offset) <- reader.readS32Leb128 "addend" offset
    .ok ((), offset)
  else
    .ok ((), offset)

def readRelocSection (reader : Reader) (offset : Nat) : Except Failure (Unit × Nat) := do
  let (_, offset) <- reader.readU32Leb128 "section index" offset
  let (count, offset) <- reader.readCount "relocation count" offset
  readEntries readReloc reader count offset

/-- `WABT_SYMBOL_FLAG_UNDEFINED` -/
def symbolUndefined (flags : Nat) : Bool :=
  flags / 0x10 % 2 = 1

def readSymbol (reader : Reader) (offset : Nat) : Except Failure (Unit × Nat) := do
  let (kind, offset) <- reader.readU32Leb128 "sym type" offset
  let (flags, offset) <- reader.readU32Leb128 "sym flags" offset
  if kind = 0 || kind = 2 then
    let (_, offset) <- reader.readU32Leb128 "index" offset
    if symbolUndefined flags then
      .ok ((), offset)
    else
      let (_, offset) <- reader.readStr "symbol name" offset
      .ok ((), offset)
  else if kind = 1 then
    let (_, offset) <- reader.readStr "symbol name" offset
    if symbolUndefined flags then
      .ok ((), offset)
    else
      let (_, offset) <- reader.readU32Leb128 "segment" offset
      let (_, offset) <- reader.readU32Leb128 "offset" offset
      let (_, offset) <- reader.readU32Leb128 "size" offset
      .ok ((), offset)
  else if kind = 3 then
    let (_, offset) <- reader.readU32Leb128 "index" offset
    .ok ((), offset)
  else
    .ok ((), offset)

def readSegmentInfo (reader : Reader) (offset : Nat) : Except Failure (Unit × Nat) := do
  let (_, offset) <- reader.readStr "segment name" offset
  let (_, offset) <- reader.readU32Leb128 "segment alignment" offset
  let (_, offset) <- reader.readU32Leb128 "segment flags" offset
  .ok ((), offset)

def readInitFunction (reader : Reader) (offset : Nat) : Except Failure (Unit × Nat) := do
  let (_, offset) <- reader.readU32Leb128 "priority" offset
  let (_, offset) <- reader.readU32Leb128 "function index" offset
  .ok ((), offset)

def readLinkingSubsection (linkingType : Nat) (reader : Reader) (_size offset : Nat) :
    Except Failure (Unit × Nat) :=
  if linkingType = 8 then do
    let (count, offset) <- reader.readU32Leb128 "sym count" offset
    readEntries readSymbol reader count offset
  else if linkingType = 5 then do
    let (count, offset) <- reader.readU32Leb128 "info count" offset
    readEntries readSegmentInfo reader count offset
  else if linkingType = 6 then do
    let (count, offset) <- reader.readU32Leb128 "info count" offset
    readEntries readInitFunction reader count offset
  else
    -- Unknown subsection, skip it.
    .ok ((), reader.readEnd)

def readLinkingEntries (reader : Reader) : Nat -> Nat -> Except Failure (Unit × Nat)
  | 0, offset => .ok ((), offset)
  | rounds + 1, offset =>
      if offset < reader.readEnd then do
        let (linkingType, offset) <- reader.readU32Leb128 "type" offset
        let ((), offset) <- readSubsection (readLinkingSubsection linkingType) reader offset
        readLinkingEntries reader rounds offset
      else
        .ok ((), offset)

def readLinkingSection (reader : Reader) (offset : Nat) : Except Failure (Unit × Nat) := do
  let (version, offset) <- reader.readU32Leb128 "version" offset
  if version = 1 then
    readLinkingEntries reader (reader.readEnd - offset) offset
  else
    .error (.error (.text "invalid linking metadata version"))

def readExceptionSection : Read Unit := do
  let count <- take fun reader => reader.readCount "exception count"
  Emitting.repeated (fun index => do
    let sig <- readExceptionType
    pass (.onExceptionType index sig)) count 0

/-- The contents of a custom section, by its name. -/
def readCustomContents : Read Unit := do
  let name <- take fun reader => reader.readStr "section name"
  let state <- Emitting.get id
  if state.readDebugNames && name = ascii "name" then do
    take fun reader offset => readNameSection reader (reader.readEnd - offset) none offset
    Emitting.modify fun state => { state with didReadNamesSection := true }
  else if (ascii "reloc").isPrefixOf name then
    take readRelocSection
  else if name = ascii "linking" then
    take readLinkingSection
  else if state.features.exceptions && name = ascii "exception" then
    readExceptionSection
  else
    -- This is an unknown custom section, skip it.
    Emitting.modify fun state => { state with offset := state.readEnd }

/-- A section that cannot be read is left out unless the options say otherwise;
a failed assertion ends the reading in any case. -/
def leaveOut (state : ModuleReader) : List Item × Except Failure (Unit × ModuleReader) ->
    List Item × Except Failure (Unit × ModuleReader)
  | (items, .error (.error message)) =>
      if state.failOnCustomSectionError then
        (items, .error (.error message))
      else
        (items, .ok ((), { state with offset := state.readEnd }))
  | ran => ran

def readNamedSection : Read Unit := do
  readCustomContents
  pass (.endSection .custom)

def readCustomSection : Read Unit where
  run state := leaveOut state (readNamedSection.run state)

end Read

end Binary
end WasmSandboxing
