import WasmSandboxing.Binary.Events

namespace WasmSandboxing
namespace Binary

open Foundation

/-!
# What the sections hold

Strings, value types, tables, memories, globals and initialisers.
-/

/-! ## Strings -/

/-- `IsCont` -/
def isCont (byte : BitVec 8) : Bool :=
  0x80 ≤ byte.toNat && byte.toNat < 0xc0

def isValidUtf8 : List (BitVec 8) -> Bool
  | [] => true
  | first :: rest =>
      if first.toNat < 0x80 then
        isValidUtf8 rest
      else
        match rest with
        | [] => false
        | second :: rest =>
            if 0xc2 ≤ first.toNat && first.toNat < 0xe0 then
              isCont second && isValidUtf8 rest
            else
              match rest with
              | [] => false
              | third :: rest =>
                  if 0xe0 ≤ first.toNat && first.toNat < 0xf0 then
                    isCont second && isCont third &&
                      !(first = 0xe0 && second.toNat < 0xa0) &&  -- Overlong encoding.
                      !(first = 0xed && 0xa0 ≤ second.toNat) &&  -- UTF-16 surrogate halves.
                      isValidUtf8 rest
                  else
                    match rest with
                    | [] => false
                    | fourth :: rest =>
                        0xf0 ≤ first.toNat && first.toNat < 0xf5 &&
                          isCont second && isCont third && isCont fourth &&
                          !(first = 0xf0 && second.toNat < 0x90) &&
                          !(first = 0xf4 && 0x90 ≤ second.toNat) &&
                          isValidUtf8 rest

def ascii (text : String) : Name :=
  text.toList.map fun char => BitVec.ofNat 8 char.toNat

namespace Reader

variable (reader : Reader)

def readU32 := reader.readT 4 "uint32_t"

def readOffset := reader.readU32Leb128

def readStr (desc : String) (offset : Nat) : Except Failure (Name × Nat) := do
  let (length, offset) <- reader.readU32Leb128 "string length" offset
  if reader.readEnd < offset + length then
    .error (.error (.text ("unable to read string: " ++ desc)))
  else if isValidUtf8 ((reader.data.drop offset).take length) then
    .ok ((reader.data.drop offset).take length, offset + length)
  else
    .error (.error (.text ("invalid utf-8 encoding: " ++ desc)))

def readBytes (desc : String) (offset : Nat) : Except Failure (List (BitVec 8) × Nat) := do
  let (length, offset) <- reader.readU32Leb128 "data size" offset
  if reader.readEnd < offset + length then
    .error (.error (.text ("unable to read data: " ++ desc)))
  else
    .ok ((reader.data.drop offset).take length, offset + length)

end Reader

/-- `PRItypecode` -/
def typeCode (type : Int) : String :=
  (if type < 0 then "-" else "") ++ "0x" ++ String.ofList (Nat.toDigits 16 type.natAbs)

/-- The opcodes that `ReadI32InitExpr` takes. -/
def InitExpr.mayBeI32 : InitExpr -> Bool
  | .i32Const _ => true
  | .getGlobal _ => true
  | _ => false

namespace Read

/-! ## Types, tables, memories and globals -/

def readConcreteType (desc message : String) : Read Int := do
  let type <- take fun reader => reader.readType desc
  let reader <- Emitting.get ModuleReader.reader
  require (reader.isConcreteType type) message
  return type

def hasMaxFlag (flags : Nat) : Bool :=
  flags % 2 = 1

def isSharedFlag (flags : Nat) : Bool :=
  flags / 2 % 2 = 1

def readTable : Read (Int × Limits) := do
  let elemType <- take fun reader => reader.readType "table elem type"
  require (elemType = -0x10) "table elem type must by anyfunc"
  let flags <- take fun reader => reader.readU32Leb128 "table flags"
  let initial <- take fun reader => reader.readU32Leb128 "table initial elem count"
  require (!isSharedFlag flags) "tables may not be shared"
  if hasMaxFlag flags then do
    let max <- take fun reader => reader.readU32Leb128 "table max elem count"
    require (initial ≤ max) "table initial elem count must be <= max elem count"
    return (elemType, ⟨initial, max, true, false⟩)
  else
    return (elemType, ⟨initial, 0, false, false⟩)

/-- `WABT_MAX_PAGES` -/
def maxPages : Nat := 0x10000

def readMemory : Read Limits := do
  let flags <- take fun reader => reader.readU32Leb128 "memory flags"
  let initial <- take fun reader => reader.readU32Leb128 "memory initial page count"
  require (initial ≤ maxPages) "invalid memory initial size"
  require (!isSharedFlag flags || hasMaxFlag flags) "shared memory must have a max size"
  if hasMaxFlag flags then do
    let max <- take fun reader => reader.readU32Leb128 "memory max page count"
    require (max ≤ maxPages) "invalid memory max size"
    require (initial ≤ max) "memory initial size must be <= max size"
    return ⟨initial, max, true, isSharedFlag flags⟩
  else
    return ⟨initial, 0, false, isSharedFlag flags⟩

def readGlobalHeader : Read (Int × Bool) := do
  let type <- readConcreteType "global type" "invalid global type"
  let mutable_ <- take fun reader => reader.readU8 "global mutability"
  require (mutable_ ≤ 1) "global mutability must be 0 or 1"
  return (type, mutable_ = 1)

def readExceptionType : Read (List Int) := do
  let count <- take fun reader => reader.readCount "exception type count"
  Emitting.collected
    (fun _ => readConcreteType "exception value type" "excepted valid exception value type")
    count 0

/-! ## Initialisers -/

/-- The value of an initialiser that starts with `opcode`. -/
def readInitValue (opcode : Nat) (reader : Reader) (offset : Nat) :
    Except Failure (InitExpr × Nat) :=
  if opcode = 0x41 then do
    let (value, offset) <- reader.readS32Leb128 "init_expr i32.const value" offset
    .ok (.i32Const (BitVec.ofInt 32 value), offset)
  else if opcode = 0x42 then do
    let (value, offset) <- reader.readS64Leb128 "init_expr i64.const value" offset
    .ok (.i64Const (BitVec.ofInt 64 value), offset)
  else if opcode = 0x43 then do
    let (bits, offset) <- reader.readF32 "init_expr f32.const value" offset
    .ok (.f32Const (BitVec.ofNat 32 bits), offset)
  else if opcode = 0x44 then do
    let (bits, offset) <- reader.readF64 "init_expr f64.const value" offset
    .ok (.f64Const (BitVec.ofNat 64 bits), offset)
  else if opcode = 0xfd00 then
    if reader.features.simd then do
      let (bits, offset) <- reader.readV128 "init_expr v128.const value" offset
      .ok (.v128Const (BitVec.ofNat 128 bits), offset)
    else
      .error (.error (.unexpectedOpcode opcode))
  else if opcode = 0x23 then do
    let (index, offset) <- reader.readIndex "init_expr get_global index" offset
    .ok (.getGlobal index, offset)
  else
    .error (.error (.text "unexpected opcode in initializer expression"))

/-- `ReadInitExpr`, and `ReadI32InitExpr` with `requireI32`.  An `end` at once
is an initialiser too, of which no callback tells. -/
def readInitExpr (index : Nat) (requireI32 : Bool) : Read Unit := do
  let opcode <- take Reader.readOpcode
  if opcode = 0x0b then
    return ()
  else do
    let init <- take (readInitValue opcode)
    pass (.onInitExpr index init)
    require (!requireI32 || init.mayBeI32) "expected i32 init_expr"
    let opcode <- take Reader.readOpcode
    require (opcode = 0x0b) "expected END opcode after initializer expression"

end Read

end Binary
end WasmSandboxing
