import WasmSandboxing.Foundation.Except
import WasmSandboxing.Binary.Opcodes

namespace WasmSandboxing
namespace Binary

open Foundation

/-!
# Function bodies

`ReadFunctionBody` and `ReadCodeSection` over the delegate that they call.
Which opcodes a body spells does not depend on the delegate: reading a body is
the delegate's fold over the opcodes decoded.
-/

/-- One opcode with its immediates, as the delegate is called with it. -/
structure Instr where
  opcode : Nat
  callback : Callback
  immediates : List Int
  deriving DecidableEq, Repr

/-- The callbacks of `BinaryReaderDelegate` for the code section.  `onExpr` is
any callback of an opcode, with the offset behind what the opcode reads. -/
structure Delegate (State : Type) where
  onFunctionBodyCount : Nat -> State -> Except Failure State
  beginFunctionBody : Nat -> State -> Except Failure State
  onExpr : Instr -> Nat -> State -> Except Failure State
  onEndFunc : State -> Except Failure State
  endFunctionBody : Nat -> State -> Except Failure State

namespace Reader

variable (reader : Reader)

/-! ## One opcode -/

/-- `Opcode::PrefixCode` asserts that a code behind a prefix fits into a byte. -/
def readOpcode (offset : Nat) : Except Failure (Nat × Nat) := do
  let (value, offset) <- reader.readU8 "opcode" offset
  if value = 0xfc ∨ value = 0xfd ∨ value = 0xfe then
    let (code, offset) <- reader.readU32Leb128 "opcode" offset
    if 0x100 ≤ code then
      .error (.fault "code < 0x100")
    else
      .ok (0x100 * value + code, offset)
  else
    .ok (value, offset)

def readTargets : Nat -> Nat -> Except Failure (List Int × Nat)
  | 0, offset => .ok ([], offset)
  | count + 1, offset => do
      let (depth, offset) <- reader.readIndex "br_table target depth" offset
      let (rest, offset) <- readTargets count offset
      .ok ((depth : Int) :: rest, offset)

def readImmediate (offset : Nat) : Immediate -> Except Failure (List Int × Nat)
  | .index desc => do
      let (index, offset) <- reader.readIndex desc offset
      .ok ([(index : Int)], offset)
  | .funcIndex desc => do
      let (index, offset) <- reader.readIndex desc offset
      if index < reader.numTotalFuncs then
        .ok ([(index : Int)], offset)
      else
        .error (.error (.invalidCallIndex index))
  | .sigIndex desc => do
      let (index, offset) <- reader.readIndex desc offset
      if index < reader.numSignatures then
        .ok ([(index : Int)], offset)
      else
        .error (.error (.text "invalid call_indirect signature index"))
  | .reserved desc => do
      let (reserved, offset) <- reader.readU32Leb128 desc offset
      if reserved = 0 then
        .ok ([], offset)
      else
        .error (.error (.text (desc ++ " value must be 0")))
  | .blockType desc => do
      let (type, offset) <- reader.readType desc offset
      if reader.isBlockType type then
        .ok ([type], offset)
      else
        .error (.error (.text "expected valid block signature type"))
  | .targets => do
      let (count, offset) <- reader.readIndex "br_table target count" offset
      let (depths, offset) <- reader.readTargets count offset
      let (depth, offset) <- reader.readIndex "br_table default target depth" offset
      .ok (depths ++ [(depth : Int)], offset)
  | .s32 desc => do
      let (value, offset) <- reader.readS32Leb128 desc offset
      .ok ([value], offset)
  | .s64 desc => do
      let (value, offset) <- reader.readS64Leb128 desc offset
      .ok ([value], offset)
  | .f32 desc => do
      let (bits, offset) <- reader.readF32 desc offset
      .ok ([(bits : Int)], offset)
  | .f64 desc => do
      let (bits, offset) <- reader.readF64 desc offset
      .ok ([(bits : Int)], offset)
  | .v128 desc => do
      let (bits, offset) <- reader.readV128 desc offset
      .ok ([(bits : Int)], offset)
  | .u8 desc => do
      let (value, offset) <- reader.readU8 desc offset
      .ok ([(value : Int)], offset)

def readImmediates (offset : Nat) : List Immediate -> Except Failure (List Int × Nat)
  | [] => .ok ([], offset)
  | immediate :: rest => do
      let (first, offset) <- reader.readImmediate offset immediate
      let (later, offset) <- readImmediates offset rest
      .ok (first ++ later, offset)

/-- An opcode and what its case reads, before any callback. -/
def readInstr (offset : Nat) : Except Failure (Instr × Nat) := do
  let (opcode, offset) <- reader.readOpcode offset
  match opcodeCase opcode with
  | none => .error (.error (.unexpectedOpcode opcode))
  | some row =>
      if reader.features.enabled row.feature then
        let (immediates, offset) <- reader.readImmediates offset row.immediates
        .ok (⟨opcode, row.callback, immediates⟩, offset)
      else
        .error (.error (.unexpectedOpcode opcode))

/-! ## One body -/

/-- The `end` that the reader takes for the function's own, by its offset. -/
def closesFunction (endOffset : Nat) (instr : Instr) (offset : Nat) : Bool :=
  instr.callback = .onEnd && offset = endOffset

def callback (delegate : Delegate State) (endOffset : Nat) (instr : Instr) (offset : Nat)
    (state : State) : Except Failure State :=
  if closesFunction endOffset instr offset then
    delegate.onEndFunc state
  else
    delegate.onExpr instr offset state

/-- The loop of `ReadFunctionBody`.  An opcode takes a byte at least, so that
the bytes left bound the rounds. -/
def readOpcodes (delegate : Delegate State) (endOffset : Nat) :
    Nat -> Nat -> Bool -> State -> Except Failure (Nat × Bool × State)
  | 0, offset, seenEndOpcode, state => .ok (offset, seenEndOpcode, state)
  | rounds + 1, offset, seenEndOpcode, state =>
      if offset < endOffset then do
        let (instr, offset) <- reader.readInstr offset
        let state <- callback delegate endOffset instr offset state
        readOpcodes delegate endOffset rounds offset
          (seenEndOpcode || closesFunction endOffset instr offset) state
      else
        .ok (offset, seenEndOpcode, state)

def readFunctionBody (delegate : Delegate State) (endOffset offset : Nat) (state : State) :
    Except Failure (Nat × State) := do
  let (offset, seenEndOpcode, state) <-
    reader.readOpcodes delegate endOffset (endOffset - offset) offset false state
  if offset ≠ endOffset then
    .error (.error (.text "function body longer than given size"))
  else if !seenEndOpcode then
    .error (.error (.text "function body must end with END opcode"))
  else
    .ok (offset, state)

/-- The declarations of locals, whose types the delegate adds to the function. -/
def readLocalDecls : Nat -> Nat -> Nat -> Except Failure Nat
  | 0, _totalLocals, offset => .ok offset
  | count + 1, totalLocals, offset => do
      let (numLocalTypes, offset) <- reader.readIndex "local type count" offset
      if numLocalTypes = 0 then
        .error (.error (.text "local count must be > 0"))
      else if 0xffffffff ≤ totalLocals + numLocalTypes then
        .error (.error (.text "local count must be < 0x10000000"))
      else
        let (localType, offset) <- reader.readType "local type" offset
        if reader.isConcreteType localType then
          readLocalDecls count (totalLocals + numLocalTypes) offset
        else
          .error (.error (.text "expected valid local type"))

/-- Where a body starts and ends, and the offset of its first opcode. -/
def readBodyHeader (offset : Nat) : Except Failure (Nat × Nat × Nat) := do
  let (bodySize, start) <- reader.readU32Leb128 "function body size" offset
  let (numLocalDecls, offset) <- reader.readCount "local declaration count" start
  let offset <- reader.readLocalDecls numLocalDecls 0 offset
  .ok (start, start + bodySize, offset)

/-- A round of the loop of `ReadCodeSection`. -/
def readBody (delegate : Delegate State) (index offset : Nat) (state : State) :
    Except Failure (Nat × State) := do
  let state <- delegate.beginFunctionBody index state
  let (_start, endOffset, offset) <- reader.readBodyHeader offset
  let (offset, state) <- reader.readFunctionBody delegate endOffset offset state
  let state <- delegate.endFunctionBody index state
  .ok (offset, state)

/-- The first `count` rounds, from the function `index`. -/
def readBodies (delegate : Delegate State) :
    Nat -> Nat -> Nat -> State -> Except Failure (Nat × State)
  | 0, _index, offset, state => .ok (offset, state)
  | count + 1, index, offset, state => do
      let (offset, state) <- reader.readBody delegate index offset state
      readBodies delegate count (index + 1) offset state

/-- The number of bodies and the offset of the first. -/
def readCodeHeader (offset : Nat) : Except Failure (Nat × Nat) := do
  let (numFunctionBodies, offset) <- reader.readCount "function body count" offset
  if reader.numFunctionSignatures = numFunctionBodies then
    .ok (numFunctionBodies, offset)
  else
    .error (.error (.text "function signature count != function body count"))

def readCodeSection (delegate : Delegate State) (offset : Nat) (state : State) :
    Except Failure (Nat × State) := do
  let (numFunctionBodies, offset) <- reader.readCodeHeader offset
  let state <- delegate.onFunctionBodyCount numFunctionBodies state
  reader.readBodies delegate numFunctionBodies reader.numFuncImports offset state

/-! ## An opcode takes a byte at least -/

variable {reader}

theorem readCount_advances {desc : String} {offset count next : Nat}
    (read : reader.readCount desc offset = .ok (count, next)) : offset < next := by
  rcases bind_ok.mp read with ⟨⟨number, after⟩, found, checked⟩
  change (if _ then _ else _) = _ at checked
  split at checked
  · exact nomatch checked
  · cases checked
    exact readU32Leb128_advances found

theorem readOpcode_advances {offset opcode next : Nat}
    (read : reader.readOpcode offset = .ok (opcode, next)) : offset < next := by
  rcases bind_ok.mp read with ⟨⟨value, after⟩, first, checked⟩
  have moved : after = offset + 1 := readT_advances first
  change (if _ then _ else _) = _ at checked
  split at checked
  · rcases bind_ok.mp checked with ⟨⟨code, behind⟩, second, checked⟩
    have further := readU32Leb128_advances second
    change (if _ then _ else _) = _ at checked
    split at checked
    · exact nomatch checked
    · cases checked
      omega
  · cases checked
    omega

theorem readTargets_forward {count offset next : Nat} {depths : List Int}
    (read : reader.readTargets count offset = .ok (depths, next)) : offset ≤ next := by
  induction count generalizing offset depths next with
  | zero =>
      cases read
      exact Nat.le_refl _
  | succ count inductionHypothesis =>
      rcases bind_ok.mp read with ⟨⟨depth, after⟩, first, later⟩
      rcases bind_ok.mp later with ⟨⟨rest, behind⟩, second, done⟩
      cases done
      exact Nat.le_of_lt (Nat.lt_of_lt_of_le (readU32Leb128_advances first)
        (inductionHypothesis second))

theorem readImmediate_forward {offset next : Nat} {immediate : Immediate} {values : List Int}
    (read : reader.readImmediate offset immediate = .ok (values, next)) : offset ≤ next := by
  cases immediate with
  | index desc =>
      rcases bind_ok.mp read with ⟨⟨index, after⟩, found, done⟩
      cases done
      exact Nat.le_of_lt (readU32Leb128_advances found)
  | funcIndex desc | sigIndex desc | reserved desc =>
      rcases bind_ok.mp read with ⟨⟨index, after⟩, found, checked⟩
      change (if _ then _ else _) = _ at checked
      split at checked
      · cases checked
        exact Nat.le_of_lt (readU32Leb128_advances found)
      · exact nomatch checked
  | blockType desc =>
      rcases bind_ok.mp read with ⟨⟨type, after⟩, found, checked⟩
      change (if _ then _ else _) = _ at checked
      split at checked
      · cases checked
        exact Nat.le_of_lt (readSignedLeb128_advances found)
      · exact nomatch checked
  | targets =>
      rcases bind_ok.mp read with ⟨⟨count, first⟩, counted, later⟩
      rcases bind_ok.mp later with ⟨⟨depths, second⟩, listed, later⟩
      rcases bind_ok.mp later with ⟨⟨depth, third⟩, default_, done⟩
      cases done
      have one := readU32Leb128_advances counted
      have two := readTargets_forward listed
      have three := readU32Leb128_advances default_
      omega
  | s32 desc | s64 desc =>
      rcases bind_ok.mp read with ⟨⟨value, after⟩, found, done⟩
      cases done
      exact Nat.le_of_lt (readSignedLeb128_advances found)
  | f32 desc | f64 desc | v128 desc | u8 desc =>
      rcases bind_ok.mp read with ⟨⟨value, after⟩, found, done⟩
      cases done
      exact readT_advances found ▸ Nat.le_add_right ..

theorem readImmediates_forward {offset next : Nat} {immediates : List Immediate}
    {values : List Int} (read : reader.readImmediates offset immediates = .ok (values, next)) :
    offset ≤ next := by
  induction immediates generalizing offset values next with
  | nil =>
      cases read
      exact Nat.le_refl _
  | cons immediate rest inductionHypothesis =>
      rcases bind_ok.mp read with ⟨⟨first, after⟩, here, later⟩
      rcases bind_ok.mp later with ⟨⟨others, behind⟩, there, done⟩
      cases done
      exact Nat.le_trans (readImmediate_forward here) (inductionHypothesis there)

theorem readInstr_advances {offset next : Nat} {instr : Instr}
    (read : reader.readInstr offset = .ok (instr, next)) : offset < next := by
  rcases bind_ok.mp read with ⟨⟨opcode, after⟩, first, later⟩
  have moved := readOpcode_advances first
  change (match opcodeCase opcode with
    | none => _
    | some row => _) = _ at later
  cases found : opcodeCase opcode with
  | none =>
      rw [found] at later
      exact nomatch later
  | some row =>
      rw [found] at later
      change (if _ then _ else _) = _ at later
      split at later
      · rcases bind_ok.mp later with ⟨⟨values, behind⟩, second, done⟩
        cases done
        exact Nat.lt_of_lt_of_le moved (readImmediates_forward second)
      · exact nomatch later

theorem readLocalDecls_forward {count totalLocals offset next : Nat}
    (read : reader.readLocalDecls count totalLocals offset = .ok next) : offset ≤ next := by
  induction count generalizing totalLocals offset with
  | zero =>
      cases read
      exact Nat.le_refl _
  | succ count inductionHypothesis =>
      rcases bind_ok.mp read with ⟨⟨number, after⟩, first, later⟩
      have one := readU32Leb128_advances first
      change (if _ then _ else _) = _ at later
      split at later
      · exact nomatch later
      · split at later
        · exact nomatch later
        · rcases bind_ok.mp later with ⟨⟨type, behind⟩, second, later⟩
          have two := readSignedLeb128_advances second
          change (if _ then _ else _) = _ at later
          split at later
          · have three := inductionHypothesis later
            omega
          · exact nomatch later

/-- The opcodes of a body lie behind its start. -/
theorem readBodyHeader_forward {offset start endOffset first : Nat}
    (read : reader.readBodyHeader offset = .ok (start, endOffset, first)) : start ≤ first := by
  rcases bind_ok.mp read with ⟨⟨size, begun⟩, _, later⟩
  rcases bind_ok.mp later with ⟨⟨count, after⟩, counted, later⟩
  rcases bind_ok.mp later with ⟨behind, declared, done⟩
  cases done
  exact Nat.le_of_lt (Nat.lt_of_lt_of_le (readCount_advances counted)
    (readLocalDecls_forward declared))

end Reader

end Binary
end WasmSandboxing
