import WasmSandboxing.Foundation.Bytes
import WasmSandboxing.Wasm.Opcode
import Mathlib.Algebra.Ring.Nat

namespace WasmSandboxing
namespace Interp

open Foundation Wasm

/-!
# The interpreter's environment

What `Environment` holds, and the instructions of its `istream`.  The stream is
a sequence of cells, one for each opcode and each operand that is emitted, and
an offset counts cells.
-/

/-- `interp::Result`. -/
inductive Result where
  | ok | returned | trapMemoryAccessOutOfBounds | trapAtomicMemoryAccessUnaligned
  | trapIntegerOverflow | trapIntegerDivideByZero | trapInvalidConversionToInteger
  | trapUndefinedTableIndex | trapUninitializedTableElement | trapUnreachable
  | trapIndirectCallSignatureMismatch | trapCallStackExhausted | trapValueStackExhausted
  | trapHostResultTypeMismatch | trapHostTrapped | argumentTypeMismatch | unknownExport
  | exportKindMismatch
  deriving DecidableEq, Repr

/-- The union `Value` without vectors; `i32` and `f32_bits` are its low half. -/
abbrev Value := BitVec 64

def Value.i32 (value : Value) : BitVec 32 := value.setWidth 32

/-- `MakeValue` of 32 bits. -/
def Value.ofI32 (bits : BitVec 32) : Value := bits.setWidth 64

structure TypedValue where
  type : ValueType
  value : Value
  deriving DecidableEq, Repr

structure FuncSignature where
  paramTypes : List ValueType
  resultTypes : List ValueType
  deriving DecidableEq, Repr

/-! ## Memories -/

/-- `WABT_PAGE_SIZE`. -/
def pageSize : Nat := 65536

/-- `WABT_MAX_PAGES`. -/
def maxPages : Nat := 65536

/-- `Limits` of a memory, in pages. -/
structure Limits where
  initial : Nat
  max : Nat
  hasMax : Bool
  deriving DecidableEq, Repr

/-- `Memory`, with the size of `data` and its bytes. -/
structure Memory where
  pageLimits : Limits
  size : Nat
  data : Bytes

namespace Memory

/-- `Memory(const Limits&)`, whose bytes are zero. -/
def ofLimits (limits : Limits) : Memory := ⟨limits, limits.initial * pageSize, fun _ => 0⟩

/-- `data.resize`: bytes are dropped at the end, or zero bytes added. -/
def resize (memory : Memory) (size : Nat) : Memory :=
  { memory with
    size
    data := fun index => if index < memory.size then memory.data index else 0 }

end Memory

/-! ## Functions -/

/-- `HostFuncCallback` with its `user_data`: the arguments go in, and a result
and as many typed values as it has written come out. -/
abbrev HostFuncCallback (Host : Type) :=
  Host -> List TypedValue -> Result × List TypedValue × Host

/-- `DefinedFunc` and `HostFunc`. -/
inductive Func (Host : Type) where
  | defined (sigIndex offset : Nat)
  | host (sigIndex : Nat) (callback : HostFuncCallback Host)

def Func.sigIndex {Host : Type} : Func Host -> Nat
  | defined sigIndex _ | host sigIndex _ => sigIndex

/-! ## Instructions -/

/-- The opcodes that stand in a stream. -/
inductive Opcode where
  | select | br | brIf | brTable | ret | unreachable
  | i32Const | i64Const | f32Const | f64Const
  | getGlobal | setGlobal | getLocal | setLocal | teeLocal
  | call | callIndirect | interpCallHost
  | load (opcode : LoadOpcode) | store (opcode : StoreOpcode) | memorySize | memoryGrow
  | unary (opcode : UnaryOpcode) | binary (opcode : BinaryOpcode)
  | compare (opcode : CompareOpcode) | convert (opcode : ConvertOpcode)
  | interpAlloca | interpBrUnless | drop | interpDropKeep | nop | interpData
  deriving DecidableEq, Repr

inductive Cell where
  | opcode (opcode : Opcode)
  | u32 (value : BitVec 32)
  | u64 (value : BitVec 64)
  deriving DecidableEq, Repr

/-- An instruction with the operands that `Thread::Run` reads for it. -/
inductive Instr where
  | select
  | br (offset : BitVec 32)
  | brIf (offset : BitVec 32)
  | brTable (numTargets tableOffset : BitVec 32)
  | ret
  | unreachable
  | const (value : Value)
  | getGlobal (index : BitVec 32)
  | setGlobal (index : BitVec 32)
  | getLocal (depth : BitVec 32)
  | setLocal (depth : BitVec 32)
  | teeLocal (depth : BitVec 32)
  | call (offset : BitVec 32)
  | callIndirect (tableIndex sigIndex : BitVec 32)
  | interpCallHost (funcIndex : BitVec 32)
  | load (opcode : LoadOpcode) (memoryIndex offset : BitVec 32)
  | store (opcode : StoreOpcode) (memoryIndex offset : BitVec 32)
  | memorySize (memoryIndex : BitVec 32)
  | memoryGrow (memoryIndex : BitVec 32)
  | unary (opcode : UnaryOpcode)
  | binary (opcode : BinaryOpcode)
  | compare (opcode : CompareOpcode)
  | convert (opcode : ConvertOpcode)
  | interpAlloca (count : BitVec 32)
  | interpBrUnless (offset : BitVec 32)
  | drop
  | interpDropKeep (dropCount keepCount : BitVec 32)
  | nop
  deriving DecidableEq, Repr

/-- `ReadOpcode` and the reads of the operands, with the number of cells that
are read.  `InterpData` must not be reached. -/
def decodeCells : List Cell -> Option (Instr × Nat)
  | .opcode .select :: _ => some (.select, 1)
  | .opcode .br :: .u32 offset :: _ => some (.br offset, 2)
  | .opcode .brIf :: .u32 offset :: _ => some (.brIf offset, 2)
  | .opcode .brTable :: .u32 numTargets :: .u32 tableOffset :: _ =>
      some (.brTable numTargets tableOffset, 3)
  | .opcode .ret :: _ => some (.ret, 1)
  | .opcode .unreachable :: _ => some (.unreachable, 1)
  | .opcode .i32Const :: .u32 value :: _ => some (.const (.ofI32 value), 2)
  | .opcode .i64Const :: .u64 value :: _ => some (.const value, 2)
  | .opcode .f32Const :: .u32 bits :: _ => some (.const (.ofI32 bits), 2)
  | .opcode .f64Const :: .u64 bits :: _ => some (.const bits, 2)
  | .opcode .getGlobal :: .u32 index :: _ => some (.getGlobal index, 2)
  | .opcode .setGlobal :: .u32 index :: _ => some (.setGlobal index, 2)
  | .opcode .getLocal :: .u32 depth :: _ => some (.getLocal depth, 2)
  | .opcode .setLocal :: .u32 depth :: _ => some (.setLocal depth, 2)
  | .opcode .teeLocal :: .u32 depth :: _ => some (.teeLocal depth, 2)
  | .opcode .call :: .u32 offset :: _ => some (.call offset, 2)
  | .opcode .callIndirect :: .u32 tableIndex :: .u32 sigIndex :: _ =>
      some (.callIndirect tableIndex sigIndex, 3)
  | .opcode .interpCallHost :: .u32 funcIndex :: _ => some (.interpCallHost funcIndex, 2)
  | .opcode (.load opcode) :: .u32 memoryIndex :: .u32 offset :: _ =>
      some (.load opcode memoryIndex offset, 3)
  | .opcode (.store opcode) :: .u32 memoryIndex :: .u32 offset :: _ =>
      some (.store opcode memoryIndex offset, 3)
  | .opcode .memorySize :: .u32 memoryIndex :: _ => some (.memorySize memoryIndex, 2)
  | .opcode .memoryGrow :: .u32 memoryIndex :: _ => some (.memoryGrow memoryIndex, 2)
  | .opcode (.unary opcode) :: _ => some (.unary opcode, 1)
  | .opcode (.binary opcode) :: _ => some (.binary opcode, 1)
  | .opcode (.compare opcode) :: _ => some (.compare opcode, 1)
  | .opcode (.convert opcode) :: _ => some (.convert opcode, 1)
  | .opcode .interpAlloca :: .u32 count :: _ => some (.interpAlloca count, 2)
  | .opcode .interpBrUnless :: .u32 offset :: _ => some (.interpBrUnless offset, 2)
  | .opcode .drop :: _ => some (.drop, 1)
  | .opcode .interpDropKeep :: .u32 dropCount :: .u32 keepCount :: _ =>
      some (.interpDropKeep dropCount keepCount, 3)
  | .opcode .nop :: _ => some (.nop, 1)
  | _ => none

/-- `WABT_TABLE_ENTRY_SIZE`, in cells. -/
def tableEntrySize : Nat := 3

/-- Entries of the environment that do not change while a thread runs. -/
structure Environment (Host : Type) where
  istream : List Cell
  sigs : List FuncSignature
  funcs : List (Func Host)
  tables : List (List (Option Nat))

namespace Environment

variable {Host : Type} (env : Environment Host)

/-- The instruction at an offset, and the offset behind it. -/
def decode (pc : Nat) : Option (Instr × Nat) :=
  (decodeCells (env.istream.drop pc)).map fun (instr, count) => (instr, pc + count)

/-- `read_table_entry_at`. -/
def readTableEntryAt (offset : Nat) : Option (BitVec 32 × BitVec 32 × BitVec 32) :=
  match env.istream.drop offset with
  | .u32 target :: .u32 dropCount :: .u32 keepCount :: _ => some (target, dropCount, keepCount)
  | _ => none

/-- `FuncSignaturesAreEqual`. -/
def funcSignaturesAreEqual (first second : Nat) : Option Bool :=
  if first = second then some true
  else do
    let sig <- env.sigs[first]?
    let other <- env.sigs[second]?
    some (decide (sig.paramTypes = other.paramTypes ∧ sig.resultTypes = other.resultTypes))

end Environment

end Interp
end WasmSandboxing
