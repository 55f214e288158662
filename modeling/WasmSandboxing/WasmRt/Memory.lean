import WasmSandboxing.CLang.Scalar
import WasmSandboxing.Foundation.Bytes
import WasmSandboxing.Foundation.Traced

namespace WasmSandboxing
namespace WasmRt

open Foundation CLang

/-!
# Linear memory and its accessors

`wasm_rt_memory_t` with the checked accessors that the template prepends to
every generated module and that the runtime repeats for its own imports.  An
accessor is traced: its accesses are recorded, and it either returns or stops
in a trap.
-/

/-- `wasm_rt_trap_t`. -/
inductive Trap where
  | none | oob | intOverflow | divByZero | invalidConversion | unreachable | callIndirect
  | exhaustion
  deriving DecidableEq, Repr

/-- Why sandboxed code stopped: `wasm_rt_trap`, `abort`, or behaviour that C
leaves undefined. -/
inductive Fault where
  | trap (code : Trap)
  | abort
  | undefined
  deriving DecidableEq, Repr

/-- `wasm_rt_memory_t`.  Nothing is allocated at or beyond `size`; the bytes
there are never meant to be reached. -/
structure Memory where
  data : Bytes
  pages : BitVec 32
  maxPages : BitVec 32
  size : BitVec 32

inductive AccessKind where
  | read | write
  deriving DecidableEq, Repr

/-- One access to `length` bytes of the memory from index `start`. -/
structure Access where
  kind : AccessKind
  start : Nat
  length : Nat
  deriving DecidableEq, Repr

/-- Every accessed byte is one of a memory of `size` bytes. -/
def Access.Inside (size : Nat) (access : Access) : Prop :=
  forall index, access.start ≤ index -> index < access.start + access.length -> index < size

theorem Access.inside_of_le {size : Nat} {access : Access}
    (fits : access.start + access.length ≤ size) : access.Inside size :=
  fun _index _above below => Nat.lt_of_lt_of_le below fits

/-- An access of at least one byte is inside exactly when it ends there. -/
theorem Access.inside_iff {size : Nat} {access : Access} (positive : 0 < access.length) :
    access.Inside size ↔ access.start + access.length ≤ size := by
  refine ⟨fun inside => ?_, inside_of_le⟩
  have last := inside (access.start + access.length - 1) (by omega) (by omega)
  omega

/-- Code of the runtime or of a generated module, on the sandbox's memory. -/
abbrev OnMemory (Result : Type) := Traced Memory Access Fault Result

def trap (code : Trap) : OnMemory Result := Traced.fail (.trap code)

/-- `MEMCHECK`: the sum is one of `u64` operands, and so is the comparison. -/
def memcheck (address : BitVec 64) (sizeof : Nat) : OnMemory Unit :=
  fun memory =>
    if address + BitVec.ofNat 64 sizeof > memory.size.setWidth 64 then trap .oob memory
    else (pure () : OnMemory Unit) memory

/-- The types an accessor's macro is applied to in the place of `t1`. -/
inductive Cell where
  | s8 | u8 | s16 | u16 | s32 | u32 | u64 | f32 | f64
  deriving DecidableEq, Repr

namespace Cell

def sizeof : Cell -> Nat
  | s8 | u8 => 1
  | s16 | u16 => 2
  | s32 | u32 | f32 => 4
  | u64 | f64 => 8

/-- The value of an object with the given little-endian representation, after
integer promotion. -/
def value (representation : Nat) : Cell -> CValue
  | s8 => .s32 ((BitVec.ofNat 8 representation).signExtend 32)
  | u8 => .s32 ((BitVec.ofNat 8 representation).setWidth 32)
  | s16 => .s32 ((BitVec.ofNat 16 representation).signExtend 32)
  | u16 => .s32 ((BitVec.ofNat 16 representation).setWidth 32)
  | s32 => .s32 (BitVec.ofNat 32 representation)
  | u32 => .u32 (BitVec.ofNat 32 representation)
  | u64 => .u64 (BitVec.ofNat 64 representation)
  | f32 => .f32 (BitVec.ofNat 32 representation)
  | f64 => .f64 (BitVec.ofNat 64 representation)

end Cell

/-- The bits of a value as an unsigned number. -/
def bits : CValue -> Nat
  | .s32 bits | .u32 bits | .f32 bits => bits.toNat
  | .s64 bits | .u64 bits | .f64 bits => bits.toNat

/-- A missing value is undefined behaviour. -/
def defined (result : Option Result) : OnMemory Result :=
  match result with
  | some value => pure value
  | none => Traced.fail .undefined

@[simp] theorem defined_some (value : Result) :
    defined (some value) = (pure value : OnMemory Result) := rfl

/-! ## Loads -/

/-- The functions that `DEFINE_LOAD` defines. -/
inductive LoadFunction where
  | i32Load | i64Load | f32Load | f64Load | i32Load8S | i64Load8S | i32Load8U | i64Load8U
  | i32Load16S | i64Load16S | i32Load16U | i64Load16U | i64Load32S | i64Load32U
  deriving DecidableEq, Repr

namespace LoadFunction

/-- The types `t1`, `t2` and `t3` that `DEFINE_LOAD` is applied to. -/
def types : LoadFunction -> Cell × CType × CType
  | i32Load => (.u32, .u32, .u32)
  | i64Load => (.u64, .u64, .u64)
  | f32Load => (.f32, .f32, .f32)
  | f64Load => (.f64, .f64, .f64)
  | i32Load8S => (.s8, .s32, .u32)
  | i64Load8S => (.s8, .s64, .u64)
  | i32Load8U => (.u8, .u32, .u32)
  | i64Load8U => (.u8, .u64, .u64)
  | i32Load16S => (.s16, .s32, .u32)
  | i64Load16S => (.s16, .s64, .u64)
  | i32Load16U => (.u16, .u32, .u32)
  | i64Load16U => (.u16, .u64, .u64)
  | i64Load32S => (.s32, .s64, .u64)
  | i64Load32U => (.u32, .u64, .u64)

def sizeof (function : LoadFunction) : Nat := function.types.1.sizeof

/-- The returned `(t3)(t2)result`. -/
def result (fpu : FloatUnit) (function : LoadFunction) (representation : Nat) : Option CValue :=
  let (t1, t2, t3) := function.types
  ((t1.value representation).convert fpu t2).bind fun value => value.convert fpu t3

/-- The conversions are between integer types or from a type to itself. -/
theorem result_isSome (fpu : FloatUnit) (function : LoadFunction) (representation : Nat) :
    (function.result fpu representation).isSome := by
  cases function <;> rfl

/-- The call `name(mem, addr)`. -/
def call (fpu : FloatUnit) (function : LoadFunction) (address : BitVec 64) : OnMemory CValue := do
  memcheck address function.sizeof
  Traced.access ⟨.read, address.toNat, function.sizeof⟩
  let representation <- Traced.inspect fun memory =>
    memory.data.read address.toNat function.sizeof
  defined (function.result fpu representation)

end LoadFunction

/-! ## Stores -/

/-- The functions that `DEFINE_STORE` defines. -/
inductive StoreFunction where
  | i32Store | i64Store | f32Store | f64Store | i32Store8 | i32Store16 | i64Store8 | i64Store16
  | i64Store32
  deriving DecidableEq, Repr

namespace StoreFunction

/-- The types `t1` and `t2` that `DEFINE_STORE` is applied to. -/
def types : StoreFunction -> Cell × CType
  | i32Store => (.u32, .u32)
  | i64Store => (.u64, .u64)
  | f32Store => (.f32, .f32)
  | f64Store => (.f64, .f64)
  | i32Store8 => (.u8, .u32)
  | i32Store16 => (.u16, .u32)
  | i64Store8 => (.u8, .u64)
  | i64Store16 => (.u16, .u64)
  | i64Store32 => (.u32, .u64)

def sizeof (function : StoreFunction) : Nat := function.types.1.sizeof

/-- The call `name(mem, addr, value)`.  The conversion `(t1)value` of an
integer keeps the low bytes, which are those that are written. -/
def call (fpu : FloatUnit) (function : StoreFunction) (address : BitVec 64) (value : CValue) :
    OnMemory Unit := do
  let value <- defined (value.convert fpu function.types.2)
  memcheck address function.sizeof
  Traced.access ⟨.write, address.toNat, function.sizeof⟩
  Traced.update fun memory =>
    { memory with data := memory.data.write address.toNat function.sizeof (bits value) }

end StoreFunction

/-! ## What an accessor can do -/

/-- An address that leaves room for the check's sum. -/
theorem memcheck_exact {address : BitVec 64} {sizeof : Nat} (memory : Memory)
    (room : address.toNat + sizeof < 2 ^ 64) :
    address + BitVec.ofNat 64 sizeof > memory.size.setWidth 64 ↔
      memory.size.toNat < address.toNat + sizeof := by
  have sizeBound : memory.size.toNat < 2 ^ 32 := memory.size.isLt
  rw [gt_iff_lt, BitVec.lt_def, BitVec.toNat_setWidth, BitVec.toNat_add, BitVec.toNat_ofNat]
  omega

theorem memcheck_pass {address : BitVec 64} {sizeof : Nat} {memory : Memory}
    (room : address.toNat + sizeof < 2 ^ 64)
    (fits : address.toNat + sizeof ≤ memory.size.toNat) :
    memcheck address sizeof memory = ⟨.value (), memory, []⟩ := by
  rw [memcheck, if_neg ((memcheck_exact memory room).not.mpr (by omega))]
  rfl

theorem memcheck_stop {address : BitVec 64} {sizeof : Nat} {memory : Memory}
    (room : address.toNat + sizeof < 2 ^ 64)
    (beyond : memory.size.toNat < address.toNat + sizeof) :
    memcheck address sizeof memory = ⟨.fault (.trap .oob), memory, []⟩ := by
  rw [memcheck, if_pos ((memcheck_exact memory room).mpr beyond)]
  rfl

/-- A load inside the memory reads its bytes and nothing else. -/
theorem LoadFunction.call_inside (fpu : FloatUnit) (function : LoadFunction)
    {address : BitVec 64} {memory : Memory}
    (room : address.toNat + function.sizeof < 2 ^ 64)
    (fits : address.toNat + function.sizeof ≤ memory.size.toNat) :
    ∃ value, function.result fpu (memory.data.read address.toNat function.sizeof) = some value ∧
      function.call fpu address memory =
        ⟨.value value, memory, [⟨.read, address.toNat, function.sizeof⟩]⟩ := by
  obtain ⟨value, result⟩ := Option.isSome_iff_exists.mp
    (function.result_isSome fpu (memory.data.read address.toNat function.sizeof))
  refine ⟨value, result, ?_⟩
  simp [LoadFunction.call, memcheck_pass room fits, result]

theorem LoadFunction.call_outside (fpu : FloatUnit) (function : LoadFunction)
    {address : BitVec 64} {memory : Memory}
    (room : address.toNat + function.sizeof < 2 ^ 64)
    (beyond : memory.size.toNat < address.toNat + function.sizeof) :
    function.call fpu address memory = ⟨.fault (.trap .oob), memory, []⟩ := by
  simp [LoadFunction.call, memcheck_stop room beyond]

/-- A store inside the memory writes its bytes and nothing else. -/
theorem StoreFunction.call_inside (fpu : FloatUnit) (function : StoreFunction)
    {address : BitVec 64} {value : CValue} {memory : Memory}
    (typed : value.type = function.types.2)
    (room : address.toNat + function.sizeof < 2 ^ 64)
    (fits : address.toNat + function.sizeof ≤ memory.size.toNat) :
    function.call fpu address value memory =
      ⟨.value (),
        { memory with data := memory.data.write address.toNat function.sizeof (bits value) },
        [⟨.write, address.toNat, function.sizeof⟩]⟩ := by
  simp [StoreFunction.call, ← typed, memcheck_pass room fits]

theorem StoreFunction.call_outside (fpu : FloatUnit) (function : StoreFunction)
    {address : BitVec 64} {value : CValue} {memory : Memory}
    (typed : value.type = function.types.2)
    (room : address.toNat + function.sizeof < 2 ^ 64)
    (beyond : memory.size.toNat < address.toNat + function.sizeof) :
    function.call fpu address value memory = ⟨.fault (.trap .oob), memory, []⟩ := by
  simp [StoreFunction.call, ← typed, memcheck_stop room beyond]

end WasmRt
end WasmSandboxing
