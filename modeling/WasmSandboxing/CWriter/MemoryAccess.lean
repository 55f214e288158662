import WasmSandboxing.CWriter.Statement
import WasmSandboxing.Interp.MemoryAccess

namespace WasmSandboxing
namespace CWriter

open Foundation CLang WasmRt Wasm

/-!
# Loads and stores

The statements emitted for a load or a store, their execution on the runtime's
memory, and the comparison with `Thread::GetAccessAddress` of the interpreter.

The address argument is `(u64)(base + offset)` where `base` is a `u32` variable
and the offset a decimal literal.  A literal below `2^31` is an `int`, so the
addition is one of `u32` operands and wraps before the cast widens it.  A larger
literal is a `long`, and the addition is exact.
-/

variable {S : Scheme}

/-- `Write(LoadExpr)`: the accessor called for a load. -/
def loadFunction : LoadOpcode -> LoadFunction
  | .i32Load => .i32Load
  | .i64Load => .i64Load
  | .f32Load => .f32Load
  | .f64Load => .f64Load
  | .i32Load8S => .i32Load8S
  | .i64Load8S => .i64Load8S
  | .i32Load8U => .i32Load8U
  | .i64Load8U => .i64Load8U
  | .i32Load16S => .i32Load16S
  | .i64Load16S => .i64Load16S
  | .i32Load16U => .i32Load16U
  -- The name written is that of the 32-bit accessor; the assignment widens.
  | .i64Load16U => .i32Load16U
  | .i64Load32S => .i64Load32S
  | .i64Load32U => .i64Load32U

/-- `Write(StoreExpr)`: the accessor called for a store. -/
def storeFunction : StoreOpcode -> StoreFunction
  | .i32Store => .i32Store
  | .i64Store => .i64Store
  | .f32Store => .f32Store
  | .f64Store => .f64Store
  | .i32Store8 => .i32Store8
  | .i32Store16 => .i32Store16
  | .i64Store8 => .i64Store8
  | .i64Store16 => .i64Store16
  | .i64Store32 => .i64Store32

/-- The second argument of an accessor; a zero offset is not written. -/
def address (base : CVar S) (offset : BitVec 32) : CExpr S :=
  .cast .u64
    (if offset = 0 then .var base
     else .binary .add (.var base) (.lit (.decimal offset.toNat)))

def writeLoad (opcode : LoadOpcode) (offset : BitVec 32) (state : WriterState S) :
    Option (Command S × WriterState S) := do
  let base <- state.operand 0
  let command := .load (state.stackVar 0 opcode.resultType) (loadFunction opcode)
    (address base offset)
  let state <- state.dropTypes 1
  some (command, state.pushType opcode.resultType)

def writeStore (opcode : StoreOpcode) (offset : BitVec 32) (state : WriterState S) :
    Option (Command S × WriterState S) := do
  let base <- state.operand 1
  let value <- state.operand 0
  let command := .store (storeFunction opcode) (address base offset) (.var value)
  let state <- state.dropTypes 2
  some (command, state)

theorem writeLoad_eq (opcode : LoadOpcode) (offset : BitVec 32) {state : WriterState S}
    {below : List ValueType} (typed : state.typeStack = .i32 :: below) :
    writeLoad opcode offset state =
      some (.load (.stack below.length opcode.resultType) (loadFunction opcode)
          (address (.stack below.length .i32) offset),
        { state with typeStack := opcode.resultType :: below }) := by
  simp [writeLoad, typed, WriterState.operand, WriterState.stackType, WriterState.stackVar,
    WriterState.dropTypes, WriterState.pushType]

theorem writeStore_eq (opcode : StoreOpcode) (offset : BitVec 32) {state : WriterState S}
    {type : ValueType} {below : List ValueType} (typed : state.typeStack = type :: .i32 :: below) :
    writeStore opcode offset state =
      some (.store (storeFunction opcode) (address (.stack below.length .i32) offset)
          (.var (.stack (below.length + 1) type)),
        { state with typeStack := below }) := by
  simp [writeStore, typed, WriterState.operand, WriterState.stackType, WriterState.stackVar,
    WriterState.dropTypes]

/-! ## Execution -/

/-- Evaluation inside sandboxed code: a trap ends it, undefined behaviour
excludes it. -/
def evaluated (result : Except (Stop Trap) CValue) : OnMemory CValue :=
  match result with
  | .ok value => pure value
  | .error (.trap code) => trap code
  | .error .undefined => Traced.fail .undefined

/-- Pass the argument of a `u64` parameter. -/
def addressArgument (fpu : FloatUnit) (value : CValue) : OnMemory (BitVec 64) :=
  match value.convert fpu .u64 with
  | some (.u64 bits) => pure bits
  | _ => Traced.fail .undefined

/-- Execute a load; the result is the value its variable is assigned. -/
def runLoad (fpu : FloatUnit) (declared : CVar S -> CType)
    (valuation : CVar S -> Option CValue) (target : CVar S) (function : LoadFunction)
    (address : CExpr S) : OnMemory CValue := do
  let address <- evaluated (address.eval fpu declared valuation)
  let address <- addressArgument fpu address
  let result <- function.call fpu address
  defined (result.convert fpu (declared target))

def runStore (fpu : FloatUnit) (declared : CVar S -> CType)
    (valuation : CVar S -> Option CValue) (function : StoreFunction)
    (address value : CExpr S) : OnMemory Unit := do
  let address <- evaluated (address.eval fpu declared valuation)
  let address <- addressArgument fpu address
  let value <- evaluated (value.eval fpu declared valuation)
  function.call fpu address value

/-- Execute an emitted load or store; only a load gives a value. -/
def runAccess (fpu : FloatUnit) (declared : CVar S -> CType)
    (valuation : CVar S -> Option CValue) : Command S -> OnMemory (Option CValue)
  | .load target function address => do
      let value <- runLoad fpu declared valuation target function address
      pure (some value)
  | .store function address value => do
      runStore fpu declared valuation function address value
      pure none
  | _ => Traced.fail .undefined

/-! ## The address that is accessed -/

/-- The address that the emitted expression has: the sum wraps at `2^32` when
the offset's literal is an `int`. -/
def emittedAddress (base offset : BitVec 32) : BitVec 64 :=
  if offset.toNat < 2 ^ 31 then (base + offset).setWidth 64
  else base.setWidth 64 + offset.setWidth 64

private theorem toInt_widen (bits : BitVec 32) : (bits.setWidth 64).toInt = bits.toNat := by
  have bound := bits.isLt
  have same : (bits.setWidth 64).toNat = bits.toNat := by
    rw [BitVec.toNat_setWidth]
    omega
  rw [BitVec.toInt_eq_toNat_of_lt (by omega), same]

private theorem add_u32_int (fpu : FloatUnit) (base offset : BitVec 32) :
    BinaryOp.add.run fpu (.u32 base) (.s32 offset) = some (.u32 (base + offset)) := by
  simp [BinaryOp.run, BinaryOp.isShift, CValue.type, CType.common, CType.rank,
    CValue.convert, CValue.ofInt, BinaryOp.apply, Arithmetic.apply, Arithmetic.add]

private theorem add_u32_long (fpu : FloatUnit) (base offset : BitVec 32) :
    BinaryOp.add.run fpu (.u32 base) (.s64 (offset.setWidth 64)) =
      some (.s64 (base.setWidth 64 + offset.setWidth 64)) := by
  have baseBound := base.isLt
  have offsetBound := offset.isLt
  have inRange : -2 ^ (64 - 1) ≤ (base.toNat : ℤ) + offset.toNat ∧
      (base.toNat : ℤ) + offset.toNat < 2 ^ (64 - 1) := by
    omega
  have widened : CValue.convert fpu .s64 (.u32 base) = some (.s64 (base.setWidth 64)) := by
    simp [CValue.convert, CValue.ofInt]
  have kept : CValue.convert fpu .s64 (.s64 (offset.setWidth 64)) =
      some (.s64 (offset.setWidth 64)) := CValue.convert_type fpu (.s64 (offset.setWidth 64))
  have common : CType.common .u32 .s64 = .s64 := rfl
  simp only [BinaryOp.run, BinaryOp.isShift, CValue.type, common, widened, kept, BinaryOp.apply,
    Arithmetic.apply, Arithmetic.add, Arithmetic.checked, toInt_widen, if_pos inRange,
    Bool.false_eq_true, if_false, Option.bind_some, Option.map_some, BitVec.ofInt_add,
    BitVec.ofInt_natCast, BitVec.ofNat_toNat]

/-- The emitted address expression never stops and has the address above. -/
theorem address_eval (fpu : FloatUnit) {declared : CVar S -> CType}
    {valuation : CVar S -> Option CValue} {name : CVar S} {base : BitVec 32}
    (holds : valuation name = some (.u32 base)) (offset : BitVec 32) :
    (address name offset).eval fpu declared valuation =
      .ok (.u64 (emittedAddress base offset)) := by
  by_cases zero : offset = 0
  · subst zero
    simp [address, Expr.eval, holds, emittedAddress, CValue.convert, CValue.ofInt]
  rw [address, if_neg zero, emittedAddress]
  by_cases small : offset.toNat < 2 ^ 31
  · rw [if_pos small, CValue.decimal, if_pos small, BitVec.ofNat_toNat, BitVec.setWidth_eq]
    simp [Expr.eval, holds, add_u32_int, CValue.convert, CValue.ofInt]
  · rw [if_neg small, CValue.decimal, if_neg small, BitVec.ofNat_toNat]
    simp [Expr.eval, holds, add_u32_long, CValue.convert, CValue.ofInt]

/-- The emitted address as a number: exact, or reduced by `2^32`. -/
theorem emittedAddress_toNat (base offset : BitVec 32) :
    (emittedAddress base offset).toNat =
      if offset.toNat < 2 ^ 31 ∧ 2 ^ 32 ≤ base.toNat + offset.toNat then
        base.toNat + offset.toNat - 2 ^ 32
      else base.toNat + offset.toNat := by
  have baseBound := base.isLt
  have offsetBound := offset.isLt
  unfold emittedAddress
  by_cases small : offset.toNat < 2 ^ 31
  · rw [if_pos small, BitVec.toNat_setWidth, BitVec.toNat_add]
    by_cases wraps : 2 ^ 32 ≤ base.toNat + offset.toNat
    · rw [if_pos ⟨small, wraps⟩]
      omega
    · rw [if_neg (fun both => wraps both.2)]
      omega
  · rw [if_neg small, if_neg (fun both => small both.1), BitVec.toNat_add,
      BitVec.toNat_setWidth, BitVec.toNat_setWidth]
    omega

/-! ## Exactness of an access -/

/-- A load or a store. -/
inductive AccessInstr where
  | load (opcode : LoadOpcode)
  | store (opcode : StoreOpcode)
  deriving DecidableEq, Repr

namespace AccessInstr

def memorySize : AccessInstr -> Nat
  | load opcode => opcode.memorySize
  | store opcode => opcode.memorySize

def kind : AccessInstr -> AccessKind
  | load _ => .read
  | store _ => .write

/-- The types of the operands, top first. -/
def operandTypes : AccessInstr -> List ValueType
  | load _ => [.i32]
  | store opcode => [opcode.paramType2, .i32]

def write (instr : AccessInstr) (offset : BitVec 32) (state : WriterState S) :
    Option (Command S × WriterState S) :=
  match instr with
  | load opcode => writeLoad opcode offset state
  | store opcode => writeStore opcode offset state

/-- The stack variables above `below` hold the base address and, for a store, a
value of the stored type. -/
def OperandsHold (instr : AccessInstr) (below : List ValueType)
    (valuation : CVar S -> Option CValue) (base : BitVec 32) : Prop :=
  valuation (.stack below.length .i32) = some (.u32 base) ∧
    match instr with
    | load _ => True
    | store opcode => ∃ value,
        valuation (.stack (below.length + 1) opcode.paramType2) = some value ∧
          value.type = cType opcode.paramType2

theorem memorySize_pos (instr : AccessInstr) : 0 < instr.memorySize := by
  rcases instr with opcode | opcode <;> cases opcode <;> decide

theorem memorySize_le (instr : AccessInstr) : instr.memorySize ≤ 8 := by
  rcases instr with opcode | opcode <;> cases opcode <;> decide

end AccessInstr

/-- The accessor of an opcode is of the opcode's width. -/
theorem loadFunction_sizeof (opcode : LoadOpcode) :
    (loadFunction opcode).sizeof = opcode.memorySize := by
  cases opcode <;> rfl

theorem storeFunction_sizeof (opcode : StoreOpcode) :
    (storeFunction opcode).sizeof = opcode.memorySize := by
  cases opcode <;> rfl

theorem storeFunction_type (opcode : StoreOpcode) :
    (storeFunction opcode).types.2 = cType opcode.paramType2 := by
  cases opcode <;> rfl

/-- The value a load returns converts to the type of its variable. -/
theorem loadFunction_converts (fpu : FloatUnit) (opcode : LoadOpcode) {representation : Nat}
    {value : CValue} (result : (loadFunction opcode).result fpu representation = some value) :
    ∃ stored, value.convert fpu (cType opcode.resultType) = some stored := by
  cases opcode <;> cases result <;> exact ⟨_, rfl⟩

/-- A run that accesses `sizeof` bytes at `start` if they are allocated and
otherwise traps without any effect. -/
structure AccessAt {Result : Type u} (kind : AccessKind) (start sizeof : Nat) (memory : WasmRt.Memory)
    (run : Execution WasmRt.Memory Access Fault Result) : Prop where
  inside : start + sizeof ≤ memory.size.toNat ->
    run.accesses = [⟨kind, start, sizeof⟩] ∧ (∃ result, run.outcome = .value result) ∧
      forall index, index < start ∨ start + sizeof ≤ index ->
        run.state.data index = memory.data index
  outside : memory.size.toNat < start + sizeof -> run = ⟨.fault (.trap .oob), memory, []⟩

theorem addressArgument_u64 (fpu : FloatUnit) (bits : BitVec 64) :
    addressArgument fpu (.u64 bits) = (pure bits : OnMemory (BitVec 64)) := by
  simp [addressArgument, CValue.convert, CValue.ofInt]

private theorem emittedAddress_room (base offset : BitVec 32) (instr : AccessInstr) :
    (emittedAddress base offset).toNat + instr.memorySize < 2 ^ 64 := by
  have baseBound := base.isLt
  have offsetBound := offset.isLt
  have small := instr.memorySize_le
  rw [emittedAddress_toNat]
  split <;> omega

variable {locals : S.Local -> ValueType} {globals : S.Global -> ValueType}
  {valuation : CVar S -> Option CValue} {name : CVar S} {base : BitVec 32}

theorem runLoad_accessAt (fpu : FloatUnit) (holds : valuation name = some (.u32 base))
    (offset : BitVec 32) (opcode : LoadOpcode) (index : Nat) (memory : WasmRt.Memory) :
    AccessAt .read (emittedAddress base offset).toNat opcode.memorySize memory
      (runAccess fpu (CVar.type locals globals) valuation
        (.load (.stack index opcode.resultType) (loadFunction opcode) (address name offset))
        memory) := by
  have room := emittedAddress_room base offset (.load opcode)
  have address : (address name offset).eval fpu (CVar.type locals globals) valuation = _ :=
    address_eval fpu holds offset
  rw [AccessInstr.memorySize, ← loadFunction_sizeof] at room
  rw [← loadFunction_sizeof]
  constructor
  · intro fits
    rcases LoadFunction.call_inside fpu (loadFunction opcode) room fits with ⟨value, result, called⟩
    rcases loadFunction_converts fpu opcode result with ⟨stored, converts⟩
    simp [runAccess, runLoad, address, evaluated, addressArgument_u64, called, CVar.type, converts]
  · intro beyond
    simp [runAccess, runLoad, address, evaluated, addressArgument_u64,
      LoadFunction.call_outside fpu (loadFunction opcode) room beyond]

theorem runStore_accessAt (fpu : FloatUnit) (holds : valuation name = some (.u32 base))
    (offset : BitVec 32) (opcode : StoreOpcode) {source : CVar S} {value : CValue}
    (stored : valuation source = some value) (typed : value.type = cType opcode.paramType2)
    (memory : WasmRt.Memory) :
    AccessAt .write (emittedAddress base offset).toNat opcode.memorySize memory
      (runAccess fpu (CVar.type locals globals) valuation
        (.store (storeFunction opcode) (address name offset) (.var source)) memory) := by
  have room := emittedAddress_room base offset (.store opcode)
  have address : (address name offset).eval fpu (CVar.type locals globals) valuation = _ :=
    address_eval fpu holds offset
  have parameter : value.type = (storeFunction opcode).types.2 :=
    typed.trans (storeFunction_type opcode).symm
  rw [AccessInstr.memorySize, ← storeFunction_sizeof] at room
  rw [← storeFunction_sizeof]
  constructor
  · intro fits
    have called := StoreFunction.call_inside fpu (storeFunction opcode) parameter room fits
    simp only [runAccess, runStore, address, Expr.eval, stored, Expr.defined_some, evaluated,
      addressArgument_u64, Traced.bind_apply, Traced.pure_apply, Traced.andThen_value, called,
      List.nil_append, List.append_nil]
    refine ⟨trivial, ⟨_, rfl⟩, fun index outside => ?_⟩
    exact Bytes.replace_outside _ _ _ _ index outside
  · intro beyond
    simp [runAccess, runStore, address, Expr.eval, stored, evaluated, addressArgument_u64,
      StoreFunction.call_outside fpu (storeFunction opcode) parameter room beyond]

/-- A linear memory of `byteLength` bytes.  Its `size` is a `uint32_t`, which
cannot hold the length of a memory of 65536 pages. -/
structure LinearMemory extends WasmRt.Memory where
  byteLength : Nat
  atMost : byteLength ≤ 2 ^ 32
  size_eq : size.toNat = byteLength % 2 ^ 32

/-- The access of `sizeof` bytes at the exact sum of base and offset: those
bytes and no others when they lie in the memory, a trap without any effect
otherwise, and in both cases what the interpreter does. -/
structure ExactAccess {Result : Type u} (kind : AccessKind) (base offset : BitVec 32) (sizeof : Nat)
    (memory : LinearMemory) (run : Execution WasmRt.Memory Access Fault Result) : Prop where
  inside : base.toNat + offset.toNat + sizeof ≤ memory.byteLength ->
    run.accesses = [⟨kind, base.toNat + offset.toNat, sizeof⟩] ∧
      (∃ result, run.outcome = .value result) ∧
      forall index, index < base.toNat + offset.toNat ∨
          base.toNat + offset.toNat + sizeof ≤ index ->
        run.state.data index = memory.data index
  outside : memory.byteLength < base.toNat + offset.toNat + sizeof ->
    run = ⟨.fault (.trap .oob), memory.toMemory, []⟩
  interpreter :
    match Interp.getAccessAddress (BitVec.ofNat 64 memory.byteLength) base offset sizeof with
    | some address => run.accesses = [⟨kind, address.toNat, sizeof⟩]
    | none => run = ⟨.fault (.trap .oob), memory.toMemory, []⟩

/-- When the emitted sum and the `size` field decide an access as the exact sum
and the exact length do.  In a memory below 4 GiB the sum must not wrap, or
must still be out of bounds after wrapping; a memory of 4 GiB has size zero, so
there the access must be out of bounds to begin with. -/
def AddressExact (base offset : BitVec 32) (sizeof : Nat) (memory : LinearMemory) : Prop :=
  (memory.byteLength < 2 ^ 32 ∧
      (2 ^ 31 ≤ offset.toNat ∨ base.toNat + offset.toNat < 2 ^ 32 ∨
        memory.byteLength < base.toNat + offset.toNat - 2 ^ 32 + sizeof)) ∨
    (memory.byteLength = 2 ^ 32 ∧ 2 ^ 32 < base.toNat + offset.toNat + sizeof)

private theorem sum_toNat (base offset : BitVec 32) :
    (base.setWidth 64 + offset.setWidth 64).toNat = base.toNat + offset.toNat := by
  have baseBound := base.isLt
  have offsetBound := offset.isLt
  rw [BitVec.toNat_add, BitVec.toNat_setWidth, BitVec.toNat_setWidth]
  omega

variable {Result : Type u} {kind : AccessKind} {sizeof : Nat} {offset : BitVec 32}
  {memory : LinearMemory} {run : Execution WasmRt.Memory Access Fault Result}

/-- A trap without effect is exact when the access is out of bounds. -/
theorem ExactAccess.of_trap (small : sizeof ≤ 8)
    (beyond : memory.byteLength < base.toNat + offset.toNat + sizeof)
    (traps : run = ⟨.fault (.trap .oob), memory.toMemory, []⟩) :
    ExactAccess kind base offset sizeof memory run := by
  refine ⟨fun fits => ?_, fun _over => traps, ?_⟩
  · omega
  · rw [Interp.getAccessAddress_outside memory.atMost small beyond]
    exact traps

/-- An access at the exact sum is exact when the size field is the length. -/
theorem ExactAccess.of_sum (small : sizeof ≤ 8)
    (size : memory.size.toNat = memory.byteLength)
    (performs : AccessAt kind (base.toNat + offset.toNat) sizeof memory.toMemory run) :
    ExactAccess kind base offset sizeof memory run := by
  rcases Nat.lt_or_ge memory.byteLength (base.toNat + offset.toNat + sizeof) with beyond | fits
  · exact .of_trap small beyond (performs.outside (size ▸ beyond))
  · have accessed := performs.inside (size ▸ fits)
    refine ⟨fun _fits => accessed, fun beyond => ?_, ?_⟩
    · omega
    · rw [Interp.getAccessAddress_inside memory.atMost small fits]
      change run.accesses = _
      rw [sum_toNat]
      exact accessed.1

theorem exactAccess_iff (positive : 0 < sizeof) (small : sizeof ≤ 8)
    (performs : AccessAt kind (emittedAddress base offset).toNat sizeof memory.toMemory run) :
    ExactAccess kind base offset sizeof memory run ↔ AddressExact base offset sizeof memory := by
  have size := memory.size_eq
  rcases Nat.lt_or_ge memory.byteLength (2 ^ 32) with below | full
  · rw [Nat.mod_eq_of_lt below] at size
    have sum := emittedAddress_toNat base offset
    by_cases wraps : offset.toNat < 2 ^ 31 ∧ 2 ^ 32 ≤ base.toNat + offset.toNat
    · rw [if_pos wraps] at sum
      rw [sum] at performs
      constructor
      · intro exact
        refine Or.inl ⟨below, Or.inr (Or.inr (Nat.lt_of_not_le fun fits => ?_))⟩
        -- The wrapped address is inside, where the claim asks for a trap.
        have touched := (performs.inside (by omega)).1
        rw [exact.outside (by omega)] at touched
        cases touched
      · rintro (⟨_below, exactly⟩ | ⟨full, _over⟩)
        · have beyond : memory.size.toNat < base.toNat + offset.toNat - 2 ^ 32 + sizeof := by omega
          exact .of_trap small (by omega) (performs.outside beyond)
        · omega
    · rw [if_neg wraps] at sum
      rw [sum] at performs
      exact ⟨fun _exact => Or.inl ⟨below, by omega⟩, fun _holds => .of_sum small size performs⟩
  · have length : memory.byteLength = 2 ^ 32 := Nat.le_antisymm memory.atMost full
    rw [length, Nat.mod_self] at size
    have traps := performs.outside (by omega)
    constructor
    · intro exact
      refine Or.inr ⟨length, Nat.lt_of_not_le fun fits => ?_⟩
      have touched := (exact.inside (by omega)).1
      rw [traps] at touched
      cases touched
    · rintro (⟨below, _⟩ | ⟨_full, beyond⟩)
      · omega
      · exact .of_trap small (by omega) traps

/-- The emitted access is exact precisely when its address is. -/
theorem emitted_access_exact_iff (fpu : FloatUnit) (instr : AccessInstr) (offset : BitVec 32)
    (memory : LinearMemory) (state : WriterState S) (below : List ValueType)
    (typed : state.typeStack = instr.operandTypes ++ below)
    (operands : instr.OperandsHold below valuation base) :
    ∃ command after, instr.write offset state = some (command, after) ∧
      (ExactAccess instr.kind base offset instr.memorySize memory
          (runAccess fpu (CVar.type locals globals) valuation command memory.toMemory) ↔
        AddressExact base offset instr.memorySize memory) := by
  have positive := instr.memorySize_pos
  have small := instr.memorySize_le
  rcases operands with ⟨baseHolds, valueHolds⟩
  cases instr with
  | load opcode =>
      exact ⟨_, _, writeLoad_eq opcode offset typed, exactAccess_iff positive small
        (runLoad_accessAt fpu baseHolds offset opcode below.length memory.toMemory)⟩
  | store opcode =>
      rcases valueHolds with ⟨value, stored, valueTyped⟩
      exact ⟨_, _, writeStore_eq opcode offset typed, exactAccess_iff positive small
        (runStore_accessAt fpu baseHolds offset opcode stored valueTyped memory.toMemory)⟩

/-- One zeroed page. -/
def onePage : LinearMemory where
  data _ := 0
  pages := 1
  maxPages := 1
  size := 65536
  byteLength := 65536
  atMost := by decide
  size_eq := by decide

/-- The base variable of the accesses below holds the given address. -/
def baseValuation (base : BitVec 32) : CVar Scheme.binary -> Option CValue :=
  fun _ => some (.u32 base)

theorem emitted_access_exact_iff_store :
    ∃ command after,
      (AccessInstr.store .i32Store8).write 7
          (⟨[.i32, .i32], []⟩ : WriterState Scheme.binary) = some (command, after) ∧
        (ExactAccess .write 65528 7 1 onePage
            (runAccess default (CVar.type (fun _ => .i32) (fun _ => .i32)) (baseValuation 65528)
              command onePage.toMemory) ↔
          AddressExact 65528 7 1 onePage) :=
  emitted_access_exact_iff default (.store .i32Store8) 7 onePage ⟨[.i32, .i32], []⟩ [] rfl
    ⟨rfl, _, rfl, rfl⟩

/-- A load of one byte at base `0xFFFFFFFF` with offset 1 reads byte 0 of the
memory, where the interpreter traps. -/
theorem wrapped_load_reads_inside :
    ∃ command after,
      (AccessInstr.load .i32Load8U).write 1
          (⟨[.i32], []⟩ : WriterState Scheme.binary) = some (command, after) ∧
        (runAccess default (CVar.type (fun _ => .i32) (fun _ => .i32)) (baseValuation 0xFFFFFFFF)
            command onePage.toMemory).accesses = [⟨.read, 0, 1⟩] ∧
        Interp.getAccessAddress (BitVec.ofNat 64 onePage.byteLength) 0xFFFFFFFF 1 1 = none ∧
        ¬ ExactAccess .read 0xFFFFFFFF 1 1 onePage
          (runAccess default (CVar.type (fun _ => .i32) (fun _ => .i32))
            (baseValuation 0xFFFFFFFF) command onePage.toMemory) := by
  have performs : AccessAt .read (emittedAddress 0xFFFFFFFF 1).toNat 1 onePage.toMemory
      (runAccess default (CVar.type (fun _ => .i32) (fun _ => .i32)) (baseValuation 0xFFFFFFFF)
        (.load (.stack 0 .i32) .i32Load8U (address (.stack 0 .i32) 1)) onePage.toMemory) :=
    runLoad_accessAt default rfl 1 .i32Load8U 0 onePage.toMemory
  refine ⟨_, _, writeLoad_eq .i32Load8U 1 rfl, (performs.inside (by decide)).1, by decide,
    fun exact => ?_⟩
  have kept := (exactAccess_iff (by decide) (by decide) performs).mp exact
  revert kept
  unfold AddressExact
  decide

end CWriter
end WasmSandboxing
