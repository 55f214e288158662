import WasmSandboxing.Binary.Leb128
import WasmSandboxing.Foundation.LowerBound
import Mathlib.Data.List.Chain

namespace WasmSandboxing
namespace Binary

open Foundation

/-!
# The opcode table

`Opcode` of `opcode.cc` and the bytes of `ReadOpcode` and `WriteOpcode`.  An
opcode is a word: the position in the table, or a prefix and a code negated.
A failed assertion is `none`; `asserts` is false in a build without them.
-/

namespace Opcode

/-! ## The table -/

structure Info where
  name : String
  prefix_ : BitVec 8
  code : BitVec 32

/-- The rows of `opcode.def` whose codes follow one another. -/
def run (prefix_ : BitVec 8) (code : BitVec 32) : List String -> List Info
  | [] => []
  | name :: rest => ⟨name, prefix_, code⟩ :: run prefix_ (code + 1) rest

def infos : List Info :=
  run 0 0x00 [
    "unreachable", "nop", "block", "loop", "if", "else", "try", "catch", "throw", "rethrow",
    "if_except", "end", "br", "br_if", "br_table", "return", "call", "call_indirect"] ++
  run 0 0x1a [
    "drop", "select"] ++
  run 0 0x20 [
    "get_local", "set_local", "tee_local", "get_global", "set_global"] ++
  run 0 0x28 [
    "i32.load", "i64.load", "f32.load", "f64.load", "i32.load8_s", "i32.load8_u", "i32.load16_s",
    "i32.load16_u", "i64.load8_s", "i64.load8_u", "i64.load16_s", "i64.load16_u", "i64.load32_s",
    "i64.load32_u", "i32.store", "i64.store", "f32.store", "f64.store", "i32.store8",
    "i32.store16", "i64.store8", "i64.store16", "i64.store32", "memory.size", "memory.grow",
    "i32.const", "i64.const", "f32.const", "f64.const", "i32.eqz", "i32.eq", "i32.ne", "i32.lt_s",
    "i32.lt_u", "i32.gt_s", "i32.gt_u", "i32.le_s", "i32.le_u", "i32.ge_s", "i32.ge_u", "i64.eqz",
    "i64.eq", "i64.ne", "i64.lt_s", "i64.lt_u", "i64.gt_s", "i64.gt_u", "i64.le_s", "i64.le_u",
    "i64.ge_s", "i64.ge_u", "f32.eq", "f32.ne", "f32.lt", "f32.gt", "f32.le", "f32.ge", "f64.eq",
    "f64.ne", "f64.lt", "f64.gt", "f64.le", "f64.ge", "i32.clz", "i32.ctz", "i32.popcnt",
    "i32.add", "i32.sub", "i32.mul", "i32.div_s", "i32.div_u", "i32.rem_s", "i32.rem_u",
    "i32.and", "i32.or", "i32.xor", "i32.shl", "i32.shr_s", "i32.shr_u", "i32.rotl", "i32.rotr",
    "i64.clz", "i64.ctz", "i64.popcnt", "i64.add", "i64.sub", "i64.mul", "i64.div_s", "i64.div_u",
    "i64.rem_s", "i64.rem_u", "i64.and", "i64.or", "i64.xor", "i64.shl", "i64.shr_s", "i64.shr_u",
    "i64.rotl", "i64.rotr", "f32.abs", "f32.neg", "f32.ceil", "f32.floor", "f32.trunc",
    "f32.nearest", "f32.sqrt", "f32.add", "f32.sub", "f32.mul", "f32.div", "f32.min", "f32.max",
    "f32.copysign", "f64.abs", "f64.neg", "f64.ceil", "f64.floor", "f64.trunc", "f64.nearest",
    "f64.sqrt", "f64.add", "f64.sub", "f64.mul", "f64.div", "f64.min", "f64.max", "f64.copysign",
    "i32.wrap/i64", "i32.trunc_s/f32", "i32.trunc_u/f32", "i32.trunc_s/f64", "i32.trunc_u/f64",
    "i64.extend_s/i32", "i64.extend_u/i32", "i64.trunc_s/f32", "i64.trunc_u/f32",
    "i64.trunc_s/f64", "i64.trunc_u/f64", "f32.convert_s/i32", "f32.convert_u/i32",
    "f32.convert_s/i64", "f32.convert_u/i64", "f32.demote/f64", "f64.convert_s/i32",
    "f64.convert_u/i32", "f64.convert_s/i64", "f64.convert_u/i64", "f64.promote/f32",
    "i32.reinterpret/f32", "i64.reinterpret/f64", "f32.reinterpret/i32", "f64.reinterpret/i64",
    "i32.extend8_s", "i32.extend16_s", "i64.extend8_s", "i64.extend16_s", "i64.extend32_s"] ++
  run 0 0xe0 [
    "alloca", "br_unless", "call_host", "data", "drop_keep"] ++
  run 0xfc 0x00 [
    "i32.trunc_s:sat/f32", "i32.trunc_u:sat/f32", "i32.trunc_s:sat/f64", "i32.trunc_u:sat/f64",
    "i64.trunc_s:sat/f32", "i64.trunc_u:sat/f32", "i64.trunc_s:sat/f64", "i64.trunc_u:sat/f64"] ++
  run 0xfd 0x00 [
    "v128.const", "v128.load", "v128.store", "i8x16.splat", "i16x8.splat", "i32x4.splat",
    "i64x2.splat", "f32x4.splat", "f64x2.splat", "i8x16.extract_lane_s", "i8x16.extract_lane_u",
    "i16x8.extract_lane_s", "i16x8.extract_lane_u", "i32x4.extract_lane", "i64x2.extract_lane",
    "f32x4.extract_lane", "f64x2.extract_lane", "i8x16.replace_lane", "i16x8.replace_lane",
    "i32x4.replace_lane", "i64x2.replace_lane", "f32x4.replace_lane", "f64x2.replace_lane",
    "v8x16.shuffle", "i8x16.add", "i16x8.add", "i32x4.add", "i64x2.add", "i8x16.sub", "i16x8.sub",
    "i32x4.sub", "i64x2.sub", "i8x16.mul", "i16x8.mul", "i32x4.mul", "i8x16.neg", "i16x8.neg",
    "i32x4.neg", "i64x2.neg", "i8x16.add_saturate_s", "i8x16.add_saturate_u",
    "i16x8.add_saturate_s", "i16x8.add_saturate_u", "i8x16.sub_saturate_s",
    "i8x16.sub_saturate_u", "i16x8.sub_saturate_s", "i16x8.sub_saturate_u", "i8x16.shl",
    "i16x8.shl", "i32x4.shl", "i64x2.shl", "i8x16.shr_s", "i8x16.shr_u", "i16x8.shr_s",
    "i16x8.shr_u", "i32x4.shr_s", "i32x4.shr_u", "i64x2.shr_s", "i64x2.shr_u", "v128.and",
    "v128.or", "v128.xor", "v128.not", "v128.bitselect", "i8x16.any_true", "i16x8.any_true",
    "i32x4.any_true", "i64x2.any_true", "i8x16.all_true", "i16x8.all_true", "i32x4.all_true",
    "i64x2.all_true", "i8x16.eq", "i16x8.eq", "i32x4.eq", "f32x4.eq", "f64x2.eq", "i8x16.ne",
    "i16x8.ne", "i32x4.ne", "f32x4.ne", "f64x2.ne", "i8x16.lt_s", "i8x16.lt_u", "i16x8.lt_s",
    "i16x8.lt_u", "i32x4.lt_s", "i32x4.lt_u", "f32x4.lt", "f64x2.lt", "i8x16.le_s", "i8x16.le_u",
    "i16x8.le_s", "i16x8.le_u", "i32x4.le_s", "i32x4.le_u", "f32x4.le", "f64x2.le", "i8x16.gt_s",
    "i8x16.gt_u", "i16x8.gt_s", "i16x8.gt_u", "i32x4.gt_s", "i32x4.gt_u", "f32x4.gt", "f64x2.gt",
    "i8x16.ge_s", "i8x16.ge_u", "i16x8.ge_s", "i16x8.ge_u", "i32x4.ge_s", "i32x4.ge_u",
    "f32x4.ge", "f64x2.ge", "f32x4.neg", "f64x2.neg", "f32x4.abs", "f64x2.abs", "f32x4.min",
    "f64x2.min", "f32x4.max", "f64x2.max", "f32x4.add", "f64x2.add", "f32x4.sub", "f64x2.sub",
    "f32x4.div", "f64x2.div", "f32x4.mul", "f64x2.mul", "f32x4.sqrt", "f64x2.sqrt",
    "f32x4.convert_s/i32x4", "f32x4.convert_u/i32x4", "f64x2.convert_s/i64x2",
    "f64x2.convert_u/i64x2", "i32x4.trunc_s/f32x4:sat", "i32x4.trunc_u/f32x4:sat",
    "i64x2.trunc_s/f64x2:sat", "i64x2.trunc_u/f64x2:sat"] ++
  run 0xfe 0x00 [
    "atomic.wake", "i32.atomic.wait", "i64.atomic.wait"] ++
  run 0xfe 0x10 [
    "i32.atomic.load", "i64.atomic.load", "i32.atomic.load8_u", "i32.atomic.load16_u",
    "i64.atomic.load8_u", "i64.atomic.load16_u", "i64.atomic.load32_u", "i32.atomic.store",
    "i64.atomic.store", "i32.atomic.store8", "i32.atomic.store16", "i64.atomic.store8",
    "i64.atomic.store16", "i64.atomic.store32", "i32.atomic.rmw.add", "i64.atomic.rmw.add",
    "i32.atomic.rmw8_u.add", "i32.atomic.rmw16_u.add", "i64.atomic.rmw8_u.add",
    "i64.atomic.rmw16_u.add", "i64.atomic.rmw32_u.add", "i32.atomic.rmw.sub",
    "i64.atomic.rmw.sub", "i32.atomic.rmw8_u.sub", "i32.atomic.rmw16_u.sub",
    "i64.atomic.rmw8_u.sub", "i64.atomic.rmw16_u.sub", "i64.atomic.rmw32_u.sub",
    "i32.atomic.rmw.and", "i64.atomic.rmw.and", "i32.atomic.rmw8_u.and", "i32.atomic.rmw16_u.and",
    "i64.atomic.rmw8_u.and", "i64.atomic.rmw16_u.and", "i64.atomic.rmw32_u.and",
    "i32.atomic.rmw.or", "i64.atomic.rmw.or", "i32.atomic.rmw8_u.or", "i32.atomic.rmw16_u.or",
    "i64.atomic.rmw8_u.or", "i64.atomic.rmw16_u.or", "i64.atomic.rmw32_u.or",
    "i32.atomic.rmw.xor", "i64.atomic.rmw.xor", "i32.atomic.rmw8_u.xor", "i32.atomic.rmw16_u.xor",
    "i64.atomic.rmw8_u.xor", "i64.atomic.rmw16_u.xor", "i64.atomic.rmw32_u.xor",
    "i32.atomic.rmw.xchg", "i64.atomic.rmw.xchg", "i32.atomic.rmw8_u.xchg",
    "i32.atomic.rmw16_u.xchg", "i64.atomic.rmw8_u.xchg", "i64.atomic.rmw16_u.xchg",
    "i64.atomic.rmw32_u.xchg", "i32.atomic.rmw.cmpxchg", "i64.atomic.rmw.cmpxchg",
    "i32.atomic.rmw8_u.cmpxchg", "i32.atomic.rmw16_u.cmpxchg", "i64.atomic.rmw8_u.cmpxchg",
    "i64.atomic.rmw16_u.cmpxchg", "i64.atomic.rmw32_u.cmpxchg"]

/-- `(prefix << 8) | code` -/
def packed (prefix_ : BitVec 8) (code : BitVec 32) : BitVec 32 :=
  (prefix_.setWidth 32 <<< 8) ||| code

def prefixCode (asserts : Bool) (prefix_ : BitVec 8) (code : BitVec 32) : Option (BitVec 32) :=
  -- For now, 8 bits is enough for all codes.
  if asserts && !code.ult 0x100 then none else some (packed prefix_ code)

/-- The `prefix_code` of a row. -/
def prefixCodeAt (index : Nat) : BitVec 32 :=
  infos[index]?.elim 0 fun info => packed info.prefix_ info.code

/-- `Opcode::Invalid` -/
def invalid : Nat := infos.length

def encodeInvalidOpcode (asserts : Bool) (prefixCode : BitVec 32) : Option (BitVec 32) :=
  let result := ~~~prefixCode + 1
  if asserts && decide (result.toNat < invalid) then none else some result

def decodeInvalidOpcode (opcode : BitVec 32) : BitVec 8 × BitVec 32 :=
  let prefixCode := ~~~opcode + 1
  ((prefixCode >>> 8).setWidth 8, prefixCode &&& 0xff)

def fromCode (asserts : Bool) (prefix_ : BitVec 8) (code : BitVec 32) : Option (BitVec 32) := do
  let prefixCode <- prefixCode asserts prefix_ code
  let iter := lowerBound (fun index => decide (prefixCodeAt index < prefixCode)) 0 infos.length
  if iter = infos.length ∨ prefixCodeAt iter ≠ prefixCode then
    encodeInvalidOpcode asserts prefixCode
  else
    some (BitVec.ofNat 32 iter)

def isInvalid (opcode : BitVec 32) : Bool :=
  decide (invalid ≤ opcode.toNat)

def getInfo (opcode : BitVec 32) : Info :=
  infos.getD opcode.toNat
    ⟨"<invalid>", (decodeInvalidOpcode opcode).1, (decodeInvalidOpcode opcode).2⟩

def isPrefixByte (byte : BitVec 8) : Bool :=
  byte == 0xfc || byte == 0xfe || byte == 0xfd

/-! ## The bytes -/

/-- The bytes read and the opcode; `some none` is a result of `Result::Error`. -/
def readOpcode (asserts : Bool) : List (BitVec 8) -> Option (Option (Nat × BitVec 32))
  | [] => some none
  | value :: rest =>
      if isPrefixByte value then do
        let some (length, code) <- Leb128.readU32Leb128 rest | some none
        let opcode <- fromCode asserts value code
        some (some (length + 1, opcode))
      else do
        let opcode <- fromCode asserts 0 (value.setWidth 32)
        some (some (1, opcode))

def writeOpcode (opcode : BitVec 32) : Option (List (BitVec 8)) :=
  if (getInfo opcode).prefix_ != 0 then do
    let code <- Leb128.writeU32Leb128 (getInfo opcode).code
    some ((getInfo opcode).prefix_ :: code)
  else
    some [(getInfo opcode).code.setWidth 8]

/-! ## What the table is -/

theorem infos_length : infos.length = 401 := by decide +kernel

/-- What a row of the table keeps. -/
structure Row (info : Info) : Prop where
  fits : info.code < 0x100
  single : info.prefix_ = 0 -> isPrefixByte (info.code.setWidth 8) = false
  prefixed : info.prefix_ ≠ 0 -> isPrefixByte info.prefix_ = true

instance (info : Info) : Decidable (Row info) :=
  decidable_of_iff (info.code < 0x100 ∧
      (info.prefix_ = 0 -> isPrefixByte (info.code.setWidth 8) = false) ∧
      (info.prefix_ ≠ 0 -> isPrefixByte info.prefix_ = true))
    ⟨fun row => ⟨row.1, row.2.1, row.2.2⟩, fun row => ⟨row.fits, row.single, row.prefixed⟩⟩

theorem infos_rows : forall info, info ∈ infos -> Row info := by decide +kernel

theorem infos_chain : List.IsChain (fun lower upper => packed lower.prefix_ lower.code <
    packed upper.prefix_ upper.code) infos := by decide +kernel

theorem getElem_row {index : Nat} {info : Info} (found : infos[index]? = some info) :
    index < infos.length ∧ Row info ∧ prefixCodeAt index = packed info.prefix_ info.code := by
  rcases List.getElem?_eq_some_iff.mp found with ⟨inside, same⟩
  refine ⟨inside, infos_rows info (same ▸ List.getElem_mem inside), ?_⟩
  rw [prefixCodeAt, found]
  rfl

theorem prefixCodeAt_increasing {lower upper : Nat} (order : lower < upper)
    (inside : upper < infos.length) : prefixCodeAt lower < prefixCodeAt upper := by
  have first := List.getElem?_eq_getElem (Nat.lt_trans order inside)
  have second := List.getElem?_eq_getElem inside
  have pairwise := infos_chain.pairwise
  rw [(getElem_row first).2.2, (getElem_row second).2.2]
  exact List.pairwise_iff_getElem.mp pairwise lower upper _ inside order

/-! ## Packing -/

section Packing

variable {prefix_ : BitVec 8} {code : BitVec 32}

theorem packed_toNat (fits : code < 0x100) :
    (packed prefix_ code).toNat = prefix_.toNat * 256 + code.toNat := by
  have small : code.toNat < 2 ^ 8 := fits
  have byte := prefix_.isLt
  rw [packed, BitVec.toNat_or, BitVec.toNat_shiftLeft, BitVec.toNat_setWidth, Nat.shiftLeft_eq,
    Nat.mod_eq_of_lt (show prefix_.toNat < 2 ^ 32 by omega), Nat.mod_eq_of_lt (by omega),
    Nat.mul_comm, ← Nat.two_pow_add_eq_or_of_lt small]

theorem packed_inj {otherPrefix : BitVec 8} {otherCode : BitVec 32} (fits : code < 0x100)
    (otherFits : otherCode < 0x100) (same : packed prefix_ code = packed otherPrefix otherCode) :
    prefix_ = otherPrefix ∧ code = otherCode := by
  have number := congrArg BitVec.toNat same
  rw [packed_toNat fits, packed_toNat otherFits] at number
  have small : code.toNat < 256 := fits
  have otherSmall : otherCode.toNat < 256 := otherFits
  exact ⟨BitVec.eq_of_toNat_eq (by omega), BitVec.eq_of_toNat_eq (by omega)⟩

theorem prefixCode_of_fits (asserts : Bool) (fits : code < 0x100) :
    prefixCode asserts prefix_ code = some (packed prefix_ code) := by
  have isBelow : code.ult 0x100 = true := BitVec.ult_iff_lt.mpr fits
  rw [prefixCode, isBelow, Bool.not_true, Bool.and_false]
  rfl

theorem negated (word : BitVec 32) : ~~~word + 1 = -word :=
  (BitVec.neg_eq_not_add word).symm

theorem decodeInvalidOpcode_packed (fits : code < 0x100) :
    decodeInvalidOpcode (~~~packed prefix_ code + 1) = (prefix_, code) := by
  have number : (packed prefix_ code).toNat = prefix_.toNat * 256 + code.toNat := packed_toNat fits
  have small : code.toNat < 256 := fits
  have byte := prefix_.isLt
  rw [decodeInvalidOpcode, negated, negated, BitVec.neg_neg, Prod.mk.injEq]
  constructor
  · apply BitVec.eq_of_toNat_eq
    rw [BitVec.toNat_setWidth, BitVec.toNat_ushiftRight, number, Nat.shiftRight_eq_div_pow]
    omega
  · apply BitVec.eq_of_toNat_eq
    rw [BitVec.toNat_and, number]
    change (prefix_.toNat * 256 + code.toNat) &&& (2 ^ 8 - 1) = _
    rw [Nat.and_two_pow_sub_one_eq_mod]
    omega

end Packing

/-! ## Looking a code up -/

/-- The table has an entry with this prefix and code. -/
def Listed (prefix_ : BitVec 8) (code : BitVec 32) : Prop :=
  exists info, info ∈ infos ∧ info.prefix_ = prefix_ ∧ info.code = code

/-- The opcode is the entry where there is one, else an invalid opcode that
still reports the prefix and the code. -/
structure Reports (opcode : BitVec 32) (prefix_ : BitVec 8) (code : BitVec 32) : Prop where
  valid : isInvalid opcode = false ↔ Listed prefix_ code
  samePrefix : (getInfo opcode).prefix_ = prefix_
  sameCode : (getInfo opcode).code = code

theorem getInfo_of {index : Nat} {info : Info} (found : infos[index]? = some info) :
    isInvalid (BitVec.ofNat 32 index) = false ∧ getInfo (BitVec.ofNat 32 index) = info := by
  have inside := (getElem_row found).1
  have length := infos_length
  have number : (BitVec.ofNat 32 index).toNat = index := by
    rw [BitVec.toNat_ofNat, Nat.mod_eq_of_lt (by omega)]
  constructor
  · rw [isInvalid, number, decide_eq_false_iff_not]
    exact Nat.not_le.mpr inside
  · rw [getInfo, number, List.getD_eq_getElem?_getD, found]
    rfl

theorem fromCode_listed (asserts : Bool) {index : Nat} {info : Info}
    (found : infos[index]? = some info) :
    fromCode asserts info.prefix_ info.code = some (BitVec.ofNat 32 index) := by
  rcases getElem_row found with ⟨inside, row, same⟩
  rw [fromCode, prefixCode_of_fits asserts row.fits, Option.bind_eq_bind, Option.bind_some, ← same]
  have position : lowerBound (fun lower => decide (prefixCodeAt lower < prefixCodeAt index)) 0
      infos.length = index := by
    refine lowerBound_eq (Nat.le_of_lt inside) (fun lower before => ?_) fun upper after within => ?_
    · exact decide_eq_true (prefixCodeAt_increasing before inside)
    · rw [decide_eq_false_iff_not]
      rcases Nat.lt_or_eq_of_le after with after | same
      · exact BitVec.not_lt.mpr (BitVec.le_of_lt (prefixCodeAt_increasing after within))
      · exact same ▸ BitVec.lt_irrefl _
  simp only [position]
  rw [if_neg]
  rintro (atEnd | different)
  · exact Nat.ne_of_lt inside atEnd
  · exact different rfl

theorem fromCode_unlisted (asserts : Bool) {prefix_ : BitVec 8} {code : BitVec 32}
    (fits : code < 0x100) (unlisted : ¬ Listed prefix_ code) :
    fromCode asserts prefix_ code = some (~~~packed prefix_ code + 1) ∧
      infos.length ≤ (~~~packed prefix_ code + 1).toNat := by
  have number : (packed prefix_ code).toNat = prefix_.toNat * 256 + code.toNat := packed_toNat fits
  have small : code.toNat < 256 := fits
  have byte := prefix_.isLt
  have length := infos_length
  have notAt : forall index, index < infos.length ->
      prefixCodeAt index ≠ packed prefix_ code := by
    intro index inside same
    have found := List.getElem?_eq_getElem inside
    rcases getElem_row found with ⟨_, row, at_⟩
    rcases packed_inj row.fits fits (at_.symm.trans same) with ⟨samePrefix, sameCode⟩
    exact unlisted ⟨_, List.getElem_mem inside, samePrefix, sameCode⟩
  -- The first entry is the word zero, which negated would be itself.
  have nonzero : packed prefix_ code ≠ 0 := fun zero => notAt 0 (by omega) (by rw [zero]; rfl)
  have large : infos.length ≤ (~~~packed prefix_ code + 1).toNat := by
    rw [negated, BitVec.toNat_neg, length]
    have positive : 0 < (packed prefix_ code).toNat :=
      Nat.pos_of_ne_zero fun zero => nonzero (BitVec.eq_of_toNat_eq zero)
    omega
  refine ⟨?_, large⟩
  rw [fromCode, prefixCode_of_fits asserts fits, Option.bind_eq_bind, Option.bind_some]
  have atEnd := lowerBound_le (fun index => decide (prefixCodeAt index < packed prefix_ code)) 0
    infos.length
  rw [Nat.zero_add] at atEnd
  dsimp only
  rw [if_pos, encodeInvalidOpcode, invalid, decide_eq_false (Nat.not_lt.mpr large), Bool.and_false]
  · rfl
  · exact (Nat.lt_or_eq_of_le atEnd).symm.imp_right (notAt _)

theorem fromCode_reports (asserts : Bool) {prefix_ : BitVec 8} {code : BitVec 32}
    (fits : code < 0x100) :
    exists opcode, fromCode asserts prefix_ code = some opcode ∧ Reports opcode prefix_ code := by
  by_cases listed : Listed prefix_ code
  · rcases listed with ⟨info, isMember, rfl, rfl⟩
    rcases List.mem_iff_getElem?.mp isMember with ⟨index, found⟩
    rcases getInfo_of found with ⟨valid, same⟩
    exact ⟨_, fromCode_listed asserts found, ⟨fun _ => ⟨info, isMember, rfl, rfl⟩, fun _ => valid⟩,
      by rw [same], by rw [same]⟩
  · rcases fromCode_unlisted asserts fits listed with ⟨made, large⟩
    have reported : getInfo (~~~packed prefix_ code + 1) = ⟨"<invalid>", prefix_, code⟩ := by
      rw [getInfo, List.getD_eq_getElem?_getD, List.getElem?_eq_none large,
        decodeInvalidOpcode_packed fits]
      rfl
    refine ⟨_, made, ⟨fun valid => ?_, fun isListed => absurd isListed listed⟩, by rw [reported],
      by rw [reported]⟩
    rw [isInvalid, decide_eq_false_iff_not] at valid
    exact absurd large valid

/-- No opcode reports a code that takes more than a byte. -/
theorem getInfo_fits (opcode : BitVec 32) : (getInfo opcode).code < 0x100 := by
  by_cases inside : opcode.toNat < infos.length
  · rw [getInfo, List.getD_eq_getElem?_getD, List.getElem?_eq_getElem inside, Option.getD_some]
    exact (infos_rows _ (List.getElem_mem inside)).fits
  · rw [getInfo, List.getD_eq_getElem?_getD, List.getElem?_eq_none (Nat.le_of_not_lt inside)]
    change ((~~~opcode + 1).toNat &&& (2 ^ 8 - 1)) < 2 ^ 8
    rw [Nat.and_two_pow_sub_one_eq_mod]
    exact Nat.mod_lt _ (by decide)

/-! ## Reading and writing -/

/-- A one-byte opcode, or a prefix byte and the number behind it. -/
inductive Spells : List (BitVec 8) -> BitVec 8 -> BitVec 32 -> Prop where
  | single {byte : BitVec 8} (isSingle : isPrefixByte byte = false) :
      Spells [byte] 0 (byte.setWidth 32)
  | prefixed {byte : BitVec 8} {bytes : List (BitVec 8)} {code : BitVec 32}
      (isPrefixed : isPrefixByte byte = true) (isCode : UnsignedCode 5 16 bytes)
      (same : code.toNat = lebUnsigned bytes) : Spells (byte :: bytes) byte code

/-- Reading gives an opcode that reports what the bytes spell. -/
def ReadsExactly (result : Option (Option (Nat × BitVec 32))) (length : Nat) (prefix_ : BitVec 8)
    (code : BitVec 32) : Prop :=
  exists opcode, result = some (some (length, opcode)) ∧ Reports opcode prefix_ code

section Codec

variable {bytes : List (BitVec 8)} {prefix_ : BitVec 8} {code : BitVec 32}

theorem readOpcode_spelled (asserts : Bool) (spelled : Spells bytes prefix_ code)
    (rest : List (BitVec 8)) :
    readOpcode asserts (bytes ++ rest) =
      (fromCode asserts prefix_ code).map fun opcode => some (bytes.length, opcode) := by
  cases spelled with
  | single isSingle =>
      rw [List.singleton_append, readOpcode, isSingle, if_neg Bool.false_ne_true]
      cases fromCode asserts 0 _ <;> rfl
  | prefixed isPrefixed isCode same =>
      rename_i numeral
      have read : Leb128.readU32Leb128 (numeral ++ rest) = some (some (numeral.length, code)) :=
        ((Leb128.readU32Leb128_iff _).2 _ _).mpr ⟨numeral, rest, rfl, rfl, isCode, same⟩
      rw [List.cons_append, readOpcode, isPrefixed, if_pos rfl, read]
      change (fromCode asserts prefix_ code).bind _ = _
      cases fromCode asserts prefix_ code <;> rfl

theorem writeOpcode_spells {index : Nat} {info : Info} (found : infos[index]? = some info) :
    exists bytes, writeOpcode (BitVec.ofNat 32 index) = some bytes ∧
      Spells bytes info.prefix_ info.code := by
  have row := (getElem_row found).2.1
  have same := (getInfo_of found).2
  rw [writeOpcode, same]
  by_cases zero : info.prefix_ = 0
  · have widened : (info.code.setWidth 8).setWidth 32 = info.code := by
      apply BitVec.eq_of_toNat_eq
      have small : info.code.toNat < 2 ^ 8 := row.fits
      rw [BitVec.toNat_setWidth, BitVec.toNat_setWidth, Nat.mod_eq_of_lt small,
        Nat.mod_eq_of_lt info.code.isLt]
    have spelled := Spells.single (row.single zero)
    rw [widened] at spelled
    exact ⟨_, by rw [if_neg (by simp [zero])], zero ▸ spelled⟩
  · rcases Leb128.writeU32Leb128_some info.code with ⟨bytes, wrote, isCode, number⟩
    refine ⟨_, ?_, .prefixed (row.prefixed zero) isCode number⟩
    rw [if_pos (bne_iff_ne.mpr zero), wrote]
    rfl

/-- In a build with assertions or without. -/
theorem readOpcode_exact_iff (asserts : Bool) :
    (forall index : Nat, index < invalid -> exists bytes,
      writeOpcode (BitVec.ofNat 32 index) = some bytes ∧ forall rest,
        readOpcode asserts (bytes ++ rest) =
          some (some (bytes.length, BitVec.ofNat 32 index))) ∧
    forall bytes prefix_ code, Spells bytes prefix_ code -> forall rest,
      (ReadsExactly (readOpcode asserts (bytes ++ rest)) bytes.length prefix_ code ↔
        code < 0x100) := by
  constructor
  · intro index inside
    have found := List.getElem?_eq_getElem (show index < infos.length from inside)
    rcases writeOpcode_spells found with ⟨bytes, wrote, spelled⟩
    refine ⟨bytes, wrote, fun rest => ?_⟩
    rw [readOpcode_spelled asserts spelled, fromCode_listed asserts found]
    rfl
  · intro bytes prefix_ code spelled rest
    rw [readOpcode_spelled asserts spelled]
    constructor
    · rintro ⟨opcode, _, reports⟩
      exact reports.sameCode ▸ getInfo_fits opcode
    · intro fits
      rcases fromCode_reports asserts fits with ⟨opcode, made, reports⟩
      exact ⟨opcode, by rw [made]; rfl, reports⟩

theorem readOpcode_exact_iff_truncSat :
    (forall index : Nat, index < invalid -> exists bytes,
      writeOpcode (BitVec.ofNat 32 index) = some bytes ∧ forall rest,
        readOpcode true (bytes ++ rest) = some (some (bytes.length, BitVec.ofNat 32 index))) ∧
    ReadsExactly (readOpcode true [0xfc, 0x07]) 2 0xfc 0x07 := by
  have exact_ := readOpcode_exact_iff true
  refine ⟨exact_.1, (exact_.2 [0xfc, 0x07] 0xfc 0x07 (.prefixed rfl ⟨?_, by decide, ?_⟩ rfl) []).mpr
    (by decide)⟩
  · exact leb_singleton (by decide)
  · exact fun impossible => absurd impossible (by decide)

/-- Behind `0xfc`, the code `0x100` fails an assertion; without it, the opcode
is the one of `0xfd` and `0x00`. -/
theorem readOpcode_aliases :
    Spells [0xfc, 0x80, 0x02] 0xfc 0x100 ∧
    ¬ ReadsExactly (readOpcode true [0xfc, 0x80, 0x02]) 3 0xfc 0x100 ∧
    ¬ ReadsExactly (readOpcode false [0xfc, 0x80, 0x02]) 3 0xfc 0x100 ∧
    fromCode false 0xfc 0x100 = fromCode false 0xfd 0x00 := by
  have leb : Leb [0x80, 0x02] := leb_cons (by decide) (leb_singleton (by decide))
  refine ⟨.prefixed rfl ⟨leb, by decide, by decide⟩ rfl, ?_, ?_, ?_⟩
  · rintro ⟨opcode, made, _⟩
    exact nomatch made
  · rintro ⟨opcode, _, reports⟩
    have fits := getInfo_fits opcode
    rw [reports.sameCode] at fits
    exact absurd fits (by decide)
  · have same : prefixCode false 0xfc 0x100 = prefixCode false 0xfd 0x00 := by decide
    rw [fromCode, fromCode, same]

end Codec

end Opcode

end Binary
end WasmSandboxing
