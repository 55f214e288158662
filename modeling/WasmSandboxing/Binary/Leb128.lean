import WasmSandboxing.Foundation.Leb128
import Mathlib.Tactic.Linarith

namespace WasmSandboxing
namespace Binary

open Foundation

/-!
# Variable-length numbers, byte for byte

`leb128.cc`.  A reader is given the bytes from `p` to `end`; an access beyond
them is `none`, a result of zero bytes is `some none`.  A writer has room for
as many bytes as its buffer, and is `none` where it would write more.
-/

namespace Leb128

/-! ## Readers -/

/-- What a reader gives: the number of bytes and the number. -/
abbrev LebRead (width : Nat) := Option (Option (Nat × BitVec width))

/-- `p + index < end && (p[index] & 0x80) == 0` -/
def endsAt (p : List (BitVec 8)) (index : Nat) : Option Bool :=
  if index < p.length then p[index]?.map fun byte => byte &&& 0x80 == 0 else some false

/-- `BYTE_AT(type, index, 7 * index)` -/
def byteAt (width : Nat) (p : List (BitVec 8)) (index : Nat) : Option (BitVec width) :=
  p[index]?.map fun byte =>
    let digit : BitVec width := byte.setWidth width &&& 0x7f
    digit <<< (7 * index)

/-- `LEB128_1` and its like. -/
def leb128 (width : Nat) (p : List (BitVec 8)) : Nat -> Option (BitVec width)
  | 0 => some 0
  | count + 1 => do
      let byte <- byteAt width p count
      let rest <- leb128 width p count
      some (byte ||| rest)

/-- `SIGN_EXTEND` -/
def signExtend (value : BitVec width) (signBit : Nat) : BitVec width :=
  (value <<< (width - 1 - signBit)).sshiftRight (width - 1 - signBit)

/-- The cases of a reader one after another, with what each makes of its bytes. -/
def readCases (p : List (BitVec 8)) (found : Nat -> LebRead width) : Nat -> Nat -> LebRead width
  | 0, _index => some none  -- past the end
  | rounds + 1, index => do
      if <- endsAt p index then found (index + 1)
      else readCases p found rounds (index + 1)

def readU32Leb128 (p : List (BitVec 8)) : LebRead 32 :=
  readCases p (fun count =>
    if count = 5 then do
      let last <- p[4]?
      -- The top bits set represent values > 32 bits.
      if last &&& 0xf0 != 0 then some none
      else
        let value <- leb128 32 p 5
        some (some (5, value))
    else do
      let value <- leb128 32 p count
      some (some (count, value))) 5 0

/-- The case of as many bytes as there can be: the top bits should be a
sign-extension of the sign bit. -/
def readSignedTop (width count : Nat) (signBit topBits extension : BitVec 8)
    (p : List (BitVec 8)) : LebRead width := do
  let last <- p[count - 1]?
  let signBitSet := last &&& signBit != 0
  if (signBitSet && last &&& topBits != extension) || (!signBitSet && last &&& topBits != 0) then
    some none
  else
    let value <- leb128 width p count
    some (some (count, value))

def readSigned (width count : Nat) (p : List (BitVec 8)) : LebRead width := do
  let value <- leb128 width p count
  some (some (count, signExtend value (7 * count - 1)))

def readS32Leb128 (p : List (BitVec 8)) : LebRead 32 :=
  readCases p (fun count =>
    if count = 5 then readSignedTop 32 5 0x8 0xf0 0x70 p else readSigned 32 count p) 5 0

def readS64Leb128 (p : List (BitVec 8)) : LebRead 64 :=
  readCases p (fun count =>
    if count = 10 then readSignedTop 64 10 0x1 0xfe 0x7e p else readSigned 64 count p) 10 0

/-! ## Writers -/

/-- `LEB128_LOOP_UNTIL` with room for some bytes. -/
def lebLoop (shifted : BitVec width -> BitVec width) (ends : BitVec width -> BitVec 8 -> Bool) :
    Nat -> BitVec width -> Option (List (BitVec 8))
  | 0, _value => none
  | room + 1, value =>
      let byte := (value &&& 0x7f).setWidth 8
      if ends (shifted value) byte then some [byte]
      else do
        let rest <- lebLoop shifted ends room (shifted value)
        some ((byte ||| 0x80) :: rest)

def writeU32Leb128 (value : BitVec 32) : Option (List (BitVec 8)) :=
  lebLoop (fun value => value >>> 7) (fun value _ => value == 0) 5 value

def writeFixedU32Leb128 (value : BitVec 32) : List (BitVec 8) :=
  [(value &&& 0x7f).setWidth 8 ||| 0x80, ((value >>> 7) &&& 0x7f).setWidth 8 ||| 0x80,
    ((value >>> 14) &&& 0x7f).setWidth 8 ||| 0x80, ((value >>> 21) &&& 0x7f).setWidth 8 ||| 0x80,
    ((value >>> 28) &&& 0x0f).setWidth 8]

def writeSigned (room : Nat) (value : BitVec width) : Option (List (BitVec 8)) :=
  if value.slt 0 then
    lebLoop (fun value => value.sshiftRight 7) (fun value byte => value == -1 && byte &&& 0x40 != 0)
      room value
  else
    lebLoop (fun value => value.sshiftRight 7) (fun value byte => value == 0 && byte &&& 0x40 == 0)
      room value

def writeS32Leb128 (value : BitVec 32) : Option (List (BitVec 8)) :=
  writeSigned 5 value

def writeS64Leb128 (value : BitVec 64) : Option (List (BitVec 8)) :=
  writeSigned 10 value

example : writeS32Leb128 (-129) = some [0xff, 0x7e] := by decide

/-! ## Bits of a byte -/

section Bytes

theorem all_bytes {holds : BitVec 8 -> Prop} (all : forall index : Fin 256, holds (BitVec.ofFin index))
    (byte : BitVec 8) : holds byte :=
  all byte.toFin

/-- What the masks of the readers and the writers ask of a byte. -/
theorem byte_masks : forall byte : BitVec 8,
    (byte &&& 0x80 == 0) = decide (byte.toNat < 128) ∧
    (byte &&& 0xf0 != 0) = decide (16 ≤ byte.toNat) ∧
    (byte &&& 0x40 == 0) = decide (byte.toNat % 128 < 64) ∧
    (byte.toNat < 128 ->
      ((byte &&& 0x8 != 0 && byte &&& 0xf0 != 0x70) ||
          (!(byte &&& 0x8 != 0) && byte &&& 0xf0 != 0)) =
        decide (8 ≤ byte.toNat ∧ byte.toNat + 8 < 128) ∧
      ((byte &&& 0x1 != 0 && byte &&& 0xfe != 0x7e) ||
          (!(byte &&& 0x1 != 0) && byte &&& 0xfe != 0)) =
        decide (1 ≤ byte.toNat ∧ byte.toNat + 1 < 128) ∧
      (byte ||| 0x80).toNat = byte.toNat + 128) :=
  all_bytes (by decide +kernel)

theorem high_bit (byte : BitVec 8) : (byte &&& 0x80 == 0) = decide (byte.toNat < 128) :=
  (byte_masks byte).1

theorem top_unsigned (byte : BitVec 8) : (byte &&& 0xf0 != 0) = decide (16 ≤ byte.toNat) :=
  (byte_masks byte).2.1

theorem sign_digit (byte : BitVec 8) :
    (byte &&& 0x40 == 0) = decide (byte.toNat % 128 < 64) :=
  (byte_masks byte).2.2.1

theorem top_signed32 (byte : BitVec 8) (low : byte.toNat < 128) :
    ((byte &&& 0x8 != 0 && byte &&& 0xf0 != 0x70) ||
        (!(byte &&& 0x8 != 0) && byte &&& 0xf0 != 0)) =
      decide (8 ≤ byte.toNat ∧ byte.toNat + 8 < 128) :=
  ((byte_masks byte).2.2.2 low).1

theorem top_signed64 (byte : BitVec 8) (low : byte.toNat < 128) :
    ((byte &&& 0x1 != 0 && byte &&& 0xfe != 0x7e) ||
        (!(byte &&& 0x1 != 0) && byte &&& 0xfe != 0)) =
      decide (1 ≤ byte.toNat ∧ byte.toNat + 1 < 128) :=
  ((byte_masks byte).2.2.2 low).2.1

end Bytes

/-! ## What a reader finds -/

section Reading

variable {p : List (BitVec 8)} {width : Nat}

theorem endsAt_eq (p : List (BitVec 8)) (index : Nat) :
    endsAt p index = some (decide (exists byte, p[index]? = some byte ∧ byte.toNat < 128)) := by
  rw [endsAt]
  split
  · rename_i inRange
    rw [List.getElem?_eq_getElem inRange, Option.map_some, high_bit]
    simp only [Option.some.injEq, exists_eq_left']
  · rename_i outside
    rw [List.getElem?_eq_none (Nat.le_of_not_lt outside)]
    simp only [reduceCtorEq, false_and, exists_false, decide_false]

theorem readCases_ends {found : Nat -> LebRead width} {rounds index : Nat} {byte : BitVec 8}
    (here : p[index]? = some byte) (low : byte.toNat < 128) :
    readCases p found (rounds + 1) index = found (index + 1) := by
  rw [readCases, endsAt_eq, decide_eq_true ⟨byte, here, low⟩]
  rfl

theorem readCases_next {found : Nat -> LebRead width} {rounds index : Nat}
    (notHere : ¬ exists byte, p[index]? = some byte ∧ byte.toNat < 128) :
    readCases p found (rounds + 1) index = readCases p found rounds (index + 1) := by
  rw [readCases, endsAt_eq, decide_eq_false notHere]
  rfl

theorem readCases_past {found : Nat -> LebRead width} {rounds index : Nat}
    (outside : p.length ≤ index) : readCases p found rounds index = some none := by
  induction rounds generalizing index with
  | zero => rfl
  | succ rounds inductionHypothesis =>
      rw [readCases_next, inductionHypothesis (Nat.le_succ_of_le outside)]
      rintro ⟨byte, here, _⟩
      rw [List.getElem?_eq_none outside] at here
      cases here

/-- Bytes with their high bits set hold no code. -/
theorem not_leb_of_high {index count : Nat}
    (high : forall byte, byte ∈ p.take index -> 128 ≤ byte.toNat) (before : count ≤ index) :
    ¬ Leb (p.take count) := by
  intro leb
  rcases leb.split with ⟨front, last, same⟩
  have isMember : last ∈ p.take index :=
    (List.take_prefix_take_left before).subset (same ▸ List.mem_append_right _ List.mem_cons_self)
  have low := ((leb_append front last).mp (same ▸ leb)).2
  exact absurd (high last isMember) (Nat.not_le.mpr low)

theorem take_succ_of {index : Nat} {byte : BitVec 8} (here : p[index]? = some byte) :
    p.take (index + 1) = p.take index ++ [byte] := by
  rw [List.take_add_one, here]
  rfl

/-- The cases stop at the first byte that ends a number. -/
theorem readCases_cases (p : List (BitVec 8)) (found : Nat -> LebRead width) (rounds index : Nat)
    (high : forall byte, byte ∈ p.take index -> 128 ≤ byte.toNat) :
    (readCases p found rounds index = some none ∧
      forall count, count ≤ index + rounds -> count ≤ p.length -> ¬ Leb (p.take count)) ∨
    exists count, count ≤ index + rounds ∧ count ≤ p.length ∧ Leb (p.take count) ∧
      readCases p found rounds index = found count := by
  induction rounds generalizing index with
  | zero => exact .inl ⟨rfl, fun count below _ => not_leb_of_high high below⟩
  | succ rounds inductionHypothesis =>
      by_cases inRange : index < p.length
      · have here := List.getElem?_eq_getElem inRange
        by_cases low : p[index].toNat < 128
        · refine .inr ⟨index + 1, by omega, inRange, ?_, readCases_ends here low⟩
          rw [take_succ_of here, leb_append]
          exact ⟨high, low⟩
        · rw [readCases_next]
          · have further : forall byte, byte ∈ p.take (index + 1) -> 128 ≤ byte.toNat := by
              intro byte isMember
              rw [take_succ_of here] at isMember
              rcases List.mem_append.mp isMember with isMember | isMember
              · exact high byte isMember
              · rw [List.mem_singleton.mp isMember]
                exact Nat.le_of_not_lt low
            have later := inductionHypothesis (index + 1) further
            rw [Nat.add_right_comm, Nat.add_assoc] at later
            exact later
          · rintro ⟨byte, same, alsoLow⟩
            rw [here, Option.some.injEq] at same
            exact low (same ▸ alsoLow)
      · refine .inl ⟨readCases_past (Nat.le_of_not_lt inRange), fun count _ below => ?_⟩
        exact not_leb_of_high high (by omega)

/-! ## The numbers -/

theorem sevenBits (wide : 8 ≤ width) : (0x7f : BitVec width).toNat = 2 ^ 7 - 1 := by
  have large : 2 ^ 8 ≤ 2 ^ width := Nat.pow_le_pow_right (by decide) wide
  change (BitVec.ofNat width 0x7f).toNat = 0x7f
  rw [BitVec.toNat_ofNat, Nat.mod_eq_of_lt (by omega)]

theorem byteAt_toNat {index : Nat} {byte : BitVec 8} (wide : 8 ≤ width)
    (here : p[index]? = some byte) :
    exists digit, byteAt width p index = some digit ∧
      digit.toNat = byte.toNat % 128 * 2 ^ (7 * index) % 2 ^ width := by
  refine ⟨_, by rw [byteAt, here, Option.map_some], ?_⟩
  have fits : byte.toNat < 2 ^ width :=
    Nat.lt_of_lt_of_le byte.isLt (Nat.pow_le_pow_right (by decide) wide)
  rw [BitVec.toNat_shiftLeft, BitVec.toNat_and, BitVec.toNat_setWidth, sevenBits wide,
    Nat.mod_eq_of_lt fits, Nat.and_two_pow_sub_one_eq_mod, Nat.shiftLeft_eq]

/-- A digit in front of those below it. -/
theorem or_lower {unit lower digit : Nat} (small : lower < 2 ^ unit) (fits : unit ≤ width) :
    (digit * 2 ^ unit % 2 ^ width) ||| lower = (lower + 2 ^ unit * digit) % 2 ^ width := by
  rcases Nat.exists_eq_add_of_le fits with ⟨above, rfl⟩
  rw [Nat.mul_comm digit, Nat.pow_add, Nat.mul_mod_mul_left, ← Nat.two_pow_add_eq_or_of_lt small,
    Nat.mod_mul, Nat.add_mul_mod_self_left, Nat.mod_eq_of_lt small,
    Nat.add_mul_div_left _ _ (Nat.two_pow_pos unit), Nat.div_eq_of_lt small, Nat.zero_add,
    Nat.add_comm]

/-- As many digits as fit are those of the number. -/
theorem leb128_toNat {count : Nat} (wide : 8 ≤ width) (fits : 7 * count < width + 7)
    (inRange : count ≤ p.length) :
    exists value, leb128 width p count = some value ∧
      value.toNat = lebUnsigned (p.take count) % 2 ^ width := by
  induction count with
  | zero => exact ⟨0, rfl, by simp [lebUnsigned]⟩
  | succ count inductionHypothesis =>
      rcases inductionHypothesis (by omega) (by omega) with ⟨rest, read, value⟩
      have here := List.getElem?_eq_getElem (l := p) (i := count) (by omega)
      rcases byteAt_toNat wide here with ⟨digit, found, shifted⟩
      have length := List.length_take_of_le (show count ≤ p.length by omega)
      have small := lebUnsigned_lt (p.take count)
      rw [length, show 128 = 2 ^ 7 from rfl, ← Nat.pow_mul] at small
      have lower : lebUnsigned (p.take count) < 2 ^ width :=
        Nat.lt_of_lt_of_le small (Nat.pow_le_pow_right (by decide) (by omega))
      refine ⟨digit ||| rest, ?_, ?_⟩
      · rw [leb128, found, read]
        rfl
      · rw [BitVec.toNat_or, shifted, value, take_succ_of here, lebUnsigned_append, length,
          Nat.mod_eq_of_lt lower, or_lower small (by omega), show 128 = 2 ^ 7 from rfl,
          ← Nat.pow_mul]

/-- Shifting up and down again extends the sign. -/
theorem signExtend_toInt {value : BitVec width} {signBit : Nat} (inside : signBit < width)
    (small : value.toNat < 2 ^ (signBit + 1)) :
    (signExtend value signBit).toInt =
      if 2 * value.toNat < 2 ^ (signBit + 1) then (value.toNat : Int)
      else (value.toNat : Int) - 2 ^ (signBit + 1) := by
  rcases Nat.exists_eq_add_of_lt inside with ⟨above, rfl⟩
  have room : signBit + above + 1 - 1 - signBit = above := by omega
  have split : (2 : Nat) ^ (signBit + above + 1) = 2 ^ (signBit + 1) * 2 ^ above := by
    rw [← Nat.pow_add]
    congr 1
    omega
  have unit := Nat.two_pow_pos above
  have shifted : (value <<< above).toNat = value.toNat * 2 ^ above := by
    rw [BitVec.toNat_shiftLeft, Nat.shiftLeft_eq, Nat.mod_eq_of_lt]
    rw [split]
    exact Nat.mul_lt_mul_of_pos_right small unit
  rw [signExtend, room, BitVec.toInt_sshiftRight, Int.shiftRight_eq_div_pow,
    BitVec.toInt_eq_toNat_cond, shifted, split, ← Nat.mul_assoc]
  by_cases positive : 2 * value.toNat < 2 ^ (signBit + 1)
  · rw [if_pos positive, if_pos (Nat.mul_lt_mul_of_pos_right positive unit)]
    push_cast
    exact Int.mul_ediv_cancel _ (by positivity)
  · rw [if_neg positive, if_neg]
    · push_cast
      rw [← Int.sub_mul]
      exact Int.mul_ediv_cancel _ (by positivity)
    · exact fun below => positive (Nat.lt_of_mul_lt_mul_right below)

/-! ### The three readers -/

/-- What each case makes of its bytes, where it is the one that ends them. -/
theorem readCases_iff (p : List (BitVec 8)) (found : Nat -> LebRead width) (limit : Nat)
    (accepts : List (BitVec 8) -> BitVec width -> Prop)
    (single : forall {code first second}, accepts code first -> accepts code second ->
      first = second)
    (makes : forall count, count ≤ limit -> count ≤ p.length -> Leb (p.take count) ->
      (exists value, found count = some (some (count, value)) ∧ accepts (p.take count) value) ∨
        found count = some none ∧ forall value, ¬ accepts (p.take count) value) :
    readCases p found limit 0 ≠ none ∧
      forall count value, readCases p found limit 0 = some (some (count, value)) ↔
        exists code rest, p = code ++ rest ∧ code.length = count ∧ count ≤ limit ∧ Leb code ∧
          accepts code value := by
  have onlyTake : forall {code rest : List (BitVec 8)}, p = code ++ rest ->
      code = p.take code.length ∧ code.length ≤ p.length := by
    rintro code rest rfl
    rw [List.take_left' rfl, List.length_append]
    exact ⟨rfl, Nat.le_add_right _ _⟩
  rcases readCases_cases p found limit 0
      (fun byte isMember => (List.not_mem_nil isMember).elim) with
    ⟨past, noCode⟩ | ⟨count, below, inRange, leb, same⟩
  · rw [past]
    refine ⟨by simp, fun count value => ⟨fun impossible => by simp at impossible, ?_⟩⟩
    rintro ⟨code, rest, split, rfl, below, leb, _⟩
    have taken := onlyTake split
    exact (noCode _ (by omega) taken.2 (taken.1 ▸ leb)).elim
  · rw [Nat.zero_add] at below
    rw [same]
    have length := List.length_take_of_le inRange
    have sameCode : forall {code rest : List (BitVec 8)}, p = code ++ rest -> Leb code ->
        code = p.take count := by
      intro code rest split isLeb
      have taken := onlyTake split
      rw [taken.1, leb.unique (taken.1 ▸ isLeb) inRange taken.2]
    rcases makes count below inRange leb with ⟨value, found_, accepted⟩ | ⟨failed, refused⟩
    · rw [found_]
      refine ⟨by simp, fun other number => ⟨fun given => ?_, ?_⟩⟩
      · rw [Option.some.injEq, Option.some.injEq, Prod.mk.injEq] at given
        rcases given with ⟨rfl, rfl⟩
        exact ⟨p.take count, p.drop count, (List.take_append_drop count p).symm, length, below, leb,
          accepted⟩
      · rintro ⟨code, rest, split, rfl, _, isLeb, accepts_⟩
        have taken := sameCode split isLeb
        rw [taken] at accepts_
        rw [single accepts_ accepted, taken, length]
    · rw [failed]
      refine ⟨by simp, fun other number => ⟨fun impossible => by simp at impossible, ?_⟩⟩
      rintro ⟨code, rest, split, _, _, isLeb, accepts_⟩
      exact (refused number (sameCode split isLeb ▸ accepts_)).elim

/-- A number in as many bytes as there can be, whose unused bits are clear. -/
theorem unsigned_top {front : List (BitVec 8)} {last : BitVec 8} {spare : Nat}
    (range : 128 ^ front.length * spare = 2 ^ width) (low : last.toNat < 128)
    (unused : last.toNat < spare) : lebUnsigned (front ++ [last]) < 2 ^ width := by
  have lower := lebUnsigned_lt front
  have digits := Nat.mul_le_mul_left (128 ^ front.length) (show last.toNat + 1 ≤ spare from unused)
  rw [lebUnsigned_append, Nat.mod_eq_of_lt low]
  rw [Nat.mul_add, Nat.mul_one, range] at digits
  omega

/-- The same where the unused bits extend the sign. -/
theorem signed_top {front : List (BitVec 8)} {last : BitVec 8} {spare times : Nat}
    {value : BitVec width} (range : 128 ^ front.length * (2 * spare) = 2 ^ width)
    (whole : 2 * spare * (times + 1) = 128) (low : last.toNat < 128)
    (unused : last.toNat < spare ∨ 128 ≤ last.toNat + spare)
    (same : value.toNat = lebUnsigned (front ++ [last]) % 2 ^ width) :
    value.toInt = lebSigned (front ++ [last]) := by
  have lower := lebUnsigned_lt front
  have few : spare ≤ 64 := by
    have multiple := Nat.le_mul_of_pos_right (2 * spare) (show 0 < times + 1 by omega)
    rw [whole] at multiple
    omega
  rw [lebUnsigned_append, Nat.mod_eq_of_lt low] at same
  rw [BitVec.toInt_eq_toNat_cond, same, lebSigned_append, signedDigit, Nat.mod_eq_of_lt low, ← range]
  generalize unit_ : 128 ^ front.length = unit at *
  have unitCast : (128 : Int) ^ front.length = unit := by
    rw [← unit_]
    push_cast
    rfl
  rw [unitCast]
  rcases unused with unused | unused
  · have digits := Nat.mul_le_mul_left unit (show last.toNat + 1 ≤ spare from unused)
    have small : lebUnsigned front + unit * last.toNat < unit * spare := by
      rw [Nat.mul_add, Nat.mul_one] at digits
      omega
    have double : unit * (2 * spare) = 2 * (unit * spare) := by ring
    rw [Nat.mod_eq_of_lt (by omega), if_pos (by omega), if_pos (by omega)]
    push_cast
    ring
  · -- The digit is `128 - missing`, and `128` of the unit are a multiple of the range.
    rcases Nat.exists_eq_add_of_le (show last.toNat ≤ 128 by omega) with ⟨missing, total⟩
    have some_ : 1 ≤ missing := by omega
    have digits := Nat.mul_le_mul_left unit (show missing ≤ spare by omega)
    have atLeast := Nat.mul_le_mul_left unit some_
    have multiple : unit * last.toNat + unit * missing = unit * (2 * spare) * (times + 1) := by
      rw [← Nat.mul_add, ← total, Nat.mul_assoc, whole]
    have double : unit * (2 * spare) = 2 * (unit * spare) := by ring
    have reduced : lebUnsigned front + unit * last.toNat =
        (lebUnsigned front + (unit * (2 * spare) - unit * missing)) +
          unit * (2 * spare) * times := by
      rw [Nat.mul_add (unit * (2 * spare)), Nat.mul_one] at multiple
      omega
    rw [reduced, Nat.add_mul_mod_self_left, Nat.mod_eq_of_lt (by omega), if_neg (by omega),
      if_neg (by omega)]
    have digit : ((last.toNat : Nat) : Int) - 128 = -(missing : Int) := by omega
    rw [digit]
    push_cast [Nat.cast_sub (show unit * missing ≤ unit * (2 * spare) by omega)]
    ring

/-- The bytes of the last case. -/
theorem take_last {count : Nat} (inRange : count + 1 ≤ p.length) (leb : Leb (p.take (count + 1))) :
    exists last, p[count]? = some last ∧ last.toNat < 128 ∧
      p.take (count + 1) = p.take count ++ [last] ∧ (p.take count).length = count := by
  have here := List.getElem?_eq_getElem (l := p) (i := count) inRange
  rw [take_succ_of here, leb_append] at leb
  exact ⟨_, here, leb.2, take_succ_of here, List.length_take_of_le (Nat.le_of_succ_le inRange)⟩

theorem readU32Leb128_iff (p : List (BitVec 8)) :
    readU32Leb128 p ≠ none ∧ forall count value,
      readU32Leb128 p = some (some (count, value)) ↔
        exists code rest, p = code ++ rest ∧ code.length = count ∧
          UnsignedCode 5 16 code ∧ value.toNat = lebUnsigned code := by
  have makes := readCases_iff p (fun count =>
      if count = 5 then do
        let last <- p[4]?
        if last &&& 0xf0 != 0 then some none
        else
          let value <- leb128 32 p 5
          some (some (5, value))
      else do
        let value <- leb128 32 p count
        some (some (count, value))) 5
    (fun code value => (code.length = 5 -> topByte code < 16) ∧ value.toNat = lebUnsigned code)
    (fun here there => BitVec.eq_of_toNat_eq (here.2.trans there.2.symm)) ?_
  · refine ⟨makes.1, fun count value => (makes.2 count value).trans ?_⟩
    constructor
    · rintro ⟨code, rest, split, length, short, leb, unused, same⟩
      exact ⟨code, rest, split, length, ⟨leb, length ▸ short, unused⟩, same⟩
    · rintro ⟨code, rest, split, length, isCode, same⟩
      exact ⟨code, rest, split, length, length ▸ isCode.short, isCode.leb, isCode.unused, same⟩
  · intro count below inRange leb
    have length := List.length_take_of_le inRange
    rcases leb128_toNat (show 8 ≤ 32 by decide) (show 7 * count < 32 + 7 by omega) inRange with
      ⟨value, read, same⟩
    by_cases last : count = 5
    · subst last
      rcases take_last inRange leb with ⟨top, here, low, split, front⟩
      rw [if_pos rfl, here, Option.bind_eq_bind, Option.bind_some, top_unsigned]
      by_cases unused : top.toNat < 16
      · refine .inl ⟨value, ?_, fun _ => by rw [split, topByte_append]; exact unused, ?_⟩
        · rw [decide_eq_false (by omega), read]
          rfl
        · rw [same, Nat.mod_eq_of_lt]
          rw [split]
          exact unsigned_top (by rw [front]; rfl) low unused
      · refine .inr ⟨by rw [decide_eq_true (by omega)]; rfl, fun other accepted => unused ?_⟩
        have top_ := accepted.1 length
        rw [split, topByte_append] at top_
        exact top_
    · refine .inl ⟨value, ?_, fun full => absurd (length.symm.trans full) last, ?_⟩
      · rw [if_neg last, read]
        rfl
      · rw [same, Nat.mod_eq_of_lt]
        have small := lebUnsigned_lt (p.take count)
        rw [length] at small
        exact Nat.lt_of_lt_of_le small (Nat.le_trans
          (Nat.pow_le_pow_right (by decide) (show count ≤ 4 by omega)) (by decide))

/-- A case of a signed reader that is not the last. -/
theorem readSigned_eq {count : Nat} (wide : 8 ≤ width) (fits : 7 * count ≤ width)
    (inRange : count ≤ p.length) (leb : Leb (p.take count)) :
    exists value, readSigned width count p = some (some (count, value)) ∧
      value.toInt = lebSigned (p.take count) := by
  have length := List.length_take_of_le inRange
  have small := lebUnsigned_lt (p.take count)
  have pos := leb.pos
  rw [length] at small pos
  have digits : (128 : Nat) ^ count = 2 ^ (7 * count - 1 + 1) := by
    rw [show 128 = 2 ^ 7 from rfl, ← Nat.pow_mul]
    congr 1
    omega
  rcases leb128_toNat wide (show 7 * count < width + 7 by omega) inRange with ⟨value, read, same⟩
  have whole : value.toNat = lebUnsigned (p.take count) := by
    rw [same, Nat.mod_eq_of_lt]
    refine Nat.lt_of_lt_of_le small ?_
    rw [show 128 = 2 ^ 7 from rfl, ← Nat.pow_mul]
    exact Nat.pow_le_pow_right (by decide) fits
  refine ⟨signExtend value (7 * count - 1), by rw [readSigned, read]; rfl, ?_⟩
  rw [signExtend_toInt (by omega) (by rw [whole, ← digits]; exact small), lebSigned_eq leb, length,
    whole, digits]
  have cast : (128 : Int) ^ count = 2 ^ (7 * count - 1 + 1) := by exact_mod_cast digits
  rw [cast]

/-- The last case of a signed reader. -/
theorem readSignedTop_cases {count spare times : Nat} {signBit topBits extension : BitVec 8}
    (wide : 8 ≤ width) (fits : 7 * (count + 1) < width + 7)
    (range : 128 ^ count * (2 * spare) = 2 ^ width) (whole : 2 * spare * (times + 1) = 128)
    (bits : forall byte : BitVec 8, byte.toNat < 128 ->
      ((byte &&& signBit != 0 && byte &&& topBits != extension) ||
        (!(byte &&& signBit != 0) && byte &&& topBits != 0)) =
          decide (spare ≤ byte.toNat ∧ byte.toNat + spare < 128))
    (inRange : count + 1 ≤ p.length) (leb : Leb (p.take (count + 1))) :
    (exists value,
      readSignedTop width (count + 1) signBit topBits extension p =
        some (some (count + 1, value)) ∧
      (topByte (p.take (count + 1)) < spare ∨ 128 ≤ topByte (p.take (count + 1)) + spare) ∧
      value.toInt = lebSigned (p.take (count + 1))) ∨
    readSignedTop width (count + 1) signBit topBits extension p = some none ∧
      ¬ (topByte (p.take (count + 1)) < spare ∨ 128 ≤ topByte (p.take (count + 1)) + spare) := by
  rcases take_last inRange leb with ⟨top, here, low, split, front⟩
  rcases leb128_toNat wide fits inRange with ⟨value, read, same⟩
  rw [readSignedTop, Nat.add_sub_cancel, here, Option.bind_eq_bind, Option.bind_some, split,
    topByte_append]
  simp only [bits top low]
  by_cases unused : top.toNat < spare ∨ 128 ≤ top.toNat + spare
  · refine .inl ⟨value, ?_, unused, ?_⟩
    · rw [decide_eq_false (by omega), read]
      rfl
    · rw [split] at same
      exact signed_top (by rw [front]; exact range) whole low unused same
  · exact .inr ⟨by rw [decide_eq_true (by omega)]; rfl, unused⟩

/-- The signed readers have one case for each number of bytes. -/
theorem readSignedCases_iff {count spare : Nat} (times : Nat) {signBit topBits extension : BitVec 8}
    (wide : 8 ≤ width) (fits : 7 * (count + 1) < width + 7) (shorter : 7 * count ≤ width)
    (range : 128 ^ count * (2 * spare) = 2 ^ width) (whole : 2 * spare * (times + 1) = 128)
    (bits : forall byte : BitVec 8, byte.toNat < 128 ->
      ((byte &&& signBit != 0 && byte &&& topBits != extension) ||
        (!(byte &&& signBit != 0) && byte &&& topBits != 0)) =
          decide (spare ≤ byte.toNat ∧ byte.toNat + spare < 128)) (p : List (BitVec 8))
    {reads : LebRead width}
    (reads_ : reads = readCases p (fun bytes =>
      if bytes = count + 1 then readSignedTop width (count + 1) signBit topBits extension p
      else readSigned width bytes p) (count + 1) 0) :
    reads ≠ none ∧ forall bytes value, reads = some (some (bytes, value)) ↔
      exists code rest, p = code ++ rest ∧ code.length = bytes ∧
        SignedCode (count + 1) spare code ∧ value.toInt = lebSigned code := by
  subst reads_
  have makes := readCases_iff p (fun bytes =>
      if bytes = count + 1 then readSignedTop width (count + 1) signBit topBits extension p
      else readSigned width bytes p) (count + 1)
    (fun code value =>
      (code.length = count + 1 -> topByte code < spare ∨ 128 ≤ topByte code + spare) ∧
        value.toInt = lebSigned code)
    (fun here there => BitVec.eq_of_toInt_eq (here.2.trans there.2.symm)) ?_
  · refine ⟨makes.1, fun bytes value => (makes.2 bytes value).trans ?_⟩
    constructor
    · rintro ⟨code, rest, split, length, short, leb, unused, same⟩
      exact ⟨code, rest, split, length, ⟨leb, length ▸ short, unused⟩, same⟩
    · rintro ⟨code, rest, split, length, isCode, same⟩
      exact ⟨code, rest, split, length, length ▸ isCode.short, isCode.leb, isCode.unused, same⟩
  · intro bytes below inRange leb
    have length := List.length_take_of_le inRange
    by_cases last : bytes = count + 1
    · subst last
      rw [if_pos rfl]
      rcases readSignedTop_cases wide fits range whole bits inRange leb with
        ⟨value, found, unused, same⟩ | ⟨failed, used⟩
      · exact .inl ⟨value, found, fun _ => unused, same⟩
      · exact .inr ⟨failed, fun _ accepted => used (accepted.1 length)⟩
    · rw [if_neg last]
      rcases readSigned_eq wide (Nat.le_trans (Nat.mul_le_mul_left 7 (show bytes ≤ count by omega))
        shorter) inRange leb with ⟨value, found, same⟩
      exact .inl ⟨value, found, fun full => absurd (length.symm.trans full) last, same⟩

theorem readS32Leb128_iff (p : List (BitVec 8)) :
    readS32Leb128 p ≠ none ∧ forall count value,
      readS32Leb128 p = some (some (count, value)) ↔
        exists code rest, p = code ++ rest ∧ code.length = count ∧
          SignedCode 5 8 code ∧ value.toInt = lebSigned code :=
  readSignedCases_iff 7 (by decide) (by decide) (by decide) (by decide) (by decide)
    top_signed32 p rfl

theorem readS64Leb128_iff (p : List (BitVec 8)) :
    readS64Leb128 p ≠ none ∧ forall count value,
      readS64Leb128 p = some (some (count, value)) ↔
        exists code rest, p = code ++ rest ∧ code.length = count ∧
          SignedCode 10 1 code ∧ value.toInt = lebSigned code :=
  readSignedCases_iff 63 (by decide) (by decide) (by decide) (by decide) (by decide)
    top_signed64 p rfl

end Reading

/-! ## What a writer leaves -/

section Writing

variable {width : Nat}

theorem set_high (byte : BitVec 8) (low : byte.toNat < 128) :
    (byte ||| 0x80).toNat = byte.toNat + 128 :=
  ((byte_masks byte).2.2.2 low).2.2

/-- The digit a writer takes off. -/
theorem lowDigit (wide : 8 ≤ width) (value : BitVec width) :
    ((value &&& 0x7f).setWidth 8).toNat = value.toNat % 128 := by
  rw [BitVec.toNat_setWidth, BitVec.toNat_and, sevenBits wide, Nat.and_two_pow_sub_one_eq_mod,
    Nat.mod_eq_of_lt]
  exact Nat.lt_trans (Nat.mod_lt _ (by decide)) (by decide)

theorem lowDigit_lt (wide : 8 ≤ width) (value : BitVec width) :
    ((value &&& 0x7f).setWidth 8).toNat < 128 :=
  lowDigit wide value ▸ Nat.mod_lt _ (by decide)

theorem high_set (wide : 8 ≤ width) (value : BitVec width) :
    ((value &&& 0x7f).setWidth 8 ||| 0x80).toNat = value.toNat % 128 + 128 := by
  rw [set_high _ (lowDigit_lt wide value), lowDigit wide]

theorem shifted_toNat (value : BitVec width) : (value >>> 7).toNat = value.toNat / 128 := by
  rw [BitVec.toNat_ushiftRight, Nat.shiftRight_eq_div_pow]

theorem shifted_toInt (value : BitVec width) : (value.sshiftRight 7).toInt = value.toInt / 128 := by
  rw [BitVec.toInt_sshiftRight, Int.shiftRight_eq_div_pow]
  rfl

section Loop

variable {shifted : BitVec width -> BitVec width} {ends : BitVec width -> BitVec 8 -> Bool}
  {room : Nat} {value : BitVec width} {rest : List (BitVec 8)}

theorem lebLoop_ends (stops : ends (shifted value) ((value &&& 0x7f).setWidth 8) = true) :
    lebLoop shifted ends (room + 1) value = some [(value &&& 0x7f).setWidth 8] := by
  rw [lebLoop, if_pos stops]

theorem lebLoop_next (goesOn : ¬ ends (shifted value) ((value &&& 0x7f).setWidth 8) = true)
    (wrote : lebLoop shifted ends room (shifted value) = some rest) :
    lebLoop shifted ends (room + 1) value =
      some (((value &&& 0x7f).setWidth 8 ||| 0x80) :: rest) := by
  rw [lebLoop, if_neg goesOn, wrote]
  rfl

end Loop

theorem writeUnsigned_leb (wide : 8 ≤ width) (room : Nat) (value : BitVec width)
    (small : value.toNat < 128 ^ (room + 1)) :
    exists code, lebLoop (fun value => value >>> 7) (fun value _ => value == 0) (room + 1) value =
        some code ∧
      Leb code ∧ code.length ≤ room + 1 ∧ lebUnsigned code = value.toNat := by
  have stops : forall value : BitVec width, (value >>> 7 == 0) = true ↔ value.toNat / 128 = 0 := by
    intro value
    rw [beq_iff_eq, ← BitVec.toNat_inj, shifted_toNat]
    rfl
  induction room generalizing value with
  | zero =>
      rw [Nat.zero_add, Nat.pow_one] at small
      refine ⟨_, lebLoop_ends ((stops value).mpr (Nat.div_eq_of_lt small)),
        leb_singleton (lowDigit_lt wide value), Nat.le_refl _, ?_⟩
      rw [lebUnsigned, lebUnsigned, lowDigit wide]
      omega
  | succ room inductionHypothesis =>
      by_cases last : (value >>> 7 == 0) = true
      · refine ⟨_, lebLoop_ends last, leb_singleton (lowDigit_lt wide value), Nat.succ_pos _, ?_⟩
        rw [stops] at last
        rw [lebUnsigned, lebUnsigned, lowDigit wide]
        omega
      · have fewer : (value >>> 7).toNat < 128 ^ (room + 1) := by
          rw [shifted_toNat]
          rw [Nat.pow_succ] at small
          exact Nat.div_lt_of_lt_mul (Nat.mul_comm _ 128 ▸ small)
        rcases inductionHypothesis (value >>> 7) fewer with ⟨rest, wrote, leb, short, same⟩
        refine ⟨_, lebLoop_next last wrote, leb_cons ?_ leb, Nat.succ_le_succ short, ?_⟩
        · rw [high_set wide]
          exact Nat.le_add_left _ _
        · rw [lebUnsigned, high_set wide, same, shifted_toNat]
          omega

/-- `Sign` says which of the two loops it is: they stop at a number that its
last digit holds with its sign. -/
theorem writeSigned_leb (wide : 8 ≤ width) {ends : BitVec width -> BitVec 8 -> Bool}
    (Sign : Int -> Prop) (keeps : forall value, Sign value -> Sign (value / 128))
    (stops : forall value : BitVec width, Sign value.toInt ->
      forall byte : BitVec 8, byte.toNat < 128 -> (byte.toNat : Int) = value.toInt % 128 ->
        ends (value.sshiftRight 7) byte = decide (value.toInt = signedDigit byte))
    (room : Nat) (value : BitVec width) (sign : Sign value.toInt)
    (lower : -(128 ^ room * 64 : Int) ≤ value.toInt) (upper : value.toInt < 128 ^ room * 64) :
    exists code, lebLoop (fun value => value.sshiftRight 7) ends (room + 1) value = some code ∧
      Leb code ∧ code.length ≤ room + 1 ∧ lebSigned code = value.toInt := by
  have digit : forall value : BitVec width,
      (((value &&& 0x7f).setWidth 8).toNat : Int) = value.toInt % 128 := by
    intro value
    rcases Nat.exists_eq_add_of_le wide with ⟨more, rfl⟩
    rw [lowDigit wide, BitVec.toInt_eq_toNat_cond]
    have multiple : (2 : Nat) ^ (8 + more) = 128 * (2 * 2 ^ more) := by
      rw [Nat.pow_add]
      omega
    split
    · exact Int.natCast_mod _ _
    · rw [multiple]
      push_cast
      omega
  have holds : forall value : BitVec width, Sign value.toInt ->
      (ends (value.sshiftRight 7) ((value &&& 0x7f).setWidth 8) = true ↔
        value.toInt = signedDigit ((value &&& 0x7f).setWidth 8)) := by
    intro value sign
    rw [stops value sign _ (lowDigit_lt wide value) (digit value), decide_eq_true_iff]
  induction room generalizing value with
  | zero =>
      have same : value.toInt = signedDigit ((value &&& 0x7f).setWidth 8) := by
        have digit := digit value
        rw [signedDigit, Nat.mod_eq_of_lt (lowDigit_lt wide value)]
        rw [pow_zero] at lower upper
        split <;> omega
      refine ⟨_, lebLoop_ends ((holds value sign).mpr same),
        leb_singleton (lowDigit_lt wide value), Nat.le_refl _, ?_⟩
      rw [lebSigned, if_pos rfl, ← same]
  | succ room inductionHypothesis =>
      by_cases last : ends (value.sshiftRight 7) ((value &&& 0x7f).setWidth 8) = true
      · refine ⟨_, lebLoop_ends last, leb_singleton (lowDigit_lt wide value), Nat.succ_pos _, ?_⟩
        rw [lebSigned, if_pos rfl, ← (holds value sign).mp last]
      · rw [pow_succ] at lower upper
        have fewer := inductionHypothesis (value.sshiftRight 7)
          (by rw [shifted_toInt]; exact keeps _ sign) (by rw [shifted_toInt]; omega)
          (by rw [shifted_toInt]; omega)
        rcases fewer with ⟨rest, wrote, leb, short, same⟩
        refine ⟨_, lebLoop_next last wrote, leb_cons ?_ leb, Nat.succ_le_succ short, ?_⟩
        · rw [high_set wide]
          exact Nat.le_add_left _ _
        · have digit := digit value
          rw [lowDigit wide] at digit
          rw [lebSigned_cons leb, high_set wide, same, shifted_toInt, Nat.add_mod_right,
            Nat.mod_mod, digit]
          exact Int.emod_add_mul_ediv _ _

theorem writeSigned_some (wide : 8 ≤ width) (room : Nat) (value : BitVec width)
    (lower : -(128 ^ room * 64 : Int) ≤ value.toInt) (upper : value.toInt < 128 ^ room * 64) :
    exists code, writeSigned (room + 1) value = some code ∧
      Leb code ∧ code.length ≤ room + 1 ∧ lebSigned code = value.toInt := by
  have zero_ : (0 : BitVec width).toInt = 0 := BitVec.toInt_zero
  have minusOne : (-1 : BitVec width).toInt = -1 := by
    change (-BitVec.ofNat width 1).toInt = -1
    rw [BitVec.neg_one_eq_allOnes, BitVec.toInt_allOnes, if_pos (by omega)]
  have isDigit : forall byte : BitVec 8, byte.toNat < 128 ->
      ((byte &&& 0x40 == 0) = true ↔ byte.toNat < 64) := by
    intro byte low
    rw [sign_digit, decide_eq_true_iff, Nat.mod_eq_of_lt low]
  rw [writeSigned]
  by_cases negative : value.slt 0 = true
  · rw [if_pos negative]
    rw [BitVec.slt_iff_toInt_lt, zero_] at negative
    refine writeSigned_leb wide (fun value => value < 0) (fun _ sign => by omega) ?_ room value
      negative lower upper
    intro value sign byte low digit
    have isDigit := isDigit byte low
    rw [Bool.eq_iff_iff, Bool.and_eq_true, beq_iff_eq, ← BitVec.toInt_inj, shifted_toInt, minusOne,
      decide_eq_true_iff, bne, Bool.not_eq_true', ← Bool.not_eq_true, isDigit, signedDigit,
      Nat.mod_eq_of_lt low]
    split <;> omega
  · rw [if_neg negative]
    rw [BitVec.slt_iff_toInt_lt, zero_] at negative
    refine writeSigned_leb wide (fun value => 0 ≤ value) (fun _ sign => by omega) ?_ room value
      (Int.not_lt.mp negative) lower upper
    intro value sign byte low digit
    have isDigit := isDigit byte low
    rw [Bool.eq_iff_iff, Bool.and_eq_true, beq_iff_eq, ← BitVec.toInt_inj, shifted_toInt, zero_,
      decide_eq_true_iff, isDigit, signedDigit, Nat.mod_eq_of_lt low]
    split <;> omega

theorem writeU32Leb128_some (value : BitVec 32) :
    exists code, writeU32Leb128 value = some code ∧ UnsignedCode 5 16 code ∧
      value.toNat = lebUnsigned code := by
  have small := value.isLt
  rcases writeUnsigned_leb (by decide) 4 value (by omega) with ⟨code, wrote, leb, short, same⟩
  refine ⟨code, wrote, ⟨leb, short, fun length => unused_of_lt leb length ?_⟩, same.symm⟩
  rw [same]
  exact small

theorem writeFixedU32Leb128_code (value : BitVec 32) :
    UnsignedCode 5 16 (writeFixedU32Leb128 value) ∧
      value.toNat = lebUnsigned (writeFixedU32Leb128 value) := by
  have small := value.isLt
  have high : forall value : BitVec 32, 128 ≤ ((value &&& 0x7f).setWidth 8 ||| 0x80).toNat := by
    intro value
    rw [high_set (by decide)]
    exact Nat.le_add_left _ _
  have last : ((value >>> 28 &&& 0x0f).setWidth 8).toNat = value.toNat / 2 ^ 28 := by
    rw [BitVec.toNat_setWidth, BitVec.toNat_and, BitVec.toNat_ushiftRight, Nat.shiftRight_eq_div_pow]
    change (value.toNat / 2 ^ 28 &&& (2 ^ 4 - 1)) % 2 ^ 8 = _
    rw [Nat.and_two_pow_sub_one_eq_mod]
    omega
  refine ⟨⟨?_, Nat.le_refl _, fun _ => ?_⟩, ?_⟩
  · refine leb_cons (high _) (leb_cons (high _) (leb_cons (high _) (leb_cons (high _) ?_)))
    refine leb_singleton ?_
    rw [last]
    omega
  · change ((value >>> 28 &&& 0x0f).setWidth 8).toNat < 16
    rw [last]
    omega
  · simp only [writeFixedU32Leb128, lebUnsigned, high_set (show 8 ≤ 32 by decide), last,
      BitVec.toNat_ushiftRight, Nat.shiftRight_eq_div_pow]
    omega

/-- As many bytes as the width needs leave `spare` digits on either side of the sign. -/
theorem writeSigned_code {count spare : Nat} (wide : 8 ≤ width) (few : spare ≤ 64)
    (range : 128 ^ count * (2 * spare) = 2 ^ width) (value : BitVec width) :
    exists code, writeSigned (count + 1) value = some code ∧ SignedCode (count + 1) spare code ∧
      value.toInt = lebSigned code := by
  have lower : -2 ^ width ≤ 2 * value.toInt := BitVec.le_two_mul_toInt
  have upper : 2 * value.toInt < 2 ^ width := BitVec.two_mul_toInt_lt
  have total : (2 * (128 ^ count * spare) : Int) = 2 ^ width := by
    rw [← Int.mul_assoc, Int.mul_comm 2, Int.mul_assoc]
    exact_mod_cast range
  have most : (128 ^ count * spare : Int) ≤ 128 ^ count * 64 :=
    Int.mul_le_mul_of_nonneg_left (by omega) (by positivity)
  rcases writeSigned_some wide count value (by omega) (by omega) with ⟨code, wrote, leb, short, same⟩
  refine ⟨code, wrote, ⟨leb, short, fun length => unused_of_between leb length ?_ ?_⟩, same.symm⟩
  · rw [same]
    omega
  · rw [same]
    omega

end Writing

/-! ## The codec -/

/-- Reading what was written gives the number back, and takes as many bytes. -/
def ReadsBack (write : BitVec width -> Option (List (BitVec 8)))
    (read : List (BitVec 8) -> LebRead width) : Prop :=
  forall value rest, exists code, write value = some code ∧
    read (code ++ rest) = some (some (code.length, value))

/-- A reader that stays inside its range and finds the codes that there are. -/
structure Decodes (read : List (BitVec 8) -> LebRead width) (IsCode : List (BitVec 8) -> Prop)
    (SameNumber : BitVec width -> List (BitVec 8) -> Prop) : Prop where
  inside : forall p, read p ≠ none
  succeeds : forall p, (exists count value, read p = some (some (count, value))) ↔
    exists code rest, p = code ++ rest ∧ IsCode code
  value : forall p count value, read p = some (some (count, value)) ->
    exists code rest, p = code ++ rest ∧ code.length = count ∧ IsCode code ∧ SameNumber value code

theorem Decodes.of_iff {read : List (BitVec 8) -> LebRead width} {IsCode : List (BitVec 8) -> Prop}
    {SameNumber : BitVec width -> List (BitVec 8) -> Prop}
    (reads : forall p, read p ≠ none ∧ forall count value, read p = some (some (count, value)) ↔
      exists code rest, p = code ++ rest ∧ code.length = count ∧ IsCode code ∧ SameNumber value code)
    (holds : forall code, IsCode code -> exists value, SameNumber value code) :
    Decodes read IsCode SameNumber where
  inside := fun p => (reads p).1
  succeeds := by
    intro p
    constructor
    · rintro ⟨count, value, found⟩
      rcases ((reads p).2 count value).mp found with ⟨code, rest, split, _, isCode, _⟩
      exact ⟨code, rest, split, isCode⟩
    · rintro ⟨code, rest, split, isCode⟩
      rcases holds code isCode with ⟨value, same⟩
      exact ⟨_, value, ((reads p).2 _ value).mpr ⟨code, rest, split, rfl, isCode, same⟩⟩
  value := fun p count value found => ((reads p).2 count value).mp found

theorem signed_holds {count spare : Nat} (wide : 0 < width) (some_ : 0 < spare) (few : spare ≤ 64)
    (range : 128 ^ count * (2 * spare) = 2 ^ width) {code : List (BitVec 8)}
    (isCode : SignedCode (count + 1) spare code) :
    exists value : BitVec width, value.toInt = lebSigned code := by
  have between := isCode.between some_ few
  have total : (2 * (128 ^ count * spare) : Int) = 2 ^ width := by
    rw [← Int.mul_assoc, Int.mul_comm 2, Int.mul_assoc]
    exact_mod_cast range
  rcases Nat.exists_eq_add_of_lt wide with ⟨bits, rfl⟩
  rw [Nat.zero_add, pow_succ] at total
  refine ⟨BitVec.ofInt (0 + bits + 1) (lebSigned code), BitVec.toInt_ofInt_eq_self wide ?_ ?_⟩
  · rw [Nat.zero_add, Nat.add_sub_cancel]
    omega
  · rw [Nat.zero_add, Nat.add_sub_cancel]
    omega

theorem codec :
    (ReadsBack writeU32Leb128 readU32Leb128 ∧
      ReadsBack (fun value => some (writeFixedU32Leb128 value)) readU32Leb128 ∧
      ReadsBack writeS32Leb128 readS32Leb128 ∧ ReadsBack writeS64Leb128 readS64Leb128) ∧
    Decodes readU32Leb128 (UnsignedCode 5 16) (fun value code => value.toNat = lebUnsigned code) ∧
    Decodes readS32Leb128 (SignedCode 5 8) (fun value code => value.toInt = lebSigned code) ∧
    Decodes readS64Leb128 (SignedCode 10 1) (fun value code => value.toInt = lebSigned code) := by
  refine ⟨⟨fun value rest => ?_, fun value rest => ?_, fun value rest => ?_, fun value rest => ?_⟩,
    Decodes.of_iff readU32Leb128_iff fun code isCode => ?_,
    Decodes.of_iff readS32Leb128_iff fun code isCode => ?_,
    Decodes.of_iff readS64Leb128_iff fun code isCode => ?_⟩
  · rcases writeU32Leb128_some value with ⟨code, wrote, isCode, same⟩
    exact ⟨code, wrote, ((readU32Leb128_iff _).2 _ _).mpr ⟨code, rest, rfl, rfl, isCode, same⟩⟩
  · rcases writeFixedU32Leb128_code value with ⟨isCode, same⟩
    exact ⟨_, rfl, ((readU32Leb128_iff _).2 _ _).mpr ⟨_, rest, rfl, rfl, isCode, same⟩⟩
  · rcases writeSigned_code (show 8 ≤ 32 by decide) (show 8 ≤ 64 by decide)
      (show 128 ^ 4 * (2 * 8) = 2 ^ 32 by decide) value with ⟨code, wrote, isCode, same⟩
    exact ⟨code, wrote, ((readS32Leb128_iff _).2 _ _).mpr ⟨code, rest, rfl, rfl, isCode, same⟩⟩
  · rcases writeSigned_code (show 8 ≤ 64 by decide) (show 1 ≤ 64 by decide)
      (show 128 ^ 9 * (2 * 1) = 2 ^ 64 by decide) value with ⟨code, wrote, isCode, same⟩
    exact ⟨code, wrote, ((readS64Leb128_iff _).2 _ _).mpr ⟨code, rest, rfl, rfl, isCode, same⟩⟩
  · refine ⟨BitVec.ofNat 32 (lebUnsigned code), ?_⟩
    have fits : lebUnsigned code < 2 ^ 32 := isCode.lt (by decide)
    rw [BitVec.toNat_ofNat, Nat.mod_eq_of_lt fits]
  · exact signed_holds (by decide) (by decide) (by decide) (by decide) isCode
  · exact signed_holds (by decide) (by decide) (by decide) (by decide) isCode

end Leb128

end Binary
end WasmSandboxing
