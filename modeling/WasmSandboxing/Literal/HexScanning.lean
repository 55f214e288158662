import WasmSandboxing.Literal.HexLiterals

namespace WasmSandboxing
namespace Literal

open Foundation FloatTraits

/-!
# What is read of a literal

The significand is the first digits of the literal, and the exponent the first
digits of its power: up to where there are enough bits, or the exponent seems
too large.
-/

/-- The digits that there is no room for behind a number. -/
def droppedFrom (traits : FloatTraits) : Nat -> List Nat -> Nat
  | _number, [] => 0
  | number, digit :: digits =>
      droppedFrom traits (number * 16 + digit) digits +
        if traits.kSigPlusOneBits < bitLength number then 1 else 0

section Digits

/-- The signs of the grammar are no digits. -/
theorem digit_ne {radix : Radix} {c other : Char} {digit : Nat} (isDigit : radix.digit c = some digit)
    (isSign : other = '_' ∨ other = '.' ∨ other = '-' ∨ other = '+') : c ≠ other := by
  rintro rfl
  rcases isSign with rfl | rfl | rfl | rfl <;> cases radix <;> cases isDigit

theorem digitsOf_separator (radix : Radix) (text : List Char) :
    digitsOf radix ('_' :: text) = digitsOf radix text := by
  cases radix <;> rfl

theorem digitsOf_digit {radix : Radix} {c : Char} {digit : Nat} (isDigit : radix.digit c = some digit)
    (text : List Char) : digitsOf radix (c :: text) = digit :: digitsOf radix text :=
  List.filterMap_cons_some isDigit

end Digits

section Significand

variable {traits : FloatTraits} {scan : Scan} {number fraction dropped : Nat}

/-- A scan of the digits of a number, some of which are behind the dot. -/
structure Scanned (traits : FloatTraits) (scan : Scan) (number fraction dropped : Nat) : Prop where
  significand : scan.significand = number / 2 ^ (4 * dropped)
  exponent : scan.exponent = 4 * (dropped : Int) - 4 * fraction
  full : dropped = 0 ∨ traits.kSigPlusOneBits < bitLength scan.significand
  length : bitLength scan.significand ≤ traits.kSigPlusOneBits + 4

/-- Whether there is room does not change when digits are dropped. -/
theorem Scanned.room_iff (scanned : Scanned traits scan number fraction dropped) :
    traits.kSigPlusOneBits < bitLength number ↔
      traits.kSigPlusOneBits < bitLength scan.significand := by
  rcases scanned.full with none_ | full
  · rw [scanned.significand, none_, Nat.mul_zero, Nat.pow_zero, Nat.div_one]
  · refine iff_of_true ?_ full
    rw [scanned.significand, lt_bitLength_iff] at full
    rw [lt_bitLength_iff]
    exact Nat.le_trans full (Nat.div_le_self _ _)

theorem Scanned.digit (lawful : traits.Lawful)
    (scanned : Scanned traits scan number fraction dropped) {digit : Nat} (isDigit : digit < 16)
    (short : dropped < 2 ^ 28 ∧ fraction < 2 ^ 28) :
    exists next, scanDigit traits digit scan = some next ∧ next.seenDot = scan.seenDot ∧
      Scanned traits next (number * 16 + digit) (if scan.seenDot then fraction + 1 else fraction)
        ((if traits.kSigPlusOneBits < bitLength number then 1 else 0) + dropped) := by
  have bits := lawful.room
  have isExponent := scanned.exponent
  rw [scanDigit]
  by_cases hasRoom : bitLength scan.significand ≤ traits.kSigPlusOneBits
  · have none_ : dropped = 0 := scanned.full.resolve_right (Nat.not_lt.mpr hasRoom)
    have same : scan.significand = number := by
      rw [scanned.significand, none_, Nat.mul_zero, Nat.pow_zero, Nat.div_one]
    have below : scan.significand < 2 ^ traits.kSigPlusOneBits := (bitLength_le_iff _ _).mp hasRoom
    have next : number * 16 + digit < 2 ^ (traits.kSigPlusOneBits + 4) := by
      rw [Nat.pow_add]
      omega
    have fits : 2 ^ (traits.kSigPlusOneBits + 4) ≤ 2 ^ traits.kBits :=
      Nat.pow_le_pow_right (by decide) (by rw [kSigPlusOneBits]; omega)
    have taken : (traits.shiftLeft scan.significand 4 + digit) % 2 ^ traits.kBits =
        number * 16 + digit := by
      rw [same, shiftLeft_exact (by omega)]
      exact Nat.mod_eq_of_lt (by omega)
    have noDrop : ¬ traits.kSigPlusOneBits < bitLength number := by
      rw [scanned.room_iff]
      exact Nat.not_lt.mpr hasRoom
    rw [if_pos hasRoom, if_neg noDrop, none_, taken]
    cases dot : scan.seenDot with
    | true =>
        rw [if_pos rfl, if_pos rfl, int_eq (by omega) (by omega), Option.map_some]
        refine ⟨_, rfl, rfl, ?_, ?_, Or.inl rfl, (bitLength_le_iff _ _).mpr next⟩
        · rw [Nat.zero_add, Nat.mul_zero, Nat.pow_zero, Nat.div_one]
        · dsimp only
          omega
    | false =>
        rw [if_neg Bool.false_ne_true, if_neg Bool.false_ne_true]
        refine ⟨_, rfl, rfl, ?_, ?_, Or.inl rfl, (bitLength_le_iff _ _).mpr next⟩
        · rw [Nat.zero_add, Nat.mul_zero, Nat.pow_zero, Nat.div_one]
        · dsimp only
          omega
  · have kept : (number * 16 + digit) / 2 ^ (4 * (1 + dropped)) = scan.significand := by
      have split : 2 ^ (4 * (1 + dropped)) = 16 * 2 ^ (4 * dropped) := by
        rw [Nat.mul_add, Nat.pow_add]
      rw [split, ← Nat.div_div_eq_div_mul, scanned.significand, Nat.mul_comm number,
        Nat.mul_add_div (by decide), Nat.div_eq_of_lt isDigit, Nat.add_zero]
    rw [if_neg hasRoom, if_pos (scanned.room_iff.mpr (Nat.not_le.mp hasRoom))]
    cases dot : scan.seenDot with
    | true =>
        rw [if_neg (by decide), if_pos rfl]
        refine ⟨scan, rfl, dot, kept.symm, ?_, Or.inr (Nat.not_le.mp hasRoom), scanned.length⟩
        omega
    | false =>
        rw [if_pos (by rfl), if_neg Bool.false_ne_true, int_eq (by omega) (by omega),
          Option.map_some]
        refine ⟨_, rfl, rfl, kept.symm, ?_, Or.inr (Nat.not_le.mp hasRoom), scanned.length⟩
        dsimp only
        omega

/-- A run over digits and underscores. -/
theorem Scanned.text (lawful : traits.Lawful) {text : List Char}
    (valid : forall c, c ∈ text -> c = '_' ∨ (Radix.hex.digit c).isSome)
    (scanned : Scanned traits scan number fraction dropped)
    (short : dropped + fraction + 2 * (digitsOf .hex text).length < 2 ^ 28) (rest : List Char) :
    exists next, scanSignificand traits (text ++ rest) scan = scanSignificand traits rest next ∧
      next.seenDot = scan.seenDot ∧
      Scanned traits next (digitsFrom 16 number (digitsOf .hex text))
        (if scan.seenDot then fraction + (digitsOf .hex text).length else fraction)
        (droppedFrom traits number (digitsOf .hex text) + dropped) := by
  induction text generalizing scan number fraction dropped with
  | nil =>
      refine ⟨scan, rfl, rfl, ?_⟩
      rw [show digitsOf .hex [] = [] from rfl, digitsFrom_nil, List.length_nil, Nat.add_zero, ite_self,
        droppedFrom, Nat.zero_add]
      exact scanned
  | cons c text inductionHypothesis =>
      have others := fun other isMember => valid other (List.mem_cons_of_mem c isMember)
      rcases valid c List.mem_cons_self with isSeparator | isDigit
      · rw [isSeparator, digitsOf_separator] at short ⊢
        rw [List.cons_append, scanSignificand, if_pos rfl]
        exact inductionHypothesis others scanned short
      · rcases Option.isSome_iff_exists.mp isDigit with ⟨digit, found⟩
        rw [digitsOf_digit found, List.length_cons] at short ⊢
        rcases scanned.digit lawful (digit_lt found) (by omega) with ⟨next, step, dot, nextScanned⟩
        have stepShort : (if traits.kSigPlusOneBits < bitLength number then 1 else 0) + dropped +
            (if scan.seenDot then fraction + 1 else fraction) +
              2 * (digitsOf .hex text).length < 2 ^ 28 := by
          split <;> split <;> omega
        rcases inductionHypothesis others nextScanned stepShort with ⟨last, run, lastDot, lastScanned⟩
        refine ⟨last, ?_, lastDot.trans dot, ?_⟩
        · rw [List.cons_append, scanSignificand, if_neg (digit_ne found (by decide)),
            if_neg (digit_ne found (by decide))]
          have parsed : parseHexdigit c = some digit := parseDigit_of_digit found
          rw [parsed]
          dsimp only
          rw [step, Option.bind_some, run]
        · have total : (if next.seenDot then
              (if scan.seenDot then fraction + 1 else fraction) + (digitsOf .hex text).length
              else if scan.seenDot then fraction + 1 else fraction) =
              if scan.seenDot then fraction + ((digitsOf .hex text).length + 1) else fraction := by
            rw [dot]
            split
            · omega
            · rfl
          rw [total] at lastScanned
          rw [digitsFrom_cons, droppedFrom, Nat.add_assoc]
          exact lastScanned

end Significand

section Exponent

variable {traits : FloatTraits}

end Exponent

/-! ## What is made of it -/

section Literals

variable (traits : FloatTraits) (literal : HexLiteral)

/-- The adjustment of the exponent for the place of the dot. -/
def significandExponent : Int :=
  4 * (droppedFrom traits 0 literal.digits : Int) - 4 * literal.fracDigits.length

variable {traits} {literal}

end Literals

end Literal
end WasmSandboxing
