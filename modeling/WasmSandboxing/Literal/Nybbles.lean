import WasmSandboxing.Literal.HexRounding

namespace WasmSandboxing
namespace Literal

open Foundation FloatTraits

/-!
# The digits of a float

What the loops of the writer put in the buffer, and what the loops of the parser
make of digits.
-/

/-- The character of a digit. -/
def hexDigit (digit : Nat) : Char := hexDigits.getD digit '0'

theorem hexDigit_facts {digit : Nat} (isDigit : digit < 16) :
    hexDigits[digit]? = some (hexDigit digit) ∧ parseHexdigit (hexDigit digit) = some digit ∧
      hexDigit digit ≠ '_' ∧ hexDigit digit ≠ '.' := by
  have all : forall digit : Fin 16, hexDigits[digit.val]? = some (hexDigit digit) ∧
      parseHexdigit (hexDigit digit) = some digit.val ∧
      hexDigit digit ≠ '_' ∧ hexDigit digit ≠ '.' := by decide
  exact all ⟨digit, isDigit⟩

theorem decimalDigit_facts {digit : Nat} (isDigit : digit < 10) :
    within '0' '9' (decimalDigit digit) = some digit ∧ decimalDigit digit ≠ '_' := by
  have all : forall digit : Fin 10, within '0' '9' (decimalDigit digit) = some digit.val ∧
      decimalDigit digit ≠ '_' := by decide
  exact all ⟨digit, isDigit⟩

theorem int_eq {number : Int} (lower : -2 ^ 31 ≤ number) (upper : number < 2 ^ 31) :
    int number = some number :=
  if_pos ⟨lower, upper⟩

/-! ## The nybbles of a number, highest first -/

section Writing

variable {traits : FloatTraits}

def nybbles (traits : FloatTraits) : Nat -> Nat -> List Nat
  | 0, _sig => []
  | count + 1, sig => topNybble traits sig :: nybbles traits count (traits.shiftLeft sig 4)

theorem topNybble_lt (traits : FloatTraits) (sig : Nat) : topNybble traits sig < 16 :=
  Nat.lt_succ_of_le Nat.and_le_right

theorem length_nybbles (traits : FloatTraits) (count sig : Nat) :
    (nybbles traits count sig).length = count := by
  induction count generalizing sig with
  | zero => rfl
  | succ count inductionHypothesis =>
      rw [nybbles, List.length_cons, inductionHypothesis]

theorem nybbles_small (traits : FloatTraits) (count sig : Nat) :
    forall digit, digit ∈ nybbles traits count sig -> digit < 16 := by
  induction count generalizing sig with
  | zero => exact fun digit isMember => absurd isMember List.not_mem_nil
  | succ count inductionHypothesis =>
      intro digit isMember
      rcases List.mem_cons.mp isMember with top | lower
      · rw [top]
        exact topNybble_lt traits sig
      · exact inductionHypothesis _ digit lower

theorem shiftLeft_lt (traits : FloatTraits) (number shift : Nat) :
    traits.shiftLeft number shift < 2 ^ traits.kBits :=
  Nat.mod_lt _ (Nat.two_pow_pos _)

theorem sixteen_pow (count : Nat) : 16 ^ count = 2 ^ (4 * count) := by
  rw [pow_mul]
  norm_num

theorem topNybble_eq {rest count number : Nat} (total : rest + 4 * (count + 1) = traits.kBits)
    (small : number < 16 ^ (count + 1)) :
    topNybble traits (number * 2 ^ rest) = number / 16 ^ count := by
  have highest : traits.kBits - 4 = rest + 4 * count := by omega
  have quotient : number / 16 ^ count < 16 := by
    rw [Nat.div_lt_iff_lt_mul (Nat.pow_pos (by decide)), Nat.mul_comm, ← Nat.pow_succ]
    exact small
  have mask : (0xf : Nat) = 2 ^ 4 - 1 := rfl
  rw [topNybble, highest, Nat.shiftRight_eq_div_pow, Nat.pow_add, ← Nat.div_div_eq_div_mul,
    Nat.mul_div_cancel _ (Nat.two_pow_pos rest), ← sixteen_pow, mask,
    Nat.and_two_pow_sub_one_eq_mod]
  exact Nat.mod_eq_of_lt quotient

theorem shiftLeft_nybble {rest count : Nat} (total : rest + 4 * (count + 1) = traits.kBits)
    (number : Nat) :
    traits.shiftLeft (number * 2 ^ rest) 4 = number % 16 ^ count * 2 ^ (rest + 4) := by
  have width : traits.kBits = 4 * count + (rest + 4) := by omega
  rw [shiftLeft, Nat.mul_assoc, ← Nat.pow_add, width, Nat.pow_add 2 (4 * count),
    Nat.mul_mod_mul_right, sixteen_pow]

/-- The nybbles of a number that begins at the top are its digits. -/
theorem digitsFrom_nybbles {rest count number value : Nat} (total : rest + 4 * count = traits.kBits)
    (small : number < 16 ^ count) :
    digitsFrom 16 value (nybbles traits count (number * 2 ^ rest)) =
      value * 16 ^ count + number := by
  induction count generalizing rest number value with
  | zero =>
      rw [pow_zero, Nat.lt_one_iff] at small
      rw [small, nybbles, digitsFrom_nil, pow_zero, Nat.mul_one, Nat.add_zero]
  | succ count inductionHypothesis =>
      have whole := Nat.div_add_mod number (16 ^ count)
      rw [nybbles, digitsFrom_cons, topNybble_eq total small, shiftLeft_nybble total,
        inductionHypothesis (by omega) (Nat.mod_lt _ (Nat.pow_pos (by decide))), Nat.add_mul,
        Nat.mul_assoc, ← Nat.pow_succ', Nat.add_assoc, Nat.mul_comm (_ / _), whole]

/-! ## The loops of the writer -/

theorem put_eq {buffer : List Char} (room : buffer.length < traits.kMaxHexBufferSize) (c : Char) :
    put traits c buffer = some (buffer ++ [c]) :=
  if_pos room

theorem putNybble_eq {buffer : List Char} (room : buffer.length < traits.kMaxHexBufferSize)
    (sig : Nat) :
    putNybble traits sig buffer = some (buffer ++ [hexDigit (topNybble traits sig)]) := by
  rw [putNybble, (hexDigit_facts (topNybble_lt traits sig)).1]
  exact put_eq room _

theorem writeNybbles_eq {count : Nat} {buffer : List Char}
    (room : buffer.length + count ≤ traits.kMaxHexBufferSize) (sig : Nat) :
    writeNybbles traits count sig buffer =
      some (buffer ++ (nybbles traits count sig).map hexDigit) := by
  induction count generalizing buffer sig with
  | zero => rw [writeNybbles, nybbles, List.map_nil, List.append_nil]
  | succ count inductionHypothesis =>
      rw [writeNybbles, putNybble_eq (by omega), Option.bind_eq_bind, Option.bind_some,
        inductionHypothesis, nybbles, List.map_cons, List.append_assoc, List.singleton_append]
      rw [List.length_append, List.length_singleton]
      omega

/-- The loop behind the dot writes no more nybbles than there are bits. -/
theorem writeFraction_eq {count rounds sig : Nat} {buffer : List Char}
    (width : 4 * count ≤ traits.kBits) (enough : count ≤ rounds)
    (room : buffer.length + count ≤ traits.kMaxHexBufferSize) (inRange : sig < 2 ^ traits.kBits)
    (lowZero : 2 ^ (traits.kBits - 4 * count) ∣ sig) :
    exists used, used ≤ count ∧ 2 ^ (traits.kBits - 4 * used) ∣ sig ∧
      writeFraction traits rounds sig buffer =
        some (buffer ++ (nybbles traits used sig).map hexDigit) := by
  induction count generalizing rounds sig buffer with
  | zero =>
      have isZero : sig = 0 := Nat.eq_zero_of_dvd_of_lt lowZero inRange
      refine ⟨0, Nat.le_refl _, lowZero, ?_⟩
      rw [nybbles, List.map_nil, List.append_nil]
      cases rounds with
      | zero => rw [writeFraction, if_pos isZero]
      | succ rounds => rw [writeFraction, if_pos isZero]
  | succ count inductionHypothesis =>
      cases rounds with
      | zero => exact absurd enough (Nat.not_succ_le_zero _)
      | succ rounds =>
          by_cases isZero : sig = 0
          · refine ⟨0, Nat.zero_le _, ?_, ?_⟩
            · rw [isZero]
              exact Nat.dvd_zero _
            · rw [writeFraction, if_pos isZero, nybbles, List.map_nil, List.append_nil]
          · have moved : forall low, 4 + low ≤ traits.kBits ->
                (2 ^ (4 + low) ∣ traits.shiftLeft sig 4 ↔ 2 ^ low ∣ sig) := by
              intro low fits
              rw [shiftLeft, Nat.dvd_mod_iff (Nat.pow_dvd_pow 2 fits), Nat.mul_comm, Nat.pow_add,
                Nat.mul_dvd_mul_iff_left (by decide)]
            have length : (buffer ++ [hexDigit (topNybble traits sig)]).length + count ≤
                traits.kMaxHexBufferSize := by
              rw [List.length_append, List.length_singleton]
              omega
            have next : 2 ^ (traits.kBits - 4 * count) ∣ traits.shiftLeft sig 4 := by
              have more : traits.kBits - 4 * count = 4 + (traits.kBits - 4 * (count + 1)) := by omega
              rw [more, moved _ (by omega)]
              exact lowZero
            rcases inductionHypothesis (by omega) (Nat.le_of_succ_le_succ enough) length
              (shiftLeft_lt traits sig 4) next with ⟨used, usedBound, lower, written⟩
            refine ⟨used + 1, Nat.succ_le_succ usedBound, ?_, ?_⟩
            · have more : traits.kBits - 4 * used = 4 + (traits.kBits - 4 * (used + 1)) := by omega
              rw [more, moved _ (by omega)] at lower
              exact lower
            · rw [writeFraction, if_neg isZero, putNybble_eq (by omega), Option.bind_eq_bind,
                Option.bind_some, written, nybbles, List.map_cons, List.append_assoc,
                List.singleton_append]

/-- The loop over the leading zeroes leaves a number with its nybbles. -/
theorem skipZeroes_eq {count rest number : Nat} (total : rest + 4 * count = traits.kBits)
    (small : number < 16 ^ count) (positive : 0 < number) :
    exists used, used ≤ count ∧ number < 16 ^ used ∧
      skipZeroes traits count (number * 2 ^ rest) =
        (used, number * 2 ^ (traits.kBits - 4 * used)) := by
  induction count generalizing rest with
  | zero =>
      rw [pow_zero] at small
      omega
  | succ count inductionHypothesis =>
      have top := topNybble_eq total small
      by_cases isZero : topNybble traits (number * 2 ^ rest) = 0
      · have below : number < 16 ^ count := by
          rw [top, Nat.div_eq_zero_iff] at isZero
          exact isZero.resolve_left (Nat.ne_of_gt (Nat.pow_pos (by decide)))
        rcases inductionHypothesis (show rest + 4 + 4 * count = traits.kBits by omega) below with
          ⟨used, usedBound, fits, skipped⟩
        refine ⟨used, Nat.le_succ_of_le usedBound, fits, ?_⟩
        rw [skipZeroes, if_pos isZero, shiftLeft_nybble total, Nat.mod_eq_of_lt below, skipped]
      · refine ⟨count + 1, Nat.le_refl _, small, ?_⟩
        have same : rest = traits.kBits - 4 * (count + 1) := by omega
        rw [skipZeroes, if_neg isZero, ← same]

end Writing

/-! ## The loops of the parser -/

section Reading

variable {traits : FloatTraits} {digits : List Nat} {value : Nat}

theorem parseTag_digits (lawful : traits.Lawful) (small : forall digit, digit ∈ digits -> digit < 16)
    (fits : digitsFrom 16 value digits ≤ traits.kSigMask) :
    parseTag traits value (digits.map hexDigit) = some (digitsFrom 16 value digits) := by
  induction digits generalizing value with
  | nil => rfl
  | cons digit digits inductionHypothesis =>
      rw [digitsFrom_cons] at fits
      have step : value * 16 + digit ≤ traits.kSigMask :=
        Nat.le_trans (le_digitsFrom (by decide)) fits
      have noWrap : value * 16 + digit < 2 ^ traits.kBits := by
        have room := lawful.room
        have wider : 2 ^ traits.kSigBits ≤ 2 ^ traits.kBits :=
          Nat.pow_le_pow_right (by decide) (by omega)
        rw [kSigMask] at step
        have positive := Nat.two_pow_pos traits.kSigBits
        omega
      rw [List.map_cons, parseTag, (hexDigit_facts (small digit List.mem_cons_self)).2.1,
        Option.bind_eq_bind, Option.bind_some, Nat.mod_eq_of_lt noWrap,
        if_neg (Nat.not_lt.mpr step), digitsFrom_cons,
        inductionHypothesis (fun other isMember => small other (List.mem_cons_of_mem _ isMember)) fits]

/-- Digits behind the dot, all of which the significand has room for. -/
theorem scanSignificand_digits (lawful : traits.Lawful) {exponent : Int} {rest : List Char}
    (small : forall digit, digit ∈ digits -> digit < 16)
    (room : (value + 1) * 16 ^ digits.length ≤ 2 ^ (traits.kSigBits + 5))
    (lower : -2 ^ 31 ≤ exponent - 4 * digits.length) (upper : exponent < 2 ^ 31) :
    scanSignificand traits (digits.map hexDigit ++ rest) ⟨true, value, exponent⟩ =
      scanSignificand traits rest
        ⟨true, digitsFrom 16 value digits, exponent - 4 * digits.length⟩ := by
  induction digits generalizing value exponent with
  | nil =>
      rw [List.map_nil, List.nil_append, digitsFrom_nil, List.length_nil, Int.natCast_zero,
        Int.mul_zero, Int.sub_zero]
  | cons digit digits inductionHypothesis =>
      rw [List.length_cons] at room lower
      have isDigit := small digit List.mem_cons_self
      have facts := hexDigit_facts isDigit
      have positive : 0 < 16 ^ digits.length := Nat.pow_pos (by decide)
      have bits := lawful.room
      have widened : 2 ^ (traits.kSigBits + 5) ≤ 2 ^ traits.kBits :=
        Nat.pow_le_pow_right (by decide) (by omega)
      have scaled : (value * 16 + digit + 1) * 16 ^ digits.length ≤ 2 ^ (traits.kSigBits + 5) := by
        refine Nat.le_trans ?_ room
        rw [pow_succ, Nat.mul_comm (16 ^ _), ← Nat.mul_assoc]
        exact Nat.mul_le_mul_right _ (by omega)
      have next : value * 16 + digit < 2 ^ (traits.kSigBits + 5) :=
        Nat.lt_of_lt_of_le (Nat.lt_succ_self _) (Nat.le_trans (Nat.le_mul_of_pos_right _ positive) scaled)
      have hasRoom : bitLength value ≤ traits.kSigPlusOneBits := by
        rw [bitLength_le_iff, kSigPlusOneBits]
        have same : 2 ^ (traits.kSigBits + 5) = 2 ^ (traits.kSigBits + 1) * 16 := by
          rw [Nat.pow_add 2 (traits.kSigBits + 1) 4]
        omega
      have taken : (traits.shiftLeft value 4 + digit) % 2 ^ traits.kBits = value * 16 + digit := by
        rw [shiftLeft_exact (by omega)]
        exact Nat.mod_eq_of_lt (by omega)
      have scanned : scanDigit traits digit ⟨true, value, exponent⟩ =
          some ⟨true, value * 16 + digit, exponent - 4⟩ := by
        rw [scanDigit, if_pos hasRoom]
        dsimp only
        rw [if_pos rfl, taken, int_eq (by omega) (by omega), Option.map_some]
      have shift : exponent - 4 - 4 * (digits.length : Int) =
          exponent - 4 * ((digits.length + 1 : Nat) : Int) := by omega
      rw [List.map_cons, List.cons_append, scanSignificand, if_neg facts.2.2.1, if_neg facts.2.2.2,
        facts.2.1]
      dsimp only
      rw [scanned, Option.bind_some, inductionHypothesis
        (fun other isMember => small other (List.mem_cons_of_mem _ isMember)) scaled (by omega)
        (by omega), digitsFrom_cons, List.length_cons, shift]

/-- The digits of an exponent that stays small until its last digit. -/
theorem scanExponent_digits {add : Int} (small : forall digit, digit ∈ digits -> digit < 10)
    (fits : digitsFrom 10 value digits < 2 ^ 30) (addLower : -2 ^ 30 ≤ add) (addUpper : add < 2 ^ 30)
    (early : (digitsFrom 10 value digits / 10 : Nat) + add < traits.kMaxExp) :
    scanExponent traits add (digits.map decimalDigit) value =
      some ((digitsFrom 10 value digits : Nat) : Int) := by
  induction digits generalizing value with
  | nil => rfl
  | cons digit digits inductionHypothesis =>
      have facts := decimalDigit_facts (small digit List.mem_cons_self)
      rw [digitsFrom_cons] at fits early ⊢
      have grows : value * 10 + digit ≤ digitsFrom 10 (value * 10 + digit) digits :=
        le_digitsFrom (by decide)
      have word : (BitVec.ofInt 32 ((value : Int) * 10 + digit)).toInt =
          ((value * 10 + digit : Nat) : Int) := by
        rw [BitVec.toInt_ofInt, Int.bmod_eq_of_le (by omega) (by omega)]
        push_cast
        rfl
      rw [List.map_cons, scanExponent, if_neg facts.2, facts.1, Option.bind_eq_bind,
        Option.bind_some, Option.bind_eq_bind, int_eq (by omega) (by omega), Option.bind_some]
      dsimp only
      rw [word, int_eq (by omega) (by omega), Option.bind_some]
      cases digits with
      | nil => rw [List.map_nil, scanExponent, ite_self, digitsFrom_nil]
      | cons next digits =>
          have last : value * 10 + digit ≤
              digitsFrom 10 (value * 10 + digit) (next :: digits) / 10 := by
            rw [Nat.le_div_iff_mul_le (by decide), digitsFrom_cons]
            exact Nat.le_trans (Nat.le_add_right _ _) (le_digitsFrom (by decide))
          rw [if_neg (by omega)]
          exact inductionHypothesis
            (fun other isMember => small other (List.mem_cons_of_mem _ isMember)) fits early

end Reading

end Literal
end WasmSandboxing
