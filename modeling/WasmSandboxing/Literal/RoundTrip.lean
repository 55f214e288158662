import WasmSandboxing.Literal.Nybbles

namespace WasmSandboxing
namespace Literal

open Foundation FloatTraits

/-!
# From bits to text and back

Each pattern of bits is a zero, a normal or a subnormal number, an infinity or
a NaN.  The writer's text of it fits in the buffer, and the parser gives its
bits for it.
-/

/-! ## The exponent -/

section Exponent

variable {traits : FloatTraits}

/-- The digits that the writer has for an exponent. -/
def decimals (number : Nat) : List Nat :=
  (if 1000 ≤ number then [1] else []) ++
    ((if 100 ≤ number then [number / 100 % 10] else []) ++
      ((if 10 ≤ number then [number / 10 % 10] else []) ++ [number % 10]))

def exponentText (exp : Int) : List Char :=
  (if exp < 0 then '-' else '+') :: (decimals exp.natAbs).map decimalDigit

theorem decimals_small (number : Nat) : forall digit, digit ∈ decimals number -> digit < 10 := by
  intro digit isMember
  rw [decimals] at isMember
  split_ifs at isMember <;> simp only [List.cons_append, List.nil_append, List.mem_cons,
    List.not_mem_nil, or_false] at isMember <;> omega

theorem length_decimals_le (number : Nat) : (decimals number).length ≤ 4 := by
  rw [decimals]
  split_ifs <;> simp only [List.length_append, List.length_singleton, List.length_nil] <;> omega

theorem digitsFrom_decimals {number : Nat} (small : number < 2000) :
    digitsFrom 10 0 (decimals number) = number := by
  rw [decimals]
  split_ifs <;> simp only [List.cons_append, List.nil_append, digitsFrom_cons, digitsFrom_nil] <;>
    omega

theorem putIf_eq {buffer : List Char} (room : buffer.length < traits.kMaxHexBufferSize)
    (shown : Prop) [Decidable shown] (c : Char) :
    putIf traits shown c buffer = some (buffer ++ if shown then [c] else []) := by
  rw [putIf]
  split
  · exact put_eq room c
  · rw [List.append_nil]

theorem writeExponent_eq {buffer : List Char}
    (room : buffer.length + 5 ≤ traits.kMaxHexBufferSize) (exp : Int) :
    writeExponent traits exp buffer = some (buffer ++ exponentText exp) := by
  have atMost (shown : Prop) [Decidable shown] (c : Char) :
      (if shown then [c] else []).length ≤ 1 := by
    split <;> simp only [List.length_singleton, List.length_nil, Nat.le_refl, Nat.zero_le]
  have first := atMost (1000 ≤ exp.natAbs) '1'
  have second := atMost (100 ≤ exp.natAbs) (decimalDigit (exp.natAbs / 100 % 10))
  have third := atMost (10 ≤ exp.natAbs) (decimalDigit (exp.natAbs / 10 % 10))
  have mapped (shown : Prop) [Decidable shown] (digit : Nat) :
      (if shown then [digit] else []).map decimalDigit =
        if shown then [decimalDigit digit] else [] := by
    split <;> rfl
  have one : decimalDigit 1 = '1' := rfl
  rw [writeExponent, put_eq (by omega)]
  simp only [Option.bind_eq_bind, Option.bind_some]
  rw [putIf_eq (by simp only [List.length_append, List.length_singleton]; omega), Option.bind_some,
    putIf_eq (by simp only [List.length_append, List.length_singleton]; omega), Option.bind_some,
    putIf_eq (by simp only [List.length_append, List.length_singleton]; omega), Option.bind_some,
    put_eq (by simp only [List.length_append, List.length_singleton]; omega), exponentText, decimals]
  simp only [List.map_append, mapped, one, List.map_cons, List.map_nil, List.append_assoc,
    List.cons_append, List.nil_append]

/-- The parser stops nowhere in an exponent that is not too large. -/
theorem scanExponent_decimals {number : Nat} {add : Int} (small : number < 2000)
    (lower : -2 ^ 30 ≤ add) (upper : add < 2 ^ 30)
    (early : (number / 10 : Nat) + add < traits.kMaxExp) :
    scanExponent traits add ((decimals number).map decimalDigit) 0 = some (number : Int) := by
  have digits := digitsFrom_decimals small
  have scanned : scanExponent traits add ((decimals number).map decimalDigit) ((0 : Nat) : Int) =
      some ((digitsFrom 10 0 (decimals number) : Nat) : Int) :=
    scanExponent_digits (decimals_small number) (by omega) lower upper (by rw [digits]; exact early)
  rw [digits] at scanned
  exact scanned

theorem parseExponent_text {exp significandExponent : Int} (small : exp.natAbs < 2000)
    (lower : -2 ^ 20 ≤ significandExponent) (upper : significandExponent ≤ 0)
    (early : (exp.natAbs / 10 : Nat) - significandExponent < traits.kMaxExp) :
    parseExponent traits significandExponent ('p' :: exponentText exp) = some exp := by
  rw [exponentText]
  by_cases negative : exp < 0
  · have back : -((exp.natAbs : Nat) : Int) = exp := by omega
    rw [if_pos negative, parseExponent, if_pos (Or.inl rfl), int_eq (by omega) (by omega),
      Option.bind_eq_bind, Option.bind_some,
      scanExponent_decimals small (by omega) (by omega) (by omega), Option.bind_some,
      int_eq (by omega) (by omega), back]
  · have back : ((exp.natAbs : Nat) : Int) = exp := by omega
    rw [if_neg negative, parseExponent, if_pos (Or.inl rfl),
      scanExponent_decimals small (by omega) (by omega) (by omega), back]

end Exponent

/-! ## The significand -/

section Significand

variable {traits : FloatTraits}

/-- The digits behind a leading one say what a significand is. -/
structure Spells (traits : FloatTraits) (low : Nat) (digits : List Nat) : Prop where
  small : forall digit, digit ∈ digits -> digit < 16
  length : 4 * digits.length ≤ traits.kSigBits + 3
  value : digitsFrom 16 1 digits * 2 ^ traits.kSigBits =
    (2 ^ traits.kSigBits + low) * 2 ^ (4 * digits.length)

theorem Spells.bits {low : Nat} {digits : List Nat} (spells : Spells traits low digits) :
    bitLength (digitsFrom 16 1 digits) = 4 * digits.length + 1 := by
  refine bitLength_eq ?_ ?_
  · rw [digitsFrom_eq, Nat.one_mul, ← sixteen_pow]
    exact Nat.le_add_right _ _
  · have upper : digitsFrom 16 1 digits < (1 + 1) * 16 ^ digits.length := digitsFrom_lt spells.small
    rw [sixteen_pow, Nat.mul_comm, ← Nat.pow_succ] at upper
    exact upper

theorem spells_nil (traits : FloatTraits) : Spells traits 0 [] where
  small := fun _digit isMember => absurd isMember List.not_mem_nil
  length := Nat.zero_le _
  value := by
    rw [digitsFrom_nil, List.length_nil, Nat.mul_zero, Nat.pow_zero, Nat.mul_one, Nat.one_mul,
      Nat.add_zero]

theorem writeFraction_spells (lawful : traits.Lawful) {low : Nat} {buffer : List Char}
    (lowFits : low < 2 ^ traits.kSigBits)
    (room : buffer.length + (traits.kSigBits + 3) / 4 ≤ traits.kMaxHexBufferSize) :
    exists digits, Spells traits low digits ∧
      writeFraction traits (traits.kBits / 4) (low * 2 ^ (traits.kBits - traits.kSigBits)) buffer =
        some (buffer ++ digits.map hexDigit) := by
  have bits := lawful.room
  have four := lawful.nybbles
  have widthSplit : traits.kBits = traits.kSigBits + (traits.kBits - traits.kSigBits) := by omega
  have inRange : low * 2 ^ (traits.kBits - traits.kSigBits) < 2 ^ traits.kBits := by
    have scaled := Nat.mul_lt_mul_of_pos_right lowFits
      (Nat.two_pow_pos (traits.kBits - traits.kSigBits))
    rw [← Nat.pow_add, ← widthSplit] at scaled
    exact scaled
  have lowZero : 2 ^ (traits.kBits - 4 * ((traits.kSigBits + 3) / 4)) ∣
      low * 2 ^ (traits.kBits - traits.kSigBits) :=
    Nat.dvd_trans (Nat.pow_dvd_pow 2 (by omega)) (Nat.dvd_mul_left _ _)
  rcases writeFraction_eq (by omega) (show (traits.kSigBits + 3) / 4 ≤ traits.kBits / 4 by omega)
    room inRange lowZero with ⟨used, usedBound, divides, written⟩
  rcases divides with ⟨number, same⟩
  rw [Nat.mul_comm (2 ^ _) number] at same
  have total : traits.kBits - 4 * used + 4 * used = traits.kBits := by omega
  have small : number < 16 ^ used := by
    refine Nat.lt_of_mul_lt_mul_right (a := 2 ^ (traits.kBits - 4 * used)) ?_
    rw [← same, sixteen_pow, ← Nat.pow_add, Nat.add_comm (4 * used), total]
    exact inRange
  refine ⟨nybbles traits used (low * 2 ^ (traits.kBits - traits.kSigBits)),
    ⟨nybbles_small _ _ _, ?_, ?_⟩, written⟩
  · rw [length_nybbles]
    omega
  · have scaled : number * 2 ^ traits.kSigBits = low * 2 ^ (4 * used) := by
      refine Nat.eq_of_mul_eq_mul_right (Nat.two_pow_pos traits.kBits) ?_
      calc number * 2 ^ traits.kSigBits * 2 ^ traits.kBits
          = number * 2 ^ (traits.kBits - 4 * used) * 2 ^ (4 * used) * 2 ^ traits.kSigBits := by
            rw [Nat.mul_assoc number (2 ^ (traits.kBits - 4 * used)), ← Nat.pow_add, total,
              Nat.mul_right_comm]
        _ = low * 2 ^ (traits.kBits - traits.kSigBits) * 2 ^ traits.kSigBits * 2 ^ (4 * used) := by
            rw [← same, Nat.mul_right_comm]
        _ = low * 2 ^ (4 * used) * 2 ^ traits.kBits := by
            rw [Nat.mul_assoc low, ← Nat.pow_add, Nat.sub_add_cancel (by omega), Nat.mul_right_comm]
    rw [length_nybbles, same, digitsFrom_nybbles total small, Nat.one_mul, Nat.add_mul,
      Nat.add_mul, scaled, sixteen_pow, Nat.mul_comm (2 ^ _) (2 ^ traits.kSigBits)]

/-- What stands between the first digit and the `p`. -/
def fractionText (digits : Option (List Nat)) : List Char :=
  match digits with
  | none => []
  | some digits => '.' :: digits.map hexDigit

theorem scanSignificand_written (lawful : traits.Lawful) {low : Nat}
    {fraction : Option (List Nat)} (spells : Spells traits low (fraction.getD []))
    (rest : List Char) :
    scanSignificand traits ('1' :: (fractionText fraction ++ 'p' :: rest)) ⟨false, 0, 0⟩ =
      some (⟨fraction.isSome, digitsFrom 16 1 (fraction.getD []),
        -(4 * (fraction.getD []).length)⟩, 'p' :: rest) := by
  have bits := lawful.room
  have exponents := lawful.exponents
  have max := kMaxExp_eq lawful
  have widened : 2 ^ 6 ≤ 2 ^ traits.kBits := Nat.pow_le_pow_right (by decide) (by omega)
  have one : parseHexdigit '1' = some 1 := by decide
  have other : parseHexdigit 'p' = none := by decide
  have first : scanDigit traits 1 ⟨false, 0, 0⟩ = some ⟨false, 1, 0⟩ := by
    have taken : (traits.shiftLeft 0 4 + 1) % 2 ^ traits.kBits = 1 := by
      rw [shiftLeft, Nat.zero_mul, Nat.zero_mod]
      exact Nat.mod_eq_of_lt (by omega)
    rw [scanDigit]
    dsimp only
    rw [if_pos (show bitLength 0 ≤ traits.kSigPlusOneBits from Nat.zero_le _),
      if_neg Bool.false_ne_true, taken]
  have stops (scan : Scan) : scanSignificand traits ('p' :: rest) scan = some (scan, 'p' :: rest) := by
    rw [scanSignificand, if_neg (by decide), if_neg (by decide), other]
  rw [scanSignificand, if_neg (by decide), if_neg (by decide), one]
  dsimp only
  rw [first, Option.bind_some]
  cases fraction with
  | none => exact stops _
  | some digits =>
      have length := spells.length
      rw [Option.getD_some] at spells length
      have fits : (1 + 1) * 16 ^ digits.length ≤ 2 ^ (traits.kSigBits + 5) := by
        rw [sixteen_pow, Nat.mul_comm, ← Nat.pow_succ]
        exact Nat.pow_le_pow_right (by decide) (by omega)
      have dot : scanSignificand traits (fractionText (some digits) ++ 'p' :: rest) ⟨false, 1, 0⟩ =
          scanSignificand traits (digits.map hexDigit ++ 'p' :: rest) ⟨true, 1, 0⟩ := by
        rw [fractionText, List.cons_append, scanSignificand, if_neg (by decide), if_pos rfl]
      rw [dot, scanSignificand_digits lawful spells.small fits (by omega) (by decide), stops,
        Int.zero_sub]
      rfl

end Significand

/-! ## Numbers -/

section Numbers

variable {traits : FloatTraits}

def signText (sign : Bool) : List Char := if sign then ['-'] else []

theorem takeFloatSign_signText (sign : Bool) {c : Char} {rest : List Char}
    (noSign : c ≠ '-' ∧ c ≠ '+') :
    takeFloatSign (signText sign ++ c :: rest) = (sign, c :: rest) := by
  cases sign with
  | true => rfl
  | false =>
      change takeFloatSign (c :: rest) = _
      unfold takeFloatSign
      split
      · rename_i isMinus
        exact absurd (List.cons.inj isMinus).1 noSign.1
      · rename_i isPlus
        exact absurd (List.cons.inj isPlus).1 noSign.2
      · rfl

theorem parseHex_written (lawful : traits.Lawful) (sign : Bool) {low : Nat}
    {fraction : Option (List Nat)} {exp : Int} (spells : Spells traits low (fraction.getD []))
    (lower : traits.kMinExp - traits.kSigBits ≤ exp) (upper : exp ≤ traits.kMaxExp) :
    parseHex traits (signText sign ++
        '0' :: 'x' :: '1' :: (fractionText fraction ++ 'p' :: exponentText exp)) =
      roundHex traits sign (digitsFrom 16 1 (fraction.getD [])) exp := by
  have bits := lawful.room
  have length := spells.length
  have exponents := lawful.exponents
  have early := lawful.early
  have max := kMaxExp_eq lawful
  have least : traits.kMinExp = -traits.kMaxExp + 1 := rfl
  have nonzero : digitsFrom 16 1 (fraction.getD []) ≠ 0 := by
    have atLeast : 1 ≤ digitsFrom 16 1 (fraction.getD []) := le_digitsFrom (by decide)
    omega
  have parsed : parseExponent traits (-(4 * (fraction.getD []).length)) ('p' :: exponentText exp) =
      some exp :=
    parseExponent_text (by omega) (by omega) (by omega) (by omega)
  have whole : exp + (-(4 * ((fraction.getD []).length : Int)) +
      ((4 * (fraction.getD []).length + 1 : Nat) : Int) - 1) = exp := by omega
  rw [parseHex, takeFloatSign_signText sign (by decide)]
  dsimp only
  rw [if_pos (by rfl), Option.bind_eq_bind]
  change (scanSignificand traits ('1' :: (fractionText fraction ++ 'p' :: exponentText exp))
    ⟨false, 0, 0⟩).bind _ = _
  rw [scanSignificand_written lawful spells, Option.bind_some]
  dsimp only
  rw [if_neg nonzero, parsed, Option.bind_eq_bind, Option.bind_some, spells.bits,
    int_eq (by omega) (by omega), Option.bind_some, whole, int_eq (by omega) (by omega),
    Option.bind_some]

theorem parseHex_zero (lawful : traits.Lawful) (sign : Bool) :
    parseHex traits (signText sign ++ '0' :: 'x' :: '0' :: 'p' :: "+0".toList) =
      some (some (fields traits sign 0 0)) := by
  have zero : parseHexdigit '0' = some 0 := by decide
  have other : parseHexdigit 'p' = none := by decide
  have scanned : scanSignificand traits ('0' :: 'p' :: "+0".toList) ⟨false, 0, 0⟩ =
      some (⟨false, 0, 0⟩, 'p' :: "+0".toList) := by
    have taken : (traits.shiftLeft 0 4 + 0) % 2 ^ traits.kBits = 0 := by
      rw [shiftLeft, Nat.zero_mul, Nat.zero_mod, Nat.zero_mod]
    have first : scanDigit traits 0 ⟨false, 0, 0⟩ = some ⟨false, 0, 0⟩ := by
      rw [scanDigit]
      dsimp only
      rw [if_pos (show bitLength 0 ≤ traits.kSigPlusOneBits from Nat.zero_le _),
        if_neg Bool.false_ne_true, taken]
    rw [scanSignificand, if_neg (by decide), if_neg (by decide), zero]
    dsimp only
    rw [first, Option.bind_some, scanSignificand, if_neg (by decide), if_neg (by decide), other]
  rw [parseHex, takeFloatSign_signText sign (by decide)]
  dsimp only
  rw [if_pos (by rfl), Option.bind_eq_bind]
  change (scanSignificand traits ('0' :: 'p' :: "+0".toList) ⟨false, 0, 0⟩).bind _ = _
  rw [scanned, Option.bind_some]
  dsimp only
  rw [if_pos rfl, make_zero lawful, Option.map_some]

/-- A normal number. -/
theorem roundHex_spelled (lawful : traits.Lawful) (sign : Bool) {low field : Nat}
    {digits : List Nat} {exp : Int} (spells : Spells traits low digits)
    (lowFits : low < 2 ^ traits.kSigBits) (isField : exp + traits.kExpBias = field)
    (isNormal : traits.kMinExp < exp) (isFinite : exp < traits.kMaxExp) :
    roundHex traits sign (digitsFrom 16 1 digits) exp = some (some (fields traits sign field low)) := by
  have bits := lawful.room
  have length := spells.length
  refine roundHex_normal lawful ?_ ?_ lowFits isField isNormal isFinite
  · rw [spells.bits]
    omega
  · rw [spells.bits, kSigPlusOneBits, Nat.pow_succ, ← Nat.mul_assoc, spells.value, Nat.mul_assoc,
      ← Nat.pow_succ]

theorem bitLength_mul {number : Nat} (positive : 0 < number) (shift : Nat) :
    bitLength (number * 2 ^ shift) = bitLength number + shift := by
  rcases Nat.exists_eq_add_of_lt (Nat.zero_lt_of_ne_zero
    (show bitLength number ≠ 0 by rw [bitLength, if_neg (Nat.ne_of_gt positive)]; omega))
    with ⟨bound, length⟩
  rw [Nat.zero_add] at length
  have lower : 2 ^ bound ≤ number := (lt_bitLength_iff _ _).mp (by omega)
  have upper : number < 2 ^ (bound + 1) := (bitLength_le_iff _ _).mp (by omega)
  have total : bitLength (number * 2 ^ shift) = bound + shift + 1 := by
    refine bitLength_eq ?_ ?_
    · rw [Nat.pow_add]
      exact Nat.mul_le_mul_right _ lower
    · have same : bound + shift + 1 = bound + 1 + shift := by omega
      rw [same, Nat.pow_add]
      exact Nat.mul_lt_mul_of_pos_right upper (Nat.two_pow_pos _)
  omega

theorem writeSignificand_normal (lawful : traits.Lawful) {low : Nat} {exp : Int}
    {buffer : List Char} (lowFits : low < 2 ^ traits.kSigBits) (isNormal : exp ≠ traits.kMinExp)
    (room : buffer.length + traits.kBits / 4 ≤ traits.kMaxHexBufferSize) :
    exists fraction, Spells traits low (fraction.getD []) ∧
      writeSignificand traits exp (low * 2 ^ (traits.kBits - traits.kSigBits)) buffer =
        some (exp, buffer ++ fractionText fraction) := by
  have bits := lawful.room
  have four := lawful.nybbles
  by_cases isZero : low = 0
  · refine ⟨none, ?_, ?_⟩
    · rw [isZero]
      exact spells_nil traits
    · rw [isZero, Nat.zero_mul, writeSignificand, if_neg (not_not_intro rfl), fractionText,
        List.append_nil]
  · have behindDot : (buffer ++ ['.']).length + (traits.kSigBits + 3) / 4 ≤
        traits.kMaxHexBufferSize := by
      rw [List.length_append, List.length_singleton]
      omega
    rcases writeFraction_spells lawful lowFits behindDot with ⟨digits, spells, written⟩
    refine ⟨some digits, spells, ?_⟩
    rw [writeSignificand, if_pos (Nat.mul_ne_zero isZero (Nat.ne_of_gt (Nat.two_pow_pos _))),
      put_eq (by omega), Option.bind_eq_bind, Option.bind_some]
    rw [if_neg isNormal, if_neg isNormal, written, Option.bind_some, fractionText,
      List.append_assoc, List.singleton_append]

/-- The highest bit of a subnormal number is not written. -/
theorem writeSignificand_subnormal (lawful : traits.Lawful) {sig : Nat} {buffer : List Char}
    (sigFits : sig < 2 ^ traits.kSigBits) (positive : 0 < sig)
    (room : buffer.length + traits.kBits / 4 ≤ traits.kMaxHexBufferSize) :
    exists low digits, Spells traits low digits ∧
      2 ^ traits.kSigBits + low = sig * 2 ^ (traits.kSigBits - bitLength sig + 1) ∧
      writeSignificand traits traits.kMinExp (sig * 2 ^ (traits.kBits - traits.kSigBits)) buffer =
        some (traits.kMinExp - (traits.kSigBits - bitLength sig : Nat),
          buffer ++ fractionText (some digits)) := by
  have bits := lawful.room
  have four := lawful.nybbles
  have short : bitLength sig ≤ traits.kSigBits := (bitLength_le_iff _ _).mpr sigFits
  have one : bitLength 1 = 1 := rfl
  have length := bitLength_mul positive (traits.kSigBits - bitLength sig + 1)
  generalize shifted : sig * 2 ^ (traits.kSigBits - bitLength sig + 1) = whole at length
  have lower : 2 ^ traits.kSigBits ≤ whole := (lt_bitLength_iff _ _).mp (by omega)
  have upper : whole < 2 ^ (traits.kSigBits + 1) := (bitLength_le_iff _ _).mp (by omega)
  rw [Nat.pow_succ] at upper
  have leading : traits.clz (sig * 2 ^ (traits.kBits - traits.kSigBits)) =
      traits.kSigBits - bitLength sig := by
    rw [clz, bitLength_mul positive]
    omega
  have moved : traits.shiftLeft (sig * 2 ^ (traits.kBits - traits.kSigBits))
      (traits.kSigBits - bitLength sig + 1) =
        whole % 2 ^ traits.kSigBits * 2 ^ (traits.kBits - traits.kSigBits) := by
    have width : traits.kBits = traits.kSigBits + (traits.kBits - traits.kSigBits) := by omega
    rw [shiftLeft, Nat.mul_right_comm, shifted, ← Nat.mul_mod_mul_right, ← Nat.pow_add, ← width]
  have behindDot : (buffer ++ ['.']).length + (traits.kSigBits + 3) / 4 ≤
      traits.kMaxHexBufferSize := by
    rw [List.length_append, List.length_singleton]
    omega
  rcases writeFraction_spells lawful (Nat.mod_lt whole (Nat.two_pow_pos traits.kSigBits)) behindDot
    with ⟨digits, spells, written⟩
  refine ⟨_, digits, spells, ?_, ?_⟩
  · rw [Nat.mod_eq_sub_mod lower, Nat.mod_eq_of_lt (by omega)]
    omega
  · rw [writeSignificand, if_pos (Nat.mul_ne_zero (Nat.ne_of_gt positive)
      (Nat.ne_of_gt (Nat.two_pow_pos _))), put_eq (by omega), Option.bind_eq_bind, Option.bind_some]
    rw [if_pos rfl, if_pos rfl, leading, if_pos (by rw [kSignShift]; omega), moved, written,
      Option.bind_some, fractionText, List.append_assoc, List.singleton_append]

theorem strcpy_eq {text buffer : List Char}
    (room : buffer.length + text.length < traits.kMaxHexBufferSize) :
    strcpy traits text buffer = some (buffer ++ text) :=
  if_pos room

theorem length_signText_le (sign : Bool) : (signText sign).length ≤ 1 := by
  cases sign <;> decide

theorem length_exponentText_le (exp : Int) : (exponentText exp).length ≤ 5 := by
  rw [exponentText, List.length_cons, List.length_map]
  exact Nat.succ_le_succ (length_decimals_le _)

theorem length_fractionText_le {low : Nat} {fraction : Option (List Nat)}
    (spells : Spells traits low (fraction.getD [])) :
    (fractionText fraction).length ≤ 1 + (traits.kSigBits + 3) / 4 := by
  have length := spells.length
  cases fraction with
  | none => exact Nat.zero_le _
  | some digits =>
      rw [Option.getD_some] at length
      rw [fractionText, List.length_cons, List.length_map]
      omega

theorem writeNumber_eq (lawful : traits.Lawful) (sign : Bool) {exp written : Int} {low sig : Nat}
    {fraction : Option (List Nat)} (spells : Spells traits low (fraction.getD []))
    (notZero : ¬ (sig = 0 ∧ exp = traits.kMinExp)) (sigFits : sig < 2 ^ traits.kSigBits)
    (significand : writeSignificand traits exp (sig * 2 ^ (traits.kBits - traits.kSigBits))
      (signText sign ++ "0x1".toList) = some (written, signText sign ++ "0x1".toList ++
        fractionText fraction)) :
    exists text, text = signText sign ++
        '0' :: 'x' :: '1' :: (fractionText fraction ++ 'p' :: exponentText written) ∧
      writeNumber traits exp sig (signText sign) = some text ∧
      text.length < traits.kMaxHexBufferSize := by
  have bits := lawful.room
  have four := lawful.nybbles
  have buffer := lawful.buffer
  have signLength := length_signText_le sign
  have fractionLength := length_fractionText_le spells
  have exponentLength := length_exponentText_le written
  have lead : (['0', 'x'] : List Char).length = 2 := rfl
  have one : ("0x1".toList : List Char).length = 3 := rfl
  have joined : signText sign ++ "0x".toList ++ ['1'] = signText sign ++ "0x1".toList :=
    List.append_assoc _ _ _
  have width : traits.kBits = traits.kSigBits + (traits.kBits - traits.kSigBits) := by omega
  have scaled : traits.shiftLeft sig (traits.kBits - traits.kSigBits) =
      sig * 2 ^ (traits.kBits - traits.kSigBits) := by
    refine shiftLeft_exact ?_
    have below := Nat.mul_lt_mul_of_pos_right sigFits
      (Nat.two_pow_pos (traits.kBits - traits.kSigBits))
    rw [← Nat.pow_add, ← width] at below
    exact below
  refine ⟨_, rfl, ?_, ?_⟩
  · rw [writeNumber, strcpy_eq (by rw [show ("0x".toList : List Char).length = 2 from rfl]; omega)]
    simp only [Option.bind_eq_bind, Option.bind_some]
    rw [if_neg (by rw [decide_eq_true_eq]; exact notZero), put_eq (by
      rw [List.length_append, show ("0x".toList : List Char).length = 2 from rfl]; omega)]
    rw [Option.bind_some, joined, scaled, significand, Option.bind_some]
    dsimp only
    rw [put_eq (by simp only [List.length_append, one]; omega), Option.bind_some,
      if_neg (by rw [decide_eq_true_eq]; exact notZero), writeExponent_eq (by
        simp only [List.length_append, one, List.length_singleton]; omega)]
    simp only [List.append_assoc, List.singleton_append]
    rfl
  · simp only [List.length_append, List.length_cons]
    omega

end Numbers

/-! ## Every pattern of bits -/

section Patterns

variable {traits : FloatTraits}

/-- The type that a text of the writer has behind its sign. -/
def literalType (text : List Char) : LiteralType :=
  match (takeFloatSign text).2 with
  | 'i' :: _ => .infinity
  | 'n' :: _ => .nan
  | _ => .hexfloat

/-- A text that fits in the writer's buffer, and that the parser takes back. -/
def RoundTrips (traits : FloatTraits) (text : List Char) (bits : Nat) : Prop :=
  text.length < traits.kMaxHexBufferSize ∧ parse traits (literalType text) text = some (some bits)

theorem literalType_number (sign : Bool) (rest : List Char) :
    literalType (signText sign ++ '0' :: rest) = .hexfloat := by
  cases sign <;> rfl

theorem RoundTrips.of_number {sign : Bool} {rest text : List Char} {bits : Nat}
    (shape : text = signText sign ++ '0' :: rest) (short : text.length < traits.kMaxHexBufferSize)
    (parsed : parseHex traits text = some (some bits)) : RoundTrips traits text bits := by
  refine ⟨short, ?_⟩
  rw [shape, literalType_number, ← shape]
  exact parsed

theorem zero_roundTrips (lawful : traits.Lawful) (sign : Bool) :
    exists text, writeNumber traits traits.kMinExp 0 (signText sign) = some text ∧
      RoundTrips traits text (fields traits sign 0 0) := by
  have buffer := lawful.buffer
  have signLength := length_signText_le sign
  refine ⟨signText sign ++ '0' :: 'x' :: '0' :: 'p' :: "+0".toList, ?_,
    RoundTrips.of_number rfl ?_ (parseHex_zero lawful sign)⟩
  · have two : ("0x".toList : List Char).length = 2 := rfl
    have zero : traits.shiftLeft 0 (traits.kBits - traits.kSigBits) = 0 := by
      rw [shiftLeft, Nat.zero_mul, Nat.zero_mod]
    rw [writeNumber, strcpy_eq (by omega)]
    simp only [Option.bind_eq_bind, Option.bind_some]
    rw [if_pos (by decide), put_eq (by rw [List.length_append]; omega), Option.bind_some, zero,
      writeSignificand, if_neg (not_not_intro rfl), Option.bind_some]
    dsimp only
    rw [put_eq (by simp only [List.length_append, two, List.length_singleton]; omega),
      Option.bind_some, if_pos (by decide), strcpy_eq (by
        simp only [List.length_append, two, List.length_singleton,
          show ("+0".toList : List Char).length = 2 from rfl]
        omega)]
    simp only [List.append_assoc]
    rfl
  · rw [List.length_append, show
      ('0' :: 'x' :: '0' :: 'p' :: "+0".toList : List Char).length = 6 from rfl]
    omega

theorem normal_roundTrips (lawful : traits.Lawful) (sign : Bool) {field sig : Nat} {exp : Int}
    (sigFits : sig < 2 ^ traits.kSigBits) (isField : exp + traits.kExpBias = field)
    (isNormal : traits.kMinExp < exp) (isFinite : exp < traits.kMaxExp) :
    exists text, writeNumber traits exp sig (signText sign) = some text ∧
      RoundTrips traits text (fields traits sign field sig) := by
  have buffer := lawful.buffer
  have signLength := length_signText_le sign
  have room : (signText sign ++ "0x1".toList).length + traits.kBits / 4 ≤
      traits.kMaxHexBufferSize := by
    rw [List.length_append, show ("0x1".toList : List Char).length = 3 from rfl]
    omega
  rcases writeSignificand_normal lawful sigFits (Int.ne_of_gt isNormal) room with
    ⟨fraction, spells, significand⟩
  rcases writeNumber_eq lawful sign spells (fun both => Int.ne_of_gt isNormal both.2) sigFits
    significand with ⟨text, shape, written, short⟩
  refine ⟨text, written, RoundTrips.of_number shape short ?_⟩
  rw [shape, parseHex_written lawful sign spells (by omega) (by omega)]
  exact roundHex_spelled lawful sign spells sigFits isField isNormal isFinite

theorem subnormal_roundTrips (lawful : traits.Lawful) (sign : Bool) {sig : Nat}
    (sigFits : sig < 2 ^ traits.kSigBits) (positive : 0 < sig) :
    exists text, writeNumber traits traits.kMinExp sig (signText sign) = some text ∧
      RoundTrips traits text (fields traits sign 0 sig) := by
  have bits := lawful.room
  have buffer := lawful.buffer
  have signLength := length_signText_le sign
  have room : (signText sign ++ "0x1".toList).length + traits.kBits / 4 ≤
      traits.kMaxHexBufferSize := by
    rw [List.length_append, show ("0x1".toList : List Char).length = 3 from rfl]
    omega
  have short : bitLength sig ≤ traits.kSigBits := (bitLength_le_iff _ _).mpr sigFits
  have nonzero : 0 < bitLength sig := (lt_bitLength_iff _ _).mpr positive
  rcases writeSignificand_subnormal lawful sigFits positive room with
    ⟨low, digits, spells, whole, significand⟩
  have spelled : Spells traits low ((some digits).getD []) := spells
  rcases writeNumber_eq lawful sign spelled (fun both => Nat.ne_of_gt positive both.1) sigFits
    significand with ⟨text, shape, written, fits⟩
  refine ⟨text, written, RoundTrips.of_number shape fits ?_⟩
  have max := kMaxExp_eq lawful
  have least : traits.kMinExp = -traits.kMaxExp + 1 := rfl
  have length := spells.length
  rw [shape, parseHex_written lawful sign spelled (by omega) (by omega),
    Option.getD_some]
  refine roundHex_subnormal lawful ?_ ?_ sigFits positive rfl (by omega)
  · rw [spells.bits]
    omega
  · rw [spells.bits, spells.value, whole, Nat.pow_succ, Nat.pow_succ, Nat.mul_assoc, Nat.mul_assoc,
      Nat.mul_assoc, Nat.mul_comm 2]

theorem kMaxExp_field (lawful : traits.Lawful) :
    traits.kMaxExp + traits.kExpBias = ((2 ^ traits.kExpBits - 1 : Nat) : Int) := by
  have max := kMaxExp_eq lawful
  have positive := Nat.two_pow_pos traits.kExpBits
  have least : traits.kMinExp = -traits.kMaxExp + 1 := rfl
  have cast : ((2 ^ traits.kExpBits : Nat) : Int) = 2 ^ traits.kExpBits := by push_cast; rfl
  rw [kExpBias]
  omega

theorem make_max (lawful : traits.Lawful) (sign : Bool) {sig : Nat}
    (sigFits : sig < 2 ^ traits.kSigBits) :
    make traits sign traits.kMaxExp sig = some (fields traits sign (2 ^ traits.kExpBits - 1) sig) :=
  make_fields lawful (kMaxExp_field lawful)
    (Nat.sub_lt (Nat.two_pow_pos _) Nat.zero_lt_one) sigFits

theorem infinity_roundTrips (lawful : traits.Lawful) (sign : Bool) :
    exists text, strcpy traits "inf".toList (signText sign) = some text ∧
      RoundTrips traits text (fields traits sign (2 ^ traits.kExpBits - 1) 0) := by
  have buffer := lawful.buffer
  have signLength := length_signText_le sign
  have three : ("inf".toList : List Char).length = 3 := rfl
  refine ⟨_, strcpy_eq (by omega), by rw [List.length_append]; omega, ?_⟩
  have isInfinity : literalType (signText sign ++ "inf".toList) = .infinity := by
    cases sign <;> rfl
  have taken : takeFloatSign (signText sign ++ "inf".toList) = (sign, "inf".toList) := by
    cases sign <;> rfl
  rw [isInfinity]
  change parseInfinity traits _ = _
  rw [parseInfinity, taken]
  dsimp only
  rw [if_pos (by decide), make_max lawful sign (Nat.two_pow_pos _), Option.map_some]

theorem literalType_nan (sign : Bool) (rest : List Char) :
    literalType (signText sign ++ 'n' :: rest) = .nan := by
  cases sign <;> rfl

theorem quiet_roundTrips (lawful : traits.Lawful) (sign : Bool) :
    exists text, writeTag traits traits.kQuietNanTag (signText sign) = some text ∧
      RoundTrips traits text (fields traits sign (2 ^ traits.kExpBits - 1) traits.kQuietNanTag) := by
  have buffer := lawful.buffer
  have signLength := length_signText_le sign
  have three : ("nan".toList : List Char).length = 3 := rfl
  have isNan : literalType (signText sign ++ "nan".toList) = .nan := literalType_nan sign _
  have taken : takeFloatSign (signText sign ++ "nan".toList) = (sign, "nan".toList) := by
    cases sign <;> rfl
  have wide := lawful.sig
  have quietFits : traits.kQuietNanTag < 2 ^ traits.kSigBits :=
    Nat.pow_lt_pow_right (by decide) (by omega)
  refine ⟨signText sign ++ "nan".toList, ?_, by rw [List.length_append]; omega, ?_⟩
  · rw [writeTag, strcpy_eq (by omega), Option.bind_eq_bind, Option.bind_some, if_pos rfl]
  · rw [isNan]
    change parseNan traits _ = _
    rw [parseNan, taken]
    dsimp only
    rw [if_pos (by decide), if_pos (by rfl), make_max lawful sign quietFits, Option.map_some]

/-- The digits of a tag, all of which the buffer has room for. -/
theorem writeTag_eq (lawful : traits.Lawful) (sign : Bool) {sig : Nat}
    (sigFits : sig < 2 ^ traits.kSigBits) (positive : 0 < sig)
    (notQuiet : sig ≠ traits.kQuietNanTag) :
    exists tagDigits, (forall digit, digit ∈ tagDigits -> digit < 16) ∧
      tagDigits.length ≤ traits.kBits / 4 ∧ digitsFrom 16 0 tagDigits = sig ∧
      writeTag traits sig (signText sign) =
        some (signText sign ++ "nan".toList ++ ":0x".toList ++ tagDigits.map hexDigit) := by
  have bits := lawful.room
  have four := lawful.nybbles
  have buffer := lawful.buffer
  have signLength := length_signText_le sign
  have three : ("nan".toList : List Char).length = 3 := rfl
  have colon : (":0x".toList : List Char).length = 3 := rfl
  have below : sig < 16 ^ (traits.kBits / 4) := by
    rw [sixteen_pow, four]
    exact Nat.lt_of_lt_of_le sigFits (Nat.pow_le_pow_right (by decide) (by omega))
  rcases skipZeroes_eq (show 0 + 4 * (traits.kBits / 4) = traits.kBits by omega) below positive
    with ⟨used, usedBound, usedFits, skipped⟩
  rw [Nat.pow_zero, Nat.mul_one] at skipped
  refine ⟨nybbles traits used (sig * 2 ^ (traits.kBits - 4 * used)), nybbles_small _ _ _, ?_, ?_, ?_⟩
  · rw [length_nybbles]
    exact usedBound
  · rw [digitsFrom_nybbles (by omega) usedFits, Nat.zero_mul, Nat.zero_add]
  · have room : (signText sign ++ "nan".toList ++ ":0x".toList).length + used ≤
        traits.kMaxHexBufferSize := by
      simp only [List.length_append, three, colon]
      omega
    rw [writeTag, strcpy_eq (by omega), Option.bind_eq_bind, Option.bind_some, if_neg notQuiet,
      strcpy_eq (by simp only [List.length_append, three, colon]; omega), Option.bind_some,
      skipped]
    exact writeNybbles_eq room _

theorem nan_roundTrips (lawful : traits.Lawful) (sign : Bool) {sig : Nat}
    (sigFits : sig < 2 ^ traits.kSigBits) (positive : 0 < sig) :
    exists text, writeTag traits sig (signText sign) = some text ∧
      RoundTrips traits text (fields traits sign (2 ^ traits.kExpBits - 1) sig) := by
  have buffer := lawful.buffer
  have signLength := length_signText_le sign
  by_cases isQuiet : sig = traits.kQuietNanTag
  · rw [isQuiet]
    exact quiet_roundTrips lawful sign
  · rcases writeTag_eq lawful sign sigFits positive isQuiet with
      ⟨tagDigits, small, length, value, written⟩
    have tag : parseTag traits 0 (tagDigits.map hexDigit) = some (digitsFrom 16 0 tagDigits) :=
      parseTag_digits lawful small (by rw [value, kSigMask]; omega)
    have shape : signText sign ++ "nan".toList ++ ":0x".toList ++ tagDigits.map hexDigit =
        signText sign ++ 'n' :: 'a' :: 'n' :: ':' :: '0' :: 'x' :: tagDigits.map hexDigit := by
      simp only [List.append_assoc]
      rfl
    refine ⟨_, written, ?_, ?_⟩
    · rw [shape]
      simp only [List.length_append, List.length_cons, List.length_map]
      omega
    · rw [shape, literalType_nan]
      change parseNan traits _ = _
      rw [parseNan, takeFloatSign_signText sign (by decide)]
      dsimp only
      rw [if_pos (by rfl), if_neg (by exact List.cons_ne_nil _ _), if_pos (by rfl)]
      change makeNan traits sign (parseTag traits 0 (tagDigits.map hexDigit)) = _
      rw [tag, value, makeNan, if_neg (Nat.ne_of_gt positive), make_max lawful sign sigFits,
        Option.map_some]

/-- The fields of a pattern are its bits. -/
theorem fields_of_bits (lawful : traits.Lawful) {bits : Nat} (inRange : bits < 2 ^ traits.kBits) :
    fields traits (decide (bits >>> traits.kSignShift ≠ 0))
      (bits >>> traits.kSigBits &&& traits.kExpMask) (bits &&& traits.kSigMask) = bits := by
  have room := lawful.room
  have top : bits / 2 ^ traits.kSignShift < 2 := by
    rw [Nat.div_lt_iff_lt_mul (Nat.two_pow_pos _), ← Nat.pow_succ', kSignShift,
      Nat.succ_eq_add_one, Nat.sub_add_cancel (by omega)]
    exact inRange
  have sign : (decide (bits / 2 ^ traits.kSignShift ≠ 0)).toNat = bits / 2 ^ traits.kSignShift := by
    rcases Nat.le_one_iff_eq_zero_or_eq_one.mp (Nat.le_of_lt_succ top) with zero | one
    · rw [zero]
      rfl
    · rw [one]
      rfl
  have lower : bits / 2 ^ traits.kSigBits % 2 ^ traits.kExpBits * 2 ^ traits.kSigBits +
      bits % 2 ^ traits.kSigBits = bits % 2 ^ traits.kSignShift := by
    rw [kExpBits_eq lawful, Nat.add_comm traits.kExpBits, Nat.pow_add, Nat.mod_mul, Nat.mul_comm,
      Nat.add_comm]
  rw [fields, Nat.shiftRight_eq_div_pow, Nat.shiftRight_eq_div_pow, sign, and_kSigMask, kExpMask,
    Nat.and_two_pow_sub_one_eq_mod, lower, Nat.mul_comm, Nat.div_add_mod]

theorem hexText_roundTrips (lawful : traits.Lawful) {bits : Nat} (inRange : bits < 2 ^ traits.kBits) :
    exists text, hexText traits bits = some text ∧ RoundTrips traits text bits := by
  have buffer := lawful.buffer
  have max := kMaxExp_eq lawful
  have least : traits.kMinExp = -traits.kMaxExp + 1 := rfl
  have bias : traits.kExpBias = -traits.kMinExp := rfl
  have same := fields_of_bits lawful inRange
  have sigFits : bits &&& traits.kSigMask < 2 ^ traits.kSigBits := by
    rw [and_kSigMask]
    exact Nat.mod_lt _ (Nat.two_pow_pos _)
  have fieldFits : bits >>> traits.kSigBits &&& traits.kExpMask < 2 ^ traits.kExpBits := by
    rw [kExpMask, Nat.and_two_pow_sub_one_eq_mod]
    exact Nat.mod_lt _ (Nat.two_pow_pos _)
  have signed : putIf traits (bits >>> traits.kSignShift ≠ 0) '-' [] =
      some (signText (decide (bits >>> traits.kSignShift ≠ 0))) := by
    rw [putIf_eq (show ([] : List Char).length < _ by rw [List.length_nil]; omega), signText]
    simp only [List.nil_append, decide_eq_true_eq]
  rw [hexText, signed, Option.bind_eq_bind, Option.bind_some]
  generalize decide (bits >>> traits.kSignShift ≠ 0) = sign at same ⊢
  generalize bits >>> traits.kSigBits &&& traits.kExpMask = field at same fieldFits ⊢
  generalize bits &&& traits.kSigMask = sig at same sigFits ⊢
  have fieldMax : ((2 ^ traits.kExpBits : Nat) : Int) = 2 ^ traits.kExpBits := by
    push_cast
    rfl
  subst same
  split
  · rename_i isMax
    have isField : field = 2 ^ traits.kExpBits - 1 := by omega
    subst isField
    split
    · rename_i zero
      rw [zero]
      exact infinity_roundTrips lawful sign
    · rename_i nonzero
      exact nan_roundTrips lawful sign sigFits (Nat.pos_of_ne_zero nonzero)
  · rename_i notMax
    rcases Nat.eq_zero_or_pos field with zero | isNormal
    · have exponent : ((0 : Nat) : Int) - traits.kExpBias = traits.kMinExp := by omega
      rw [zero, exponent]
      rcases Nat.eq_zero_or_pos sig with sigZero | positive
      · rw [sigZero]
        exact zero_roundTrips lawful sign
      · exact subnormal_roundTrips lawful sign sigFits positive
    · exact normal_roundTrips lawful sign sigFits (by omega) (by omega) (by omega)

end Patterns

/-- Whatever room the caller has, the text and the null behind it fit; in room
for the longest text, it is the text of the same bits. -/
theorem writeHex_roundTrips {traits : FloatTraits} (lawful : traits.Lawful) {bits : Nat}
    (inRange : bits < 2 ^ traits.kBits) (size : Nat) :
    (exists text, writeHex traits (size + 1) bits = some text ∧ text.length ≤ size) ∧
      exists text, writeHex traits (traits.kMaxHexBufferSize + size) bits = some text ∧
        parse traits (literalType text) text = some (some bits) := by
  have buffer := lawful.buffer
  rcases hexText_roundTrips lawful inRange with ⟨text, written, short, parsed⟩
  constructor
  · rw [writeHex, written, Option.bind_eq_bind, Option.bind_some, if_neg (Nat.succ_ne_zero _)]
    split
    · exact ⟨_, rfl, Nat.le_trans (List.length_take_le _ _) (Nat.le_refl _)⟩
    · rename_i fits
      exact ⟨text, rfl, by omega⟩
  · refine ⟨text, ?_, parsed⟩
    rw [writeHex, written, Option.bind_eq_bind, Option.bind_some, if_neg (by omega),
      if_neg (by omega)]

/-- Every pattern of bits survives its text, in whatever room. -/
theorem bits_round_trip :
    (forall (bits : BitVec 32) (size : Nat),
      (exists text, writeFloatHex (size + 1) bits = some text ∧ text.length ≤ size) ∧
        exists text, writeFloatHex (float.kMaxHexBufferSize + size) bits = some text ∧
          parseFloat (literalType text) text = some (some bits.toNat)) ∧
    forall (bits : BitVec 64) (size : Nat),
      (exists text, writeDoubleHex (size + 1) bits = some text ∧ text.length ≤ size) ∧
        exists text, writeDoubleHex (double.kMaxHexBufferSize + size) bits = some text ∧
          parseDouble (literalType text) text = some (some bits.toNat) :=
  ⟨fun bits size => writeHex_roundTrips lawful_float bits.isLt size,
    fun bits size => writeHex_roundTrips lawful_double bits.isLt size⟩

end Literal
end WasmSandboxing
