import Mathlib.Algebra.Ring.Nat
import Mathlib.Data.Nat.Basic

namespace WasmSandboxing
namespace Literal

/-!
# Integer literals

`ParseUint64`, `ParseInt64` and `ParseInt32` of `literal.cc`.  A failed parse is
`none`.  Reading a sign at the end of an empty text finds the character behind
it; the parse fails there whatever that character is.
-/

/-! ## The source's functions -/

/-- The offset of a character in a range of characters. -/
def within (first last c : Char) : Option Nat :=
  if first.toNat ≤ c.toNat ∧ c.toNat ≤ last.toNat then some (c.toNat - first.toNat) else none

/-- The offsets up to six from a letter are digits. -/
def parseHexdigit (c : Char) : Option Nat :=
  (within '0' '9' c).or
    (((within 'a' 'g' c).map (10 + ·)).or ((within 'A' 'G' c).map (10 + ·)))

inductive Radix where
  | decimal | hex
  deriving DecidableEq, Repr

def Radix.base : Radix -> Nat
  | decimal => 10
  | hex => 16

def Radix.parseDigit : Radix -> Char -> Option Nat
  | decimal => within '0' '9'
  | hex => parseHexdigit

/-- The loop over the digits, with the check for overflow. -/
def accumulate (radix : Radix) : BitVec 64 -> List Char -> Option (BitVec 64)
  | value, [] => some value
  | oldValue, c :: rest =>
      if c = '_' then accumulate radix oldValue rest
      else do
        let digit <- radix.parseDigit c
        let value := oldValue * BitVec.ofNat 64 radix.base + BitVec.ofNat 64 digit
        if value.ult oldValue then none else accumulate radix value rest

/-- A text with its radix. -/
def numeralOf : List Char -> Radix × List Char
  | '0' :: 'x' :: rest => (.hex, rest)
  | text => (.decimal, text)

def parseUint64 (text : List Char) : Option (BitVec 64) :=
  if (numeralOf text).2 = [] then none else accumulate (numeralOf text).1 0 (numeralOf text).2

inductive ParseIntType where
  | unsignedOnly | signedAndUnsigned
  deriving DecidableEq, Repr

/-- Whether the text has a minus, and what is behind its sign. -/
def takeSign (parseType : ParseIntType) (text : List Char) : Option (Bool × List Char) :=
  match text with
  | '-' :: rest => if parseType = .unsignedOnly then none else some (true, rest)
  | '+' :: rest => if parseType = .unsignedOnly then none else some (false, rest)
  | _ => some (false, text)

def parseInt64 (parseType : ParseIntType) (text : List Char) : Option (BitVec 64) := do
  let (hasSign, rest) <- takeSign parseType text
  let value <- parseUint64 rest
  if hasSign then
    -- abs(INT64_MIN) == INT64_MAX + 1.
    if (0x7fffffffffffffff + 1 : BitVec 64).ult value then none
    else some (0xffffffffffffffff - value + 1)
  else
    some value

def parseInt32 (parseType : ParseIntType) (text : List Char) : Option (BitVec 32) := do
  let (hasSign, rest) <- takeSign parseType text
  let value <- parseUint64 rest
  if hasSign then
    -- abs(INT32_MIN) == INT32_MAX + 1.
    if (0x7fffffff + 1 : BitVec 64).ult value then none
    else some ((0xffffffff - value + 1).setWidth 32)
  else if (0xffffffff : BitVec 64).ult value then none
  else some (value.setWidth 32)

/-! ## What a numeral means -/

/-- The digits of the text format. -/
def Radix.digit (radix : Radix) (c : Char) : Option Nat :=
  match radix with
  | decimal => within '0' '9' c
  | hex => (within '0' '9' c).or
      (((within 'a' 'f' c).map (10 + ·)).or ((within 'A' 'F' c).map (10 + ·)))

/-- The number of digits behind one that is read already, wherever underscores stand. -/
def valueFrom (radix : Radix) : Nat -> List Char -> Option Nat
  | value, [] => some value
  | value, c :: rest =>
      if c = '_' then valueFrom radix value rest
      else (radix.digit c).bind fun digit => valueFrom radix (value * radix.base + digit) rest

/-- The number of a text, if there is something behind the radix and it is all
digits and underscores. -/
def numeralValue (text : List Char) : Option Nat :=
  if (numeralOf text).2 = [] then none else valueFrom (numeralOf text).1 0 (numeralOf text).2

/-- Underscores stand only between two digits. -/
def SeparatesDigits (text : List Char) : Prop :=
  forall front back, text = front ++ '_' :: back ->
    (exists c, front.getLast? = some c ∧ c ≠ '_') ∧ exists c, back.head? = some c ∧ c ≠ '_'

/-- A numeral of the text format. -/
def IsNumeral (text : List Char) (number : Nat) : Prop :=
  numeralValue text = some number ∧ SeparatesDigits (numeralOf text).2

theorem separatesDigits_of_notMem {text : List Char} (without : '_' ∉ text) :
    SeparatesDigits text :=
  fun front _back same => absurd (same ▸ List.mem_append_right front List.mem_cons_self) without

/-! ## The loop -/

section Loop

variable {radix : Radix} {value number : Nat} {text front rest : List Char} {c : Char}

theorem within_shrink {first last next : Char} (follows : next.toNat = last.toNat + 1)
    (differs : c ≠ next) : within first next c = within first last c := by
  have apart : c.toNat ≠ next.toNat := fun same => differs (Char.toNat_inj.mp same)
  rw [within, within]
  congr 1
  exact propext (by omega)

/-- Apart from the letter behind the last digit, a digit is one of the text format. -/
theorem parseDigit_eq (noG : radix = .hex -> c ≠ 'g' ∧ c ≠ 'G') :
    radix.parseDigit c = radix.digit c := by
  cases radix with
  | decimal => rfl
  | hex =>
      have lower : within 'a' 'g' c = within 'a' 'f' c := within_shrink rfl (noG rfl).1
      have upper : within 'A' 'G' c = within 'A' 'F' c := within_shrink rfl (noG rfl).2
      rw [Radix.parseDigit, parseHexdigit, lower, upper]
      rfl

theorem parseDigit_of_digit {digit : Nat} (isDigit : radix.digit c = some digit) :
    radix.parseDigit c = some digit := by
  rw [← isDigit]
  refine parseDigit_eq fun isHex => ⟨?_, ?_⟩
  · rintro rfl
    rw [isHex] at isDigit
    cases isDigit
  · rintro rfl
    rw [isHex] at isDigit
    cases isDigit

theorem valueFrom_append (radix : Radix) (value : Nat) (front rest : List Char) :
    valueFrom radix value (front ++ rest) =
      (valueFrom radix value front).bind fun value => valueFrom radix value rest := by
  induction front generalizing value with
  | nil => rfl
  | cons c front inductionHypothesis =>
      rw [List.cons_append, valueFrom, valueFrom]
      split
      · exact inductionHypothesis value
      · cases radix.digit c with
        | none => rfl
        | some digit => exact inductionHypothesis _

/-- The next accumulator, as a number. -/
theorem next_toNat (radix : Radix) (value : BitVec 64) (digit : Nat) :
    (value * BitVec.ofNat 64 radix.base + BitVec.ofNat 64 digit).toNat =
      (value.toNat * radix.base + digit) % 2 ^ 64 := by
  rw [BitVec.toNat_add, BitVec.toNat_mul, BitVec.toNat_ofNat, BitVec.toNat_ofNat,
    Nat.add_mod_mod, Nat.mod_add_mod, Nat.add_mod, Nat.mul_mod_mod, ← Nat.add_mod]

theorem accumulate_digit {oldValue : BitVec 64} {digit : Nat} (notSeparator : c ≠ '_')
    (isDigit : radix.digit c = some digit) :
    accumulate radix oldValue (c :: rest) =
      if (oldValue.toNat * radix.base + digit) % 2 ^ 64 < oldValue.toNat then none
      else accumulate radix (oldValue * BitVec.ofNat 64 radix.base + BitVec.ofNat 64 digit) rest := by
  rw [accumulate, if_neg notSeparator, parseDigit_of_digit isDigit, Option.bind_eq_bind,
    Option.bind_some]
  dsimp only
  simp only [BitVec.ult_eq_decide, next_toNat, decide_eq_true_eq]

/-- Some digit takes the 64 bits of the number below those of the number before it. -/
def Wraps (radix : Radix) (value : Nat) (text : List Char) : Prop :=
  exists front c rest before digit, text = front ++ c :: rest ∧ c ≠ '_' ∧
    valueFrom radix value front = some before ∧ radix.digit c = some digit ∧
      (before * radix.base + digit) % 2 ^ 64 < before % 2 ^ 64

theorem step_mod (value base digit unit : Nat) :
    (value % unit * base + digit) % unit = (value * base + digit) % unit := by
  rw [Nat.add_mod, Nat.mul_mod, Nat.mod_mod, ← Nat.mul_mod, ← Nat.add_mod]

theorem le_of_within {first last : Char} {offset : Nat} (found : within first last c = some offset) :
    offset ≤ last.toNat - first.toNat := by
  rw [within] at found
  split at found
  · rename_i inRange
    have isOffset := Option.some.inj found
    omega
  · cases found

theorem digit_lt {digit : Nat} (isDigit : radix.digit c = some digit) :
    digit < radix.base := by
  cases radix with
  | decimal => exact Nat.lt_succ_of_le (le_of_within isDigit)
  | hex =>
      rcases Option.or_eq_some_iff.mp isDigit with decimal | ⟨_, letter⟩
      · exact Nat.lt_of_le_of_lt (le_of_within decimal) (by decide)
      · rcases Option.or_eq_some_iff.mp letter with lower | ⟨_, upper⟩
        · rcases Option.map_eq_some_iff.mp lower with ⟨offset, found, rfl⟩
          exact Nat.add_lt_of_lt_sub' (Nat.lt_succ_of_le (le_of_within found))
        · rcases Option.map_eq_some_iff.mp upper with ⟨offset, found, rfl⟩
          exact Nat.add_lt_of_lt_sub' (Nat.lt_succ_of_le (le_of_within found))

/-- What the loop comes to is the number, up to the bits that were lost. -/
theorem accumulate_toNat {oldValue result : BitVec 64} (same : oldValue.toNat = value % 2 ^ 64)
    (found : valueFrom radix value text = some number)
    (accumulated : accumulate radix oldValue text = some result) :
    result.toNat = number % 2 ^ 64 := by
  induction text generalizing value oldValue with
  | nil => rw [← Option.some.inj accumulated, ← Option.some.inj found, same]
  | cons c rest inductionHypothesis =>
      rw [valueFrom] at found
      by_cases separator : c = '_'
      · rw [if_pos separator] at found
        rw [accumulate, if_pos separator] at accumulated
        exact inductionHypothesis same found accumulated
      · rw [if_neg separator] at found
        rcases Option.bind_eq_some_iff.mp found with ⟨digit, isDigit, found⟩
        rw [accumulate_digit separator isDigit] at accumulated
        split at accumulated
        · cases accumulated
        · refine inductionHypothesis ?_ found accumulated
          rw [next_toNat, same, step_mod]

/-- Where bits were lost unseen, the accumulator is large from then on. -/
theorem accumulate_large {oldValue result : BitVec 64} (same : oldValue.toNat = value % 2 ^ 64)
    (found : valueFrom radix value text = some number)
    (accumulated : accumulate radix oldValue text = some result)
    (before : value < 2 ^ 64 ∨ 2 ^ 59 ≤ oldValue.toNat) :
    number < 2 ^ 64 ∨ 2 ^ 59 ≤ result.toNat := by
  induction text generalizing value oldValue with
  | nil =>
      rw [← Option.some.inj accumulated, ← Option.some.inj found]
      exact before
  | cons c rest inductionHypothesis =>
      rw [valueFrom] at found
      by_cases separator : c = '_'
      · rw [if_pos separator] at found
        rw [accumulate, if_pos separator] at accumulated
        exact inductionHypothesis same found accumulated before
      · rw [if_neg separator] at found
        rcases Option.bind_eq_some_iff.mp found with ⟨digit, isDigit, found⟩
        have below := digit_lt isDigit
        have base : radix.base ≤ 16 := by cases radix <;> decide
        have product : value * radix.base ≤ value * 16 := Nat.mul_le_mul_left value base
        have next := next_toNat radix oldValue digit
        have lost : (oldValue.toNat * radix.base + digit) % 2 ^ 64 =
            (value * radix.base + digit) % 2 ^ 64 := by rw [same, step_mod]
        rw [accumulate_digit separator isDigit] at accumulated
        split at accumulated
        · cases accumulated
        · rename_i grows
          refine inductionHypothesis (next.trans lost) found accumulated ?_
          rw [next]
          omega

end Loop

/-! ## The parsers -/

/-- The numbers that a sign and a type allow. -/
def Permitted (width : Nat) (negative : Bool) (number : Nat) : Prop :=
  if negative then number ≤ 2 ^ (width - 1) else number < 2 ^ width

instance (width : Nat) (negative : Bool) (number : Nat) :
    Decidable (Permitted width negative number) :=
  inferInstanceAs (Decidable (if negative = true then _ else _))

section Parsers

variable {text : List Char} {number : Nat}

theorem parseUint64_toNat {value : BitVec 64} (found : numeralValue text = some number)
    (parsed : parseUint64 text = some value) : value.toNat = number % 2 ^ 64 := by
  rw [numeralValue] at found
  rw [parseUint64] at parsed
  split at found
  · cases found
  · rw [if_neg ‹_›] at parsed
    exact accumulate_toNat rfl found parsed

/-- A small result is the number itself. -/
theorem parseUint64_small {value : BitVec 64} (found : numeralValue text = some number)
    (parsed : parseUint64 text = some value) (small : value.toNat < 2 ^ 59) :
    value.toNat = number := by
  have low := parseUint64_toNat found parsed
  rw [numeralValue] at found
  rw [parseUint64] at parsed
  split at found
  · cases found
  · rw [if_neg ‹_›] at parsed
    rcases accumulate_large rfl found parsed (Or.inl (by decide)) with fits | large
    · rw [low, Nat.mod_eq_of_lt fits]
    · exact absurd large (Nat.not_le.mpr small)

/-- A numeral has no sign. -/
theorem takeSign_numeral (parseType : ParseIntType) (found : numeralValue text = some number) :
    takeSign parseType text = some (false, text) := by
  unfold takeSign
  split
  · cases found
  · cases found
  · rfl

/-- A numeral that is read into 64 bits is read as it is without a sign. -/
theorem parseInt64_numeral (parseType : ParseIntType) (found : numeralValue text = some number) :
    parseInt64 parseType text = parseUint64 text := by
  rw [parseInt64, takeSign_numeral parseType found]
  exact Option.bind_fun_some _

def finish32 (hasSign : Bool) (value : BitVec 64) : Option (BitVec 32) :=
  if hasSign then
    if (0x7fffffff + 1 : BitVec 64).ult value then none
    else some ((0xffffffff - value + 1).setWidth 32)
  else if (0xffffffff : BitVec 64).ult value then none
  else some (value.setWidth 32)

/-- A numeral that is read into 32 bits is not changed. -/
theorem parseInt32_numeral {parseType : ParseIntType} {value : BitVec 32}
    (found : numeralValue text = some number) (parsed : parseInt32 parseType text = some value) :
    value.toNat = number := by
  have parses : parseInt32 parseType text = (takeSign parseType text).bind fun signed =>
      (parseUint64 signed.2).bind fun value => finish32 signed.1 value := rfl
  rw [parses, takeSign_numeral parseType found, Option.bind_some] at parsed
  rcases Option.bind_eq_some_iff.mp parsed with ⟨wide, isWide, finished⟩
  simp only [finish32, Bool.false_eq_true, if_false, BitVec.ult_eq_decide, decide_eq_true_eq]
    at finished
  split at finished
  · cases finished
  · rename_i small
    have below : wide.toNat ≤ 0xffffffff := Nat.le_of_not_lt small
    rw [← Option.some.inj finished, BitVec.toNat_setWidth, Nat.mod_eq_of_lt (by omega)]
    exact parseUint64_small found isWide (by omega)

end Parsers

end Literal
end WasmSandboxing
