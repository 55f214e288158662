import Mathlib.Algebra.Ring.Int.Defs
import Mathlib.Tactic.Ring
import Mathlib.Tactic.Positivity

namespace WasmSandboxing
namespace Foundation

/-!
# Numbers in groups of seven bits

A code is a list of bytes of which all but the last have the high bit set; the
other seven bits are the digits of the number, lowest first.  A signed number
has the sign of the highest digit.
-/

def Leb : List (BitVec 8) -> Prop
  | [] => False
  | byte :: rest => (byte.toNat < 128 ∧ rest = []) ∨ (128 ≤ byte.toNat ∧ Leb rest)

def lebUnsigned : List (BitVec 8) -> Nat
  | [] => 0
  | byte :: rest => byte.toNat % 128 + 128 * lebUnsigned rest

/-- Seven bits as a signed number. -/
def signedDigit (byte : BitVec 8) : Int :=
  if byte.toNat % 128 < 64 then (byte.toNat % 128 : Nat) else (byte.toNat % 128 : Nat) - 128

def lebSigned : List (BitVec 8) -> Int
  | [] => 0
  | byte :: rest =>
      if rest = [] then signedDigit byte else (byte.toNat % 128 : Nat) + 128 * lebSigned rest

/-- The last byte, which holds the highest digit. -/
def topByte (code : List (BitVec 8)) : Nat :=
  (code.getLast?.getD 0).toNat

/-- A code of at most `limit` bytes; in the last of that many, only the digits
below `spare` are used. -/
structure UnsignedCode (limit spare : Nat) (code : List (BitVec 8)) : Prop where
  leb : Leb code
  short : code.length ≤ limit
  unused : code.length = limit -> topByte code < spare

/-- The same for a signed number, where the bits that are not used extend the
sign: `spare` digits are left on either side of it. -/
structure SignedCode (limit spare : Nat) (code : List (BitVec 8)) : Prop where
  leb : Leb code
  short : code.length ≤ limit
  unused : code.length = limit -> topByte code < spare ∨ 128 ≤ topByte code + spare

variable {code bytes front : List (BitVec 8)} {last : BitVec 8}

/-! ## The last byte apart -/

theorem leb_append (front : List (BitVec 8)) (last : BitVec 8) :
    Leb (front ++ [last]) ↔ (forall byte, byte ∈ front -> 128 ≤ byte.toNat) ∧ last.toNat < 128 := by
  induction front with
  | nil =>
      simp only [List.nil_append, Leb, and_true, and_false, or_false]
      exact ⟨fun low => ⟨fun _ isMember => (List.not_mem_nil isMember).elim, low⟩, And.right⟩
  | cons byte rest inductionHypothesis =>
      rw [List.cons_append, Leb, inductionHypothesis]
      constructor
      · rintro (⟨_, empty⟩ | ⟨high, others, low⟩)
        · exact absurd empty (by simp)
        · refine ⟨fun other isMember => ?_, low⟩
          rcases List.mem_cons.mp isMember with rfl | isMember
          · exact high
          · exact others other isMember
      · rintro ⟨all, low⟩
        exact .inr ⟨all byte List.mem_cons_self,
          fun other isMember => all other (List.mem_cons_of_mem _ isMember), low⟩

theorem Leb.split (leb : Leb code) : exists front last, code = front ++ [last] := by
  rcases code.eq_nil_or_concat with rfl | ⟨front, last, same⟩
  · exact leb.elim
  · exact ⟨front, last, by rw [same, List.concat_eq_append]⟩

theorem Leb.pos (leb : Leb code) : 0 < code.length := by
  rcases leb.split with ⟨front, last, rfl⟩
  rw [List.length_append, List.length_singleton]
  exact Nat.succ_pos _

@[simp] theorem topByte_append (front : List (BitVec 8)) (last : BitVec 8) :
    topByte (front ++ [last]) = last.toNat := by
  rw [topByte, List.getLast?_concat]
  rfl

theorem lebUnsigned_append (front : List (BitVec 8)) (last : BitVec 8) :
    lebUnsigned (front ++ [last]) =
      lebUnsigned front + 128 ^ front.length * (last.toNat % 128) := by
  induction front with
  | nil => simp only [List.nil_append, lebUnsigned, List.length_nil, Nat.pow_zero]; omega
  | cons byte rest inductionHypothesis =>
      rw [List.cons_append, lebUnsigned, inductionHypothesis, lebUnsigned, List.length_cons]
      ring

theorem lebSigned_append (front : List (BitVec 8)) (last : BitVec 8) :
    lebSigned (front ++ [last]) =
      (lebUnsigned front : Int) + 128 ^ front.length * signedDigit last := by
  induction front with
  | nil =>
      rw [List.nil_append, lebSigned, if_pos rfl, lebUnsigned, List.length_nil, pow_zero, one_mul]
      exact (zero_add _).symm
  | cons byte rest inductionHypothesis =>
      rw [List.cons_append, lebSigned, if_neg (by simp), inductionHypothesis, lebUnsigned,
        List.length_cons]
      push_cast
      ring

theorem lebUnsigned_lt (code : List (BitVec 8)) : lebUnsigned code < 128 ^ code.length := by
  induction code with
  | nil => exact Nat.one_pos
  | cons byte rest inductionHypothesis =>
      have digit := Nat.mod_lt byte.toNat (show 0 < 128 by decide)
      rw [lebUnsigned, List.length_cons, Nat.pow_succ]
      omega

/-- A signed number is the unsigned one, less its range where the sign is set. -/
theorem lebSigned_eq (leb : Leb code) :
    lebSigned code = if 2 * lebUnsigned code < 128 ^ code.length then (lebUnsigned code : Int)
      else (lebUnsigned code : Int) - 128 ^ code.length := by
  rcases leb.split with ⟨front, last, rfl⟩
  have lower := lebUnsigned_lt front
  have digit := Nat.mod_lt last.toNat (show 0 < 128 by decide)
  rw [lebSigned_append, lebUnsigned_append, List.length_append, List.length_singleton, pow_succ,
    pow_succ, signedDigit]
  by_cases positive : last.toNat % 128 < 64
  · have top := Nat.mul_le_mul_left (128 ^ front.length) (show last.toNat % 128 ≤ 63 by omega)
    rw [if_pos positive, if_pos (by omega)]
    push_cast
    ring
  · have top := Nat.mul_le_mul_left (128 ^ front.length) (show 64 ≤ last.toNat % 128 by omega)
    rw [if_neg positive, if_neg (by omega)]
    push_cast
    ring

theorem lebSigned_cons {byte : BitVec 8} (leb : Leb code) :
    lebSigned (byte :: code) = (byte.toNat % 128 : Nat) + 128 * lebSigned code := by
  rw [lebSigned, if_neg (List.ne_nil_of_length_pos leb.pos)]

theorem leb_singleton {byte : BitVec 8} (low : byte.toNat < 128) : Leb [byte] :=
  .inl ⟨low, rfl⟩

theorem leb_cons {byte : BitVec 8} (high : 128 ≤ byte.toNat) (leb : Leb code) : Leb (byte :: code) :=
  .inr ⟨high, leb⟩

/-! ## The bits left over in the last byte -/

theorem unused_of_lt {count spare : Nat} (leb : Leb code) (length : code.length = count + 1)
    (small : lebUnsigned code < 128 ^ count * spare) : topByte code < spare := by
  rcases leb.split with ⟨front, last, rfl⟩
  have low := ((leb_append front last).mp leb).2
  rw [List.length_append, List.length_singleton, Nat.add_right_cancel_iff] at length
  rw [lebUnsigned_append, length, Nat.mod_eq_of_lt low] at small
  rw [topByte_append]
  exact Nat.lt_of_mul_lt_mul_left (Nat.lt_of_le_of_lt (Nat.le_add_left _ _) small)

theorem unused_of_between {count spare : Nat} (leb : Leb code) (length : code.length = count + 1)
    (lower : -(128 ^ count * spare : Int) ≤ lebSigned code)
    (upper : lebSigned code < 128 ^ count * spare) :
    topByte code < spare ∨ 128 ≤ topByte code + spare := by
  rcases leb.split with ⟨front, last, rfl⟩
  have low := ((leb_append front last).mp leb).2
  have below := lebUnsigned_lt front
  rw [List.length_append, List.length_singleton, Nat.add_right_cancel_iff] at length
  rw [length] at below
  have unit : (lebUnsigned front : Int) < 128 ^ count := by exact_mod_cast below
  have positive : (0 : Int) < 128 ^ count := by positivity
  rw [lebSigned_append, length] at lower upper
  have digitUpper : signedDigit last < spare := by
    refine Int.lt_of_mul_lt_mul_left (a := 128 ^ count) ?_ (Int.le_of_lt positive)
    omega
  have digitLower : -(spare : Int) < signedDigit last + 1 := by
    refine Int.lt_of_mul_lt_mul_left (a := 128 ^ count) ?_ (Int.le_of_lt positive)
    rw [Int.mul_neg, Int.mul_add, Int.mul_one]
    omega
  rw [topByte_append]
  rw [signedDigit, Nat.mod_eq_of_lt low] at digitUpper digitLower
  split at digitUpper <;> omega

theorem UnsignedCode.lt {count spare : Nat} (isCode : UnsignedCode (count + 1) spare code)
    (some_ : 0 < spare) : lebUnsigned code < 128 ^ count * spare := by
  by_cases full : code.length = count + 1
  · have unused := isCode.unused full
    rcases isCode.leb.split with ⟨front, last, rfl⟩
    have low := ((leb_append front last).mp isCode.leb).2
    have below := lebUnsigned_lt front
    rw [List.length_append, List.length_singleton, Nat.add_right_cancel_iff] at full
    rw [topByte_append] at unused
    rw [full] at below
    rw [lebUnsigned_append, full, Nat.mod_eq_of_lt low]
    have digits := Nat.mul_le_mul_left (128 ^ count) (show last.toNat + 1 ≤ spare from unused)
    rw [Nat.mul_add, Nat.mul_one] at digits
    omega
  · have short := isCode.short
    have below := lebUnsigned_lt code
    have power := Nat.pow_le_pow_right (show 0 < 128 by decide)
      (show code.length ≤ count by omega)
    have whole := Nat.le_mul_of_pos_right (128 ^ count) some_
    omega

theorem SignedCode.between {count spare : Nat} (isCode : SignedCode (count + 1) spare code)
    (some_ : 0 < spare) (few : spare ≤ 64) : -(128 ^ count * spare : Int) ≤ lebSigned code ∧
      lebSigned code < 128 ^ count * spare := by
  by_cases full : code.length = count + 1
  · have unused := isCode.unused full
    rcases isCode.leb.split with ⟨front, last, rfl⟩
    have low := ((leb_append front last).mp isCode.leb).2
    have below := lebUnsigned_lt front
    rw [List.length_append, List.length_singleton, Nat.add_right_cancel_iff] at full
    rw [topByte_append] at unused
    rw [full] at below
    have unit : (lebUnsigned front : Int) < 128 ^ count := by exact_mod_cast below
    have positive : (0 : Int) ≤ 128 ^ count := by positivity
    have digit : -(spare : Int) ≤ signedDigit last ∧ signedDigit last + 1 ≤ spare := by
      rw [signedDigit, Nat.mod_eq_of_lt low]
      split <;> omega
    have digitLower := Int.mul_le_mul_of_nonneg_left digit.1 positive
    have digitUpper := Int.mul_le_mul_of_nonneg_left digit.2 positive
    rw [Int.mul_neg] at digitLower
    rw [Int.mul_add, Int.mul_one] at digitUpper
    rw [lebSigned_append, full]
    omega
  · have short := isCode.short
    have below := lebUnsigned_lt code
    have power := Nat.pow_le_pow_right (show 0 < 128 by decide)
      (show code.length ≤ count by omega)
    have whole := Nat.le_mul_of_pos_right (128 ^ count) some_
    have bound : ((128 ^ code.length : Nat) : Int) ≤ ((128 ^ count * spare : Nat) : Int) := by
      exact_mod_cast Nat.le_trans power whole
    push_cast at bound
    have unit : (lebUnsigned code : Int) < 128 ^ code.length := by exact_mod_cast below
    rw [lebSigned_eq isCode.leb]
    split <;> omega

/-! ## A code is found in one way only -/

theorem Leb.unique {first second : Nat} (here : Leb (bytes.take first))
    (there : Leb (bytes.take second)) (inRange : first ≤ bytes.length)
    (alsoInRange : second ≤ bytes.length) : first = second := by
  induction bytes generalizing first second with
  | nil =>
      rw [List.take_nil] at here
      exact here.elim
  | cons byte rest inductionHypothesis =>
      cases first with
      | zero => exact here.elim
      | succ first =>
          cases second with
          | zero => exact there.elim
          | succ second =>
              rw [List.take_succ_cons, Leb] at here there
              rw [List.length_cons] at inRange alsoInRange
              rcases here with ⟨low, empty⟩ | ⟨high, here⟩
              · rcases there with ⟨_, alsoEmpty⟩ | ⟨high, _⟩
                · have none_ := congrArg List.length empty
                  have alsoNone := congrArg List.length alsoEmpty
                  rw [List.length_take, List.length_nil] at none_ alsoNone
                  omega
                · omega
              · rcases there with ⟨low, _⟩ | ⟨_, there⟩
                · omega
                · rw [inductionHypothesis here there (by omega) (by omega)]

end Foundation
end WasmSandboxing
