import Mathlib.Algebra.Ring.Nat
import Mathlib.Algebra.Order.Ring.Nat
import Mathlib.Tactic.Ring

namespace WasmSandboxing
namespace Foundation

/-!
# Digits, highest first

What a scanner makes of a list of digits, from a number that it has already.
-/

def digitsFrom (base value : Nat) (digits : List Nat) : Nat :=
  digits.foldl (fun value digit => value * base + digit) value

section Digits

variable {base value : Nat} {digits first second : List Nat} {digit : Nat}

@[simp] theorem digitsFrom_nil (base value : Nat) : digitsFrom base value [] = value := rfl

@[simp] theorem digitsFrom_cons (base value digit : Nat) (digits : List Nat) :
    digitsFrom base value (digit :: digits) = digitsFrom base (value * base + digit) digits := rfl

theorem digitsFrom_eq (base value : Nat) (digits : List Nat) :
    digitsFrom base value digits = value * base ^ digits.length + digitsFrom base 0 digits := by
  induction digits generalizing value with
  | nil => simp only [digitsFrom_nil, List.length_nil, pow_zero, mul_one, add_zero]
  | cons digit digits inductionHypothesis =>
      rw [digitsFrom_cons, digitsFrom_cons, inductionHypothesis,
        inductionHypothesis (0 * base + digit), List.length_cons, pow_succ]
      ring

theorem digitsFrom_lt (small : forall digit, digit ∈ digits -> digit < base) :
    digitsFrom base value digits < (value + 1) * base ^ digits.length := by
  induction digits generalizing value with
  | nil => simp only [digitsFrom_nil, List.length_nil, pow_zero, mul_one, Nat.lt_succ_self]
  | cons digit digits inductionHypothesis =>
      have below : digitsFrom base (value * base + digit) digits <
          (value * base + digit + 1) * base ^ digits.length :=
        inductionHypothesis fun other isMember => small other (List.mem_cons_of_mem _ isMember)
      have isDigit := small digit List.mem_cons_self
      rw [digitsFrom_cons, List.length_cons, pow_succ, Nat.mul_comm (base ^ _), ← Nat.mul_assoc]
      refine Nat.lt_of_lt_of_le below (Nat.mul_le_mul_right _ ?_)
      rw [Nat.add_mul, Nat.one_mul]
      omega

theorem le_digitsFrom (positive : 0 < base) : value ≤ digitsFrom base value digits := by
  rw [digitsFrom_eq]
  exact Nat.le_trans (Nat.le_mul_of_pos_right value (Nat.pow_pos positive)) (Nat.le_add_right _ _)

end Digits

end Foundation
end WasmSandboxing
