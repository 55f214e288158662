import WasmSandboxing.Foundation.FloatOrder

namespace WasmSandboxing
namespace Foundation

/-!
# The nearest float

The magnitudes of a format up to the first that is too large stand on a grid.  A
value rounds to the nearest of them, and to the even one of two; where that is
the first one that is too large, the value overflows.
-/

namespace FloatFormat

variable (format : FloatFormat)

/-- The pattern of the magnitude that a value rounds to. -/
structure Rounds (value : ℚ) (bits : Nat) : Prop where
  inside : bits ≤ format.infinity
  nearest : forall other, other ≤ format.infinity ->
    |format.magnitude bits - value| ≤ |format.magnitude other - value|
  even : forall other, other ≤ format.infinity -> other ≠ bits ->
    |format.magnitude bits - value| = |format.magnitude other - value| -> bits % 2 = 0

/-- The exponent of the unit that a number rounds in, given that of its highest bit. -/
def binade (exponent : ℤ) : ℤ := max exponent (1 - format.bias)

variable {format} {value : ℚ} {bits low : Nat}

/-! ## There is one such pattern -/

theorem Rounds.unique {first second : Nat} (firstRounds : format.Rounds value first)
    (secondRounds : format.Rounds value second) : first = second := by
  have apart {first second : Nat} (firstRounds : format.Rounds value first)
      (secondRounds : format.Rounds value second) : ¬ first < second := by
    intro order
    have inside := Nat.lt_of_le_of_lt secondRounds.inside (infinity_lt format)
    have same : |format.magnitude first - value| = |format.magnitude second - value| :=
      le_antisymm (firstRounds.nearest second secondRounds.inside)
        (secondRounds.nearest first firstRounds.inside)
    have firstEven := firstRounds.even second secondRounds.inside (Nat.ne_of_gt order) same
    have secondEven := secondRounds.even first firstRounds.inside (Nat.ne_of_lt order) same.symm
    -- An odd pattern is between the two, and nearer than both.
    have between : first + 1 < second := by omega
    have below := magnitude_lt_succ (Nat.lt_trans between inside)
    have above := magnitude_lt_of_lt between inside
    have nearer := firstRounds.nearest (first + 1)
      (Nat.le_of_lt (Nat.lt_of_lt_of_le between secondRounds.inside))
    have larger := magnitude_lt_of_lt order inside
    rcases abs_eq_abs.mp same with equal | opposite
    · linarith
    · rw [abs_of_nonpos (by linarith), le_abs] at nearer
      rcases nearer with nearer | nearer <;> linarith
  exact Nat.le_antisymm (Nat.not_lt.mp (apart secondRounds firstRounds))
    (Nat.not_lt.mp (apart firstRounds secondRounds))

section Grid

variable {field units : Nat}

end Grid

section Scaled

variable {number : Nat} {exponent : ℤ}

end Scaled

end FloatFormat

end Foundation
end WasmSandboxing
