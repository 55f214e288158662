import WasmSandboxing.Literal.HexScanning

namespace WasmSandboxing
namespace Literal

open Foundation FloatTraits

/-!
# Rounding by the parity of the quotient

`ShiftAndRoundToNearest` tests the lowest bit that stays, not the highest that
goes: an even quotient is never rounded up, and an odd one always is where its
remainder is at least a half.  A subnormal number is rounded twice.
-/

/-- A quotient by a power of two, of which only an odd one is rounded up. -/
def roundOdd (number shift : Nat) : Nat :=
  number / 2 ^ shift +
    if number / 2 ^ shift % 2 = 1 ∧ 2 ^ shift ≤ 2 * (number % 2 ^ shift) then 1 else 0

/-- A remainder of at most a half, or an odd quotient. -/
def Nearer (number shift : Nat) : Prop :=
  number / 2 ^ shift % 2 = 1 ∨ 2 * (number % 2 ^ shift) ≤ 2 ^ shift

section Odd

variable {number low shift : Nat}

end Odd

/-! ## Twice -/

section Twice

variable {number low shift width : Nat}

/-- The first rounding has an effect. -/
def RoundsUp (number low : Nat) : Prop :=
  number / 2 ^ low % 2 = 1 ∧ 2 ^ low ≤ 2 * (number % 2 ^ low)

instance (number low : Nat) : Decidable (RoundsUp number low) :=
  inferInstanceAs (Decidable (_ ∧ _))

instance (number shift : Nat) : Decidable (Nearer number shift) :=
  inferInstanceAs (Decidable (_ ∨ _))

/-- The numbers that survive a rounding to a width and a second one to what is
left of that width.  What the first one adds may reach the next quotient, and
then all is well, or no more than the half. -/
def SurvivesTwo (width number low shift : Nat) : Prop :=
  if shift < width ∧ RoundsUp number low then
    if shift = 0 then number / 2 ^ low + 1 < 2 ^ width
    else
      number / 2 ^ low % 2 ^ shift + 1 = 2 ^ shift ∨
        if number / 2 ^ (low + shift) % 2 = 1
          then 2 * (number / 2 ^ low % 2 ^ shift + 1) ≠ 2 ^ shift
          else 2 * (number % 2 ^ (low + shift)) ≤ 2 ^ (low + shift)
  else Nearer number (low + shift)

instance (width number low shift : Nat) : Decidable (SurvivesTwo width number low shift) := by
  unfold SurvivesTwo
  infer_instance

end Twice

end Literal
end WasmSandboxing
