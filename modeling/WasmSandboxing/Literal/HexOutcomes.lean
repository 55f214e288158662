import WasmSandboxing.Literal.OddRounding

namespace WasmSandboxing
namespace Literal

open Foundation FloatTraits

/-!
# What the parser makes of a number

For a number and the exponent of its highest bit: the pattern that the parser
arrives at, the pattern that is the right one, and when the two are the same.
-/

/-- A number in no less than a width. -/
def widen (number width : Nat) : Nat := number * 2 ^ (width - bitLength number)

/-- A number scaled up to a width, or rounded to it. -/
def alignNumber (number width : Nat) : Nat :=
  roundOdd (widen number width) (bitLength number - width)

/-- The result for a pattern without a sign. -/
def settle (traits : FloatTraits) (sign : Bool) (pattern : Nat) : Option Nat :=
  if pattern < traits.format.infinity then some (traits.format.signed sign pattern) else none

/-- What comes of the number itself, wherever its digits stand. -/
def outcome (traits : FloatTraits) (sign : Bool) (number : Nat) (lead : Int) :
    Option (Option Nat) :=
  if traits.kMinExp < lead then
    some (settle traits sign ((lead + traits.kExpBias - 1).toNat * 2 ^ traits.kSigBits +
      alignNumber number traits.kSigPlusOneBits))
  else
    let shift := (traits.kMinExp - lead).toNat
    let significand := alignNumber number traits.kSigBits
    if traits.kSigBits ≤ shift then some (settle traits sign 0)
    else if shift = 0 then
      if significand < 2 ^ traits.kSigBits then some (settle traits sign significand) else none
    else some (settle traits sign (roundOdd significand shift))

section Outcomes

variable {traits : FloatTraits} {number width : Nat} {scan : Scan} {fraction dropped : Nat}

theorem fields_signed (lawful : traits.Lawful) (sign : Bool) (field sig : Nat) :
    fields traits sign field sig = traits.format.signed sign (field * 2 ^ traits.kSigBits + sig) := by
  have unit : traits.format.signUnit = 2 ^ traits.kSignShift := by
    rw [FloatFormat.signUnit, kExpBits_eq lawful, Nat.add_comm]
    rfl
  rw [fields, FloatFormat.signed, unit]
  cases sign with
  | true => rw [if_pos rfl, Bool.toNat_true, Nat.one_mul]
  | false => rw [if_neg Bool.false_ne_true, Bool.toNat_false, Nat.zero_mul, Nat.zero_add]

end Outcomes

/-! ## When it is right -/

/-- The numbers for which the parser comes to the right pattern, by the exponent
of their highest bit. -/
def Fine (traits : FloatTraits) (number : Nat) (lead : Int) : Prop :=
  if traits.kMinExp < lead then
    traits.kMaxExp ≤ lead ∨
      Nearer (widen number traits.kSigPlusOneBits)
        (bitLength number - traits.kSigPlusOneBits)
  else
    SurvivesTwo traits.kSigBits (widen number traits.kSigBits)
      (bitLength number - traits.kSigBits) (traits.kMinExp - lead).toNat

instance (traits : FloatTraits) (number : Nat) (lead : Int) : Decidable (Fine traits number lead) := by
  unfold Fine
  infer_instance

section Right

variable {traits : FloatTraits} {number : Nat} {exponent : Int}

end Right

end Literal
end WasmSandboxing
