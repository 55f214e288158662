import WasmSandboxing.Literal.HexOutcomes

namespace WasmSandboxing
namespace Literal

open Foundation FloatTraits

/-!
# Which literals are parsed correctly

The parser rounds the number of a literal with the exponent that it has read.
That is the whole exponent, or enough of it that the rest seems not to matter.
-/

/-! ## An exponent that is not read to its end -/

section Cut

variable {traits : FloatTraits} {add : Int} {value : Nat} {digits : List Nat}

end Cut

section Extremes

variable {traits : FloatTraits} {number : Nat} {exponent lead : Int}

end Extremes

/-! ## Literals -/

section Literals

variable {traits : FloatTraits} {literal : HexLiteral}

end Literals

theorem isDigits_of_all {radix : Radix} {text : List Char} (nonempty : text ≠ [])
    (all : text.all (fun c => (radix.digit c).isSome) = true) : IsDigits radix text where
  nonempty := nonempty
  digits := fun c isMember => Or.inr (List.all_eq_true.mp all c isMember)
  separates := by
    rintro front back rfl
    have isDigit := List.all_eq_true.mp all '_' (List.mem_append_right _ List.mem_cons_self)
    cases radix <;> cases isDigit

/-- `0x1.8p1`, which is exact. -/
def three : HexLiteral where
  sign := none
  hexnum := ['1']
  isHexnum := isDigits_of_all (by decide) (by decide)
  hexfrac := some ['8']
  isHexfrac := fun _text isText => Or.inr (Option.some.inj isText ▸
    isDigits_of_all (by decide) (by decide))
  power := some ⟨false, none, ['1'], isDigits_of_all (by decide) (by decide)⟩
  isFloat := Or.inl rfl

end Literal
end WasmSandboxing
