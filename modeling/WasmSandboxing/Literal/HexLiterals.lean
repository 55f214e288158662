import WasmSandboxing.Foundation.Nearest
import WasmSandboxing.Literal.Nybbles

namespace WasmSandboxing
namespace Literal

open Foundation FloatTraits

/-!
# The hexadecimal floats of the text format

The rule `hexfloat` of the lexer: the parts of a literal, and the magnitude that
they stand for.
-/

/-- `digit ("_"? digit)*` -/
structure IsDigits (radix : Radix) (text : List Char) : Prop where
  nonempty : text ≠ []
  digits : forall c, c ∈ text -> c = '_' ∨ (radix.digit c).isSome
  separates : SeparatesDigits text

/-- `[pP] sign? num` -/
structure Power where
  upper : Bool
  sign : Option Bool
  num : List Char
  isNum : IsDigits .decimal num

/-- `sign? "0x" hexnum ("." hexfrac?)? ([pP] sign? num)?`, with a dot or a power. -/
structure HexLiteral where
  sign : Option Bool
  hexnum : List Char
  isHexnum : IsDigits .hex hexnum
  hexfrac : Option (List Char)
  isHexfrac : forall text, text ∈ hexfrac -> text = [] ∨ IsDigits .hex text
  power : Option Power
  isFloat : hexfrac.isSome ∨ power.isSome

/-- A sign is negative or not. -/
def signChars : Option Bool -> List Char
  | none => []
  | some true => ['-']
  | some false => ['+']

def Power.text (power : Power) : List Char :=
  (if power.upper then 'P' else 'p') :: (signChars power.sign ++ power.num)

/-- The digits among digits and underscores. -/
def digitsOf (radix : Radix) (text : List Char) : List Nat := text.filterMap radix.digit

namespace HexLiteral

variable (literal : HexLiteral)

def fracText : List Char :=
  match literal.hexfrac with
  | none => []
  | some text => '.' :: text

def powerText : List Char := (literal.power.map Power.text).getD []

def text : List Char :=
  signChars literal.sign ++ '0' :: 'x' :: (literal.hexnum ++ (literal.fracText ++ literal.powerText))

def isNegative : Bool := literal.sign = some true

def fracDigits : List Nat := digitsOf .hex (literal.hexfrac.getD [])

/-- The digits on both sides of the dot. -/
def digits : List Nat := digitsOf .hex literal.hexnum ++ literal.fracDigits

def number : Nat := digitsFrom 16 0 literal.digits

def powerDigits : List Nat :=
  (literal.power.map fun power => digitsOf .decimal power.num).getD []

def powerSign : Option Bool := literal.power.bind Power.sign

/-- The exponent for a number that is read behind the `p`. -/
def exponentFor (read : Nat) : Int :=
  (if literal.powerSign = some true then -(read : Int) else read) - 4 * literal.fracDigits.length

def exponent : Int := literal.exponentFor (digitsFrom 10 0 literal.powerDigits)

/-- The absolute value of what is written. -/
def magnitude : ℚ := literal.number * (2 : ℚ) ^ literal.exponent

end HexLiteral

/-- The format of the results. -/
def FloatTraits.format (traits : FloatTraits) : FloatFormat := ⟨traits.kExpBits, traits.kSigBits⟩

end Literal
end WasmSandboxing
