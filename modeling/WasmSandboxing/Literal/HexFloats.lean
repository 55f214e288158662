import WasmSandboxing.Foundation.Digits
import WasmSandboxing.Literal.Integers

namespace WasmSandboxing
namespace Literal

/-!
# Hexadecimal floats

`FloatParser` and `FloatWriter` of `literal.cc`.  `none` is a failed assertion,
an overflow of an `int` or a write beyond the buffer; a parse that fails is
`some none`.  Decimal literals go to `strtof` and `strtod`.
-/

/-- `FloatTraits<T>` -/
structure FloatTraits where
  kBits : Nat
  kSigBits : Nat
  kMaxHexBufferSize : Nat

namespace FloatTraits

def float : FloatTraits := ⟨32, 23, 20⟩
def double : FloatTraits := ⟨64, 52, 40⟩

variable (traits : FloatTraits)

def kExpBits : Nat := traits.kBits - traits.kSigBits - 1
def kSignShift : Nat := traits.kBits - 1
def kSigMask : Nat := 2 ^ traits.kSigBits - 1
def kSigPlusOneBits : Nat := traits.kSigBits + 1
def kSigPlusOneMask : Nat := 2 ^ traits.kSigPlusOneBits - 1
def kExpMask : Nat := 2 ^ traits.kExpBits - 1
def kMaxExp : Int := 2 ^ (traits.kExpBits - 1)
def kMinExp : Int := -traits.kMaxExp + 1
def kExpBias : Int := -traits.kMinExp
def kQuietNanTag : Nat := 2 ^ (traits.kSigBits - 1)

/-- `kBits - Clz(x)` -/
def bitLength (number : Nat) : Nat := if number = 0 then 0 else number.log2 + 1

def clz (number : Nat) : Nat := traits.kBits - bitLength number

/-- A shift to the left of a `Uint`. -/
def shiftLeft (number shift : Nat) : Nat := number * 2 ^ shift % 2 ^ traits.kBits

end FloatTraits

open FloatTraits

/-- The result of an operation on `int`, which must not overflow. -/
def int (number : Int) : Option Int :=
  if -2 ^ 31 ≤ number ∧ number < 2 ^ 31 then some number else none

/-! ## The parser -/

/-- `-` or `+` in front of a float. -/
def takeFloatSign (text : List Char) : Bool × List Char :=
  match text with
  | '-' :: rest => (true, rest)
  | '+' :: rest => (false, rest)
  | _ => (false, text)

section Parser

variable (traits : FloatTraits)

def make (sign : Bool) (exp : Int) (sig : Nat) : Option Nat :=
  if traits.kMinExp ≤ exp ∧ exp ≤ traits.kMaxExp ∧ sig ≤ traits.kSigMask then
    some (sign.toNat <<< traits.kSignShift |||
      (exp + traits.kExpBias).toNat <<< traits.kSigBits ||| sig)
  else
    none

def shiftAndRoundToNearest (significand : Nat) (shift : Int) : Option Nat :=
  if 0 < shift then
    -- Round ties to even.
    let significand :=
      if significand.testBit shift.toNat then
        (significand + 2 ^ (shift.toNat - 1)) % 2 ^ traits.kBits
      else significand
    some (significand >>> shift.toNat)
  else
    none

/-- The digits of a tag, with the check for overflow; no underscores here. -/
def parseTag (tag : Nat) : List Char -> Option Nat
  | [] => some tag
  | c :: rest => do
      let digit <- parseHexdigit c
      let tag := (tag * 16 + digit) % 2 ^ traits.kBits
      if traits.kSigMask < tag then none else parseTag tag rest

def makeNan (isNeg : Bool) : Option Nat -> Option (Option Nat)
  | none => some none
  | some tag =>
      -- NaN cannot have a zero tag, that is reserved for infinity.
      if tag = 0 then some none else (make traits isNeg traits.kMaxExp tag).map some

def parseNan (text : List Char) : Option (Option Nat) :=
  let (isNeg, s) := takeFloatSign text
  if "nan".toList.isPrefixOf s then
    let s := s.drop 3
    if s = [] then
      (make traits isNeg traits.kMaxExp traits.kQuietNanTag).map some
    else if ":0x".toList.isPrefixOf s then
      makeNan traits isNeg (parseTag traits 0 (s.drop 3))
    else
      none
  else
    none

def parseInfinity (text : List Char) : Option (Option Nat) :=
  let (isNeg, s) := takeFloatSign text
  if "inf".toList.isPrefixOf s then (make traits isNeg traits.kMaxExp 0).map some else none

/-- What the loop over the significand has; the exponent is an adjustment due
to dot placement. -/
structure Scan where
  seenDot : Bool
  significand : Nat
  exponent : Int

/-- A digit goes to the significand as long as that has room. -/
def scanDigit (digit : Nat) (scan : Scan) : Option Scan :=
  if bitLength scan.significand ≤ traits.kSigPlusOneBits then
    let significand := (traits.shiftLeft scan.significand 4 + digit) % 2 ^ traits.kBits
    if scan.seenDot then
      (int (scan.exponent - 4)).map fun exponent =>
        { scan with significand := significand, exponent := exponent }
    else
      some { scan with significand := significand }
  else if !scan.seenDot then
    (int (scan.exponent + 4)).map fun exponent => { scan with exponent := exponent }
  else
    some scan

/-- Everything up to the `p`. -/
def scanSignificand : List Char -> Scan -> Option (Scan × List Char)
  | [], scan => some (scan, [])
  | c :: rest, scan =>
      if c = '_' then scanSignificand rest scan
      else if c = '.' then scanSignificand rest { scan with seenDot := true }
      else
        match parseHexdigit c with
        | none => some (scan, c :: rest)
        | some digit => (scanDigit traits digit scan).bind (scanSignificand rest)

/-- The digits of the exponent, until it is too large.  The digit is added as
an unsigned number. -/
def scanExponent (significandExponentAdd : Int) : List Char -> Int -> Option Int
  | [], exponent => some exponent
  | c :: rest, exponent =>
      if c = '_' then scanExponent significandExponentAdd rest exponent
      else do
        let digit <- within '0' '9' c
        let tens <- int (exponent * 10)
        let exponent := (BitVec.ofInt 32 (tens + digit)).toInt
        let total <- int (exponent + significandExponentAdd)
        if traits.kMaxExp ≤ total then some exponent
        else scanExponent significandExponentAdd rest exponent

/-- The exponent behind the significand, with its sign. -/
def parseExponent (significandExponent : Int) : List Char -> Option Int
  | [] => some 0
  | p :: s =>
      if p = 'p' ∨ p = 'P' then
        match s with
        | '-' :: s => do
            let significandExponentAdd <- int (-significandExponent)
            let exponent <- scanExponent traits significandExponentAdd s 0
            int (-exponent)
        | '+' :: s => scanExponent traits significandExponent s 0
        | _ => scanExponent traits 0 s 0
      else
        none

/-- A significand with its highest bit brought to a place. -/
def align (significand bits place : Nat) : Option Nat :=
  if place < bits then shiftAndRoundToNearest traits significand ((bits : Int) - place)
  else some (traits.shiftLeft significand (place - bits))

def roundSubnormal (isNeg : Bool) (significand : Nat) (shift : Int) : Option (Option Nat) :=
  if shift < traits.kSigBits then
    (if shift = 0 then some significand
      else (shiftAndRoundToNearest traits significand shift).map (· &&& traits.kSigMask)).bind
      fun significand =>
        if significand ≠ 0 then (make traits isNeg traits.kMinExp significand).map some
        else (make traits isNeg traits.kMinExp 0).map some
  else
    -- Not subnormal, too small; return 0 or -0.
    (make traits isNeg traits.kMinExp 0).map some

def roundNormal (isNeg : Bool) (significand : Nat) (exponent : Int) : Option (Option Nat) :=
  -- Would be inf or -inf, but the spec doesn't allow rounding hex-floats to infinity.
  if traits.kMaxExp ≤ exponent then some none
  else (make traits isNeg exponent (significand &&& traits.kSigMask)).map some

/-- The bits of a significand that is not zero and of the exponent of its
highest bit. -/
def roundHex (isNeg : Bool) (significand : Nat) (exponent : Int) : Option (Option Nat) :=
  let significandBits := bitLength significand
  if exponent ≤ traits.kMinExp then
    -- Maybe subnormal.
    (align traits significand significandBits traits.kSigBits).bind fun significand =>
      roundSubnormal traits isNeg significand (traits.kMinExp - exponent)
  else
    -- Maybe Normal value.
    (align traits significand significandBits traits.kSigPlusOneBits).bind fun significand =>
      roundNormal traits isNeg significand
        (if traits.kSigPlusOneBits < significandBits ∧ traits.kSigPlusOneMask < significand
          then exponent + 1 else exponent)

def parseHex (text : List Char) : Option (Option Nat) :=
  let (isNeg, s) := takeFloatSign text
  if "0x".toList.isPrefixOf s then do
    let (scan, s) <- scanSignificand traits (s.drop 2) ⟨false, 0, 0⟩
    if scan.significand = 0 then
      -- 0 or -0.
      (make traits isNeg traits.kMinExp 0).map some
    else
      let exponent <- parseExponent traits scan.exponent s
      let significandBits <- int (scan.exponent + bitLength scan.significand)
      let exponent <- int (exponent + (significandBits - 1))
      roundHex traits isNeg scan.significand exponent
  else
    none

end Parser

/-- The types of a literal that is not decimal. -/
inductive LiteralType where
  | hexfloat | infinity | nan
  deriving DecidableEq, Repr

def parse (traits : FloatTraits) (literalType : LiteralType) (text : List Char) :
    Option (Option Nat) :=
  match literalType with
  | .hexfloat => parseHex traits text
  | .infinity => parseInfinity traits text
  | .nan => parseNan traits text

def parseFloat := parse float
def parseDouble := parse double

/-! ## The writer -/

section Writer

variable (traits : FloatTraits)

/-- `*p++ = c` -/
def put (c : Char) (buffer : List Char) : Option (List Char) :=
  if buffer.length < traits.kMaxHexBufferSize then some (buffer ++ [c]) else none

/-- `strcpy(p, text)` with the null behind it. -/
def strcpy (text : List Char) (buffer : List Char) : Option (List Char) :=
  if buffer.length + text.length < traits.kMaxHexBufferSize then some (buffer ++ text) else none

def putIf (shown : Prop) [Decidable shown] (c : Char) (buffer : List Char) :
    Option (List Char) :=
  if shown then put traits c buffer else some buffer

def hexDigits : List Char := "0123456789abcdef".toList

/-- The top four bits. -/
def topNybble (sig : Nat) : Nat := sig >>> (traits.kBits - 4) &&& 0xf

def putNybble (sig : Nat) (buffer : List Char) : Option (List Char) := do
  let c <- hexDigits[topNybble traits sig]?
  put traits c buffer

/-- Skip leading zeroes.  The loop ends, since the number is not zero. -/
def skipZeroes : Nat -> Nat -> Nat × Nat
  | 0, sig => (0, sig)
  | numNybbles + 1, sig =>
      if topNybble traits sig = 0 then skipZeroes numNybbles (traits.shiftLeft sig 4)
      else (numNybbles + 1, sig)

def writeNybbles : Nat -> Nat -> List Char -> Option (List Char)
  | 0, _sig, buffer => some buffer
  | numNybbles + 1, sig, buffer => do
      let buffer <- putNybble traits sig buffer
      writeNybbles numNybbles (traits.shiftLeft sig 4) buffer

/-- `while (sig)`, which runs at most once for each nybble. -/
def writeFraction : Nat -> Nat -> List Char -> Option (List Char)
  | 0, sig, buffer => if sig = 0 then some buffer else none
  | rounds + 1, sig, buffer =>
      if sig = 0 then some buffer
      else do
        let buffer <- putNybble traits sig buffer
        writeFraction rounds (traits.shiftLeft sig 4) buffer

def decimalDigit (number : Nat) : Char := Char.ofNat ('0'.toNat + number)

def writeExponent (exp : Int) (buffer : List Char) : Option (List Char) := do
  let buffer <- put traits (if exp < 0 then '-' else '+') buffer
  let exp := exp.natAbs
  let buffer <- putIf traits (1000 ≤ exp) '1' buffer
  let buffer <- putIf traits (100 ≤ exp) (decimalDigit (exp / 100 % 10)) buffer
  let buffer <- putIf traits (10 ≤ exp) (decimalDigit (exp / 10 % 10)) buffer
  put traits (decimalDigit (exp % 10)) buffer

/-- The text of the digits of a NaN that is not the quiet one without a tag. -/
def writeTag (sig : Nat) (buffer : List Char) : Option (List Char) := do
  let buffer <- strcpy traits "nan".toList buffer
  if sig = traits.kQuietNanTag then some buffer
  else
    let buffer <- strcpy traits ":0x".toList buffer
    let (numNybbles, sig) := skipZeroes traits (traits.kBits / 4) sig
    writeNybbles traits numNybbles sig buffer

/-- What is behind the dot, and the exponent that goes with it. -/
def writeSignificand (exp : Int) (sig : Nat) (buffer : List Char) : Option (Int × List Char) :=
  if sig ≠ 0 then do
    -- Subnormal; shift the significand up, and shift out the implicit 1.
    let leadingZeroes := traits.clz sig
    let shifted :=
      if exp = traits.kMinExp then
        if leadingZeroes < traits.kSignShift then traits.shiftLeft sig (leadingZeroes + 1) else 0
      else sig
    let buffer <- put traits '.' buffer
    let buffer <- writeFraction traits (traits.kBits / 4) shifted buffer
    some (if exp = traits.kMinExp then exp - leadingZeroes else exp, buffer)
  else
    some (exp, buffer)

def writeNumber (exp : Int) (sig : Nat) (buffer : List Char) : Option (List Char) := do
  let isZero := decide (sig = 0 ∧ exp = traits.kMinExp)
  let buffer <- strcpy traits "0x".toList buffer
  let buffer <- put traits (if isZero then '0' else '1') buffer
  -- Shift sig up so the top 4-bits are at the top of the Uint.
  let sig := traits.shiftLeft sig (traits.kBits - traits.kSigBits)
  let (exp, buffer) <- writeSignificand traits exp sig buffer
  let buffer <- put traits 'p' buffer
  if isZero then strcpy traits "+0".toList buffer else writeExponent traits exp buffer

/-- The contents of the buffer on the stack. -/
def hexText (bits : Nat) : Option (List Char) := do
  let isNeg := bits >>> traits.kSignShift
  let exp : Int := (bits >>> traits.kSigBits &&& traits.kExpMask : Nat) - traits.kExpBias
  let sig := bits &&& traits.kSigMask
  let buffer <- putIf traits (isNeg ≠ 0) '-' []
  if exp = traits.kMaxExp then
    -- Infinity or nan.
    if sig = 0 then strcpy traits "inf".toList buffer else writeTag traits sig buffer
  else
    writeNumber traits exp sig buffer

/-- What is copied to the caller's buffer, which has room for `size` characters
with the null behind them.  There is no room for the null in none. -/
def writeHex (size bits : Nat) : Option (List Char) := do
  let buffer <- hexText traits bits
  if size = 0 then none
  else if size ≤ buffer.length then some (buffer.take (size - 1))
  else some buffer

end Writer

def writeFloatHex (size : Nat) (bits : BitVec 32) : Option (List Char) :=
  writeHex float size bits.toNat

def writeDoubleHex (size : Nat) (bits : BitVec 64) : Option (List Char) :=
  writeHex double size bits.toNat

example : (writeFloatHex 128 0x3f9d70a4).map String.ofList = some "0x1.3ae148p+0" := by decide +kernel
example : (parseFloat .hexfloat "-0x1.3ae148p+0".toList) = some (some 0xbf9d70a4) := by
  decide +kernel

end Literal
end WasmSandboxing
