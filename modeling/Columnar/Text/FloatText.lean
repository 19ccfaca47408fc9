import Columnar.Text.ShortestDecimal

/-!
# The text of floating-point numbers

The fewest digits that identify a number, from `10 ^ -4` up to below `10 ^ 16` positionally and
otherwise with an exponent.
-/

namespace Columnar

/-- A binary interchange format: the widths of its fraction and of its exponent in bits. The
sign takes one bit more. -/
structure FloatFormat where
  fractionBits : Nat
  exponentBits : Nat

/-- What a bit pattern denotes. -/
inductive FloatValue where
  | nan
  | infinity (negative : Bool)
  /-- The number `mantissa * 2 ^ exponent`, below zero if `negative`. -/
  | finite (negative : Bool) (mantissa : Nat) (exponent : Int)
  deriving DecidableEq

namespace FloatFormat

/-- The format of 32 bits. -/
def binary32 : FloatFormat := ⟨23, 8⟩

/-- The format of 64 bits. -/
def binary64 : FloatFormat := ⟨52, 11⟩

/-- The exponent of the numbers nearest to zero. -/
def leastExponent (format : FloatFormat) : Int :=
  2 - ((1 <<< (format.exponentBits - 1) : Nat) : Int) - format.fractionBits

/-- What a bit pattern denotes. An exponent field of zero belongs to the numbers without the
implied leading bit, and one of all ones to the infinities and to what is not a number. -/
def decode (format : FloatFormat) (bits : Nat) : FloatValue :=
  let fraction := bits % (1 <<< format.fractionBits)
  let field := (bits >>> format.fractionBits) % (1 <<< format.exponentBits)
  let negative := (bits >>> (format.fractionBits + format.exponentBits)) % 2 = 1
  if field = (1 <<< format.exponentBits) - 1 then
    if fraction = 0 then .infinity negative else .nan
  else if field = 0 then .finite negative fraction format.leastExponent
  else
    .finite negative ((1 <<< format.fractionBits) + fraction)
      (format.leastExponent + (field - 1 : Nat))

/-- The interval of reals that round to `mantissa * 2 ^ exponent`. Below a power of two the
values lie twice as close as above it, unless the exponent is the least, so the interval
reaches only half as far there. The ends round to the value if its mantissa is even. -/
def interval (format : FloatFormat) (mantissa : Nat) (exponent : Int) : RoundingInterval where
  low :=
    let reach :=
      if mantissa = 1 <<< format.fractionBits ∧ format.leastExponent < exponent then 1 else 2
    (4 * mantissa - reach) <<< (exponent - 2).toNat
  value := (4 * mantissa) <<< (exponent - 2).toNat
  high := (4 * mantissa + 2) <<< (exponent - 2).toNat
  denominator := 1 <<< (2 - exponent).toNat
  closed := mantissa % 2 = 0

/-- The number of digits that identify every number of the format. -/
def maxDigits (format : FloatFormat) : Nat :=
  (format.fractionBits + 1) * 30103 / 100000 + 2

/-- Digits in positional notation. The first digit counts as `10 ^ exponent`. -/
def positional (digits : List Char) (exponent : Int) : List Char :=
  if exponent < 0 then
    '0' :: '.' :: (List.replicate (-exponent - 1).toNat '0' ++ digits)
  else
    let whole := exponent.toNat + 1
    if digits.length ≤ whole then
      digits ++ List.replicate (whole - digits.length) '0' ++ ['.', '0']
    else digits.take whole ++ '.' :: digits.drop whole

/-- Digits in notation with an exponent. The first digit counts as `10 ^ exponent`. -/
def scientific (digits : List Char) (exponent : Int) : List Char :=
  let fraction := if digits.length ≤ 1 then [] else '.' :: digits.drop 1
  digits.take 1 ++ fraction ++ 'e' :: (toString exponent).toList

/-- The exponents of the first digit with which a number is written positionally. -/
def IsPositional (exponent : Int) : Prop :=
  -4 ≤ exponent ∧ exponent < 16

instance : DecidablePred IsPositional :=
  fun exponent => inferInstanceAs (Decidable (-4 ≤ exponent ∧ exponent < 16))

/-- The text of a positive decimal. Zeros at the end of its coefficient count as places and
not as digits. -/
def decimalText (decimal : Decimal) : String :=
  -- a coefficient rounded up to a power of ten ends in zeros
  let all := Nat.toDigits 10 decimal.coefficient
  let digits := (all.reverse.dropWhile (· = '0')).reverse
  let exponent := decimal.exponent + (all.length - 1 : Nat)
  String.ofList
    (if IsPositional exponent then positional digits exponent else scientific digits exponent)

/-- The text of what a bit pattern denotes. -/
def valueText (format : FloatFormat) : FloatValue → String
  | .nan => "NaN"
  | .infinity negative => (if negative then "-" else "") ++ "inf"
  | .finite negative mantissa exponent =>
    let magnitude :=
      if mantissa = 0 then "0.0"
      else (((format.interval mantissa exponent).shortest? format.maxDigits).map
        decimalText).getD ""
    (if negative then "-" else "") ++ magnitude

/-- The text of a bit pattern. -/
def text (format : FloatFormat) (bits : Nat) : String :=
  format.valueText (format.decode bits)

end FloatFormat

end Columnar
