import Columnar.Bytes

/-! # The text of integers and bytes -/

namespace Columnar

/-- The decimal digits of `n` after as many zeros as make `places` digits in all. -/
def paddedDigits (places n : Nat) : String :=
  let digits := Nat.toDigits 10 n
  String.ofList (List.replicate (places - digits.length) '0' ++ digits)

/-- The number `value / 10 ^ places` with exactly `places` digits after the point. The minus
sign is written apart from the whole part, because that is zero for numbers between minus
one and one. -/
def fixedPointText (value : Int) (places : Nat) : String :=
  let unit : Int := Nat.pow 10 places
  let whole := value.tdiv unit
  let sign := if value < 0 ∧ whole = 0 then "-" else ""
  s!"{sign}{whole}.{paddedDigits places (value.tmod unit).natAbs}"

/-- A byte as two lower-case hexadecimal digits. -/
def hexDigits (byte : UInt8) : List Char :=
  [Nat.digitChar (byte.toNat / 16), Nat.digitChar (byte.toNat % 16)]

/-- Bytes as lower-case hexadecimal digits, two for each. -/
def hexText (bytes : Bytes) : String :=
  String.ofList (bytes.toList.flatMap hexDigits)

end Columnar
