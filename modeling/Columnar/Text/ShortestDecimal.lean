/-!
# The shortest decimal that identifies a binary number

Among the decimals that round to a value, the one with the fewest digits is chosen, and of several
the nearest to it. On the grid of a power of ten only its two neighbours are looked at.
-/

namespace Columnar

/-- A positive number and the ends of the interval of reals that round to it, as fractions
over one denominator. -/
structure RoundingInterval where
  low : Nat
  value : Nat
  high : Nat
  denominator : Nat
  /-- Whether the ends themselves round to the value. -/
  closed : Bool

/-- The number `coefficient * 10 ^ exponent`. -/
structure Decimal where
  coefficient : Nat
  exponent : Int
  deriving DecidableEq

namespace RoundingInterval

/-- The number of decimal digits of `n`, which is one for zero. -/
def digitCount (n : Nat) : Nat :=
  (Nat.toDigits 10 n).length

/-- The least exponent whose power of ten lies above the value. -/
def decimalExponent (interval : RoundingInterval) : Int :=
  if interval.denominator ≤ interval.value then
    digitCount (interval.value / interval.denominator)
  else
    let count := digitCount (interval.denominator / interval.value)
    if interval.denominator ≤ interval.value * Nat.pow 10 (count - 1) then 2 - count else 1 - count

/-- Whether `count / unit` lies in the interval whose fractions are multiplied by `scale`. -/
def contains (interval : RoundingInterval) (scale unit count : Nat) : Bool :=
  if interval.closed then
    interval.low * scale ≤ count * unit && count * unit ≤ interval.high * scale
  else
    interval.low * scale < count * unit && count * unit < interval.high * scale

/-- The neighbour of the value on the grid of the multiples of `10 ^ exponent` that lies in
the interval. If both do it is the nearer one, and the upper one if they are equally near. -/
def candidate? (interval : RoundingInterval) (exponent : Int) : Option Decimal :=
  let scale := Nat.pow 10 (-exponent).toNat
  let unit := interval.denominator * Nat.pow 10 exponent.toNat
  let below := interval.value * scale / unit
  let above := below + 1
  match interval.contains scale unit below, interval.contains scale unit above with
  | true, true =>
    if 2 * (interval.value * scale) < (below + above) * unit then some ⟨below, exponent⟩
    else some ⟨above, exponent⟩
  | true, false => some ⟨below, exponent⟩
  | false, true => some ⟨above, exponent⟩
  | false, false => none

/-- The decimal of at most `digits` digits that identifies the value. -/
def shortest? (interval : RoundingInterval) (digits : Nat) : Option Decimal :=
  let top := interval.decimalExponent
  (List.range digits).findSome? fun (i : Nat) => interval.candidate? (top - 1 - i)

end RoundingInterval

end Columnar
