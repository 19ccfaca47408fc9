import Columnar.Failure
import Columnar.PowerOfTwo

/-!
# Alignment

The metadata of a message and every buffer of its body are padded with zero bytes to a multiple of
the alignment, a power of two. The sum that is rounded is checked, so a huge length has no padding.
-/

namespace Columnar.Ipc

namespace Alignment

/-- The alignment of a writer for which none is chosen. -/
protected def default : Nat := 1

/-- Checks that an alignment is a power of two. -/
def check (alignment : Nat) : Result Unit :=
  if IsPowerOfTwo alignment then pure () else raise (.alignmentNotPowerOfTwo alignment)

/-- The number that a row of decimal digits denotes. -/
def digitsValue (digits : List Char) : Nat :=
  digits.foldl (fun value digit => 10 * value + (digit.toNat - '0'.toNat)) 0

/-- The characters of a text after a plus sign, if it begins with one. -/
def withoutPlus : (text : List Char) → List Char
  | '+' :: rest => rest
  | text => text

/-- The size that a text denotes: one or more decimal digits, perhaps after a plus sign, and
nothing else. -/
def size? (text : String) : Option Nat :=
  let digits := withoutPlus text.toList
  if digits ≠ [] ∧ digits.all Char.isDigit ∧ digitsValue digits < Size.bound then
    some (digitsValue digits)
  else none

/-- The alignment that a text asks for, or the default without a text. -/
def ofText (text? : Option String) : Result Nat := do
  let alignment ←
    match text? with
    | some text =>
      match size? text with
      | some size => pure size
      | none => raise (.alignmentNotInteger text)
    | none => pure Alignment.default
  check alignment
  return alignment

/-- The number of bytes from `length` up to the next multiple of `alignment`. -/
def padding (length alignment : Nat) : Result Nat := do
  let top ← Size.add length alignment
  let mask := ~~~UInt64.ofNat (alignment - 1)
  Size.sub (UInt64.ofNat (top - 1) &&& mask).toNat length

end Alignment

end Columnar.Ipc
