import Columnar.Action
import Columnar.Bits

/-!
# Validity bitmaps

Bit `i` is set exactly if slot `i` of a column holds a value. Slots are written in any order, so a
bitmap is addressed by index and grown ahead of the writes, by bits that are unset.
-/

namespace Columnar

/-- Bits packed eight to a byte, the first in the lowest place. -/
structure Bitmap where
  bytes : Bytes
  deriving DecidableEq

namespace Bitmap

def empty : Bitmap := ⟨#[]⟩

/-- The number of bits that the bytes hold. -/
def capacity (bitmap : Bitmap) : Result Nat :=
  Size.mul bitmap.bytes.size 8

protected def get (bitmap : Bitmap) (index : Nat) : Result Bool :=
  Bits.get bitmap.bytes index

/-- The bitmap with bit `index` made equal to `value`. -/
def put (bitmap : Bitmap) (index : Nat) (value : Bool) : Result Bitmap :=
  return ⟨← Bits.put bitmap.bytes index value⟩

/-- The bitmap with `count` bits from `start` on made equal to `value`. -/
def putRun (bitmap : Bitmap) (value : Bool) (start : Nat) : (count : Nat) → Result Bitmap
  | 0 => pure bitmap
  | count + 1 => do (← bitmap.put start value).putRun value (start + 1) count

/-- Grows the bitmap to at least `bits` bits. The new bits are unset. -/
def ensureCapacity (bits : Nat) : Action Bitmap Unit := do
  let held := (← get).bytes.size
  let needed := Bits.bytesFor bits
  if held < needed then
    Action.reserve .validity held needed
    modify fun bitmap => ⟨bitmap.bytes ++ Bytes.zeros (needed - held)⟩

/-- A bitmap of at least `bits` bits, all unset. -/
def withCapacity {σ : Type} (bits : Nat) : Action σ Bitmap :=
  Action.build empty (ensureCapacity bits)

/-- The number of unset bits among the first `length`. -/
def unsetBits (bitmap : Bitmap) (length : Nat) : Result Nat :=
  Bits.countZeros bitmap.bytes length

def bits (bitmap : Bitmap) (length : Nat) : Result (List Bool) := do
  unless length ≤ (← bitmap.capacity) do breach .bitOutOfRange
  (List.range length).mapM bitmap.get

/-- The bits from `offset` to `offset + length` as a bitmap of just the bytes they need. -/
def slice {σ : Type} (bitmap : Bitmap) (offset length : Nat) : Action σ Bitmap := do
  let blank ← withCapacity length
  return ⟨← Bits.copyToStart bitmap.bytes offset length blank.bytes⟩

/-- The eight digits of a byte, the highest place first. -/
def byteText (byte : UInt8) : String :=
  String.ofList ((List.range 8).reverse.map fun i => if Bits.isSet byte i then '1' else '0')

def text (bitmap : Bitmap) : Result String := do
  let capacity ← bitmap.capacity
  let bytes := " ".intercalate (bitmap.bytes.toList.map byteText)
  return s!"ValidityBitmap \x7b capacity: {capacity}, bits: [{bytes}] \x7d"

end Bitmap

end Columnar
