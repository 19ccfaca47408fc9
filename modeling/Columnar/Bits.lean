import Columnar.Bytes
import Columnar.Failure

/-!
# Bits in bytes

A row of bits is packed eight to a byte: bit `i` is bit `i % 8` of byte `i / 8`, counted from the
lowest place. A row that is too short for a call is a breach, and then nothing was written.
-/

namespace Columnar

namespace Bits

/-- Whether bit `i` of `byte` is set. -/
def isSet (byte : UInt8) (i : Nat) : Bool :=
  byte &&& (1 <<< UInt8.ofNat i) != 0

/-- `byte` with bit `i` made equal to `value`. -/
def assign (byte : UInt8) (i : Nat) (value : Bool) : UInt8 :=
  (byte &&& ~~~(1 <<< UInt8.ofNat i)) ||| (value.toUInt8 <<< UInt8.ofNat i)

/-- Bit `i` of a row. -/
def get (bytes : Bytes) (i : Nat) : Result Bool :=
  match bytes[i / 8]? with
  | some byte => pure (isSet byte (i % 8))
  | none => breach .bitOutOfRange

/-- The row with bit `i` made equal to `value`. -/
def put (bytes : Bytes) (i : Nat) (value : Bool) : Result Bytes :=
  match bytes[i / 8]? with
  | some byte => pure (bytes.setIfInBounds (i / 8) (assign byte (i % 8) value))
  | none => breach .bitOutOfRange

/-- The number of bytes that hold `bits` bits. The count of bits is raised to the next byte
within the range of sizes, so the very largest counts are given one byte less. -/
def bytesFor (bits : Nat) : Nat :=
  min (bits + 7) (Size.bound - 1) / 8

/-- The byte whose lowest `count` bits are set, for a `count` below eight. -/
def lowMask (count : Nat) : UInt8 :=
  (1 <<< UInt8.ofNat count) - 1

/-- Clears the bits at `length` and above in the byte that holds bit `length`, unless that
bit starts a byte. -/
def maskTrailing (bytes : Bytes) (length : Nat) : Bytes :=
  if length % 8 = 0 then bytes
  else bytes.modify (length / 8) (· &&& lowMask (length % 8))

/-- The number of bits set in a byte. -/
def ones (byte : UInt8) : Nat :=
  (List.range 8).countP (isSet byte)

/-- The number of bits set in a list of bytes. -/
def onesIn : (bytes : List UInt8) → Nat
  | [] => 0
  | byte :: rest => ones byte + onesIn rest

/-- The number of unset bits among the first `length` of a row. -/
def countZeros (bytes : Bytes) (length : Nat) : Result Nat := do
  unless length ≤ (← Size.mul bytes.size 8) do breach .bitOutOfRange
  let whole := onesIn (bytes.extract 0 (length / 8)).toList
  if length % 8 = 0 then
    Size.sub length whole
  else
    match bytes[length / 8]? with
    | some last => Size.sub length (whole + ones (last &&& lowMask (length % 8)))
    | none => breach .bitOutOfRange

/-- Byte `j` of the row that starts `shift` bits into byte `first` of `bytes`. Where the row
is not in step with the bytes, it straddles two of them; past the last byte there are only
zeros. -/
def straddling (bytes : Bytes) (first shift j : Nat) : Result UInt8 :=
  match bytes[first + j]? with
  | some low =>
    if shift = 0 then pure low
    else
      let high := (bytes[first + j + 1]?).getD 0
      pure ((low >>> UInt8.ofNat shift) ||| (high <<< UInt8.ofNat (8 - shift)))
  | none => breach .stretchOutOfRange

/-- `target` with the `length` bits of `source` from `offset` on in its first places. The
bits that follow them in their last byte are cleared, and all further bytes are kept.
Moving no bits is possible from and to anywhere. -/
def copyToStart (source : Bytes) (offset length : Nat) (target : Bytes) : Result Bytes := do
  if length = 0 then
    return target
  let stop ← Size.add offset length
  unless stop ≤ (← Size.mul source.size 8) do breach .bitOutOfRange
  let count := bytesFor length
  unless count ≤ target.size do breach .stretchOutOfRange
  -- the shifted bytes may bring bits past the stretch, which are masked off
  let moved ← (List.range count).mapM (straddling source (offset / 8) (offset % 8))
  return maskTrailing (moved.toArray ++ target.extract count target.size) length

end Bits

end Columnar
