import Columnar.Failure
import Columnar.LittleEndian
import Columnar.Text.FloatText

/-!
# Single values

A value of a primitive is its bit pattern, so that the sign of a zero and the payload of what is not
a number are kept.
-/

namespace Columnar

namespace Primitive

/-- Whether patterns of the primitive are read as signed integers. -/
def isSigned : Primitive → Bool
  | int8 | int16 | int32 | int64 | int128 => true
  | _ => false

/-- The format of a floating-point primitive. -/
def floatFormat? : Primitive → Option FloatFormat
  | float32 => some .binary32
  | float64 => some .binary64
  | _ => none

end Primitive

/-- A value of a primitive, as its bit pattern. -/
structure Scalar (primitive : Primitive) where
  bits : BitVec (8 * primitive.byteWidth)
  deriving DecidableEq

namespace Scalar

variable {primitive : Primitive}

/-- The pattern as bytes, least significant first. -/
def toBytes (value : Scalar primitive) : Bytes :=
  (LittleEndian.encode primitive.byteWidth value.bits.toNat).toArray

/-- The value whose pattern is given by bytes, least significant first. -/
def ofBytes (bytes : Bytes) : Result (Scalar primitive) :=
  if bytes.size = primitive.byteWidth then
    pure ⟨BitVec.ofNat _ (LittleEndian.decode bytes.toList)⟩
  else breach .lengthMismatch

/-- The pattern read as an integer, signed if the primitive is. -/
def toInt (value : Scalar primitive) : Int :=
  if primitive.isSigned then value.bits.toInt else value.bits.toNat

/-- The pattern that is read as `n`, if there is one. -/
def ofInt? (n : Int) : Option (Scalar primitive) :=
  let value : Scalar primitive := ⟨BitVec.ofInt _ n⟩
  if value.toInt = n then some value else none

/-- The value in decimal digits. -/
def text (value : Scalar primitive) : String :=
  match primitive.floatFormat? with
  | some format => format.text value.bits.toNat
  | none => toString value.toInt

@[simp] theorem size_toBytes (value : Scalar primitive) :
    value.toBytes.size = primitive.byteWidth := by
  simp [toBytes]

/-- The number of a pattern is one of as many bytes as the primitive has. -/
theorem toNat_lt_bound (value : Scalar primitive) :
    value.bits.toNat < LittleEndian.bound primitive.byteWidth := by
  have h := value.bits.isLt
  cases primitive <;> exact h

/-- A number of so many bytes is the number of its pattern. -/
theorem toNat_ofNat {n : Nat} (h : n < LittleEndian.bound primitive.byteWidth) :
    (BitVec.ofNat (8 * primitive.byteWidth) n).toNat = n := by
  rw [BitVec.toNat_ofNat]
  apply Nat.mod_eq_of_lt
  cases primitive <;> exact h

/-- The bytes of a value are read back as that value. -/
theorem ofBytes_toBytes (value : Scalar primitive) : ofBytes value.toBytes = .ok value := by
  have hread : LittleEndian.decode value.toBytes.toList = value.bits.toNat := by
    rw [toBytes, List.toList_toArray, LittleEndian.decode_encode_of_lt value.toNat_lt_bound]
  unfold ofBytes
  rw [if_pos value.size_toBytes, hread, BitVec.ofNat_toNat, BitVec.setWidth_eq]
  rfl

/-- Bytes of the right number are the bytes of some value, and are read as that. -/
theorem ofBytes_of_size {bytes : Bytes} (h : bytes.size = primitive.byteWidth) :
    ∃ value : Scalar primitive, ofBytes bytes = .ok value ∧ value.toBytes = bytes := by
  refine ⟨⟨BitVec.ofNat _ (LittleEndian.decode bytes.toList)⟩, ?_, ?_⟩
  · unfold ofBytes
    rw [if_pos h]
    rfl
  · have hlength : bytes.toList.length = primitive.byteWidth := h
    have hlt := LittleEndian.decode_lt bytes.toList
    rw [hlength] at hlt
    rw [toBytes, toNat_ofNat hlt, ← hlength, LittleEndian.encode_decode]

theorem toBytes_inj {value other : Scalar primitive} (h : value.toBytes = other.toBytes) :
    value = other := by
  have hread := ofBytes_toBytes value
  rw [h, ofBytes_toBytes] at hread
  exact (Except.ok.inj hread).symm

end Scalar

end Columnar
