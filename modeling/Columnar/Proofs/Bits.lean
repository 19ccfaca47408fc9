import Columnar.Bits
import Columnar.Proofs.Action

/-!
# Rows of bits

A row of bytes is the function that gives every place its bit, and all places past the end an unset
one. Every operation on bits is described by what it does to that function.
-/

namespace Columnar

namespace Bits

theorem toBitVec_shiftLeft {byte : UInt8} {i : Nat} (h : i < 8) :
    (byte <<< UInt8.ofNat i).toBitVec = byte.toBitVec <<< i := by
  have hmod : (UInt8.ofNat i).toBitVec.toNat % 8 = i := by
    simp
    omega
  rw [UInt8.toBitVec_shiftLeft, BitVec.shiftLeft_eq', BitVec.toNat_umod]
  exact congrArg (byte.toBitVec <<< ·) hmod

theorem toBitVec_shiftRight {byte : UInt8} {i : Nat} (h : i < 8) :
    (byte >>> UInt8.ofNat i).toBitVec = byte.toBitVec >>> i := by
  have hmod : (UInt8.ofNat i).toBitVec.toNat % 8 = i := by
    simp
    omega
  rw [UInt8.toBitVec_shiftRight, BitVec.ushiftRight_eq', BitVec.toNat_umod]
  exact congrArg (byte.toBitVec >>> ·) hmod

theorem isSet_eq_getLsbD {byte : UInt8} {i : Nat} (h : i < 8) :
    isSet byte i = byte.toBitVec.getLsbD i := by
  have hmask : (byte &&& (1 <<< UInt8.ofNat i)).toBitVec =
      if byte.toBitVec.getLsbD i then BitVec.twoPow 8 i else 0#8 := by
    rw [UInt8.toBitVec_and, toBitVec_shiftLeft h, ← BitVec.and_twoPow]
    rfl
  have hpow : BitVec.twoPow 8 i ≠ 0#8 := by
    intro hzero
    have hbit := congrArg (fun v => v.getLsbD i) hzero
    simp [h] at hbit
  unfold isSet
  rw [Bool.eq_iff_iff, bne_iff_ne, ne_eq, ← UInt8.toBitVec_inj, hmask]
  cases byte.toBitVec.getLsbD i with
  | false => simp
  | true => simpa using hpow

theorem getLsbD_toUInt8 (value : Bool) (i : Nat) :
    value.toUInt8.toBitVec.getLsbD i = (decide (i = 0) && value) := by
  cases value with
  | false => simp
  | true => simp

theorem isSet_assign {byte : UInt8} {i j : Nat} {value : Bool} (hi : i < 8) (hj : j < 8) :
    isSet (assign byte i value) j = if j = i then value else isSet byte j := by
  have hone : (1 : UInt8).toBitVec = true.toUInt8.toBitVec := rfl
  rw [isSet_eq_getLsbD hj, isSet_eq_getLsbD hj, assign, UInt8.toBitVec_or, UInt8.toBitVec_and,
    UInt8.toBitVec_not, toBitVec_shiftLeft hi, toBitVec_shiftLeft hi]
  simp only [BitVec.getLsbD_or, BitVec.getLsbD_and, BitVec.getLsbD_not,
    BitVec.getLsbD_shiftLeft, hj, hone, getLsbD_toUInt8]
  by_cases hji : j = i
  · subst hji
    simp
  · have hdiff : j < i ∨ j - i ≠ 0 := by omega
    rcases hdiff with hlt | hne
    · simp [hlt, hji]
    · simp [hne, hji]

theorem isSet_and {a b : UInt8} {j : Nat} (hj : j < 8) :
    isSet (a &&& b) j = (isSet a j && isSet b j) := by
  rw [isSet_eq_getLsbD hj, isSet_eq_getLsbD hj, isSet_eq_getLsbD hj, UInt8.toBitVec_and,
    BitVec.getLsbD_and]

theorem isSet_lowMask : ∀ count < 8, ∀ j < 8, isSet (lowMask count) j = decide (j < count) := by
  decide

theorem isSet_zero : ∀ j < 8, isSet 0 j = false := by
  decide

/-- A byte put together from the high bits of one byte and the low bits of the next. -/
theorem isSet_straddling {low high : UInt8} {shift j : Nat} (hpos : 0 < shift)
    (hshift : shift < 8) (hj : j < 8) :
    isSet ((low >>> UInt8.ofNat shift) ||| (high <<< UInt8.ofNat (8 - shift))) j =
      if shift + j < 8 then isSet low (shift + j) else isSet high (shift + j - 8) := by
  rw [isSet_eq_getLsbD hj, UInt8.toBitVec_or, toBitVec_shiftRight hshift,
    toBitVec_shiftLeft (by omega), BitVec.getLsbD_or, BitVec.getLsbD_ushiftRight,
    BitVec.getLsbD_shiftLeft]
  split
  · next hlow =>
    have hbelow : j < 8 - shift := by omega
    rw [isSet_eq_getLsbD hlow]
    simp [hbelow]
  · next hhigh =>
    have habove : ¬ j < 8 - shift := by omega
    have hplace : j - (8 - shift) = shift + j - 8 := by omega
    rw [isSet_eq_getLsbD (by omega), BitVec.getLsbD_of_ge _ _ (by omega), hplace]
    simp [habove, hj]

/-- The bit at place `i` of a row. All places past the end are unset. -/
def bit (bytes : Bytes) (i : Nat) : Bool :=
  match bytes[i / 8]? with
  | some byte => isSet byte (i % 8)
  | none => false

/-- The row with the bit at place `i` made equal to `value`. -/
def update (bytes : Bytes) (i : Nat) (value : Bool) : Bytes :=
  bytes.modify (i / 8) (assign · (i % 8) value)

variable {bytes : Bytes} {i : Nat}

theorem get_eq_ok (h : i < bytes.size * 8) : get bytes i = .ok (bit bytes i) := by
  have hbyte : i / 8 < bytes.size := by omega
  simp [get, bit, Array.getElem?_eq_getElem hbyte]

theorem put_eq_ok (h : i < bytes.size * 8) (value : Bool) :
    put bytes i value = .ok (update bytes i value) := by
  have hbyte : i / 8 < bytes.size := by omega
  have hset : bytes.setIfInBounds (i / 8) (assign bytes[i / 8] (i % 8) value) =
      update bytes i value := by
    apply Array.ext_getElem?
    intro j
    rw [update, Array.getElem?_modify, Array.getElem?_setIfInBounds]
    split
    · next hj =>
      subst hj
      simp [hbyte]
    · rfl
  simp only [put, Array.getElem?_eq_getElem hbyte, pure_eq_ok, hset]

theorem bit_of_le (h : bytes.size * 8 ≤ i) : bit bytes i = false := by
  have hbyte : bytes.size ≤ i / 8 := by omega
  simp [bit, Array.getElem?_eq_none hbyte]

theorem bit_eq_testBit (bytes : Bytes) (i : Nat) :
    bit bytes i = (bytes[i / 8]?.getD 0).toNat.testBit (i % 8) := by
  cases hbyte : bytes[i / 8]? with
  | none => simp [bit, hbyte]
  | some byte =>
    have hplace : i % 8 < 8 := Nat.mod_lt i (by decide)
    simp only [bit, hbyte, Option.getD_some]
    rw [isSet_eq_getLsbD hplace, ← BitVec.testBit_toNat, UInt8.toNat_toBitVec]

theorem bit_of_getElem? {j k : Nat} {byte : UInt8} (h : bytes[j]? = some byte) (hk : k < 8) :
    bit bytes (8 * j + k) = isSet byte k := by
  have hquot : (8 * j + k) / 8 = j := by omega
  have hrem : (8 * j + k) % 8 = k := by omega
  simp [bit, hquot, hrem, h]

@[simp] theorem size_update (bytes : Bytes) (i : Nat) (value : Bool) :
    (update bytes i value).size = bytes.size := by
  simp [update]

theorem bit_update (h : i < bytes.size * 8) (value : Bool) (j : Nat) :
    bit (update bytes i value) j = if j = i then value else bit bytes j := by
  simp only [bit, update, Array.getElem?_modify]
  by_cases hbyte : i / 8 = j / 8
  · have hin : j / 8 < bytes.size := by omega
    have hplace : j % 8 = i % 8 ↔ j = i := by omega
    simp [hbyte, Array.getElem?_eq_getElem hin, isSet_assign (Nat.mod_lt i (by decide))
      (Nat.mod_lt j (by decide)), hplace]
  · have hne : j ≠ i := by
      intro h
      exact hbyte (h ▸ rfl)
    simp [hbyte, hne]

@[simp] theorem bit_append_zeros (bytes : Bytes) (count i : Nat) :
    bit (bytes ++ Bytes.zeros count) i = bit bytes i := by
  by_cases hbyte : i / 8 < bytes.size
  · simp [bit, Array.getElem?_append_left hbyte]
  · have hnone : bytes[i / 8]? = none := Array.getElem?_eq_none (by omega)
    simp only [bit, Array.getElem?_append_right (Nat.le_of_not_lt hbyte), hnone]
    by_cases hzero : i / 8 - bytes.size < count
    · simp [Bytes.zeros, hzero, isSet_zero _ (Nat.mod_lt i (by decide))]
    · simp [Bytes.zeros, hzero]

theorem bit_extract (bytes : Bytes) (count i : Nat) :
    bit (bytes.extract 0 count) i = (decide (i < count * 8) && bit bytes i) := by
  have hlt : i < count * 8 ↔ i / 8 < count := by omega
  simp only [bit, Array.getElem?_extract, Nat.sub_zero, Nat.zero_add, hlt, Nat.lt_min]
  by_cases hcount : i / 8 < count
  · by_cases hsize : i / 8 < bytes.size
    · simp [hcount, hsize]
    · simp [hcount, hsize]
  · simp [hcount]

@[simp] theorem bit_empty (i : Nat) : bit #[] i = false :=
  bit_of_le (Nat.zero_le i)

/-- The number of bytes for a count of bits that is not among the very largest. -/
theorem bytesFor_eq {bits : Nat} (h : bits + 7 < Size.bound) : bytesFor bits = (bits + 7) / 8 := by
  rw [bytesFor, Nat.min_eq_left (by omega)]

/-- The count of bytes saturates only for counts of bits above any size of a buffer. -/
theorem bytesFor_of_le_maxSize {bits : Nat} (h : bits ≤ Allocator.maxSize) :
    bytesFor bits = (bits + 7) / 8 := by
  apply bytesFor_eq
  simp only [Allocator.maxSize, Size.bound] at h ⊢
  omega

/-- A length within a row is eight below the bound of sizes, if the bits of the row can be
counted. -/
theorem add_seven_lt {length : Nat} (hcount : bytes.size * 8 < Size.bound)
    (h : length ≤ bytes.size * 8) : length + 7 < Size.bound := by
  simp only [Size.bound] at hcount ⊢
  omega

/-- A number of bytes that can be had at all is not one of the very largest. -/
theorem bytesFor_of_lt {bits : Nat} (h : bytesFor bits < Allocator.standardLimit) :
    bytesFor bits = (bits + 7) / 8 := by
  apply bytesFor_eq
  simp only [bytesFor, Allocator.standardLimit, Size.bound] at h ⊢
  omega

/-- The bits of as many bytes as a count of bits takes can be counted, also where that count is
one of the very largest. -/
theorem bytesFor_mul_lt (bits : Nat) : bytesFor bits * 8 < Size.bound := by
  simp only [bytesFor, Size.bound]
  omega

/-- The bits of a row that can be had at all can be counted. -/
theorem count_lt (h : bytes.size < Allocator.standardLimit) : bytes.size * 8 < Size.bound := by
  simp only [Allocator.standardLimit, Size.bound] at h ⊢
  omega

@[simp] theorem size_maskTrailing (bytes : Bytes) (length : Nat) :
    (maskTrailing bytes length).size = bytes.size := by
  unfold maskTrailing
  split <;> simp

/-- Masking clears the bits from `length` to the end of the byte that holds bit `length - 1`. -/
theorem bit_maskTrailing (bytes : Bytes) (length i : Nat) :
    bit (maskTrailing bytes length) i =
      (decide (i < length ∨ (length + 7) / 8 * 8 ≤ i) && bit bytes i) := by
  unfold maskTrailing
  split
  · next hwhole =>
    have hall : i < length ∨ (length + 7) / 8 * 8 ≤ i := by omega
    simp [hall]
  · next hpart =>
    simp only [bit, Array.getElem?_modify]
    by_cases hbyte : length / 8 = i / 8
    · have hkeep : (i < length ∨ (length + 7) / 8 * 8 ≤ i) ↔ i % 8 < length % 8 := by omega
      simp only [hbyte, if_true, hkeep]
      cases bytes[i / 8]? with
      | none => simp
      | some byte =>
        have hmask := isSet_lowMask (length % 8) (Nat.mod_lt _ (by decide)) (i % 8)
          (Nat.mod_lt _ (by decide))
        simp [isSet_and (Nat.mod_lt i (by decide)), hmask, Bool.and_comm]
    · have hkeep : i < length ∨ (length + 7) / 8 * 8 ≤ i := by omega
      simp [hbyte, hkeep]

end Bits

end Columnar
