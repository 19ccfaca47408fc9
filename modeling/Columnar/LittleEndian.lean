/-! # Little-endian words -/

namespace Columnar

namespace LittleEndian

/-- The `width` low bytes of `value`, least significant first. -/
def encode : (width : Nat) → (value : Nat) → List UInt8
  | 0, _ => []
  | width + 1, value => UInt8.ofNat value :: encode width (value / 256)

/-- The number that `bytes` denotes, least significant byte first. -/
def decode : (bytes : List UInt8) → Nat
  | [] => 0
  | byte :: rest => byte.toNat + 256 * decode rest

/-- One more than the largest number of `width` bytes. -/
def bound : (width : Nat) → Nat
  | 0 => 1
  | width + 1 => 256 * bound width

@[simp] theorem length_encode (width value : Nat) : (encode width value).length = width := by
  induction width generalizing value with
  | zero => rfl
  | succ width ih => simp [encode, ih]

/-- Reading an encoded number back gives it modulo the bound of its width. -/
theorem decode_encode (width value : Nat) :
    decode (encode width value) = value % bound width := by
  induction width generalizing value with
  | zero => simp [encode, decode, bound, Nat.mod_one]
  | succ width ih => rw [encode, decode, bound, ih, UInt8.toNat_ofNat', Nat.mod_mul]

/-- A number that fits its width is read back unchanged. -/
theorem decode_encode_of_lt {width value : Nat} (h : value < bound width) :
    decode (encode width value) = value := by
  rw [decode_encode, Nat.mod_eq_of_lt h]

/-- A list of bytes denotes a number of so many bytes. -/
theorem decode_lt (bytes : List UInt8) : decode bytes < bound bytes.length := by
  induction bytes with
  | nil => exact Nat.one_pos
  | cons byte rest ih =>
    have hbyte := byte.toNat_lt
    rw [decode, List.length_cons, bound]
    omega

/-- A list of bytes is the encoding of the number it denotes. -/
theorem encode_decode (bytes : List UInt8) : encode bytes.length (decode bytes) = bytes := by
  induction bytes with
  | nil => rfl
  | cons byte rest ih =>
    -- the first byte is the remainder and the rest the quotient
    have hlow : UInt8.ofNat (byte.toNat + 256 * decode rest) = byte := by
      apply UInt8.toNat_inj.mp
      rw [UInt8.toNat_ofNat']
      have := byte.toNat_lt
      omega
    have hhigh : (byte.toNat + 256 * decode rest) / 256 = decode rest := by
      have := byte.toNat_lt
      omega
    rw [List.length_cons, encode, decode, hlow, hhigh, ih]

end LittleEndian

end Columnar
