/-! # Byte buffers -/

namespace Columnar

/-- A sequence of bytes held in memory. -/
abbrev Bytes := Array UInt8

namespace Bytes

/-- A run of `count` zero bytes. -/
def zeros (count : Nat) : Bytes :=
  Array.replicate count 0

/-- `bytes` with the stretch that starts at `start` replaced by `part`. -/
def overwrite (bytes : Bytes) (start : Nat) (part : Bytes) : Bytes :=
  bytes.extract 0 start ++ part ++ bytes.extract (start + part.size) bytes.size

@[simp] theorem size_zeros (count : Nat) : (zeros count).size = count := by
  simp [zeros]

/-- A stretch that lies inside a buffer can be replaced without moving its end. -/
theorem size_overwrite {bytes part : Bytes} {start : Nat}
    (h : start + part.size ≤ bytes.size) : (overwrite bytes start part).size = bytes.size := by
  simp only [overwrite, Array.size_append, Array.size_extract]
  omega

end Bytes

end Columnar
