/-! # Powers of two -/

namespace Columnar

/-- A number that is two to the power of its binary logarithm. Zero is not. -/
def IsPowerOfTwo (n : Nat) : Prop :=
  1 <<< n.log2 = n

instance : DecidablePred IsPowerOfTwo :=
  fun n => inferInstanceAs (Decidable (1 <<< n.log2 = n))

/-- The least power of two above `n`. -/
def powerAbove (n : Nat) : Nat :=
  if n = 0 then 1 else 1 <<< (n.log2 + 1)

theorem isPowerOfTwo_iff {n : Nat} : IsPowerOfTwo n ↔ ∃ k, n = 1 <<< k := by
  constructor
  · intro h
    exact ⟨n.log2, h.symm⟩
  · rintro ⟨k, rfl⟩
    have hk : (1 <<< k).log2 = k := by rw [Nat.one_shiftLeft, Nat.log2_two_pow]
    rw [IsPowerOfTwo, hk]

theorem IsPowerOfTwo.pos {n : Nat} (h : IsPowerOfTwo n) : 0 < n := by
  obtain ⟨k, rfl⟩ := isPowerOfTwo_iff.mp h
  rw [Nat.one_shiftLeft]
  exact Nat.two_pow_pos k

theorem isPowerOfTwo_powerAbove (n : Nat) : IsPowerOfTwo (powerAbove n) := by
  rw [isPowerOfTwo_iff]
  unfold powerAbove
  split
  · exact ⟨0, rfl⟩
  · exact ⟨_, rfl⟩

theorem lt_powerAbove (n : Nat) : n < powerAbove n := by
  unfold powerAbove
  split
  · omega
  · rw [Nat.one_shiftLeft]
    exact Nat.lt_log2_self

/-- No power of two lies between a number and the least power above it. -/
theorem powerAbove_le {n m : Nat} (hm : IsPowerOfTwo m) (h : n < m) : powerAbove n ≤ m := by
  unfold powerAbove
  split
  · exact hm.pos
  · obtain ⟨k, rfl⟩ := isPowerOfTwo_iff.mp hm
    rename_i hn
    rw [Nat.one_shiftLeft] at h ⊢
    rw [Nat.one_shiftLeft]
    exact Nat.pow_le_pow_right (by decide) ((Nat.log2_lt hn).mpr h)

end Columnar
