import Columnar.Ipc.Alignment
import Columnar.Proofs.Action
import Mathlib

/-! # How much padding there is -/

namespace Columnar.Ipc

namespace Alignment

theorem check_eq_ok {alignment : Nat} (h : check alignment = .ok ()) :
    IsPowerOfTwo alignment := by
  rw [check] at h
  by_cases halignment : IsPowerOfTwo alignment
  · exact halignment
  · rw [if_neg halignment] at h
    cases h

/-- Clearing the low bits of a number rounds it down. -/
theorem toNat_and_not {x k : Nat} (hx : x < Size.bound) (hk : 2 ^ k < Size.bound) :
    (UInt64.ofNat x &&& ~~~UInt64.ofNat (2 ^ k - 1)).toNat = x / 2 ^ k * 2 ^ k := by
  have hbound : Size.bound = 2 ^ 64 := rfl
  have hpos := Nat.two_pow_pos k
  have hword : (UInt64.ofNat x).toNat = x := Nat.mod_eq_of_lt (by omega)
  have hmask : (UInt64.ofNat (2 ^ k - 1)).toNat = 2 ^ k - 1 := Nat.mod_eq_of_lt (by omega)
  have hsize : UInt64.size - 1 - (2 ^ k - 1) = 2 ^ 64 - (2 ^ k - 1 + 1) := by
    simp only [UInt64.size]
    omega
  rw [UInt64.toNat_and, UInt64.toNat_not, hword, hmask, hsize, ← Nat.shiftRight_eq_div_pow,
    ← Nat.shiftLeft_eq]
  apply Nat.eq_of_testBit_eq
  intro i
  rw [Nat.testBit_and, Nat.testBit_two_pow_sub_succ (by omega), Nat.testBit_two_pow_sub_one,
    Nat.testBit_shiftLeft, Nat.testBit_shiftRight]
  by_cases hi : i < k
  · simp [hi, Nat.not_le_of_lt hi]
  · have hle : k ≤ i := Nat.le_of_not_lt hi
    have hshift : k + (i - k) = i := by omega
    by_cases hlow : i < 64
    · simp [hi, hle, hlow, hshift]
    · have hhigh : x.testBit i = false :=
        Nat.testBit_lt_two_pow (Nat.lt_of_lt_of_le (hbound ▸ hx)
          (Nat.pow_le_pow_right (by decide) (Nat.le_of_not_lt hlow)))
      simp [hle, hshift, hhigh]

/-- The first multiple of the alignment that is not below the length. -/
def roundUp (length alignment : Nat) : Nat :=
  (length + alignment - 1) / alignment * alignment

theorem le_roundUp (length : Nat) {alignment : Nat} (hpos : 0 < alignment) :
    length ≤ roundUp length alignment := by
  have hmod := Nat.mod_lt (length + alignment - 1) hpos
  have hsplit := Nat.div_add_mod' (length + alignment - 1) alignment
  rw [roundUp]
  omega

theorem roundUp_lt (length : Nat) {alignment : Nat} (hpos : 0 < alignment) :
    roundUp length alignment < length + alignment := by
  have hsplit := Nat.div_add_mod' (length + alignment - 1) alignment
  rw [roundUp]
  omega

/-- Every multiple that is not below the length is not below the first. -/
theorem isLeast_roundUp (length : Nat) {alignment : Nat} (hpos : 0 < alignment) :
    IsLeast {multiple | alignment ∣ multiple ∧ length ≤ multiple} (roundUp length alignment) := by
  refine ⟨⟨Nat.dvd_mul_left _ _, le_roundUp length hpos⟩, ?_⟩
  rintro _ ⟨⟨count, rfl⟩, hle⟩
  have hlt : roundUp length alignment < (count + 1) * alignment := by
    have hupper := roundUp_lt length hpos
    rw [Nat.add_mul, Nat.one_mul, Nat.mul_comm]
    omega
  rw [Nat.mul_comm]
  exact Nat.mul_le_mul_right alignment (Nat.le_of_lt_succ (Nat.lt_of_mul_lt_mul_right hlt))

/-- The number of bytes up to the next multiple of a power of two, as long as it can be told. -/
theorem padding_of_lt {length alignment : Nat} (halignment : IsPowerOfTwo alignment)
    (hlt : length + alignment < Size.bound) :
    padding length alignment = .ok (roundUp length alignment - length) := by
  obtain ⟨k, rfl⟩ := isPowerOfTwo_iff.mp halignment
  rw [Nat.one_shiftLeft] at hlt ⊢
  have hpos := Nat.two_pow_pos k
  have hrounded : (UInt64.ofNat (length + 2 ^ k - 1) &&& ~~~UInt64.ofNat (2 ^ k - 1)).toNat =
      roundUp length (2 ^ k) := toNat_and_not (by omega) (by omega)
  rw [padding, Size.add_eq_ok hlt, ok_bind]
  simp only [hrounded]
  exact Size.sub_eq_ok (le_roundUp length hpos)

/-- The length of a buffer in memory and an alignment have a sum of 64 bits. -/
theorem add_lt_bound {length alignment : Nat} (hlength : length < Allocator.standardLimit)
    (halignment : IsPowerOfTwo alignment) (hbound : alignment < Size.bound) :
    length + alignment < Size.bound := by
  obtain ⟨k, rfl⟩ := isPowerOfTwo_iff.mp halignment
  rw [Nat.one_shiftLeft] at hbound ⊢
  have hk : k < 64 := (Nat.pow_lt_pow_iff_right (by decide)).mp hbound
  have hmax : 2 ^ k ≤ 2 ^ 63 := Nat.pow_le_pow_right (by decide) (by omega)
  simp only [Allocator.standardLimit, Size.bound] at hlength ⊢
  omega

theorem padding_of_buffer {length alignment : Nat} (hlength : length < Allocator.standardLimit)
    (halignment : IsPowerOfTwo alignment) (hbound : alignment < Size.bound) :
    padding length alignment = .ok (roundUp length alignment - length) :=
  padding_of_lt halignment (add_lt_bound hlength halignment hbound)

/-- The sum of a length and the alignment is the step that fails. -/
theorem padding_of_le {length alignment : Nat} (hle : Size.bound ≤ length + alignment) :
    padding length alignment = .error (.breach .sizeOverflow) := by
  rw [padding, Size.add_of_le hle, error_bind]

/-- A length and its padding make a multiple of the alignment, with as little padding as
possible. -/
theorem padding_eq_ok {length alignment added : Nat} (halignment : IsPowerOfTwo alignment)
    (h : padding length alignment = .ok added) :
    alignment ∣ length + added ∧ added < alignment := by
  have hpos := halignment.pos
  have hlt : length + alignment < Size.bound := by
    by_contra hlarge
    rw [padding_of_le (Nat.le_of_not_lt hlarge)] at h
    cases h
  rw [padding_of_lt halignment hlt] at h
  obtain rfl := Except.ok.inj h
  have hlower := le_roundUp length hpos
  have hupper := roundUp_lt length hpos
  rw [Nat.add_sub_cancel' hlower]
  exact ⟨Nat.dvd_mul_left _ _, by omega⟩

/-- The padding with every sum and every difference on the way checked, those that make the mask
among them. -/
def checkedPadding (length alignment : Nat) : Result Nat := do
  let top ← Size.add length alignment
  let last ← Size.sub top 1
  let low ← Size.sub alignment 1
  Size.sub (UInt64.ofNat last &&& ~~~UInt64.ofNat low).toNat length

/-- One can be taken off an alignment and off what it was added to, so these steps never fail. -/
theorem checkedPadding_eq_padding (length : Nat) {alignment : Nat} (hpos : 0 < alignment) :
    checkedPadding length alignment = padding length alignment := by
  rw [checkedPadding, padding]
  by_cases hlt : length + alignment < Size.bound
  · rw [Size.add_eq_ok hlt, ok_bind, ok_bind, Size.sub_eq_ok (by omega), ok_bind,
      Size.sub_eq_ok hpos, ok_bind]
  · rw [Size.add_of_le (Nat.le_of_not_lt hlt), error_bind, error_bind]

/-- Two paddings of one length differ by a multiple of the alignment, and only one of them lies
below it. -/
theorem eq_of_dvd_add {length alignment added other : Nat} (hadded : added < alignment)
    (hdvd : alignment ∣ length + added) (hother : other < alignment)
    (hdvd' : alignment ∣ length + other) : added = other := by
  have hmod : added ≡ other [MOD alignment] :=
    Nat.ModEq.add_left_cancel' length
      ((Nat.modEq_zero_iff_dvd.mpr hdvd).trans (Nat.modEq_zero_iff_dvd.mpr hdvd').symm)
  exact hmod.eq_of_lt_of_lt hadded hother

/-- For every power of two: a length whose sum with the alignment is one of 64 bits has a padding,
which is the only number below the alignment that makes a multiple of it, and no step on the way
leaves 64 bits. Of every other length already this sum does. -/
theorem padding_exact {length alignment : Nat} (halignment : IsPowerOfTwo alignment) :
    (length + alignment < Size.bound →
      ∃ added, padding length alignment = .ok added ∧
        checkedPadding length alignment = .ok added ∧
        added < alignment ∧ alignment ∣ length + added ∧
        ∀ other, other < alignment → alignment ∣ length + other → other = added) ∧
    (Size.bound ≤ length + alignment →
      Size.add length alignment = .error (.breach .sizeOverflow) ∧
        padding length alignment = .error (.breach .sizeOverflow) ∧
        checkedPadding length alignment = .error (.breach .sizeOverflow)) := by
  have hchecked := checkedPadding_eq_padding length halignment.pos
  refine ⟨?_, ?_⟩
  · intro hlt
    have hpadding := padding_of_lt halignment hlt
    obtain ⟨hdvd, hsmall⟩ := padding_eq_ok halignment hpadding
    refine ⟨_, hpadding, hchecked.trans hpadding, hsmall, hdvd, ?_⟩
    intro other hother hmultiple
    exact eq_of_dvd_add hother hmultiple hsmall hdvd
  · intro hle
    have hpadding := padding_of_le hle
    exact ⟨Size.add_of_le hle, hpadding, hchecked.trans hpadding⟩

/-- At the largest alignment of 64 bits, one byte follows the last length that has a padding. The
next length is a multiple of the alignment and has none. -/
theorem padding_exact_at_bound :
    IsPowerOfTwo (2 ^ 63) ∧
      2 ^ 63 - 1 + 2 ^ 63 < Size.bound ∧ padding (2 ^ 63 - 1) (2 ^ 63) = .ok 1 ∧
      Size.bound ≤ 2 ^ 63 + 2 ^ 63 ∧
        padding (2 ^ 63) (2 ^ 63) = .error (.breach .sizeOverflow) := by
  have halignment : IsPowerOfTwo (2 ^ 63) := isPowerOfTwo_iff.mpr ⟨63, rfl⟩
  have hlt : 2 ^ 63 - 1 + 2 ^ 63 < Size.bound := by decide
  have hle : Size.bound ≤ 2 ^ 63 + 2 ^ 63 := by decide
  obtain ⟨added, hpadding, -, -, -, hunique⟩ := (padding_exact halignment).1 hlt
  obtain rfl : 1 = added := hunique 1 (by decide) (by decide)
  obtain ⟨-, hfails, -⟩ := (padding_exact halignment).2 hle
  exact ⟨halignment, hlt, hpadding, hle, hfails⟩

end Alignment

end Columnar.Ipc
