import Columnar.Proofs.Bitmap
import Columnar.Proofs.Bits.Repacking

/-! # Slices of bitmaps -/

namespace Columnar

namespace Bitmap

variable {σ : Type} {bitmap : Bitmap} {offset length : Nat} {allocator : Allocator} {state : σ}

theorem withCapacity_of_allows (h : allocator.Allows .validity (Bits.bytesFor length)) :
    (withCapacity length : Action σ Bitmap) allocator state =
      ⟨.ok (empty.extend length), state, []⟩ := by
  rw [withCapacity, Action.build, ensureCapacity_of_allows (.inr h)]
  rfl

/-- The bitmap has the bits of a stretch of another, and as many bytes as they need. -/
structure IsSlice (part bitmap : Bitmap) (offset length : Nat) : Prop where
  size_eq : part.bytes.size = (length + 7) / 8
  bit_eq : ∀ k, part.bit k = (decide (k < length) && bitmap.bit (offset + k))

/-- A blank bitmap that a stretch was moved to is the slice. -/
theorem isSlice_of_repacks {moved : Bytes} (hlength : length + 7 < Size.bound)
    (h : Bits.Repacks bitmap.bytes offset length (empty.extend length).bytes moved) :
    IsSlice ⟨moved⟩ bitmap offset length where
  size_eq := h.size_eq.trans (size_blank hlength)
  bit_eq := by
    intro k
    show Bits.bit moved k = _
    by_cases hk : k < length
    · rw [h.bit_eq k hk, decide_eq_true hk, Bool.true_and, bit]
    · rw [decide_eq_false hk, Bool.false_and]
      by_cases hlast : k < (length + 7) / 8 * 8
      · exact h.bit_eq_false k (Nat.le_of_not_lt hk) hlast
      · apply Bits.bit_of_le
        rw [h.size_eq, size_blank hlength]
        omega

/-- A stretch of bits becomes a bitmap of just the bytes that it needs if their memory is
granted. -/
theorem slice_of_allows (hcount : bitmap.bytes.size * 8 < Size.bound)
    (hin : 0 < length → offset + length ≤ bitmap.bytes.size * 8)
    (h : allocator.Allows .validity ((length + 7) / 8)) (state : σ) :
    ∃ part, bitmap.slice offset length allocator state = ⟨.ok part, state, []⟩ ∧
      IsSlice part bitmap offset length := by
  have hlength : length + 7 < Size.bound := Bits.add_seven_lt hcount (by omega)
  have hblank : (withCapacity length : Action σ Bitmap) allocator state =
      ⟨.ok (empty.extend length), state, []⟩ := by
    apply withCapacity_of_allows
    rwa [Bits.bytesFor_eq hlength]
  obtain ⟨moved, hmoved, hrepacks⟩ :=
    Bits.exists_repacks hcount hin (Nat.le_of_eq (size_blank hlength).symm)
  refine ⟨⟨moved⟩, ?_, isSlice_of_repacks hlength hrepacks⟩
  rw [slice_of_blank hblank, hmoved]
  rfl

/-- A slice was taken of a stretch that lies in the bitmap. -/
theorem isSlice_of_slice {part : Bitmap} (hcount : bitmap.bytes.size * 8 < Size.bound)
    (h : (bitmap.slice offset length allocator state).answer = .ok part) :
    (0 < length → offset + length ≤ bitmap.bytes.size * 8) ∧
      IsSlice part bitmap offset length := by
  obtain ⟨hblank, -⟩ | ⟨cause, hrefused⟩ := withCapacity_cases allocator length state
  · rw [slice_of_blank hblank] at h
    have hin : 0 < length → offset + length ≤ bitmap.bytes.size * 8 := by
      intro hpos
      apply Nat.le_of_not_lt
      intro hout
      obtain ⟨reason, hbreach⟩ := Bits.copyToStart_of_out hcount hpos
        (.inl hout : _ ∨ (empty.extend length).bytes.size < (length + 7) / 8)
      rw [hbreach] at h
      cases h
    have hlength : length + 7 < Size.bound := by
      simp only [Size.bound] at hcount ⊢
      omega
    obtain ⟨moved, hmoved, hrepacks⟩ :=
      Bits.exists_repacks hcount hin (Nat.le_of_eq (size_blank hlength).symm)
    rw [hmoved] at h
    obtain rfl := Except.ok.inj h
    exact ⟨hin, isSlice_of_repacks hlength hrepacks⟩
  · rw [slice, Action.bind_apply_error hrefused] at h
    cases h

/-- Equal stretches have the same slices, whatever surrounds them and wherever in a byte they
begin, and memory is refused to the one exactly if it is refused to the other. -/
theorem slice_congr {first second : Bitmap} {i j : Nat}
    (hfirst : first.bytes.size * 8 < Size.bound) (hsecond : second.bytes.size * 8 < Size.bound)
    (hi : 0 < length → i + length ≤ first.bytes.size * 8)
    (hj : 0 < length → j + length ≤ second.bytes.size * 8)
    (hbits : ∀ k < length, first.bit (i + k) = second.bit (j + k)) (allocator : Allocator)
    (state : σ) :
    first.slice i length allocator state = second.slice j length allocator state := by
  have hlength : length + 7 < Size.bound := by
    simp only [Size.bound] at hfirst ⊢
    omega
  obtain ⟨hblank, -⟩ | ⟨cause, hrefused⟩ := withCapacity_cases allocator length state
  · rw [slice_of_blank hblank, slice_of_blank hblank,
      Bits.copyToStart_congr hfirst hsecond hi hj (Nat.le_of_eq (size_blank hlength).symm) hbits]
  · rw [slice, slice, Action.bind_apply_error hrefused, Action.bind_apply_error hrefused]

/-- A slice of a slice is a slice of the whole. -/
theorem slice_slice {part : Bitmap} {start extent : Nat}
    (hcount : bitmap.bytes.size * 8 < Size.bound)
    (hpart : (bitmap.slice start extent allocator state).answer = .ok part)
    (hin : offset + length ≤ extent) (other : Allocator) (after : σ) :
    part.slice offset length other after = bitmap.slice (start + offset) length other after := by
  obtain ⟨hextent, hslice⟩ := isSlice_of_slice hcount hpart
  have hsize := hslice.size_eq
  apply slice_congr
  · simp only [Size.bound] at hcount ⊢
    omega
  · exact hcount
  · omega
  · omega
  · intro k hk
    have hk : offset + k < extent := by omega
    rw [hslice.bit_eq, decide_eq_true hk, Bool.true_and, Nat.add_assoc]

/-- A stretch of bits that lies in its source, from wherever in a byte, is moved to the start of a
row with room for it. What follows in its last byte is cleared, and all further bytes stay. A
stretch of at least one bit that does not lie in its source, or has no room, is a breach, and the
row stays as it was. No bits at all can be taken from anywhere, and change nothing. So a slice of a
bitmap is as many bytes as its bits need, it is the same wherever the same bits stand, and a slice
of a slice is a slice of the whole. All of this is for rows whose bits can be counted in 64 bits,
as those of any row in memory can. -/
theorem stretches_repacked :
    (∀ (source target : Bytes) (offset length : Nat) (allocator : Allocator),
      source.size * 8 < Size.bound →
      ((0 < length → offset + length ≤ source.size * 8) → (length + 7) / 8 ≤ target.size →
        ∃ moved, Bits.copyToStart source offset length target = .ok moved ∧
          Bits.copyInto source offset length allocator target = ⟨.ok (), moved, []⟩ ∧
          Bits.Repacks source offset length target moved) ∧
      (0 < length → source.size * 8 < offset + length ∨ target.size < (length + 7) / 8 →
        ∃ reason, Bits.copyToStart source offset length target = .error (.breach reason) ∧
          Bits.copyInto source offset length allocator target =
            ⟨.error (.breach reason), target, []⟩) ∧
      (length = 0 → Bits.copyToStart source offset length target = .ok target ∧
        Bits.copyInto source offset length allocator target = ⟨.ok (), target, []⟩)) ∧
    (∀ (bitmap : Bitmap) (offset length : Nat) (allocator : Allocator) (state : σ),
      bitmap.bytes.size * 8 < Size.bound →
      (0 < length → offset + length ≤ bitmap.bytes.size * 8) →
      allocator.Allows .validity ((length + 7) / 8) →
      ∃ part, bitmap.slice offset length allocator state = ⟨.ok part, state, []⟩ ∧
        IsSlice part bitmap offset length) ∧
    (∀ (first second : Bitmap) (i j length : Nat) (allocator : Allocator) (state : σ),
      first.bytes.size * 8 < Size.bound → second.bytes.size * 8 < Size.bound →
      (0 < length → i + length ≤ first.bytes.size * 8) →
      (0 < length → j + length ≤ second.bytes.size * 8) →
      (∀ k < length, first.bit (i + k) = second.bit (j + k)) →
      first.slice i length allocator state = second.slice j length allocator state) ∧
    ∀ (bitmap part : Bitmap) (start extent offset length : Nat) (allocator other : Allocator)
      (state after : σ), bitmap.bytes.size * 8 < Size.bound →
      (bitmap.slice start extent allocator state).answer = .ok part →
      offset + length ≤ extent →
      part.slice offset length other after =
        bitmap.slice (start + offset) length other after := by
  refine ⟨?_, ?_, ?_, ?_⟩
  · intro source target offset length allocator hcount
    have hinto := Bits.copyInto_apply source offset length allocator target
    refine ⟨?_, ?_, ?_⟩
    · intro hin hroom
      obtain ⟨moved, hmoved, hrepacks⟩ := Bits.exists_repacks hcount hin hroom
      rw [hmoved] at hinto
      exact ⟨moved, hmoved, hinto, hrepacks⟩
    · intro hlength hout
      obtain ⟨reason, hbreach⟩ := Bits.copyToStart_of_out hcount hlength hout
      rw [hbreach] at hinto
      exact ⟨reason, hbreach, hinto⟩
    · rintro rfl
      rw [Bits.copyToStart_zero] at hinto
      exact ⟨Bits.copyToStart_zero, hinto⟩
  · exact fun _ _ _ _ state hcount hin hallows => slice_of_allows hcount hin hallows state
  · exact fun _ _ _ _ _ allocator state hfirst hsecond hi hj hbits =>
      slice_congr hfirst hsecond hi hj hbits allocator state
  · exact fun _ _ _ _ _ _ _ other _ after hcount hpart hin =>
      slice_slice hcount hpart hin other after

/-- Nine bits from the third on straddle the bytes that they come from and go to. They arrive the
same when the stretch from the first on is cut out before. From the eighth on there are not nine. -/
theorem stretches_repacked_of_straddling :
    let source : Bytes := #[0x4d, 0x0b]
    Bits.Repacks source 3 9 #[0xff, 0xff, 0xff] #[0x69, 0x01, 0xff] ∧
      (∃ reason, Bits.copyInto source 8 9 .standard #[0xff, 0xff] =
        ⟨.error (.breach reason), #[0xff, 0xff], []⟩) ∧
      ∃ part whole, (Bitmap.slice ⟨source⟩ 1 12 .standard ()).answer = .ok part ∧
        part.slice 2 9 .standard () = ⟨.ok whole, (), []⟩ ∧
        IsSlice whole ⟨source⟩ 3 9 ∧ whole = ⟨#[0x69, 0x01]⟩ := by
  intro source
  obtain ⟨hmove, hslice, -, htwice⟩ := @stretches_repacked Unit
  have hcount : source.size * 8 < Size.bound := by decide
  obtain ⟨moved, hmoved, -, hrepacks⟩ :=
    (hmove source #[0xff, 0xff, 0xff] 3 9 .standard hcount).1 (by decide) (by decide)
  obtain ⟨reason, -, hbreach⟩ :=
    (hmove source #[0xff, 0xff] 8 9 .standard hcount).2.1 (by decide) (by decide)
  have hallows : Allocator.standard.Allows .validity 2 :=
    Allocator.allows_standard_iff.mpr (by decide)
  obtain ⟨part, hpart, -⟩ := hslice ⟨source⟩ 1 12 .standard () hcount (by decide) hallows
  obtain ⟨whole, hwhole, hisSlice⟩ := hslice ⟨source⟩ 3 9 .standard () hcount (by decide) hallows
  have hanswer := congrArg Outcome.answer hpart
  have hrow : Bits.copyToStart source 3 9 #[0xff, 0xff, 0xff] = .ok #[0x69, 0x01, 0xff] := by cbv
  have hblank : (withCapacity 9 : Action Unit Bitmap) .standard () =
      ⟨.ok (empty.extend 9), (), []⟩ := withCapacity_of_allows hallows
  have hpacked : Bits.copyToStart source 3 9 (empty.extend 9).bytes = .ok #[0x69, 0x01] := by cbv
  have hfound : (Bitmap.slice ⟨source⟩ 3 9 .standard ()).answer = .ok ⟨#[0x69, 0x01]⟩ := by
    rw [slice_of_blank hblank, hpacked]
    rfl
  obtain rfl := Except.ok.inj (hrow.symm.trans hmoved)
  refine ⟨hrepacks, ⟨reason, hbreach⟩, part, whole, hanswer, ?_, hisSlice, ?_⟩
  · exact (htwice ⟨source⟩ part 1 12 2 9 .standard .standard () () hcount hanswer (by decide)).trans
      hwhole
  · exact Except.ok.inj ((congrArg Outcome.answer hwhole).symm.trans hfound)

end Bitmap

end Columnar
