import Columnar.Bitmap
import Columnar.Proofs.Bits.Bulk

/-! # Bitmaps as functions of the slot -/

namespace Columnar

namespace Bitmap

variable {σ : Type} {bitmap : Bitmap}

def bit (bitmap : Bitmap) (index : Nat) : Bool :=
  Bits.bit bitmap.bytes index

def update (bitmap : Bitmap) (index : Nat) (value : Bool) : Bitmap :=
  ⟨Bits.update bitmap.bytes index value⟩

def updateRun (bitmap : Bitmap) (value : Bool) (start : Nat) : (count : Nat) → Bitmap
  | 0 => bitmap
  | count + 1 => (bitmap.update start value).updateRun value (start + 1) count

/-- The bitmap with unset bits at its end, so that it has at least `bits`. -/
def extend (bitmap : Bitmap) (bits : Nat) : Bitmap :=
  ⟨bitmap.bytes ++ Bytes.zeros (Bits.bytesFor bits - bitmap.bytes.size)⟩

theorem get_eq_ok {index : Nat} (h : index < bitmap.bytes.size * 8) :
    bitmap.get index = .ok (bitmap.bit index) :=
  Bits.get_eq_ok h

theorem get_of_le {index : Nat} (h : bitmap.bytes.size * 8 ≤ index) :
    bitmap.get index = .error (.breach .bitOutOfRange) := by
  have hpast : bitmap.bytes.size ≤ index / 8 := by omega
  rw [Bitmap.get, Bits.get, Array.getElem?_eq_none hpast]
  rfl

theorem put_eq_ok {index : Nat} (h : index < bitmap.bytes.size * 8) (value : Bool) :
    bitmap.put index value = .ok (bitmap.update index value) := by
  simp [put, update, Bits.put_eq_ok h]

theorem put_of_le {index : Nat} (h : bitmap.bytes.size * 8 ≤ index) (value : Bool) :
    bitmap.put index value = .error (.breach .bitOutOfRange) := by
  have hpast : bitmap.bytes.size ≤ index / 8 := by omega
  rw [put, Bits.put, Array.getElem?_eq_none hpast]
  rfl

/-- A bitmap in which a bit was written is as long as it was. -/
theorem size_of_put {after : Bitmap} {index : Nat} {value : Bool}
    (h : bitmap.put index value = .ok after) : after.bytes.size = bitmap.bytes.size := by
  rcases Nat.lt_or_ge index (bitmap.bytes.size * 8) with hin | hout
  · rw [put_eq_ok hin] at h
    obtain rfl := Except.ok.inj h
    exact Bits.size_update _ _ _
  · rw [put_of_le hout] at h
    cases h

theorem size_of_putRun {after : Bitmap} {value : Bool} {start count : Nat}
    (h : bitmap.putRun value start count = .ok after) :
    after.bytes.size = bitmap.bytes.size := by
  induction count generalizing bitmap start with
  | zero =>
    obtain rfl := Except.ok.inj h
    rfl
  | succ count ih =>
    obtain ⟨first, hfirst, hrest⟩ := bind_eq_ok_iff.mp h
    exact (ih hrest).trans (size_of_put hfirst)

theorem bit_of_le {index : Nat} (h : bitmap.bytes.size * 8 ≤ index) : bitmap.bit index = false :=
  Bits.bit_of_le h

@[simp] theorem bit_empty (index : Nat) : empty.bit index = false :=
  Bits.bit_empty index

@[simp] theorem size_update (bitmap : Bitmap) (index : Nat) (value : Bool) :
    (bitmap.update index value).bytes.size = bitmap.bytes.size :=
  Bits.size_update bitmap.bytes index value

theorem bit_update {index : Nat} (h : index < bitmap.bytes.size * 8) (value : Bool) (j : Nat) :
    (bitmap.update index value).bit j = if j = index then value else bitmap.bit j :=
  Bits.bit_update h value j

@[simp] theorem size_updateRun (bitmap : Bitmap) (value : Bool) (start count : Nat) :
    (bitmap.updateRun value start count).bytes.size = bitmap.bytes.size := by
  induction count generalizing bitmap start with
  | zero => rfl
  | succ count ih => rw [updateRun, ih, size_update]

theorem putRun_eq_ok {start count : Nat} (h : start + count ≤ bitmap.bytes.size * 8)
    (value : Bool) :
    bitmap.putRun value start count = .ok (bitmap.updateRun value start count) := by
  induction count generalizing bitmap start with
  | zero => rfl
  | succ count ih =>
    rw [putRun, put_eq_ok (by omega), ok_bind, updateRun, ih]
    rw [size_update]
    omega

theorem bit_updateRun {start count : Nat} (h : start + count ≤ bitmap.bytes.size * 8)
    (value : Bool) (j : Nat) :
    (bitmap.updateRun value start count).bit j =
      if start ≤ j ∧ j < start + count then value else bitmap.bit j := by
  induction count generalizing bitmap start with
  | zero =>
    have hnone : ¬ (start ≤ j ∧ j < start + 0) := by omega
    rw [updateRun, if_neg hnone]
  | succ count ih =>
    have hrest : start + 1 + count ≤ (bitmap.update start value).bytes.size * 8 := by
      rw [size_update]
      omega
    rw [updateRun, ih hrest, bit_update (by omega)]
    by_cases hj : j = start
    · subst hj
      simp
    · have hsame : start + 1 ≤ j ∧ j < start + 1 + count ↔ start ≤ j ∧ j < start + (count + 1) := by
        omega
      simp only [hsame, hj, if_false]

@[simp] theorem size_extend (bitmap : Bitmap) (bits : Nat) :
    (bitmap.extend bits).bytes.size = max bitmap.bytes.size (Bits.bytesFor bits) := by
  simp only [extend, Array.size_append, Bytes.size_zeros]
  omega

@[simp] theorem bit_extend (bitmap : Bitmap) (bits j : Nat) :
    (bitmap.extend bits).bit j = bitmap.bit j :=
  Bits.bit_append_zeros _ _ j

theorem extend_of_le {bits : Nat} (h : Bits.bytesFor bits ≤ bitmap.bytes.size) :
    bitmap.extend bits = bitmap := by
  rw [extend, Nat.sub_eq_zero_of_le h]
  simp [Bytes.zeros]

/-- A bitmap grows if it need not or may. -/
theorem ensureCapacity_of_allows {allocator : Allocator} {bits : Nat}
    (h : Bits.bytesFor bits ≤ bitmap.bytes.size ∨
      allocator.Allows .validity (Bits.bytesFor bits)) :
    ensureCapacity bits allocator bitmap = ⟨.ok (), bitmap.extend bits, []⟩ := by
  unfold ensureCapacity
  simp only [Action.get_bind]
  by_cases hheld : bitmap.bytes.size < Bits.bytesFor bits
  · rw [if_pos hheld, Action.bind_of_ok (Action.reserve_of_allows h)]
    rfl
  · rw [if_neg hheld, extend_of_le (Nat.le_of_not_lt hheld)]
    rfl

/-- A bitmap that is asked to hold more bits does so, or memory was refused and it is as it
was. Only the memory of a bitmap that really grows is asked for. -/
theorem ensureCapacity_cases (allocator : Allocator) (bits : Nat) (bitmap : Bitmap) :
    (ensureCapacity bits allocator bitmap = ⟨.ok (), bitmap.extend bits, []⟩ ∧
        (Bits.bytesFor bits ≤ bitmap.bytes.size ∨
          allocator.grants .validity (Bits.bytesFor bits) = true)) ∨
      ∃ cause, ensureCapacity bits allocator bitmap =
        ⟨.error (.error (.raised cause)), bitmap, []⟩ := by
  unfold ensureCapacity
  simp only [Action.get_bind]
  by_cases hheld : bitmap.bytes.size < Bits.bytesFor bits
  · rw [if_pos hheld]
    obtain ⟨hok, hfits | ⟨-, hgrant⟩⟩ | ⟨cause, hrefused⟩ :=
      Action.reserve_cases allocator .validity bitmap.bytes.size (Bits.bytesFor bits) bitmap
    · exact absurd hfits (by omega)
    · refine .inl ⟨?_, .inr hgrant⟩
      rw [Action.bind_of_ok hok]
      rfl
    · exact .inr ⟨cause, Action.bind_apply_error hrefused⟩
  · have hfits : Bits.bytesFor bits ≤ bitmap.bytes.size := Nat.le_of_not_lt hheld
    rw [if_neg hheld, extend_of_le hfits]
    exact .inl ⟨rfl, .inl hfits⟩

theorem unsetBits_eq_ok (hcount : bitmap.bytes.size * 8 < Size.bound) {length : Nat}
    (h : length ≤ bitmap.bytes.size * 8) :
    bitmap.unsetBits length =
      .ok ((List.range length).countP fun index => !bitmap.bit index) :=
  Bits.countZeros_eq_ok hcount h

/-- A new bitmap is blank, or memory was refused and there is none. -/
theorem withCapacity_cases (allocator : Allocator) (length : Nat) (state : σ) :
    ((withCapacity length : Action σ Bitmap) allocator state =
          ⟨.ok (empty.extend length), state, []⟩ ∧
        (Bits.bytesFor length = 0 ∨
          allocator.grants .validity (Bits.bytesFor length) = true)) ∨
      ∃ cause, (withCapacity length : Action σ Bitmap) allocator state =
        ⟨.error (.error (.raised cause)), state, []⟩ := by
  rw [withCapacity, Action.build]
  obtain ⟨hok, hfits⟩ | ⟨cause, hrefused⟩ := ensureCapacity_cases allocator length empty
  · rw [hok]
    exact .inl ⟨rfl, hfits.imp_left Nat.le_zero.mp⟩
  · rw [hrefused]
    exact .inr ⟨cause, rfl⟩

theorem size_blank {length : Nat} (h : length + 7 < Size.bound) :
    (empty.extend length).bytes.size = (length + 7) / 8 := by
  rw [size_extend, Bits.bytesFor_eq h]
  exact Nat.zero_max _

/-- A slice is what a blank bitmap becomes when the stretch is moved to its start. -/
theorem slice_of_blank {blank : Bitmap} {offset length : Nat} {allocator : Allocator} {state : σ}
    (h : (withCapacity length : Action σ Bitmap) allocator state = ⟨.ok blank, state, []⟩) :
    bitmap.slice offset length allocator state =
      ⟨(Bits.copyToStart bitmap.bytes offset length blank.bytes).map Bitmap.mk, state, []⟩ := by
  rw [slice, Action.bind_of_ok h]
  cases Bits.copyToStart bitmap.bytes offset length blank.bytes with
  | ok _ => rfl
  | error _ => rfl

/-- A slice has the bytes of the blank bitmap that it was. -/
theorem size_of_slice {part : Bitmap} {offset length : Nat} {allocator : Allocator} {state : σ}
    (h : (bitmap.slice offset length allocator state).answer = .ok part) :
    part.bytes.size = Bits.bytesFor length := by
  obtain ⟨hblank, -⟩ | ⟨cause, hrefused⟩ := withCapacity_cases allocator length state
  · rw [slice_of_blank hblank] at h
    cases hmoved : Bits.copyToStart bitmap.bytes offset length (empty.extend length).bytes with
    | error failure =>
      rw [hmoved] at h
      cases h
    | ok moved =>
      rw [hmoved] at h
      obtain rfl := Except.ok.inj h
      rw [Bits.size_of_copyToStart hmoved, size_extend]
      exact Nat.zero_max _
  · rw [slice, Action.bind_apply_error hrefused] at h
    cases h

/-- Whatever comes of it, a stretch of bits is taken without a change of the state. -/
theorem state_slice (bitmap : Bitmap) (offset length : Nat) (allocator : Allocator) (state : σ) :
    (bitmap.slice offset length allocator state).state = state := by
  obtain ⟨hblank, -⟩ | ⟨cause, hrefused⟩ := withCapacity_cases allocator length state
  · rw [slice_of_blank hblank]
  · rw [slice, Action.bind_apply_error hrefused]

/-- A stretch of bits becomes a bitmap of just the bytes that it needs, or memory was
refused. All bits of that bitmap past the stretch are unset. -/
theorem slice_of_le (allocator : Allocator) {offset length : Nat}
    (hcount : bitmap.bytes.size * 8 < Size.bound) (hin : offset + length ≤ bitmap.bytes.size * 8)
    (state : σ) :
    (∃ part : Bitmap, bitmap.slice offset length allocator state = ⟨.ok part, state, []⟩ ∧
        part.bytes.size = (length + 7) / 8 ∧
        ((length + 7) / 8 = 0 ∨ allocator.grants .validity ((length + 7) / 8) = true) ∧
        ∀ j, part.bit j = (decide (j < length) && bitmap.bit (offset + j))) ∨
      ∃ cause, bitmap.slice offset length allocator state =
        ⟨.error (.error (.raised cause)), state, []⟩ := by
  have hlength : length + 7 < Size.bound := Bits.add_seven_lt hcount (by omega)
  have hneeded : Bits.bytesFor length = (length + 7) / 8 := Bits.bytesFor_eq hlength
  obtain ⟨hblank, hfits⟩ | ⟨cause, hrefused⟩ := withCapacity_cases allocator length state
  · have hempty : (empty.extend length).bytes.size = (length + 7) / 8 := size_blank hlength
    obtain ⟨moved, hmoved, hmovedSize, hbits⟩ :=
      Bits.copyToStart_eq_ok hcount hin (Nat.le_of_eq hempty.symm)
    refine .inl ⟨⟨moved⟩, ?_, hmovedSize.trans hempty, hneeded ▸ hfits, ?_⟩
    · rw [slice_of_blank hblank, hmoved]
      rfl
    · intro j
      have hblankBit : Bits.bit (empty.extend length).bytes j = false :=
        (bit_extend empty length j).trans (bit_empty j)
      show Bits.bit moved j = _
      rw [hbits, hblankBit]
      by_cases hj : j < length
      · simp [hj, bit]
      · simp [hj]
  · refine .inr ⟨cause, ?_⟩
    rw [slice, Action.bind_apply_error hrefused]

/-- A bounded allocator grants a stretch of bits less than the limit. -/
theorem slice_cases {allocator : Allocator} (hallocator : allocator.IsBounded) {offset length : Nat}
    (hin : offset + length ≤ bitmap.bytes.size * 8)
    (hsize : bitmap.bytes.size < Allocator.standardLimit) (state : σ) :
    (∃ part : Bitmap, bitmap.slice offset length allocator state = ⟨.ok part, state, []⟩ ∧
        part.bytes.size = (length + 7) / 8 ∧ part.bytes.size < Allocator.standardLimit ∧
        ∀ j, part.bit j = (decide (j < length) && bitmap.bit (offset + j))) ∨
      ∃ cause, bitmap.slice offset length allocator state =
        ⟨.error (.error (.raised cause)), state, []⟩ := by
  obtain ⟨part, hok, hpart, hfits, hbits⟩ | hrefused :=
    slice_of_le allocator (Bits.count_lt hsize) hin state
  · refine .inl ⟨part, hok, hpart, ?_, hbits⟩
    rw [hpart]
    rcases hfits with hnone | hgrant
    · rw [hnone]
      decide
    · exact hallocator .validity _ hgrant
  · exact .inr hrefused

end Bitmap

end Columnar
