import Columnar.Column.Write
import Columnar.Proofs.Bytes
import Columnar.Proofs.Column.Growth

/-! # What writing a slot does to a column -/

namespace Columnar

namespace Column

/-- The column with `value` in slot `index` of its capacity, or with a null there, the bytes
of the slot being left in place. -/
def withSlot (column : Column) (index : Nat) (value : Option Bytes) : Column :=
  { column with
    validity := column.validity.update index value.isSome
    values :=
      match value with
      | some bytes => column.values.overwrite (index * column.width) bytes
      | none => column.values
    length := max column.length (index + 1) }

variable {column source : Column} {index position : Nat} {value : Bytes} {allocator : Allocator}

namespace Reaches

theorem value_end_le (h : column.Reaches index) (hvalue : value.size = column.width) :
    index * column.width + value.size ≤ column.values.size := by
  have hend := h.end_le
  rw [Nat.add_mul, Nat.one_mul] at hend
  rw [hvalue]
  exact hend

theorem bit_withSlot (h : column.Reaches index) (value : Option Bytes) (j : Nat) :
    (column.withSlot index value).validity.bit j =
      if j = index then value.isSome else column.validity.bit j :=
  Bitmap.bit_update h.bit_lt _ j

/-- A null leaves the bytes of its slot in place, and no write touches those of other slots. -/
theorem stored_withSlot (h : column.Reaches index) {value : Option Bytes}
    (hvalue : ∀ bytes, value = some bytes → bytes.size = column.width) (j : Nat) :
    (column.withSlot index value).stored j =
      if j = index then value.getD (column.stored j) else column.stored j := by
  cases value with
  | none => simp [stored, withSlot]
  | some bytes =>
    have hsize := hvalue bytes rfl
    have hend := h.value_end_le hsize
    show (column.values.overwrite (index * column.width) bytes).extract (j * column.width)
      ((j + 1) * column.width) = _
    by_cases hj : j = index
    · subst hj
      have hstop : (j + 1) * column.width = j * column.width + bytes.size := by
        rw [Nat.add_mul, Nat.one_mul, hsize]
      rw [if_pos rfl, hstop, Bytes.extract_overwrite_self hend, Option.getD_some]
    · have hdisjoint : (j + 1) * column.width ≤ index * column.width ∨
          index * column.width + bytes.size ≤ j * column.width := by
        rw [hsize, ← Nat.succ_mul]
        rcases Nat.lt_or_gt_of_ne hj with hbefore | hafter
        · exact .inl (Nat.mul_le_mul_right _ hbefore)
        · exact .inr (Nat.mul_le_mul_right _ hafter)
      rw [if_neg hj, Bytes.extract_overwrite_of_disjoint hend hdisjoint, stored]

/-- A value that was written is in its slot. -/
theorem slot_withSlot_self (h : column.Reaches index) (hvalue : value.size = column.width) :
    (column.withSlot index (some value)).slot index = some value := by
  have hsize : ∀ bytes, some value = some bytes → bytes.size = column.width := by
    rintro _ ⟨⟩
    exact hvalue
  simp [slot_eq, h.bit_withSlot, h.stored_withSlot hsize]

end Reaches

namespace WellFormed

theorem index_lt (h : column.WellFormed) (hindex : index < column.capacity) :
    index < column.validity.bytes.size * 8 :=
  Nat.lt_of_lt_of_le hindex h.capacity_le

theorem value_end_le (h : column.WellFormed) (hindex : index < column.capacity)
    (hvalue : value.size = column.width) :
    index * column.width + value.size ≤ column.values.size :=
  (h.reaches hindex).value_end_le hvalue

theorem withSlot (h : column.WellFormed) (hindex : index < column.capacity) {value : Option Bytes}
    (hvalue : ∀ bytes, value = some bytes → bytes.size = column.width) :
    (column.withSlot index value).WellFormed := by
  have hsize : (column.withSlot index value).values.size = column.values.size := by
    cases value with
    | none => rfl
    | some bytes => exact Bytes.size_overwrite (h.value_end_le hindex (hvalue bytes rfl))
  exact
    { width_eq := h.width_eq
      size_values := hsize.trans h.size_values
      size_validity := (Bitmap.size_update _ _ _).trans h.size_validity
      length_le := Nat.max_le.mpr ⟨h.length_le, hindex⟩
      bit_eq_false := by
        intro j hj
        have hlength : column.length ≤ j := Nat.le_trans (Nat.le_max_left _ _) hj
        have hafter : index + 1 ≤ j := Nat.le_trans (Nat.le_max_right _ _) hj
        show (column.validity.update index value.isSome).bit j = false
        rw [Bitmap.bit_update (h.index_lt hindex), if_neg (by omega)]
        exact h.bit_eq_false j hlength
      values_lt := Nat.lt_of_le_of_lt (Nat.le_of_eq hsize) h.values_lt
      validity_lt := by
        show (column.validity.update index value.isSome).bytes.size < _
        rw [Bitmap.size_update]
        exact h.validity_lt }

theorem slot_withSlot (h : column.WellFormed) (hindex : index < column.capacity)
    {value : Option Bytes} (hvalue : ∀ bytes, value = some bytes → bytes.size = column.width)
    (j : Nat) :
    (column.withSlot index value).slot j = if j = index then value else column.slot j := by
  have hreaches := h.reaches hindex
  rw [slot_eq, slot_eq, hreaches.bit_withSlot, hreaches.stored_withSlot hvalue]
  by_cases hj : j = index
  · cases value with
    | none => simp [hj]
    | some bytes => simp [hj]
  · simp [hj]

end WellFormed

theorem insistRoom_of_lt (hindex : index < column.capacity) :
    insistRoom index allocator column = ⟨.ok (), column, []⟩ := by
  rw [insistRoom, Action.getThe_bind, if_pos hindex]
  rfl

theorem insistRoom_of_le (hindex : column.capacity ≤ index) :
    insistRoom index allocator column =
      ⟨.error (.breach (.slotOutOfCapacity index column.capacity column.name)), column, []⟩ := by
  rw [insistRoom, Action.getThe_bind, if_neg (by omega)]
  rfl

theorem extendLength_eq (hindex : index + 1 < Size.bound) :
    extendLength index allocator column =
      ⟨.ok (), { column with length := max column.length (index + 1) }, []⟩ := by
  rw [extendLength, Size.add_eq_ok hindex]
  rfl

theorem Reaches.writeValue_eq (h : column.Reaches index) (hvalue : value.size = column.width) :
    writeValue index value allocator column =
      ⟨.ok (), column.withSlot index (some value), []⟩ := by
  have hstretch : index * column.width ≤ (index + 1) * column.width ∧
      (index + 1) * column.width ≤ column.values.size :=
    ⟨Nat.mul_le_mul_right _ (Nat.le_succ index), h.end_le⟩
  have hsize : value.size = column.width ∧
      value.size = (index + 1) * column.width - index * column.width := by
    rw [Nat.add_mul, Nat.one_mul, Nat.add_sub_cancel_left]
    exact ⟨hvalue, hvalue⟩
  unfold writeValue
  rw [Action.bind_of_ok (insistRoom_of_lt h.index_lt), Action.getThe_bind, h.slotBounds_eq_ok,
    Action.liftM_ok_bind]
  simp only [if_pos hstretch, if_pos hsize, Action.modify_bind, Bitmap.put_eq_ok h.bit_lt,
    Action.liftM_ok_bind]
  rw [extendLength_eq h.next_lt]
  rfl

theorem writeValue_eq (h : column.WellFormed) (hindex : index < column.capacity)
    (hvalue : value.size = column.width) :
    writeValue index value allocator column =
      ⟨.ok (), column.withSlot index (some value), []⟩ :=
  (h.reaches hindex).writeValue_eq hvalue

theorem writeValue_of_le (hindex : column.capacity ≤ index) :
    writeValue index value allocator column =
      ⟨.error (.breach (.slotOutOfCapacity index column.capacity column.name)), column, []⟩ := by
  rw [writeValue, Action.bind_apply_error (insistRoom_of_le hindex)]

theorem Reaches.setNull_eq (h : column.Reaches index) :
    setNull index allocator column = ⟨.ok (), column.withSlot index none, []⟩ := by
  rw [setNull, Action.bind_of_ok (insistRoom_of_lt h.index_lt), Action.getThe_bind,
    Bitmap.put_eq_ok h.bit_lt, Action.liftM_ok_bind, Action.modify_bind,
    extendLength_eq h.next_lt]
  rfl

theorem setNull_eq (h : column.WellFormed) (hindex : index < column.capacity) :
    setNull index allocator column = ⟨.ok (), column.withSlot index none, []⟩ :=
  (h.reaches hindex).setNull_eq

theorem setNull_of_le (hindex : column.capacity ≤ index) :
    setNull index allocator column =
      ⟨.error (.breach (.slotOutOfCapacity index column.capacity column.name)), column, []⟩ := by
  rw [setNull, Action.bind_apply_error (insistRoom_of_le hindex)]

theorem checkWidth_of_eq {width : Nat} (h : column.width = width) :
    column.checkWidth width = .ok () := by
  rw [checkWidth, if_pos h]
  rfl

theorem checkWidth_of_ne {width : Nat} (h : column.width ≠ width) :
    column.checkWidth width = .error (.error (.raised (.elementWidth column.width width))) := by
  rw [checkWidth, if_neg h]
  rfl

theorem copySlot_of_none (hsource : source.WellFormed) (hslot : source.slot position = none)
    (index : Nat) :
    copySlot source position index allocator column = ⟨.ok (), column, []⟩ := by
  rw [copySlot, hsource.get?_eq_ok, Action.liftM_ok_bind, hslot]
  rfl

theorem copySlot_of_some (hsource : source.WellFormed) (hslot : source.slot position = some value)
    (index : Nat) :
    copySlot source position index allocator column = writeValue index value allocator column := by
  rw [copySlot, hsource.get?_eq_ok, Action.liftM_ok_bind, hslot]

end Column

end Columnar
