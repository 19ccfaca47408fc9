import Columnar.Column.Transfer
import Columnar.Proofs.Column.Write

/-! # What handing over slots does to two columns -/

namespace Columnar

namespace Column

/-- The target with the buffers of the source. Its name and type stay its own. -/
def holding (target source : Column) : Column :=
  { target with
    validity := source.validity
    values := source.values
    length := source.length
    capacity := source.capacity }

/-- The target with the values of `length` slots of the source and the bits that say which of
them are null. -/
def withPart (target source : Column) (validity : Bitmap) (start length : Nat) : Column :=
  { target with
    validity
    values := source.values.extract (start * source.width) ((start + length) * source.width)
    length
    capacity := length }

variable {source target : Column} {start length : Nat} {allocator : Allocator}

theorem WellFormed.cleared {column : Column} (h : column.WellFormed) : column.cleared.WellFormed :=
  { wellFormed_empty column.name column.dtype with
    width_eq := h.width_eq
    size_values := by simp [Column.cleared] }

theorem WellFormed.holding (htarget : target.WellFormed) (hsource : source.WellFormed)
    (hwidth : source.width = target.width) : (target.holding source).WellFormed :=
  { hsource with
    width_eq := htarget.width_eq
    size_values := by
      show source.values.size = source.capacity * target.width
      rw [← hwidth]
      exact hsource.size_values }

theorem contents_holding (hwidth : source.width = target.width) :
    (target.holding source).contents = source.contents := by
  have hslot : (target.holding source).slot = source.slot := by
    funext index
    unfold slot holding
    rw [hwidth]
  show (List.range source.length).map (target.holding source).slot = _
  rw [hslot, contents]

theorem size_withPart (hstop : (start + length) * source.width ≤ source.values.size)
    (validity : Bitmap) :
    (target.withPart source validity start length).values.size = length * source.width := by
  show (source.values.extract _ _).size = _
  rw [Array.size_extract, Nat.min_eq_left hstop, Nat.add_mul, Nat.add_sub_cancel_left]

/-- A range of slots within the length of the source makes a well-formed column. -/
theorem WellFormed.withPart (htarget : target.WellFormed) (hsource : source.WellFormed)
    (hwidth : source.width = target.width) (hin : start + length ≤ source.length)
    {part : Bitmap} (hsize : part.bytes.size = (length + 7) / 8)
    (hlt : part.bytes.size < Allocator.standardLimit)
    (hbits : ∀ j, part.bit j = (decide (j < length) && source.validity.bit (start + j))) :
    (target.withPart source part start length).WellFormed := by
  have hstop : (start + length) * source.width ≤ source.values.size := by
    rw [hsource.size_values]
    exact Nat.mul_le_mul_right _ (Nat.le_trans hin hsource.length_le)
  have hvalues : (target.withPart source part start length).values.size =
      length * source.width := size_withPart hstop part
  exact
    { width_eq := htarget.width_eq
      size_values := hvalues.trans (congrArg (length * ·) hwidth)
      size_validity := hsize
      length_le := Nat.le_refl length
      bit_eq_false := by
        intro j hj
        have hj : ¬ j < length := Nat.not_lt_of_le hj
        show part.bit j = false
        rw [hbits, decide_eq_false hj, Bool.false_and]
      values_lt := by
        have hbelow : length * source.width ≤ source.values.size :=
          Nat.le_trans (Nat.mul_le_mul_right _ (Nat.le_add_left length start)) hstop
        rw [hvalues]
        exact Nat.lt_of_le_of_lt hbelow hsource.values_lt
      validity_lt := hlt }

theorem slot_withPart (hsource : source.WellFormed) (hwidth : source.width = target.width)
    (hin : start + length ≤ source.length) {part : Bitmap}
    (hbits : ∀ j, part.bit j = (decide (j < length) && source.validity.bit (start + j)))
    {j : Nat} (hj : j < length) :
    (target.withPart source part start length).slot j = source.slot (start + j) := by
  have hbit : part.bit j = source.validity.bit (start + j) := by simp [hbits, hj]
  simp only [slot, withPart, hbit, ← hwidth]
  split
  · have hbelow : (start + length) * source.width ≤ source.values.size := by
      rw [hsource.size_values]
      exact Nat.mul_le_mul_right _ (Nat.le_trans hin hsource.length_le)
    have hstop : (start + j + 1) * source.width ≤ (start + length) * source.width :=
      Nat.mul_le_mul_right _ (by omega)
    have hfirst : start * source.width + j * source.width = (start + j) * source.width :=
      (Nat.add_mul _ _ _).symm
    have hlast : start * source.width + (j + 1) * source.width = (start + j + 1) * source.width :=
      (Nat.add_mul _ _ _).symm
    rw [Array.extract_extract, hfirst, hlast, Nat.min_eq_left hstop]
  · rfl

/-- The contents of a part are the sublist of the contents of the source. -/
theorem contents_withPart (hsource : source.WellFormed) (hwidth : source.width = target.width)
    (hin : start + length ≤ source.length) {part : Bitmap}
    (hbits : ∀ j, part.bit j = (decide (j < length) && source.validity.bit (start + j))) :
    (target.withPart source part start length).contents =
      (source.contents.drop start).take length := by
  apply contents_eq
  · rw [List.length_take, List.length_drop, length_contents]
    show min length _ = length
    omega
  · intro j hj
    have hj : j < length := hj
    rw [List.getElem?_take_of_lt hj, List.getElem?_drop, contents_getElem?, if_pos (by omega),
      slot_withPart hsource hwidth hin hbits hj]

theorem transfer_eq (hwidth : source.width = target.width) :
    transfer allocator ⟨source, target⟩ =
      ⟨.ok (), ⟨source.cleared, target.holding source⟩, []⟩ := by
  rw [transfer, Action.getThe_bind, checkWidth_of_eq hwidth]
  rfl

theorem transfer_of_ne (hwidth : source.width ≠ target.width) :
    transfer allocator ⟨source, target⟩ =
      ⟨.error (.error (.raised (.elementWidth source.width target.width))), ⟨source, target⟩,
        []⟩ := by
  rw [transfer, Action.getThe_bind, checkWidth_of_ne hwidth]
  rfl

/-- A range of slots is copied, or it is not a range of the source, or memory was refused. -/
theorem splitInto_cases (hallocator : allocator.IsBounded) (hsource : source.WellFormed)
    (htarget : target.WellFormed) (hwidth : source.width = target.width) (start length : Nat) :
    (∃ part : Bitmap,
        splitInto start length allocator ⟨source, target⟩ =
          ⟨.ok (), ⟨source, target.withPart source part start length⟩, []⟩ ∧
        start + length ≤ source.length ∧
        (∀ j, part.bit j = (decide (j < length) && source.validity.bit (start + j))) ∧
        (target.withPart source part start length).WellFormed) ∨
      ∃ cause, splitInto start length allocator ⟨source, target⟩ =
        ⟨.error (.error (.raised cause)), ⟨source, target⟩, []⟩ := by
  unfold splitInto
  rw [Action.getThe_bind]
  by_cases hbound : ¬ start + length < Size.bound
  · simp only [hbound, if_false]
    exact .inr ⟨.splitOverflow start, rfl⟩
  by_cases hin : ¬ start + length ≤ source.length
  · simp only [Classical.not_not.mp hbound, hin, if_true, if_false]
    exact .inr ⟨.splitOutOfBounds start (start + length) source.name source.length, rfl⟩
  rw [Classical.not_not] at hbound hin
  simp only [if_pos hbound, if_pos hin]
  -- the range ends within both buffers of the source
  have hcapacity : start + length ≤ source.validity.bytes.size * 8 :=
    Nat.le_trans hin (Nat.le_trans hsource.length_le hsource.capacity_le)
  have hstop : (start + length) * source.width ≤ source.values.size := by
    rw [hsource.size_values]
    exact Nat.mul_le_mul_right _ (Nat.le_trans hin hsource.length_le)
  have hstart : start * source.width ≤ (start + length) * source.width :=
    Nat.mul_le_mul_right _ (Nat.le_add_right start length)
  have hlength : length * source.width ≤ (start + length) * source.width :=
    Nat.mul_le_mul_right _ (Nat.le_add_left length start)
  obtain ⟨part, hslice, hsize, hlt, hbits⟩ | ⟨cause, hrefused⟩ :=
    Bitmap.slice_cases hallocator hcapacity hsource.validity_lt (⟨source, target⟩ : Pair Column)
  · rw [Action.bind_of_ok hslice,
      Size.mul_eq_ok (hsource.size_lt_bound (Nat.le_trans hlength hstop)), Action.liftM_ok_bind]
    obtain ⟨hok, -⟩ | ⟨cause, hrefused⟩ := Action.reserve_cases allocator .values 0
      (length * source.width) (⟨source, target⟩ : Pair Column)
    · refine .inl ⟨part, ?_, hin, hbits, htarget.withPart hsource hwidth hin hsize hlt hbits⟩
      rw [Action.bind_of_ok hok,
        Size.mul_eq_ok (hsource.size_lt_bound (Nat.le_trans hstart hstop)), Action.liftM_ok_bind,
        Size.mul_eq_ok (hsource.size_lt_bound hstop), Action.liftM_ok_bind,
        Bytes.stretch_eq_ok hstart hstop, Action.liftM_ok_bind]
      rfl
    · exact .inr ⟨cause, Action.bind_apply_error hrefused⟩
  · exact .inr ⟨cause, Action.bind_apply_error hrefused⟩

theorem splitAndTransfer_of_eq (hwidth : source.width = target.width) (start length : Nat) :
    splitAndTransfer start length allocator ⟨source, target⟩ =
      splitInto start length allocator ⟨source, target⟩ := by
  rw [splitAndTransfer, Action.getThe_bind, checkWidth_of_eq hwidth]
  rfl

theorem splitAndTransfer_of_ne (hwidth : source.width ≠ target.width) (start length : Nat) :
    splitAndTransfer start length allocator ⟨source, target⟩ =
      ⟨.error (.error (.raised (.elementWidth source.width target.width))), ⟨source, target⟩,
        []⟩ := by
  rw [splitAndTransfer, Action.getThe_bind, checkWidth_of_ne hwidth]
  rfl

end Column

end Columnar
