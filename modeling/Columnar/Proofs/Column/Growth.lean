import Columnar.Column.Growth
import Columnar.Proofs.Column.WellFormed

/-! # What making room does to a column -/

namespace Columnar

namespace Column

/-- The column with buffers for exactly `capacity` slots, unless it has as many already. -/
def grow (column : Column) (capacity : Nat) : Column :=
  if capacity ≤ column.capacity then column
  else
    { column with
      validity := column.validity.extend capacity
      values := column.values ++ Bytes.zeros (capacity * column.width - column.values.size)
      capacity }

/-- What is reported of growing to `capacity` slots. -/
def growth (column : Column) (capacity : Nat) : List Event :=
  if capacity ≤ column.capacity then []
  else [.grew column.name column.width column.capacity capacity]

/-- The capacity of the column once it has room for slot `index`. -/
def roomFor (column : Column) (index : Nat) : Nat :=
  if index < column.capacity then column.capacity else powerAbove index

def withRoom (column : Column) (index : Nat) : Column :=
  column.grow (column.roomFor index)

/-- The column ending after `count` slots of its capacity, with the slots it loses null. -/
def resized (column : Column) (count : Nat) : Column :=
  { column with
    validity := column.validity.updateRun false count (column.length - count)
    length := count }

/-- What is reported of making room for `count` slots. -/
def lengthGrowth (column : Column) (count : Nat) : List Event :=
  if 0 < count then column.growth (column.roomFor (count - 1)) else []

/-- The column ending after `count` slots, with room for them. -/
def withLength (column : Column) (count : Nat) : Column :=
  (if 0 < count then column.withRoom (count - 1) else column).resized count

variable {column : Column} {capacity index : Nat}

@[simp] theorem name_grow (column : Column) (capacity : Nat) :
    (column.grow capacity).name = column.name := by
  unfold grow
  split <;> rfl

@[simp] theorem width_grow (column : Column) (capacity : Nat) :
    (column.grow capacity).width = column.width := by
  unfold grow
  split <;> rfl

@[simp] theorem dtype_grow (column : Column) (capacity : Nat) :
    (column.grow capacity).dtype = column.dtype := by
  unfold grow
  split <;> rfl

@[simp] theorem length_grow (column : Column) (capacity : Nat) :
    (column.grow capacity).length = column.length := by
  unfold grow
  split <;> rfl

@[simp] theorem capacity_grow (column : Column) (capacity : Nat) :
    (column.grow capacity).capacity = max column.capacity capacity := by
  unfold grow
  split
  · next h => exact (Nat.max_eq_left h).symm
  · next h => exact (Nat.max_eq_right (Nat.le_of_not_le h)).symm

@[simp] theorem bit_grow (column : Column) (capacity index : Nat) :
    (column.grow capacity).validity.bit index = column.validity.bit index := by
  unfold grow
  split
  · rfl
  · exact Bitmap.bit_extend _ _ _

theorem lt_capacity_withRoom (column : Column) (index : Nat) :
    index < (column.withRoom index).capacity := by
  rw [withRoom, capacity_grow, roomFor]
  split
  · next h => exact Nat.lt_of_lt_of_le h (Nat.le_max_left _ _)
  · exact Nat.lt_of_lt_of_le (lt_powerAbove index) (Nat.le_max_right _ _)

theorem dtype_withLength (column : Column) (count : Nat) :
    (column.withLength count).dtype = column.dtype := by
  rw [withLength]
  split
  · exact dtype_grow _ _
  · rfl

namespace WellFormed

theorem grow (h : column.WellFormed)
    (hvalues : capacity * column.width < Allocator.standardLimit)
    (hvalidity : Bits.bytesFor capacity < Allocator.standardLimit) :
    (column.grow capacity).WellFormed := by
  by_cases hroom : capacity ≤ column.capacity
  · rw [Column.grow, if_pos hroom]
    exact h
  have hbytes := Bits.bytesFor_of_lt hvalidity
  have hmore : column.values.size ≤ capacity * column.width := by
    rw [h.size_values]
    exact Nat.mul_le_mul_right _ (Nat.le_of_not_le hroom)
  have hheld := h.size_validity
  -- the new size is not below the old one, so what is added makes up for the difference
  have hvaluesSize : (column.values ++
      Bytes.zeros (capacity * column.width - column.values.size)).size =
        capacity * column.width := by
    rw [Array.size_append, Bytes.size_zeros]
    omega
  have hvaliditySize : (column.validity.extend capacity).bytes.size = (capacity + 7) / 8 := by
    rw [Bitmap.size_extend, hbytes]
    omega
  rw [Column.grow, if_neg hroom]
  exact
    { width_eq := h.width_eq
      size_values := hvaluesSize
      size_validity := hvaliditySize
      length_le := Nat.le_trans h.length_le (Nat.le_of_not_le hroom)
      bit_eq_false := fun index hindex =>
        (Bitmap.bit_extend _ _ _).trans (h.bit_eq_false index hindex)
      values_lt := Nat.lt_of_le_of_lt (Nat.le_of_eq hvaluesSize) hvalues
      validity_lt := by
        show (column.validity.extend capacity).bytes.size < _
        rw [hvaliditySize, ← hbytes]
        exact hvalidity }

theorem slot_grow (h : column.WellFormed) (capacity index : Nat) :
    (column.grow capacity).slot index = column.slot index := by
  rw [slot, slot, bit_grow, width_grow]
  split
  · next hbit =>
    have hindex : index < column.capacity :=
      Nat.lt_of_lt_of_le (h.lt_length_of_bit hbit) h.length_le
    unfold Column.grow
    split
    · rfl
    · have hpast := Nat.sub_eq_zero_of_le (h.slot_end_le hindex)
      simp [Array.extract_append, hpast]
  · rfl

theorem contents_grow (h : column.WellFormed) (capacity : Nat) :
    (column.grow capacity).contents = column.contents := by
  apply contents_eq
  · simp
  · intro index hindex
    rw [length_grow] at hindex
    rw [contents_getElem?, if_pos hindex, h.slot_grow]

theorem resized (h : column.WellFormed) {count : Nat} (hcount : count ≤ column.capacity) :
    (column.resized count).WellFormed := by
  have hlost : count + (column.length - count) ≤ column.validity.bytes.size * 8 := by
    have hlength := h.length_le
    have hcapacity := h.capacity_le
    omega
  exact
    { width_eq := h.width_eq
      size_values := h.size_values
      size_validity := (Bitmap.size_updateRun _ _ _ _).trans h.size_validity
      length_le := hcount
      bit_eq_false := by
        intro index hindex
        show (column.validity.updateRun false count (column.length - count)).bit index = false
        rw [Bitmap.bit_updateRun hlost]
        split
        · rfl
        · next hout =>
          have hindex : count ≤ index := hindex
          exact h.bit_eq_false index (by omega)
      values_lt := h.values_lt
      validity_lt := by
        show (column.validity.updateRun false count (column.length - count)).bytes.size < _
        rw [Bitmap.size_updateRun]
        exact h.validity_lt }

theorem slot_resized (h : column.WellFormed) {count : Nat} (hindex : index < count) :
    (column.resized count).slot index = column.slot index := by
  have hlost : count + (column.length - count) ≤ column.validity.bytes.size * 8 ∨
      column.length - count = 0 := by
    have hlength := h.length_le
    have hcapacity := h.capacity_le
    omega
  have hbit : (column.resized count).validity.bit index = column.validity.bit index := by
    show (column.validity.updateRun false count (column.length - count)).bit index = _
    rcases hlost with hlost | hnone
    · rw [Bitmap.bit_updateRun hlost, if_neg (by omega)]
    · rw [hnone]
      rfl
  rw [slot, slot, hbit]
  rfl

end WellFormed

variable {allocator : Allocator}

theorem reallocateExact_of_le (hroom : capacity ≤ column.capacity) :
    reallocateExact capacity allocator column = ⟨.ok (), column, []⟩ := by
  rw [reallocateExact, Action.getThe_bind, if_pos hroom]
  rfl

/-- A column grows past its capacity if the memory of both buffers is granted, unless it has
that memory already. Otherwise it is as it was. -/
theorem reallocateExact_of_lt (allocator : Allocator) (hroom : column.capacity < capacity)
    (hmore : column.values.size ≤ capacity * column.width) :
    (reallocateExact capacity allocator column =
        ⟨.ok (), column.grow capacity, column.growth capacity⟩ ∧
        (capacity * column.width ≤ column.values.size ∨
          capacity * column.width ≤ Allocator.maxSize ∧
            allocator.grants .values (capacity * column.width) = true) ∧
        (Bits.bytesFor capacity ≤ column.validity.bytes.size ∨
          allocator.grants .validity (Bits.bytesFor capacity) = true)) ∨
      ∃ cause, reallocateExact capacity allocator column =
        ⟨.error (.error (.raised cause)), column, []⟩ := by
  have hroom : ¬ capacity ≤ column.capacity := Nat.not_le_of_lt hroom
  unfold reallocateExact
  rw [Action.getThe_bind, if_neg hroom]
  by_cases hsize : capacity * column.width < Size.bound
  · simp only [hsize, if_true, Size.sub_eq_ok hmore, Action.liftM_ok_bind]
    obtain ⟨hok, hvalues⟩ | ⟨cause, hrefused⟩ :=
      Action.reserve_cases allocator .values column.values.size (capacity * column.width) column
    · rw [Action.bind_of_ok hok]
      obtain ⟨hensure, hvalidity⟩ | ⟨cause, hrefused⟩ :=
        Bitmap.ensureCapacity_cases allocator capacity column.validity
      · refine .inl ⟨?_, hvalues, hvalidity⟩
        rw [Action.bind_of_ok (Action.onPart_apply hensure)]
        simp only [Action.modify_bind, Action.report_bind, Action.modify_apply]
        rw [Column.grow, if_neg hroom, growth, if_neg hroom]
      · exact .inr ⟨cause, Action.bind_apply_error (Action.onPart_apply hrefused)⟩
    · exact .inr ⟨cause, Action.bind_apply_error hrefused⟩
  · simp only [hsize, if_false, Action.raise_bind]
    exact .inr ⟨.slotsTooLarge capacity column.width, rfl⟩

/-- A column grows to the capacity asked for, or memory was refused and it is as it was. -/
theorem reallocateExact_cases (hallocator : allocator.IsBounded) (h : column.WellFormed)
    (capacity : Nat) :
    (reallocateExact capacity allocator column =
        ⟨.ok (), column.grow capacity, column.growth capacity⟩ ∧
        (column.grow capacity).WellFormed) ∨
      ∃ cause, reallocateExact capacity allocator column =
        ⟨.error (.error (.raised cause)), column, []⟩ := by
  rcases Nat.lt_or_ge column.capacity capacity with hmore | hroom
  · have hsize : column.values.size ≤ capacity * column.width := by
      rw [h.size_values]
      exact Nat.mul_le_mul_right _ (Nat.le_of_lt hmore)
    obtain ⟨hok, hvalues, hvalidity⟩ | hrefused := reallocateExact_of_lt allocator hmore hsize
    · refine .inl ⟨hok, h.grow ?_ ?_⟩
      · rcases hvalues with hheld | ⟨-, hgrant⟩
        · exact Nat.lt_of_le_of_lt hheld h.values_lt
        · exact hallocator .values _ hgrant
      · rcases hvalidity with hheld | hgrant
        · exact Nat.lt_of_le_of_lt hheld h.validity_lt
        · exact hallocator .validity _ hgrant
    · exact .inr hrefused
  · rw [reallocateExact_of_le hroom, grow, growth, if_pos hroom, if_pos hroom]
    exact .inl ⟨rfl, h⟩

/-- Making room grows a column to the capacity that a slot asks for, unless no capacity of 64
bits is enough. -/
theorem makeRoom_eq (allocator : Allocator) (column : Column) (index : Nat) :
    makeRoom index allocator column =
        reallocateExact (column.roomFor index) allocator column ∨
      makeRoom index allocator column =
        ⟨.error (.error (.raised (.indexTooLarge index))), column, []⟩ := by
  unfold makeRoom
  rw [Action.getThe_bind]
  by_cases hindex : index < column.capacity
  · rw [roomFor, if_pos hindex, if_pos hindex, reallocateExact_of_le (Nat.le_refl _)]
    exact .inl rfl
  rw [roomFor, if_neg hindex, if_neg hindex, grownCapacity]
  by_cases hpower : powerAbove index < Size.bound
  · rw [if_pos hpower, pure_eq_ok, Action.liftM_ok_bind]
    exact .inl rfl
  · rw [if_neg hpower]
    exact .inr rfl

/-- A column gets room for a slot, or memory was refused and it is as it was. -/
theorem makeRoom_cases (hallocator : allocator.IsBounded) (h : column.WellFormed) (index : Nat) :
    (makeRoom index allocator column =
        ⟨.ok (), column.withRoom index, column.growth (column.roomFor index)⟩ ∧
        (column.withRoom index).WellFormed) ∨
      ∃ cause, makeRoom index allocator column =
        ⟨.error (.error (.raised cause)), column, []⟩ := by
  obtain hgrow | htoo := makeRoom_eq allocator column index
  · rw [hgrow]
    exact reallocateExact_cases hallocator h (column.roomFor index)
  · exact .inr ⟨_, htoo⟩

/-! ## Ending elsewhere -/

/-- Ends the column after `count` slots, for which there is room. -/
def endAt (count : Nat) : Action Column Unit := do
  let column ← getThe Column
  let validity ← column.validity.putRun false count (column.length - count)
  modify fun column => { column with validity, length := count }

theorem setLength_of_pos {count : Nat} (hcount : 0 < count) :
    setLength count = (do
      makeRoom (count - 1)
      endAt count) := by
  rw [setLength, if_pos hcount]
  rfl

/-- Once there is room, the column can end elsewhere. -/
theorem WellFormed.endAt_eq (h : column.WellFormed) {count : Nat}
    (hcount : count ≤ column.capacity) :
    endAt count allocator column = ⟨.ok (), column.resized count, []⟩ := by
  have hrun : count + (column.length - count) ≤ column.validity.bytes.size * 8 := by
    have hlength := h.length_le
    have hcapacity := h.capacity_le
    omega
  rw [endAt, Action.getThe_bind, Bitmap.putRun_eq_ok hrun, Action.liftM_ok_bind]
  rfl

/-- A column ends after the given number of slots, for which it has room, or memory was
refused and it is as it was. -/
theorem setLength_cases (hallocator : allocator.IsBounded) (h : column.WellFormed) (count : Nat) :
    (setLength count allocator column =
        ⟨.ok (), column.withLength count, column.lengthGrowth count⟩ ∧
        (0 < count → (column.withRoom (count - 1)).WellFormed) ∧
        (column.withLength count).WellFormed) ∨
      ∃ cause, setLength count allocator column =
        ⟨.error (.error (.raised cause)), column, []⟩ := by
  by_cases hcount : 0 < count
  · rw [setLength_of_pos hcount, withLength, lengthGrowth, if_pos hcount, if_pos hcount]
    obtain ⟨hroom, hroomy⟩ | ⟨cause, hrefused⟩ := makeRoom_cases hallocator h (count - 1)
    · have hfits : count ≤ (column.withRoom (count - 1)).capacity := by
        have := lt_capacity_withRoom column (count - 1)
        omega
      refine .inl ⟨?_, fun _ => hroomy, hroomy.resized hfits⟩
      rw [Action.bind_apply_ok hroom, hroomy.endAt_eq hfits, List.append_nil]
    · exact .inr ⟨cause, Action.bind_apply_error hrefused⟩
  · obtain rfl := Nat.eq_zero_of_not_pos hcount
    have hfits : 0 ≤ column.capacity := Nat.zero_le _
    exact .inl ⟨h.endAt_eq hfits, fun hsome => absurd hsome hcount, h.resized hfits⟩

end Column

end Columnar
