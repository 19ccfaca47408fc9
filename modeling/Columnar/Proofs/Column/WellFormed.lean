import Columnar.Column.Basic
import Columnar.Proofs.Bitmap

/-!
# Well-formed columns

Both buffers of a column fit its capacity, and no slot past its length holds a value. Every call
relies on this and leaves it behind, so reading such a column never fails.
-/

namespace Columnar

namespace Column

/-- The buffers have the sizes that the capacity asks for, and the slots from the length on
hold no values. Neither buffer has reached the size from which on memory is refused. -/
structure WellFormed (column : Column) : Prop where
  width_eq : column.width = column.dtype.byteWidth
  size_values : column.values.size = column.capacity * column.width
  size_validity : column.validity.bytes.size = (column.capacity + 7) / 8
  length_le : column.length ≤ column.capacity
  bit_eq_false : ∀ index, column.length ≤ index → column.validity.bit index = false
  values_lt : column.values.size < Allocator.standardLimit
  validity_lt : column.validity.bytes.size < Allocator.standardLimit

/-- The bytes of a slot, or nothing if it is null. -/
def slot (column : Column) (index : Nat) : Option Bytes :=
  if column.validity.bit index then
    some (column.values.extract (index * column.width) ((index + 1) * column.width))
  else none

/-- The bytes of a slot, whether it is null or not. -/
def stored (column : Column) (index : Nat) : Bytes :=
  column.values.extract (index * column.width) ((index + 1) * column.width)

theorem slot_eq (column : Column) (index : Nat) :
    column.slot index = if column.validity.bit index then some (column.stored index) else none :=
  rfl

/-- All slots in order. -/
def contents (column : Column) : List (Option Bytes) :=
  (List.range column.length).map column.slot

@[simp] theorem length_contents (column : Column) : column.contents.length = column.length := by
  simp [contents]

theorem contents_getElem? (column : Column) (index : Nat) :
    column.contents[index]? = if index < column.length then some (column.slot index) else none := by
  by_cases h : index < column.length
  · simp [contents, h]
  · simp [contents, h]

/-- A list is the contents of a column if it has its length and its slots. -/
theorem contents_eq {column : Column} {slots : List (Option Bytes)}
    (hlength : slots.length = column.length)
    (hslots : ∀ index < column.length, slots[index]? = some (column.slot index)) :
    column.contents = slots := by
  apply List.ext_getElem?
  intro index
  rw [contents_getElem?]
  by_cases h : index < column.length
  · rw [if_pos h, hslots index h]
  · rw [if_neg h, List.getElem?_eq_none (by omega)]

/-- If every slot has its bit, the nulls are the slots without a value. -/
theorem nullCount_eq_ok_of_le {column : Column}
    (hcount : column.validity.bytes.size * 8 < Size.bound)
    (h : column.length ≤ column.validity.bytes.size * 8) :
    column.nullCount = .ok (column.contents.countP Option.isNone) := by
  rw [nullCount, Bitmap.unsetBits_eq_ok hcount h, contents, List.countP_map]
  congr 2
  funext index
  cases hbit : column.validity.bit index with
  | false => simp [slot, hbit]
  | true => simp [slot, hbit]

/-- Slot `index` lies within the capacity and within both buffers, in places that 64 bits can
count. -/
structure Reaches (column : Column) (index : Nat) : Prop where
  index_lt : index < column.capacity
  bit_lt : index < column.validity.bytes.size * 8
  end_le : (index + 1) * column.width ≤ column.values.size
  end_lt : (index + 1) * column.width < Size.bound
  next_lt : index + 1 < Size.bound

namespace Reaches

variable {column : Column} {index : Nat}

theorem slotBounds_eq_ok (h : column.Reaches index) :
    column.slotBounds index = .ok (index * column.width, (index + 1) * column.width) := by
  have hstart : index * column.width < Size.bound :=
    Nat.lt_of_le_of_lt (Nat.mul_le_mul_right _ (Nat.le_succ index)) h.end_lt
  simp only [slotBounds, Size.mul_eq_ok hstart, Size.add_eq_ok h.next_lt, Size.mul_eq_ok h.end_lt,
    ok_bind, pure_eq_ok]

theorem slotBytes_eq_ok (h : column.Reaches index) :
    column.slotBytes index =
      .ok (column.values.extract (index * column.width) ((index + 1) * column.width)) := by
  have hstretch : index * column.width ≤ (index + 1) * column.width :=
    Nat.mul_le_mul_right _ (Nat.le_succ index)
  simp only [slotBytes, h.slotBounds_eq_ok, ok_bind, Bytes.stretch_eq_ok hstretch h.end_le]

theorem get?_eq_ok (h : column.Reaches index) : column.get? index = .ok (column.slot index) := by
  rw [Column.get?, isValid, if_pos h.index_lt, Bitmap.get_eq_ok h.bit_lt, ok_bind, slot]
  cases column.validity.bit index with
  | false => rfl
  | true => simp only [if_true, h.slotBytes_eq_ok, ok_bind, pure_eq_ok]

/-- The bytes of a slot are as many as the column is wide. -/
theorem size_extract (h : column.Reaches index) :
    (column.values.extract (index * column.width) ((index + 1) * column.width)).size =
      column.width := by
  rw [Array.size_extract, Nat.min_eq_left h.end_le, Nat.add_mul, Nat.one_mul,
    Nat.add_sub_cancel_left]

theorem size_of_slot (h : column.Reaches index) {value : Bytes}
    (hslot : column.slot index = some value) : value.size = column.width := by
  unfold slot at hslot
  split at hslot
  · obtain rfl := Option.some.inj hslot
    exact h.size_extract
  · cases hslot

end Reaches

theorem wellFormed_empty (name : String) (dtype : DataType) :
    (Column.empty name dtype).WellFormed where
  width_eq := rfl
  size_values := by simp [Column.empty]
  size_validity := by simp [Column.empty, Bitmap.empty]
  length_le := Nat.le_refl 0
  bit_eq_false := fun index _ => Bitmap.bit_empty index
  values_lt := by simp [Column.empty, Allocator.standardLimit]
  validity_lt := by simp [Column.empty, Bitmap.empty, Allocator.standardLimit]

namespace WellFormed

variable {column : Column} {index : Nat}

theorem capacity_le (h : column.WellFormed) : column.capacity ≤ column.validity.bytes.size * 8 := by
  have := h.size_validity
  omega

/-- The capacity stays far below the largest size. -/
theorem capacity_lt (h : column.WellFormed) : column.capacity + 8 < Size.bound := by
  have hcapacity := h.capacity_le
  have hvalidity := h.validity_lt
  simp only [Allocator.standardLimit, Size.bound] at hvalidity ⊢
  omega

/-- The bytes of a slot within the capacity lie in the value buffer. -/
theorem slot_end_le (h : column.WellFormed) (hindex : index < column.capacity) :
    (index + 1) * column.width ≤ column.values.size := by
  rw [h.size_values]
  exact Nat.mul_le_mul_right _ hindex

theorem size_lt_bound (h : column.WellFormed) {place : Nat} (hplace : place ≤ column.values.size) :
    place < Size.bound := by
  have hvalues := h.values_lt
  simp only [Allocator.standardLimit, Size.bound] at hvalues ⊢
  omega

theorem isValid_eq_ok (h : column.WellFormed) (index : Nat) :
    column.isValid index = .ok (column.validity.bit index) := by
  have hcapacity := h.capacity_le
  unfold isValid
  split
  · exact Bitmap.get_eq_ok (by omega)
  · next hout =>
    have hpast : column.length ≤ index := Nat.le_trans h.length_le (Nat.le_of_not_lt hout)
    rw [h.bit_eq_false index hpast]
    rfl

theorem reaches (h : column.WellFormed) (hindex : index < column.capacity) :
    column.Reaches index where
  index_lt := hindex
  bit_lt := Nat.lt_of_lt_of_le hindex h.capacity_le
  end_le := h.slot_end_le hindex
  end_lt := h.size_lt_bound (h.slot_end_le hindex)
  next_lt := by
    have := h.capacity_lt
    omega

/-- A slot that holds a value lies before the length. -/
theorem lt_length_of_bit (h : column.WellFormed) (hbit : column.validity.bit index = true) :
    index < column.length := by
  apply Nat.lt_of_not_le
  intro hpast
  rw [h.bit_eq_false index hpast] at hbit
  exact Bool.false_ne_true hbit

theorem get?_eq_ok (h : column.WellFormed) (index : Nat) :
    column.get? index = .ok (column.slot index) := by
  rcases Nat.lt_or_ge index column.capacity with hindex | hpast
  · exact (h.reaches hindex).get?_eq_ok
  · have hbit := h.bit_eq_false index (Nat.le_trans h.length_le hpast)
    rw [Column.get?, h.isValid_eq_ok, ok_bind, slot, hbit]
    rfl

theorem slots_eq_ok (h : column.WellFormed) : column.slots = .ok column.contents :=
  mapM_eq_ok fun index _ => h.get?_eq_ok index

/-- Two columns are found equal exactly if they have the same type and the same slots. -/
theorem sameSlots_eq {other : Column} (h : column.WellFormed) (hother : other.WellFormed) :
    column.sameSlots other =
      .ok (decide (column.dtype = other.dtype ∧ column.contents = other.contents)) := by
  rw [sameSlots, h.slots_eq_ok, hother.slots_eq_ok]
  by_cases hshape : column.dtype = other.dtype ∧ column.length = other.length
  · rw [if_pos hshape, Bool.decide_and, decide_eq_true hshape.1, Bool.true_and]
    rfl
  · have hdiffer : ¬ (column.dtype = other.dtype ∧ column.contents = other.contents) := by
      rintro ⟨hdtype, hcontents⟩
      have hlength := congrArg List.length hcontents
      rw [length_contents, length_contents] at hlength
      exact hshape ⟨hdtype, hlength⟩
    rw [if_neg hshape, decide_eq_false hdiffer]
    rfl

theorem slot_eq_none (h : column.WellFormed) (hindex : column.length ≤ index) :
    column.slot index = none := by
  rw [slot, h.bit_eq_false index hindex]
  rfl

/-- The value in a slot is as long as the slot. -/
theorem size_of_slot (h : column.WellFormed) {value : Bytes}
    (hslot : column.slot index = some value) : value.size = column.width := by
  have hindex : index < column.length := by
    apply Nat.lt_of_not_le
    intro hpast
    rw [h.slot_eq_none hpast] at hslot
    cases hslot
  exact (h.reaches (Nat.lt_of_lt_of_le hindex h.length_le)).size_of_slot hslot

theorem nullCount_eq_ok (h : column.WellFormed) :
    column.nullCount = .ok (column.contents.countP Option.isNone) :=
  nullCount_eq_ok_of_le (Bits.count_lt h.validity_lt) (Nat.le_trans h.length_le h.capacity_le)

end WellFormed

end Column

end Columnar
