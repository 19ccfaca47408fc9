import Columnar.Proofs.Bits.Repacking
import Columnar.Proofs.Bytes
import Columnar.Proofs.Column.Atomicity
import Columnar.Proofs.Column.Creation
import Columnar.Proofs.Column.SlotWrites

/-!
# Columns of given slots and nothing else

There is one column of given slots that was made for as many, down to the bytes under its nulls. It
comes of writing the slots in any order, and of putting all values in their place at once.
-/

namespace Columnar

namespace Allocator

variable {allocator : Allocator} {width count : Nat}

/-- The buffers of so many slots of so many bytes each can be had. -/
def Affords (allocator : Allocator) (width count : Nat) : Prop :=
  allocator.Allows .values (count * width) ∧ allocator.Allows .validity (Bits.bytesFor count)

namespace Affords

/-- Slots that take any memory are never more than what a buffer can have bytes. -/
theorem count_le (h : allocator.Affords width count) (hwidth : 0 < width) : count ≤ maxSize :=
  Nat.le_trans (Nat.le_mul_of_pos_right count hwidth) h.1.le_maxSize

theorem bytesFor_eq (h : allocator.Affords width count) (hwidth : 0 < width) :
    Bits.bytesFor count = (count + 7) / 8 :=
  Bits.bytesFor_of_le_maxSize (h.count_le hwidth)

end Affords

end Allocator

namespace Column

variable {column other : Column} {name : String} {dtype : DataType} {slots : List (Option Bytes)}
  {allocator : Allocator} {index count : Nat}

/-! ## New columns with room -/

/-- Room for `count` slots, none of which was written. -/
def blank (name : String) (dtype : DataType) (count : Nat) : Column :=
  (Column.empty name dtype).grow count

theorem reallocateExact_of_allows {capacity : Nat} (hroom : column.capacity < capacity)
    (hmore : column.values.size ≤ capacity * column.width)
    (hvalues : allocator.Allows .values (capacity * column.width))
    (hvalidity : allocator.Allows .validity (Bits.bytesFor capacity)) :
    reallocateExact capacity allocator column =
      ⟨.ok (), column.grow capacity, column.growth capacity⟩ := by
  have hroom : ¬ capacity ≤ column.capacity := Nat.not_le_of_lt hroom
  have hsize : capacity * column.width < Size.bound := by
    have hmax := hvalues.le_maxSize
    simp only [Allocator.maxSize, Size.bound] at hmax ⊢
    omega
  unfold reallocateExact
  rw [Action.getThe_bind, if_neg hroom]
  simp only [hsize, if_true, Size.sub_eq_ok hmore, Action.liftM_ok_bind]
  rw [Action.bind_of_ok (Action.reserve_of_allows (.inr hvalues)), Action.bind_of_ok
    (Action.onPart_apply (Bitmap.ensureCapacity_of_allows (.inr hvalidity)))]
  simp only [Action.modify_bind, Action.report_bind, Action.modify_apply]
  rw [Column.grow, if_neg hroom, growth, if_neg hroom]

/-- A new column has the room that was asked for if the memory can be had. -/
theorem reallocateExact_empty_of_affords (h : allocator.Affords dtype.byteWidth count) :
    reallocateExact count allocator (Column.empty name dtype) =
      ⟨.ok (), blank name dtype count, (Column.empty name dtype).growth count⟩ := by
  rcases Nat.eq_zero_or_pos count with rfl | hcount
  · exact reallocateExact_of_le (Nat.le_refl 0)
  · exact reallocateExact_of_allows hcount (Nat.zero_le _) h.1 h.2

theorem reallocateExact_empty_of_not_affords (h : ¬ allocator.Affords dtype.byteWidth count) :
    ∃ error, reallocateExact count allocator (Column.empty name dtype) =
        ⟨.error (.error error), Column.empty name dtype, []⟩ ∧
      error.kind = .caused .outOfMemory := by
  have hcount : 0 < count := by
    apply Nat.pos_of_ne_zero
    rintro rfl
    exact h ⟨.inl (Nat.zero_mul _), .inl rfl⟩
  have hroom : (Column.empty name dtype).capacity < count := hcount
  obtain ⟨-, hvalues, hvalidity⟩ | ⟨cause, hrefused⟩ :=
    reallocateExact_of_lt allocator hroom (Nat.zero_le _)
  · -- both buffers were granted, so that they can be had
    have hmax : Bits.bytesFor count ≤ Allocator.maxSize := by
      simp only [Bits.bytesFor, Size.bound, Allocator.maxSize]
      omega
    exact absurd ⟨hvalues.imp_left Nat.le_zero.mp,
      hvalidity.imp Nat.le_zero.mp fun hgrants => ⟨hmax, hgrants⟩⟩ h
  · have hshort := reallocateExact_failsShort allocator (Column.empty name dtype) count
    rw [hrefused] at hshort
    exact ⟨_, hrefused, (hshort _ rfl).2⟩

@[simp] theorem length_blank : (blank name dtype count).length = 0 :=
  length_grow _ _

@[simp] theorem capacity_blank : (blank name dtype count).capacity = count := by
  rw [blank, capacity_grow]
  exact Nat.zero_max count

@[simp] theorem width_blank : (blank name dtype count).width = dtype.byteWidth :=
  width_grow _ _

theorem values_blank :
    (blank name dtype count).values = Bytes.zeros (count * dtype.byteWidth) := by
  rw [blank, grow]
  split
  · next hnone =>
    obtain rfl : count = 0 := Nat.le_zero.mp hnone
    simp [Column.empty, Bytes.zeros]
  · simp [Column.empty]

theorem size_validity_blank (hwidth : 0 < dtype.byteWidth)
    (h : allocator.Affords dtype.byteWidth count) :
    (blank name dtype count).validity.bytes.size = (count + 7) / 8 := by
  rw [← h.bytesFor_eq hwidth, blank, grow]
  split
  · next hnone =>
    obtain rfl : count = 0 := Nat.le_zero.mp hnone
    rfl
  · simp [Column.empty, Bitmap.empty]

theorem bit_blank : (blank name dtype count).validity.bit index = false :=
  (bit_grow _ _ _).trans (Bitmap.bit_empty index)

/-- All bytes of a new column are zero. -/
theorem stored_blank (hindex : index < count) :
    (blank name dtype count).stored index = Bytes.zeros dtype.byteWidth := by
  have hend : (index + 1) * dtype.byteWidth ≤ count * dtype.byteWidth :=
    Nat.mul_le_mul_right _ hindex
  have hsize : (index + 1) * dtype.byteWidth - index * dtype.byteWidth = dtype.byteWidth := by
    rw [Nat.add_mul, Nat.one_mul, Nat.add_sub_cancel_left]
  rw [stored, values_blank, width_blank, Bytes.zeros, Array.extract_replicate,
    Nat.min_eq_left hend, hsize]
  rfl

/-! ## Columns made for so many slots -/

/-- The measures of a column with room for exactly `count` slots, whatever is in them. -/
structure IsMadeFor (column : Column) (name : String) (dtype : DataType) (count : Nat) : Prop where
  name_eq : column.name = name
  dtype_eq : column.dtype = dtype
  width_eq : column.width = dtype.byteWidth
  capacity_eq : column.capacity = count
  initialCapacity_eq : column.initialCapacity = defaultInitialCapacity
  size_values : column.values.size = count * dtype.byteWidth
  size_validity : column.validity.bytes.size = (count + 7) / 8

theorem isMadeFor_blank (hwidth : 0 < dtype.byteWidth)
    (h : allocator.Affords dtype.byteWidth count) :
    (blank name dtype count).IsMadeFor name dtype count where
  name_eq := name_grow _ _
  dtype_eq := dtype_grow _ _
  width_eq := width_blank
  capacity_eq := capacity_blank
  initialCapacity_eq := by
    rw [blank, grow]
    split <;> rfl
  size_values := by rw [values_blank, Bytes.size_zeros]
  size_validity := size_validity_blank hwidth h

theorem SameFrame.isMadeFor (h : column.SameFrame other)
    (hcolumn : column.IsMadeFor name dtype count) : other.IsMadeFor name dtype count where
  name_eq := h.name_eq.trans hcolumn.name_eq
  dtype_eq := h.dtype_eq.trans hcolumn.dtype_eq
  width_eq := h.width_eq.trans hcolumn.width_eq
  capacity_eq := h.capacity_eq.trans hcolumn.capacity_eq
  initialCapacity_eq := h.initialCapacity_eq.trans hcolumn.initialCapacity_eq
  size_values := h.size_values.trans hcolumn.size_values
  size_validity := h.size_validity.trans hcolumn.size_validity

theorem IsMadeFor.count_le (h : column.IsMadeFor name dtype count) :
    count ≤ column.validity.bytes.size * 8 := by
  rw [h.size_validity]
  omega

theorem IsMadeFor.reaches (h : column.IsMadeFor name dtype count) (hwidth : 0 < dtype.byteWidth)
    (hafford : allocator.Affords dtype.byteWidth count) (hindex : index < count) :
    column.Reaches index := by
  have hend : (index + 1) * dtype.byteWidth ≤ count * dtype.byteWidth :=
    Nat.mul_le_mul_right _ hindex
  have hvalues := hafford.1.le_maxSize
  have hcount := hafford.count_le hwidth
  simp only [Allocator.maxSize] at hvalues hcount
  exact
    { index_lt := h.capacity_eq.symm ▸ hindex
      bit_lt := Nat.lt_of_lt_of_le hindex h.count_le
      end_le := by rwa [h.width_eq, h.size_values]
      end_lt := by
        rw [h.width_eq, Size.bound]
        omega
      next_lt := by
        rw [Size.bound]
        omega }

/-! ## Columns of given slots -/

/-- The column has these slots and room for no more, and zero bytes under each null. -/
structure IsExactly (column : Column) (name : String) (dtype : DataType)
    (slots : List (Option Bytes)) : Prop extends IsMadeFor column name dtype slots.length where
  length_eq : column.length = slots.length
  bit_eq : ∀ index, column.validity.bit index = slots[index]?.join.isSome
  stored_eq : ∀ index < slots.length,
    column.stored index = slots[index]?.join.getD (Bytes.zeros dtype.byteWidth)

namespace IsExactly

/-- Nothing is left open about such a column. -/
theorem eq (h : column.IsExactly name dtype slots) (hother : other.IsExactly name dtype slots) :
    column = other := by
  have hvalidity : column.validity = other.validity := by
    have hbytes := Bits.eq_of_bit_eq (h.size_validity.trans hother.size_validity.symm)
      fun index => (h.bit_eq index).trans (hother.bit_eq index).symm
    rcases hfirst : column.validity with ⟨bytes⟩
    rcases hsecond : other.validity with ⟨others⟩
    rw [hfirst, hsecond] at hbytes
    exact congrArg Bitmap.mk hbytes
  have hvalues : column.values = other.values := by
    refine Bytes.eq_of_extract_eq h.size_values hother.size_values fun index hindex => ?_
    have hstored := (h.stored_eq index hindex).trans (hother.stored_eq index hindex).symm
    rwa [stored, stored, h.width_eq, hother.width_eq] at hstored
  cases column
  cases other
  simp only [Column.mk.injEq]
  exact ⟨h.name_eq.trans hother.name_eq.symm, h.dtype_eq.trans hother.dtype_eq.symm,
    h.width_eq.trans hother.width_eq.symm, hvalidity, hvalues,
    h.length_eq.trans hother.length_eq.symm, h.capacity_eq.trans hother.capacity_eq.symm,
    h.initialCapacity_eq.trans hother.initialCapacity_eq.symm⟩

variable (h : column.IsExactly name dtype slots)

include h

theorem slot_eq (hindex : index < slots.length) : column.slot index = slots[index]?.join := by
  rw [Column.slot_eq, h.bit_eq, h.stored_eq index hindex]
  cases slots[index]?.join <;> rfl

theorem contents_eq : column.contents = slots := by
  apply Column.contents_eq h.length_eq.symm
  intro index hindex
  rw [h.length_eq] at hindex
  rw [h.slot_eq hindex, List.getElem?_eq_getElem hindex]
  rfl

variable (hwidth : 0 < dtype.byteWidth) (hafford : allocator.Affords dtype.byteWidth slots.length)

include hwidth hafford

theorem nullCount_eq : column.nullCount = .ok (slots.countP Option.isNone) := by
  have hcount : column.validity.bytes.size * 8 < Size.bound := by
    rw [h.size_validity, ← hafford.bytesFor_eq hwidth]
    exact Bits.bytesFor_mul_lt _
  rw [nullCount_eq_ok_of_le hcount (h.length_eq ▸ h.count_le), h.contents_eq]

/-- The slots are read from the column, and there are none past them. -/
theorem get?_eq (index : Nat) : column.get? index = .ok slots[index]?.join := by
  rcases Nat.lt_or_ge index slots.length with hindex | hpast
  · rw [(h.reaches hwidth hafford hindex).get?_eq_ok, h.slot_eq hindex]
  · have hout : ¬ index < column.capacity := by
      rw [h.capacity_eq]
      omega
    rw [Column.get?, isValid, if_neg hout, List.getElem?_eq_none hpast]
    rfl

theorem slotBytes_eq (hindex : index < slots.length) :
    column.slotBytes index =
      .ok (slots[index]?.join.getD (Bytes.zeros dtype.byteWidth)) := by
  rw [(h.reaches hwidth hafford hindex).slotBytes_eq_ok, ← h.stored_eq index hindex]
  rfl

end IsExactly

/-! ## Two ways to make them -/

theorem sameFrame_filled {bytes : Bytes} (hbytes : bytes.size = column.values.size) :
    column.SameFrame (column.filled bytes count) where
  name_eq := rfl
  dtype_eq := rfl
  width_eq := rfl
  capacity_eq := rfl
  initialCapacity_eq := rfl
  size_values := hbytes
  size_validity := Bitmap.size_updateRun _ _ _ _

/-- All values are put in their place at once. -/
theorem isExactly_filled {α : Type} {encode : α → Bytes} {values : List α}
    (hencode : ∀ value, (encode value).size = dtype.byteWidth) (hwidth : 0 < dtype.byteWidth)
    (hafford : allocator.Affords dtype.byteWidth values.length) :
    ((blank name dtype values.length).filled (values.toArray.flatMap encode)
      values.length).IsExactly name dtype (values.map fun value => some (encode value)) := by
  have hblank : (blank name dtype values.length).IsMadeFor name dtype values.length :=
    isMadeFor_blank hwidth hafford
  have hbytes : (values.toArray.flatMap encode).size =
      (blank name dtype values.length).values.size := by
    rw [hblank.size_values]
    simp [hencode, List.map_const']
  have hrun : 0 + values.length ≤ (blank name dtype values.length).validity.bytes.size * 8 := by
    rw [Nat.zero_add]
    exact hblank.count_le
  have hmade : (Column.filled _ _ values.length).IsMadeFor name dtype values.length :=
    (sameFrame_filled hbytes).isMadeFor hblank
  have hcount : (values.map fun value => some (encode value)).length = values.length :=
    List.length_map _
  refine ⟨hcount.symm ▸ hmade, hcount.symm, ?_, ?_⟩
  · intro index
    show ((blank name dtype values.length).validity.updateRun true 0 values.length).bit index = _
    rw [Bitmap.bit_updateRun hrun, bit_blank]
    by_cases hindex : index < values.length
    · simp [hindex]
    · simp [hindex]
  · intro index hindex
    rw [hcount] at hindex
    have hvalue : values[index]? = some values[index] := List.getElem?_eq_getElem hindex
    show (values.toArray.flatMap encode).extract (index * (blank name dtype values.length).width)
      ((index + 1) * (blank name dtype values.length).width) = _
    rw [width_blank, Bytes.extract_flatMap hencode hvalue, List.getElem?_map, hvalue]
    rfl

/-- Slots written one after the other, each at least once and in any order. -/
theorem isExactly_withSlots {entries : List (Option Bytes × Nat)}
    (hentries : ∀ entry, entry ∈ entries ↔ slots[entry.2]? = some entry.1)
    (hsizes : ∀ bytes, some bytes ∈ slots → bytes.size = dtype.byteWidth)
    (hwidth : 0 < dtype.byteWidth) (hafford : allocator.Affords dtype.byteWidth slots.length) :
    ((blank name dtype slots.length).withSlots entries).IsExactly name dtype slots := by
  have hblank : (blank name dtype slots.length).IsMadeFor name dtype slots.length :=
    isMadeFor_blank hwidth hafford
  have hin : ∀ entry ∈ entries, entry.2 < slots.length := by
    intro entry hentry
    obtain ⟨hindex, -⟩ := List.getElem?_eq_some_iff.mp ((hentries entry).mp hentry)
    exact hindex
  have hadmits : ∀ entry ∈ entries, (blank name dtype slots.length).Admits entry := by
    rintro ⟨value, index⟩ hentry
    refine ⟨hblank.reaches hwidth hafford (hin _ hentry), ?_⟩
    rintro bytes rfl
    rw [width_blank]
    exact hsizes bytes (List.mem_of_getElem? ((hentries _).mp hentry))
  -- entries for one slot have one value, so it does not matter which is the last
  have hmem {value : Option Bytes} {index : Nat} (hslot : slots[index]? = some value) :=
    withSlots_of_mem hadmits ((hentries (value, index)).mpr hslot) (by
      rintro ⟨other, _⟩ hother rfl
      exact Option.some.inj (((hentries _).mp hother).symm.trans hslot))
  refine ⟨(sameFrame_withSlots hadmits).isMadeFor hblank, ?_, ?_, ?_⟩
  · apply Nat.le_antisymm
    · rw [length_withSlots_le_iff, length_blank]
      exact ⟨Nat.zero_le _, hin⟩
    · apply Nat.le_of_not_lt
      intro hshort
      -- the slot at the length has an entry, so that the column ends past it
      have hentry := (hentries (_, _)).mpr (List.getElem?_eq_getElem hshort)
      exact Nat.lt_irrefl _ ((length_withSlots_le_iff.mp (Nat.le_refl _)).2 _ hentry)
  · intro index
    cases hslot : slots[index]? with
    | some value => exact (hmem hslot).1
    | none =>
      have hout : ∀ entry ∈ entries, entry.2 ≠ index := by
        rintro entry hentry rfl
        rw [(hentries entry).mp hentry] at hslot
        cases hslot
      exact (withSlots_of_not_mem hadmits hout).1.trans bit_blank
  · intro index hindex
    have hslot : slots[index]? = some slots[index] := List.getElem?_eq_getElem hindex
    rw [(hmem hslot).2, stored_blank hindex, hslot]
    rfl

end Column

end Columnar
