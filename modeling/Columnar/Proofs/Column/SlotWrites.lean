import Columnar.Proofs.Column.Write

/-! # Slots written one after the other -/

namespace Columnar

namespace Column

variable {column other : Column} {entries : List (Option Bytes × Nat)} {value : Option Bytes}
  {index : Nat}

/-- The column with values and nulls written to slots, one after the other. -/
def withSlots (column : Column) : (entries : List (Option Bytes × Nat)) → Column
  | [] => column
  | (value, index) :: rest => (column.withSlot index value).withSlots rest

/-- The slot is within reach, and a value that is to go there is as wide as it. -/
def Admits (column : Column) (entry : Option Bytes × Nat) : Prop :=
  column.Reaches entry.2 ∧ ∀ bytes, entry.1 = some bytes → bytes.size = column.width

/-- All that a column is made for: its name, its type and its measures but for the length. -/
structure SameFrame (column other : Column) : Prop where
  name_eq : other.name = column.name
  dtype_eq : other.dtype = column.dtype
  width_eq : other.width = column.width
  capacity_eq : other.capacity = column.capacity
  initialCapacity_eq : other.initialCapacity = column.initialCapacity
  size_values : other.values.size = column.values.size
  size_validity : other.validity.bytes.size = column.validity.bytes.size

namespace SameFrame

theorem refl (column : Column) : column.SameFrame column :=
  ⟨rfl, rfl, rfl, rfl, rfl, rfl, rfl⟩

theorem trans {last : Column} (h : column.SameFrame other) (hlast : other.SameFrame last) :
    column.SameFrame last where
  name_eq := hlast.name_eq.trans h.name_eq
  dtype_eq := hlast.dtype_eq.trans h.dtype_eq
  width_eq := hlast.width_eq.trans h.width_eq
  capacity_eq := hlast.capacity_eq.trans h.capacity_eq
  initialCapacity_eq := hlast.initialCapacity_eq.trans h.initialCapacity_eq
  size_values := hlast.size_values.trans h.size_values
  size_validity := hlast.size_validity.trans h.size_validity

theorem reaches (h : column.SameFrame other) (hreaches : column.Reaches index) :
    other.Reaches index where
  index_lt := h.capacity_eq ▸ hreaches.index_lt
  bit_lt := h.size_validity ▸ hreaches.bit_lt
  end_le := by
    rw [h.width_eq, h.size_values]
    exact hreaches.end_le
  end_lt := h.width_eq ▸ hreaches.end_lt
  next_lt := hreaches.next_lt

theorem admits (h : column.SameFrame other) {entry : Option Bytes × Nat}
    (hentry : column.Admits entry) : other.Admits entry :=
  ⟨h.reaches hentry.1, fun bytes hbytes => (hentry.2 bytes hbytes).trans h.width_eq.symm⟩

end SameFrame

theorem sameFrame_withSlot (h : column.Admits (value, index)) :
    column.SameFrame (column.withSlot index value) where
  name_eq := rfl
  dtype_eq := rfl
  width_eq := rfl
  capacity_eq := rfl
  initialCapacity_eq := rfl
  size_values := by
    cases value with
    | none => rfl
    | some bytes => exact Bytes.size_overwrite (h.1.value_end_le (h.2 bytes rfl))
  size_validity := Bitmap.size_update _ _ _

theorem sameFrame_withSlots (h : ∀ entry ∈ entries, column.Admits entry) :
    column.SameFrame (column.withSlots entries) := by
  induction entries generalizing column with
  | nil => exact .refl column
  | cons entry rest ih =>
    obtain ⟨hentry, hrest⟩ := List.forall_mem_cons.mp h
    have hstep := sameFrame_withSlot hentry
    exact hstep.trans (ih fun entry hmem => hstep.admits (hrest entry hmem))

/-- A slot that no entry is for keeps its bit and its bytes. -/
theorem withSlots_of_not_mem (h : ∀ entry ∈ entries, column.Admits entry)
    (hout : ∀ entry ∈ entries, entry.2 ≠ index) :
    (column.withSlots entries).validity.bit index = column.validity.bit index ∧
      (column.withSlots entries).stored index = column.stored index := by
  induction entries generalizing column with
  | nil => exact ⟨rfl, rfl⟩
  | cons entry rest ih =>
    obtain ⟨hentry, hrest⟩ := List.forall_mem_cons.mp h
    obtain ⟨hother, hout⟩ := List.forall_mem_cons.mp hout
    have hstep := sameFrame_withSlot hentry
    obtain ⟨hbit, hstored⟩ := ih (fun entry hmem => hstep.admits (hrest entry hmem)) hout
    rw [hentry.1.bit_withSlot, if_neg hother.symm] at hbit
    rw [hentry.1.stored_withSlot hentry.2, if_neg hother.symm] at hstored
    exact ⟨hbit, hstored⟩

/-- A slot that all entries agree on has what they say, whatever the order of the entries is. The
bytes under a null are those of before. -/
theorem withSlots_of_mem (h : ∀ entry ∈ entries, column.Admits entry)
    (hmem : (value, index) ∈ entries)
    (hagree : ∀ entry ∈ entries, entry.2 = index → entry.1 = value) :
    (column.withSlots entries).validity.bit index = value.isSome ∧
      (column.withSlots entries).stored index = value.getD (column.stored index) := by
  induction entries generalizing column with
  | nil => cases hmem
  | cons entry rest ih =>
    obtain ⟨hentry, hrest⟩ := List.forall_mem_cons.mp h
    obtain ⟨hfirst, hlater⟩ := List.forall_mem_cons.mp hagree
    have hstep := sameFrame_withSlot hentry
    have hadmits := fun entry hmem => hstep.admits (hrest entry hmem)
    have hbit := hentry.1.bit_withSlot entry.1 index
    have hstored := hentry.1.stored_withSlot hentry.2 index
    -- the last entry for the slot decides: a later one, or this one if there is no other
    by_cases hagain : (value, index) ∈ rest
    · obtain ⟨hlast, hbytes⟩ := ih hadmits hagain hlater
      refine ⟨hlast, ?_⟩
      show ((column.withSlot entry.2 entry.1).withSlots rest).stored index = _
      rw [hbytes, hstored]
      by_cases hindex : index = entry.2
      · rw [if_pos hindex, hfirst hindex.symm]
        cases value <;> rfl
      · rw [if_neg hindex]
    · obtain rfl : (value, index) = entry := (List.mem_cons.mp hmem).resolve_right hagain
      have hnone : ∀ entry ∈ rest, entry.2 ≠ index := by
        rintro ⟨other, place⟩ hother rfl
        obtain rfl : other = value := hlater _ hother rfl
        exact hagain hother
      obtain ⟨hlast, hbytes⟩ := withSlots_of_not_mem hadmits hnone
      rw [if_pos rfl] at hbit hstored
      exact ⟨hlast.trans hbit, hbytes.trans hstored⟩

/-- The column ends after the last slot that is in it or that an entry is for. -/
theorem length_withSlots_le_iff {bound : Nat} :
    (column.withSlots entries).length ≤ bound ↔
      column.length ≤ bound ∧ ∀ entry ∈ entries, entry.2 < bound := by
  induction entries generalizing column with
  | nil => simp [withSlots]
  | cons entry rest ih =>
    have hlength : (column.withSlot entry.2 entry.1).length = max column.length (entry.2 + 1) := rfl
    rw [withSlots, ih, hlength, Nat.max_le, List.forall_mem_cons, and_assoc]
    rfl

end Column
end Columnar
