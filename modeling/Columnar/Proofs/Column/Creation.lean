import Columnar.Proofs.Column.Call

/-! # New columns -/

namespace Columnar

namespace Column

variable {σ : Type} {state : σ} {allocator : Allocator} {column : Column} {name : String}
  {dtype : DataType} {capacity count : Nat} {bytes : Bytes}

theorem create_eq_ok (h : create name dtype = .ok column) :
    dtype.check = .ok () ∧ column = Column.empty name dtype := by
  obtain ⟨⟨⟩, hcheck, hempty⟩ := bind_eq_ok_iff.mp h
  exact ⟨hcheck, (Except.ok.inj hempty).symm⟩

theorem reallocateExact_eq_ok {after : Column} (hallocator : allocator.IsBounded)
    (h : column.WellFormed) (hanswer : (reallocateExact capacity allocator column).answer = .ok ())
    (hstate : (reallocateExact capacity allocator column).state = after) :
    after = column.grow capacity ∧ after.WellFormed := by
  obtain ⟨hok, hgrown⟩ | ⟨cause, hrefused⟩ := reallocateExact_cases hallocator h capacity
  · rw [hok] at hstate
    obtain rfl : column.grow capacity = after := hstate
    exact ⟨rfl, hgrown⟩
  · rw [hrefused] at hanswer
    cases hanswer

theorem withCapacity_eq_ok (hallocator : allocator.IsBounded)
    (h : (withCapacity name dtype capacity allocator state).answer = .ok column) :
    column = (Column.empty name dtype).grow capacity ∧ column.WellFormed := by
  obtain ⟨blank, hcreate, hbuild⟩ := Action.bind_answer_eq_ok h
  obtain ⟨-, rfl⟩ := create_eq_ok hcreate
  obtain ⟨hanswer, hstate⟩ := Action.build_eq_ok hbuild
  exact reallocateExact_eq_ok hallocator (wellFormed_empty name dtype) hanswer hstate

/-- The column with other bytes in its value buffer and `count` slots that hold values. -/
def filled (column : Column) (bytes : Bytes) (count : Nat) : Column :=
  { column with
    values := bytes
    validity := column.validity.updateRun true 0 count
    length := count }

theorem WellFormed.filled (h : column.WellFormed) (hbytes : bytes.size = column.values.size)
    (hlength : column.length ≤ count) (hcount : count ≤ column.capacity) :
    (column.filled bytes count).WellFormed := by
  have hrun : 0 + count ≤ column.validity.bytes.size * 8 := by
    have := h.capacity_le
    omega
  have hsize : (column.validity.updateRun true 0 count).bytes.size = column.validity.bytes.size :=
    Bitmap.size_updateRun _ _ _ _
  exact
    { width_eq := h.width_eq
      size_values := hbytes.trans h.size_values
      size_validity := hsize.trans h.size_validity
      length_le := hcount
      bit_eq_false := by
        intro index hindex
        have hindex : count ≤ index := hindex
        have hout : ¬ (0 ≤ index ∧ index < 0 + count) := by omega
        show (column.validity.updateRun true 0 count).bit index = false
        rw [Bitmap.bit_updateRun hrun, if_neg hout]
        exact h.bit_eq_false index (Nat.le_trans hlength hindex)
      values_lt := Nat.lt_of_le_of_lt (Nat.le_of_eq hbytes) h.values_lt
      validity_lt := Nat.lt_of_le_of_lt (Nat.le_of_eq hsize) h.validity_lt }

end Column

end Columnar
