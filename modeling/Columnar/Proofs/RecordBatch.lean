import Mathlib.Data.List.Forall2
import Columnar.RecordBatch
import Columnar.Proofs.Column.Reachable

/-! # Record batches of well-formed columns -/

namespace Columnar

namespace RecordBatch

/-- The batch was made by the check of columns that came from constructors and calls. -/
def Reachable (batch : RecordBatch) : Prop :=
  ∃ schema columns, RecordBatch.create schema columns = .ok batch ∧
    ∀ column ∈ columns, (Object.column column).Reachable

theorem reachable_singleton {column : Column} (hcolumn : (Object.column column).Reachable)
    {name : String} {dtype : DataType} (hdtype : column.dtype = dtype) :
    (⟨⟨[⟨name, dtype, true⟩]⟩, [column]⟩ : RecordBatch).Reachable := by
  refine ⟨⟨[⟨name, dtype, true⟩]⟩, [column], ?_, ?_⟩
  · simp [create, checkColumns, checkColumn, commonLength, Schema.length, hdtype]
  · intro other hmem
    obtain rfl := List.mem_singleton.mp hmem
    exact hcolumn

/-- The columns are well-formed, of the types of their fields, and of one length. -/
structure WellFormed (batch : RecordBatch) : Prop where
  column : ∀ column ∈ batch.columns, column.WellFormed
  length_eq : ∀ column ∈ batch.columns, column.length = batch.rows
  dtype_eq : List.Forall₂ (fun field column => column.dtype = field.dtype) batch.schema.fields
    batch.columns

theorem checkColumn_eq_ok {rows : Nat} {field : Field} {column : Column}
    (h : checkColumn rows field column = .ok ()) :
    column.dtype = field.dtype ∧ column.length = rows := by
  rw [checkColumn] at h
  by_cases hdtype : column.dtype = field.dtype
  · by_cases hlength : column.length = rows
    · exact ⟨hdtype, hlength⟩
    · rw [if_pos hdtype, if_neg hlength] at h
      cases h
  · rw [if_neg hdtype] at h
    cases h

theorem checkColumns_eq_ok {rows : Nat} {fields : List Field} {columns : List Column}
    (hcount : columns.length = fields.length)
    (h : checkColumns rows fields columns = .ok ()) :
    List.Forall₂ (fun field column => column.dtype = field.dtype ∧ column.length = rows)
      fields columns := by
  induction fields generalizing columns with
  | nil =>
    obtain rfl : columns = [] := List.length_eq_zero_iff.mp hcount
    exact .nil
  | cons field fields ih =>
    obtain ⟨column, columns, rfl⟩ := List.exists_cons_of_length_eq_add_one hcount
    obtain ⟨⟨⟩, hcolumn, hrest⟩ := bind_eq_ok_iff.mp h
    exact .cons (checkColumn_eq_ok hcolumn) (ih (Nat.succ.inj hcount) hrest)

theorem create_eq_ok {schema : Schema} {columns : List Column} {batch : RecordBatch}
    (h : create schema columns = .ok batch) :
    batch = ⟨schema, columns⟩ ∧
      List.Forall₂ (fun field column =>
        column.dtype = field.dtype ∧ column.length = commonLength columns)
        schema.fields columns := by
  rw [create] at h
  by_cases hcount : columns.length = schema.length
  · rw [if_pos hcount] at h
    obtain ⟨⟨⟩, hcolumns, hbatch⟩ := bind_eq_ok_iff.mp h
    exact ⟨(Except.ok.inj hbatch).symm, checkColumns_eq_ok hcount hcolumns⟩
  · rw [if_neg hcount] at h
    cases h

theorem Reachable.wellFormed {batch : RecordBatch} (h : batch.Reachable) : batch.WellFormed := by
  obtain ⟨schema, columns, hcreate, hcolumns⟩ := h
  obtain ⟨rfl, hfields⟩ := create_eq_ok hcreate
  have hboth := (List.forall₂_iff_get.mp hfields)
  refine ⟨fun column hmem => (hcolumns column hmem).wellFormed, ?_, ?_⟩
  · intro column hmem
    obtain ⟨i, hi, rfl⟩ := List.getElem_of_mem hmem
    exact (hboth.2 i (hboth.1 ▸ hi) hi).2
  · exact hfields.imp fun _ _ hboth => hboth.1

theorem WellFormed.rows_lt {batch : RecordBatch} (h : batch.WellFormed) :
    batch.rows < Size.bound := by
  rcases hcolumns : batch.columns with _ | ⟨column, rest⟩
  · rw [rows, hcolumns]
    decide
  · have hmem : column ∈ batch.columns := hcolumns ▸ List.mem_cons_self
    have hcolumn := h.column column hmem
    have hcapacity := hcolumn.capacity_lt
    have hlength := hcolumn.length_le
    rw [← h.length_eq column hmem]
    omega

end RecordBatch

namespace Schema

theorem widths_of_sameTypes {position : Nat} {fields others : List Field} {columns : List Column}
    (hcount : fields.length = others.length)
    (h : ensureSameTypes position fields others = .ok ())
    (hcolumns : List.Forall₂ (fun field column => column.dtype = field.dtype) others columns)
    (hwell : ∀ column ∈ columns, column.WellFormed) :
    List.Forall₂ (fun field column => field.dtype.byteWidth = column.width) fields columns := by
  induction hcolumns generalizing position fields with
  | nil =>
    obtain rfl : fields = [] := List.length_eq_zero_iff.mp hcount
    exact .nil
  | @cons other column others columns hdtype _ ih =>
    obtain ⟨field, fields, rfl⟩ := List.exists_cons_of_length_eq_add_one hcount
    rw [ensureSameTypes] at h
    by_cases hsame : field.dtype.physical = other.dtype.physical
    · rw [if_pos hsame] at h
      have hwidth : field.dtype.byteWidth = column.width := by
        rw [(hwell column List.mem_cons_self).width_eq, hdtype, DataType.byteWidth,
          DataType.byteWidth, hsame]
      exact .cons hwidth (ih (Nat.succ.inj hcount) h fun column hmem =>
        hwell column (List.mem_cons_of_mem _ hmem))
    · rw [if_neg hsame] at h
      cases h

/-- A schema of the layout of a batch says the width of every column of the batch. -/
theorem widths_of_sameLayout {schema : Schema} {batch : RecordBatch} (hbatch : batch.WellFormed)
    (h : schema.ensureSameLayout batch.schema = .ok ()) :
    List.Forall₂ (fun field column => field.dtype.byteWidth = column.width) schema.fields
      batch.columns := by
  rw [ensureSameLayout] at h
  by_cases hcount : schema.length = batch.schema.length
  · rw [if_pos hcount] at h
    exact widths_of_sameTypes hcount h hbatch.dtype_eq hbatch.column
  · rw [if_neg hcount] at h
    cases h

end Schema

end Columnar
