import Columnar.Proofs.Check
import Columnar.Proofs.RecordBatch

/-! # Which columns make a record batch -/

namespace Columnar

/-- Some slot of the column reads as null. -/
def Column.HasNull (column : Column) : Prop :=
  ∃ index < column.length, column.get? index = .ok none

theorem Column.WellFormed.hasNull_iff {column : Column} (h : column.WellFormed) :
    column.HasNull ↔ 0 < column.contents.countP Option.isNone := by
  rw [List.countP_pos_iff]
  constructor
  · rintro ⟨index, hindex, hget⟩
    have hslot : column.slot index = none := Except.ok.inj ((h.get?_eq_ok index).symm.trans hget)
    have hmem : column.contents[index]? = some none := by
      rw [contents_getElem?, if_pos hindex, hslot]
    exact ⟨none, List.mem_of_getElem? hmem, rfl⟩
  · rintro ⟨slot, hmem, hnone⟩
    obtain rfl := Option.isNone_iff_eq_none.mp hnone
    obtain ⟨index, hindex, hslot⟩ := List.mem_map.mp hmem
    refine ⟨index, List.mem_range.mp hindex, ?_⟩
    rw [h.get?_eq_ok, hslot]

namespace RecordBatch

variable {rows : Nat} {field : Field} {column : Column} {kind : CauseKind} {cause : Cause}
  {failure : Failure} {schema : Schema} {fields : List Field} {columns : List Column}

/-! ## One column -/

/-- A column belongs under a field of a batch of so many rows. -/
structure Belongs (rows : Nat) (field : Field) (column : Column) : Prop where
  dtype_eq : column.dtype = field.dtype
  length_eq : column.length = rows
  no_null : field.nullable = false → ¬ column.HasNull

/-- What is wrong with a column under a field, and of which kind it is. Its type comes first,
then its length, then its nulls. -/
inductive Fault (rows : Nat) (field : Field) (column : Column) : CauseKind → Cause → Prop where
  | dtype : column.dtype ≠ field.dtype →
      Fault rows field column .schemaMismatch (.columnType field.name column.dtype field.dtype)
  | length : column.dtype = field.dtype → column.length ≠ rows →
      Fault rows field column .shapeMismatch (.rowCount field.name column.length rows)
  | null {nulls : Nat} : column.dtype = field.dtype → column.length = rows →
      field.nullable = false → column.HasNull → column.nullCount = .ok nulls →
      Fault rows field column .compute (.nullsInField field.name nulls)

theorem Fault.kind_eq (h : Fault rows field column kind cause) : cause.kind = kind := by
  cases h <;> rfl

theorem Belongs.checkColumn_eq (hcolumn : column.WellFormed) (h : Belongs rows field column) :
    checkColumn rows field column = .ok () := by
  rw [checkColumn, if_pos h.dtype_eq, if_pos h.length_eq]
  cases hnullable : field.nullable with
  | true => rfl
  | false =>
    have hnone : ¬ 0 < column.contents.countP Option.isNone :=
      fun hpos => h.no_null hnullable (hcolumn.hasNull_iff.mpr hpos)
    rw [hcolumn.nullCount_eq_ok, ok_bind, if_neg hnone]
    rfl

theorem Fault.checkColumn_eq (hcolumn : column.WellFormed)
    (h : Fault rows field column kind cause) :
    checkColumn rows field column = .error (.error (.raised cause)) := by
  cases h with
  | dtype hdtype =>
    rw [checkColumn, if_neg hdtype]
    rfl
  | length hdtype hlength =>
    rw [checkColumn, if_pos hdtype, if_neg hlength]
    rfl
  | null hdtype hlength hnullable hnull hcount =>
    have hnulls := Except.ok.inj (hcolumn.nullCount_eq_ok.symm.trans hcount)
    have hpos := hcolumn.hasNull_iff.mp hnull
    rw [hnulls] at hpos
    rw [checkColumn, if_pos hdtype, if_pos hlength, hnullable, hcount, ok_bind, if_pos hpos]
    rfl

theorem checkColumn_decides (hcolumn : column.WellFormed) (rows : Nat) (field : Field) :
    Decides (checkColumn rows field column) (Belongs rows field column)
      (fun cause => ∃ kind, Fault rows field column kind cause) where
  good_or_fault := by
    by_cases hdtype : column.dtype = field.dtype
    · by_cases hlength : column.length = rows
      · by_cases hnull : field.nullable = false ∧ column.HasNull
        · exact .inr ⟨_, _, .null hdtype hlength hnull.1 hnull.2 hcolumn.nullCount_eq_ok⟩
        · exact .inl ⟨hdtype, hlength, fun hnullable hhas => hnull ⟨hnullable, hhas⟩⟩
      · exact .inr ⟨_, _, .length hdtype hlength⟩
    · exact .inr ⟨_, _, .dtype hdtype⟩
  passes := Belongs.checkColumn_eq hcolumn
  raises := by
    rintro cause ⟨kind, hfault⟩
    exact hfault.checkColumn_eq hcolumn

/-! ## All columns -/

/-- Every column has its field, their types are the same, all columns have one length, and none
has a null whose field allows none. -/
structure Admissible (schema : Schema) (columns : List Column) : Prop where
  count_eq : columns.length = schema.length
  dtype_eq : ∀ pair ∈ schema.fields.zip columns, pair.2.dtype = pair.1.dtype
  length_eq : ∀ column ∈ columns, ∀ other ∈ columns, column.length = other.length
  no_null : ∀ pair ∈ schema.fields.zip columns, pair.1.nullable = false → ¬ pair.2.HasNull

/-- What is found wrong with columns under a schema, and of which kind it is. They are counted
first. Then the first column is named that does not fit, after columns that do. -/
inductive Violates (schema : Schema) (columns : List Column) : CauseKind → Cause → Prop where
  | count : columns.length ≠ schema.length →
      Violates schema columns .schemaMismatch (.columnCount columns.length schema.length)
  | column {before after : List (Field × Column)} {field : Field} {column : Column}
      {kind : CauseKind} {cause : Cause} : columns.length = schema.length →
      schema.fields.zip columns = before ++ (field, column) :: after →
      (∀ pair ∈ before, Belongs (commonLength columns) pair.1 pair.2) →
      Fault (commonLength columns) field column kind cause →
      Violates schema columns kind cause

theorem Violates.kind_eq (h : Violates schema columns kind cause) : cause.kind = kind := by
  cases h with
  | count => rfl
  | column _ _ _ hfault => exact hfault.kind_eq

theorem length_eq_commonLength (h : ∀ column ∈ columns, ∀ other ∈ columns,
    column.length = other.length) : ∀ column ∈ columns, column.length = commonLength columns := by
  cases columns with
  | nil => exact List.forall_mem_nil _
  | cons first rest => exact fun column hmem => h column hmem first List.mem_cons_self

/-- The length that all columns must have is that of the first, so that columns that fit have
one length. -/
theorem admissible_iff :
    Admissible schema columns ↔ columns.length = schema.length ∧
      ∀ pair ∈ schema.fields.zip columns, Belongs (commonLength columns) pair.1 pair.2 := by
  constructor
  · intro h
    refine ⟨h.count_eq, fun pair hmem => ?_⟩
    exact ⟨h.dtype_eq pair hmem,
      length_eq_commonLength h.length_eq pair.2 (List.of_mem_zip hmem).2, h.no_null pair hmem⟩
  · rintro ⟨hcount, hbelongs⟩
    have hlength : ∀ column ∈ columns, column.length = commonLength columns := by
      intro column hmem
      rw [← List.map_snd_zip (Nat.le_of_eq hcount)] at hmem
      obtain ⟨pair, hpair, rfl⟩ := List.mem_map.mp hmem
      exact (hbelongs pair hpair).length_eq
    exact ⟨hcount, fun pair hmem => (hbelongs pair hmem).dtype_eq,
      fun column hmem other hother => (hlength column hmem).trans (hlength other hother).symm,
      fun pair hmem => (hbelongs pair hmem).no_null⟩

theorem checkColumns_eq_checkEach (rows : Nat) (earlier : List (Field × Column))
    (fields : List Field) (columns : List Column) :
    checkColumns rows fields columns =
      checkEach (fun _ pair => checkColumn rows pair.1 pair.2) earlier (fields.zip columns) := by
  induction fields generalizing earlier columns with
  | nil => cases columns <;> rfl
  | cons field fields ih =>
    cases columns with
    | nil => rfl
    | cons column columns =>
      rw [checkColumns, List.zip_cons_cons, checkEach]
      exact congrArg _ (funext fun _ => ih _ _)

section Create

variable (hcolumns : ∀ column ∈ columns, column.WellFormed)

include hcolumns

theorem checkEach_eq_ok_iff_belongs {pairs : List (Field × Column)}
    (hpairs : ∀ pair ∈ pairs, pair.2 ∈ columns) :
    checkEach (fun _ pair => checkColumn rows pair.1 pair.2) [] pairs = .ok () ↔
      ∀ pair ∈ pairs, Belongs rows pair.1 pair.2 := by
  rw [checkEach_const_eq_ok_iff]
  exact forall₂_congr fun pair hmem =>
    (checkColumn_decides (hcolumns _ (hpairs pair hmem)) rows pair.1).eq_ok_iff

theorem checkColumns_eq_ok_iff :
    checkColumns rows schema.fields columns = .ok () ↔
      ∀ pair ∈ schema.fields.zip columns, Belongs rows pair.1 pair.2 := by
  rw [checkColumns_eq_checkEach _ []]
  exact checkEach_eq_ok_iff_belongs hcolumns fun pair hmem => (List.of_mem_zip hmem).2

theorem create_eq_ok_iff {batch : RecordBatch} :
    create schema columns = .ok batch ↔
      Admissible schema columns ∧ batch = ⟨schema, columns⟩ := by
  rw [create, admissible_iff, ← checkColumns_eq_ok_iff hcolumns]
  by_cases hcount : columns.length = schema.length
  · rw [if_pos hcount, bind_eq_ok_iff]
    constructor
    · rintro ⟨⟨⟩, hpassed, hbatch⟩
      exact ⟨⟨hcount, hpassed⟩, (Except.ok.inj hbatch).symm⟩
    · rintro ⟨⟨-, hpassed⟩, rfl⟩
      exact ⟨(), hpassed, rfl⟩
  · rw [if_neg hcount]
    constructor
    · intro hok
      cases hok
    · rintro ⟨⟨hsame, -⟩, -⟩
      exact absurd hsame hcount

theorem checkColumns_eq_error_iff :
    checkColumns rows schema.fields columns = .error failure ↔
      ∃ before field column after, schema.fields.zip columns = before ++ (field, column) :: after ∧
        (∀ pair ∈ before, Belongs rows pair.1 pair.2) ∧
        ∃ cause, (∃ kind, Fault rows field column kind cause) ∧
          failure = .error (.raised cause) := by
  rw [checkColumns_eq_checkEach _ [], checkEach_eq_error_iff]
  -- every pair that is checked is of a column of the batch, and so of a well-formed one
  have hsplit {before after : List (Field × Column)} {pair : Field × Column}
      (hzip : schema.fields.zip columns = before ++ pair :: after) :
      (∀ other ∈ before, other.2 ∈ columns) ∧ pair.2 ∈ columns := by
    have hmem : ∀ other ∈ before ++ pair :: after, other.2 ∈ columns :=
      fun other hother => (List.of_mem_zip (hzip ▸ hother)).2
    obtain ⟨hbefore, hafter⟩ := List.forall_mem_append.mp hmem
    exact ⟨hbefore, hafter pair List.mem_cons_self⟩
  constructor
  · rintro ⟨before, ⟨field, column⟩, after, hzip, hpassed, herror⟩
    obtain ⟨hbefore, hpair⟩ := hsplit hzip
    exact ⟨before, field, column, after, hzip,
      (checkEach_eq_ok_iff_belongs hcolumns hbefore).mp hpassed,
      (checkColumn_decides (hcolumns _ hpair) rows field).eq_error_iff.mp herror⟩
  · rintro ⟨before, field, column, after, hzip, hpassed, hfault⟩
    obtain ⟨hbefore, hpair⟩ := hsplit hzip
    exact ⟨before, (field, column), after, hzip,
      (checkEach_eq_ok_iff_belongs hcolumns hbefore).mpr hpassed,
      (checkColumn_decides (hcolumns _ hpair) rows field).eq_error_iff.mpr hfault⟩

theorem create_eq_error_iff :
    create schema columns = .error failure ↔
      ∃ kind cause, Violates schema columns kind cause ∧ failure = .error (.raised cause) := by
  rw [create]
  by_cases hcount : columns.length = schema.length
  · rw [if_pos hcount, bind_pure_eq_error_iff, checkColumns_eq_error_iff hcolumns]
    constructor
    · rintro ⟨before, field, column, after, hzip, hpassed, cause, ⟨kind, hfault⟩, hfailure⟩
      exact ⟨kind, cause, .column hcount hzip hpassed hfault, hfailure⟩
    · rintro ⟨kind, cause, hviolates, hfailure⟩
      cases hviolates with
      | count hdiffer => exact absurd hcount hdiffer
      | column _ hzip hpassed hfault =>
        exact ⟨_, _, _, _, hzip, hpassed, cause, ⟨kind, hfault⟩, hfailure⟩
  · rw [if_neg hcount]
    constructor
    · intro herror
      exact ⟨_, _, .count hcount, (Except.error.inj herror).symm⟩
    · rintro ⟨kind, cause, hviolates, rfl⟩
      cases hviolates with
      | count => rfl
      | column hsame => exact absurd hsame hcount

end Create

/-! ## Batches that were made -/

/-- All columns are as long as the batch and as wide as their fields say, so that rows times width
is the size of the values of each. -/
structure IsRegular (batch : RecordBatch) : Prop where
  count_eq : batch.columns.length = batch.schema.length
  length_eq : ∀ column ∈ batch.columns, column.length = batch.rows
  rows_eq_zero : batch.columns = [] → batch.rows = 0
  width_eq : ∀ pair ∈ batch.schema.fields.zip batch.columns,
    pair.2.width = pair.1.dtype.byteWidth
  valueBytes_size : ∀ pair ∈ batch.schema.fields.zip batch.columns,
    ∃ bytes, pair.2.valueBytes = .ok bytes ∧ bytes.size = batch.rows * pair.1.dtype.byteWidth

theorem Admissible.isRegular (h : Admissible schema columns)
    (hcolumns : ∀ column ∈ columns, column.WellFormed) :
    (⟨schema, columns⟩ : RecordBatch).IsRegular := by
  have hlength := length_eq_commonLength h.length_eq
  have hwidth : ∀ pair ∈ schema.fields.zip columns, pair.2.width = pair.1.dtype.byteWidth := by
    intro pair hmem
    rw [(hcolumns _ (List.of_mem_zip hmem).2).width_eq, h.dtype_eq pair hmem]
  refine ⟨h.count_eq, hlength, ?_, hwidth, ?_⟩
  · rintro rfl
    rfl
  · intro pair hmem
    have hcolumn := (List.of_mem_zip hmem).2
    obtain ⟨hbytes, hstop⟩ := (hcolumns _ hcolumn).measured.valueBytes_eq_ok
    refine ⟨_, hbytes, ?_⟩
    rw [Array.size_extract, Nat.min_eq_left hstop, Nat.sub_zero, hlength _ hcolumn,
      hwidth pair hmem]
    rfl

/-- Columns make a batch exactly if they are admissible. Otherwise the error is the one that is
found first, and of its kind. In a batch that was made, rows times width is the size of the values
of each column. -/
theorem admission (schema : Schema) (columns : List Column)
    (hcolumns : ∀ column ∈ columns, (Object.column column).Reachable) :
    (∀ batch, create schema columns = .ok batch ↔
        Admissible schema columns ∧ batch = ⟨schema, columns⟩) ∧
      (∀ failure, create schema columns = .error failure ↔
        ∃ kind cause, Violates schema columns kind cause ∧ cause.kind = kind ∧
          failure = .error (.raised cause)) ∧
      ∀ batch, create schema columns = .ok batch → batch.IsRegular := by
  have hwell : ∀ column ∈ columns, column.WellFormed :=
    fun column hmem => (hcolumns column hmem).wellFormed
  refine ⟨fun batch => create_eq_ok_iff hwell, fun failure => ?_, fun batch hcreate => ?_⟩
  · rw [create_eq_error_iff hwell]
    constructor
    · rintro ⟨kind, cause, hviolates, hfailure⟩
      exact ⟨kind, cause, hviolates, hviolates.kind_eq, hfailure⟩
    · rintro ⟨kind, cause, hviolates, -, hfailure⟩
      exact ⟨kind, cause, hviolates, hfailure⟩
  · obtain ⟨hadmissible, rfl⟩ := (create_eq_ok_iff hwell).mp hcreate
    exact hadmissible.isRegular hwell

/-- A column of one null is a batch by itself under a field that allows nulls. Under one that does
not, its null is found before the type of the second column is. -/
theorem admission_of_null :
    let column := ((Column.Call.setNullGrowing 0).run .standard (Column.empty "x" .int8)).state
    (⟨⟨[⟨"a", .int8, true⟩]⟩, [column]⟩ : RecordBatch).IsRegular ∧
      create ⟨[⟨"a", .int8, false⟩, ⟨"b", .int16, true⟩]⟩ [column, column] =
        .error (.error (.raised (.nullsInField "a" 1))) := by
  intro column
  have hreachable : (Object.column column).Reachable := by
    refine .call (.setNullGrowing 0) Allocator.isBounded_standard (.empty "x" _) ?_
    rintro _ ⟨⟩
  have hsingle : ∀ other ∈ [column], (Object.column other).Reachable :=
    List.forall_mem_singleton.mpr hreachable
  have hboth : ∀ other ∈ [column, column], (Object.column other).Reachable :=
    List.forall_mem_cons.mpr ⟨hreachable, hsingle⟩
  have hnull : column.HasNull := ⟨0, by decide, by decide⟩
  have hcount : column.nullCount = .ok 1 := by decide
  refine ⟨(admission ⟨[⟨"a", .int8, true⟩]⟩ [column] hsingle).2.2 _ rfl, ?_⟩
  have hfault : Fault 1 ⟨"a", .int8, false⟩ column .compute (.nullsInField "a" 1) :=
    .null rfl (by decide) rfl hnull hcount
  refine ((admission _ [column, column] hboth).2.1 _).mpr ⟨.compute, _, ?_, rfl, rfl⟩
  exact .column rfl rfl (List.forall_mem_nil _) hfault

end RecordBatch

end Columnar
