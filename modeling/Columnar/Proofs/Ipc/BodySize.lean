import Columnar.Proofs.Ipc.Alignment
import Columnar.Proofs.Ipc.BatchEncoding
import Columnar.Proofs.Shortage

/-!
# How long a body is

The length that is found before there is a body and that of what is put into it are one sum. It is
checked against 64 bits at every step, which comes to checking it once at the end.
-/

namespace Columnar

open Ipc

namespace Column.WellFormed

variable {column : Column}

/-- The validity bits of all rows take a buffer in memory. -/
theorem bits_lt (h : column.WellFormed) : (column.length + 7) / 8 < Allocator.standardLimit := by
  have hsize := h.size_validity
  have hlength := h.length_le
  have hvalidity := h.validity_lt
  omega

/-- The values of all rows take a buffer in memory. -/
theorem values_end_lt (h : column.WellFormed) :
    column.length * column.width < Allocator.standardLimit :=
  Nat.lt_of_le_of_lt h.values_end_le h.values_lt

end Column.WellFormed

namespace Ipc.Body

/-! ## The length that is found before there is a body -/

/-- The length of the buffers of a column of so many rows, with their padding. -/
def exactColumnSize (alignment rows : Nat) (column : Column) : Nat :=
  Alignment.roundUp ((rows + 7) / 8) alignment + Alignment.roundUp (rows * column.width) alignment

/-- The length of a body of columns of so many rows, whatever 64 bits can count. -/
def exactSize (alignment rows : Nat) (columns : List Column) : Nat :=
  (columns.map (exactColumnSize alignment rows)).sum

theorem exactSize_cons (alignment rows : Nat) (column : Column) (rest : List Column) :
    exactSize alignment rows (column :: rest) =
      exactColumnSize alignment rows column + exactSize alignment rows rest :=
  List.sum_cons

section

variable {alignment rows : Nat} {column : Column} {columns : List Column}

theorem paddedSize_eq_ok {length : Nat} (hlength : length < Allocator.standardLimit)
    (halignment : IsPowerOfTwo alignment) (hbound : alignment < Size.bound) :
    paddedSize alignment length = .ok (Alignment.roundUp length alignment) := by
  have hlower := Alignment.le_roundUp length halignment.pos
  have hupper := Alignment.roundUp_lt length halignment.pos
  have hlt := Alignment.add_lt_bound hlength halignment hbound
  rw [paddedSize, Alignment.padding_of_buffer hlength halignment hbound, ok_bind,
    Size.add_eq_ok (by omega), Nat.add_sub_cancel' hlower]

theorem columnSize_eq_checked (hcolumn : column.WellFormed) (hrows : column.length = rows)
    (halignment : IsPowerOfTwo alignment) (hbound : alignment < Size.bound) :
    columnSize alignment rows column = Size.checked (exactColumnSize alignment rows column) := by
  subst hrows
  have hlower := Alignment.le_roundUp (column.length * column.width) halignment.pos
  have hvalues : Size.mul column.length column.width = .ok (column.length * column.width) :=
    Size.mul_eq_ok (hcolumn.size_lt_bound hcolumn.values_end_le)
  simp only [columnSize, hvalues, hcolumn.bytesFor_length, ok_bind,
    paddedSize_eq_ok hcolumn.bits_lt halignment hbound,
    Alignment.padding_of_buffer hcolumn.values_end_lt halignment hbound]
  rw [Size.add_eq_checked, Size.checked_bind_add, Nat.add_assoc, Nat.add_sub_cancel' hlower]
  rfl

theorem sizeFrom_eq_checked {size : Nat} (hsize : size < Size.bound)
    (hcolumns : ∀ column ∈ columns, column.WellFormed)
    (hrows : ∀ column ∈ columns, column.length = rows) (halignment : IsPowerOfTwo alignment)
    (hbound : alignment < Size.bound) :
    sizeFrom alignment rows size columns =
      Size.checked (size + exactSize alignment rows columns) := by
  induction columns generalizing size with
  | nil => exact (Size.checked_of_lt hsize).symm
  | cons column rest ih =>
    obtain ⟨hcolumn, hrest⟩ := List.forall_mem_cons.mp hcolumns
    obtain ⟨hlength, hlengths⟩ := List.forall_mem_cons.mp hrows
    have hfirst : sizeFrom alignment rows size (column :: rest) =
        Size.checked (size + exactColumnSize alignment rows column) >>=
          fun size => sizeFrom alignment rows size rest := by
      rw [← Size.checked_bind_add_left, bind_assoc, ← columnSize_eq_checked hcolumn hlength
        halignment hbound]
      rfl
    rw [hfirst, exactSize_cons, ← Nat.add_assoc]
    -- a sum that has left 64 bits does not come back
    rcases Nat.lt_or_ge (size + exactColumnSize alignment rows column) Size.bound with hlt | hge
    · rw [Size.checked_of_lt hlt, ok_bind]
      exact ih hlt hrest hlengths
    · rw [Size.checked_of_le hge, error_bind, Size.checked_of_le (Nat.le_add_right_of_le hge)]

/-- The length that is found before there is a body is its exact length, if 64 bits can count
it. -/
theorem sizeOf_eq_checked (hcolumns : ∀ column ∈ columns, column.WellFormed)
    (hrows : ∀ column ∈ columns, column.length = rows) (halignment : IsPowerOfTwo alignment)
    (hbound : alignment < Size.bound) :
    sizeOf alignment rows columns = Size.checked (exactSize alignment rows columns) := by
  rw [sizeOf, sizeFrom_eq_checked (by decide) hcolumns hrows halignment hbound, Nat.zero_add]

/-! ## The length of what is put into a body -/

theorem append_of_lt {buffer : Bytes} (hbuffer : buffer.size < Allocator.standardLimit)
    (halignment : IsPowerOfTwo alignment) (hbound : alignment < Size.bound) (body : Body) :
    ∃ after, body.append alignment buffer = .ok (⟨body.offset, buffer.size⟩, after) ∧
      after.bytes.size = body.bytes.size + Alignment.roundUp buffer.size alignment := by
  have hlower := Alignment.le_roundUp buffer.size halignment.pos
  refine ⟨_, by rw [append, Alignment.padding_of_buffer hbuffer halignment hbound]; rfl, ?_⟩
  rw [Array.size_append, Array.size_append, Bytes.size_zeros]
  omega

theorem size_sent_lt (hcolumn : column.WellFormed) :
    (Bits.maskTrailing (column.validity.bytes.extract 0 (Bits.bytesFor column.length))
      column.length).size < Allocator.standardLimit := by
  rw [size_sent hcolumn]
  exact hcolumn.bits_lt

theorem size_values_sent_lt (hcolumn : column.WellFormed) :
    (column.values.extract 0 (column.length * column.width)).size < Allocator.standardLimit := by
  rw [size_values_sent hcolumn]
  exact hcolumn.values_end_lt

theorem appendColumn_of_wellFormed (hcolumn : column.WellFormed)
    (halignment : IsPowerOfTwo alignment) (hbound : alignment < Size.bound) (body : Body) :
    ∃ entry after, body.appendColumn alignment column = .ok (entry, after) ∧
      after.bytes.size = body.bytes.size + exactColumnSize alignment column.length column := by
  obtain ⟨middle, hmiddle, hmiddleSize⟩ :=
    append_of_lt (size_sent_lt hcolumn) halignment hbound body
  obtain ⟨after, hafter, hafterSize⟩ :=
    append_of_lt (size_values_sent_lt hcolumn) halignment hbound middle
  rw [size_sent hcolumn] at hmiddle hmiddleSize
  rw [size_values_sent hcolumn] at hafter hafterSize
  refine ⟨⟨column.contents.countP Option.isNone, ⟨body.offset, (column.length + 7) / 8⟩,
    ⟨middle.offset, column.length * column.width⟩⟩, after, ?_, ?_⟩
  · rw [appendColumn, hcolumn.nullCount_eq_ok, ok_bind, hcolumn.bits_eq_ok, ok_bind, hmiddle,
      ok_bind]
    simp only [hcolumn.valueBytes_eq_ok, ok_bind, hafter, pure_eq_ok]
  · rw [hafterSize, hmiddleSize, Nat.add_assoc, exactColumnSize]

/-- The columns fit into a body, and it grows by their exact length. -/
theorem appendColumns_of_wellFormed (hcolumns : ∀ column ∈ columns, column.WellFormed)
    (hrows : ∀ column ∈ columns, column.length = rows) (halignment : IsPowerOfTwo alignment)
    (hbound : alignment < Size.bound) (body : Body) :
    ∃ entries after, body.appendColumns alignment columns = .ok (entries, after) ∧
      after.bytes.size = body.bytes.size + exactSize alignment rows columns := by
  induction columns generalizing body with
  | nil => exact ⟨[], body, rfl, rfl⟩
  | cons column rest ih =>
    obtain ⟨hcolumn, hrest⟩ := List.forall_mem_cons.mp hcolumns
    obtain ⟨hlength, hlengths⟩ := List.forall_mem_cons.mp hrows
    obtain ⟨entry, middle, hfirst, hfirstSize⟩ :=
      appendColumn_of_wellFormed hcolumn halignment hbound body
    obtain ⟨entries, after, hothers, hothersSize⟩ := ih hrest hlengths middle
    refine ⟨entry :: entries, after, ?_, ?_⟩
    · rw [appendColumns, hfirst, ok_bind]
      simp only [hothers, ok_bind, pure_eq_ok]
    · rw [hothersSize, hfirstSize, hlength, exactSize_cons, Nat.add_assoc]

end

end Ipc.Body

/-! ## Encoding a batch -/

theorem Action.reserve_zero_of_not_allows {σ : Type} {allocator : Allocator} {buffer : Buffer}
    {size : Nat} (h : ¬allocator.Allows buffer size) (state : σ) :
    ∃ error, reserve buffer 0 size allocator state = ⟨.error (.error error), state, []⟩ ∧
      error.kind = .caused .outOfMemory := by
  obtain ⟨hok, -⟩ | ⟨cause, hrefused⟩ := reserve_cases allocator buffer 0 size state
  · exact absurd (reserve_zero_eq_ok_iff.mp hok) h
  · exact ⟨_, hrefused, congrArg ErrorKind.caused (reserve_kind (congrArg Outcome.answer hrefused))⟩

namespace RecordBatch

variable {σ : Type} {batch : RecordBatch} {alignment : Nat} {allocator : Allocator}

theorem WellFormed.sizeOf_eq_checked (hbatch : batch.WellFormed)
    (halignment : IsPowerOfTwo alignment) (hbound : alignment < Size.bound) :
    Body.sizeOf alignment batch.rows batch.columns =
      Size.checked (Body.exactSize alignment batch.rows batch.columns) :=
  Body.sizeOf_eq_checked hbatch.column hbatch.length_eq halignment hbound

/-- A batch whose body can be had is encoded. -/
theorem encode_of_allows (hbatch : batch.WellFormed) (hcount : batch.columns.length < wordBound)
    (halignment : IsPowerOfTwo alignment) (hbound : alignment < Size.bound)
    (hallows : allocator.Allows .body (Body.exactSize alignment batch.rows batch.columns))
    (state : σ) :
    ∃ message, batch.encode alignment allocator state = ⟨.ok message, state, []⟩ ∧
      message.body.size = Body.exactSize alignment batch.rows batch.columns := by
  have hlt : Body.exactSize alignment batch.rows batch.columns < Size.bound :=
    Nat.lt_of_le_of_lt hallows.le_maxSize (by decide)
  obtain ⟨entries, body, hbody, hsize⟩ := Body.appendColumns_of_wellFormed hbatch.column
    hbatch.length_eq halignment hbound Body.empty
  have hentries : entries.length < wordBound := by
    rwa [Body.length_of_appendColumns hbody]
  have hagree : body.bytes.size = Body.exactSize alignment batch.rows batch.columns :=
    hsize.trans (Nat.zero_add _)
  refine ⟨⟨(metadataOf batch.rows (Body.exactSize alignment batch.rows batch.columns)
    entries).toArray, body.bytes⟩, ?_, hagree⟩
  rw [encode, hbatch.sizeOf_eq_checked halignment hbound, Size.checked_of_lt hlt,
    Action.liftM_ok_bind, Action.bind_of_ok (Action.reserve_zero_eq_ok_iff.mpr hallows), hbody,
    Action.liftM_ok_bind]
  simp only [if_pos hagree, encodeMetadata_of_lt hentries]
  rfl

/-- A batch whose body cannot be had is refused, and nothing has changed. -/
theorem encode_of_not_allows (hbatch : batch.WellFormed) (halignment : IsPowerOfTwo alignment)
    (hbound : alignment < Size.bound)
    (hlt : Body.exactSize alignment batch.rows batch.columns < Size.bound)
    (hrefused : ¬allocator.Allows .body (Body.exactSize alignment batch.rows batch.columns))
    (state : σ) :
    ∃ error, batch.encode alignment allocator state = ⟨.error (.error error), state, []⟩ ∧
      error.kind = .caused .outOfMemory := by
  obtain ⟨error, hreserve, hkind⟩ := Action.reserve_zero_of_not_allows hrefused state
  refine ⟨error, ?_, hkind⟩
  rw [encode, hbatch.sizeOf_eq_checked halignment hbound, Size.checked_of_lt hlt,
    Action.liftM_ok_bind]
  exact Action.bind_apply_error hreserve

/-- A batch whose body 64 bits cannot count is not even refused. -/
theorem encode_of_overflow (hbatch : batch.WellFormed) (halignment : IsPowerOfTwo alignment)
    (hbound : alignment < Size.bound)
    (hoverflow : Size.bound ≤ Body.exactSize alignment batch.rows batch.columns) (state : σ) :
    batch.encode alignment allocator state = ⟨.error (.breach .sizeOverflow), state, []⟩ := by
  rw [encode, hbatch.sizeOf_eq_checked halignment hbound, Size.checked_of_le hoverflow]
  rfl

/-- A batch is encoded exactly if memory for its body can be had. If it is not, it is refused for
want of memory as long as 64 bits can count the length of the body, and breaks a promise otherwise.
Whatever the answer is, nothing has changed. -/
theorem encode_answer (hbatch : batch.Reachable) (hcount : batch.columns.length < wordBound)
    (halignment : IsPowerOfTwo alignment) (hbound : alignment < Size.bound) (allocator : Allocator)
    (state : σ) :
    (allocator.Allows .body (Body.exactSize alignment batch.rows batch.columns) →
      ∃ message, batch.encode alignment allocator state = ⟨.ok message, state, []⟩ ∧
        message.body.size = Body.exactSize alignment batch.rows batch.columns) ∧
    (¬allocator.Allows .body (Body.exactSize alignment batch.rows batch.columns) →
      Body.exactSize alignment batch.rows batch.columns < Size.bound →
        ∃ error, batch.encode alignment allocator state = ⟨.error (.error error), state, []⟩ ∧
          error.kind = .caused .outOfMemory) ∧
    (Size.bound ≤ Body.exactSize alignment batch.rows batch.columns →
      batch.encode alignment allocator state = ⟨.error (.breach .sizeOverflow), state, []⟩) :=
  ⟨fun hallows => encode_of_allows hbatch.wellFormed hcount halignment hbound hallows state,
    fun hrefused hlt => encode_of_not_allows hbatch.wellFormed halignment hbound hlt hrefused state,
    fun hoverflow => encode_of_overflow hbatch.wellFormed halignment hbound hoverflow state⟩

/-- A batch of one field and one row. -/
def oneRow : RecordBatch :=
  ⟨⟨[⟨"a", .int8, true⟩]⟩,
    [((Column.Call.setGrowing 0 #[7]).run .standard (Column.empty "a" .int8)).state]⟩

theorem reachable_oneRow : oneRow.Reachable := by
  refine reachable_singleton ?_ (by decide)
  refine .call (.setGrowing 0 #[7]) Allocator.isBounded_standard (.empty "a" .int8) ?_
  rintro _ ⟨⟩

/-- As the alignment grows, a batch of one row is encoded, or refused, or cannot be counted. -/
theorem encode_answer_of_one_row :
    (∃ message, oneRow.encode 16 .standard () = ⟨.ok message, (), []⟩ ∧ message.body.size = 32) ∧
      (∃ error, oneRow.encode 0x4000000000000000 .standard () = ⟨.error (.error error), (), []⟩ ∧
        error.kind = .caused .outOfMemory) ∧
      oneRow.encode 0x8000000000000000 .standard () = ⟨.error (.breach .sizeOverflow), (), []⟩ := by
  have hcount : oneRow.columns.length < wordBound := by decide
  have hshort : Body.exactSize 16 oneRow.rows oneRow.columns = 32 := by cbv
  have hlong : Body.exactSize 0x4000000000000000 oneRow.rows oneRow.columns =
      0x8000000000000000 := by cbv
  have hlongest : Body.exactSize 0x8000000000000000 oneRow.rows oneRow.columns = Size.bound := by
    cbv
  obtain ⟨hencoded, -, -⟩ := encode_answer reachable_oneRow hcount
    (by decide : IsPowerOfTwo 16) (by decide) .standard ()
  obtain ⟨-, hrefused, -⟩ := encode_answer reachable_oneRow hcount
    (by decide : IsPowerOfTwo 0x4000000000000000) (by decide) .standard ()
  obtain ⟨-, -, hbreach⟩ := encode_answer reachable_oneRow hcount
    (by decide : IsPowerOfTwo 0x8000000000000000) (by decide) .standard ()
  rw [hshort, Allocator.allows_standard_iff] at hencoded
  rw [hlong, Allocator.allows_standard_iff] at hrefused
  exact ⟨hencoded (by decide), hrefused (by decide) (by decide),
    hbreach (Nat.le_of_eq hlongest.symm)⟩

/-- A body of two bytes, at an alignment that a writer accepts, is longer than any buffer, and yet
the batch is not refused for want of memory. -/
theorem encode_oneRow_not_refused :
    oneRow.Reachable ∧ Alignment.check 0x8000000000000000 = .ok () ∧
      Allocator.maxSize < Body.exactSize 0x8000000000000000 oneRow.rows oneRow.columns ∧
      ∀ error, (oneRow.encode 0x8000000000000000 .standard ()).answer ≠ .error (.error error) := by
  have hpower : IsPowerOfTwo 0x8000000000000000 := by decide
  have hsize : Body.exactSize 0x8000000000000000 oneRow.rows oneRow.columns = Size.bound := by cbv
  have hbreach : oneRow.encode 0x8000000000000000 .standard () =
      ⟨.error (.breach .sizeOverflow), (), []⟩ :=
    encode_of_overflow reachable_oneRow.wellFormed hpower (by decide) (Nat.le_of_eq hsize.symm) ()
  refine ⟨reachable_oneRow, if_pos hpower, ?_, ?_⟩
  · rw [hsize]
    decide
  · intro error
    rw [hbreach]
    rintro ⟨⟩

end RecordBatch

end Columnar
