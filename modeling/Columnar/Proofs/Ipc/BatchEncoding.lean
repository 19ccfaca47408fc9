import Columnar.Proofs.Ipc.Reading
import Columnar.Proofs.RecordBatch

/-!
# Reading an encoded record batch

A buffer that was added to a body stays where its extent says, whatever is added after it. So the
entries of the metadata lead a reader to the slots of every column.
-/

namespace Columnar

namespace Ipc

namespace Body

/-- The buffer lies in the body where the extent says. -/
structure Holds (body : Bytes) (extent : Extent) (buffer : Bytes) : Prop where
  length_eq : extent.length = buffer.size
  end_le : extent.offset + extent.length ≤ body.size
  extract_eq : body.extract extent.offset (extent.offset + extent.length) = buffer

theorem Holds.append {body buffer : Bytes} {extent : Extent} (h : Holds body extent buffer)
    (more : Bytes) : Holds (body ++ more) extent buffer where
  length_eq := h.length_eq
  end_le := by
    rw [Array.size_append]
    exact Nat.le_add_right_of_le h.end_le
  extract_eq := by
    have hpast := Nat.sub_eq_zero_of_le h.end_le
    rw [Array.extract_append, h.extract_eq, hpast, Array.extract_zero, Array.append_empty]

/-- The next buffer goes to the end of the bytes. -/
def IsTight (body : Body) : Prop :=
  body.offset = body.bytes.size

/-- The body was made of another by adding to its end. -/
def Extends (after before : Body) : Prop :=
  after.IsTight ∧ ∃ more, after.bytes = before.bytes ++ more

theorem Extends.refl {body : Body} (h : body.IsTight) : body.Extends body :=
  ⟨h, #[], Array.append_empty.symm⟩

theorem Extends.trans {first second third : Body} (h : third.Extends second)
    (hsecond : second.Extends first) : third.Extends first := by
  obtain ⟨htight, more, hmore⟩ := h
  obtain ⟨-, earlier, hearlier⟩ := hsecond
  refine ⟨htight, earlier ++ more, ?_⟩
  rw [hmore, hearlier, Array.append_assoc]

theorem Holds.of_extends {before after : Body} {extent : Extent} {buffer : Bytes}
    (h : Holds before.bytes extent buffer) (hafter : after.Extends before) :
    Holds after.bytes extent buffer := by
  obtain ⟨-, more, hmore⟩ := hafter
  rw [hmore]
  exact h.append more

theorem append_eq_ok {alignment : Nat} {body after : Body} {buffer : Bytes} {extent : Extent}
    (hbody : body.IsTight) (h : body.append alignment buffer = .ok (extent, after)) :
    after.Extends body ∧ Holds after.bytes extent buffer := by
  obtain ⟨padding, -, hadded⟩ := bind_eq_ok_iff.mp h
  obtain ⟨rfl, rfl⟩ := Prod.mk.inj (Except.ok.inj hadded)
  have hoffset : body.offset = body.bytes.size := hbody
  refine ⟨⟨?_, buffer ++ Bytes.zeros padding, Array.append_assoc⟩, ?_⟩
  · show body.offset + (buffer.size + padding) = _
    rw [Array.size_append, Array.size_append, Bytes.size_zeros, hoffset, Nat.add_assoc]
  · have hheld : Holds (body.bytes ++ buffer) ⟨body.offset, buffer.size⟩ buffer := by
      have hsize : (body.bytes ++ buffer).size = body.offset + buffer.size := by
        rw [Array.size_append, hoffset]
      refine ⟨rfl, Nat.le_of_eq hsize.symm, ?_⟩
      show (body.bytes ++ buffer).extract body.offset (body.offset + buffer.size) = buffer
      simp [hoffset, Array.extract_append]
    exact hheld.append (Bytes.zeros padding)

end Body

/-- The entry leads to the buffers of the column in the body. The bits past the last row are
of no interest. -/
structure ColumnEntry.Describes (entry : ColumnEntry) (column : Column) (body : Bytes) :
    Prop where
  nullCount_eq : column.nullCount = .ok entry.nullCount
  validity : ∃ bits, Body.Holds body entry.validity bits ∧ bits.size = (column.length + 7) / 8 ∧
    ∀ row < column.length, Bits.bit bits row = column.validity.bit row
  values : Body.Holds body entry.values (column.values.extract 0 (column.length * column.width))

theorem ColumnEntry.Describes.of_extends {entry : ColumnEntry} {column : Column}
    {before after : Body} (h : entry.Describes column before.bytes)
    (hafter : after.Extends before) : entry.Describes column after.bytes := by
  obtain ⟨bits, hheld, hsize, hbits⟩ := h.validity
  exact
    { nullCount_eq := h.nullCount_eq
      validity := ⟨bits, hheld.of_extends hafter, hsize, hbits⟩
      values := h.values.of_extends hafter }

end Ipc

namespace Column.WellFormed

variable {column : Column}

theorem bytesFor_length (h : column.WellFormed) :
    Bits.bytesFor column.length = (column.length + 7) / 8 := by
  have hcapacity := h.capacity_lt
  have hlength := h.length_le
  exact Bits.bytesFor_eq (by omega)

theorem values_end_le (h : column.WellFormed) :
    column.length * column.width ≤ column.values.size := by
  rw [h.size_values]
  exact Nat.mul_le_mul_right _ h.length_le

theorem valueBytes_eq_ok (h : column.WellFormed) :
    column.valueBytes = .ok (column.values.extract 0 (column.length * column.width)) := by
  rw [Column.valueBytes, Size.mul_eq_ok (h.size_lt_bound h.values_end_le), ok_bind,
    Bytes.stretch_eq_ok (Nat.zero_le _) h.values_end_le]

theorem bits_eq_ok (h : column.WellFormed) :
    column.validity.bytes.stretch 0 (Bits.bytesFor column.length) =
      .ok (column.validity.bytes.extract 0 (Bits.bytesFor column.length)) := by
  have hsize := h.size_validity
  have hlength := h.length_le
  apply Bytes.stretch_eq_ok (Nat.zero_le _)
  rw [h.bytesFor_length]
  omega

end Column.WellFormed

namespace Ipc

namespace Body

variable {alignment : Nat} {body after : Body}

theorem bit_sent {column : Column} (h : column.WellFormed) {row : Nat}
    (hrow : row < column.length) :
    Bits.bit (Bits.maskTrailing
      (column.validity.bytes.extract 0 (Bits.bytesFor column.length)) column.length) row =
        column.validity.bit row := by
  have hin : row < Bits.bytesFor column.length * 8 := by
    rw [h.bytesFor_length]
    omega
  rw [Bits.bit_maskTrailing, Bits.bit_extract]
  simp [hrow, hin, Bitmap.bit]

theorem size_sent {column : Column} (h : column.WellFormed) :
    (Bits.maskTrailing (column.validity.bytes.extract 0 (Bits.bytesFor column.length))
      column.length).size = (column.length + 7) / 8 := by
  have hsize := h.size_validity
  have hlength := h.length_le
  rw [Bits.size_maskTrailing, Array.size_extract, h.bytesFor_length]
  omega

theorem size_values_sent {column : Column} (h : column.WellFormed) :
    (column.values.extract 0 (column.length * column.width)).size =
      column.length * column.width := by
  rw [Array.size_extract, Nat.min_eq_left h.values_end_le, Nat.sub_zero]

/-- A column is added as its validity bits and then its values. -/
theorem appendColumn_cases {column : Column} {entry : ColumnEntry} (hcolumn : column.WellFormed)
    (h : body.appendColumn alignment column = .ok (entry, after)) :
    column.nullCount = .ok entry.nullCount ∧ ∃ middle,
      body.append alignment (Bits.maskTrailing
        (column.validity.bytes.extract 0 (Bits.bytesFor column.length)) column.length) =
          .ok (entry.validity, middle) ∧
      middle.append alignment (column.values.extract 0 (column.length * column.width)) =
        .ok (entry.values, after) := by
  rw [appendColumn, hcolumn.nullCount_eq_ok, ok_bind, hcolumn.bits_eq_ok, ok_bind] at h
  obtain ⟨⟨validity, middle⟩, hvalidity, hrest⟩ := bind_eq_ok_iff.mp h
  obtain ⟨bytes, hbytes, hrest⟩ := bind_eq_ok_iff.mp hrest
  obtain ⟨⟨values, last⟩, hvalues, hdone⟩ := bind_eq_ok_iff.mp hrest
  obtain rfl := Except.ok.inj (hcolumn.valueBytes_eq_ok.symm.trans hbytes)
  obtain ⟨rfl, rfl⟩ := Prod.mk.inj (Except.ok.inj hdone)
  exact ⟨hcolumn.nullCount_eq_ok, middle, hvalidity, hvalues⟩

/-- The validity bits and the values of a column stay in the body. -/
theorem appendColumn_holds {column : Column} {entry : ColumnEntry} (hcolumn : column.WellFormed)
    (hbody : body.IsTight) (h : body.appendColumn alignment column = .ok (entry, after)) :
    after.Extends body ∧
      Holds after.bytes entry.validity (Bits.maskTrailing
        (column.validity.bytes.extract 0 (Bits.bytesFor column.length)) column.length) ∧
      Holds after.bytes entry.values (column.values.extract 0 (column.length * column.width)) := by
  obtain ⟨-, middle, hvalidity, hvalues⟩ := appendColumn_cases hcolumn h
  obtain ⟨hmiddle, hbits⟩ := append_eq_ok hbody hvalidity
  obtain ⟨hafter, hheld⟩ := append_eq_ok hmiddle.1 hvalues
  exact ⟨hafter.trans hmiddle, hbits.of_extends hafter, hheld⟩

theorem appendColumn_eq_ok {column : Column} {entry : ColumnEntry} (hcolumn : column.WellFormed)
    (hbody : body.IsTight) (h : body.appendColumn alignment column = .ok (entry, after)) :
    after.Extends body ∧ entry.Describes column after.bytes := by
  obtain ⟨hnulls, -⟩ := appendColumn_cases hcolumn h
  obtain ⟨hafter, hbits, hvalues⟩ := appendColumn_holds hcolumn hbody h
  exact ⟨hafter, hnulls, ⟨_, hbits, size_sent hcolumn, fun row hrow => bit_sent hcolumn hrow⟩,
    hvalues⟩

/-- What holds of every column when it is added, and stays so while the body grows, holds of all
columns at the end. -/
theorem appendColumns_forall₂ {IsPlaced : ColumnEntry → Column → Bytes → Prop}
    (hkept : ∀ {entry column} {before after : Body}, IsPlaced entry column before.bytes →
      after.Extends before → IsPlaced entry column after.bytes)
    {columns : List Column} (hcolumn : ∀ column ∈ columns, ∀ {body after : Body} {entry},
      body.IsTight → body.appendColumn alignment column = .ok (entry, after) →
        after.Extends body ∧ IsPlaced entry column after.bytes)
    {entries : List ColumnEntry} (hbody : body.IsTight)
    (h : body.appendColumns alignment columns = .ok (entries, after)) :
    after.Extends body ∧
      List.Forall₂ (fun entry column => IsPlaced entry column after.bytes) entries columns := by
  induction columns generalizing body entries with
  | nil =>
    obtain ⟨rfl, rfl⟩ := Prod.mk.inj (Except.ok.inj h)
    exact ⟨.refl hbody, .nil⟩
  | cons column rest ih =>
    obtain ⟨⟨entry, middle⟩, hfirst, hmore⟩ := bind_eq_ok_iff.mp h
    obtain ⟨⟨others, last⟩, hrest, hdone⟩ := bind_eq_ok_iff.mp hmore
    obtain ⟨rfl, rfl⟩ := Prod.mk.inj (Except.ok.inj hdone)
    obtain ⟨hmiddle, hentry⟩ := hcolumn column List.mem_cons_self hbody hfirst
    obtain ⟨hlast, hothers⟩ :=
      ih (fun other hmem => hcolumn other (List.mem_cons_of_mem column hmem)) hmiddle.1 hrest
    exact ⟨hlast.trans hmiddle, .cons (hkept hentry hlast) hothers⟩

/-- The entries made while a body is filled describe the columns in the body at its end. -/
theorem appendColumns_eq_ok {columns : List Column} {entries : List ColumnEntry}
    (hcolumns : ∀ column ∈ columns, column.WellFormed) (hbody : body.IsTight)
    (h : body.appendColumns alignment columns = .ok (entries, after)) :
    after.Extends body ∧
      List.Forall₂ (fun entry column => entry.Describes column after.bytes) entries columns :=
  -- later columns only add to the body, so what an entry leads to stays where it is
  appendColumns_forall₂ ColumnEntry.Describes.of_extends
    (fun column hmem => appendColumn_eq_ok (hcolumns column hmem)) hbody h

theorem length_of_appendColumns {columns : List Column} {entries : List ColumnEntry}
    (h : body.appendColumns alignment columns = .ok (entries, after)) :
    entries.length = columns.length := by
  induction columns generalizing body entries with
  | nil =>
    obtain ⟨rfl, rfl⟩ := Prod.mk.inj (Except.ok.inj h)
    rfl
  | cons column rest ih =>
    obtain ⟨⟨entry, middle⟩, -, hmore⟩ := bind_eq_ok_iff.mp h
    obtain ⟨⟨others, last⟩, hrest, hdone⟩ := bind_eq_ok_iff.mp hmore
    obtain ⟨rfl, rfl⟩ := Prod.mk.inj (Except.ok.inj hdone)
    exact congrArg (· + 1) (ih hrest)

end Body

/-! ## Reading -/

theorem Extent.buffer?_eq {body buffer : Bytes} {extent : Extent} {size : Nat}
    (h : Body.Holds body extent buffer) (hsize : buffer.size = size) :
    extent.buffer? body size = some buffer := by
  rw [Extent.buffer?, if_pos ⟨h.length_eq.trans hsize, h.end_le⟩, h.extract_eq]

/-- A described column is read back by a reader that knows the width of its slots. -/
theorem readColumn?_eq {entry : ColumnEntry} {column : Column} {body : Bytes}
    (hcolumn : column.WellFormed) (h : entry.Describes column body) :
    readColumn? column.length column.width body entry =
      some ⟨entry.nullCount, column.contents⟩ := by
  obtain ⟨bits, hheld, hsize, hbits⟩ := h.validity
  have hvalues := Body.size_values_sent hcolumn
  have hslots : (List.range column.length).map (fun row =>
      if Bits.bit bits row then
        some ((column.values.extract 0 (column.length * column.width)).extract
          (row * column.width) ((row + 1) * column.width))
      else none) = column.contents := by
    rw [Column.contents]
    apply List.map_congr_left
    intro row hmem
    have hrow := List.mem_range.mp hmem
    have hend : (row + 1) * column.width ≤ column.length * column.width :=
      Nat.mul_le_mul_right _ hrow
    rw [hbits row hrow, Column.slot, Array.extract_extract, Nat.zero_add, Nat.zero_add,
      Nat.min_eq_left hend]
  rw [readColumn?, Extent.buffer?_eq hheld hsize, Extent.buffer?_eq h.values hvalues]
  exact congrArg (fun slots => some (⟨entry.nullCount, slots⟩ : ColumnReading)) hslots

def ColumnEntry.numbers (entry : ColumnEntry) : List Nat :=
  [entry.nullCount, entry.validity.offset, entry.validity.length, entry.values.offset,
    entry.values.length]

/-- An entry is read back from its place if its numbers fit their words. -/
theorem readEntry_append {entry : ColumnEntry}
    (hentry : ∀ number ∈ entry.numbers, number < LittleEndian.bound 8) {front : List UInt8}
    {start : Nat} (hstart : front.length = start) (back : List UInt8) :
    readEntry (front ++ (entry.encode ++ back)) start = entry := by
  have hword : ∀ {i value : Nat}, entry.numbers[i]? = some value →
      word (front ++ (entry.encode ++ back)) (start + 8 * i) 8 = value := by
    intro i value hi
    rw [word_skip hstart]
    exact word_flatMap hentry hi back
  have hnulls : word _ start 8 = entry.nullCount := hword (i := 0) rfl
  have hvalidityOffset : word _ (start + 8) 8 = entry.validity.offset := hword (i := 1) rfl
  have hvalidityLength : word _ (start + 8 + 8) 8 = entry.validity.length := hword (i := 2) rfl
  have hvaluesOffset : word _ (start + 24) 8 = entry.values.offset := hword (i := 3) rfl
  have hvaluesLength : word _ (start + 24 + 8) 8 = entry.values.length := hword (i := 4) rfl
  rw [readEntry, readExtent, readExtent, hnulls, hvalidityOffset, hvalidityLength, hvaluesOffset,
    hvaluesLength]

theorem length_encode_entry (entry : ColumnEntry) : entry.encode.length = 40 := by
  simp only [ColumnEntry.encode, List.length_flatMap, LittleEndian.length_encode, List.map_cons,
    List.map_nil]
  rfl

theorem length_encode_entries (entries : List ColumnEntry) :
    (entries.flatMap ColumnEntry.encode).length = 40 * entries.length := by
  rw [List.length_flatMap]
  simp [length_encode_entry, Nat.mul_comm]

/-- A described column has numbers that fit the words for them. -/
theorem ColumnEntry.Describes.numbers_lt {entry : ColumnEntry} {column : Column} {body : Bytes}
    (h : entry.Describes column body) (hcolumn : column.WellFormed)
    (hbody : body.size < Size.bound) :
    ∀ number ∈ entry.numbers, number < LittleEndian.bound 8 := by
  obtain ⟨bits, hbits, -, -⟩ := h.validity
  have hvalidity := hbits.end_le
  have hvalues := h.values.end_le
  have hnulls : entry.nullCount ≤ column.length := by
    have hcount := Except.ok.inj (h.nullCount_eq.symm.trans hcolumn.nullCount_eq_ok)
    rw [hcount, ← column.length_contents]
    exact List.countP_le_length
  have hlength := hcolumn.length_le
  have hcapacity := hcolumn.capacity_lt
  have hbound : LittleEndian.bound 8 = Size.bound := rfl
  intro number hmem
  rw [hbound]
  simp only [ColumnEntry.numbers, List.mem_cons, List.not_mem_nil, or_false] at hmem
  obtain rfl | rfl | rfl | rfl | rfl := hmem <;> omega

/-- What was read of a column are its slots and the number of them that are null. -/
def ColumnReading.Shows (reading : ColumnReading) (column : Column) : Prop :=
  column.slots = .ok reading.slots ∧ column.nullCount = .ok reading.nullCount ∧
    reading.nullCount = reading.slots.countP Option.isNone

theorem readColumns?_eq {rows : Nat} {body : Bytes} {fields : List Field} {columns : List Column}
    {entries : List ColumnEntry} (hbody : body.size < Size.bound)
    (hcolumns : ∀ column ∈ columns, column.WellFormed)
    (hrows : ∀ column ∈ columns, column.length = rows)
    (hwidths : List.Forall₂ (fun field column => field.dtype.byteWidth = column.width)
      fields columns)
    (hentries : List.Forall₂ (fun entry column => entry.Describes column body) entries columns)
    {front : List UInt8} {start : Nat} (hstart : front.length = start) (back : List UInt8) :
    ∃ readings,
      readColumns? rows body (front ++ (entries.flatMap ColumnEntry.encode ++ back)) start fields =
        some readings ∧
      List.Forall₂ ColumnReading.Shows readings columns := by
  -- every entry that was read becomes a part of the front
  induction hentries generalizing fields front start with
  | nil =>
    obtain rfl := List.forall₂_nil_right_iff.mp hwidths
    exact ⟨[], rfl, .nil⟩
  | @cons entry column entries columns hentry _ ih =>
    obtain ⟨field, fields, hwidth, hrest, rfl⟩ := List.forall₂_cons_right_iff.mp hwidths
    have hcolumn := hcolumns column List.mem_cons_self
    have hread : readEntry (front ++ ((entry :: entries).flatMap ColumnEntry.encode ++ back))
        start = entry := by
      rw [List.flatMap_cons, List.append_assoc]
      exact readEntry_append (hentry.numbers_lt hcolumn hbody) hstart _
    have hnext : (front ++ entry.encode).length = start + 40 := by
      rw [List.length_append, length_encode_entry, hstart]
    obtain ⟨readings, hreadings, hshow⟩ := ih
      (fun other hmem => hcolumns other (List.mem_cons_of_mem column hmem))
      (fun other hmem => hrows other (List.mem_cons_of_mem column hmem)) hrest hnext
    have hshift : front ++ ((entry :: entries).flatMap ColumnEntry.encode ++ back) =
        front ++ entry.encode ++ (entries.flatMap ColumnEntry.encode ++ back) := by
      rw [List.flatMap_cons, List.append_assoc, List.append_assoc]
    refine ⟨⟨entry.nullCount, column.contents⟩ :: readings, ?_, .cons ?_ hshow⟩
    · rw [readColumns?, hread, hwidth, ← hrows column List.mem_cons_self,
        readColumn?_eq hcolumn hentry, hrows column List.mem_cons_self, hshift, hreadings]
      rfl
    · exact ⟨hcolumn.slots_eq_ok, hentry.nullCount_eq,
        Except.ok.inj (hentry.nullCount_eq.symm.trans hcolumn.nullCount_eq_ok)⟩

/-- What was read has the rows of the batch and shows its columns. -/
def BatchReading.Shows (reading : BatchReading) (batch : RecordBatch) : Prop :=
  reading.rows = batch.rows ∧ List.Forall₂ ColumnReading.Shows reading.columns batch.columns

end Ipc

namespace RecordBatch

open Ipc

/-- The metadata of a record batch message as it is written. -/
def metadataOf (rows bodyLength : Nat) (entries : List ColumnEntry) : List UInt8 :=
  MessageKind.recordBatch.code :: LittleEndian.encode 2 metadataVersion ++
    LittleEndian.encode 8 rows ++ LittleEndian.encode 8 bodyLength ++
    LittleEndian.encode 4 entries.length ++ entries.flatMap ColumnEntry.encode

/-- The message has entries that describe the columns of the batch in its body. -/
def IsEncodedBy (batch : RecordBatch) (message : Message) : Prop :=
  message.body.size ≤ Allocator.maxSize ∧
    ∃ entries : List ColumnEntry, entries.length < wordBound ∧
      message.metadata.toList = metadataOf batch.rows message.body.size entries ∧
      List.Forall₂ (fun entry column => entry.Describes column message.body) entries batch.columns

theorem encodeMetadata_eq_ok {rows bodyLength : Nat} {entries : List ColumnEntry}
    {metadata : List UInt8} (h : encodeMetadata rows bodyLength entries = .ok metadata) :
    entries.length < wordBound ∧ metadata = metadataOf rows bodyLength entries := by
  rw [encodeMetadata, encodeCount] at h
  by_cases hcount : entries.length < wordBound
  · rw [if_pos hcount] at h
    exact ⟨hcount, (Except.ok.inj h).symm⟩
  · rw [if_neg hcount] at h
    cases h

theorem encodeMetadata_of_lt {rows bodyLength : Nat} {entries : List ColumnEntry}
    (h : entries.length < wordBound) :
    encodeMetadata rows bodyLength entries = .ok (metadataOf rows bodyLength entries) := by
  rw [encodeMetadata, encodeCount, if_pos h]
  rfl

/-- A message is made of the body that all columns leave, and of the entries for them. -/
theorem encode_eq_ok {σ : Type} {batch : RecordBatch} {alignment : Nat} {allocator : Allocator}
    {state : σ} {message : Message}
    (h : (batch.encode alignment allocator state).answer = .ok message) :
    ∃ entries body, Body.empty.appendColumns alignment batch.columns = .ok (entries, body) ∧
      message = ⟨(metadataOf batch.rows body.bytes.size entries).toArray, body.bytes⟩ := by
  rw [encode] at h
  obtain ⟨size, -, hreserved⟩ := Action.bind_answer_eq_ok h
  obtain ⟨⟨⟩, -, hfilled⟩ := Action.bind_answer_eq_ok hreserved
  obtain ⟨⟨entries, body⟩, hbody, hchecked⟩ := Action.bind_answer_eq_ok hfilled
  rw [Action.liftM_apply] at hbody
  by_cases hagree : body.bytes.size = size
  · simp only [if_pos hagree] at hchecked
    obtain ⟨metadata, hmetadata, hmessage⟩ := Action.bind_answer_eq_ok hchecked
    rw [Action.liftM_apply] at hmetadata
    obtain ⟨-, rfl⟩ := encodeMetadata_eq_ok hmetadata
    refine ⟨entries, body, hbody, ?_⟩
    rw [hagree]
    exact (Except.ok.inj hmessage).symm
  · simp only [if_neg hagree] at hchecked
    cases hchecked

theorem length_metadataOf (rows bodyLength : Nat) (entries : List ColumnEntry) :
    (metadataOf rows bodyLength entries).length = 23 + 40 * entries.length := by
  simp only [metadataOf, List.length_append, List.length_cons, LittleEndian.length_encode,
    length_encode_entries]

/-- The length of the metadata of a batch depends on the number of its columns only. -/
theorem size_metadata_of_encode {σ : Type} {batch : RecordBatch} {alignment : Nat}
    {allocator : Allocator} {state : σ} {message : Message}
    (h : (batch.encode alignment allocator state).answer = .ok message) :
    message.metadata.size = 23 + 40 * batch.columns.length := by
  obtain ⟨entries, body, hcolumns, rfl⟩ := encode_eq_ok h
  rw [List.size_toArray, length_metadataOf, Body.length_of_appendColumns hcolumns]

/-- A batch is encoded, or it is not, and the state is as it was. -/
theorem encode_cases {σ : Type} {batch : RecordBatch} (hbatch : batch.WellFormed)
    (alignment : Nat) (allocator : Allocator) (state : σ) :
    (∃ message, batch.encode alignment allocator state = ⟨.ok message, state, []⟩ ∧
        batch.IsEncodedBy message) ∨
      ∃ failure, batch.encode alignment allocator state = ⟨.error failure, state, []⟩ := by
  rw [encode]
  cases hsize : Body.sizeOf alignment batch.rows batch.columns with
  | error failure => exact .inr ⟨failure, rfl⟩
  | ok size =>
    rw [Action.liftM_ok_bind]
    obtain ⟨hok, hfits⟩ | ⟨cause, hrefused⟩ :=
      Action.reserve_cases allocator .body 0 size state
    · rw [Action.bind_of_ok hok]
      cases hbody : Body.empty.appendColumns alignment batch.columns with
      | error failure => exact .inr ⟨failure, rfl⟩
      | ok made =>
        obtain ⟨entries, body⟩ := made
        rw [Action.liftM_ok_bind]
        -- the bytes asked for are counted apart from the body that is made
        by_cases hagree : body.bytes.size = size
        · simp only [if_pos hagree]
          cases hmetadata : encodeMetadata batch.rows size entries with
          | error failure => exact .inr ⟨failure, rfl⟩
          | ok metadata =>
            obtain ⟨hcount, hwritten⟩ := encodeMetadata_eq_ok hmetadata
            have htight : Body.empty.IsTight := rfl
            obtain ⟨-, hentries⟩ := Body.appendColumns_eq_ok hbatch.column htight hbody
            have hmax : body.bytes.size ≤ Allocator.maxSize := by
              rw [hagree]
              obtain hnone | ⟨hmax, -⟩ := hfits
              · exact Nat.le_trans hnone (Nat.zero_le _)
              · exact hmax
            refine .inl ⟨⟨metadata.toArray, body.bytes⟩, rfl, hmax, entries, hcount, ?_, hentries⟩
            show metadata.toArray.toList = metadataOf batch.rows body.bytes.size entries
            rw [List.toList_toArray, hagree, hwritten]
        · simp only [if_neg hagree]
          exact .inr ⟨_, rfl⟩
    · exact .inr ⟨_, Action.bind_apply_error hrefused⟩

section

variable {rows bodyLength : Nat} {entries : List ColumnEntry} (back : List UInt8)

theorem word_metadataOf_rows (hrows : rows < Size.bound) :
    word (metadataOf rows bodyLength entries ++ back) 3 8 = rows := by
  have hsplit : metadataOf rows bodyLength entries ++ back =
      (MessageKind.recordBatch.code :: LittleEndian.encode 2 metadataVersion) ++
        (LittleEndian.encode 8 rows ++ (LittleEndian.encode 8 bodyLength ++
          (LittleEndian.encode 4 entries.length ++
            (entries.flatMap ColumnEntry.encode ++ back)))) := by
    simp only [metadataOf, List.append_assoc, List.cons_append]
  rw [hsplit]
  exact word_append hrows rfl _

theorem word_metadataOf_body (hbody : bodyLength < Size.bound) :
    word (metadataOf rows bodyLength entries ++ back) 11 8 = bodyLength := by
  have hsplit : metadataOf rows bodyLength entries ++ back =
      (MessageKind.recordBatch.code :: LittleEndian.encode 2 metadataVersion ++
        LittleEndian.encode 8 rows) ++ (LittleEndian.encode 8 bodyLength ++
          (LittleEndian.encode 4 entries.length ++
            (entries.flatMap ColumnEntry.encode ++ back))) := by
    simp only [metadataOf, List.append_assoc, List.cons_append]
  rw [hsplit]
  exact word_append hbody rfl _

theorem word_metadataOf_columns (hcount : entries.length < wordBound) :
    word (metadataOf rows bodyLength entries ++ back) 19 4 = entries.length := by
  have hsplit : metadataOf rows bodyLength entries ++ back =
      (MessageKind.recordBatch.code :: LittleEndian.encode 2 metadataVersion ++
        LittleEndian.encode 8 rows ++ LittleEndian.encode 8 bodyLength) ++
          (LittleEndian.encode 4 entries.length ++
            (entries.flatMap ColumnEntry.encode ++ back)) := by
    simp only [metadataOf, List.append_assoc, List.cons_append]
  rw [hsplit]
  exact word_append hcount rfl _

theorem head?_metadataOf : (metadataOf rows bodyLength entries ++ back).head? =
    some MessageKind.recordBatch.code :=
  rfl

end

namespace IsEncodedBy

variable {batch : RecordBatch} {message : Message}

theorem body_lt (h : batch.IsEncodedBy message) : message.body.size < Size.bound := by
  have hmax := h.1
  simp only [Allocator.maxSize, Size.bound] at hmax ⊢
  omega

theorem declaredBody_eq (h : batch.IsEncodedBy message) (back : List UInt8) :
    declaredBody (message.metadata.toList ++ back) = message.body.size := by
  obtain ⟨entries, -, hmetadata, -⟩ := h.2
  rw [hmetadata, declaredBody, if_pos (head?_metadataOf back)]
  exact word_metadataOf_body back h.body_lt

/-- An encoded batch is read back, whatever follows its metadata, by any schema that knows the
widths of its columns. -/
theorem readBatch?_eq (h : batch.IsEncodedBy message) (hbatch : batch.WellFormed) {schema : Schema}
    (hwidths : List.Forall₂ (fun field column => field.dtype.byteWidth = column.width)
      schema.fields batch.columns) (back : List UInt8) :
    ∃ reading, readBatch? schema ⟨message.metadata.toList ++ back, message.body.toList⟩ =
        some reading ∧ reading.Shows batch := by
  have hbody := h.body_lt
  obtain ⟨entries, hcount, hmetadata, hentries⟩ := h.2
  have hfields : entries.length = schema.length := hentries.length_eq.trans hwidths.length_eq.symm
  have hsplit : metadataOf batch.rows message.body.size entries ++ back =
      (MessageKind.recordBatch.code :: LittleEndian.encode 2 metadataVersion ++
        LittleEndian.encode 8 batch.rows ++ LittleEndian.encode 8 message.body.size ++
        LittleEndian.encode 4 entries.length) ++
          (entries.flatMap ColumnEntry.encode ++ back) := by
    simp only [metadataOf, List.append_assoc]
  have hfront : (MessageKind.recordBatch.code :: LittleEndian.encode 2 metadataVersion ++
      LittleEndian.encode 8 batch.rows ++ LittleEndian.encode 8 message.body.size ++
      LittleEndian.encode 4 entries.length).length = 23 := rfl
  obtain ⟨readings, hreadings, hshow⟩ := readColumns?_eq hbody hbatch.column hbatch.length_eq
    hwidths hentries hfront back
  refine ⟨⟨batch.rows, readings⟩, ?_, rfl, hshow⟩
  have hkind : (metadataOf batch.rows message.body.size entries ++ back).head? =
      some MessageKind.recordBatch.code ∧
        word (metadataOf batch.rows message.body.size entries ++ back) 19 4 = schema.length :=
    ⟨head?_metadataOf back, (word_metadataOf_columns back hcount).trans hfields⟩
  simp only [readBatch?, hmetadata, word_metadataOf_rows back hbatch.rows_lt, if_pos hkind]
  rw [hsplit, Array.toArray_toList, hreadings]
  rfl

end IsEncodedBy

end RecordBatch

end Columnar
