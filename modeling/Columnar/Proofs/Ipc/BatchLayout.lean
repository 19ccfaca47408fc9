import Columnar.Proofs.Ipc.BodySize
import Columnar.Proofs.Ipc.Placement

/-! # The layout of a record batch -/

namespace Columnar

namespace Ipc

/-- The first extent lies at `start`, each other one where the padding of the one before it ends,
and the padding of the last one ends at `stop`. -/
def Extent.InRow (alignment : Nat) : (start : Nat) → (extents : List Extent) → (stop : Nat) → Prop
  | start, [], stop => start = stop
  | start, extent :: rest, stop =>
    extent.offset = start ∧
      InRow alignment (start + Alignment.roundUp extent.length alignment) rest stop

theorem Extent.InRow.append {alignment start middle stop : Nat} {extents more : List Extent}
    (h : InRow alignment start extents middle) (hmore : InRow alignment middle more stop) :
    InRow alignment start (extents ++ more) stop := by
  induction extents generalizing start with
  | nil =>
    obtain rfl : start = middle := h
    exact hmore
  | cons extent rest ih => exact ⟨h.1, ih h.2⟩

/-- The entry leads to the validity bits and to the values of the column of so many rows, and to
nothing else. -/
structure ColumnEntry.Locates (entry : ColumnEntry) (rows : Nat) (column : Column) (body : Bytes) :
    Prop where
  nullCount_eq : column.nullCount = .ok entry.nullCount
  validity_length : entry.validity.length = (rows + 7) / 8
  values_length : entry.values.length = rows * column.width
  /-- A bit is set if its row is valid, and no bit past the last row is set. -/
  validity : ∃ bits, Body.Holds body entry.validity bits ∧
    (∀ row < rows, column.isValid row = .ok (Bits.bit bits row)) ∧
    ∀ i, rows ≤ i → Bits.bit bits i = false
  values : ∃ bytes, column.valueBytes = .ok bytes ∧ Body.Holds body entry.values bytes

theorem ColumnEntry.Locates.of_extends {entry : ColumnEntry} {rows : Nat} {column : Column}
    {before after : Body} (h : entry.Locates rows column before.bytes)
    (hafter : after.Extends before) : entry.Locates rows column after.bytes := by
  obtain ⟨bits, hbits, hvalid, hpast⟩ := h.validity
  obtain ⟨bytes, hbytes, hvalues⟩ := h.values
  exact
    { nullCount_eq := h.nullCount_eq
      validity_length := h.validity_length
      values_length := h.values_length
      validity := ⟨bits, hbits.of_extends hafter, hvalid, hpast⟩
      values := ⟨bytes, hbytes, hvalues.of_extends hafter⟩ }

namespace Body

variable {alignment rows : Nat} {body after : Body} {column : Column} {entry : ColumnEntry}

theorem append_inRow {buffer : Bytes} {extent : Extent}
    (hbuffer : buffer.size < Allocator.standardLimit) (halignment : IsPowerOfTwo alignment)
    (hbound : alignment < Size.bound) (hbody : body.IsTight)
    (h : body.append alignment buffer = .ok (extent, after)) :
    Extent.InRow alignment body.bytes.size [extent] after.bytes.size := by
  obtain ⟨other, hother, hsize⟩ := append_of_lt hbuffer halignment hbound body
  obtain ⟨rfl, rfl⟩ := Prod.mk.inj (Except.ok.inj (hother.symm.trans h))
  exact ⟨hbody, hsize.symm⟩

/-- The validity bits and the values of a column lie one behind the other. -/
theorem appendColumn_inRow (hcolumn : column.WellFormed) (halignment : IsPowerOfTwo alignment)
    (hbound : alignment < Size.bound) (hbody : body.IsTight)
    (h : body.appendColumn alignment column = .ok (entry, after)) :
    Extent.InRow alignment body.bytes.size entry.buffers after.bytes.size := by
  obtain ⟨-, middle, hvalidity, hvalues⟩ := appendColumn_cases hcolumn h
  have hmiddle := (append_eq_ok hbody hvalidity).1.1
  have hbits := append_inRow (size_sent_lt hcolumn) halignment hbound hbody hvalidity
  exact hbits.append
    (append_inRow (size_values_sent_lt hcolumn) halignment hbound hmiddle hvalues)

/-- The buffers of columns lie in a row, from the end of the body before to its end after. -/
theorem appendColumns_inRow {columns : List Column} {entries : List ColumnEntry}
    (hcolumns : ∀ column ∈ columns, column.WellFormed) (halignment : IsPowerOfTwo alignment)
    (hbound : alignment < Size.bound) (hbody : body.IsTight)
    (h : body.appendColumns alignment columns = .ok (entries, after)) :
    Extent.InRow alignment body.bytes.size (entries.flatMap ColumnEntry.buffers)
      after.bytes.size := by
  induction columns generalizing body entries with
  | nil =>
    obtain ⟨rfl, rfl⟩ := Prod.mk.inj (Except.ok.inj h)
    rfl
  | cons column rest ih =>
    obtain ⟨hcolumn, hothers⟩ := List.forall_mem_cons.mp hcolumns
    obtain ⟨⟨entry, middle⟩, hfirst, hmore⟩ := bind_eq_ok_iff.mp h
    obtain ⟨⟨others, last⟩, hrest, hdone⟩ := bind_eq_ok_iff.mp hmore
    obtain ⟨rfl, rfl⟩ := Prod.mk.inj (Except.ok.inj hdone)
    have hmiddle := (appendColumn_eq_ok hcolumn hbody hfirst).1.1
    rw [List.flatMap_cons]
    exact (appendColumn_inRow hcolumn halignment hbound hbody hfirst).append
      (ih hothers hmiddle hrest)

theorem bit_sent_past (hcolumn : column.WellFormed) {i : Nat} (hi : column.length ≤ i) :
    Bits.bit (Bits.maskTrailing
      (column.validity.bytes.extract 0 (Bits.bytesFor column.length)) column.length) i = false := by
  have hpast : Bits.bit column.validity.bytes i = false := hcolumn.bit_eq_false i hi
  rw [Bits.bit_maskTrailing, Bits.bit_extract]
  simp [hpast]

theorem appendColumn_locates (hcolumn : column.WellFormed) (hrows : column.length = rows)
    (hbody : body.IsTight) (h : body.appendColumn alignment column = .ok (entry, after)) :
    after.Extends body ∧ entry.Locates rows column after.bytes := by
  subst hrows
  obtain ⟨hnulls, -⟩ := appendColumn_cases hcolumn h
  obtain ⟨hafter, hbits, hvalues⟩ := appendColumn_holds hcolumn hbody h
  refine ⟨hafter, hnulls, hbits.length_eq.trans (size_sent hcolumn),
    hvalues.length_eq.trans (size_values_sent hcolumn), ⟨_, hbits, ?_, ?_⟩,
    ⟨_, hcolumn.valueBytes_eq_ok, hvalues⟩⟩
  · intro row hrow
    rw [hcolumn.isValid_eq_ok, bit_sent hcolumn hrow]
  · exact fun i hi => bit_sent_past hcolumn hi

end Body

end Ipc

namespace RecordBatch

open Ipc

/-- The message is laid out as the batch asks for, with these entries for its columns. -/
structure IsLaidOut (batch : RecordBatch) (alignment : Nat) (message : Message)
    (entries : List ColumnEntry) : Prop where
  metadata_eq : message.metadata.toList = metadataOf batch.rows message.body.size entries
  size_metadata : message.metadata.size = 23 + 40 * batch.columns.length
  /-- The length that is found before there is a body is the one that it has. -/
  sizeOf_eq : Body.sizeOf alignment batch.rows batch.columns = .ok message.body.size
  size_body : message.body.size = Body.exactSize alignment batch.rows batch.columns
  /-- The metadata declares the length of the body, and an entry for every column. -/
  declaredBody_eq : declaredBody message.metadata.toList = message.body.size
  readEntry_eq : ∀ j (hj : j < entries.length),
    readEntry message.metadata.toList (23 + 40 * j) = entries[j]
  /-- All buffers lie in a row, from the start of the body to its end. -/
  inRow : Extent.InRow alignment 0 (entries.flatMap ColumnEntry.buffers) message.body.size
  locates : List.Forall₂ (fun entry column => entry.Locates batch.rows column message.body) entries
    batch.columns
  zero_outside : ∀ i < message.body.size,
    (∀ extent ∈ entries.flatMap ColumnEntry.buffers,
      i < extent.offset ∨ extent.offset + extent.length ≤ i) → message.body[i]? = some 0

/-- Every entry is read back from its place in the metadata. -/
theorem readEntry_metadataOf {rows bodyLength : Nat} {entries : List ColumnEntry}
    (hentries : ∀ entry ∈ entries, ∀ number ∈ entry.numbers, number < LittleEndian.bound 8)
    {j : Nat} (hj : j < entries.length) :
    readEntry (metadataOf rows bodyLength entries) (23 + 40 * j) = entries[j] := by
  have hsplit : entries = entries.take j ++ entries[j] :: entries.drop (j + 1) := by
    rw [← List.drop_eq_getElem_cons hj, List.take_append_drop]
  have hbefore : ((entries.take j).flatMap ColumnEntry.encode).length = 40 * j := by
    rw [length_encode_entries, List.length_take_of_le (Nat.le_of_lt hj)]
  have hfront : (MessageKind.recordBatch.code :: LittleEndian.encode 2 metadataVersion ++
      LittleEndian.encode 8 rows ++ LittleEndian.encode 8 bodyLength ++
      LittleEndian.encode 4 entries.length ++
      (entries.take j).flatMap ColumnEntry.encode).length = 23 + 40 * j := by
    simp only [List.length_append, List.length_cons, LittleEndian.length_encode, hbefore]
  have hcode : entries.flatMap ColumnEntry.encode =
      (entries.take j).flatMap ColumnEntry.encode ++
        (entries[j].encode ++ (entries.drop (j + 1)).flatMap ColumnEntry.encode) := by
    rw [← List.flatMap_cons, ← List.flatMap_append, ← hsplit]
  rw [metadataOf, hcode, ← List.append_assoc]
  exact readEntry_append (hentries _ (List.getElem_mem hj)) hfront _

variable {σ : Type} {batch : RecordBatch} {alignment : Nat} {allocator : Allocator}

/-- A batch whose body can be had has a message, and the message is laid out: the lengths found
before, declared, and put into the body are one, the buffers of all columns lie in a row with their
padding between them, each holds what the column has of its rows, and all else is zero. -/
theorem encode_layout (hbatch : batch.Reachable) (hcount : batch.columns.length < wordBound)
    (halignment : IsPowerOfTwo alignment) (hbound : alignment < Size.bound)
    (hallows : allocator.Allows .body (Body.exactSize alignment batch.rows batch.columns))
    (state : σ) :
    ∃ message entries, batch.encode alignment allocator state = ⟨.ok message, state, []⟩ ∧
      batch.IsLaidOut alignment message entries := by
  have hwell := hbatch.wellFormed
  obtain ⟨message, hencode, hsize⟩ :=
    encode_of_allows hwell hcount halignment hbound hallows state
  have hlt : message.body.size < Size.bound := by
    rw [hsize]
    exact Nat.lt_of_le_of_lt hallows.le_maxSize (by decide)
  have hanswer := congrArg Outcome.answer hencode
  obtain ⟨entries, body, hbody, rfl⟩ := encode_eq_ok hanswer
  have htight : Body.empty.IsTight := rfl
  obtain ⟨-, hdescribes⟩ := Body.appendColumns_eq_ok hwell.column htight hbody
  obtain ⟨-, hlocates⟩ := Body.appendColumns_forall₂ ColumnEntry.Locates.of_extends
    (fun column hmem => Body.appendColumn_locates (hwell.column column hmem)
      (hwell.length_eq column hmem)) htight hbody
  -- no count of a column and no place in the body is too large for a word of eight bytes
  have hnumbers : ∀ entry ∈ entries, ∀ number ∈ entry.numbers,
      number < LittleEndian.bound 8 := by
    intro entry hmem
    obtain ⟨j, hj, rfl⟩ := List.getElem_of_mem hmem
    obtain ⟨hlength, hall⟩ := List.forall₂_iff_get.mp hdescribes
    exact (hall j hj (hlength ▸ hj)).numbers_lt (hwell.column _ (List.getElem_mem _)) hlt
  refine ⟨_, entries, hencode, ?_⟩
  exact
    { metadata_eq := List.toList_toArray
      size_metadata := size_metadata_of_encode hanswer
      sizeOf_eq := by
        rw [hwell.sizeOf_eq_checked halignment hbound, ← hsize, Size.checked_of_lt hlt]
      size_body := hsize
      declaredBody_eq := by
        have hdeclared : word (metadataOf batch.rows body.bytes.size entries ++ []) 11 8 =
            body.bytes.size := word_metadataOf_body [] hlt
        rw [List.append_nil] at hdeclared
        exact hdeclared
      readEntry_eq := fun j hj => readEntry_metadataOf hnumbers hj
      inRow := Body.appendColumns_inRow hwell.column halignment hbound htight hbody
      locates := hlocates
      zero_outside := ((Body.isAligned_empty alignment).appendColumns halignment htight hwell.column
        hbody).zero_outside }

/-- A batch of one field and nine rows of three bytes, of which the last one holds a value. -/
def nineRows : RecordBatch :=
  ⟨⟨[⟨"a", .fixedSizeBinary 3, true⟩]⟩,
    [((Column.Call.setGrowing 8 #[1, 2, 3]).run .standard
      (Column.empty "a" (.fixedSizeBinary 3))).state]⟩

theorem reachable_nineRows : nineRows.Reachable := by
  refine reachable_singleton ?_ (by decide)
  refine .call (.setGrowing 8 #[1, 2, 3]) Allocator.isBounded_standard (.empty "a" _) ?_
  rintro _ ⟨⟩

set_option maxRecDepth 4000 in
/-- Both buffers fall short of a multiple of the alignment. -/
theorem encode_layout_of_nine_rows :
    ∃ message entry, nineRows.encode 4 .standard () = ⟨.ok message, (), []⟩ ∧
      message.metadata.size = 63 ∧ message.body.size = 32 ∧
      readEntry message.metadata.toList 23 = entry ∧ entry.validity = ⟨0, 2⟩ ∧
      entry.values = ⟨4, 27⟩ := by
  have hrows : nineRows.rows = 9 := by cbv
  have hwidths : nineRows.columns.map Column.width = [3] := by cbv
  have hsize : Body.exactSize 4 nineRows.rows nineRows.columns = 32 := by cbv
  have hallows : Allocator.standard.Allows .body
      (Body.exactSize 4 nineRows.rows nineRows.columns) := by
    rw [hsize, Allocator.allows_standard_iff]
    decide
  obtain ⟨message, entries, hencode, h⟩ := encode_layout reachable_nineRows (by decide)
    (by decide : IsPowerOfTwo 4) (by decide) hallows ()
  obtain ⟨column, hcolumns, hwidth⟩ : ∃ column, nineRows.columns = [column] ∧ column.width = 3 :=
    ⟨_, rfl, List.singleton_inj.mp hwidths⟩
  have hlocates := h.locates
  rw [hcolumns, hrows] at hlocates
  obtain ⟨entry, rest, hentry, hrest, rfl⟩ := List.forall₂_cons_right_iff.mp hlocates
  obtain rfl := List.forall₂_nil_right_iff.mp hrest
  obtain ⟨hvalidity, hvalues, -⟩ := h.inRow
  have hbits : entry.validity = ⟨0, 2⟩ := congrArg₂ Extent.mk hvalidity hentry.validity_length
  refine ⟨message, entry, hencode, h.size_metadata, h.size_body.trans hsize,
    h.readEntry_eq 0 Nat.one_pos, hbits, ?_⟩
  rw [hbits] at hvalues
  have hlength := hentry.values_length
  rw [hwidth] at hlength
  exact congrArg₂ Extent.mk hvalues hlength

end RecordBatch

end Columnar
