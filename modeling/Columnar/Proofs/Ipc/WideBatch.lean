import Columnar.Proofs.Ipc.Alignment
import Columnar.Proofs.Ipc.Rejection
import Columnar.Proofs.Schema

/-!
# Batches too wide to be framed

A column takes forty bytes of the metadata of its batch, and a field with a short name fewer of
those of its schema. So a schema message can be framed where no message of a batch can.
-/

namespace Columnar

open Ipc

/-- The lowest binary digits of a number, as a name. -/
def binaryName (digits number : Nat) : String :=
  String.ofList ((List.range digits).map fun i => if number.testBit i then '1' else '0')

theorem utf8ByteSize_binaryName (digits number : Nat) :
    (binaryName digits number).utf8ByteSize = digits := by
  have hlength : ∀ places : List Nat,
      String.utf8Len (places.map fun i => if number.testBit i then '1' else '0') =
        places.length := by
    intro places
    induction places with
    | nil => rfl
    | cons i rest ih =>
      have hdigit : (if number.testBit i then '1' else '0').utf8Size = 1 := by
        split <;> rfl
      rw [List.map_cons, String.utf8Len_cons, ih, hdigit, List.length_cons]
  rw [binaryName, String.utf8ByteSize_ofList, hlength, List.length_range]

theorem binaryName_inj {digits number other : Nat} (hnumber : number < 2 ^ digits)
    (hother : other < 2 ^ digits) (h : binaryName digits number = binaryName digits other) :
    number = other := by
  have hdigits := String.ofList_injective h
  apply Nat.eq_of_testBit_eq
  intro i
  by_cases hi : i < digits
  · have hsame := List.map_inj_left.mp hdigits i (List.mem_range.mpr hi)
    cases hbit : number.testBit i <;> cases hother : other.testBit i <;> simp_all
  · have hpow : 2 ^ digits ≤ 2 ^ i := Nat.pow_le_pow_right (by decide) (Nat.le_of_not_lt hi)
    rw [Nat.testBit_lt_two_pow (Nat.lt_of_lt_of_le hnumber hpow),
      Nat.testBit_lt_two_pow (Nat.lt_of_lt_of_le hother hpow)]

namespace Schema

/-- So many nullable fields of bytes. -/
def ofWidth (width : Nat) : Schema :=
  ⟨(List.range width).map fun i => ⟨binaryName 27 i, .int8, true⟩⟩

theorem length_ofWidth (width : Nat) : (ofWidth width).length = width := by
  simp [ofWidth, length]

theorem create_ofWidth {width : Nat} (hwidth : width ≤ 2 ^ 27) :
    create (ofWidth width).fields = .ok (ofWidth width) := by
  refine create_eq_ok_iff.mpr ⟨⟨?_, ?_, ?_⟩, rfl⟩
  · intro field hmem hempty
    obtain ⟨i, -, rfl⟩ := List.mem_map.mp hmem
    have hsize := utf8ByteSize_binaryName 27 i
    rw [show binaryName 27 i = "" from hempty] at hsize
    cases hsize
  · rw [ofWidth, List.map_map]
    refine List.Nodup.map_on ?_ List.nodup_range
    intro i hi j hj hsame
    rw [List.mem_range] at hi hj
    exact binaryName_inj (by omega) (by omega) hsame
  · intro field hmem precision scale hdecimal
    obtain ⟨i, -, rfl⟩ := List.mem_map.mp hmem
    cases hdecimal

/-- Fields whose codes have one length have together so many times that length. -/
theorem exists_encodeFields {fields : List Field} {size : Nat}
    (h : ∀ field ∈ fields, ∃ bytes, field.encode = .ok bytes ∧ bytes.length = size) :
    ∃ bytes, encodeFields fields = .ok bytes ∧ bytes.length = size * fields.length := by
  induction fields with
  | nil => exact ⟨[], rfl, rfl⟩
  | cons field rest ih =>
    obtain ⟨⟨first, hfirst, hsize⟩, hrest⟩ := List.forall_mem_cons.mp h
    obtain ⟨more, hmore, hlength⟩ := ih hrest
    refine ⟨first ++ more, ?_, ?_⟩
    · rw [encodeFields, hfirst, ok_bind, hmore]
      rfl
    · rw [List.length_append, hsize, hlength, List.length_cons, Nat.mul_succ, Nat.add_comm]

theorem encode_ofWidth {width : Nat} (hwidth : width < wordBound) :
    ∃ metadata, (ofWidth width).encode = .ok metadata ∧ metadata.length = 7 + 33 * width := by
  have hfield : ∀ field ∈ (ofWidth width).fields,
      ∃ bytes, field.encode = .ok bytes ∧ bytes.length = 33 := by
    intro field hmem
    obtain ⟨i, -, rfl⟩ := List.mem_map.mp hmem
    have hname : (binaryName 27 i).toUTF8.data.toList.length = 27 :=
      (Array.length_toList).trans (utf8ByteSize_binaryName 27 i)
    have hcount : encodeCount .fieldNameLength (binaryName 27 i).utf8ByteSize =
        .ok (LittleEndian.encode 4 27) := by
      rw [utf8ByteSize_binaryName]
      rfl
    refine ⟨_, by rw [Field.encode, hcount]; rfl, ?_⟩
    simp only [List.length_append, LittleEndian.length_encode, hname, List.length_singleton]
  obtain ⟨fields, hfields, hlength⟩ := exists_encodeFields hfield
  have hcount : encodeCount .fields (ofWidth width).length =
      .ok (LittleEndian.encode 4 width) := by
    rw [length_ofWidth, encodeCount, if_pos hwidth]
    rfl
  refine ⟨_, by rw [encode, hcount, ok_bind, hfields]; rfl, ?_⟩
  have hwide : (ofWidth width).fields.length = width := length_ofWidth width
  simp only [List.length_append, List.length_cons, LittleEndian.length_encode, hlength, hwide]

end Schema

namespace Ipc.Body

/-- Columns without rows take nothing of a body. -/
theorem sizeFrom_replicate (name : String) (width : Nat) :
    sizeFrom 1 0 0 (List.replicate width (Column.empty name .int8)) = .ok 0 := by
  induction width with
  | zero => rfl
  | succ width ih =>
    have hcolumn : columnSize 1 0 (Column.empty name .int8) = .ok 0 := by cbv
    rw [List.replicate_succ, sizeFrom, hcolumn, ok_bind]
    exact ih

theorem appendColumns_replicate (name : String) (width : Nat) :
    appendColumns 1 empty (List.replicate width (Column.empty name .int8)) =
      .ok (List.replicate width ⟨0, ⟨0, 0⟩, ⟨0, 0⟩⟩, empty) := by
  induction width with
  | zero => rfl
  | succ width ih =>
    have hcolumn : appendColumn 1 empty (Column.empty name .int8) =
        .ok (⟨0, ⟨0, 0⟩, ⟨0, 0⟩⟩, empty) := by cbv
    rw [List.replicate_succ, appendColumns, hcolumn, ok_bind]
    simp only [ih, ok_bind]
    rfl

end Ipc.Body

namespace RecordBatch

/-- A batch without rows under the schema of so many fields. -/
def ofWidth (width : Nat) : RecordBatch :=
  ⟨Schema.ofWidth width, List.replicate width (Column.empty "a" .int8)⟩

theorem checkColumns_eq_ok_of_forall {rows : Nat} {fields : List Field} {columns : List Column}
    (h : ∀ pair ∈ fields.zip columns, checkColumn rows pair.1 pair.2 = .ok ()) :
    checkColumns rows fields columns = .ok () := by
  induction fields generalizing columns with
  | nil => rfl
  | cons field fields ih =>
    cases columns with
    | nil => rfl
    | cons column columns =>
      rw [List.zip_cons_cons, List.forall_mem_cons] at h
      rw [checkColumns, h.1, ok_bind]
      exact ih h.2

theorem rows_ofWidth (width : Nat) : (ofWidth width).rows = 0 := by
  cases width <;> rfl

theorem reachable_ofWidth (width : Nat) : (ofWidth width).Reachable := by
  refine ⟨Schema.ofWidth width, List.replicate width (Column.empty "a" .int8), ?_, ?_⟩
  · have hcommon : commonLength (List.replicate width (Column.empty "a" .int8)) = 0 :=
      rows_ofWidth width
    have hchecked : checkColumns 0 (Schema.ofWidth width).fields
        (List.replicate width (Column.empty "a" .int8)) = .ok () := by
      apply checkColumns_eq_ok_of_forall
      rintro ⟨field, column⟩ hmem
      obtain ⟨hfield, hcolumn⟩ := List.of_mem_zip hmem
      obtain ⟨i, -, rfl⟩ := List.mem_map.mp hfield
      obtain rfl := List.eq_of_mem_replicate hcolumn
      rfl
    rw [create, if_pos (by rw [List.length_replicate, Schema.length_ofWidth]), hcommon, hchecked]
    rfl
  · intro column hmem
    obtain rfl := List.eq_of_mem_replicate hmem
    exact .empty "a" .int8

theorem encode_ofWidth {width : Nat} (hwidth : width < wordBound) :
    ∃ message, ((ofWidth width).encode 1 .standard ()).answer = .ok message ∧
      message.metadata.size = 23 + 40 * width := by
  have hsize : Body.sizeOf 1 (ofWidth width).rows (ofWidth width).columns = .ok 0 := by
    rw [rows_ofWidth]
    exact Body.sizeFrom_replicate "a" width
  have hcolumns : Body.empty.appendColumns 1 (ofWidth width).columns = _ :=
    Body.appendColumns_replicate "a" width
  have hmetadata : encodeMetadata (ofWidth width).rows 0
      (List.replicate width ⟨0, ⟨0, 0⟩, ⟨0, 0⟩⟩) =
        .ok (metadataOf (ofWidth width).rows 0 (List.replicate width ⟨0, ⟨0, 0⟩, ⟨0, 0⟩⟩)) := by
    apply encodeMetadata_of_lt
    rwa [List.length_replicate]
  have hempty : Body.empty.bytes.size = 0 := rfl
  have hencode : ((ofWidth width).encode 1 .standard ()).answer = .ok
      ⟨(metadataOf (ofWidth width).rows 0
        (List.replicate width ⟨0, ⟨0, 0⟩, ⟨0, 0⟩⟩)).toArray, #[]⟩ := by
    rw [encode, hsize, Action.liftM_ok_bind, Action.bind_of_ok rfl, hcolumns, Action.liftM_ok_bind]
    simp only [if_pos hempty]
    rw [hmetadata]
    rfl
  refine ⟨_, hencode, ?_⟩
  rw [size_metadata_of_encode hencode]
  exact congrArg (23 + 40 * ·) List.length_replicate

end RecordBatch

namespace Ipc.Writer

theorem padding_one {length : Nat} (h : length < wordBound) :
    Alignment.padding length 1 = .ok 0 := by
  have hbound : wordBound + 1 < Size.bound := by decide
  have hone : IsPowerOfTwo 1 := rfl
  rw [Alignment.padding_of_lt hone (by omega), Alignment.roundUp]
  simp

/-- A writer of the schema of so many fields can be opened as long as the schema message can be
framed. -/
theorem exists_create_ofWidth {width : Nat} (hwidth : 11 + 33 * width < wordBound) :
    ∃ writer : Writer MemorySink,
      (create .stream (Schema.ofWidth width) 1 .standard MemorySink.empty).answer = .ok writer ∧
      writer.session.phase = .writable ∧ writer.session.schema = Schema.ofWidth width ∧
      writer.session.alignment = 1 := by
  obtain ⟨metadata, hmetadata, hlength⟩ := Schema.encode_ofWidth (by omega : width < wordBound)
  have hsize : metadata.toArray.size + Message.wordSize = 11 + 33 * width := by
    rw [List.size_toArray, hlength, Message.wordSize]
    omega
  have hpadding : Message.padding? ⟨metadata.toArray, #[]⟩ 1 = .ok 0 := by
    apply Message.padding?_of_lt
    · rw [hsize]
      exact padding_one hwidth
    · rw [List.size_toArray, hlength]
      omega
    · rw [hsize]
      exact hwidth
  have hcheck : Alignment.check 1 = .ok () := rfl
  -- no padding is needed at an alignment of one
  have hopening : Session.opening (Schema.ofWidth width) 1 =
      .framed ⟨metadata.toArray, #[]⟩ 0 := by
    rw [Session.opening, hcheck, hmetadata]
    simp only [hpadding]
  have hcreate := answer_create .stream (Schema.ofWidth width) 1 .standard MemorySink.empty
  obtain ⟨hnone, -⟩ := MemorySink.reliable.offerAll_eq MemorySink.isUnbounded_empty
    ((Session.opening (Schema.ofWidth width) 1).parts (header .stream))
  rcases hoffer : Sink.offerAll ((Session.opening (Schema.ofWidth width) 1).parts (header .stream))
    MemorySink.empty with ⟨_ | error, after⟩
  · rw [hoffer, hopening] at hcreate
    refine ⟨_, hcreate, ?_⟩
    rw [session_ofSession]
    exact ⟨rfl, rfl, rfl⟩
  · rw [hoffer] at hnone
    cases hnone

/-- A batch of the schema makes the session of such a writer fail if its message cannot be
framed. -/
theorem plan_ofWidth {σ : Type} {width : Nat} {writer : Writer σ}
    (hphase : writer.session.phase = .writable)
    (hschema : writer.session.schema = Schema.ofWidth width)
    (halignment : writer.session.alignment = 1) (hfits : width < wordBound)
    (hwidth : wordBound ≤ 27 + 40 * width) :
    writer.plan (.write (RecordBatch.ofWidth width)) .standard =
      .unframed (.raised (.metadataTooLong (23 + 40 * width))) := by
  obtain ⟨message, hmessage, hsize⟩ := RecordBatch.encode_ofWidth hfits
  have hlayout : (Schema.ofWidth width).ensureSameLayout (RecordBatch.ofWidth width).schema =
      .ok () := by
    refine Schema.ensureSameLayout_eq_ok_iff.mpr ⟨rfl, ?_⟩
    rintro ⟨field, other⟩ hmem
    obtain ⟨hfield, hother⟩ := List.of_mem_zip hmem
    obtain ⟨i, -, rfl⟩ := List.mem_map.mp hfield
    obtain ⟨j, -, rfl⟩ := List.mem_map.mp hother
    rfl
  have hnulls : Session.ensureNoNulls (Schema.ofWidth width).fields
      (RecordBatch.ofWidth width).columns = .ok () := by
    refine (Session.ensureNoNulls_eq_ok_iff
      (RecordBatch.reachable_ofWidth width).wellFormed.column).mpr ?_
    rintro ⟨field, column⟩ hmem
    obtain ⟨i, -, rfl⟩ := List.mem_map.mp (List.of_mem_zip hmem).1
    exact .inl rfl
  have hprepare : writer.session.prepare (RecordBatch.ofWidth width) .standard = .ok message := by
    rw [Session.prepare, Session.ensureWritable, hphase, hschema, hlayout, hnulls, halignment,
      hmessage]
    rfl
  have hframed : Message.framedSize message.metadata.size 1 =
      raise (.metadataTooLong (23 + 40 * width)) := by
    rw [Message.framedSize, hsize, if_neg (by rw [Message.wordSize]; omega)]
    rfl
  have hpadding : message.padding? 1 =
      .error (.error (.raised (.metadataTooLong (23 + 40 * width)))) := by
    rw [Message.padding?, hframed]
    rfl
  simp only [plan, hprepare, halignment, hpadding]

end Ipc.Writer

end Columnar
