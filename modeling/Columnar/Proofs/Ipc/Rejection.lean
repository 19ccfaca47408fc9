import Columnar.Proofs.Ipc.BatchEncoding
import Columnar.Proofs.Ipc.Writer
import Mathlib

/-!
# Batches that are rejected

A batch that does not fit the schema of the writer leaves no trace. Whether it fits is a matter of
physical types and nulls, and not of names, logical types or what its own schema allows.
-/

namespace Columnar

open Ipc

/-- The failure is an error that says that schemas or columns do not match. -/
def Failure.IsMismatch (failure : Failure) : Prop :=
  ∃ error, failure = .error error ∧ error.kind = .caused .schemaMismatch

/-! ## Batches that do not fit a schema -/

namespace Schema

theorem ensureSameTypes_cons (position : Nat) (field other : Field) (fields others : List Field) :
    ensureSameTypes position (field :: fields) (other :: others) =
      if field.dtype.physical = other.dtype.physical then
        ensureSameTypes (position + 1) fields others
      else raise (.fieldLayout position field.name field.dtype other.dtype) :=
  rfl

theorem ensureSameTypes_eq_ok_iff {position : Nat} {fields others : List Field} :
    ensureSameTypes position fields others = .ok () ↔
      ∀ pair ∈ fields.zip others, pair.1.dtype.physical = pair.2.dtype.physical := by
  induction fields generalizing position others with
  | nil =>
    rw [List.zip_nil_left]
    exact ⟨fun _ => List.forall_mem_nil _, fun _ => by cases others <;> rfl⟩
  | cons field fields ih =>
    cases others with
    | nil => exact ⟨fun _ => List.forall_mem_nil _, fun _ => rfl⟩
    | cons other others =>
      rw [ensureSameTypes_cons, List.zip_cons_cons, List.forall_mem_cons]
      by_cases hsame : field.dtype.physical = other.dtype.physical
      · rw [if_pos hsame, ih]
        exact (and_iff_right hsame).symm
      · rw [if_neg hsame]
        exact ⟨(nomatch ·), fun h => absurd h.1 hsame⟩

theorem ensureSameTypes_isMismatch (position : Nat) (fields others : List Field) :
    (ensureSameTypes position fields others).FailsWith Failure.IsMismatch := by
  induction fields generalizing position others with
  | nil => cases others <;> exact Result.failsWith_ok _
  | cons field fields ih =>
    cases others with
    | nil => exact Result.failsWith_ok _
    | cons other others =>
      rw [ensureSameTypes_cons]
      split
      · exact ih _ _
      · exact Result.failsWith_raise ⟨_, rfl, rfl⟩

theorem ensureSameLayout_eq (schema other : Schema) :
    schema.ensureSameLayout other =
      if schema.length = other.length then ensureSameTypes 0 schema.fields other.fields
      else raise (.fieldCount schema.length other.length) :=
  rfl

theorem ensureSameLayout_eq_ok_iff {schema other : Schema} :
    schema.ensureSameLayout other = .ok () ↔ schema.length = other.length ∧
      ∀ pair ∈ schema.fields.zip other.fields,
        pair.1.dtype.physical = pair.2.dtype.physical := by
  rw [ensureSameLayout_eq, ← ensureSameTypes_eq_ok_iff]
  by_cases hlength : schema.length = other.length
  · rw [if_pos hlength]
    exact (and_iff_right hlength).symm
  · rw [if_neg hlength]
    exact ⟨(nomatch ·), fun h => absurd h.1 hlength⟩

theorem ensureSameLayout_isMismatch (schema other : Schema) :
    (schema.ensureSameLayout other).FailsWith Failure.IsMismatch := by
  rw [ensureSameLayout_eq]
  split
  · exact ensureSameTypes_isMismatch _ _ _
  · exact Result.failsWith_raise ⟨_, rfl, rfl⟩

end Schema

namespace Ipc.Session

theorem ensureNoNulls_cons (field : Field) (column : Column) (fields : List Field)
    (columns : List Column) :
    ensureNoNulls (field :: fields) (column :: columns) =
      if field.nullable then ensureNoNulls fields columns
      else column.nullCount >>= fun nulls =>
        if nulls = 0 then ensureNoNulls fields columns
        else raise (.nullsInColumn field.name nulls) :=
  rfl

theorem ensureNoNulls_eq_ok_iff {fields : List Field} {columns : List Column}
    (hcolumns : ∀ column ∈ columns, column.WellFormed) :
    ensureNoNulls fields columns = .ok () ↔
      ∀ pair ∈ fields.zip columns, pair.1.nullable = true ∨ none ∉ pair.2.contents := by
  induction fields generalizing columns with
  | nil =>
    rw [List.zip_nil_left]
    exact ⟨fun _ => List.forall_mem_nil _, fun _ => by cases columns <;> rfl⟩
  | cons field fields ih =>
    cases columns with
    | nil => exact ⟨fun _ => List.forall_mem_nil _, fun _ => rfl⟩
    | cons column columns =>
      obtain ⟨hcolumn, hrest⟩ := List.forall_mem_cons.mp hcolumns
      have hnulls : column.contents.countP Option.isNone = 0 ↔ none ∉ column.contents := by
        rw [List.countP_eq_zero]
        constructor
        · intro hall hmem
          exact hall none hmem rfl
        · rintro hnot (_ | bytes) hmem
          · exact absurd hmem hnot
          · exact Bool.false_ne_true
      rw [ensureNoNulls_cons, hcolumn.nullCount_eq_ok, ok_bind, List.zip_cons_cons,
        List.forall_mem_cons]
      by_cases hnullable : field.nullable = true
      · rw [if_pos hnullable, ih hrest]
        exact (and_iff_right (.inl hnullable)).symm
      · rw [if_neg hnullable]
        by_cases hnone : column.contents.countP Option.isNone = 0
        · rw [if_pos hnone, ih hrest]
          exact (and_iff_right (.inr (hnulls.mp hnone))).symm
        · rw [if_neg hnone]
          refine ⟨(nomatch ·), fun h => ?_⟩
          exact (h.1.elim hnullable fun hnot => hnone (hnulls.mpr hnot)).elim

theorem ensureNoNulls_isMismatch {fields : List Field} {columns : List Column}
    (hcolumns : ∀ column ∈ columns, column.WellFormed) :
    (ensureNoNulls fields columns).FailsWith Failure.IsMismatch := by
  induction fields generalizing columns with
  | nil => cases columns <;> exact Result.failsWith_ok _
  | cons field fields ih =>
    cases columns with
    | nil => exact Result.failsWith_ok _
    | cons column columns =>
      obtain ⟨hcolumn, hrest⟩ := List.forall_mem_cons.mp hcolumns
      rw [ensureNoNulls_cons, hcolumn.nullCount_eq_ok, ok_bind]
      split
      · exact ih hrest
      · split
        · exact ih hrest
        · exact Result.failsWith_raise ⟨_, rfl, rfl⟩

end Ipc.Session

/-- The batch has another number of fields than the schema, or a field of another physical
type, or nulls in a column that the schema allows none for. -/
def RecordBatch.Misfits (schema : Schema) (batch : RecordBatch) : Prop :=
  schema.length ≠ batch.schema.length ∨
    (∃ pair ∈ schema.fields.zip batch.schema.fields,
      pair.1.dtype.physical ≠ pair.2.dtype.physical) ∨
    ∃ pair ∈ schema.fields.zip batch.columns, pair.1.nullable = false ∧ none ∈ pair.2.contents

theorem RecordBatch.not_misfits_iff {schema : Schema} {batch : RecordBatch}
    (hbatch : batch.WellFormed) :
    ¬ batch.Misfits schema ↔ schema.ensureSameLayout batch.schema = .ok () ∧
      Session.ensureNoNulls schema.fields batch.columns = .ok () := by
  rw [Misfits, Schema.ensureSameLayout_eq_ok_iff, Session.ensureNoNulls_eq_ok_iff hbatch.column]
  simp only [not_or, not_exists, not_and, Decidable.not_not, and_assoc]
  refine and_congr_right fun _ => and_congr_right fun _ => forall_congr' fun pair => ?_
  refine imp_congr_right fun _ => ?_
  cases pair.1.nullable <;> simp

/-! ## Encoding without mismatches -/

/-- A result that can fail, but not for a mismatch. -/
abbrev Result.IsNeutral {α : Type} (result : Result α) : Prop :=
  result.FailsWith fun failure => ¬ failure.IsMismatch

namespace Result

theorem isNeutral_breach {α : Type} (reason : Breach) :
    (breach reason : Result α).IsNeutral :=
  failsWith_breach fun ⟨_, h, _⟩ => nomatch h

theorem isNeutral_raise {α : Type} {cause : Cause} (h : cause.kind ≠ .schemaMismatch) :
    (raise cause : Result α).IsNeutral := by
  refine failsWith_raise ?_
  rintro ⟨error, herror, hkind⟩
  obtain rfl := Failure.error.inj herror
  exact h (ErrorKind.caused.inj hkind)

end Result

theorem Size.isNeutral_checked (size : Nat) : (Size.checked size).IsNeutral := by
  rw [Size.checked]
  split
  · exact Result.failsWith_ok _
  · exact Result.isNeutral_breach _

theorem Size.isNeutral_add (a b : Nat) : (Size.add a b).IsNeutral :=
  isNeutral_checked (a + b)

theorem Size.isNeutral_mul (a b : Nat) : (Size.mul a b).IsNeutral :=
  isNeutral_checked (a * b)

theorem Size.isNeutral_sub (a b : Nat) : (Size.sub a b).IsNeutral := by
  rw [Size.sub]
  split
  · exact Result.failsWith_ok _
  · exact Result.isNeutral_breach _

namespace Ipc

theorem Alignment.isNeutral_padding (length alignment : Nat) :
    (Alignment.padding length alignment).IsNeutral :=
  (Size.isNeutral_add _ _).bind fun _ => Size.isNeutral_sub _ _

namespace Body

variable {alignment : Nat}

theorem isNeutral_sizeFrom (rows size : Nat) (columns : List Column) :
    (sizeFrom alignment rows size columns).IsNeutral := by
  induction columns generalizing size with
  | nil => exact Result.failsWith_ok _
  | cons column rest ih =>
    have hcolumn : (columnSize alignment rows column).IsNeutral :=
      (Size.isNeutral_mul _ _).bind fun _ =>
        ((Alignment.isNeutral_padding _ _).bind fun _ => Size.isNeutral_add _ _).bind fun _ =>
          (Size.isNeutral_add _ _).bind fun _ =>
            (Alignment.isNeutral_padding _ _).bind fun _ => Size.isNeutral_add _ _
    exact hcolumn.bind fun _ => (Size.isNeutral_add _ _).bind fun _ => ih _

theorem isNeutral_append (body : Body) (buffer : Bytes) :
    (body.append alignment buffer).IsNeutral :=
  (Alignment.isNeutral_padding _ _).bind fun _ => Result.failsWith_ok _

theorem isNeutral_appendColumns {columns : List Column}
    (hcolumns : ∀ column ∈ columns, column.WellFormed) (body : Body) :
    (body.appendColumns alignment columns).IsNeutral := by
  induction columns generalizing body with
  | nil => exact Result.failsWith_ok _
  | cons column rest ih =>
    obtain ⟨hcolumn, hrest⟩ := List.forall_mem_cons.mp hcolumns
    have hfirst : (body.appendColumn alignment column).IsNeutral := by
      rw [appendColumn, hcolumn.nullCount_eq_ok, ok_bind, hcolumn.bits_eq_ok, ok_bind]
      refine (isNeutral_append _ _).bind fun _ => ?_
      rw [hcolumn.valueBytes_eq_ok]
      exact (isNeutral_append _ _).bind fun _ => Result.failsWith_ok _
    exact hfirst.bind fun _ => (ih hrest _).bind fun _ => Result.failsWith_ok _

end Body

end Ipc

/-- A batch that cannot be encoded is not at odds with a schema for that. -/
theorem RecordBatch.isNeutral_encode {batch : RecordBatch} (hbatch : batch.WellFormed)
    (alignment : Nat) (allocator : Allocator) :
    (batch.encode alignment allocator ()).answer.IsNeutral := by
  have hreserve : ∀ size, (Action.reserve .body 0 size allocator ()).answer.IsNeutral := by
    intro size
    simp only [Action.reserve]
    split
    · exact Result.failsWith_ok _
    · split
      · exact Result.isNeutral_raise (by rintro ⟨⟩)
      · split
        · exact Result.failsWith_ok _
        · exact Result.isNeutral_raise (by rintro ⟨⟩)
  refine Action.failsWith_bind (Body.isNeutral_sizeFrom _ _ _) fun size _ => ?_
  refine Action.failsWith_bind (hreserve size) fun _ _ => ?_
  refine Action.failsWith_bind (Body.isNeutral_appendColumns hbatch.column _) fun made _ => ?_
  by_cases hagree : made.2.bytes.size = size
  · simp only [if_pos hagree]
    refine Action.failsWith_bind ?_ fun _ _ => Result.failsWith_ok _
    refine Result.FailsWith.bind ?_ fun _ => Result.failsWith_ok _
    rw [encodeCount]
    split
    · exact Result.failsWith_ok _
    · exact Result.isNeutral_raise (by rintro ⟨⟩)
  · simp only [if_neg hagree]
    exact Result.isNeutral_breach _

/-! ## Batches that are rejected -/

namespace Ipc.Writer

variable {σ : Type} [Sink σ] {writer : Writer σ}

/-- The answer is an error that says that schemas or columns do not match. -/
def answersMismatch (answer : Result Unit) : Prop :=
  ∃ failure, answer = .error failure ∧ failure.IsMismatch

/-- Only a call that is refused answers a mismatch. -/
theorem answersMismatch_act_iff (call : Call) (allocator : Allocator) (writer : Writer σ) :
    answersMismatch (act call allocator writer).answer ↔
      ∃ failure, writer.plan call allocator = .refused failure ∧ failure.IsMismatch := by
  have hbreak : ∀ sink error,
      ¬ answersMismatch (writer.breakAt call.step sink error).answer := by
    rintro sink error ⟨failure, hanswer, other, rfl, hkind⟩
    rw [answer_breakAt] at hanswer
    cases hanswer
    cases hkind
  cases hplan : writer.plan call allocator with
  | refused failure =>
    rw [act_of_refused hplan]
    constructor
    · rintro ⟨_, ⟨⟩, hmismatch⟩
      exact ⟨failure, rfl, hmismatch⟩
    · rintro ⟨_, ⟨⟩, hmismatch⟩
      exact ⟨failure, rfl, hmismatch⟩
  | unframed error =>
    rw [act_of_unframed hplan]
    exact ⟨fun h => absurd h (hbreak _ _), fun ⟨_, h, _⟩ => nomatch h⟩
  | sent payload =>
    refine ⟨fun h => ?_, fun ⟨_, h, _⟩ => nomatch h⟩
    rcases hdeliver : payload.deliver writer.session.sink with ⟨_ | error, sink⟩
    · rw [act_of_sent hplan hdeliver] at h
      obtain ⟨failure, hanswer, -⟩ := h
      cases hanswer
    · rw [act_of_failed hplan hdeliver] at h
      exact absurd h (hbreak _ _)

/-- A batch of well-formed columns is rejected exactly if it does not fit the schema. -/
theorem act_mismatch_iff (hphase : writer.session.phase = .writable) {batch : RecordBatch}
    (hbatch : batch.WellFormed) (allocator : Allocator) :
    answersMismatch (act (.write batch) allocator writer).answer ↔
      batch.Misfits writer.session.schema := by
  rw [answersMismatch_act_iff, plan, Session.prepare,
    Session.ensureWritable_of_eq hphase, ok_bind]
  have hfits : ¬ batch.Misfits writer.session.schema ↔ _ := RecordBatch.not_misfits_iff hbatch
  cases hlayout : writer.session.schema.ensureSameLayout batch.schema with
  | error failure =>
    have hmismatch := Schema.ensureSameLayout_isMismatch _ _ failure hlayout
    rw [hlayout] at hfits
    refine ⟨fun _ => ?_, fun _ => ⟨failure, rfl, hmismatch⟩⟩
    exact Classical.byContradiction fun hnot => by cases (hfits.mp hnot).1
  | ok _ =>
    rw [ok_bind]
    cases hnulls : Session.ensureNoNulls writer.session.schema.fields batch.columns with
    | error failure =>
      have hmismatch := Session.ensureNoNulls_isMismatch hbatch.column failure hnulls
      rw [hnulls] at hfits
      refine ⟨fun _ => ?_, fun _ => ⟨failure, rfl, hmismatch⟩⟩
      exact Classical.byContradiction fun hnot => by cases (hfits.mp hnot).2
    | ok _ =>
      -- what can still keep a batch that fits from being sent is no mismatch
      have hnot : ¬ batch.Misfits writer.session.schema := hfits.mpr ⟨hlayout, hnulls⟩
      refine ⟨fun h => ?_, fun h => absurd h hnot⟩
      obtain ⟨failure, hplan, hmismatch⟩ := h
      have hneutral := RecordBatch.isNeutral_encode hbatch writer.session.alignment allocator
      rw [ok_bind] at hplan
      cases hmessage : (batch.encode writer.session.alignment allocator ()).answer with
      | error other =>
        rw [hmessage] at hplan
        obtain rfl := Plan.refused.inj hplan
        exact absurd hmismatch (hneutral _ hmessage)
      | ok message =>
        simp only [hmessage] at hplan
        cases hpadding : message.padding? writer.session.alignment with
        | ok padding =>
          rw [hpadding] at hplan
          cases hplan
        | error other =>
          rw [hpadding] at hplan
          cases other with
          | error error => cases hplan
          | breach reason =>
            obtain rfl := Plan.refused.inj hplan
            obtain ⟨error, herror, -⟩ := hmismatch
            cases herror

end Ipc.Writer

/-! ## Labels -/

/-- The columns differ in nothing that is sent: not in the width and number of their slots, nor
in the two buffers. -/
structure Column.SameData (column other : Column) : Prop where
  width_eq : other.width = column.width
  length_eq : other.length = column.length
  validity_eq : other.validity = column.validity
  values_eq : other.values = column.values

/-- The batches have the same data and the same physical types. Names, logical types and what may
be null can be different. -/
structure RecordBatch.Relabels (batch other : RecordBatch) : Prop where
  fields : List.Forall₂ (fun field other => field.dtype.physical = other.dtype.physical)
    batch.schema.fields other.schema.fields
  columns : List.Forall₂ Column.SameData batch.columns other.columns

namespace Column.SameData

variable {column other : Column} (h : column.SameData other)
include h

theorem nullCount_eq : other.nullCount = column.nullCount := by
  rw [nullCount, nullCount, h.validity_eq, h.length_eq]

theorem columnSize_eq (alignment rows : Nat) :
    Body.columnSize alignment rows other = Body.columnSize alignment rows column := by
  rw [Body.columnSize, Body.columnSize, h.width_eq]

theorem appendColumn_eq (alignment : Nat) (body : Body) :
    body.appendColumn alignment other = body.appendColumn alignment column := by
  rw [Body.appendColumn, Body.appendColumn, h.nullCount_eq, h.validity_eq, h.length_eq,
    valueBytes, valueBytes, h.values_eq, h.length_eq, h.width_eq]

end Column.SameData

section

variable {columns others : List Column} (h : List.Forall₂ Column.SameData columns others)
include h

theorem RecordBatch.commonLength_eq : commonLength others = commonLength columns := by
  cases h with
  | nil => rfl
  | cons hfirst _ => exact hfirst.length_eq

theorem Ipc.Body.sizeFrom_eq (alignment rows size : Nat) :
    sizeFrom alignment rows size others = sizeFrom alignment rows size columns := by
  induction h generalizing size with
  | nil => rfl
  | cons hfirst _ ih =>
    rw [sizeFrom, sizeFrom, hfirst.columnSize_eq]
    simp only [ih]

theorem Ipc.Body.appendColumns_eq (alignment : Nat) (body : Body) :
    body.appendColumns alignment others = body.appendColumns alignment columns := by
  induction h generalizing body with
  | nil => rfl
  | cons hfirst _ ih =>
    rw [appendColumns, appendColumns, hfirst.appendColumn_eq]
    simp only [ih]

theorem Ipc.Session.ensureNoNulls_eq (fields : List Field) :
    ensureNoNulls fields others = ensureNoNulls fields columns := by
  induction h generalizing fields with
  | nil => cases fields <;> rfl
  | cons hfirst _ ih =>
    cases fields with
    | nil => rfl
    | cons field fields => rw [ensureNoNulls_cons, ensureNoNulls_cons, hfirst.nullCount_eq, ih]

end

/-- What is sent of a batch does not depend on its labels. -/
theorem RecordBatch.Relabels.encode_eq {batch other : RecordBatch} (h : batch.Relabels other)
    {σ : Type} (alignment : Nat) :
    (other.encode alignment : Action σ Message) = batch.encode alignment := by
  rw [encode, encode, rows, rows, commonLength_eq h.columns, Body.sizeOf, Body.sizeOf,
    Body.sizeFrom_eq h.columns, Body.appendColumns_eq h.columns]

/-- Fields of the same physical types are of one layout with a schema or not of one. If they are
not, the first of them that is at fault is in the same place. -/
theorem Schema.ensureSameTypes_relabels {others relabelled : List Field}
    (h : List.Forall₂ (fun field other => field.dtype.physical = other.dtype.physical)
      others relabelled) (position : Nat) (fields : List Field) :
    ensureSameTypes position fields relabelled = ensureSameTypes position fields others ∨
      ∃ index field first second, fields[index]? = some field ∧
        others[index]? = some first ∧ relabelled[index]? = some second ∧
        ensureSameTypes position fields others =
          raise (.fieldLayout (position + index) field.name field.dtype first.dtype) ∧
        ensureSameTypes position fields relabelled =
          raise (.fieldLayout (position + index) field.name field.dtype second.dtype) := by
  induction h generalizing position fields with
  | nil => exact .inl rfl
  | @cons first second others relabelled hphysical _ ih =>
    cases fields with
    | nil => exact .inl rfl
    | cons field fields =>
      rw [ensureSameTypes_cons, ensureSameTypes_cons, hphysical]
      by_cases hsame : field.dtype.physical = second.dtype.physical
      · rw [if_pos hsame, if_pos hsame]
        obtain heq | ⟨index, hfirst, hsecond, hthird, hrest⟩ := ih (position + 1) fields
        · exact .inl heq
        · refine .inr ⟨index + 1, hfirst, hsecond, hthird, ?_⟩
          rw [Nat.add_right_comm] at hrest
          exact hrest
      · rw [if_neg hsame, if_neg hsame]
        exact .inr ⟨0, field, first, second, rfl, rfl, rfl, rfl, rfl⟩

namespace Ipc.Writer

variable {σ : Type} [Sink σ]

omit [Sink σ] in
theorem plan_relabels {batch other : RecordBatch} (h : batch.Relabels other) {writer : Writer σ}
    {allocator : Allocator}
    (hprepare : writer.session.prepare other allocator = writer.session.prepare batch allocator) :
    writer.plan (.write other) allocator = writer.plan (.write batch) allocator := by
  have hrows : other.rows = batch.rows := RecordBatch.commonLength_eq h.columns
  rw [plan, plan, hprepare, hrows]

omit [Sink σ] in
theorem plan_of_layout {batch : RecordBatch} {writer : Writer σ} {allocator : Allocator}
    (hwritable : writer.session.ensureWritable = .ok ()) {failure : Failure}
    (hlayout : writer.session.schema.ensureSameLayout batch.schema = .error failure) :
    writer.plan (.write batch) allocator = .refused failure := by
  rw [plan, Session.prepare, hwritable, ok_bind, hlayout, error_bind]

/-- Labels make no difference to a call, but for a batch of another layout. The first field at
fault is in the same place then, and the text of the error names the logical type of that field
in the batch. -/
theorem act_relabels {batch other : RecordBatch} (h : batch.Relabels other)
    (allocator : Allocator) (writer : Writer σ) :
    act (.write other) allocator writer = act (.write batch) allocator writer ∨
      ∃ position field first second, writer.session.schema.fields[position]? = some field ∧
        batch.schema.fields[position]? = some first ∧
        other.schema.fields[position]? = some second ∧
        act (.write batch) allocator writer =
          ⟨.error (.error (.raised
            (.fieldLayout position field.name field.dtype first.dtype))), writer, []⟩ ∧
        act (.write other) allocator writer =
          ⟨.error (.error (.raised
            (.fieldLayout position field.name field.dtype second.dtype))), writer, []⟩ := by
  have hact : writer.session.prepare other allocator = writer.session.prepare batch allocator →
      act (.write other) allocator writer = act (.write batch) allocator writer := by
    intro hprepare
    rw [act_apply, act_apply, plan_relabels h hprepare]
    rfl
  have hlayout : writer.session.schema.ensureSameLayout other.schema =
      writer.session.schema.ensureSameLayout batch.schema →
      act (.write other) allocator writer = act (.write batch) allocator writer := by
    intro hsame
    apply hact
    rw [Session.prepare, Session.prepare, hsame, Session.ensureNoNulls_eq h.columns, h.encode_eq]
  have hlength : other.schema.length = batch.schema.length := h.fields.length_eq.symm
  rw [Schema.ensureSameLayout_eq, Schema.ensureSameLayout_eq, hlength] at hlayout
  by_cases hfields : writer.session.schema.length = batch.schema.length
  · rw [if_pos hfields, if_pos hfields] at hlayout
    obtain heq | ⟨index, field, first, second, hfield, hfirst, hsecond, hbatch, hother⟩ :=
      Schema.ensureSameTypes_relabels h.fields 0 writer.session.schema.fields
    · exact .inl (hlayout heq)
    · cases hwritable : writer.session.ensureWritable with
      | error failure =>
        -- both calls are refused before the layout is looked at
        refine .inl (hact ?_)
        rw [Session.prepare, Session.prepare, hwritable, error_bind, error_bind]
      | ok _ =>
        rw [Nat.zero_add] at hbatch hother
        refine .inr ⟨index, field, first, second, hfield, hfirst, hsecond, ?_, ?_⟩
        · refine act_of_refused (plan_of_layout hwritable ?_)
          rw [Schema.ensureSameLayout_eq, if_pos hfields, hbatch, raise_eq_error]
        · refine act_of_refused (plan_of_layout hwritable ?_)
          rw [Schema.ensureSameLayout_eq, hlength, if_pos hfields, hother, raise_eq_error]
  · rw [if_neg hfields, if_neg hfields] at hlayout
    exact .inl (hlayout rfl)

set_option maxRecDepth 8000 in
/-- The error for a batch of dates is not that for a batch of numbers, though both are stored as
32-bit integers. -/
theorem act_ne_of_dates :
    let schema : Schema := ⟨[⟨"a", .int64, true⟩]⟩
    let numbers : RecordBatch := ⟨⟨[⟨"a", .int32, true⟩]⟩, [Column.empty "a" .int32]⟩
    let dates : RecordBatch := ⟨⟨[⟨"a", .date32, true⟩]⟩, [Column.empty "a" .date32]⟩
    numbers.Reachable ∧ dates.Reachable ∧ numbers.Relabels dates ∧
      ∃ writer : Writer MemorySink,
        (create .stream schema 2 .standard MemorySink.empty).answer = .ok writer ∧
        (act (.write dates) .standard writer).answer ≠
          (act (.write numbers) .standard writer).answer := by
  intro schema numbers dates
  let writer : Writer MemorySink := .stream
    { session :=
      { mode := .stream
        phase := .writable
        sink := { MemorySink.empty with
          held := #[14, 0, 0, 0, 1, 1, 0, 1, 0, 0, 0, 1, 0, 0, 0, 97, 1, 4] }
        schema
        alignment := 2
        bytesWritten := 18
        batchesWritten := 0 } }
  have hopen : (create .stream schema 2 .standard MemorySink.empty).answer = .ok writer := by cbv
  refine ⟨RecordBatch.reachable_singleton (.empty "a" .int32) rfl,
    RecordBatch.reachable_singleton (.empty "a" .date32) rfl,
    ⟨.cons rfl .nil, .cons ⟨rfl, rfl, rfl, rfl⟩ .nil⟩, writer, hopen, ?_⟩
  have hdates : (act (.write dates) .standard writer).answer =
      .error (.error (.raised (.fieldLayout 0 "a" .int64 .date32))) := rfl
  have hnumbers : (act (.write numbers) .standard writer).answer =
      .error (.error (.raised (.fieldLayout 0 "a" .int64 .int32))) := rfl
  rw [hdates, hnumbers]
  decide

/-- Names and what may be null make no difference at all. -/
theorem act_relabels_eq {batch other : RecordBatch} (h : batch.Relabels other)
    (hdtype : batch.schema.fields.map Field.dtype = other.schema.fields.map Field.dtype)
    (allocator : Allocator) (writer : Writer σ) :
    act (.write other) allocator writer = act (.write batch) allocator writer := by
  obtain heq | ⟨index, field, first, second, -, hfirst, hsecond, hbatch, hother⟩ :=
    act_relabels h allocator writer
  · exact heq
  · have hboth := congrArg (·[index]?) hdtype
    simp only [List.getElem?_map, hfirst, hsecond, Option.map_some] at hboth
    rw [hbatch, hother, Option.some.inj hboth]

end Ipc.Writer

/-! ## Leaving calls out -/

/-- The call writes a batch to a session that can be written to, and the batch does not match the
schema or cannot be encoded. -/
def Ipc.Turn.IsRejected {σ : Type} [Sink σ] (turn : Turn σ) : Prop :=
  ∃ batch, turn.call = .write batch ∧ turn.writer.session.phase = .writable ∧
    (Writer.answersMismatch turn.outcome.answer ∨ ∃ failure,
      (batch.encode turn.writer.session.alignment turn.allocator ()).answer = .error failure)

/-- The second list is the first without some of its elements, each of which may go. What becomes of
an element is settled for its place alone, not for others that are equal to it. -/
inductive Ipc.Omits {α : Type} (may : α → Prop) : (all kept : List α) → Prop
  | nil : Omits may [] []
  | keep {x : α} {all kept : List α} (h : Omits may all kept) : Omits may (x :: all) (x :: kept)
  | leave {x : α} {all kept : List α} (hx : may x) (h : Omits may all kept) :
    Omits may (x :: all) kept

theorem Ipc.Omits.mono {α : Type} {may might : α → Prop} {all kept : List α}
    (h : Omits may all kept) (hmore : ∀ x, may x → might x) : Omits might all kept := by
  induction h with
  | nil => exact .nil
  | keep _ ih => exact .keep ih
  | leave hx _ ih => exact .leave (hmore _ hx) ih

namespace Ipc.Writer

variable {σ : Type} [Sink σ]

/-- A call that is rejected leaves the writer as it was. -/
theorem state_of_isRejected {turn : Turn σ} (h : turn.IsRejected) :
    turn.outcome.state = turn.writer := by
  obtain ⟨writer, allocator, call⟩ := turn
  obtain ⟨batch, rfl, hphase, hrejected⟩ := h
  have hrefused : ∃ failure, writer.plan (.write batch) allocator = .refused failure := by
    obtain hmismatch | ⟨failure, hencode⟩ := hrejected
    · obtain ⟨failure, hplan, -⟩ := (answersMismatch_act_iff _ _ _).mp hmismatch
      exact ⟨failure, hplan⟩
    · cases hprepare : writer.session.prepare batch allocator with
      | error other => exact ⟨other, by rw [plan, hprepare]⟩
      | ok message =>
        obtain ⟨-, -, -, hmessage⟩ := Session.prepare_eq_ok hprepare
        cases hmessage.symm.trans hencode
  obtain ⟨failure, hplan⟩ := hrefused
  exact congrArg Outcome.state (act_of_refused hplan)

/-- Calls that leave the writer as it was can be left out. Every other call then meets the same
writer as before, and the last writer is the same. -/
theorem turns_kept {steps : List (Allocator × Call)} {writer : Writer σ} {kept : List (Turn σ)}
    (h : Omits (fun turn => turn.outcome.state = turn.writer) (turns steps writer) kept) :
    turns (kept.map Turn.step) writer = kept ∧
      after (kept.map Turn.step) writer = after steps writer := by
  induction steps generalizing writer kept with
  | nil =>
    cases h
    exact ⟨rfl, rfl⟩
  | cons step rest ih =>
    obtain ⟨allocator, call⟩ := step
    rw [turns] at h
    cases h with
    | keep h =>
      obtain ⟨hturns, hafter⟩ := ih h
      exact ⟨congrArg (_ :: ·) hturns, hafter⟩
    | leave hsame h =>
      -- the rest of the calls starts at the same writer with and without this one
      have hstate : (act call allocator writer).state = writer := hsame
      obtain ⟨hturns, hafter⟩ := ih h
      rw [hstate] at hturns hafter
      rw [after, hstate]
      exact ⟨hturns, hafter⟩

/-- What a writer makes of batches that do not fit.

- A writer that can be written to answers a mismatch exactly for the batches that do not fit its
  schema.
- Names, and what may be null, make no difference to a call. Logical types of one physical type
  make none either, except that the error for another layout names the type that the batch has.
- Calls that were rejected can be left out of a sequence of calls, all of them or any of them. The
  calls that are left then meet the writer that they met before, and so have the same outcome, and
  the last writer is the same. -/
theorem rejection (writer : Writer σ) :
    (∀ batch allocator, RecordBatch.Reachable batch → writer.session.phase = .writable →
      (answersMismatch (act (.write batch) allocator writer).answer ↔
        batch.Misfits writer.session.schema)) ∧
      (∀ batch other allocator, RecordBatch.Relabels batch other →
        (batch.schema.fields.map Field.dtype = other.schema.fields.map Field.dtype →
          act (.write other) allocator writer = act (.write batch) allocator writer) ∧
        (act (.write other) allocator writer = act (.write batch) allocator writer ∨
          ∃ position field first second, writer.session.schema.fields[position]? = some field ∧
            batch.schema.fields[position]? = some first ∧
            other.schema.fields[position]? = some second ∧
            act (.write batch) allocator writer =
              ⟨.error (.error (.raised
                (.fieldLayout position field.name field.dtype first.dtype))), writer, []⟩ ∧
            act (.write other) allocator writer =
              ⟨.error (.error (.raised
                (.fieldLayout position field.name field.dtype second.dtype))), writer, []⟩)) ∧
      ∀ steps kept, Omits Turn.IsRejected (turns steps writer) kept →
        turns (kept.map Turn.step) writer = kept ∧
          after (kept.map Turn.step) writer = after steps writer :=
  ⟨fun _ allocator hbatch hphase => act_mismatch_iff hphase hbatch.wellFormed allocator,
    fun _ _ allocator h =>
      ⟨fun hdtype => act_relabels_eq h hdtype allocator writer, act_relabels h allocator writer⟩,
    fun _ _ h => turns_kept (h.mono fun _ => state_of_isRejected)⟩

set_option maxRecDepth 8000 in
/-- A batch with a null is rejected where none is allowed, whatever the name of its field. A
batch after it is written as if it had been the first, also if only one of two such batches is left
out. -/
theorem rejection_of_null :
    let schema : Schema := ⟨[⟨"a", .int8, false⟩]⟩
    let column := ((Column.Call.setGrowing 1 #[7]).run .standard (Column.empty "b" .int8)).state
    let rejected : RecordBatch := ⟨⟨[⟨"b", .int8, true⟩]⟩, [column]⟩
    let renamed : RecordBatch := ⟨⟨[⟨"c", .int8, true⟩]⟩, [column]⟩
    let batch : RecordBatch := ⟨⟨[⟨"a", .int8, true⟩]⟩, [Column.empty "a" .int8]⟩
    ∃ writer : Writer MemorySink,
      (create .stream schema 2 .standard MemorySink.empty).answer = .ok writer ∧
      answersMismatch (act (.write rejected) .standard writer).answer ∧
      act (.write renamed) .standard writer = act (.write rejected) .standard writer ∧
      let fewer := [(.standard, .write batch), (.standard, .write rejected)]
      let steps := (.standard, .write rejected) :: fewer
      turns fewer writer = (turns steps writer).tail ∧ after fewer writer = after steps writer := by
  intro schema column rejected renamed batch
  let writer : Writer MemorySink := .stream
    { session :=
      { mode := .stream
        phase := .writable
        sink := { MemorySink.empty with
          held := #[14, 0, 0, 0, 1, 1, 0, 1, 0, 0, 0, 1, 0, 0, 0, 97, 0, 1] }
        schema
        alignment := 2
        bytesWritten := 18
        batchesWritten := 0 } }
  have hopen : (create .stream schema 2 .standard MemorySink.empty).answer = .ok writer := by cbv
  have hcolumn : (Object.column column).Reachable := by
    refine .call (.setGrowing 1 #[7]) Allocator.isBounded_standard (.empty "b" .int8) ?_
    rintro _ ⟨⟩
  have hreachable : rejected.Reachable := RecordBatch.reachable_singleton hcolumn (by decide)
  have hmisfits : rejected.Misfits schema := by
    refine .inr (.inr ⟨(⟨"a", .int8, false⟩, column), List.mem_singleton_self _, rfl, ?_⟩)
    have hcontents : column.contents = [none, some #[7]] := by cbv
    rw [hcontents]
    exact List.mem_cons_self
  have hrelabels : rejected.Relabels renamed :=
    ⟨.cons rfl .nil, .cons ⟨rfl, rfl, rfl, rfl⟩ .nil⟩
  obtain ⟨hiff, hlabels, hkept⟩ := rejection writer
  have hmismatch := (hiff rejected .standard hreachable rfl).mpr hmisfits
  have hfewer := hkept [(.standard, .write rejected), (.standard, .write batch),
    (.standard, .write rejected)] _
      (.leave ⟨rejected, rfl, rfl, .inl hmismatch⟩ (.keep (.keep .nil)))
  exact ⟨writer, hopen, hmismatch, (hlabels rejected renamed .standard hrelabels).1 rfl, hfewer⟩

end Ipc.Writer

end Columnar
