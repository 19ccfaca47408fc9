import Columnar.Proofs.Column.Reachable
import Columnar.Proofs.Shortage

/-!
# Calls on columns that fail

A call that fails with an error leaves everything as it was, whatever memory is refused. A call that
allocates a column anew gives up the slots first, and is the only exception.
-/

namespace Columnar

namespace Column

variable (allocator : Allocator) (column : Column)

theorem isErrorFree_slotBounds (index : Nat) : (column.slotBounds index).IsErrorFree :=
  (Size.isErrorFree_mul _ _).bind fun _ => (Size.isErrorFree_add _ _).bind fun _ =>
    (Size.isErrorFree_mul _ _).bind fun _ => Result.failsWith_ok _

theorem isErrorFree_get? (index : Nat) : (column.get? index).IsErrorFree := by
  have hvalid : (column.isValid index).IsErrorFree := by
    rw [isValid]
    split
    · exact Bits.isErrorFree_get _ _
    · exact Result.failsWith_ok _
  have hbytes : (column.slotBytes index).IsErrorFree :=
    (column.isErrorFree_slotBounds index).bind fun _ => Bytes.isErrorFree_stretch _ _ _
  refine hvalid.bind fun valid => ?_
  cases valid with
  | true => exact hbytes.bind fun _ => Result.failsWith_ok _
  | false => exact Result.failsWith_ok _

/-! ## Calls on one column -/

theorem insistRoom_isErrorFree (index : Nat) :
    (insistRoom index allocator column).answer.IsErrorFree := by
  rcases Nat.lt_or_ge index column.capacity with hindex | hpast
  · rw [insistRoom_of_lt hindex]
    exact Result.failsWith_ok _
  · rw [insistRoom_of_le hpast]
    exact Result.isErrorFree_breach _

theorem extendLength_isErrorFree (index : Nat) :
    (extendLength index allocator column).answer.IsErrorFree :=
  Action.failsWith_bind (Size.isErrorFree_add _ _) fun _ _ => Result.failsWith_ok _

theorem writeValue_isErrorFree (index : Nat) (value : Bytes) :
    (writeValue index value allocator column).answer.IsErrorFree := by
  refine Action.failsWith_bind (insistRoom_isErrorFree _ _ _) fun _ roomy => ?_
  rw [Action.getThe_bind]
  refine Action.failsWith_bind (roomy.isErrorFree_slotBounds index) ?_
  rintro ⟨start, stop⟩ after
  by_cases hstretch : start ≤ stop ∧ stop ≤ roomy.values.size
  · by_cases hsize : value.size = roomy.width ∧ value.size = stop - start
    · simp only [if_pos hstretch, if_pos hsize]
      rw [Action.modify_bind]
      exact Action.failsWith_bind (Bitmap.isErrorFree_put _ _ _) fun _ _ =>
        extendLength_isErrorFree _ _ _
    · simp only [if_pos hstretch, if_neg hsize]
      exact Result.isErrorFree_breach _
  · simp only [if_neg hstretch]
    exact Result.isErrorFree_breach _

theorem setNull_isErrorFree (index : Nat) :
    (setNull index allocator column).answer.IsErrorFree := by
  refine Action.failsWith_bind (insistRoom_isErrorFree _ _ _) fun _ roomy => ?_
  rw [Action.getThe_bind]
  exact Action.failsWith_bind (Bitmap.isErrorFree_put _ _ _) fun _ _ =>
    extendLength_isErrorFree _ _ _

theorem copySlot_isErrorFree (source : Column) (position index : Nat) :
    (copySlot source position index allocator column).answer.IsErrorFree := by
  refine Action.failsWith_bind (source.isErrorFree_get? position) fun slot after => ?_
  cases slot with
  | none => exact Result.failsWith_ok _
  | some value => exact writeValue_isErrorFree _ _ _ _

/-- Both buffers are granted before the column changes, and the growth is reported once it has
both. -/
theorem reallocateExact_failsShort (capacity : Nat) :
    (reallocateExact capacity allocator column).FailsShort column := by
  unfold reallocateExact
  rw [Action.getThe_bind]
  by_cases hroom : capacity ≤ column.capacity
  · simp only [if_pos hroom]
    exact Action.failsShort_of_ok rfl
  by_cases hsize : capacity * column.width < Size.bound
  · simp only [if_neg hroom, if_pos hsize]
    apply Action.failsShort_bind_of_idle
      (Action.failsShort_of_isErrorFree (Size.isErrorFree_sub _ _)) rfl rfl
    intro added
    apply Action.failsShort_bind_of_idle (Action.reserve_failsShort _ _ _) rfl rfl
    intro _
    apply Action.failsShort_bind
    · exact Action.failsShort_onPart (Bitmap.ensureCapacity_failsShort _ _ _)
    · exact fun _ _ => Result.failsWith_ok _
  · simp only [if_neg hroom, if_neg hsize]
    rintro error ⟨⟩
    exact ⟨rfl, rfl⟩

theorem makeRoom_failsShort (index : Nat) :
    (makeRoom index allocator column).FailsShort column := by
  obtain hgrow | htoo := makeRoom_eq allocator column index
  · rw [hgrow]
    exact reallocateExact_failsShort _ _ _
  · rw [htoo]
    rintro error ⟨⟩
    exact ⟨rfl, rfl⟩

/-- Whatever comes of it, the slots of a column keep their width when room is made. -/
theorem width_makeRoom (index : Nat) :
    (makeRoom index allocator column).state.width = column.width := by
  have hgrow : ∀ capacity,
      (reallocateExact capacity allocator column).state.width = column.width := by
    intro capacity
    let post (after : Column) : Prop := after.width = column.width
    show post (reallocateExact capacity allocator column).state
    unfold reallocateExact
    rw [Action.getThe_bind]
    by_cases hroom : capacity ≤ column.capacity
    · simp only [if_pos hroom]
      exact rfl
    by_cases hsize : capacity * column.width < Size.bound
    · simp only [if_neg hroom, if_pos hsize]
      refine Action.leaves_liftM_bind post rfl fun added _ => ?_
      refine Action.leaves_bind post rfl fun _ _ => ?_
      exact Action.leaves_bind post rfl fun _ _ => rfl
    · simp only [if_neg hroom, if_neg hsize]
      exact rfl
  obtain hroom | htoo := makeRoom_eq allocator column index
  · rw [hroom]
    exact hgrow _
  · rw [htoo]

/-- A column has room before it is written to, and a check of its width that has passed passes
again. -/
theorem setOptionGrowing_failsShort {value : Bytes} (hwidth : column.width = value.size)
    (index : Nat) :
    (setOptionGrowing index (some value) allocator column).FailsShort column := by
  have hshort := makeRoom_failsShort allocator column index
  have hkept := width_makeRoom allocator column index
  rw [setOptionGrowing_some, Action.getThe_bind, checkWidth_of_eq hwidth, Action.liftM_ok_bind]
  rcases hroom : makeRoom index allocator column with ⟨failure | ⟨⟩, roomy, events⟩
  · rw [hroom] at hshort
    rw [Action.bind_apply_error hroom]
    exact hshort
  · rw [hroom] at hkept
    rw [Action.bind_apply_ok hroom, Column.set, Action.getThe_bind,
      checkWidth_of_eq (hkept.trans hwidth), Action.liftM_ok_bind]
    exact Action.failsShort_of_isErrorFree (writeValue_isErrorFree _ _ _ _)

theorem endAt_isErrorFree (count : Nat) :
    (endAt count allocator column).answer.IsErrorFree := by
  rw [endAt, Action.getThe_bind]
  exact Action.failsWith_bind (Bitmap.isErrorFree_putRun _ _ _ _) fun _ _ =>
    Result.failsWith_ok _

theorem setLength_failsShort (count : Nat) :
    (setLength count allocator column).FailsShort column := by
  by_cases hcount : 0 < count
  · rw [setLength_of_pos hcount]
    exact Action.failsShort_bind (makeRoom_failsShort _ _ _) fun _ roomy =>
      endAt_isErrorFree allocator roomy count
  · obtain rfl := Nat.eq_zero_of_not_pos hcount
    exact Action.failsShort_of_isErrorFree (endAt_isErrorFree allocator column 0)

variable {allocator column} {width : Nat} {next : Unit → Action Column Unit}

/-- A call that checks a width first goes no further if it is another one. -/
theorem checked_of_ne (hwidth : column.width ≠ width) :
    (getThe Column >>= fun column =>
      (liftM (column.checkWidth width) : Action Column Unit) >>= next) allocator column =
        ⟨.error (.error (.raised (.elementWidth column.width width))), column, []⟩ := by
  rw [Action.getThe_bind, checkWidth_of_ne hwidth]
  rfl

theorem checked_failsShort (hwidth : column.width = width)
    (hnext : (next () allocator column).FailsShort column) :
    ((getThe Column >>= fun column =>
      (liftM (column.checkWidth width) : Action Column Unit) >>= next) allocator
        column).FailsShort column := by
  rw [Action.getThe_bind, checkWidth_of_eq hwidth]
  exact hnext

/-- Once there is room, no error is possible. -/
theorem afterRoom_failsShort (hnext : ∀ roomy, (next () allocator roomy).answer.IsErrorFree)
    (index : Nat) : ((makeRoom index >>= next) allocator column).FailsShort column :=
  Action.failsShort_bind (makeRoom_failsShort _ _ _) fun _ => hnext

namespace Call

/-- The call is given a value, or another column, of another width than the column's. -/
def Mismatches (call : Call) (column : Column) : Prop :=
  match call with
  | set _ value | setGrowing _ value | setOption _ (some value)
  | setOptionGrowing _ (some value) => column.width ≠ value.size
  | copyFrom source _ _ | copyFromGrowing source _ _ => column.width ≠ source.width
  | _ => False

theorem run_of_mismatches {call : Call} (h : call.Mismatches column) :
    ∃ given, ∀ allocator, call.run allocator column =
      ⟨.error (.error (.raised (.elementWidth column.width given))), column, []⟩ := by
  cases call with
  | set index value => exact ⟨value.size, fun _ => checked_of_ne h⟩
  | setGrowing index value => exact ⟨value.size, fun _ => checked_of_ne h⟩
  | setOption index option =>
    cases option with
    | none => cases h
    | some value => exact ⟨value.size, fun _ => checked_of_ne h⟩
  | setOptionGrowing index option =>
    cases option with
    | none => cases h
    | some value => exact ⟨value.size, fun _ => checked_of_ne h⟩
  | copyFrom source position index => exact ⟨source.width, fun _ => checked_of_ne h⟩
  | copyFromGrowing source position index => exact ⟨source.width, fun _ => checked_of_ne h⟩
  | _ => cases h

/-- Past the check of the width, all errors of a call on one column say that memory was
refused. -/
theorem failsShort (call : Call) (allocator : Allocator) (h : ¬ call.Mismatches column) :
    (call.run allocator column).FailsShort (call.left column) := by
  have hset : ∀ {index : Nat} {value : Bytes}, column.width = value.size →
      (Column.set index value allocator column).FailsShort column := fun hwidth =>
    checked_failsShort hwidth (Action.failsShort_of_isErrorFree (writeValue_isErrorFree _ _ _ _))
  have hsetNull : ∀ index, (Column.setNull index allocator column).FailsShort column := fun _ =>
    Action.failsShort_of_isErrorFree (setNull_isErrorFree _ _ _)
  cases call with
  | set index value => exact hset (Classical.not_not.mp h)
  | setGrowing index value =>
    exact checked_failsShort (Classical.not_not.mp h)
      (afterRoom_failsShort (fun _ => writeValue_isErrorFree _ _ _ _) index)
  | setNull index => exact hsetNull index
  | setNullGrowing index => exact afterRoom_failsShort (fun _ => setNull_isErrorFree _ _ _) index
  | setOption index option =>
    cases option with
    | none => exact hsetNull index
    | some value => exact hset (Classical.not_not.mp h)
  | setOptionGrowing index option =>
    cases option with
    | none => exact afterRoom_failsShort (fun _ => setNull_isErrorFree _ _ _) index
    | some value =>
      exact setOptionGrowing_failsShort allocator column (Classical.not_not.mp h) index
  | copyFrom source position index =>
    exact checked_failsShort (Classical.not_not.mp h)
      (Action.failsShort_of_isErrorFree (copySlot_isErrorFree _ _ _ _ _))
  | copyFromGrowing source position index =>
    exact checked_failsShort (Classical.not_not.mp h)
      (afterRoom_failsShort (fun _ => copySlot_isErrorFree _ _ _ _ _) index)
  | reallocateExact capacity => exact reallocateExact_failsShort _ _ capacity
  | allocateNew => exact reallocateExact_failsShort _ _ column.initialCapacity
  | allocateNewWith capacity => exact reallocateExact_failsShort _ _ capacity
  | setInitialCapacity capacity => exact Action.failsShort_of_ok rfl
  | setLength count => exact setLength_failsShort _ _ count
  | clear => exact Action.failsShort_of_ok rfl

end Call

/-! ## Calls on two columns -/

variable {pair : Pair Column} {start length : Nat}

/-- A range that is no range of the source is found before memory is asked for. -/
theorem splitInto_of_not_le (hout : ¬ start + length ≤ pair.source.length) :
    ∃ cause, cause.kind = .outOfBounds ∧ ∀ allocator,
      splitInto start length allocator pair = ⟨.error (.error (.raised cause)), pair, []⟩ := by
  by_cases hbound : start + length < Size.bound
  · refine ⟨.splitOutOfBounds start (start + length) pair.source.name pair.source.length, rfl,
      fun allocator => ?_⟩
    rw [splitInto, Action.getThe_bind]
    simp only [if_pos hbound, if_neg hout]
    rfl
  · refine ⟨.splitOverflow start, rfl, fun allocator => ?_⟩
    rw [splitInto, Action.getThe_bind]
    simp only [if_neg hbound]
    rfl

/-- Both buffers of a range are complete before the target gives up its own. -/
theorem splitInto_failsShort (allocator : Allocator) (hin : start + length ≤ pair.source.length)
    (hlength : pair.source.length < Size.bound) :
    (splitInto start length allocator pair).FailsShort pair := by
  have hbound : start + length < Size.bound := Nat.lt_of_le_of_lt hin hlength
  rw [splitInto, Action.getThe_bind]
  simp only [if_pos hbound, if_pos hin]
  apply Action.failsShort_bind_of_idle (Bitmap.slice_failsShort _ _ _ _ _)
    (Bitmap.state_slice _ _ _ _ _) (Bitmap.events_slice _ _ _ _ _)
  intro validity
  apply Action.failsShort_bind_of_idle
    (Action.failsShort_of_isErrorFree (Size.isErrorFree_mul _ _)) rfl rfl
  intro size
  apply Action.failsShort_bind (Action.reserve_failsShort _ _ _)
  intro _ after
  refine Action.failsWith_bind (Size.isErrorFree_mul _ _) fun _ _ => ?_
  refine Action.failsWith_bind (Size.isErrorFree_mul _ _) fun _ _ => ?_
  exact Action.failsWith_bind (Bytes.isErrorFree_stretch _ _ _) fun _ _ => Result.failsWith_ok _

namespace PairCall

theorem run_of_not_inRange {call : PairCall} (h : ¬ call.InRange pair.source.length) :
    ∃ cause, cause.kind = .outOfBounds ∧ ∀ allocator,
      call.run allocator pair = ⟨.error (.error (.raised cause)), pair, []⟩ := by
  cases call with
  | splitInto start length => exact splitInto_of_not_le h
  | _ => exact absurd trivial h

/-- Past the check of the range, all errors of a call on a pair of one width say that memory
was refused. -/
theorem failsShort (call : PairCall) (allocator : Allocator)
    (hwidth : pair.source.width = pair.target.width) (hin : call.InRange pair.source.length)
    (hlength : pair.source.length < Size.bound) :
    (call.run allocator pair).FailsShort pair := by
  cases call with
  | moveBuffers => exact Action.failsShort_of_ok rfl
  | splitInto start length => exact splitInto_failsShort allocator hin hlength
  | copyValue position index =>
    have hsame : ¬ (Call.copyFromGrowing pair.source position index).Mismatches pair.target :=
      Classical.not_not.mpr hwidth.symm
    rw [run, copyValue_eq hwidth]
    exact Action.failsShort_onPart
      ((Call.copyFromGrowing pair.source position index).failsShort allocator hsame)

end PairCall

end Column

/-! ## How calls fail -/

namespace Action

variable {σ : Type} {action : Action σ Unit} {state left : σ} {Mismatch OutOfRange : Prop}

/-- How a call fails that is given something of a wrong width if `Mismatch`, and a wrong range
if `OutOfRange`. Under any allocator, an error of the call leaves `left` and no report, and says
which of the two was wrong, or else that memory was refused. -/
structure FailsAtomically (action : Action σ Unit) (state left : σ)
    (Mismatch OutOfRange : Prop) : Prop where
  /-- All of the state is what it was, or what the call is said to leave. -/
  left_eq : ∀ allocator error, (action allocator state).answer = .error (.error error) →
    (action allocator state).state = left ∧ (action allocator state).events = []
  typeMismatch_iff : ∀ allocator error,
    (action allocator state).answer = .error (.error error) →
    (error.kind = .caused .typeMismatch ↔ Mismatch)
  outOfBounds_iff : ∀ allocator error,
    (action allocator state).answer = .error (.error error) →
    (error.kind = .caused .outOfBounds ↔ ¬ Mismatch ∧ OutOfRange)
  outOfMemory_iff : ∀ allocator error,
    (action allocator state).answer = .error (.error error) →
    (error.kind = .caused .outOfMemory ↔ ¬ Mismatch ∧ ¬ OutOfRange)
  /-- A wrong width or range is found before memory is asked for: every allocator gives the same
  outcome, and nothing has changed. -/
  before_growth : Mismatch ∨ OutOfRange →
    ∃ error, ∀ allocator, action allocator state = ⟨.error (.error error), state, []⟩

/-- The kind of an error tells the condition it was raised under, if no two of them hold
together. -/
theorem kind_iff_of_cases {kind : ErrorKind}
    (h : Mismatch ∧ kind = .caused .typeMismatch ∨
      (¬ Mismatch ∧ OutOfRange) ∧ kind = .caused .outOfBounds ∨
      (¬ Mismatch ∧ ¬ OutOfRange) ∧ kind = .caused .outOfMemory) :
    (kind = .caused .typeMismatch ↔ Mismatch) ∧
      (kind = .caused .outOfBounds ↔ ¬ Mismatch ∧ OutOfRange) ∧
      (kind = .caused .outOfMemory ↔ ¬ Mismatch ∧ ¬ OutOfRange) := by
  obtain ⟨hwidth, rfl⟩ | ⟨hout, rfl⟩ | ⟨hshort, rfl⟩ := h
  · simp [hwidth]
  · simp [hout]
  · simp [hshort]

/-- The widths are checked first, then the range is, and then memory is asked for. -/
theorem failsAtomically_of_checks
    (hmismatch : Mismatch → ∃ cause, cause.kind = .typeMismatch ∧
      ∀ allocator, action allocator state = ⟨.error (.error (.raised cause)), state, []⟩)
    (hrange : ¬ Mismatch → OutOfRange → ∃ cause, cause.kind = .outOfBounds ∧
      ∀ allocator, action allocator state = ⟨.error (.error (.raised cause)), state, []⟩)
    (hshort : ¬ Mismatch → ¬ OutOfRange → ∀ allocator, (action allocator state).FailsShort left)
    (hleft : Mismatch ∨ OutOfRange → left = state) :
    action.FailsAtomically state left Mismatch OutOfRange := by
  -- an objection is the same for all allocators
  have hobjection : ∀ {kind : CauseKind}, (Mismatch ∨ OutOfRange) → (∃ cause, cause.kind = kind ∧
      ∀ allocator, action allocator state = ⟨.error (.error (.raised cause)), state, []⟩) →
      ∀ allocator error, (action allocator state).answer = .error (.error error) →
        ((action allocator state).state = left ∧ (action allocator state).events = []) ∧
          error.kind = .caused kind := by
    rintro kind hwrong ⟨cause, rfl, hcause⟩ allocator error herror
    rw [hcause allocator] at herror ⊢
    cases herror
    exact ⟨⟨(hleft hwrong).symm, rfl⟩, rfl⟩
  have hcases : ∀ allocator error, (action allocator state).answer = .error (.error error) →
      ((action allocator state).state = left ∧ (action allocator state).events = []) ∧
        (Mismatch ∧ error.kind = .caused .typeMismatch ∨
          (¬ Mismatch ∧ OutOfRange) ∧ error.kind = .caused .outOfBounds ∨
          (¬ Mismatch ∧ ¬ OutOfRange) ∧ error.kind = .caused .outOfMemory) := by
    intro allocator error herror
    by_cases hwidth : Mismatch
    · obtain ⟨hsame, hkind⟩ := hobjection (.inl hwidth) (hmismatch hwidth) allocator error herror
      exact ⟨hsame, .inl ⟨hwidth, hkind⟩⟩
    · by_cases hout : OutOfRange
      · obtain ⟨hsame, hkind⟩ := hobjection (.inr hout) (hrange hwidth hout) allocator error herror
        exact ⟨hsame, .inr (.inl ⟨⟨hwidth, hout⟩, hkind⟩)⟩
      · obtain ⟨hsame, hkind⟩ := hshort hwidth hout allocator error herror
        rw [hsame]
        exact ⟨⟨rfl, rfl⟩, .inr (.inr ⟨⟨hwidth, hout⟩, hkind⟩)⟩
  have hkinds := fun allocator error herror => kind_iff_of_cases (hcases allocator error herror).2
  refine
    { left_eq := fun allocator error herror => (hcases allocator error herror).1
      typeMismatch_iff := fun allocator error herror => (hkinds allocator error herror).1
      outOfBounds_iff := fun allocator error herror => (hkinds allocator error herror).2.1
      outOfMemory_iff := fun allocator error herror => (hkinds allocator error herror).2.2
      before_growth := ?_ }
  intro hwrong
  by_cases hwidth : Mismatch
  · obtain ⟨cause, -, hcause⟩ := hmismatch hwidth
    exact ⟨_, hcause⟩
  · obtain ⟨cause, -, hcause⟩ := hrange hwidth (hwrong.resolve_left hwidth)
    exact ⟨_, hcause⟩

end Action

namespace Column

theorem Call.left_of_mismatches {call : Call} {column : Column} (h : call.Mismatches column) :
    call.left column = column := by
  cases call with
  | allocateNew => cases h
  | allocateNewWith _ => cases h
  | _ => rfl

theorem Call.failsAtomically (call : Call) (column : Column) :
    call.run.FailsAtomically column (call.left column) (call.Mismatches column) False := by
  apply Action.failsAtomically_of_checks
  · intro hwidth
    obtain ⟨given, hgiven⟩ := run_of_mismatches hwidth
    exact ⟨_, rfl, hgiven⟩
  · intro _ hout
    cases hout
  · exact fun hwidth _ allocator => call.failsShort allocator hwidth
  · rintro (hwidth | hout)
    · exact left_of_mismatches hwidth
    · exact hout.elim

variable {pair : Pair Column}

theorem PairCall.failsAtomically (call : PairCall)
    (hwidth : pair.source.width = pair.target.width) (hlength : pair.source.length < Size.bound) :
    call.run.FailsAtomically pair pair False (¬ call.InRange pair.source.length) := by
  apply Action.failsAtomically_of_checks
  · rintro ⟨⟩
  · exact fun _ hout => run_of_not_inRange hout
  · exact fun _ hin allocator => call.failsShort allocator hwidth (Classical.not_not.mp hin) hlength
  · exact fun _ => rfl

theorem Handover.failsAtomically (call : Handover) (hlength : pair.source.length < Size.bound) :
    call.run.FailsAtomically pair pair (pair.source.width ≠ pair.target.width)
      (¬ call.checked.InRange pair.source.length) := by
  apply Action.failsAtomically_of_checks
  · intro hwidth
    refine ⟨.elementWidth pair.source.width pair.target.width, rfl, fun allocator => ?_⟩
    cases call with
    | transfer => exact transfer_of_ne hwidth
    | splitAndTransfer start length => exact splitAndTransfer_of_ne hwidth start length
  · intro hwidth hout
    obtain ⟨cause, hkind, hcause⟩ := PairCall.run_of_not_inRange hout
    refine ⟨cause, hkind, fun allocator => ?_⟩
    rw [call.run_of_eq (Classical.not_not.mp hwidth)]
    exact hcause allocator
  · intro hwidth hin allocator
    have hwidth := Classical.not_not.mp hwidth
    rw [call.run_of_eq hwidth]
    exact call.checked.failsShort allocator hwidth (Classical.not_not.mp hin) hlength
  · exact fun _ => rfl

end Column

namespace TypedColumn

variable {primitive : Primitive}

/-- What the call leaves of the typed column when it fails. -/
def Call.left (call : Call primitive) (typed : TypedColumn primitive) : TypedColumn primitive :=
  ⟨call.erase.left typed.column⟩

/-- All values of one primitive have the width of the column. -/
theorem Call.not_mismatches_erase {call : Call primitive} {typed : TypedColumn primitive}
    (h : typed.Measured)
    (hsource : ∀ source, call.source? = some source → source.Measured) :
    ¬ call.erase.Mismatches typed.column := by
  cases call with
  | set index value => exact Classical.not_not.mpr (h.width_eq_size value)
  | setGrowing index value => exact Classical.not_not.mpr (h.width_eq_size value)
  | setOption index option =>
    cases option with
    | none => exact not_false
    | some value => exact Classical.not_not.mpr (h.width_eq_size value)
  | setOptionGrowing index option =>
    cases option with
    | none => exact not_false
    | some value => exact Classical.not_not.mpr (h.width_eq_size value)
  | copyFrom source position index =>
    exact Classical.not_not.mpr (h.width_eq.trans (hsource source rfl).width_eq.symm)
  | copyFromGrowing source position index =>
    exact Classical.not_not.mpr (h.width_eq.trans (hsource source rfl).width_eq.symm)
  | _ => exact not_false

theorem Call.failsAtomically (call : Call primitive) {typed : TypedColumn primitive}
    (h : typed.Measured)
    (hsource : ∀ source, call.source? = some source → source.Measured) :
    call.run.FailsAtomically typed (call.left typed) False False := by
  apply Action.failsAtomically_of_checks
  · rintro ⟨⟩
  · rintro - ⟨⟩
  · intro _ _ allocator
    rw [call.run_eq allocator h hsource]
    exact Action.failsShort_onPart
      (call.erase.failsShort allocator (call.not_mismatches_erase h hsource))
  · rintro (hwidth | hout)
    · exact hwidth.elim
    · exact hout.elim

/-- A call that leaves the columns beneath as they were leaves the typed columns so. -/
theorem onColumns_of_same {action : Action (Pair Column) Unit} {allocator : Allocator}
    {pair : Pair (TypedColumn primitive)} {answer : Result Unit} {events : List Event}
    (h : action allocator ⟨pair.source.column, pair.target.column⟩ =
      ⟨answer, ⟨pair.source.column, pair.target.column⟩, events⟩) :
    onColumns action allocator pair = ⟨answer, pair, events⟩ := by
  rw [onColumns, Action.onPart, h]

theorem handOver_failsAtomically (call : Column.Handover) {pair : Pair (TypedColumn primitive)}
    (hsource : pair.source.Measured) (htarget : pair.target.Measured)
    (hlength : pair.source.column.length < Size.bound) :
    (handOver call).FailsAtomically pair pair False
      (¬ call.checked.InRange pair.source.column.length) := by
  have hwidth : pair.source.column.width = pair.target.column.width :=
    hsource.width_eq.trans htarget.width_eq.symm
  rw [handOver_eq]
  apply Action.failsAtomically_of_checks
  · rintro ⟨⟩
  · intro _ hout
    obtain ⟨cause, hkind, hcause⟩ :=
      @Column.PairCall.run_of_not_inRange ⟨pair.source.column, pair.target.column⟩ _ hout
    exact ⟨cause, hkind, fun allocator => onColumns_of_same (hcause allocator)⟩
  · intro _ hin allocator error herror
    obtain ⟨hsame, hkind⟩ := @Column.PairCall.failsShort
      ⟨pair.source.column, pair.target.column⟩ call.checked allocator hwidth
      (Classical.not_not.mp hin) hlength error herror
    exact ⟨onColumns_of_same hsame, hkind⟩
  · exact fun _ => rfl

end TypedColumn

namespace Object

/-- Whatever memory is granted or refused, a call on reachable columns that fails with an error
leaves them as they were and reports nothing, except that a column that is allocated anew has
lost its slots. The error is a mismatch exactly if widths differ, and an end out of bounds
exactly if they do not and the range that is split off is none of the source. Both are found
before any buffer grows. All other errors say that memory was refused. A call on one column
fails so in any state at all. -/
theorem calls_fail_atomically :
    (∀ (call : Column.Call) (column : Column),
      call.run.FailsAtomically column (call.left column) (call.Mismatches column) False) ∧
    (∀ (call : Column.Handover) (source target : Column), Reachable (.column source) →
      Reachable (.column target) →
      call.run.FailsAtomically ⟨source, target⟩ ⟨source, target⟩ (source.width ≠ target.width)
        (¬ call.checked.InRange source.length)) ∧
    (∀ (call : Column.PairCall) (pair : Pair Column), Reachable (.pair pair) →
      call.run.FailsAtomically pair pair False (¬ call.InRange pair.source.length)) ∧
    (∀ {primitive : Primitive} (call : TypedColumn.Call primitive)
      (typed : TypedColumn primitive), Reachable (.typed typed) →
      (∀ source, call.source? = some source → Reachable (.typed source)) →
      call.run.FailsAtomically typed (call.left typed) False False) ∧
    ∀ {primitive : Primitive} (call : Column.Handover) (source target : TypedColumn primitive),
      Reachable (.typed source) → Reachable (.typed target) →
      (TypedColumn.handOver call).FailsAtomically ⟨source, target⟩ ⟨source, target⟩ False
        (¬ call.checked.InRange source.column.length) := by
  have hlength : ∀ {column : Column}, column.WellFormed → column.length < Size.bound := by
    intro column h
    have hle := h.length_le
    have hlt := h.capacity_lt
    omega
  refine ⟨fun call column => call.failsAtomically column, ?_, ?_, ?_, ?_⟩
  · intro call source target hsource _
    exact call.failsAtomically (hlength hsource.wellFormed)
  · intro call pair hpair
    obtain ⟨hsource, -, hwidth⟩ := hpair.wellFormed
    exact call.failsAtomically hwidth (hlength hsource)
  · intro primitive call typed htyped hsource
    exact call.failsAtomically htyped.wellFormed.measured fun source hsome =>
      (hsource source hsome).wellFormed.measured
  · intro primitive call source target hsource htarget
    exact TypedColumn.handOver_failsAtomically call hsource.wellFormed.measured
      htarget.wellFormed.measured (hlength hsource.wellFormed.column)

/-- Columns under an allocator that grants values and refuses validity bits. Growing is refused
halfway, and so is allocating anew. A range past the end of a column is none of its ranges. -/
theorem calls_fail_atomically_of_refused_validity :
    let column := ((Column.Call.setGrowing 3 #[7, 0]).run .standard (Column.empty "a" .int16)).state
    let other := Column.empty "b" .int16
    let typed : TypedColumn .int16 := TypedColumn.empty "c"
    let refusing : Allocator := ⟨fun buffer _ => buffer != .validity⟩
    let grown := (Column.Call.setGrowing 8 #[9, 0]).run refusing column
    let renewed := (Column.Call.allocateNewWith 2).run refusing column
    let copied := (Column.PairCall.copyValue 3 0).run refusing ⟨column, other⟩
    let split := (Column.Handover.splitAndTransfer 2 3).run refusing ⟨column, other⟩
    let typedGrown := (TypedColumn.Call.setNullGrowing 0).run refusing typed
    let typedSplit := TypedColumn.handOver (.splitAndTransfer 0 1) refusing ⟨typed, typed⟩
    (grown.answer = .error (.error (.raised .allocationRefused)) ∧ grown.state = column) ∧
      (renewed.answer = .error (.error (.raised .allocationRefused)) ∧
        renewed.state = column.cleared) ∧
      (copied.answer = .error (.error (.raised .allocationRefused)) ∧
        copied.state = ⟨column, other⟩) ∧
      (split.answer = .error (.error (.raised (.splitOutOfBounds 2 5 "a" 4))) ∧
        split.state = ⟨column, other⟩) ∧
      (typedGrown.answer = .error (.error (.raised .allocationRefused)) ∧
        typedGrown.state = typed) ∧
      typedSplit.answer = .error (.error (.raised (.splitOutOfBounds 0 1 "c" 0))) ∧
        typedSplit.state = ⟨typed, typed⟩ := by
  intro column other typed refusing grown renewed copied split typedGrown typedSplit
  have hcolumn : Reachable (.column column) :=
    .call (.setGrowing 3 #[7, 0]) Allocator.isBounded_standard (.empty "a" .int16)
      (by rintro _ ⟨⟩)
  have hother : Reachable (.column other) := .empty "b" .int16
  have hpair : Reachable (.pair ⟨column, other⟩) := .pair hcolumn hother rfl
  have htyped : Reachable (.typed typed) := .typedEmpty "c"
  obtain ⟨hcall, hhandover, hpairCall, htypedCall, htypedHandover⟩ := calls_fail_atomically
  have hgrown : grown.answer = .error (.error (.raised .allocationRefused)) := rfl
  have hrenewed : renewed.answer = .error (.error (.raised .allocationRefused)) := rfl
  have hcopied : copied.answer = .error (.error (.raised .allocationRefused)) := rfl
  have hsplit : split.answer = .error (.error (.raised (.splitOutOfBounds 2 5 "a" 4))) := rfl
  have htypedGrown : typedGrown.answer = .error (.error (.raised .allocationRefused)) := rfl
  have htypedSplit : typedSplit.answer =
      .error (.error (.raised (.splitOutOfBounds 0 1 "c" 0))) := rfl
  refine ⟨⟨hgrown, ?_⟩, ⟨hrenewed, ?_⟩, ⟨hcopied, ?_⟩, ⟨hsplit, ?_⟩, ⟨htypedGrown, ?_⟩,
    htypedSplit, ?_⟩
  · exact ((hcall _ column).left_eq refusing _ hgrown).1
  · exact ((hcall _ column).left_eq refusing _ hrenewed).1
  · exact ((hpairCall _ _ hpair).left_eq refusing _ hcopied).1
  · exact ((hhandover _ column other hcolumn hother).left_eq refusing _ hsplit).1
  · exact ((htypedCall _ typed htyped (by rintro _ ⟨⟩)).left_eq refusing _ htypedGrown).1
  · exact ((htypedHandover _ typed typed htyped htyped).left_eq refusing _ htypedSplit).1

end Object

end Columnar
