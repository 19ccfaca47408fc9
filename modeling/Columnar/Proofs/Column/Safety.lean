import Columnar.Proofs.Column.PairCall

/-! # Which calls on columns break a promise -/

namespace Columnar

theorem Failure.isError_raised (cause : Cause) : (Failure.error (.raised cause)).IsError :=
  ⟨_, rfl⟩

namespace Column

variable {column source : Column} {allocator : Allocator} {index position : Nat} {value : Bytes}

namespace WellFormed

/-- A null slot is an error. -/
theorem get_failsWith (h : column.WellFormed) (index : Nat) :
    (column.get index).FailsWith Failure.IsError := by
  rw [Column.get, h.get?_eq_ok, ok_bind]
  cases column.slot index with
  | none => exact Result.failsWith_raise (Failure.isError_raised _)
  | some bytes => exact Result.failsWith_ok bytes

end WellFormed

/-- The slot that the call writes to and takes to be within the capacity, if it comes to that:
a value must be of the right width, and a slot that is copied must not be null and come from a
column of the same width. -/
def Call.insistsOn? (call : Call) (column : Column) : Option Nat :=
  match call with
  | set index value | setOption index (some value) =>
    if column.width = value.size then some index else none
  | setNull index | setOption index none => some index
  | copyFrom source position index =>
    if column.width = source.width then
      match source.get? position with
      | .ok (some _) => some index
      | _ => none
    else none
  | _ => none

/-- A call that insists on a slot past the capacity has done nothing when it breaks off. -/
theorem Call.run_of_le (call : Call)
    (hinsists : call.insistsOn? column = some index) (hpast : column.capacity ≤ index) :
    call.run allocator column =
      ⟨.error (.breach (.slotOutOfCapacity index column.capacity column.name)), column, []⟩ := by
  have hset : ∀ {place : Nat} {value : Bytes},
      (if column.width = value.size then some place else none) = some index →
      Column.set place value allocator column =
        ⟨.error (.breach (.slotOutOfCapacity index column.capacity column.name)), column, []⟩ := by
    intro place value hplace
    by_cases hwidth : column.width = value.size
    · rw [if_pos hwidth] at hplace
      obtain rfl := Option.some.inj hplace
      rw [Column.set, Action.getThe_bind, checkWidth_of_eq hwidth, Action.liftM_ok_bind,
        writeValue_of_le hpast]
    · rw [if_neg hwidth] at hplace
      cases hplace
  cases call with
  | set place value => exact hset hinsists
  | setNull place =>
    obtain rfl := Option.some.inj hinsists
    exact setNull_of_le hpast
  | setOption place option =>
    cases option with
    | none =>
      obtain rfl := Option.some.inj hinsists
      exact setNull_of_le hpast
    | some value => exact hset hinsists
  | copyFrom source position place =>
    rw [insistsOn?] at hinsists
    by_cases hwidth : column.width = source.width
    · rw [if_pos hwidth] at hinsists
      rcases hread : source.get? position with failure | _ | value
      · rw [hread] at hinsists
        cases hinsists
      · rw [hread] at hinsists
        cases hinsists
      · rw [hread] at hinsists
        obtain rfl := Option.some.inj hinsists
        rw [run, Column.copyFrom, Action.getThe_bind, checkWidth_of_eq hwidth, Action.liftM_ok_bind,
          copySlot, hread, Action.liftM_ok_bind]
        exact writeValue_of_le hpast
    · rw [if_neg hwidth] at hinsists
      cases hinsists
  -- the other calls insist on no slot
  | _ => cases hinsists

theorem Succeeded.failsWith {outcome : Outcome Column Unit} {slots : List (Option Bytes)}
    {allowed : Failure → Prop} (h : Succeeded column outcome slots) :
    outcome.answer.FailsWith allowed := by
  rw [h.answer_eq]
  exact Result.failsWith_ok ()

theorem failsWith_checked {next : Unit → Action Column Unit} {width : Nat}
    (hnext : column.width = width →
      (next () allocator column).answer.FailsWith Failure.IsError) :
    ((liftM (column.checkWidth width) >>= next) allocator column).answer.FailsWith
      Failure.IsError := by
  by_cases hwidth : column.width = width
  · rw [checkWidth_of_eq hwidth]
    exact hnext hwidth
  · rw [checkWidth_of_ne hwidth]
    exact Result.failsWith_raise (Failure.isError_raised _)

theorem failsWith_afterRoom {next : Unit → Action Column Unit} (hallocator : allocator.IsBounded)
    (h : column.WellFormed)
    (hnext : ∀ roomy : Column, roomy.WellFormed → index < roomy.capacity →
      roomy.width = column.width →
      (next () allocator roomy).answer.FailsWith Failure.IsError) :
    ((makeRoom index >>= next) allocator column).answer.FailsWith Failure.IsError := by
  obtain ⟨hroom, hroomy⟩ | ⟨cause, hrefused⟩ := makeRoom_cases hallocator h index
  · rw [Action.bind_apply_ok hroom]
    exact hnext _ hroomy (lt_capacity_withRoom column index) (width_grow _ _)
  · rw [Action.bind_apply_error hrefused]
    exact Result.failsWith_raise (Failure.isError_raised cause)

theorem set_failsWith (h : column.WellFormed)
    (hin : column.width = value.size → index < column.capacity) :
    (Column.set index value allocator column).answer.FailsWith Failure.IsError :=
  failsWith_checked fun hwidth => (writeValue_succeeded h (hin hwidth) hwidth.symm).failsWith

theorem reallocateExact_failsWith (hallocator : allocator.IsBounded) (h : column.WellFormed)
    (capacity : Nat) :
    (reallocateExact capacity allocator column).answer.FailsWith Failure.IsError := by
  obtain ⟨hok, -⟩ | ⟨cause, hrefused⟩ := reallocateExact_cases hallocator h capacity
  · rw [hok]
    exact Result.failsWith_ok ()
  · rw [hrefused]
    exact Result.failsWith_raise (Failure.isError_raised cause)

theorem copyFromGrowing_failsWith (hallocator : allocator.IsBounded) (h : column.WellFormed)
    (hsource : source.WellFormed) (position index : Nat) :
    (copyFromGrowing source position index allocator column).answer.FailsWith Failure.IsError := by
  apply failsWith_checked
  intro hsame
  apply failsWith_afterRoom hallocator h
  intro roomy hroomy hindex hwidth
  exact (copySlot_succeeded hroomy hsource (hwidth.trans hsame) hindex).failsWith

/-- A call that insists on no slot past the capacity answers, or fails with an error. -/
theorem Call.run_failsWith (call : Call) (hallocator : allocator.IsBounded)
    (h : column.WellFormed)
    (hsource : ∀ source, call.source? = some source → source.WellFormed)
    (hin : ∀ index, call.insistsOn? column = some index → index < column.capacity) :
    (call.run allocator column).answer.FailsWith Failure.IsError := by
  cases call with
  | set index value => exact set_failsWith h fun hwidth => hin index (if_pos hwidth)
  | setGrowing index value =>
    apply failsWith_checked
    intro hvalue
    apply failsWith_afterRoom hallocator h
    intro roomy hroomy hindex hwidth
    exact (writeValue_succeeded hroomy hindex (hvalue.symm.trans hwidth.symm)).failsWith
  | setNull index => exact (setNull_succeeded h (hin index rfl)).failsWith
  | setNullGrowing index =>
    exact failsWith_afterRoom hallocator h fun _ hroomy hindex _ =>
      (setNull_succeeded hroomy hindex).failsWith
  | setOption index value =>
    cases value with
    | none => exact (setNull_succeeded h (hin index rfl)).failsWith
    | some value => exact set_failsWith h fun hwidth => hin index (if_pos hwidth)
  | setOptionGrowing index value =>
    cases value with
    | none =>
      exact failsWith_afterRoom hallocator h fun _ hroomy hindex _ =>
        (setNull_succeeded hroomy hindex).failsWith
    | some value =>
      apply failsWith_checked
      intro hvalue
      apply failsWith_afterRoom hallocator h
      intro roomy hroomy hindex _
      exact set_failsWith hroomy fun _ => hindex
  | copyFrom source position index =>
    have hsource := hsource source rfl
    apply failsWith_checked
    intro hwidth
    cases hslot : source.slot position with
    | none =>
      rw [copySlot_of_none hsource hslot]
      exact Result.failsWith_ok ()
    | some value =>
      -- only a value that is there makes the call insist on the index
      have hinsists : (Call.copyFrom source position index).insistsOn? column = some index := by
        rw [insistsOn?, if_pos hwidth, hsource.get?_eq_ok, hslot]
      exact (copySlot_succeeded h hsource hwidth (hin index hinsists)).failsWith
  | copyFromGrowing source position index =>
    exact copyFromGrowing_failsWith hallocator h (hsource source rfl) position index
  | reallocateExact capacity => exact reallocateExact_failsWith hallocator h capacity
  | allocateNew => exact reallocateExact_failsWith hallocator h.cleared column.initialCapacity
  | allocateNewWith capacity => exact reallocateExact_failsWith hallocator h.cleared capacity
  | setInitialCapacity capacity => exact Result.failsWith_ok ()
  | setLength count =>
    obtain ⟨hok, -⟩ | ⟨cause, hrefused⟩ := setLength_cases hallocator h count
    · rw [run, hok]
      exact Result.failsWith_ok ()
    · rw [run, hrefused]
      exact Result.failsWith_raise (Failure.isError_raised cause)
  | clear => exact Result.failsWith_ok ()

variable {pair : Pair Column}

/-- No call on a pair of one width breaks a promise. -/
theorem PairCall.run_failsWith (call : PairCall) (hallocator : allocator.IsBounded)
    (hsource : pair.source.WellFormed) (htarget : pair.target.WellFormed)
    (hwidth : pair.source.width = pair.target.width) :
    (call.run allocator pair).answer.FailsWith Failure.IsError := by
  cases call with
  | moveBuffers => exact Result.failsWith_ok ()
  | splitInto start length =>
    obtain ⟨part, hok, -⟩ | ⟨cause, hrefused⟩ :=
      splitInto_cases hallocator hsource htarget hwidth start length
    · rw [run, hok]
      exact Result.failsWith_ok ()
    · rw [run, hrefused]
      exact Result.failsWith_raise (Failure.isError_raised cause)
  | copyValue position index =>
    rw [run, copyValue_eq hwidth]
    exact copyFromGrowing_failsWith hallocator htarget hsource position index

theorem Handover.run_failsWith (call : Handover) (hallocator : allocator.IsBounded)
    (hsource : pair.source.WellFormed) (htarget : pair.target.WellFormed) :
    (call.run allocator pair).answer.FailsWith Failure.IsError := by
  by_cases hwidth : pair.source.width = pair.target.width
  · rw [call.run_of_eq hwidth]
    exact call.checked.run_failsWith hallocator hsource htarget hwidth
  · cases call with
    | transfer =>
      rw [run, transfer_of_ne hwidth]
      exact Result.failsWith_raise (Failure.isError_raised _)
    | splitAndTransfer start length =>
      rw [run, splitAndTransfer_of_ne hwidth]
      exact Result.failsWith_raise (Failure.isError_raised _)

theorem pair_failsWith (source target : Column) :
    (Column.pair source target).FailsWith Failure.IsError := by
  by_cases hwidth : target.width = source.width
  · rw [Column.pair, checkWidth_of_eq hwidth]
    exact Result.failsWith_ok _
  · rw [Column.pair, checkWidth_of_ne hwidth]
    exact Result.failsWith_raise (Failure.isError_raised _)

end Column

end Columnar
