import Columnar.Proofs.Bitmap

/-!
# Running short of memory

A call asks for all memory that it needs before it changes something, and no error is possible from
there on. Both facts are carried along the text of a call here.
-/

namespace Columnar

/-- The failure is a broken promise and not an error. -/
def Failure.IsBreach (failure : Failure) : Prop :=
  ∃ reason, failure = .breach reason

/-- A result that can only be missing because a promise was broken. -/
abbrev Result.IsErrorFree {α : Type} (result : Result α) : Prop :=
  result.FailsWith Failure.IsBreach

theorem Result.isErrorFree_breach {α : Type} (reason : Breach) :
    (breach reason : Result α).IsErrorFree :=
  failsWith_breach ⟨reason, rfl⟩

theorem Result.isErrorFree_mapM {α β : Type} {call : α → Result β} {list : List α}
    (h : ∀ x, (call x).IsErrorFree) : (list.mapM call).IsErrorFree := by
  induction list with
  | nil => exact failsWith_ok _
  | cons x rest ih =>
    rw [List.mapM_cons]
    exact (h x).bind fun _ => ih.bind fun _ => failsWith_ok _

namespace Size

variable (a b : Nat)

theorem isErrorFree_add : (add a b).IsErrorFree := by
  rw [add]
  split
  · exact Result.failsWith_ok _
  · exact Result.isErrorFree_breach _

theorem isErrorFree_mul : (mul a b).IsErrorFree := by
  rw [mul]
  split
  · exact Result.failsWith_ok _
  · exact Result.isErrorFree_breach _

theorem isErrorFree_sub : (sub a b).IsErrorFree := by
  rw [sub]
  split
  · exact Result.failsWith_ok _
  · exact Result.isErrorFree_breach _

end Size

theorem Bytes.isErrorFree_stretch (bytes : Bytes) (start stop : Nat) :
    (bytes.stretch start stop).IsErrorFree := by
  rw [Bytes.stretch]
  split
  · exact Result.failsWith_ok _
  · exact Result.isErrorFree_breach _

namespace Bits

theorem isErrorFree_get (bytes : Bytes) (i : Nat) : (Bits.get bytes i).IsErrorFree := by
  rw [Bits.get]
  split
  · exact Result.failsWith_ok _
  · exact Result.isErrorFree_breach _

theorem isErrorFree_put (bytes : Bytes) (i : Nat) (value : Bool) :
    (put bytes i value).IsErrorFree := by
  rw [put]
  split
  · exact Result.failsWith_ok _
  · exact Result.isErrorFree_breach _

theorem isErrorFree_straddling (bytes : Bytes) (first shift j : Nat) :
    (straddling bytes first shift j).IsErrorFree := by
  rw [straddling]
  split
  · split
    · exact Result.failsWith_ok _
    · exact Result.failsWith_ok _
  · exact Result.isErrorFree_breach _

theorem isErrorFree_copyToStart (source : Bytes) (offset length : Nat) (target : Bytes) :
    (copyToStart source offset length target).IsErrorFree := by
  rw [copyToStart]
  split
  · exact Result.failsWith_ok _
  refine (Size.isErrorFree_add _ _).bind fun stop => (Size.isErrorFree_mul _ _).bind fun count => ?_
  by_cases hstop : stop ≤ count
  · by_cases hcount : bytesFor length ≤ target.size
    · simp only [if_pos hstop, if_pos hcount]
      exact (Result.isErrorFree_mapM fun _ => isErrorFree_straddling _ _ _ _).bind fun _ =>
        Result.failsWith_ok _
    · simp only [if_pos hstop, if_neg hcount]
      exact Result.isErrorFree_breach _
  · simp only [if_neg hstop]
    exact Result.isErrorFree_breach _

end Bits

namespace Bitmap

variable (bitmap : Bitmap)

theorem isErrorFree_put (index : Nat) (value : Bool) : (bitmap.put index value).IsErrorFree :=
  (Bits.isErrorFree_put _ _ _).bind fun _ => Result.failsWith_ok _

theorem isErrorFree_putRun (value : Bool) (start count : Nat) :
    (bitmap.putRun value start count).IsErrorFree := by
  induction count generalizing bitmap start with
  | zero => exact Result.failsWith_ok _
  | succ count ih => exact (bitmap.isErrorFree_put start value).bind fun put => ih put (start + 1)

end Bitmap

/-- An error of the call says that memory was refused. The call then left `left` and reported
nothing. -/
def Outcome.FailsShort {σ α : Type} (outcome : Outcome σ α) (left : σ) : Prop :=
  ∀ error, outcome.answer = .error (.error error) →
    outcome = ⟨.error (.error error), left, []⟩ ∧ error.kind = .caused .outOfMemory

/-- How a call fails does not depend on the type of the answer it would have given. -/
theorem Outcome.FailsShort.of_error {σ α β : Type} {failure : Failure} {left after : σ}
    {events : List Event} (h : (⟨.error failure, after, events⟩ : Outcome σ α).FailsShort left) :
    (⟨.error failure, after, events⟩ : Outcome σ β).FailsShort left := by
  rintro error ⟨⟩
  obtain ⟨hsame, hkind⟩ := h error rfl
  cases hsame
  exact ⟨rfl, hkind⟩

namespace Action

variable {σ τ α β : Type} {allocator : Allocator} {state left : σ}

/-- Memory that was refused is what the error says. -/
theorem reserve_kind {buffer : Buffer} {held size : Nat} {cause : Cause}
    (h : (reserve buffer held size allocator state).answer = .error (.error (.raised cause))) :
    cause.kind = .outOfMemory := by
  simp only [reserve] at h
  split at h
  · cases h
  · split at h
    · cases h
      rfl
    · split at h
      · cases h
      · cases h
        rfl

theorem failsShort_of_isErrorFree {outcome : Outcome σ α} (h : outcome.answer.IsErrorFree) :
    outcome.FailsShort left := by
  intro error herror
  obtain ⟨reason, hreason⟩ := h _ herror
  cases hreason

theorem failsShort_of_ok {outcome : Outcome σ α} {answer : α} (h : outcome.answer = .ok answer) :
    outcome.FailsShort left := by
  intro error herror
  rw [h] at herror
  cases herror

/-- A call that can no longer fail with an error follows one that may run short of memory. -/
theorem failsShort_bind {first : Action σ α} {next : α → Action σ β}
    (hfirst : (first allocator state).FailsShort left)
    (hnext : ∀ value after, (next value allocator after).answer.IsErrorFree) :
    ((first >>= next) allocator state).FailsShort left := by
  rcases hcase : first allocator state with ⟨failure | value, after, events⟩
  · rw [bind_apply_error hcase]
    rw [hcase] at hfirst
    exact hfirst.of_error
  · rw [bind_apply_ok hcase]
    exact failsShort_of_isErrorFree (hnext value after)

theorem reserve_failsShort (buffer : Buffer) (held size : Nat) :
    (reserve buffer held size allocator state).FailsShort state := by
  obtain ⟨hok, -⟩ | ⟨cause, hrefused⟩ := reserve_cases allocator buffer held size state
  · exact failsShort_of_ok (congrArg Outcome.answer hok)
  · rw [hrefused]
    rintro error ⟨⟩
    exact ⟨rfl, congrArg ErrorKind.caused (reserve_kind (congrArg Outcome.answer hrefused))⟩

/-- Nothing is lost when a call fails after another that changes and reports nothing. -/
theorem failsShort_bind_of_idle {first : Action σ α} {next : α → Action σ β}
    (hfirst : (first allocator state).FailsShort state)
    (hstate : (first allocator state).state = state)
    (hevents : (first allocator state).events = [])
    (hnext : ∀ value, (next value allocator state).FailsShort state) :
    ((first >>= next) allocator state).FailsShort state := by
  rcases hcase : first allocator state with ⟨failure | value, after, events⟩
  · rw [bind_apply_error hcase]
    rw [hcase] at hfirst
    exact hfirst.of_error
  · rw [hcase] at hstate hevents
    obtain rfl : after = state := hstate
    obtain rfl : events = [] := hevents
    rw [bind_of_ok hcase]
    exact hnext value

theorem failsShort_onPart {part : σ → τ} {replace : σ → τ → σ} {action : Action τ α}
    {inner : τ} (h : (action allocator (part state)).FailsShort inner) :
    (onPart part replace action allocator state).FailsShort (replace state inner) := by
  intro error herror
  obtain ⟨hsame, hkind⟩ := h error herror
  exact ⟨onPart_apply hsame, hkind⟩

theorem failsShort_build {start : τ} {action : Action τ Unit} {inner : τ}
    (h : (action allocator start).FailsShort inner) :
    (build start action allocator state).FailsShort state := by
  intro error herror
  rw [build] at herror ⊢
  cases hanswer : (action allocator start).answer with
  | ok _ =>
    rw [hanswer] at herror
    cases herror
  | error failure =>
    rw [hanswer] at herror
    cases herror
    obtain ⟨hsame, hkind⟩ := h error hanswer
    rw [hsame]
    exact ⟨rfl, hkind⟩

end Action

namespace Bitmap

variable {σ : Type} (allocator : Allocator) (bitmap : Bitmap)

theorem ensureCapacity_failsShort (bits : Nat) :
    (ensureCapacity bits allocator bitmap).FailsShort bitmap := by
  unfold ensureCapacity
  rw [Action.get_bind]
  by_cases hheld : bitmap.bytes.size < Bits.bytesFor bits
  · simp only [if_pos hheld]
    exact Action.failsShort_bind (Action.reserve_failsShort _ _ _) fun _ _ => Result.failsWith_ok _
  · simp only [if_neg hheld]
    exact Action.failsShort_of_ok rfl

theorem slice_failsShort (offset length : Nat) (state : σ) :
    (bitmap.slice offset length allocator state).FailsShort state := by
  apply Action.failsShort_bind
  · exact Action.failsShort_build (ensureCapacity_failsShort allocator empty length)
  · intro blank after
    exact Action.failsWith_bind (Bits.isErrorFree_copyToStart _ _ _ _) fun _ _ =>
      Result.failsWith_ok _

/-- Nothing is reported of a stretch of bits. -/
theorem events_slice (offset length : Nat) (state : σ) :
    (bitmap.slice offset length allocator state).events = [] := by
  obtain ⟨hblank, -⟩ | ⟨cause, hrefused⟩ := withCapacity_cases allocator length state
  · rw [slice_of_blank hblank]
  · rw [slice, Action.bind_apply_error hrefused]

end Bitmap

end Columnar
