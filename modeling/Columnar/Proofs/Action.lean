import Columnar.Action

/-!
# Running calls step by step

What a bind does whose first call is one of the primitives, so that a proof about a call follows its
text from one line to the next.
-/

namespace Columnar

namespace Allocator

/-- No buffer of `standardLimit` bytes or more is ever granted. -/
def IsBounded (allocator : Allocator) : Prop :=
  ∀ buffer size, allocator.grants buffer size = true → size < standardLimit

theorem isBounded_standard : standard.IsBounded := by
  intro _ _ h
  simpa [standard] using h

/-- A new buffer of the size can be had: it takes no memory, or as much as a buffer can have and
as is granted. -/
def Allows (allocator : Allocator) (buffer : Buffer) (size : Nat) : Prop :=
  size = 0 ∨ size ≤ maxSize ∧ allocator.grants buffer size = true

theorem Allows.le_maxSize {allocator : Allocator} {buffer : Buffer} {size : Nat}
    (h : allocator.Allows buffer size) : size ≤ maxSize := by
  obtain rfl | ⟨hmax, -⟩ := h
  · exact Nat.zero_le _
  · exact hmax

theorem allows_standard_iff {buffer : Buffer} {size : Nat} :
    standard.Allows buffer size ↔ size < standardLimit := by
  show size = 0 ∨ size ≤ maxSize ∧ decide (size < standardLimit) = true ↔ size < standardLimit
  rw [decide_eq_true_eq]
  simp only [maxSize, standardLimit]
  omega

end Allocator

@[simp] theorem ok_bind {α β : Type} (value : α) (next : α → Result β) :
    ((Except.ok value : Result α) >>= next) = next value :=
  rfl

@[simp] theorem error_bind {α β : Type} (failure : Failure) (next : α → Result β) :
    ((Except.error failure : Result α) >>= next) = .error failure :=
  rfl

@[simp] theorem pure_eq_ok {α : Type} (value : α) : (pure value : Result α) = .ok value :=
  rfl

@[simp] theorem raise_eq_error {α : Type} (cause : Cause) :
    (raise cause : Result α) = .error (.error (.raised cause)) :=
  rfl

/-- A sequence of two results has a value exactly if both have. -/
theorem bind_eq_ok_iff {α β : Type} {first : Result α} {next : α → Result β} {answer : β} :
    (first >>= next) = .ok answer ↔ ∃ value, first = .ok value ∧ next value = .ok answer := by
  cases first with
  | ok value => simp
  | error failure => simp

/-- The failure is an error, which the caller can handle. -/
def Failure.IsError (failure : Failure) : Prop :=
  ∃ error, failure = .error error

namespace Result

variable {α β : Type} {allowed : Failure → Prop}

/-- If there is no value, the reason is one of those allowed. -/
def FailsWith (allowed : Failure → Prop) (result : Result α) : Prop :=
  ∀ failure, result = .error failure → allowed failure

theorem failsWith_ok (value : α) : FailsWith allowed (.ok value : Result α) := by
  rintro failure ⟨⟩

theorem failsWith_raise {cause : Cause} (h : allowed (.error (.raised cause))) :
    FailsWith allowed (raise cause : Result α) := by
  rintro failure ⟨⟩
  exact h

theorem failsWith_breach {reason : Breach} (h : allowed (.breach reason)) :
    FailsWith allowed (breach reason : Result α) := by
  rintro failure ⟨⟩
  exact h

theorem FailsWith.mono {more : Failure → Prop} {result : Result α}
    (h : result.FailsWith allowed) (hmore : ∀ failure, allowed failure → more failure) :
    result.FailsWith more :=
  fun failure hfailure => hmore failure (h failure hfailure)

theorem FailsWith.bind {first : Result α} {next : α → Result β} (hfirst : FailsWith allowed first)
    (hnext : ∀ value, FailsWith allowed (next value)) : FailsWith allowed (first >>= next) := by
  cases first with
  | ok value => exact hnext value
  | error failure =>
    rintro _ ⟨⟩
    exact hfirst failure rfl

end Result

namespace Size

/-- The size itself if 64 bits can count it. -/
def checked (size : Nat) : Result Nat :=
  if size < bound then pure size else breach .sizeOverflow

theorem checked_of_lt {size : Nat} (h : size < bound) : checked size = .ok size :=
  if_pos h

theorem checked_of_le {size : Nat} (h : bound ≤ size) :
    checked size = .error (.breach .sizeOverflow) :=
  if_neg (Nat.not_lt_of_le h)

theorem add_eq_checked (a b : Nat) : add a b = checked (a + b) :=
  rfl

theorem mul_eq_checked (a b : Nat) : mul a b = checked (a * b) :=
  rfl

theorem add_of_le {a b : Nat} (h : bound ≤ a + b) : add a b = .error (.breach .sizeOverflow) :=
  checked_of_le h

/-- To check a size and then a sum with it is to check the sum. -/
theorem checked_bind_add (a b : Nat) :
    (checked a >>= fun size => add size b) = checked (a + b) := by
  by_cases ha : a < bound
  · rw [checked_of_lt ha, ok_bind, add_eq_checked]
  · rw [checked_of_le (by omega), error_bind, checked_of_le (by omega)]

theorem checked_bind_add_left (a b : Nat) :
    (checked b >>= fun size => add a size) = checked (a + b) := by
  simp only [add, Nat.add_comm a]
  exact checked_bind_add b a

end Size

namespace Action

variable {σ τ α β : Type} {allocator : Allocator} {state : σ}

@[simp] theorem liftM_apply (result : Result α) :
    (liftM result : Action σ α) allocator state = ⟨result, state, []⟩ :=
  rfl

@[simp] theorem getThe_bind (next : σ → Action σ β) :
    (getThe σ >>= next) allocator state = next state allocator state :=
  rfl

@[simp] theorem get_bind (next : σ → Action σ β) :
    ((get : Action σ σ) >>= next) allocator state = next state allocator state :=
  rfl

@[simp] theorem modify_bind (change : σ → σ) (next : PUnit → Action σ β) :
    (modify change >>= next) allocator state = next ⟨⟩ allocator (change state) :=
  rfl

@[simp] theorem liftM_ok_bind (value : α) (next : α → Action σ β) :
    ((liftM (Except.ok value : Result α) : Action σ α) >>= next) allocator state =
      next value allocator state :=
  rfl

@[simp] theorem liftM_error_bind (failure : Failure) (next : α → Action σ β) :
    ((liftM (Except.error failure : Result α) : Action σ α) >>= next) allocator state =
      ⟨.error failure, state, []⟩ :=
  rfl

@[simp] theorem raise_bind (cause : Cause) (next : α → Action σ β) :
    ((raise cause : Action σ α) >>= next) allocator state =
      ⟨.error (.error (.raised cause)), state, []⟩ :=
  rfl

@[simp] theorem breach_bind (reason : Breach) (next : α → Action σ β) :
    ((breach reason : Action σ α) >>= next) allocator state =
      ⟨.error (.breach reason), state, []⟩ :=
  rfl

@[simp] theorem report_bind (event : Event) (next : Unit → Action σ β) :
    (report event >>= next) allocator state =
      { next () allocator state with events := event :: (next () allocator state).events } :=
  rfl

/-- A sequence whose first call changes nothing but answers. -/
theorem bind_of_ok {first : Action σ α} {next : α → Action σ β} {after : σ} {answer : α}
    (h : first allocator state = ⟨.ok answer, after, []⟩) :
    (first >>= next) allocator state = next answer allocator after := by
  rw [bind_apply_ok h]
  rfl

theorem attempt_of_ok {action : Action σ α} {after : σ} {answer : α} {events : List Event}
    (h : action allocator state = ⟨.ok answer, after, events⟩) :
    attempt action allocator state = ⟨.ok (.ok answer), after, events⟩ := by
  rw [attempt, h]

/-- An error is an answer of the attempt, a breach is not. -/
theorem attempt_of_error {action : Action σ α} {after : σ} {error : Error} {events : List Event}
    (h : action allocator state = ⟨.error (.error error), after, events⟩) :
    attempt action allocator state = ⟨.ok (.error error), after, events⟩ := by
  rw [attempt, h]

theorem attempt_of_breach {action : Action σ α} {after : σ} {reason : Breach}
    {events : List Event} (h : action allocator state = ⟨.error (.breach reason), after, events⟩) :
    attempt action allocator state = ⟨.error (.breach reason), after, events⟩ := by
  rw [attempt, h]

theorem onPart_apply {part : σ → τ} {replace : σ → τ → σ} {action : Action τ α} {after : τ}
    {answer : Result α} {events : List Event}
    (h : action allocator (part state) = ⟨answer, after, events⟩) :
    onPart part replace action allocator state = ⟨answer, replace state after, events⟩ := by
  simp only [onPart, h]

theorem build_of_ok {start made : τ} {action : Action τ Unit} {events : List Event}
    (h : action allocator start = ⟨.ok (), made, events⟩) :
    build start action allocator state = ⟨.ok made, state, events⟩ := by
  rw [build, h]
  rfl

theorem build_of_error {start left : τ} {action : Action τ Unit} {failure : Failure}
    {events : List Event} (h : action allocator start = ⟨.error failure, left, events⟩) :
    build start action allocator state = ⟨.error failure, state, events⟩ := by
  rw [build, h]
  rfl

/-- An object was made if the call that completes it answered, and is what that call left. -/
theorem build_eq_ok {start made : τ} {action : Action τ Unit}
    (h : (build start action allocator state).answer = .ok made) :
    (action allocator start).answer = .ok () ∧ (action allocator start).state = made := by
  rw [build] at h
  cases hanswer : (action allocator start).answer with
  | error failure =>
    rw [hanswer] at h
    cases h
  | ok _ =>
    rw [hanswer] at h
    exact ⟨rfl, Except.ok.inj h⟩

/-- A call whose answer is changed does nothing else than the call. -/
theorem bind_pure_apply (first : Action σ α) (change : α → β) :
    (first >>= fun answer => pure (change answer)) allocator state =
      ⟨(first allocator state).answer.map change, (first allocator state).state,
        (first allocator state).events⟩ := by
  rcases hfirst : first allocator state with ⟨failure | answer, after, events⟩
  · rw [bind_apply_error hfirst]
    rfl
  · rw [bind_apply_ok hfirst, pure_apply, List.append_nil]
    rfl

theorem bind_answer_eq_ok {first : Action σ α} {next : α → Action σ β} {answer : β}
    (h : ((first >>= next) allocator state).answer = .ok answer) :
    ∃ value, (first allocator state).answer = .ok value ∧
      (next value allocator (first allocator state).state).answer = .ok answer := by
  rcases hfirst : first allocator state with ⟨failure | value, after, events⟩
  · rw [bind_apply_error hfirst] at h
    cases h
  · rw [bind_apply_ok hfirst] at h
    exact ⟨value, rfl, h⟩

/-- A sequence of two calls fails as one of them does. -/
theorem failsWith_bind {allowed : Failure → Prop} {first : Action σ α} {next : α → Action σ β}
    (hfirst : (first allocator state).answer.FailsWith allowed)
    (hnext : ∀ value state, (next value allocator state).answer.FailsWith allowed) :
    ((first >>= next) allocator state).answer.FailsWith allowed := by
  rcases hcase : first allocator state with ⟨failure | value, after, events⟩
  · rw [hcase] at hfirst
    rw [bind_apply_error hcase]
    rintro _ ⟨⟩
    exact hfirst failure rfl
  · rw [bind_apply_ok hcase]
    exact hnext value after

/-- Memory for a buffer is granted if there is enough of it already or if the allocator
grants a size that a buffer can have. Otherwise it is refused, and nothing has changed. -/
theorem reserve_cases (allocator : Allocator) (buffer : Buffer) (held size : Nat) (state : σ) :
    (reserve buffer held size allocator state = ⟨.ok (), state, []⟩ ∧
        (size ≤ held ∨ size ≤ Allocator.maxSize ∧ allocator.grants buffer size = true)) ∨
      ∃ cause, reserve buffer held size allocator state =
        ⟨.error (.error (.raised cause)), state, []⟩ := by
  unfold reserve
  by_cases hheld : size ≤ held
  · exact .inl ⟨by simp [hheld], .inl hheld⟩
  by_cases hmax : Allocator.maxSize < size
  · exact .inr ⟨.capacityOverflow, by simp [hheld, hmax]⟩
  by_cases hgrant : allocator.grants buffer size = true
  · exact .inl ⟨by simp [hheld, hmax, hgrant], .inr ⟨by omega, hgrant⟩⟩
  · exact .inr ⟨.allocationRefused, by simp [hheld, hmax, hgrant]⟩

/-- Memory is granted if there is enough of it or if a new buffer of the size can be had. -/
theorem reserve_of_allows {buffer : Buffer} {held size : Nat}
    (h : size ≤ held ∨ allocator.Allows buffer size) :
    reserve buffer held size allocator state = ⟨.ok (), state, []⟩ := by
  unfold reserve
  by_cases hheld : size ≤ held
  · rw [if_pos hheld]
  · obtain hfits | hnone | ⟨hmax, hgrant⟩ := h
    · exact absurd hfits hheld
    · omega
    · rw [if_neg hheld, if_neg (Nat.not_lt_of_le hmax), if_pos hgrant]

/-- A new buffer is granted exactly if it is allowed. -/
theorem reserve_zero_eq_ok_iff {buffer : Buffer} {size : Nat} :
    reserve buffer 0 size allocator state = ⟨.ok (), state, []⟩ ↔ allocator.Allows buffer size := by
  unfold reserve Allocator.Allows
  by_cases hnone : size = 0
  · simp [hnone]
  by_cases hmax : Allocator.maxSize < size
  · simp [hnone, hmax, Nat.not_le_of_lt hmax]
  by_cases hgrant : allocator.grants buffer size = true
  · simp [hmax, hgrant, Nat.le_of_not_lt hmax]
  · simp [hnone, hmax, hgrant]

end Action

end Columnar
