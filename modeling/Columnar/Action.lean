import Columnar.Event
import Columnar.Failure

/-!
# Calls that change something

An `Action` on a state has an answer, a state that it leaves, also when it fails, and events. It
asks an `Allocator` for memory, which is a parameter and may refuse in any way.
-/

namespace Columnar

/-- What a buffer is for. -/
inductive Buffer where
  | values
  | validity
  | body
  deriving DecidableEq

/-- Decides which requests for memory are granted. -/
structure Allocator where
  /-- Whether a buffer of the given size in bytes is granted. -/
  grants : Buffer → Nat → Bool

namespace Allocator

/-- The largest size that a buffer can have on any machine. -/
def maxSize : Nat := 0x7fffffffffffffff

/-- The sizes from which on memory is never granted. -/
def standardLimit : Nat := 0x1000000000000

/-- Grants every buffer of fewer than `standardLimit` bytes and no other. -/
def standard : Allocator where
  grants _ size := decide (size < standardLimit)

end Allocator

/-- What a call leaves behind. -/
structure Outcome (σ α : Type) where
  answer : Result α
  state : σ
  events : List Event

/-- A call on a state of type `σ` whose answer is of type `α`. -/
def Action (σ α : Type) : Type :=
  Allocator → σ → Outcome σ α

namespace Action

variable {σ τ α β : Type}

def run (action : Action σ α) (allocator : Allocator) (state : σ) : Outcome σ α :=
  action allocator state

protected def pure (answer : α) : Action σ α :=
  fun _ state => ⟨.ok answer, state, []⟩

/-- Goes on with `next` from the state that `first` left, unless `first` failed. -/
protected def bind (first : Action σ α) (next : α → Action σ β) : Action σ β :=
  fun allocator state =>
    match first allocator state with
    | ⟨.ok answer, state, events⟩ =>
      let rest := next answer allocator state
      ⟨rest.answer, rest.state, events ++ rest.events⟩
    | ⟨.error failure, state, events⟩ => ⟨.error failure, state, events⟩

instance : Monad (Action σ) where
  pure := Action.pure
  bind := Action.bind

/-- An answer that was found without looking at the state. -/
def ofResult (result : Result α) : Action σ α :=
  fun _ state => ⟨result, state, []⟩

instance : MonadLift Result (Action σ) where
  monadLift := ofResult

/-- Goes on with `handler` from the state that a failed call left. -/
def onFailure (action : Action σ α) (handler : Failure → Action σ α) : Action σ α :=
  fun allocator state =>
    match action allocator state with
    | ⟨.ok answer, state, events⟩ => ⟨.ok answer, state, events⟩
    | ⟨.error failure, state, events⟩ =>
      let rest := handler failure allocator state
      ⟨rest.answer, rest.state, events ++ rest.events⟩

instance : MonadExceptOf Failure (Action σ) where
  throw failure := ofResult (.error failure)
  tryCatch := onFailure

instance : MonadStateOf σ (Action σ) where
  get := fun _ state => ⟨.ok state, state, []⟩
  set state := fun _ _ => ⟨.ok (), state, []⟩
  modifyGet change := fun _ state =>
    let (answer, state) := change state
    ⟨.ok answer, state, []⟩

/-- Reports an event. -/
def report (event : Event) : Action σ Unit :=
  fun _ state => ⟨.ok (), state, [event]⟩

/-- Makes a buffer of `held` bytes fit to hold `size` bytes. Nothing is asked of the
allocator if it already is. -/
def reserve (buffer : Buffer) (held size : Nat) : Action σ Unit :=
  fun allocator state =>
    let answer : Result Unit :=
      if size ≤ held then .ok ()
      else if Allocator.maxSize < size then raise .capacityOverflow
      else if allocator.grants buffer size then .ok ()
      else raise .allocationRefused
    ⟨answer, state, []⟩

/-- The answer of a call, or the error it ended with. A breach stays a breach. -/
def attempt (action : Action σ α) : Action σ (Except Error α) :=
  fun allocator state =>
    match action allocator state with
    | ⟨.ok answer, state, events⟩ => ⟨.ok (.ok answer), state, events⟩
    | ⟨.error (.error error), state, events⟩ => ⟨.ok (.error error), state, events⟩
    | ⟨.error (.breach reason), state, events⟩ => ⟨.error (.breach reason), state, events⟩

/-- An action on the part of the state that `part` selects and `replace` puts back. -/
def onPart (part : σ → τ) (replace : σ → τ → σ) (action : Action τ α) : Action σ α :=
  fun allocator state =>
    let inner := action allocator (part state)
    ⟨inner.answer, replace state inner.state, inner.events⟩

/-- Makes an object out of `start`. If that fails there is no object. -/
def build (start : τ) (action : Action τ Unit) : Action σ τ :=
  fun allocator state =>
    let made := action allocator start
    ⟨made.answer.map fun _ => made.state, state, made.events⟩

/-- Calls in sequence can be grouped in any way. -/
instance : LawfulMonad (Action σ) :=
  LawfulMonad.mk' (Action σ)
    (fun action => by
      funext allocator state
      rcases h : action allocator state with ⟨_ | _, _, _⟩ <;>
        simp [Functor.map, Action.bind, Action.pure, h])
    (fun answer next => by
      funext allocator state
      simp [bind, pure, Action.bind, Action.pure])
    (fun action next last => by
      funext allocator state
      simp only [bind, Action.bind]
      rcases action allocator state with ⟨_ | answer, after, events⟩
      · rfl
      · rcases h : next answer allocator after with ⟨_ | _, _, _⟩ <;> simp [h])

/-- A sequence whose first call answers leaves what the second leaves, after the events of
both. -/
theorem bind_apply_ok {first : Action σ α} {next : α → Action σ β} {allocator : Allocator}
    {state after : σ} {answer : α} {events : List Event}
    (h : first allocator state = ⟨.ok answer, after, events⟩) :
    (first >>= next) allocator state =
      { next answer allocator after with
        events := events ++ (next answer allocator after).events } := by
  simp only [bind, Action.bind, h]

/-- A sequence whose first call fails leaves what the first leaves. -/
theorem bind_apply_error {first : Action σ α} {next : α → Action σ β} {allocator : Allocator}
    {state after : σ} {failure : Failure} {events : List Event}
    (h : first allocator state = ⟨.error failure, after, events⟩) :
    (first >>= next) allocator state = ⟨.error failure, after, events⟩ := by
  simp only [bind, Action.bind, h]

@[simp] theorem pure_apply (answer : α) (allocator : Allocator) (state : σ) :
    (pure answer : Action σ α) allocator state = ⟨.ok answer, state, []⟩ :=
  rfl

@[simp] theorem modify_apply (change : σ → σ) (allocator : Allocator) (state : σ) :
    (modify change : Action σ Unit) allocator state = ⟨.ok (), change state, []⟩ :=
  rfl

end Action

end Columnar
