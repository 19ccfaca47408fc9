import Columnar.Bytes
import Columnar.Error

/-!
# Failures and checked sizes

A call ends with a value, with an error that its caller can handle, or with a breach: the caller
broke a promise, or a size left the 64 bits that it is counted in.
-/

namespace Columnar

/-- A promise that a caller broke. -/
inductive Breach where
  /-- A slot past the capacity of a column was to be written. -/
  | slotOutOfCapacity (index capacity : Nat) (name : String)
  /-- A bit past the end of its bytes was addressed. -/
  | bitOutOfRange
  /-- A stretch of bytes that is not part of its buffer was addressed. -/
  | stretchOutOfRange
  /-- Two stretches of bytes that must be of one length are not. -/
  | lengthMismatch
  /-- A size left the range of 64 bits. -/
  | sizeOverflow
  /-- A message without metadata, which reads as the end of a stream, was to be written. -/
  | emptyMetadata
  deriving DecidableEq

/-- What the breach says of itself, if it has words. -/
def Breach.message? : Breach → Option String
  | slotOutOfCapacity index capacity name =>
    some s!"index {index} is out of capacity {capacity} of '{name}'"
  | _ => none

/-- Why a call has no value. -/
inductive Failure where
  | error (error : Error)
  | breach (breach : Breach)
  deriving DecidableEq

/-- A value, or the reason why there is none. -/
abbrev Result := Except Failure

section

variable {m : Type → Type} [MonadExceptOf Failure m] {α : Type}

/-- Ends a call with an error. -/
def fail (error : Error) : m α :=
  throw (Failure.error error)

/-- Ends a call with the error of a cause. -/
def raise (cause : Cause) : m α :=
  fail (.raised cause)

/-- Ends a call with a breach. -/
def breach (reason : Breach) : m α :=
  throw (Failure.breach reason)

end

namespace Size

/-- One more than the largest number of 64 bits, and so than the largest size. -/
def bound : Nat := 0x10000000000000000

/-- The sum of two sizes. -/
def add (a b : Nat) : Result Nat :=
  if a + b < bound then pure (a + b) else breach .sizeOverflow

/-- The product of two sizes. -/
def mul (a b : Nat) : Result Nat :=
  if a * b < bound then pure (a * b) else breach .sizeOverflow

/-- The difference of two sizes. -/
def sub (a b : Nat) : Result Nat :=
  if b ≤ a then pure (a - b) else breach .sizeOverflow

theorem add_eq_ok {a b : Nat} (h : a + b < bound) : add a b = .ok (a + b) := by
  simp [add, h, pure, Except.pure]

theorem mul_eq_ok {a b : Nat} (h : a * b < bound) : mul a b = .ok (a * b) := by
  simp [mul, h, pure, Except.pure]

theorem sub_eq_ok {a b : Nat} (h : b ≤ a) : sub a b = .ok (a - b) := by
  simp [sub, h, pure, Except.pure]

end Size

/-- The bytes of a buffer from `start` up to `stop`. -/
def Bytes.stretch (bytes : Bytes) (start stop : Nat) : Result Bytes :=
  if start ≤ stop ∧ stop ≤ bytes.size then pure (bytes.extract start stop)
  else breach .stretchOutOfRange

theorem Bytes.stretch_eq_ok {bytes : Bytes} {start stop : Nat} (h : start ≤ stop)
    (hstop : stop ≤ bytes.size) : bytes.stretch start stop = .ok (bytes.extract start stop) := by
  simp [Bytes.stretch, h, hstop, pure, Except.pure]

end Columnar
