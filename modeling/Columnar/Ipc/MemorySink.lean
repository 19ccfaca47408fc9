import Columnar.Ipc.Sink

/-!
# Sinks in memory

A sink in memory can be full, take few bytes at a time, ask for another try and fail to be flushed,
and so behaves as a pipe, a disk or a connection may.
-/

namespace Columnar.Ipc

/-- A sink that keeps what it is given. -/
structure MemorySink where
  /-- The bytes given so far. -/
  held : Bytes
  /-- How many bytes the sink takes in all, or no bound. -/
  capacity : Option Nat
  /-- How many bytes it takes at a time, or no bound. -/
  chunk : Option Nat
  /-- How many of the next offers it asks to be repeated. -/
  interrupts : Nat
  /-- Whether a full sink accepts no bytes instead of failing. -/
  acceptsNothingWhenFull : Bool
  flushFails : Bool
  error : IoError
  flushes : Nat

namespace MemorySink

/-- A sink without bounds that never fails. -/
protected def empty : MemorySink where
  held := #[]
  capacity := none
  chunk := none
  interrupts := 0
  acceptsNothingWhenFull := false
  flushFails := false
  error := ⟨.brokenPipe, none⟩
  flushes := 0

/-- `count`, or less if there is a lower bound. -/
def bounded (count : Nat) : (bound : Option Nat) → Nat
  | some bound => min count bound
  | none => count

theorem bounded_le (count : Nat) (bound : Option Nat) : bounded count bound ≤ count := by
  cases bound with
  | none => exact Nat.le_refl count
  | some bound => exact Nat.min_le_left count bound

/-- The number of bytes that the sink still takes, or no bound. -/
def room (sink : MemorySink) : Option Nat :=
  sink.capacity.map (· - sink.held.size)

/-- The number of bytes of an offer of `size` bytes that the sink takes at once. -/
def share (sink : MemorySink) (size : Nat) : Nat :=
  bounded (bounded size sink.room) sink.chunk

/-- Takes a share of the bytes offered. -/
def write (sink : MemorySink) (bytes : Bytes) : Reply × MemorySink :=
  if 0 < sink.interrupts then
    (.interrupted, { sink with interrupts := sink.interrupts - 1 })
  else if sink.room = some 0 ∧ bytes.size ≠ 0 ∧ !sink.acceptsNothingWhenFull then
    (.failed sink.error, sink)
  else
    let count := sink.share bytes.size
    (.accepted count, { sink with held := sink.held ++ bytes.extract 0 count })

def flush (sink : MemorySink) : Option IoError × MemorySink :=
  if sink.flushFails then (some sink.error, sink)
  else (none, { sink with flushes := sink.flushes + 1 })

theorem share_le (sink : MemorySink) (size : Nat) : sink.share size ≤ size :=
  Nat.le_trans (bounded_le _ _) (bounded_le _ _)

instance : Sink MemorySink where
  held := held
  write := write
  flush := flush
  patience := interrupts
  count_le sink bytes := by
    unfold write
    split
    · exact Nat.zero_le _
    · split
      · exact Nat.zero_le _
      · exact sink.share_le bytes.size
  held_write sink bytes := by
    unfold write
    split
    · simp [Reply.count]
    · split
      · simp [Reply.count]
      · rfl
  patience_lt sink bytes := by
    unfold write
    split
    · intro _
      exact Nat.sub_lt ‹_› Nat.one_pos
    · split <;> simp
  held_flush sink := by
    unfold flush
    split <;> rfl

/-- Appends bytes past all bounds. -/
def poke (bytes : Bytes) (sink : MemorySink) : MemorySink :=
  { sink with held := sink.held ++ bytes }

/-- Bounds the sink anew. -/
def setCapacity (capacity : Option Nat) (sink : MemorySink) : MemorySink :=
  { sink with capacity }

end MemorySink

end Columnar.Ipc
