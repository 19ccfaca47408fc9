import Columnar.Action

/-!
# Sinks

A sink may take fewer bytes than it is offered, fail, or ask to be tried again. It keeps exactly the
bytes it says it accepted, and asks for another try only finitely often in a row.
-/

namespace Columnar.Ipc

/-- What a sink answers when it is offered bytes. -/
inductive Reply where
  /-- The first `count` bytes were accepted. -/
  | accepted (count : Nat)
  /-- Nothing was accepted, and the offer should be repeated. -/
  | interrupted
  /-- Nothing was accepted, and nothing more should be offered. -/
  | failed (error : IoError)

def Reply.count : Reply → Nat
  | accepted count => count
  | interrupted | failed _ => 0

/-- Something that bytes are written to. -/
class Sink (σ : Type) where
  /-- The bytes that the sink was given. -/
  held : σ → Bytes
  /-- Offers bytes to the sink once. -/
  write : σ → Bytes → Reply × σ
  /-- Makes the sink pass on what it holds. -/
  flush : σ → Option IoError × σ
  /-- How often in a row the sink may still ask to be tried again. -/
  patience : σ → Nat
  count_le : ∀ (sink : σ) (bytes : Bytes), (write sink bytes).1.count ≤ bytes.size
  held_write : ∀ (sink : σ) (bytes : Bytes),
    held (write sink bytes).2 = held sink ++ bytes.extract 0 (write sink bytes).1.count
  patience_lt : ∀ (sink : σ) (bytes : Bytes),
    (write sink bytes).1 = .interrupted → patience (write sink bytes).2 < patience sink
  held_flush : ∀ sink : σ, held (flush sink).2 = held sink

namespace Sink

variable {σ : Type} [Sink σ]

/-- Offers `bytes`, and after every reply what is left of them, until nothing is left. A
sink that accepts nothing although something is left has failed. -/
def offer (bytes : Bytes) (sink : σ) : Option IoError × σ :=
  if _hsize : bytes.size = 0 then (none, sink)
  else
    match hwrite : write sink bytes with
    | (.accepted 0, sink) => (some .nothingAccepted, sink)
    | (.accepted (count + 1), sink) => offer (bytes.extract (count + 1) bytes.size) sink
    | (.interrupted, sink) => offer bytes sink
    | (.failed error, sink) => (some error, sink)
termination_by (bytes.size, patience sink)
decreasing_by
  · simp only [Array.size_extract]
    exact Prod.Lex.left _ _ (by omega)
  · apply Prod.Lex.right
    have h := patience_lt _ bytes (congrArg Prod.fst hwrite)
    rwa [hwrite] at h

def writeAll (bytes : Bytes) : Action σ Unit :=
  fun _ sink =>
    match offer bytes sink with
    | (none, sink) => ⟨.ok (), sink, []⟩
    | (some error, sink) => ⟨.error (.error (.io error none)), sink, []⟩

def flushAll : Action σ Unit :=
  fun _ sink =>
    match flush sink with
    | (none, sink) => ⟨.ok (), sink, []⟩
    | (some error, sink) => ⟨.error (.error (.io error none)), sink, []⟩

/-- After an offer the sink holds what it held before and a first part of the offer, which
is all of it exactly if no error is reported. -/
theorem held_offer (bytes : Bytes) (sink : σ) :
    ∃ count, count ≤ bytes.size ∧
      held (offer bytes sink).2 = held sink ++ bytes.extract 0 count ∧
      ((offer bytes sink).1 = none ↔ count = bytes.size) := by
  fun_induction offer bytes sink with
  | case1 bytes sink hsize =>
    exact ⟨0, by omega, by simp, by simp [hsize]⟩
  | case2 bytes sink hsize sink' hwrite =>
    have hheld := held_write sink bytes
    rw [hwrite] at hheld
    exact ⟨0, by omega, hheld, by simpa using Ne.symm hsize⟩
  -- a write that takes something is followed by an offer of the rest
  | case3 bytes sink hsize count sink' hwrite ih =>
    have hheld := held_write sink bytes
    have hcount := count_le sink bytes
    rw [hwrite] at hheld hcount
    simp only [Reply.count] at hheld hcount
    obtain ⟨more, hmore, hrest, hdone⟩ := ih
    rw [Array.size_extract, Nat.min_self] at hmore hdone
    refine ⟨count + 1 + more, by omega, ?_, by rw [hdone]; omega⟩
    rw [hrest, hheld, Array.extract_extract, Array.append_assoc, Nat.add_zero,
      Nat.min_eq_left (by omega), Array.extract_append_extract, Nat.min_eq_left (by omega),
      Nat.max_eq_right (by omega)]
  -- an interrupted write is made again
  | case4 bytes sink hsize sink' hwrite ih =>
    have hheld := held_write sink bytes
    rw [hwrite] at hheld
    simpa [Reply.count, hheld] using ih
  | case5 bytes sink hsize error sink' hwrite =>
    have hheld := held_write sink bytes
    rw [hwrite] at hheld
    exact ⟨0, by omega, hheld, by simpa using Ne.symm hsize⟩

end Sink

end Columnar.Ipc
