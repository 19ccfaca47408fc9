import Columnar.Ipc.MemorySink
import Columnar.Proofs.Action

/-! # Sinks that never fail -/

namespace Columnar.Ipc

namespace Sink

variable {σ : Type} [Sink σ] {good : σ → Prop} {sink : σ}

/-- Sinks with the property have it forever and do not fail. -/
structure Reliable (good : σ → Prop) : Prop where
  write_good : ∀ (sink : σ) (bytes : Bytes), good sink → good (write sink bytes).2
  write_takes : ∀ (sink : σ) (bytes : Bytes), good sink → bytes.size ≠ 0 →
    (write sink bytes).1 = .interrupted ∨ 0 < (write sink bytes).1.count
  flush_good : ∀ sink : σ, good sink → good (flush sink).2
  flush_eq : ∀ sink : σ, good sink → (flush sink).1 = none

theorem Reliable.offer_eq (hgood : Reliable good) (hsink : good sink) (bytes : Bytes) :
    (offer bytes sink).1 = none ∧ good (offer bytes sink).2 := by
  fun_induction offer bytes sink with
  | case1 bytes sink hsize => exact ⟨rfl, hsink⟩
  | case2 bytes sink hsize after hwrite =>
    -- neither an error nor an offer of which nothing is taken can come up
    have htakes := hgood.write_takes sink bytes hsink hsize
    rw [hwrite] at htakes
    obtain hagain | hcount := htakes
    · cases hagain
    · exact absurd hcount (Nat.lt_irrefl 0)
  | case3 bytes sink hsize count after hwrite ih =>
    have hafter := hgood.write_good sink bytes hsink
    rw [hwrite] at hafter
    exact ih hafter
  | case4 bytes sink hsize after hwrite ih =>
    have hafter := hgood.write_good sink bytes hsink
    rw [hwrite] at hafter
    exact ih hafter
  | case5 bytes sink hsize error after hwrite =>
    have htakes := hgood.write_takes sink bytes hsink hsize
    rw [hwrite] at htakes
    obtain hagain | hcount := htakes
    · cases hagain
    · exact absurd hcount (Nat.lt_irrefl 0)

end Sink

namespace MemorySink

/-- The sink has no capacity, takes some bytes at a time and can be flushed. -/
def IsUnbounded (sink : MemorySink) : Prop :=
  sink.capacity = none ∧ sink.chunk ≠ some 0 ∧ sink.flushFails = false

theorem isUnbounded_empty : MemorySink.empty.IsUnbounded := by
  refine ⟨rfl, ?_, rfl⟩
  rintro ⟨⟩

theorem share_pos {sink : MemorySink} (h : sink.IsUnbounded) {size : Nat} (hsize : size ≠ 0) :
    0 < sink.share size := by
  obtain ⟨hcapacity, hchunk, -⟩ := h
  rw [share, room, hcapacity, Option.map_none, bounded]
  cases hbound : sink.chunk with
  | none => exact Nat.pos_of_ne_zero hsize
  | some bound =>
    have hbound : bound ≠ 0 := by
      rintro rfl
      exact hchunk hbound
    exact Nat.lt_min.mpr ⟨Nat.pos_of_ne_zero hsize, Nat.pos_of_ne_zero hbound⟩

/-- A sink in memory without bounds never fails, however few bytes it takes at a time. -/
theorem reliable : Sink.Reliable IsUnbounded where
  write_good := by
    rintro sink bytes ⟨hcapacity, hchunk, hflush⟩
    show (sink.write bytes).2.IsUnbounded
    unfold write
    split
    · exact ⟨hcapacity, hchunk, hflush⟩
    · split
      · exact ⟨hcapacity, hchunk, hflush⟩
      · exact ⟨hcapacity, hchunk, hflush⟩
  write_takes := by
    intro sink bytes hsink hsize
    show (sink.write bytes).1 = .interrupted ∨ 0 < (sink.write bytes).1.count
    have hroom : sink.room ≠ some 0 := by
      rw [room, hsink.1]
      rintro ⟨⟩
    unfold write
    split
    · exact .inl rfl
    · rw [if_neg fun hfull => hroom hfull.1]
      exact .inr (share_pos hsink hsize)
  flush_good := by
    rintro sink ⟨hcapacity, hchunk, hflush⟩
    have hnot : ¬ sink.flushFails = true := fun hfails =>
      Bool.false_ne_true (hflush.symm.trans hfails)
    show sink.flush.2.IsUnbounded
    rw [flush, if_neg hnot]
    exact ⟨hcapacity, hchunk, hflush⟩
  flush_eq := by
    rintro sink ⟨-, -, hflush⟩
    show sink.flush.1 = none
    rw [flush, hflush]
    rfl

end MemorySink

end Columnar.Ipc
