import Mathlib
import Columnar.Proofs.Ipc.Session

/-! # Reading what a stream writer wrote -/

namespace Columnar.Ipc

namespace StreamWriter

variable {σ : Type} [Sink σ] {good : σ → Prop} {writer : StreamWriter σ}

theorem drives_write :
    Session.Drives session (fun (_ : StreamWriter σ) _ => True) write where
  of_ok := by
    intro writer batch allocator blocks block after events _ h
    rw [write_of_ok h]
    exact ⟨rfl, rfl, trivial⟩
  of_error := by
    intro writer batch allocator blocks failure after events _ h
    rw [write_of_error h]
    exact ⟨rfl, rfl, trivial⟩

/-- A closed stream is read from its first byte to its last: the schema message, one record
batch message for every accepted batch in order, and the end marker. The schema of the writer
recovers the rows, null counts and slots of every one of these batches. -/
theorem readFrames_closed (hgood : Sink.Reliable good) {sink : σ} (hsink : good sink)
    {schema : Schema} {alignment : Nat} {opening closing : Allocator}
    (hopen : (create schema alignment opening sink).answer = .ok writer)
    {steps : List (Allocator × RecordBatch)} (hsteps : ∀ step ∈ steps, step.2.Reachable)
    (hclose : (close closing (runWrites write steps writer).1).answer = .ok ()) :
    ∃ stream metadata padding frames,
      (Sink.held (close closing (runWrites write steps writer).1).state.session.sink).toList =
        (Sink.held sink).toList ++ stream ∧
      schema.encode = .ok metadata ∧ metadata.head? = some MessageKind.schema.code ∧
      readFrames stream = some (⟨metadata ++ List.replicate padding 0, []⟩ :: frames, []) ∧
      (∀ frame ∈ (⟨metadata ++ List.replicate padding 0, []⟩ : Frame) :: frames,
        frame.metadata ≠ []) ∧
      List.Forall₂ (fun batch frame =>
        frame.metadata.head? = some MessageKind.recordBatch.code ∧
          ∃ reading, readBatch? schema frame = some reading ∧ reading.Shows batch)
        (runWrites write steps writer).2 frames := by
  obtain ⟨block, hstart⟩ := create_eq_ok hopen
  obtain ⟨first, hfirst, -, htracks⟩ := Session.start_tracks hgood hsink hstart
  obtain ⟨blocks, -, hkeeps⟩ := drives_write.keeps_runWrites hgood htracks trivial
    fun step hmem => (hsteps step hmem).wellFormed
  generalize runWrites write steps writer = run at hkeeps hclose ⊢
  obtain ⟨last, accepted⟩ := run
  -- a session that could be closed was writable until then
  by_cases hphase : last.session.phase = .writable
  · obtain ⟨frames, hcarries, htracks, -⟩ := hkeeps hphase
    obtain ⟨hproper, metadata, padding, hmetadata, hhead, rfl⟩ := hfirst
    obtain ⟨after, events, hfinish, hheld⟩ := htracks.finish_eq hgood #[] closing
    have hall : ∀ frame ∈ (⟨metadata ++ List.replicate padding 0, []⟩ : Frame) :: frames,
        frame.IsProper := by
      intro frame hmem
      obtain rfl | hmem := List.mem_cons.mp hmem
      · exact hproper
      · exact isProper_of_carries hcarries frame hmem
    refine ⟨_, metadata, padding, frames, ?_, hmetadata, hhead, readFrames_encode hall [], ?_, ?_⟩
    · rw [close_eq hfinish]
      exact hheld
    · intro frame hmem hnil
      have hpos := (hall frame hmem).metadata_pos
      rw [hnil] at hpos
      exact Nat.lt_irrefl 0 hpos
    · exact hcarries.imp fun _ _ hboth => hboth.2
  · obtain ⟨failure, hfailed⟩ := Session.finish_of_ne hphase #[]
    rw [close_eq hfailed] at hclose
    cases hclose

set_option maxRecDepth 8000 in
/-- A batch of another layout is refused. The one after it has a field of another name, but
of the same layout, and is read back by the schema of the writer. -/
theorem readFrames_of_refused :
    let schema : Schema := ⟨[⟨"a", .int8, true⟩]⟩
    let refused : RecordBatch := ⟨⟨[⟨"a", .int16, true⟩]⟩, [Column.empty "a" .int16]⟩
    let column := ((Column.Call.setGrowing 1 #[7]).run .standard (Column.empty "b" .int8)).state
    let batch : RecordBatch := ⟨⟨[⟨"b", .int8, true⟩]⟩, [column]⟩
    let steps := [(Allocator.standard, refused), (Allocator.standard, batch)]
    ∃ (writer : StreamWriter MemorySink) (stream : List UInt8) (first frame : Frame),
      (create schema 2 .standard MemorySink.empty).answer = .ok writer ∧
      (runWrites write steps writer).2 = [batch] ∧
      (Sink.held (close .standard (runWrites write steps writer).1).state.session.sink).toList =
        stream ∧
      readFrames stream = some ([first, frame], []) ∧
      ∃ reading, readBatch? schema frame = some reading ∧ reading.Shows batch := by
  intro schema refused column batch steps
  have hcolumn : (Object.column column).Reachable := by
    refine .call (.setGrowing 1 #[7]) Allocator.isBounded_standard (.empty "b" .int8) ?_
    rintro _ ⟨⟩
  have hsteps : ∀ step ∈ steps, step.2.Reachable :=
    List.forall_mem_cons.mpr ⟨RecordBatch.reachable_singleton (.empty "a" .int16) rfl,
      List.forall_mem_singleton.mpr (RecordBatch.reachable_singleton hcolumn (by decide))⟩
  let writer : StreamWriter MemorySink :=
    { session :=
      { mode := .stream
        phase := .writable
        sink := { MemorySink.empty with
          held := #[14, 0, 0, 0, 1, 1, 0, 1, 0, 0, 0, 1, 0, 0, 0, 97, 1, 1] }
        schema
        alignment := 2
        bytesWritten := 18
        batchesWritten := 0 } }
  have hopen : (create schema 2 .standard MemorySink.empty).answer = .ok writer := by cbv
  have hrun : ((runWrites write steps writer).2,
      (close .standard (runWrites write steps writer).1).answer) = ([batch], .ok ()) := by cbv
  obtain ⟨haccepted, hclose⟩ := Prod.mk.inj hrun
  obtain ⟨stream, metadata, padding, frames, hheld, -, -, hread, -, hframes⟩ :=
    readFrames_closed MemorySink.reliable MemorySink.isUnbounded_empty hopen hsteps hclose
  rw [haccepted] at hframes
  obtain ⟨frame, rest, ⟨-, reading, hreading, hshows⟩, hrest, rfl⟩ :=
    List.forall₂_cons_left_iff.mp hframes
  obtain rfl := List.forall₂_nil_left_iff.mp hrest
  exact ⟨writer, stream, _, frame, hopen, haccepted, hheld, hread, reading, hreading, hshows⟩

end StreamWriter

end Columnar.Ipc
