import Columnar.Proofs.Ipc.Finality
import Columnar.Proofs.Ipc.Opening
import Columnar.Proofs.Ipc.Recording
import Columnar.Proofs.Ipc.WideBatch

/-!
# What makes a session fail

With batches whose messages can be framed, a session fails only if its sink does. A batch that is
too wide makes it fail before the sink is used at all.
-/

namespace Columnar

open Ipc

/-- The length of the metadata of a batch, with the word before it and with padding, is one that
the word can hold. -/
def RecordBatch.Fits (alignment : Nat) (batch : RecordBatch) : Prop :=
  Alignment.roundUp (23 + 40 * batch.columns.length + Message.wordSize) alignment < wordBound

namespace Ipc

namespace Turn

variable {σ : Type} {turn : Turn σ}

/-- The message of a batch that fits can be framed. -/
theorem plan_ne_unframed (halignment : IsPowerOfTwo turn.writer.session.alignment)
    (hlt : turn.writer.session.alignment < wordBound)
    (hfits : ∀ batch, turn.call = .write batch → batch.Fits turn.writer.session.alignment)
    (error : Error) : turn.plan ≠ .unframed error := by
  intro hplan
  obtain ⟨batch, message, hcall, hprepare, hunframed⟩ := Writer.plan_eq_unframed hplan
  obtain ⟨-, -, -, hencode⟩ := Session.prepare_eq_ok hprepare
  have hsize := RecordBatch.size_metadata_of_encode hencode
  have hbatch := hfits batch hcall
  rw [RecordBatch.Fits, ← hsize] at hbatch
  have hround := Alignment.le_roundUp (message.metadata.size + Message.wordSize) halignment.pos
  -- the metadata and the alignment are below the bound of a word, so their sum is a size
  have hbound : wordBound + wordBound < Size.bound := by decide
  have hlength : message.metadata.size + Message.wordSize + turn.writer.session.alignment <
      Size.bound := by omega
  have hframed : message.padding? turn.writer.session.alignment = .ok _ :=
    Message.padding?_of_lt (Alignment.padding_of_lt halignment hlength) (by omega) (by omega)
  cases hunframed.symm.trans hframed

variable [Sink σ]

/-- If the sink does not fail, and neither does framing, a call is refused or sends what it has
to. -/
theorem outcome_of_not_fails (hunframed : ∀ error, turn.plan ≠ .unframed error)
    (hsink : ∀ use ∈ turn.uses, ¬ use.Fails) :
    (∃ failure, turn.outcome = ⟨.error failure, turn.writer, []⟩) ∨
      ∃ payload sink, turn.outcome =
        ⟨.ok (), turn.writer.advance payload sink, [turn.writer.eventOf payload]⟩ := by
  cases hplan : turn.plan with
  | refused failure => exact .inl ⟨failure, Writer.act_of_refused hplan⟩
  | unframed error => exact absurd hplan (hunframed error)
  | sent payload =>
    rcases hdeliver : payload.deliver turn.writer.session.sink with ⟨_ | error, sink⟩
    · exact .inr ⟨payload, sink, Writer.act_of_sent hplan hdeliver⟩
    · have hfails : ∃ use ∈ turn.uses, use.Fails := by
        rw [turn.uses_fail_iff hplan, hdeliver]
        rintro ⟨⟩
      obtain ⟨use, hmem, huse⟩ := hfails
      exact absurd huse (hsink use hmem)

/-- Such a call does not make the session fail. -/
theorem not_breaks_of_not_fails (hunframed : ∀ error, turn.plan ≠ .unframed error)
    (hsink : ∀ use ∈ turn.uses, ¬ use.Fails) : ¬ turn.Breaks := by
  rintro ⟨hphase, message, hfailed⟩
  obtain ⟨failure, hact⟩ | ⟨payload, sink, hact⟩ := outcome_of_not_fails hunframed hsink
  · rw [hact] at hfailed
    cases hphase.symm.trans hfailed
  · rw [hact] at hfailed
    -- what was sent leaves the session writable or closes it
    cases payload with
    | batch rows message padding =>
      rw [Writer.phase_advance_batch, hphase] at hfailed
      cases hfailed
    | ending trailer =>
      rw [Writer.phase_advance_ending] at hfailed
      cases hfailed

/-- If such a call fails, it leaves the writer as it was. -/
theorem state_eq_of_not_fails (hunframed : ∀ error, turn.plan ≠ .unframed error)
    (hsink : ∀ use ∈ turn.uses, ¬ use.Fails) {failure : Failure}
    (hfailed : turn.outcome.answer = .error failure) : turn.outcome.state = turn.writer := by
  obtain ⟨_, hact⟩ | ⟨payload, sink, hact⟩ := outcome_of_not_fails hunframed hsink
  · rw [hact]
  · rw [hact] at hfailed
    cases hfailed

end Turn

namespace Writer

variable {σ : Type} [Sink σ] {mode : Mode} {past : List (Turn σ)} {writer : Writer σ}

/-- The alignment of a writer is a power of two, and a message is not shorter than it. -/
theorem Reached.alignment_lt (h : Reached mode past writer) :
    IsPowerOfTwo writer.session.alignment ∧ writer.session.alignment < wordBound := by
  induction h with
  | opened hopen =>
    have halignment := alignment_of_create hopen
    obtain ⟨message, padding, after, -, -, rfl⟩ := create_eq_ok hopen
    rw [session_ofSession]
    exact halignment
  | called turn _ ih =>
    obtain ⟨_, hact⟩ | ⟨-, ⟨sink, error, hact⟩ | ⟨payload, sink, -, hact⟩⟩ := turn.outcome_cases
    · rw [hact]
      exact ih
    · rw [hact, alignment_breakAt]
      exact ih
    · rw [hact, alignment_advance]
      exact ih
  | touched sink _ ih =>
    rw [session_withSink]
    exact ih

theorem Reached.of_mem (h : Reached mode past writer) {turn : Turn σ} (hmem : turn ∈ past) :
    ∃ before, Reached mode before turn.writer := by
  induction h with
  | opened _ => cases hmem
  | called last hlast ih =>
    obtain hmem | hmem := List.mem_append.mp hmem
    · exact ih hmem
    · obtain rfl := List.mem_singleton.mp hmem
      exact ⟨_, hlast⟩
  | touched sink _ ih => exact ih hmem

/-- In a sequence of calls on a writer, with batches that fit, the session fails only if a write
or a flush of the sink fails in one of the calls. If a call fails and its sink does not, the writer
is after the call what it was before. -/
theorem Reached.exists_fails (h : Reached mode past writer)
    (hfits : ∀ turn ∈ past, ∀ batch, turn.call = .write batch →
      batch.Fits turn.writer.session.alignment) :
    (∀ message, writer.session.phase = .failed message →
        ∃ turn ∈ past, ∃ use ∈ turn.uses, use.Fails) ∧
      ∀ turn ∈ past, (∀ use ∈ turn.uses, ¬ use.Fails) →
        ∀ failure, turn.outcome.answer = .error failure → turn.outcome.state = turn.writer := by
  have hunframed : ∀ turn ∈ past, ∀ error, turn.plan ≠ .unframed error := by
    intro turn hmem
    obtain ⟨_, hbefore⟩ := h.of_mem hmem
    obtain ⟨halignment, hlt⟩ := hbefore.alignment_lt
    exact Turn.plan_ne_unframed halignment hlt (hfits turn hmem)
  constructor
  · intro message hphase
    obtain ⟨turn, hmem, hbreaks⟩ := h.exists_breaks hphase
    refine ⟨turn, hmem, Classical.byContradiction fun hnone => ?_⟩
    exact Turn.not_breaks_of_not_fails (hunframed turn hmem)
      (fun use huse hfails => hnone ⟨use, huse, hfails⟩) hbreaks
  · intro turn hmem hsink failure hfailed
    exact Turn.state_eq_of_not_fails (hunframed turn hmem) hsink hfailed

set_option maxRecDepth 8000 in
/-- A sink of fifty bytes runs full in the message of a batch. -/
theorem exists_fails_of_full :
    let schema : Schema := ⟨[⟨"a", .int8, true⟩]⟩
    let batch : RecordBatch := ⟨schema, [Column.empty "a" .int8]⟩
    let sink : MemorySink := { MemorySink.empty with capacity := some 50 }
    let past := [(Allocator.standard, Call.write batch)]
    ∃ writer : Writer MemorySink,
      (create .stream schema 2 .standard sink).answer = .ok writer ∧
      (after past writer).session.phase =
        .failed "broken pipe\n\nerror context: [ipc][stream-writer][write-record-batch]" ∧
      ∃ turn ∈ turns past writer, ∃ use ∈ turn.uses, use.Fails := by
  intro schema batch sink past
  let writer : Writer MemorySink := .stream
    { session :=
      { mode := .stream
        phase := .writable
        sink := { sink with held := #[14, 0, 0, 0, 1, 1, 0, 1, 0, 0, 0, 1, 0, 0, 0, 97, 1, 1] }
        schema
        alignment := 2
        bytesWritten := 18
        batchesWritten := 0 } }
  have hopen : (create .stream schema 2 .standard sink).answer = .ok writer := by cbv
  have hphase : (after past writer).session.phase =
      .failed "broken pipe\n\nerror context: [ipc][stream-writer][write-record-batch]" := by cbv
  have hfits : ∀ turn ∈ turns past writer, ∀ written, turn.call = .write written →
      written.Fits turn.writer.session.alignment := by
    intro turn hmem written hcall
    obtain rfl := List.mem_singleton.mp hmem
    obtain rfl := Call.write.inj hcall
    show Alignment.roundUp 67 2 < wordBound
    decide
  have hreached : Reached .stream (turns past writer) (after past writer) :=
    (Reached.opened hopen).after past
  exact ⟨writer, hopen, hphase, (hreached.exists_fails hfits).1 _ hphase⟩

/-- A session fails over a batch that is too wide, although its schema and the batch are admissible
and the writer was opened. Nothing is offered to the sink, and every later call is refused. -/
theorem fails_without_sink :
    let schema := Schema.ofWidth 107374182
    let batch := RecordBatch.ofWidth 107374182
    Schema.create schema.fields = .ok schema ∧ batch.Reachable ∧
      ∃ writer : Writer MemorySink,
        (create .stream schema 1 .standard MemorySink.empty).answer = .ok writer ∧
        let turn : Turn MemorySink := ⟨writer, .standard, .write batch⟩
        turn.uses = [] ∧
          (∃ error, turn.outcome.answer = .error (.error error) ∧
            error.root = .raised (.metadataTooLong 4294967303)) ∧
          (∃ message, turn.outcome.state.session.phase = .failed message) ∧
          ∀ call allocator, ∃ error, act call allocator turn.outcome.state =
            ⟨.error (.error error), turn.outcome.state, []⟩ := by
  intro schema batch
  have hbound : wordBound = 4294967296 := rfl
  obtain ⟨writer, hopen, hphase, hschema, halignment⟩ :=
    exists_create_ofWidth (by omega : 11 + 33 * 107374182 < wordBound)
  let turn : Turn MemorySink := ⟨writer, .standard, .write batch⟩
  have hunframed : turn.plan = .unframed _ :=
    plan_ofWidth hphase hschema halignment (by omega) (by omega)
  have hact : turn.outcome = _ := act_of_unframed hunframed
  have hfailed : ∃ message, turn.outcome.state.session.phase = .failed message := by
    rw [hact]
    exact ⟨_, phase_breakAt_eq _ _ _ _⟩
  refine ⟨Schema.create_ofWidth (by omega), RecordBatch.reachable_ofWidth _, writer, hopen,
    ?_, ?_, hfailed, ?_⟩
  · apply turn.uses_of_unsent
    intro payload hsent
    cases hunframed.symm.trans hsent
  · show ∃ error, turn.outcome.answer = .error (.error error) ∧ _
    rw [hact, answer_breakAt]
    exact ⟨_, rfl, rfl⟩
  · intro call allocator
    have hended : turn.outcome.state.session.phase ≠ .writable := by
      obtain ⟨message, hphase⟩ := hfailed
      rw [hphase]
      rintro ⟨⟩
    obtain ⟨error, hrefused⟩ := plan_of_ne hended call allocator
    exact ⟨error, act_of_refused hrefused⟩

end Writer

end Ipc

end Columnar
