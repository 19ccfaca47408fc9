import Columnar.Proofs.Ipc.Finality
import Columnar.Proofs.Ipc.History

/-! # What is reported of a writer -/

namespace Columnar.Ipc

/-- How the use of a writer ends. -/
inductive Ending where
  /-- The writer goes out of use. -/
  | dropped
  /-- The sink is asked for. -/
  | consumed

/-- The event is reported once if the condition holds, and not otherwise. -/
def Reports (events : List Event) (event : Event) (condition : Prop) : Prop :=
  condition ∧ events = [event] ∨ ¬ condition ∧ events = []

/-- A call that is refused or fails reports nothing. -/
theorem Turn.events_of_error {σ : Type} [Sink σ] (turn : Turn σ) {failure : Failure}
    (h : turn.outcome.answer = .error failure) : turn.outcome.events = [] := by
  obtain ⟨_, hact⟩ | ⟨-, ⟨sink, error, hact⟩ | ⟨payload, sink, -, hact⟩⟩ := turn.outcome_cases
  · rw [hact]
  · rw [hact]
    rfl
  · rw [hact] at h
    cases h

namespace Writer

variable {σ : Type}

/-- What is reported when the use of a writer ends. -/
def events (ending : Ending) (allocator : Allocator) (writer : Writer σ) : List Event :=
  match ending with
  | .dropped => (writer.session.discard allocator ()).events
  | .consumed => (writer.session.release allocator ()).events

/-- Both endings report a writer that could still be written to, and nothing else. -/
theorem reports_events (ending : Ending) (allocator : Allocator) (writer : Writer σ) :
    Reports (writer.events ending allocator) (.abandoned writer.session.mode)
      (writer.session.phase = .writable) := by
  rcases hsession : writer.session with ⟨mode, phase, sink, schema, alignment, bytes, batches⟩
  cases phase with
  | writable =>
    refine .inl ⟨rfl, ?_⟩
    cases ending <;> rw [events, hsession] <;> rfl
  | failed message =>
    refine .inr ⟨by rintro ⟨⟩, ?_⟩
    cases ending <;> rw [events, hsession] <;> rfl
  | closed =>
    refine .inr ⟨by rintro ⟨⟩, ?_⟩
    cases ending <;> rw [events, hsession] <;> rfl

variable [Sink σ]

/-- All that is reported from the opening of a writer to the end of its use. -/
def log (mode : Mode) (schema : Schema) (alignment : Nat) (opening : Allocator)
    (steps : List (Allocator × Call)) (ending : Ending) (last : Allocator) (sink : σ) :
    List Event :=
  let created := create mode schema alignment opening sink
  created.events ++
    match created.answer with
    | .error _ => []
    | .ok writer =>
      Turn.reports (turns steps writer) ++ (after steps writer).events ending last

variable {mode : Mode} {schema : Schema} {alignment : Nat} {opening : Allocator} {sink : σ}
  {writer : Writer σ}

/-- A writer that cannot be opened reports nothing. -/
theorem events_create_of_error {failure : Failure}
    (h : (create mode schema alignment opening sink).answer = .error failure) :
    (create mode schema alignment opening sink).events = [] := by
  rw [create_apply, Session.start_apply] at h ⊢
  generalize Sink.offerAll ((Session.opening schema alignment).parts (header mode)) sink =
    offered at h ⊢
  rcases offered with ⟨_ | error, after⟩
  · cases hopening : Session.opening schema alignment with
    | refused failure => rfl
    | unframed failure => rfl
    | framed message padding =>
      rw [hopening] at h
      cases h
  · rfl

/-- A writer that is opened reports its fields and the length of its schema message. -/
theorem events_create_of_ok {metadata : List UInt8} {padding : Nat}
    (hopen : (create mode schema alignment opening sink).answer = .ok writer)
    (hmetadata : schema.encode = .ok metadata)
    (hpadding : Message.padding? ⟨metadata.toArray, #[]⟩ alignment = .ok padding) :
    (create mode schema alignment opening sink).events =
      [.opened mode schema.length
        (Message.frame ⟨metadata.toArray, #[]⟩ padding).encode.length] := by
  obtain ⟨message, found, after, hopening, hoffer, -⟩ := create_eq_ok hopen
  obtain ⟨other, hother, rfl, hfound⟩ := Session.opening_eq_framed hopening
  obtain rfl := Except.ok.inj (hother.symm.trans hmetadata)
  obtain rfl := Except.ok.inj (hfound.symm.trans hpadding)
  rw [create_apply, Session.start_apply, hopening, Message.length_frame_encode]
  simp only [Session.Opening.parts, hoffer]
  rfl

/-- What is reported of a writer. If it cannot be opened, that is nothing. Otherwise its opening
comes first, and then every batch that was written, at the place where the message before it ends.
After these the closing is reported, if a call closed the writer, and last that it was abandoned,
if no call closed it or made its session fail. -/
theorem log_eq (mode : Mode) (schema : Schema) (alignment : Nat) (opening : Allocator)
    (steps : List (Allocator × Call)) (ending : Ending) (last : Allocator) (sink : σ) :
    (∀ failure, (create mode schema alignment opening sink).answer = .error failure →
        log mode schema alignment opening steps ending last sink = []) ∧
      ∀ writer, (create mode schema alignment opening sink).answer = .ok writer →
        ∃ (first : Frame) (written : List Written) (rest : List UInt8)
          (closing abandoning : List Event),
          let batches := eventsFrom mode ((header mode).size + first.encode.length) written
          let bytes := (after steps writer).session.bytesWritten
          (Sink.held (after steps writer).session.sink).toList =
            (Sink.held sink).toList ++ output mode first written ++ rest ∧
          List.Forall₂ (Turn.Writes alignment) ((turns steps writer).filter Turn.wrote) written ∧
          log mode schema alignment opening steps ending last sink =
            .opened mode schema.length first.encode.length :: batches ++ closing ++ abandoning ∧
          Reports closing (.closed mode batches.length bytes)
            (∃ turn ∈ turns steps writer, turn.Closes) ∧
          ((∃ turn ∈ turns steps writer, turn.Closes) →
            (Sink.held sink).size + bytes =
              (Sink.held (after steps writer).session.sink).size) ∧
          Reports abandoning (.abandoned mode)
            (∀ turn ∈ turns steps writer, ¬ turn.Closes ∧ ¬ turn.Breaks) ∧
          ∀ turn ∈ turns steps writer, ∀ failure, turn.outcome.answer = .error failure →
            turn.outcome.events = [] := by
  constructor
  · intro failure hfailed
    rw [log, hfailed, events_create_of_error hfailed]
    rfl
  · intro writer hopen
    obtain ⟨metadata, padding, written, hmetadata, hpadding, hhistory⟩ := history hopen steps
    have hreached : Reached mode (turns steps writer) (after steps writer) :=
      (Reached.opened hopen).after steps
    obtain ⟨rest, hheld⟩ := hhistory.held_eq
    refine ⟨_, written, rest, (after steps writer).closing,
      (after steps writer).events ending last, hheld, hhistory.writes, ?_, ?_, ?_, ?_, ?_⟩
    · rw [log, hopen, events_create_of_ok hopen hmetadata hpadding]
      simp only [hhistory.reports_eq]
      rfl
    · by_cases hcloses : ∃ turn ∈ turns steps writer, turn.Closes
      · refine .inl ⟨hcloses, ?_⟩
        rw [closing, hreached.remembers.closed_iff.mpr hcloses, hhistory.mode_eq,
          hhistory.batchesWritten_eq, length_eventsFrom]
      · exact .inr ⟨hcloses, closing_of_ne (hreached.remembers.closed_iff.not.mpr hcloses)⟩
    · intro hcloses
      exact hhistory.closed (hreached.remembers.closed_iff.mpr hcloses)
    · have hends := reports_events ending last (after steps writer)
      rwa [hhistory.mode_eq, hreached.writable_iff] at hends
    · intro turn _ failure hfailed
      exact turn.events_of_error hfailed

set_option maxRecDepth 8000 in
/-- A writer is closed after its first batch, and closed again, which is refused. Then its sink is
asked for. -/
theorem log_eq_of_closed :
    let schema : Schema := ⟨[⟨"a", .int8, true⟩]⟩
    let batch : RecordBatch := ⟨schema, [Column.empty "a" .int8]⟩
    let steps := [(Allocator.standard, Call.write batch), (Allocator.standard, Call.close),
      (Allocator.standard, Call.close)]
    ∃ (first : Frame) (written : Written),
      log .stream schema 2 .standard steps .consumed .standard MemorySink.empty =
        [.opened .stream 1 first.encode.length,
          .wroteBatch .stream written.batch.rows first.encode.length
            (Message.wordSize + written.frame.metadata.length) written.frame.body.length,
          .closed .stream 1 90] := by
  intro schema batch steps
  let writer : Writer MemorySink := .stream
    { session :=
      { mode := .stream
        phase := .writable
        sink := { MemorySink.empty with
          held := #[14, 0, 0, 0, 1, 1, 0, 1, 0, 0, 0, 1, 0, 0, 0, 97, 1, 1] }
        schema
        alignment := 2
        bytesWritten := 18
        batchesWritten := 0 } }
  have hopen : (create .stream schema 2 .standard MemorySink.empty).answer = .ok writer := by cbv
  have hrun : ((turns steps writer).countP Turn.wrote, (after steps writer).session.bytesWritten) =
      (1, 90) := by cbv
  obtain ⟨hwrote, hbytes⟩ := Prod.mk.inj hrun
  have hcloses : ∃ turn ∈ turns steps writer, turn.Closes := by
    refine ⟨_, List.mem_cons_of_mem _ List.mem_cons_self, rfl, ?_⟩
    cbv
  obtain ⟨-, hlog⟩ :=
    log_eq .stream schema 2 .standard steps .consumed .standard MemorySink.empty
  obtain ⟨first, all, rest, closing, abandoning, -, hwrites, heq, hclosing, -, habandoning, -⟩ :=
    hlog writer hopen
  have hone : all.length = 1 := by
    rw [← hwrites.length_eq, ← List.countP_eq_length_filter, hwrote]
  obtain ⟨written, rfl⟩ := List.length_eq_one_iff.mp hone
  obtain ⟨-, rfl⟩ | ⟨hnone, -⟩ := hclosing
  · obtain ⟨hnone, -⟩ | ⟨-, rfl⟩ := habandoning
    · obtain ⟨turn, hmem, hcloses⟩ := hcloses
      exact absurd hcloses (hnone turn hmem).1
    · refine ⟨first, written, heq.trans ?_⟩
      have hstart : (header .stream).size + first.encode.length = first.encode.length :=
        Nat.zero_add _
      rw [hbytes, hstart]
      rfl
  · exact absurd hcloses hnone

end Writer

end Columnar.Ipc
