import Columnar.Proofs.Ipc.Accounting
import Columnar.Proofs.Ipc.Footer

/-!
# How writers end

Once a call has closed a writer, or made its session fail, every call is refused in the same words
and nothing changes. The words repeat the message of the failure that ended it.
-/

namespace Columnar

open Ipc

/-- What a writer says that has failed ends with the whole message of its failure. -/
theorem Cause.message_writerUnusable (mode : Mode) (failure : String) :
    (writerUnusable mode failure).message =
      "writer closed: " ++ (mode.text ++ " writer is unusable after an earlier failure: ") ++
        failure := by
  have hmessage : (writerUnusable mode failure).message = "writer closed: " ++
      (mode.text ++ " writer is unusable after an earlier failure: " ++ failure) := rfl
  simp only [hmessage, String.append_assoc]

namespace Ipc

namespace Turn

variable {σ : Type} [Sink σ]

/-- The call closes the writer. -/
def Closes (turn : Turn σ) : Prop :=
  turn.call = .close ∧ turn.outcome.answer = .ok ()

/-- A call is refused, or it makes a session fail that was writable, or it sends what it has to. -/
theorem outcome_cases (turn : Turn σ) :
    (∃ failure, turn.outcome = ⟨.error failure, turn.writer, []⟩) ∨
      turn.writer.session.phase = .writable ∧
        ((∃ sink error, turn.outcome = turn.writer.breakAt turn.call.step sink error) ∨
          ∃ payload sink, turn.plan = .sent payload ∧ turn.outcome =
            ⟨.ok (), turn.writer.advance payload sink, [turn.writer.eventOf payload]⟩) := by
  cases hplan : turn.plan with
  | refused failure => exact .inl ⟨failure, Writer.act_of_refused hplan⟩
  | unframed error =>
    refine .inr ⟨Writer.phase_of_plan hplan (by rintro _ ⟨⟩), .inl ?_⟩
    exact ⟨_, _, Writer.act_of_unframed hplan⟩
  | sent payload =>
    refine .inr ⟨Writer.phase_of_plan hplan (by rintro _ ⟨⟩), ?_⟩
    rcases hdeliver : payload.deliver turn.writer.session.sink with ⟨_ | error, sink⟩
    · exact .inr ⟨payload, sink, rfl, Writer.act_of_sent hplan hdeliver⟩
    · exact .inl ⟨_, _, Writer.act_of_failed hplan hdeliver⟩

end Turn

namespace Writer

variable {σ : Type} [Sink σ] {mode : Mode} {past : List (Turn σ)} {writer : Writer σ}

/-- Writers of a layout, each with the calls made since it was opened. Between calls the sink may
be put to other uses. -/
inductive Reached (mode : Mode) : List (Turn σ) → Writer σ → Prop where
  | opened {schema : Schema} {alignment : Nat} {allocator : Allocator} {sink : σ}
      {writer : Writer σ} (h : (create mode schema alignment allocator sink).answer = .ok writer) :
      Reached mode [] writer
  | called {past : List (Turn σ)} (turn : Turn σ) (h : Reached mode past turn.writer) :
      Reached mode (past ++ [turn]) turn.outcome.state
  | touched {past : List (Turn σ)} {writer : Writer σ} (sink : σ) (h : Reached mode past writer) :
      Reached mode past (writer.withSink sink)

theorem Reached.after (h : Reached mode past writer) (steps : List (Allocator × Call)) :
    Reached mode (past ++ turns steps writer) (Writer.after steps writer) :=
  after_preserves (Reached mode) (fun _ turn hpast => hpast.called turn) h steps

/-! ## What a writer remembers -/

/-- A writer is closed exactly if a call has closed it, and if a call made its session fail, it
still has the message of that failure. -/
structure Remembers (mode : Mode) (past : List (Turn σ)) (writer : Writer σ) : Prop where
  mode_eq : writer.session.mode = mode
  encodes : ∃ metadata, writer.session.schema.encode = .ok metadata
  closed_iff : writer.session.phase = .closed ↔ ∃ turn ∈ past, turn.Closes
  failed : ∀ turn ∈ past, turn.Breaks → ∃ cause,
    turn.outcome.answer = .error (.error (.within cause (Session.place mode turn.call.step))) ∧
      writer.session.phase =
        .failed (Error.within cause (Session.place mode turn.call.step)).message

theorem remembers_of_create {schema : Schema} {alignment : Nat} {allocator : Allocator} {sink : σ}
    (hopen : (create mode schema alignment allocator sink).answer = .ok writer) :
    Remembers mode [] writer := by
  obtain ⟨message, padding, after, hopening, -, rfl⟩ := create_eq_ok hopen
  obtain ⟨metadata, hmetadata, -, -⟩ := Session.opening_eq_framed hopening
  constructor
  · rw [session_ofSession]
    rfl
  · rw [session_ofSession]
    exact ⟨metadata, hmetadata⟩
  · rw [session_ofSession]
    constructor
    · rintro ⟨⟩
    · rintro ⟨turn, ⟨⟩, -⟩
  · rintro turn ⟨⟩

namespace Remembers

variable {turn : Turn σ} (h : Remembers mode past turn.writer)
include h

/-- A call that neither closes the writer nor makes its session fail changes nothing of this. -/
theorem concat (hcloses : ¬ turn.Closes) (hbreaks : ¬ turn.Breaks) {after : Writer σ}
    (hmode : after.session.mode = turn.writer.session.mode)
    (hschema : after.session.schema = turn.writer.session.schema)
    (hphase : after.session.phase = turn.writer.session.phase) :
    Remembers mode (past ++ [turn]) after where
  mode_eq := hmode.trans h.mode_eq
  encodes := by
    rw [hschema]
    exact h.encodes
  closed_iff := by
    rw [hphase, h.closed_iff]
    constructor
    · rintro ⟨closing, hmem, hclosing⟩
      exact ⟨closing, List.mem_append_left _ hmem, hclosing⟩
    · rintro ⟨closing, hmem, hclosing⟩
      obtain hmem | hmem := List.mem_append.mp hmem
      · exact ⟨closing, hmem, hclosing⟩
      · obtain rfl := List.mem_singleton.mp hmem
        exact absurd hclosing hcloses
  failed := by
    intro breaking hmem hbreaking
    rw [hphase]
    obtain hmem | hmem := List.mem_append.mp hmem
    · exact h.failed breaking hmem hbreaking
    · obtain rfl := List.mem_singleton.mp hmem
      exact absurd hbreaking hbreaks

theorem not_closes (hphase : turn.writer.session.phase = .writable) :
    ¬ ∃ closing ∈ past, closing.Closes := by
  rw [← h.closed_iff, hphase]
  rintro ⟨⟩

theorem not_breaks (hphase : turn.writer.session.phase = .writable) :
    ∀ breaking ∈ past, ¬ breaking.Breaks := by
  intro breaking hmem hbreaks
  obtain ⟨cause, -, hfailed⟩ := h.failed breaking hmem hbreaks
  cases hphase.symm.trans hfailed

/-- A call that makes the session fail is the first one that does. -/
theorem of_break {sink : σ} {error : Error} (hphase : turn.writer.session.phase = .writable)
    (hact : turn.outcome = turn.writer.breakAt turn.call.step sink error) :
    Remembers mode (past ++ [turn]) turn.outcome.state := by
  rw [hact]
  constructor
  · rw [mode_breakAt, h.mode_eq]
  · rw [schema_breakAt]
    exact h.encodes
  · rw [phase_breakAt_eq]
    constructor
    · rintro ⟨⟩
    · rintro ⟨closing, hmem, hclosing⟩
      obtain hmem | hmem := List.mem_append.mp hmem
      · exact absurd ⟨closing, hmem, hclosing⟩ (h.not_closes hphase)
      · obtain rfl := List.mem_singleton.mp hmem
        have hanswer := hclosing.2
        rw [hact, answer_breakAt] at hanswer
        cases hanswer
  · intro breaking hmem hbreaking
    obtain hmem | hmem := List.mem_append.mp hmem
    · exact absurd hbreaking (h.not_breaks hphase breaking hmem)
    · obtain rfl := List.mem_singleton.mp hmem
      refine ⟨error, ?_, ?_⟩
      · rw [hact, answer_breakAt, h.mode_eq]
      · rw [phase_breakAt_eq, h.mode_eq]

/-- A call that sends the ending closes the writer. -/
theorem of_closed {trailer : Bytes} {sink : σ}
    (hphase : turn.writer.session.phase = .writable) (hcall : turn.call = .close)
    (hact : turn.outcome = ⟨.ok (), turn.writer.advance (.ending trailer) sink,
      [turn.writer.eventOf (.ending trailer)]⟩) :
    Remembers mode (past ++ [turn]) turn.outcome.state := by
  have hcloses : turn.Closes := ⟨hcall, congrArg Outcome.answer hact⟩
  have hclosed : turn.outcome.state.session.phase = .closed := by
    rw [hact]
    exact phase_advance_ending trailer sink turn.writer
  constructor
  · rw [hact, mode_advance, h.mode_eq]
  · rw [hact, schema_advance]
    exact h.encodes
  · rw [hclosed]
    exact ⟨fun _ => ⟨turn, List.mem_append_right _ (List.mem_singleton_self _), hcloses⟩,
      fun _ => rfl⟩
  · intro breaking hmem hbreaking
    obtain hmem | hmem := List.mem_append.mp hmem
    · exact absurd hbreaking (h.not_breaks hphase breaking hmem)
    · obtain rfl := List.mem_singleton.mp hmem
      obtain ⟨-, message, hfailed⟩ := hbreaking
      cases hclosed.symm.trans hfailed

theorem act : Remembers mode (past ++ [turn]) turn.outcome.state := by
  obtain ⟨failure, hact⟩ | ⟨hphase, hrest⟩ := turn.outcome_cases
  · -- neither the answer nor the phase is one of a call that ends something
    refine h.concat ?_ ?_ (by rw [hact]) (by rw [hact]) (by rw [hact])
    · rintro ⟨-, hanswer⟩
      rw [hact] at hanswer
      cases hanswer
    · rintro ⟨hphase, message, hfailed⟩
      rw [hact] at hfailed
      cases hphase.symm.trans hfailed
  · obtain ⟨sink, error, hact⟩ | ⟨payload, sink, hplan, hact⟩ := hrest
    · exact h.of_break hphase hact
    · have hcalled : turn.writer.plan turn.call turn.allocator = .sent payload := hplan
      cases hcall : turn.call with
      | write batch =>
        rw [hcall] at hcalled
        obtain ⟨message, padding, rfl, -, -⟩ := plan_write_eq_sent hcalled
        have hsame : turn.outcome.state.session.phase = turn.writer.session.phase := by
          rw [hact, phase_advance_batch]
        refine h.concat ?_ ?_ (by rw [hact, mode_advance]) (by rw [hact, schema_advance]) hsame
        · rintro ⟨hclose, -⟩
          cases hcall.symm.trans hclose
        · rintro ⟨-, text, hfailed⟩
          cases (hsame.trans hphase).symm.trans hfailed
      | close =>
        rw [hcall] at hcalled
        obtain ⟨trailer, rfl, -, -⟩ := plan_close_eq_sent hcalled
        exact h.of_closed hphase hcall hact

end Remembers

/-- Whatever the sinks do, a writer remembers how it ended. -/
theorem Reached.remembers (h : Reached mode past writer) : Remembers mode past writer := by
  induction h with
  | opened hopen => exact remembers_of_create hopen
  | called turn _ ih => exact ih.act
  | touched sink _ ih =>
    constructor
    · rw [session_withSink]
      exact ih.mode_eq
    · rw [session_withSink]
      exact ih.encodes
    · rw [session_withSink]
      exact ih.closed_iff
    · rw [session_withSink]
      exact ih.failed

/-- A session has failed only in a call that made it fail. -/
theorem Reached.exists_breaks (h : Reached mode past writer) {message : String}
    (hphase : writer.session.phase = .failed message) : ∃ turn ∈ past, turn.Breaks := by
  induction h with
  | opened hopen =>
    obtain ⟨_, _, _, -, -, rfl⟩ := create_eq_ok hopen
    rw [session_ofSession] at hphase
    cases hphase
  | called turn _ ih =>
    obtain ⟨failure, hact⟩ | ⟨hbefore, -⟩ := turn.outcome_cases
    · rw [hact] at hphase
      obtain ⟨breaking, hmem, hbreaks⟩ := ih hphase
      exact ⟨breaking, List.mem_append_left _ hmem, hbreaks⟩
    · exact ⟨turn, List.mem_append_right _ (List.mem_singleton_self _), hbefore, message, hphase⟩
  | touched sink _ ih =>
    rw [session_withSink] at hphase
    exact ih hphase

/-- A writer can be written to as long as no call has closed it or has made its session fail. -/
theorem Reached.writable_iff (h : Reached mode past writer) :
    writer.session.phase = .writable ↔ ∀ turn ∈ past, ¬ turn.Closes ∧ ¬ turn.Breaks := by
  have hremembers := h.remembers
  constructor
  · intro hphase turn hmem
    refine ⟨fun hcloses => ?_, fun hbreaks => ?_⟩
    · cases hphase.symm.trans (hremembers.closed_iff.mpr ⟨turn, hmem, hcloses⟩)
    · obtain ⟨cause, -, hfailed⟩ := hremembers.failed turn hmem hbreaks
      cases hphase.symm.trans hfailed
  · intro hnone
    cases hphase : writer.session.phase with
    | writable => rfl
    | failed message =>
      obtain ⟨turn, hmem, hbreaks⟩ := h.exists_breaks hphase
      exact absurd hbreaks (hnone turn hmem).2
    | closed =>
      obtain ⟨turn, hmem, hcloses⟩ := hremembers.closed_iff.mp hphase
      exact absurd hcloses (hnone turn hmem).1

/-! ## What a writer that has ended does -/

/-- The calls of a sequence are all refused for the cause, and leave the writer and its sink
alone. -/
structure Refuses (cause : Cause) (steps : List (Allocator × Call)) (writer : Writer σ) :
    Prop where
  kind_eq : cause.kind = .writerClosed
  outcome_eq : ∀ turn ∈ turns steps writer,
    turn.outcome = ⟨.error (.error (.raised cause)), writer, []⟩
  after_eq : Writer.after steps writer = writer

/-- As its trailer can be made, a writer refuses every call for the cause that its session has. -/
theorem refuses_of_ensureWritable {cause : Cause} (hkind : cause.kind = .writerClosed)
    {trailer : Bytes} (htrailer : writer.trailer = .ok trailer)
    (hended : writer.session.ensureWritable = .error (.error (.raised cause)))
    (steps : List (Allocator × Call)) : Refuses cause steps writer := by
  have hact := act_of_ended hended htrailer
  refine ⟨hkind, ?_, ?_⟩
  · induction steps with
    | nil =>
      rintro turn ⟨⟩
    | cons step rest ih =>
      rw [turns, hact]
      exact List.forall_mem_cons.mpr ⟨hact step.2 step.1, ih⟩
  · induction steps with
    | nil => rfl
    | cons step rest ih =>
      rw [Writer.after, hact]
      exact ih

omit [Sink σ] in
/-- The sink is given back by a closed session only. -/
theorem release_cases {τ : Type} (session : Session σ) (allocator : Allocator) (state : τ) :
    (session.isClosed = true →
        (session.release allocator state).answer = .ok session.sink) ∧
      (session.isClosed = false → ∃ cause, cause.kind = .writerClosed ∧
        (session.release allocator state).answer = .error (.error (.raised cause))) := by
  rcases session with ⟨mode, _ | message | _, sink, schema, alignment, bytesWritten, batches⟩
  · exact ⟨fun hclosed => (Bool.false_ne_true hclosed).elim, fun _ => ⟨_, rfl, rfl⟩⟩
  · exact ⟨fun hclosed => (Bool.false_ne_true hclosed).elim, fun _ => ⟨_, rfl, rfl⟩⟩
  · exact ⟨fun _ => rfl, fun hopen => (Bool.false_ne_true hopen.symm).elim⟩

/-- Once a call has closed a writer or has made its session fail, all further calls are refused
and change nothing. The words of a failed session end with the message of the failure that ended
it, place included. A writer says that it is closed exactly if a call has closed it, and then
only it gives its sink back. -/
theorem Reached.final (h : Reached mode past writer) (hfits : writer.FooterFits)
    (steps : List (Allocator × Call)) :
    ((∃ turn ∈ past, turn.Closes) → Refuses (.writerAlreadyClosed mode) steps writer) ∧
      (∀ turn ∈ past, turn.Breaks → ∃ cause first,
        first = Error.within cause (Session.place mode turn.call.step) ∧
        turn.outcome.answer = .error (.error first) ∧
        Refuses (.writerUnusable mode first.message) steps writer ∧
        ∃ front, (Cause.writerUnusable mode first.message).message = front ++ first.message) ∧
      (writer.session.isClosed = true ↔ ∃ turn ∈ past, turn.Closes) ∧
      ∀ {τ : Type} (allocator : Allocator) (state : τ),
        (writer.session.isClosed = true →
            (writer.session.release allocator state).answer = .ok writer.session.sink) ∧
          (writer.session.isClosed = false → ∃ cause, cause.kind = .writerClosed ∧
            (writer.session.release allocator state).answer =
              .error (.error (.raised cause))) := by
  have hremembers := h.remembers
  obtain ⟨metadata, hmetadata⟩ := hremembers.encodes
  obtain ⟨trailer, htrailer, -⟩ := trailer_of_footerFits hfits hmetadata
  refine ⟨?_, ?_, ?_, fun allocator state => release_cases _ allocator state⟩
  · intro hcloses
    have hclosed := hremembers.closed_iff.mpr hcloses
    refine refuses_of_ensureWritable rfl htrailer ?_ steps
    rw [Session.ensureWritable, hclosed, hremembers.mode_eq]
    rfl
  · intro turn hmem hbreaks
    obtain ⟨cause, hanswer, hfailed⟩ := hremembers.failed turn hmem hbreaks
    refine ⟨cause, _, rfl, hanswer, refuses_of_ensureWritable rfl htrailer ?_ steps, _,
      Cause.message_writerUnusable mode _⟩
    rw [Session.ensureWritable, hfailed, hremembers.mode_eq]
    rfl
  · rw [Session.isClosed, decide_eq_true_iff]
    exact hremembers.closed_iff

set_option maxRecDepth 8000 in
/-- A sink of fifty bytes runs full in the message of a batch. Another batch is refused after that,
and so is closing, with the words of that failure. -/
theorem final_of_full :
    let schema : Schema := ⟨[⟨"a", .int8, true⟩]⟩
    let batch : RecordBatch := ⟨schema, [Column.empty "a" .int8]⟩
    let sink : MemorySink := { MemorySink.empty with capacity := some 50 }
    let past := [(Allocator.standard, Call.write batch)]
    let steps := [(Allocator.standard, Call.write batch), (Allocator.standard, Call.close)]
    ∃ (writer : Writer MemorySink) (turn : Turn MemorySink),
      (create .file schema 2 .standard sink).answer = .ok writer ∧
      Reached .file (turns past writer) (after past writer) ∧
      (after past writer).FooterFits ∧
      turn ∈ turns past writer ∧ turn.Breaks ∧
      Refuses (.writerUnusable .file
          "broken pipe\n\nerror context: [ipc][file-writer][write-record-batch]")
        steps (after past writer) := by
  intro schema batch sink past steps
  let writer : Writer MemorySink := .file
    { session :=
      { mode := .file
        phase := .writable
        sink := { sink with
          held := header .file ++ #[14, 0, 0, 0, 1, 1, 0, 1, 0, 0, 0, 1, 0, 0, 0, 97, 1, 1] }
        schema
        alignment := 2
        bytesWritten := 26
        batchesWritten := 0 }
      schemaBlock := ⟨8, 18, 0⟩
      recordBlocks := [] }
  let turn : Turn MemorySink := ⟨writer, .standard, .write batch⟩
  have hmem : turn ∈ turns past writer := List.mem_cons_self
  obtain ⟨hopen, hanswer, hafter⟩ :
      (create .file schema 2 .standard sink).answer = .ok writer ∧
        turn.outcome.answer = .error (.error (.within (.io ⟨.brokenPipe, none⟩ none)
          "[ipc][file-writer][write-record-batch]")) ∧
        ((after past writer).session.phase, (after past writer).session.schema,
            (after past writer).recordBlocks) =
          (.failed "broken pipe\n\nerror context: [ipc][file-writer][write-record-batch]", schema,
            []) := by
    refine ⟨?_, ?_, ?_⟩ <;> cbv
  have hlength : schema.encode.map List.length = .ok 14 := rfl
  obtain ⟨hfailed, hafter⟩ := Prod.mk.inj hafter
  obtain ⟨hschema, hblocks⟩ := Prod.mk.inj hafter
  have hbreaks : turn.Breaks := ⟨rfl, _, hfailed⟩
  have hfits : (after past writer).FooterFits := by
    intro _ metadata hmetadata
    rw [hschema] at hmetadata
    rw [hmetadata] at hlength
    rw [Footer.size, hblocks, Except.ok.inj hlength]
    decide
  have hreached : Reached .file (turns past writer) (after past writer) :=
    (Reached.opened hopen).after past
  obtain ⟨-, hrepeats, -⟩ := hreached.final hfits steps
  obtain ⟨cause, first, -, hfirst, hrefuses, -⟩ := hrepeats turn hmem hbreaks
  obtain rfl := Failure.error.inj (Except.error.inj (hanswer.symm.trans hfirst))
  exact ⟨writer, turn, hopen, hreached, hfits, hmem, hbreaks, hrefuses⟩

end Writer

end Ipc

end Columnar
