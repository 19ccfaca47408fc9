import Columnar.Proofs.Ipc.Accounting

/-!
# What a writer has sent and reported

After what the sink held before stand the header, the schema message and the messages of the batches
that were written, in order, and then what a last call may have sent that failed or closed.
-/

namespace Columnar.Ipc

/-- A batch that was written, and its message as it lies in the sink. -/
structure Written where
  batch : RecordBatch
  frame : Frame

/-- What is reported of batches when the message of the first begins at a place: their rows, and
where each message begins and how long its parts are. -/
def eventsFrom (mode : Mode) (offset : Nat) : (written : List Written) → List Event
  | [] => []
  | one :: rest =>
    .wroteBatch mode one.batch.rows offset (Message.wordSize + one.frame.metadata.length)
        one.frame.body.length ::
      eventsFrom mode (offset + one.frame.encode.length) rest

theorem eventsFrom_concat (mode : Mode) (offset : Nat) (written : List Written) (last : Written) :
    eventsFrom mode offset (written ++ [last]) = eventsFrom mode offset written ++
      [.wroteBatch mode last.batch.rows
        (offset + ((written.map Written.frame).flatMap Frame.encode).length)
        (Message.wordSize + last.frame.metadata.length) last.frame.body.length] := by
  induction written generalizing offset with
  | nil => rfl
  | cons one rest ih =>
    rw [List.cons_append, eventsFrom, ih, eventsFrom, List.map_cons, List.flatMap_cons,
      List.length_append, Nat.add_assoc]
    rfl

theorem length_eventsFrom (mode : Mode) (offset : Nat) (written : List Written) :
    (eventsFrom mode offset written).length = written.length := by
  induction written generalizing offset with
  | nil => rfl
  | cons one rest ih => exact congrArg (· + 1) (ih _)

namespace Turn

variable {σ : Type}

/-- The call writes the batch, and sends the message. -/
def Writes (alignment : Nat) (turn : Turn σ) (written : Written) : Prop :=
  turn.call = .write written.batch ∧ ∃ message padding,
    (written.batch.encode alignment turn.allocator ()).answer = .ok message ∧
      message.padding? alignment = .ok padding ∧
      written.frame = message.frame padding

variable [Sink σ]

/-- What the calls have reported, in their order. -/
def reports (past : List (Turn σ)) : List Event :=
  past.flatMap fun turn => turn.outcome.events

theorem reports_concat (past : List (Turn σ)) (turn : Turn σ) :
    reports (past ++ [turn]) = reports past ++ turn.outcome.events := by
  simp [reports]

/-- A call is refused. Or its session was writable, and the call makes it fail after a part was
sent, writes a batch, or closes the writer. -/
theorem effect_cases (turn : Turn σ) :
    (∃ failure, turn.outcome = ⟨.error failure, turn.writer, []⟩) ∨
      turn.writer.session.phase = .writable ∧
        ((∃ sink error taken,
            turn.outcome = turn.writer.breakAt turn.call.step sink error ∧
            (Sink.held sink).toList = (Sink.held turn.writer.session.sink).toList ++ taken) ∨
          (∃ written message padding sink,
            turn.Writes turn.writer.session.alignment written ∧
            written.frame = message.frame padding ∧
            turn.outcome = ⟨.ok (),
              turn.writer.advance (.batch written.batch.rows message padding) sink,
              [turn.writer.eventOf (.batch written.batch.rows message padding)]⟩ ∧
            (Sink.held sink).toList =
              (Sink.held turn.writer.session.sink).toList ++ written.frame.encode) ∨
          ∃ trailer sink, turn.call = .close ∧
            turn.outcome = ⟨.ok (), turn.writer.advance (.ending trailer) sink,
              [turn.writer.eventOf (.ending trailer)]⟩ ∧
            (Sink.held sink).toList = (Sink.held turn.writer.session.sink).toList ++
              (Payload.ending trailer).bytes) := by
  cases hplan : turn.plan with
  | refused failure => exact .inl ⟨failure, Writer.act_of_refused hplan⟩
  | unframed error =>
    refine .inr ⟨Writer.phase_of_plan hplan (by rintro _ ⟨⟩), .inl ?_⟩
    exact ⟨_, _, [], Writer.act_of_unframed hplan, (List.append_nil _).symm⟩
  | sent payload =>
    refine .inr ⟨Writer.phase_of_plan hplan (by rintro _ ⟨⟩), ?_⟩
    obtain ⟨taken, -, hheld, hall⟩ := payload.held_deliver_eq turn.writer.session.sink
    rcases hdeliver : payload.deliver turn.writer.session.sink with ⟨_ | error, sink⟩
    · rw [hdeliver] at hheld hall
      -- without an error all bytes were taken
      obtain rfl := hall rfl
      have hact : turn.outcome = _ := Writer.act_of_sent hplan hdeliver
      have hcalled : turn.writer.plan turn.call turn.allocator = .sent payload := hplan
      cases hcall : turn.call with
      | write batch =>
        rw [hcall] at hcalled
        obtain ⟨message, padding, rfl, hmessage, hpadding⟩ := Writer.plan_write_eq_sent hcalled
        obtain ⟨-, -, -, hencode⟩ := Session.prepare_eq_ok hmessage
        refine .inr (.inl ⟨⟨batch, message.frame padding⟩, message, padding, sink, ?_, rfl, hact,
          ?_⟩)
        · exact ⟨hcall, message, padding, hencode, hpadding, rfl⟩
        · rw [hheld, Payload.bytes_batch]
      | close =>
        rw [hcall] at hcalled
        obtain ⟨trailer, rfl, -, -⟩ := Writer.plan_close_eq_sent hcalled
        exact .inr (.inr ⟨trailer, sink, rfl, hact, hheld⟩)
    · rw [hdeliver] at hheld
      exact .inl ⟨sink, _, taken, Writer.act_of_failed hplan hdeliver, hheld⟩

end Turn

namespace Writer

/-- The header, the schema message and the messages of the batches in a row. -/
def output (mode : Mode) (first : Frame) (written : List Written) : List UInt8 :=
  (header mode).toList ++ (first :: written.map Written.frame).flatMap Frame.encode

theorem output_concat (mode : Mode) (first : Frame) (written : List Written) (last : Written) :
    output mode first (written ++ [last]) = output mode first written ++ last.frame.encode := by
  simp [output]

theorem length_output (mode : Mode) (first : Frame) (written : List Written) :
    (output mode first written).length = (header mode).size + first.encode.length +
      ((written.map Written.frame).flatMap Frame.encode).length := by
  rw [output, List.length_append, List.flatMap_cons, List.length_append, Array.length_toList,
    Nat.add_assoc]

variable {σ : Type}

/-- What the call that closed a writer has reported, if one did. -/
def closing (writer : Writer σ) : List Event :=
  match writer.session.phase with
  | .closed =>
    [.closed writer.session.mode writer.session.batchesWritten writer.session.bytesWritten]
  | _ => []

theorem closing_of_ne {writer : Writer σ} (h : writer.session.phase ≠ .closed) :
    writer.closing = [] := by
  rw [closing]
  split
  · contradiction
  · rfl

variable [Sink σ]

/-- What a writer has sent and reported in the calls `past`: the message `first` when it was
opened, and then those of the batches. It was opened on a sink that held `origin`. -/
structure History (mode : Mode) (alignment : Nat) (origin : List UInt8) (first : Frame)
    (past : List (Turn σ)) (writer : Writer σ) (written : List Written) : Prop where
  mode_eq : writer.session.mode = mode
  alignment_eq : writer.session.alignment = alignment
  writes : List.Forall₂ (Turn.Writes alignment) (past.filter Turn.wrote) written
  batchesWritten_eq : writer.session.batchesWritten = written.length
  held_eq : ∃ rest, (Sink.held writer.session.sink).toList =
    origin ++ output mode first written ++ rest
  reports_eq : Turn.reports past =
    eventsFrom mode ((header mode).size + first.encode.length) written ++ writer.closing
  /-- Nothing else was sent before a call failed or closed the writer. -/
  writable : writer.session.phase = .writable →
    (Sink.held writer.session.sink).toList = origin ++ output mode first written ∧
      writer.session.bytesWritten = (output mode first written).length
  closed : writer.session.phase = .closed →
    origin.length + writer.session.bytesWritten = (Sink.held writer.session.sink).size

namespace History

variable {mode : Mode} {alignment : Nat} {origin : List UInt8} {first : Frame}
  {past : List (Turn σ)} {turn : Turn σ} {written : List Written}
  (h : History mode alignment origin first past turn.writer written)
include h

theorem reports_of_writable (hphase : turn.writer.session.phase = .writable) :
    Turn.reports past = eventsFrom mode ((header mode).size + first.encode.length) written := by
  rw [h.reports_eq, closing_of_ne (by rw [hphase]; rintro ⟨⟩), List.append_nil]

theorem of_refused {failure : Failure} (hact : turn.outcome = ⟨.error failure, turn.writer, []⟩) :
    History mode alignment origin first (past ++ [turn]) turn.outcome.state written := by
  have hwrote := Turn.filter_wrote_of_not
    (Turn.wrote_of_error (congrArg Outcome.answer hact)) past
  have hreports : Turn.reports (past ++ [turn]) = Turn.reports past := by
    rw [Turn.reports_concat, hact, List.append_nil]
  rw [hact]
  exact { h with writes := hwrote ▸ h.writes, reports_eq := hreports.trans h.reports_eq }

/-- A part of a message or of an ending follows, and nothing after it. -/
theorem of_break {sink : σ} {error : Error} {taken : List UInt8}
    (hphase : turn.writer.session.phase = .writable)
    (hact : turn.outcome = turn.writer.breakAt turn.call.step sink error)
    (hheld : (Sink.held sink).toList = (Sink.held turn.writer.session.sink).toList ++ taken) :
    History mode alignment origin first (past ++ [turn]) turn.outcome.state written := by
  have hwrote := Turn.filter_wrote_of_not
    (Turn.wrote_of_error (congrArg Outcome.answer hact)) past
  rw [hact]
  exact
    { mode_eq := by rw [mode_breakAt, h.mode_eq]
      alignment_eq := by rw [alignment_breakAt, h.alignment_eq]
      writes := hwrote ▸ h.writes
      batchesWritten_eq := by rw [batchesWritten_breakAt, h.batchesWritten_eq]
      held_eq := ⟨taken, by rw [sink_breakAt, hheld, (h.writable hphase).1]⟩
      reports_eq := by
        rw [Turn.reports_concat, h.reports_of_writable hphase, hact,
          closing_of_ne (by rw [phase_breakAt_eq]; rintro ⟨⟩)]
        rfl
      writable := by
        rw [phase_breakAt_eq]
        rintro ⟨⟩
      closed := by
        rw [phase_breakAt_eq]
        rintro ⟨⟩ }

/-- The message of the batch follows. -/
theorem of_wrote {one : Written} {message : Message} {padding : Nat} {sink : σ}
    (hphase : turn.writer.session.phase = .writable) (hwrites : turn.Writes alignment one)
    (hframe : one.frame = message.frame padding)
    (hact : turn.outcome = ⟨.ok (),
      turn.writer.advance (.batch one.batch.rows message padding) sink,
      [turn.writer.eventOf (.batch one.batch.rows message padding)]⟩)
    (hheld : (Sink.held sink).toList =
      (Sink.held turn.writer.session.sink).toList ++ one.frame.encode) :
    History mode alignment origin first (past ++ [turn]) turn.outcome.state (written ++ [one]) := by
  have hwrote : (past ++ [turn]).filter Turn.wrote = past.filter Turn.wrote ++ [turn] := by
    have hthis : turn.wrote = true := by
      rw [Turn.wrote, hact, hwrites.1]
    rw [List.filter_append, List.filter_singleton, hthis]
    rfl
  obtain ⟨hbefore, hbytes⟩ := h.writable hphase
  have hnow : (Sink.held sink).toList = origin ++ output mode first (written ++ [one]) := by
    rw [hheld, hbefore, output_concat, List.append_assoc]
  -- the message begins where all that was sent before it ends
  have hevent : turn.writer.eventOf (.batch one.batch.rows message padding) =
      .wroteBatch mode one.batch.rows ((header mode).size + first.encode.length +
        ((written.map Written.frame).flatMap Frame.encode).length)
        (Message.wordSize + one.frame.metadata.length) one.frame.body.length := by
    have hbody : one.frame.body.length = message.body.size := by
      rw [hframe, Message.frame, Array.length_toList]
    rw [eventOf, h.mode_eq, hbytes, length_output, hbody, hframe, Message.length_frame_metadata,
      ← Nat.add_assoc, Nat.add_comm Message.wordSize]
  rw [hact]
  exact
    { mode_eq := by rw [mode_advance, h.mode_eq]
      alignment_eq := by rw [alignment_advance, h.alignment_eq]
      writes := by
        rw [hwrote]
        exact List.rel_append h.writes (.cons hwrites .nil)
      batchesWritten_eq := by
        rw [batchesWritten_advance_batch, h.batchesWritten_eq, List.length_append]
        rfl
      held_eq := ⟨[], by rw [sink_advance, hnow, List.append_nil]⟩
      reports_eq := by
        rw [Turn.reports_concat, h.reports_of_writable hphase, hact, eventsFrom_concat, hevent,
          closing_of_ne (by rw [phase_advance_batch, hphase]; rintro ⟨⟩), List.append_nil]
      writable := by
        intro _
        rw [sink_advance, bytesWritten_advance, Payload.bytes_batch, ← hframe, hbytes,
          output_concat, List.length_append, ← output_concat]
        exact ⟨hnow, rfl⟩
      closed := by
        rw [phase_advance_batch, hphase]
        rintro ⟨⟩ }

/-- The ending follows, and is counted as well. -/
theorem of_closed {trailer : Bytes} {sink : σ}
    (hphase : turn.writer.session.phase = .writable) (hcall : turn.call = .close)
    (hact : turn.outcome = ⟨.ok (), turn.writer.advance (.ending trailer) sink,
      [turn.writer.eventOf (.ending trailer)]⟩)
    (hheld : (Sink.held sink).toList =
      (Sink.held turn.writer.session.sink).toList ++ (Payload.ending trailer).bytes) :
    History mode alignment origin first (past ++ [turn]) turn.outcome.state written := by
  have hnot : turn.wrote = false := by rw [Turn.wrote, hcall]
  have hwrote := Turn.filter_wrote_of_not hnot past
  obtain ⟨hbefore, hbytes⟩ := h.writable hphase
  rw [hact]
  exact
    { mode_eq := by rw [mode_advance, h.mode_eq]
      alignment_eq := by rw [alignment_advance, h.alignment_eq]
      writes := hwrote ▸ h.writes
      batchesWritten_eq := by rw [batchesWritten_advance_ending, h.batchesWritten_eq]
      held_eq := ⟨_, by rw [sink_advance, hheld, hbefore]⟩
      reports_eq := by
        rw [Turn.reports_concat, h.reports_of_writable hphase, hact, closing, phase_advance_ending,
          mode_advance, batchesWritten_advance_ending, bytesWritten_advance]
        rfl
      writable := by
        rw [phase_advance_ending]
        rintro ⟨⟩
      closed := by
        intro _
        rw [bytesWritten_advance, hbytes, sink_advance, ← Array.length_toList, hheld, hbefore,
          List.length_append, List.length_append, Nat.add_assoc] }

/-- Every call goes on with the history, whatever the sink does. -/
theorem act : ∃ more,
    History mode alignment origin first (past ++ [turn]) turn.outcome.state (written ++ more) := by
  obtain ⟨failure, hact⟩ | ⟨hphase, hbreak | hwrite | hclose⟩ := turn.effect_cases
  · exact ⟨[], by rw [List.append_nil]; exact h.of_refused hact⟩
  · obtain ⟨sink, error, taken, hact, hheld⟩ := hbreak
    exact ⟨[], by rw [List.append_nil]; exact h.of_break hphase hact hheld⟩
  · obtain ⟨one, message, padding, sink, hwrites, hframe, hact, hheld⟩ := hwrite
    exact ⟨[one], h.of_wrote hphase (h.alignment_eq ▸ hwrites) hframe hact hheld⟩
  · obtain ⟨trailer, sink, hcall, hact, hheld⟩ := hclose
    exact ⟨[], by rw [List.append_nil]; exact h.of_closed hphase hcall hact hheld⟩

end History

variable {mode : Mode} {schema : Schema} {alignment : Nat} {opening : Allocator} {sink : σ}
  {writer : Writer σ}

/-- A writer that was just opened has sent its header and the schema message. -/
theorem history_of_create
    (hopen : (create mode schema alignment opening sink).answer = .ok writer) :
    ∃ metadata padding, schema.encode = .ok metadata ∧
      Message.padding? ⟨metadata.toArray, #[]⟩ alignment = .ok padding ∧
      History mode alignment (Sink.held sink).toList
        (Message.frame ⟨metadata.toArray, #[]⟩ padding) [] writer [] := by
  obtain ⟨message, padding, after, hopening, hoffer, rfl⟩ := create_eq_ok hopen
  obtain ⟨metadata, hmetadata, rfl, hpadding⟩ := Session.opening_eq_framed hopening
  obtain ⟨count, -, hheld, hall⟩ :=
    Sink.held_offerAll (header mode :: Message.parts ⟨metadata.toArray, #[]⟩ padding) sink
  rw [hoffer] at hheld hall
  rw [hall.mp rfl, List.take_length, joined_cons, Message.joined_parts] at hheld
  have houtput : output mode (Message.frame ⟨metadata.toArray, #[]⟩ padding) [] =
      (header mode).toList ++ (Message.frame ⟨metadata.toArray, #[]⟩ padding).encode := by
    simp [output]
  refine ⟨metadata, padding, hmetadata, hpadding, ?_⟩
  exact
    { mode_eq := by rw [session_ofSession]; rfl
      alignment_eq := by rw [session_ofSession]; rfl
      writes := .nil
      batchesWritten_eq := by rw [session_ofSession]; rfl
      held_eq := ⟨[], by rw [session_ofSession, houtput, List.append_nil]; exact hheld⟩
      reports_eq := by
        rw [closing_of_ne (by rw [session_ofSession]; rintro ⟨⟩)]
        rfl
      writable := by
        intro _
        rw [session_ofSession, houtput, List.length_append, Array.length_toList]
        exact ⟨hheld, rfl⟩
      closed := by
        rw [session_ofSession]
        rintro ⟨⟩ }

/-- After any sequence of calls the sink holds what a writer has sent. -/
theorem history (hopen : (create mode schema alignment opening sink).answer = .ok writer)
    (steps : List (Allocator × Call)) :
    ∃ metadata padding written, schema.encode = .ok metadata ∧
      Message.padding? ⟨metadata.toArray, #[]⟩ alignment = .ok padding ∧
      History mode alignment (Sink.held sink).toList
        (Message.frame ⟨metadata.toArray, #[]⟩ padding) (turns steps writer) (after steps writer)
        written := by
  obtain ⟨metadata, padding, hmetadata, hpadding, hfirst⟩ := history_of_create hopen
  have hall := after_preserves
    (fun past writer => ∃ written, History mode alignment (Sink.held sink).toList
      (Message.frame ⟨metadata.toArray, #[]⟩ padding) past writer written)
    (fun past turn ⟨written, h⟩ => h.act.imp' _ fun _ hmore => hmore) ⟨[], hfirst⟩ steps
  obtain ⟨written, hhistory⟩ := hall
  exact ⟨metadata, padding, written, hmetadata, hpadding, hhistory⟩

end Writer

end Columnar.Ipc
