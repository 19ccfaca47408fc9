import Columnar.Proofs.Ipc.Writer
import Mathlib

/-!
# What writers count

Whatever the sink does, and whichever batches are refused, the counts of bytes, batches and blocks
are those of what went out before the session failed, if it did.
-/

namespace Columnar.Ipc

namespace Turn

variable {σ : Type}

/-- The bytes are what the call has to send. -/
def Sends (turn : Turn σ) (bytes : List UInt8) : Prop :=
  turn.writer.Sends turn.call turn.allocator bytes

variable [Sink σ]

/-- The call writes a batch, and succeeds. -/
def wrote (turn : Turn σ) : Bool :=
  match turn.call, turn.outcome.answer with
  | .write _, .ok _ => true
  | _, _ => false

/-- The call makes the session fail. -/
def Breaks (turn : Turn σ) : Prop :=
  turn.writer.session.phase = .writable ∧
    ∃ message, turn.outcome.state.session.phase = .failed message

theorem wrote_of_error {turn : Turn σ} {failure : Failure}
    (h : turn.outcome.answer = .error failure) : turn.wrote = false := by
  rw [wrote, h]
  cases turn.call <;> rfl

theorem filter_wrote_of_not {turn : Turn σ} (h : turn.wrote = false) (past : List (Turn σ)) :
    (past ++ [turn]).filter wrote = past.filter wrote := by
  rw [List.filter_append, List.filter_singleton, h]
  exact List.append_nil _

end Turn

namespace Writer

variable {σ : Type} [Sink σ]

/-- What a writer has counted after the calls `past`. What it sent when it was opened is `first`,
and `messages` are the messages of the batches that were written. -/
structure Accounts (mode : Mode) (first : List UInt8) (past : List (Turn σ)) (writer : Writer σ)
    (messages : List (List UInt8)) : Prop where
  layout_eq : writer.layout = mode
  sends : List.Forall₂ Turn.Sends (past.filter Turn.wrote) messages
  batchesWritten_eq : writer.session.batchesWritten = (past.filter Turn.wrote).length
  recordBlocks_eq : mode = .file →
    writer.recordBlocks.length = writer.session.batchesWritten
  writable : writer.session.phase = .writable →
    (Sink.held writer.session.sink).toList = first ++ messages.flatten ∧
      writer.session.bytesWritten = (Sink.held writer.session.sink).size
  /-- The end marker and the trailer come last. -/
  closed : writer.session.phase = .closed →
    writer.session.bytesWritten = (Sink.held writer.session.sink).size ∧
      ∃ turn ∈ past, turn.call = .close ∧ turn.outcome.answer = .ok () ∧
        ∃ ending, turn.Sends ending ∧
          (Sink.held writer.session.sink).toList = first ++ messages.flatten ++ ending
  /-- What comes last is a part of what could not be sent. -/
  failed : ∀ {message}, writer.session.phase = .failed message →
    writer.session.bytesWritten = (first ++ messages.flatten).length ∧
      ∃ turn ∈ past, turn.Breaks ∧
        ∃ rest, (Sink.held writer.session.sink).toList = first ++ messages.flatten ++ rest ∧
          (rest = [] ∨ ∃ bytes, turn.Sends bytes ∧ rest <+: bytes)

namespace Accounts

variable {mode : Mode} {first : List UInt8} {past : List (Turn σ)} {turn : Turn σ}
  {messages : List (List UInt8)} (h : Accounts mode first past turn.writer messages)
include h

/-- A call that is refused changes nothing. -/
theorem of_refused {failure : Failure} (hplan : turn.plan = .refused failure) :
    Accounts mode first (past ++ [turn]) turn.outcome.state messages := by
  have hact : turn.outcome = ⟨.error failure, turn.writer, []⟩ := act_of_refused hplan
  have hwrote := Turn.filter_wrote_of_not
    (Turn.wrote_of_error (congrArg Outcome.answer hact)) past
  rw [hact]
  refine ⟨h.layout_eq, hwrote ▸ h.sends, hwrote ▸ h.batchesWritten_eq, h.recordBlocks_eq,
    h.writable, ?_, ?_⟩
  · intro hphase
    obtain ⟨hbytes, closing, hmem, hrest⟩ := h.closed hphase
    exact ⟨hbytes, closing, List.mem_append_left _ hmem, hrest⟩
  · intro message hphase
    obtain ⟨hbytes, breaking, hmem, hrest⟩ := h.failed hphase
    exact ⟨hbytes, breaking, List.mem_append_left _ hmem, hrest⟩

/-- A call that makes the session fail has sent a part of what it should have sent. -/
theorem of_break {step : String} {sink : σ} {error : Error} {rest : List UInt8}
    (hphase : turn.writer.session.phase = .writable)
    (hact : turn.outcome = turn.writer.breakAt step sink error)
    (hheld : (Sink.held sink).toList = (Sink.held turn.writer.session.sink).toList ++ rest)
    (hrest : rest = [] ∨ ∃ bytes, turn.Sends bytes ∧ rest <+: bytes) :
    Accounts mode first (past ++ [turn]) turn.outcome.state messages := by
  have hwrote := Turn.filter_wrote_of_not
    (Turn.wrote_of_error (congrArg Outcome.answer hact)) past
  obtain ⟨message, hfailed⟩ := phase_breakAt step sink error turn.writer
  obtain ⟨hbefore, hbytes⟩ := h.writable hphase
  have hbreaks : turn.Breaks := ⟨hphase, message, by rw [hact]; exact hfailed⟩
  rw [hact]
  exact
    { layout_eq := by rw [layout_breakAt, h.layout_eq]
      sends := hwrote ▸ h.sends
      batchesWritten_eq := by rw [hwrote, batchesWritten_breakAt, h.batchesWritten_eq]
      recordBlocks_eq := by
        rw [recordBlocks_breakAt, batchesWritten_breakAt]
        exact h.recordBlocks_eq
      writable := by
        rw [hfailed]
        rintro ⟨⟩
      closed := by
        rw [hfailed]
        rintro ⟨⟩
      failed := by
        intro _ _
        -- the count is that of the time before the call, when it was all that the sink held
        rw [bytesWritten_breakAt, hbytes, ← hbefore, Array.length_toList, sink_breakAt, hheld,
          hbefore]
        exact ⟨rfl, turn, List.mem_append_right _ (List.mem_singleton_self _), hbreaks, rest, rfl,
          hrest⟩ }

/-- A batch that is sent is counted, and its message stands after all others. -/
theorem of_wrote {batch : RecordBatch} {message : Message} {padding : Nat} {sink : σ}
    (hcall : turn.call = .write batch)
    (hplan : turn.plan = .sent (.batch batch.rows message padding))
    (hdeliver : (Payload.batch batch.rows message padding).deliver turn.writer.session.sink =
      (none, sink)) :
    Accounts mode first (past ++ [turn]) turn.outcome.state
      (messages ++ [(Payload.batch batch.rows message padding).bytes]) := by
  have hact : turn.outcome = _ := act_of_sent hplan hdeliver
  have hphase : turn.writer.session.phase = .writable := phase_of_plan hplan (by rintro _ ⟨⟩)
  have hwrote : (past ++ [turn]).filter Turn.wrote = past.filter Turn.wrote ++ [turn] := by
    have hthis : turn.wrote = true := by
      rw [Turn.wrote, hact, hcall]
    rw [List.filter_append, List.filter_singleton, hthis]
    rfl
  obtain ⟨hbefore, hbytes⟩ := h.writable hphase
  obtain ⟨taken, -, hheld, hall⟩ :=
    (Payload.batch batch.rows message padding).held_deliver_eq turn.writer.session.sink
  rw [hdeliver] at hheld hall
  -- the sink answered without an error, so it took all bytes of the message
  obtain rfl := hall rfl
  rw [hact]
  exact
    { layout_eq := by rw [layout_advance, h.layout_eq]
      sends := by
        rw [hwrote]
        exact List.rel_append h.sends (.cons (sends_of_plan hplan) .nil)
      batchesWritten_eq := by
        rw [hwrote, batchesWritten_advance_batch, h.batchesWritten_eq, List.length_append]
        rfl
      recordBlocks_eq := by
        intro hfile
        rw [recordBlocks_advance_batch _ _ _ _ (h.layout_eq.trans hfile), List.length_append,
          h.recordBlocks_eq hfile, batchesWritten_advance_batch]
        rfl
      writable := by
        intro _
        rw [sink_advance]
        refine ⟨by rw [hheld, hbefore, List.flatten_concat, List.append_assoc], ?_⟩
        rw [bytesWritten_advance, hbytes, ← Array.length_toList, ← Array.length_toList, hheld,
          List.length_append]
      closed := by
        rw [phase_advance_batch, hphase]
        rintro ⟨⟩
      failed := by
        rw [phase_advance_batch, hphase]
        rintro _ ⟨⟩ }

/-- An ending that is sent stands after all messages. -/
theorem of_closed {trailer : Bytes} {sink : σ} (hcall : turn.call = .close)
    (hplan : turn.plan = .sent (.ending trailer))
    (hdeliver : (Payload.ending trailer).deliver turn.writer.session.sink = (none, sink)) :
    Accounts mode first (past ++ [turn]) turn.outcome.state messages := by
  have hact : turn.outcome = _ := act_of_sent hplan hdeliver
  have hphase : turn.writer.session.phase = .writable := phase_of_plan hplan (by rintro _ ⟨⟩)
  have hnot : turn.wrote = false := by rw [Turn.wrote, hcall]
  have hwrote := Turn.filter_wrote_of_not hnot past
  obtain ⟨hbefore, hbytes⟩ := h.writable hphase
  obtain ⟨taken, -, hheld, hall⟩ :=
    (Payload.ending trailer).held_deliver_eq turn.writer.session.sink
  rw [hdeliver] at hheld hall
  obtain rfl := hall rfl
  rw [hact]
  exact
    { layout_eq := by rw [layout_advance, h.layout_eq]
      sends := hwrote ▸ h.sends
      batchesWritten_eq := by rw [hwrote, batchesWritten_advance_ending, h.batchesWritten_eq]
      recordBlocks_eq := by
        rw [recordBlocks_advance_ending, batchesWritten_advance_ending]
        exact h.recordBlocks_eq
      writable := by
        rw [phase_advance_ending]
        rintro ⟨⟩
      closed := by
        intro _
        rw [sink_advance]
        refine ⟨?_, turn, List.mem_append_right _ (List.mem_singleton_self _), hcall,
          by rw [hact], _, sends_of_plan hplan, by rw [hheld, hbefore]⟩
        rw [bytesWritten_advance, hbytes, ← Array.length_toList, ← Array.length_toList, hheld,
          List.length_append]
      failed := by
        rw [phase_advance_ending]
        rintro _ ⟨⟩ }

/-- Every call keeps the counts right, whatever the sink does. -/
theorem act : ∃ more, Accounts mode first (past ++ [turn]) turn.outcome.state
    (messages ++ more) := by
  cases hplan : turn.plan with
  | refused failure => exact ⟨[], by rw [List.append_nil]; exact h.of_refused hplan⟩
  | unframed error =>
    have hphase : turn.writer.session.phase = .writable := phase_of_plan hplan (by rintro _ ⟨⟩)
    refine ⟨[], ?_⟩
    rw [List.append_nil]
    exact h.of_break hphase (act_of_unframed hplan) (List.append_nil _).symm (.inl rfl)
  | sent payload =>
    have hphase : turn.writer.session.phase = .writable := phase_of_plan hplan (by rintro _ ⟨⟩)
    rcases hdeliver : payload.deliver turn.writer.session.sink with ⟨_ | error, sink⟩
    · have hcalled : turn.writer.plan turn.call turn.allocator = .sent payload := hplan
      cases hcall : turn.call with
      | write batch =>
        rw [hcall] at hcalled
        obtain ⟨message, padding, rfl, -, -⟩ := plan_write_eq_sent hcalled
        exact ⟨_, h.of_wrote hcall hplan hdeliver⟩
      | close =>
        rw [hcall] at hcalled
        obtain ⟨trailer, rfl, -, -⟩ := plan_close_eq_sent hcalled
        exact ⟨[], by rw [List.append_nil]; exact h.of_closed hcall hplan hdeliver⟩
    · obtain ⟨taken, htaken, hheld, -⟩ := payload.held_deliver_eq turn.writer.session.sink
      rw [hdeliver] at hheld
      refine ⟨[], ?_⟩
      rw [List.append_nil]
      exact h.of_break hphase (act_of_failed hplan hdeliver) hheld
        (.inr ⟨_, sends_of_plan hplan, htaken⟩)

end Accounts

variable {mode : Mode} {schema : Schema} {alignment : Nat} {opening : Allocator} {sink : σ}
  {writer : Writer σ}

/-- A writer that was opened on an empty sink has counted its header and its schema message. -/
theorem accounts_of_create (hempty : Sink.held sink = #[])
    (hopen : (create mode schema alignment opening sink).answer = .ok writer) :
    ∃ metadata padding, schema.encode = .ok metadata ∧
      Accounts mode ((header mode).toList ++
        (⟨metadata ++ List.replicate padding 0, []⟩ : Frame).encode) [] writer [] := by
  obtain ⟨message, padding, after, hopening, hoffer, rfl⟩ := create_eq_ok hopen
  obtain ⟨metadata, hmetadata, rfl, -⟩ := Session.opening_eq_framed hopening
  -- there is a writer only if all parts were taken, and the sink held nothing before them
  obtain ⟨count, -, hheld, hall⟩ :=
    Sink.held_offerAll (header mode :: Message.parts ⟨metadata.toArray, #[]⟩ padding) sink
  rw [hoffer] at hheld hall
  rw [hall.mp rfl, List.take_length, hempty, joined_cons, Message.joined_parts] at hheld
  simp only [List.nil_append] at hheld
  refine ⟨metadata, padding, hmetadata, ?_⟩
  exact
    { layout_eq := layout_ofSession _ _ _
      sends := .nil
      batchesWritten_eq := by rw [session_ofSession]; rfl
      recordBlocks_eq := by
        intro _
        rw [session_ofSession, recordBlocks_ofSession]
        rfl
      writable := by
        intro _
        rw [session_ofSession]
        refine ⟨hheld.trans (List.append_nil _).symm, ?_⟩
        show _ = (Sink.held after).size
        rw [← Array.length_toList, hheld, List.length_append, Array.length_toList]
        rfl
      closed := by
        rw [session_ofSession]
        rintro ⟨⟩
      failed := by
        rw [session_ofSession]
        rintro _ ⟨⟩ }

/-- What a writer counts is what it sent. This holds of a writer that was opened on an empty
sink, after any sequence of calls and whatever the sink does. And a message that was sent always
has a block, wherever it stands. -/
theorem accounts (hempty : Sink.held sink = #[])
    (hopen : (create mode schema alignment opening sink).answer = .ok writer)
    (steps : List (Allocator × Call)) :
    (∃ metadata padding messages, schema.encode = .ok metadata ∧
      Accounts mode ((header mode).toList ++
          (⟨metadata ++ List.replicate padding 0, []⟩ : Frame).encode)
        (turns steps writer) (after steps writer) messages) ∧
      ∀ (message : Message) (alignment : Nat) (allocator : Allocator) (sink : σ)
        (metadataLength bodyLength offset : Nat),
        (Message.write alignment message allocator sink).answer =
            .ok (metadataLength, bodyLength) →
          Block.create offset metadataLength bodyLength =
            .ok ⟨offset, metadataLength, bodyLength⟩ := by
  obtain ⟨metadata, padding, hmetadata, hfirst⟩ := accounts_of_create hempty hopen
  refine ⟨?_, fun message alignment allocator sink metadataLength bodyLength offset hwrite =>
    Message.create_of_write hwrite offset⟩
  have hall := after_preserves
    (fun past writer => ∃ messages, Accounts mode ((header mode).toList ++
      (⟨metadata ++ List.replicate padding 0, []⟩ : Frame).encode) past writer messages)
    (fun past turn ⟨messages, h⟩ => h.act.imp' _ fun _ hmore => hmore) ⟨[], hfirst⟩ steps
  obtain ⟨messages, haccounts⟩ := hall
  exact ⟨metadata, padding, messages, hmetadata, haccounts⟩

set_option maxRecDepth 8000 in
/-- A sink of a hundred bytes runs full in the message of the second batch. -/
theorem accounts_of_full :
    let schema : Schema := ⟨[⟨"a", .int8, true⟩]⟩
    let batch : RecordBatch := ⟨schema, [Column.empty "a" .int8]⟩
    let sink : MemorySink := { MemorySink.empty with capacity := some 100 }
    let steps := [(Allocator.standard, Call.write batch), (Allocator.standard, Call.write batch)]
    ∃ (writer : Writer MemorySink) (metadata : List UInt8) (padding : Nat)
      (message : List UInt8),
      (create .file schema 2 .standard sink).answer = .ok writer ∧
      schema.encode = .ok metadata ∧
      Accounts .file ((header .file).toList ++
          (⟨metadata ++ List.replicate padding 0, []⟩ : Frame).encode)
        (turns steps writer) (after steps writer) [message] ∧
      (after steps writer).session.bytesWritten = 94 ∧
      (Sink.held (after steps writer).session.sink).size = 100 := by
  intro schema batch sink steps
  let writer : Writer MemorySink := .file
    { session :=
      { mode := .file
        phase := .writable
        sink := { sink with
          held := header .file ++ #[14, 0, 0, 0, 1, 1, 0, 1, 0, 0, 0, 1, 0, 0, 0, 97, 1, 1] }
        schema
        alignment := 2
        bytesWritten := 26
        batchesWritten := 0 }
      schemaBlock := ⟨8, 18, 0⟩
      recordBlocks := [] }
  have hopen : (create .file schema 2 .standard sink).answer = .ok writer := by cbv
  have hcounts : ((after steps writer).session.bytesWritten,
      (after steps writer).session.batchesWritten,
      (Sink.held (after steps writer).session.sink).size) = (94, 1, 100) := by cbv
  obtain ⟨hbytes, hcounts⟩ := Prod.mk.inj hcounts
  obtain ⟨hbatches, hsize⟩ := Prod.mk.inj hcounts
  obtain ⟨⟨metadata, padding, messages, hmetadata, haccounts⟩, -⟩ := accounts rfl hopen steps
  have hone : messages.length = 1 := by
    rw [← haccounts.sends.length_eq, ← haccounts.batchesWritten_eq, hbatches]
  obtain ⟨message, rfl⟩ := List.length_eq_one_iff.mp hone
  exact ⟨writer, metadata, padding, message, hopen, hmetadata, haccounts, hbytes, hsize⟩

end Writer

end Columnar.Ipc
