import Columnar.Proofs.Ipc.Accounting
import Columnar.Proofs.Ipc.Footer
import Columnar.Proofs.Ipc.Session
import Columnar.Proofs.Ipc.Truncation

/-! # A file is a stream in an envelope -/

namespace Columnar

open Ipc

namespace Result

variable {α β : Type}

/-- Both results are values, or both are errors of one kind whose roots are of one kind, or both
are the same breach. -/
def Alike : Result α → Result β → Prop
  | .ok _, .ok _ => True
  | .error (.error first), .error (.error second) =>
    first.kind = second.kind ∧ first.root.kind = second.root.kind
  | .error (.breach first), .error (.breach second) => first = second
  | _, _ => False

theorem alike_ok (first : α) (second : β) :
    Alike (.ok first : Result α) (.ok second : Result β) :=
  trivial

theorem alike_error (failure : Failure) :
    Alike (.error failure : Result α) (.error failure : Result β) := by
  cases failure with
  | error error => exact ⟨rfl, rfl⟩
  | breach reason => exact rfl

/-- The places that an error passes through do not matter. -/
theorem alike_failedAt (place other : String) (failure : Failure) :
    Alike (.error (Session.failedAt place failure) : Result α)
      (.error (Session.failedAt other failure) : Result β) := by
  cases failure with
  | error error => exact ⟨rfl, rfl⟩
  | breach reason => exact rfl

end Result

namespace Ipc

/-- The block of the same message that much later. -/
def Block.moved (distance : Nat) (block : Block) : Block :=
  { block with offset := distance + block.offset }

theorem blocksFrom_add (distance offset : Nat) (frames : List Frame) :
    blocksFrom (distance + offset) frames =
      (blocksFrom offset frames).map (Block.moved distance) := by
  induction frames generalizing offset with
  | nil => rfl
  | cons frame rest ih =>
    rw [blocksFrom, Nat.add_assoc, ih]
    rfl

namespace Writer

variable {σ τ : Type} [Sink σ] [Sink τ] {good : σ → Prop} {fair : τ → Prop} {plain : σ}
  {packed : τ} {schema : Schema} {first : Frame} {frames : List Frame} {stream : Writer σ}
  {file : Writer τ}

/-- Batches as calls, each with the allocator that it meets. -/
def writes (steps : List (Allocator × RecordBatch)) : List (Allocator × Call) :=
  steps.map fun step => (step.1, .write step.2)

/-! ## Calls over sinks that never fail -/

omit [Sink σ] [Sink τ] in
/-- What a batch makes a writer do does not depend on its layout. -/
theorem plan_write_congr (hstream : stream.session.phase = .writable)
    (hfile : file.session.phase = .writable)
    (hschema : file.session.schema = stream.session.schema)
    (halignment : file.session.alignment = stream.session.alignment) (batch : RecordBatch)
    (allocator : Allocator) :
    file.plan (.write batch) allocator = stream.plan (.write batch) allocator := by
  rw [plan, plan, Session.prepare, Session.prepare, Session.ensureWritable_of_eq hstream,
    Session.ensureWritable_of_eq hfile, hschema, halignment]

/-- What a call sends arrives, and nothing else does. -/
theorem act_of_reliable (hgood : Sink.Reliable good) (hsink : good stream.session.sink)
    {call : Call} {allocator : Allocator} {payload : Payload}
    (hplan : stream.plan call allocator = .sent payload) :
    ∃ sink, good sink ∧
      (Sink.held sink).toList = (Sink.held stream.session.sink).toList ++ payload.bytes ∧
      act call allocator stream =
        ⟨.ok (), stream.advance payload sink, [stream.eventOf payload]⟩ := by
  obtain ⟨hnone, hafter, hheld⟩ := payload.deliver_reliable hgood hsink
  rcases hdeliver : payload.deliver stream.session.sink with ⟨answer, sink⟩
  rw [hdeliver] at hnone hafter hheld
  obtain rfl : answer = none := hnone
  exact ⟨sink, hafter, hheld, act_of_sent hplan hdeliver⟩

omit [Sink σ] in
theorem ensureWritable_of_failed {text : String} (hphase : stream.session.phase = .failed text) :
    stream.session.ensureWritable =
      .error (.error (.raised (.writerUnusable stream.session.mode text))) := by
  rw [Session.ensureWritable, hphase]
  rfl

omit [Sink σ] in
/-- Nothing follows the end marker of a stream. -/
theorem trailer_of_stream (hlayout : stream.layout = .stream) : stream.trailer = .ok #[] := by
  cases stream with
  | stream writer => rfl
  | file writer => cases hlayout

omit [Sink σ] in
theorem plan_close_of_writable {trailer : Bytes} (htrailer : stream.trailer = .ok trailer)
    (hphase : stream.session.phase = .writable) (allocator : Allocator) :
    stream.plan .close allocator = .sent (.ending trailer) := by
  rw [plan, htrailer, Session.ensureWritable_of_eq hphase]

/-! ## The two writers after the same batches -/

/-- Neither session has failed, or both have. -/
def AlikePhases (stream : Writer σ) (file : Writer τ) : Prop :=
  stream.session.phase = .writable ∧ file.session.phase = .writable ∨
    ∃ text other, stream.session.phase = .failed text ∧ file.session.phase = .failed other

/-- Before they are closed, a writer of streams and a writer of files have sent the same frames
after what their sinks held at first, the writer of files after its header. -/
structure Lockstep (good : σ → Prop) (fair : τ → Prop) (plain : σ) (packed : τ) (schema : Schema)
    (first : Frame) (frames : List Frame) (stream : Writer σ) (file : Writer τ) : Prop where
  layout_stream : stream.layout = .stream
  layout_file : file.layout = .file
  schema_stream : stream.session.schema = schema
  schema_file : file.session.schema = schema
  alignment_eq : file.session.alignment = stream.session.alignment
  phases : AlikePhases stream file
  good_sink : good stream.session.sink
  fair_sink : fair file.session.sink
  held_stream : (Sink.held stream.session.sink).toList =
    (Sink.held plain).toList ++ (first :: frames).flatMap Frame.encode
  held_file : (Sink.held file.session.sink).toList = (Sink.held packed).toList ++
    (FileWriter.header.toList ++ (first :: frames).flatMap Frame.encode)
  bytesWritten_eq : file.session.bytesWritten =
    FileWriter.header.size + ((first :: frames).flatMap Frame.encode).length
  recordBlocks_eq : file.recordBlocks =
    blocksFrom (FileWriter.header.size + first.encode.length) frames

namespace Lockstep

variable (h : Lockstep good fair plain packed schema first frames stream file)
include h

/-- A message that cannot be framed makes both sessions fail, and nothing is sent. -/
theorem of_break (step : String) (error : Error) :
    Lockstep good fair plain packed schema first frames
      (stream.breakAt step stream.session.sink error).state
      (file.breakAt step file.session.sink error).state where
  layout_stream := by rw [layout_breakAt, h.layout_stream]
  layout_file := by rw [layout_breakAt, h.layout_file]
  schema_stream := by rw [schema_breakAt, h.schema_stream]
  schema_file := by rw [schema_breakAt, h.schema_file]
  alignment_eq := by rw [alignment_breakAt, alignment_breakAt, h.alignment_eq]
  phases := .inr ⟨_, _, phase_breakAt_eq _ _ _ _, phase_breakAt_eq _ _ _ _⟩
  good_sink := by
    rw [sink_breakAt]
    exact h.good_sink
  fair_sink := by
    rw [sink_breakAt]
    exact h.fair_sink
  held_stream := by rw [sink_breakAt, h.held_stream]
  held_file := by rw [sink_breakAt, h.held_file]
  bytesWritten_eq := by rw [bytesWritten_breakAt, h.bytesWritten_eq]
  recordBlocks_eq := by rw [recordBlocks_breakAt, h.recordBlocks_eq]

/-- A message that is sent arrives in both sinks, and its block in the file is the next one. -/
theorem of_sent (rows : Nat) (message : Message) (padding : Nat) {sink : σ} {other : τ}
    (hgood : good sink) (hfair : fair other)
    (hstream : (Sink.held sink).toList = (Sink.held stream.session.sink).toList ++
      (Payload.batch rows message padding).bytes)
    (hfile : (Sink.held other).toList = (Sink.held file.session.sink).toList ++
      (Payload.batch rows message padding).bytes) :
    Lockstep good fair plain packed schema first (frames ++ [message.frame padding])
      (stream.advance (.batch rows message padding) sink)
      (file.advance (.batch rows message padding) other) := by
  have hall : (first :: (frames ++ [message.frame padding])).flatMap Frame.encode =
      (first :: frames).flatMap Frame.encode ++ (message.frame padding).encode := by
    rw [← List.cons_append, List.flatMap_append, List.flatMap_singleton]
  rw [Payload.bytes_batch] at hstream hfile
  exact
    { layout_stream := by rw [layout_advance, h.layout_stream]
      layout_file := by rw [layout_advance, h.layout_file]
      schema_stream := by rw [schema_advance, h.schema_stream]
      schema_file := by rw [schema_advance, h.schema_file]
      alignment_eq := by rw [alignment_advance, alignment_advance, h.alignment_eq]
      phases := by
        rw [AlikePhases, phase_advance_batch, phase_advance_batch]
        exact h.phases
      good_sink := by rwa [sink_advance]
      fair_sink := by rwa [sink_advance]
      held_stream := by rw [sink_advance, hstream, h.held_stream, hall, List.append_assoc]
      held_file := by
        rw [sink_advance, hfile, h.held_file, hall, List.append_assoc, List.append_assoc]
      bytesWritten_eq := by
        rw [bytesWritten_advance, h.bytesWritten_eq, Payload.bytes_batch, hall, List.length_append,
          Nat.add_assoc]
      recordBlocks_eq := by
        -- the place of the message is the end of all messages before it
        rw [recordBlocks_advance_batch _ _ _ _ h.layout_file, h.recordBlocks_eq, h.bytesWritten_eq,
          blocksFrom_concat, List.flatMap_cons, List.length_append, Nat.add_assoc] }

/-- A batch is accepted by both writers or by none, and it is the same message that they send. -/
theorem write (hreliable : Sink.Reliable good) (hfaithful : Sink.Reliable fair)
    (batch : RecordBatch) (allocator : Allocator) :
    (act (.write batch) allocator stream).answer.Alike
        (act (.write batch) allocator file).answer ∧
      ∃ more, Lockstep good fair plain packed schema first (frames ++ more)
          (act (.write batch) allocator stream).state (act (.write batch) allocator file).state ∧
        List.Forall₂ Turn.Sends ([⟨stream, allocator, .write batch⟩].filter Turn.wrote)
          (more.map Frame.encode) := by
  have hnone : ∀ {failure}, (act (.write batch) allocator stream).answer = .error failure →
      List.Forall₂ Turn.Sends (([⟨stream, allocator, .write batch⟩] : List (Turn σ)).filter
        Turn.wrote) (([] : List Frame).map Frame.encode) := by
    intro failure hanswer
    have hwrote : (⟨stream, allocator, .write batch⟩ : Turn σ).wrote = false :=
      Turn.wrote_of_error hanswer
    rw [List.filter_singleton, hwrote]
    exact .nil
  obtain ⟨hstream, hfile⟩ | ⟨text, other, hstream, hfile⟩ := h.phases
  -- of a writer a plan looks at schema, alignment and phase alone, so both plan the same
  · have hplan := plan_write_congr hstream hfile (h.schema_file.trans h.schema_stream.symm)
      h.alignment_eq batch allocator
    cases hcase : stream.plan (.write batch) allocator with
    | refused failure =>
      have hact := act_of_refused hcase
      rw [act_of_refused (hplan.trans hcase)]
      refine ⟨?_, [], ?_, hnone (congrArg Outcome.answer hact)⟩
      · rw [hact]
        exact Result.alike_error failure
      · rw [hact, List.append_nil]
        exact h
    | unframed error =>
      have hact := act_of_unframed hcase
      rw [act_of_unframed (hplan.trans hcase)]
      refine ⟨?_, [], ?_, hnone (congrArg Outcome.answer hact)⟩
      · rw [hact]
        exact ⟨rfl, rfl⟩
      · rw [hact, List.append_nil]
        exact h.of_break _ error
    | sent payload =>
      obtain ⟨message, padding, rfl, -, -⟩ := plan_write_eq_sent hcase
      obtain ⟨sink, hgood, hheld, hact⟩ := act_of_reliable hreliable h.good_sink hcase
      obtain ⟨other, hfair, hother, hactFile⟩ :=
        act_of_reliable hfaithful h.fair_sink (hplan.trans hcase)
      have hwrote : Turn.wrote ⟨stream, allocator, .write batch⟩ = true := by
        rw [Turn.wrote, Turn.outcome, hact]
      rw [hact, hactFile, List.filter_singleton, hwrote]
      refine ⟨Result.alike_ok _ _, [message.frame padding],
        h.of_sent batch.rows message padding hgood hfair hheld hother, ?_⟩
      have hsends := sends_of_plan hcase
      rw [Payload.bytes_batch] at hsends
      exact .cons hsends .nil
  -- both have failed before, and refuse
  · have hact := act_write_of_ended (ensureWritable_of_failed hstream) batch allocator
    rw [act_write_of_ended (ensureWritable_of_failed hfile) batch allocator]
    refine ⟨?_, [], ?_, hnone (congrArg Outcome.answer hact)⟩
    · rw [hact]
      exact ⟨rfl, rfl⟩
    · rw [hact, List.append_nil]
      exact h

omit h in
/-- The batches of a sequence are accepted by both writers or by none, one by one. -/
theorem run (hreliable : Sink.Reliable good) (hfaithful : Sink.Reliable fair)
    (h : Lockstep good fair plain packed schema first frames stream file)
    (steps : List (Allocator × RecordBatch)) :
    List.Forall₂ (fun turn other => turn.outcome.answer.Alike other.outcome.answer)
        (turns (writes steps) stream) (turns (writes steps) file) ∧
      ∃ more, Lockstep good fair plain packed schema first (frames ++ more)
          (after (writes steps) stream) (after (writes steps) file) ∧
        List.Forall₂ Turn.Sends ((turns (writes steps) stream).filter Turn.wrote)
          (more.map Frame.encode) := by
  induction steps generalizing stream file frames with
  | nil => exact ⟨.nil, [], by rw [List.append_nil]; exact h, .nil⟩
  | cons step rest ih =>
    obtain ⟨hanswer, sent, hnext, hsent⟩ := h.write hreliable hfaithful step.2 step.1
    obtain ⟨hanswers, more, hlast, hmore⟩ := ih hnext
    refine ⟨.cons hanswer hanswers, sent ++ more, ?_, ?_⟩
    · rw [List.append_assoc] at hlast
      exact hlast
    · have hturns : (turns (writes (step :: rest)) stream).filter Turn.wrote =
          [⟨stream, step.1, .write step.2⟩].filter Turn.wrote ++
            (turns (writes rest) (act (.write step.2) step.1 stream).state).filter Turn.wrote :=
        List.filter_append [_] _
      rw [hturns, List.map_append]
      exact List.rel_append hsent hmore

end Lockstep

/-! ## Opening and closing -/

/-- The two writers are opened or refused alike, and start with the same frame. -/
theorem lockstep_of_create (hreliable : Sink.Reliable good) (hfaithful : Sink.Reliable fair)
    (hplain : good plain) (hpacked : fair packed) (schema : Schema) (alignment : Nat)
    (allocator : Allocator) :
    (create .stream schema alignment allocator plain).answer.Alike
        (create .file schema alignment allocator packed).answer ∧
      ∀ stream file, (create .stream schema alignment allocator plain).answer = .ok stream →
        (create .file schema alignment allocator packed).answer = .ok file →
        ∃ first, first.IsSchema schema ∧
          Lockstep good fair plain packed schema first [] stream file := by
  constructor
  · obtain ⟨hplainNone, -⟩ := hreliable.offerAll_eq hplain
      ((Session.opening schema alignment).parts (header .stream))
    obtain ⟨hpackedNone, -⟩ := hfaithful.offerAll_eq hpacked
      ((Session.opening schema alignment).parts (header .file))
    rw [answer_create, answer_create]
    rcases hplainOffer : Sink.offerAll ((Session.opening schema alignment).parts (header .stream))
      plain with ⟨answer, after⟩
    rcases hpackedOffer : Sink.offerAll ((Session.opening schema alignment).parts (header .file))
      packed with ⟨other, last⟩
    rw [hplainOffer] at hplainNone
    rw [hpackedOffer] at hpackedNone
    obtain rfl : answer = none := hplainNone
    obtain rfl : other = none := hpackedNone
    simp only
    -- with sinks that never fail, it is all up to the schema and the alignment
    cases Session.opening schema alignment with
    | refused failure => exact Result.alike_error failure
    | unframed failure => exact Result.alike_failedAt _ _ failure
    | framed message padding => exact Result.alike_ok _ _
  · intro stream file hstream hfile
    obtain ⟨message, padding, after, hopening, hoffer, rfl⟩ := create_eq_ok hstream
    obtain ⟨other, found, last, hsame, hoffered, rfl⟩ := create_eq_ok hfile
    obtain ⟨rfl, rfl⟩ := Session.Opening.framed.inj (hopening.symm.trans hsame)
    obtain ⟨metadata, hmetadata, rfl, hpadding⟩ := Session.opening_eq_framed hopening
    have hlt := (Message.padding?_eq_ok hpadding).2
    rw [List.size_toArray] at hlt
    obtain ⟨-, hgood⟩ := hreliable.offerAll_eq hplain
      (header .stream :: Message.parts ⟨metadata.toArray, #[]⟩ padding)
    obtain ⟨-, hfair⟩ := hfaithful.offerAll_eq hpacked
      (header .file :: Message.parts ⟨metadata.toArray, #[]⟩ padding)
    have hheldStream := hreliable.held_offerAll hplain
      (header .stream :: Message.parts ⟨metadata.toArray, #[]⟩ padding)
    have hheldFile := hfaithful.held_offerAll hpacked
      (header .file :: Message.parts ⟨metadata.toArray, #[]⟩ padding)
    rw [hoffer] at hgood hheldStream
    rw [hoffered] at hfair hheldFile
    rw [joined_cons, Message.joined_parts] at hheldStream hheldFile
    refine ⟨_, Message.isSchema_frame hmetadata hlt, ?_⟩
    exact
      { layout_stream := layout_ofSession _ _ _
        layout_file := layout_ofSession _ _ _
        schema_stream := rfl
        schema_file := rfl
        alignment_eq := rfl
        phases := .inl ⟨rfl, rfl⟩
        good_sink := hgood
        fair_sink := hfair
        held_stream := by
          rw [List.flatMap_singleton]
          exact hheldStream
        held_file := by
          rw [List.flatMap_singleton]
          exact hheldFile
        bytesWritten_eq := by
          rw [List.flatMap_singleton]
          rfl
        recordBlocks_eq := rfl }

/-- The stream ends with the end marker, the file with the end marker and the trailer, unless both
writers have failed before. -/
theorem Lockstep.close (hreliable : Sink.Reliable good) (hfaithful : Sink.Reliable fair)
    (h : Lockstep good fair plain packed schema first frames stream file)
    {metadata : List UInt8} (hmetadata : schema.encode = .ok metadata) (hfits : file.FooterFits)
    (allocator : Allocator) :
    (act .close allocator stream).answer.Alike (act .close allocator file).answer ∧
      ((act .close allocator stream).answer = .ok () ↔ stream.session.phase = .writable) ∧
      ((act .close allocator stream).answer = .ok () → ∃ footer,
        Footer.encode schema file.recordBlocks = .ok footer ∧
        (Sink.held (act .close allocator stream).state.session.sink).toList =
          (Sink.held plain).toList ++
            ((first :: frames).flatMap Frame.encode ++ Message.endMarker.toList) ∧
        (Sink.held (act .close allocator file).state.session.sink).toList =
          (Sink.held packed).toList ++ (FileWriter.header.toList ++
            ((first :: frames).flatMap Frame.encode ++ Message.endMarker.toList ++
              (footer ++ (LittleEndian.encode 4 footer.length ++ magic.toList))))) := by
  have hnothing := trailer_of_stream h.layout_stream
  rw [← h.schema_file] at hmetadata
  obtain ⟨trailer, htrailer, hmade⟩ := trailer_of_footerFits hfits hmetadata
  obtain ⟨footer, hfooter, hbytes⟩ := hmade h.layout_file
  rw [h.schema_file] at hfooter
  obtain ⟨hstream, hfile⟩ | ⟨text, other, hstream, hfile⟩ := h.phases
  · obtain ⟨sink, -, hheld, hact⟩ := act_of_reliable hreliable h.good_sink
      (plan_close_of_writable hnothing hstream allocator)
    obtain ⟨last, -, hlast, hactFile⟩ := act_of_reliable hfaithful h.fair_sink
      (plan_close_of_writable htrailer hfile allocator)
    rw [hact, hactFile, sink_advance, sink_advance, hheld, hlast, h.held_stream, h.held_file,
      Payload.bytes_ending, Payload.bytes_ending, hbytes]
    refine ⟨Result.alike_ok _ _, ⟨fun _ => hstream, fun _ => rfl⟩,
      fun _ => ⟨footer, hfooter, ?_, ?_⟩⟩
    · simp only [List.append_assoc, List.append_nil]
    · simp only [List.append_assoc]
  · rw [act_of_ended (ensureWritable_of_failed hstream) hnothing,
      act_of_ended (ensureWritable_of_failed hfile) htrailer]
    refine ⟨⟨rfl, rfl⟩, ⟨?_, ?_⟩, ?_⟩
    · rintro ⟨⟩
    · intro hwritable
      cases hwritable.symm.trans hstream
    · rintro ⟨⟩

/-- A file is a stream in an envelope. Of two writers that are opened and used in the same way over
sinks that never fail, one of streams and one of files, the second does what the first does.

- They are opened or refused alike, and each batch is accepted or refused alike by both.
- The file begins with a header of eight bytes. What follows is what the stream is made of, the
  schema message and the messages of the accepted batches.
- The blocks of the file are those of the messages in the stream, eight bytes later.
- If both are closed, which they are unless sending failed before, what follows the end marker in
  the file is the footer with the schema and these blocks, its length and the magic number. -/
theorem file_of_stream (hreliable : Sink.Reliable good) (hfaithful : Sink.Reliable fair)
    (hplain : good plain) (hpacked : fair packed) (schema : Schema) (alignment : Nat)
    (opening : Allocator) :
    (create .stream schema alignment opening plain).answer.Alike
        (create .file schema alignment opening packed).answer ∧
      ∀ stream file, (create .stream schema alignment opening plain).answer = .ok stream →
        (create .file schema alignment opening packed).answer = .ok file →
        ∃ first : Frame, first.IsSchema schema ∧ ∀ steps,
          let lastStream := after (writes steps) stream
          let lastFile := after (writes steps) file
          List.Forall₂ (fun turn other => turn.outcome.answer.Alike other.outcome.answer)
              (turns (writes steps) stream) (turns (writes steps) file) ∧
            ∃ frames sent, sent = (first :: frames).flatMap Frame.encode ∧
              List.Forall₂ Turn.Sends ((turns (writes steps) stream).filter Turn.wrote)
                (frames.map Frame.encode) ∧
              (Sink.held lastStream.session.sink).toList = (Sink.held plain).toList ++ sent ∧
              (Sink.held lastFile.session.sink).toList =
                (Sink.held packed).toList ++ (magic.toList ++ [0, 0] ++ sent) ∧
              lastFile.recordBlocks =
                (blocksFrom first.encode.length frames).map (Block.moved 8) ∧
              ∀ closing, lastFile.FooterFits →
                let closedStream := act .close closing lastStream
                let closedFile := act .close closing lastFile
                closedStream.answer.Alike closedFile.answer ∧
                  (closedStream.answer = .ok () ↔ lastStream.session.phase = .writable) ∧
                  (closedStream.answer = .ok () → ∃ footer,
                    Footer.encode schema lastFile.recordBlocks = .ok footer ∧
                    (Sink.held closedStream.state.session.sink).toList =
                      (Sink.held plain).toList ++ (sent ++ Message.endMarker.toList) ∧
                    (Sink.held closedFile.state.session.sink).toList =
                      (Sink.held packed).toList ++ (magic.toList ++ [0, 0] ++
                        (sent ++ Message.endMarker.toList ++
                          (footer ++
                            (LittleEndian.encode 4 footer.length ++ magic.toList))))) := by
  have hsize : FileWriter.header.size = 8 := by decide
  have hheader : FileWriter.header.toList = magic.toList ++ [0, 0] := by decide
  obtain ⟨halike, hopened⟩ :=
    lockstep_of_create hreliable hfaithful hplain hpacked schema alignment opening
  refine ⟨halike, fun stream file hstream hfile => ?_⟩
  obtain ⟨first, hfirst, hlockstep⟩ := hopened stream file hstream hfile
  refine ⟨first, hfirst, fun steps => ?_⟩
  obtain ⟨hanswers, frames, hlast, hsends⟩ := hlockstep.run hreliable hfaithful steps
  rw [List.nil_append] at hlast
  refine ⟨hanswers, frames, _, rfl, hsends, hlast.held_stream, ?_, ?_, fun closing hfits => ?_⟩
  · rw [hlast.held_file, hheader]
  · rw [hlast.recordBlocks_eq, hsize, blocksFrom_add]
  · obtain ⟨-, metadata, -, hmetadata, -⟩ := hfirst
    have hclosed := hlast.close hreliable hfaithful hmetadata hfits closing
    rw [hheader] at hclosed
    exact hclosed

set_option maxRecDepth 8000 in
/-- One batch is written to a sink that takes thirty bytes at a time, as a stream, and to another
one, as a file. -/
theorem file_of_stream_of_batch :
    let schema : Schema := ⟨[⟨"a", .int8, true⟩]⟩
    let steps : List (Allocator × RecordBatch) :=
      [(.standard, ⟨schema, [Column.empty "a" .int8]⟩)]
    let plain : MemorySink := { MemorySink.empty with chunk := some 30, interrupts := 2 }
    ∃ (stream file : Writer MemorySink) (footer : List UInt8),
      (create .stream schema 2 .standard plain).answer = .ok stream ∧
      (create .file schema 2 .standard MemorySink.empty).answer = .ok file ∧
      (after (writes steps) file).FooterFits ∧
      (act .close .standard (after (writes steps) stream)).answer = .ok () ∧
      Footer.encode schema (after (writes steps) file).recordBlocks = .ok footer ∧
      (Sink.held (act .close .standard (after (writes steps) file)).state.session.sink).toList =
        magic.toList ++ [0, 0] ++
          ((Sink.held
              (act .close .standard (after (writes steps) stream)).state.session.sink).toList ++
            (footer ++ (LittleEndian.encode 4 footer.length ++ magic.toList))) := by
  intro schema steps plain
  let stream : Writer MemorySink := .stream
    { session :=
      { mode := .stream
        phase := .writable
        sink := { plain with
          held := #[14, 0, 0, 0, 1, 1, 0, 1, 0, 0, 0, 1, 0, 0, 0, 97, 1, 1]
          interrupts := 0 }
        schema
        alignment := 2
        bytesWritten := 18
        batchesWritten := 0 } }
  let file : Writer MemorySink := .file
    { session :=
      { mode := .file
        phase := .writable
        sink := { MemorySink.empty with
          held := header .file ++ #[14, 0, 0, 0, 1, 1, 0, 1, 0, 0, 0, 1, 0, 0, 0, 97, 1, 1] }
        schema
        alignment := 2
        bytesWritten := 26
        batchesWritten := 0 }
      schemaBlock := ⟨8, 18, 0⟩
      recordBlocks := [] }
  obtain ⟨hstream, hfile, hphase, hblocks⟩ :
      (create .stream schema 2 .standard plain).answer = .ok stream ∧
        (create .file schema 2 .standard MemorySink.empty).answer = .ok file ∧
        (after (writes steps) stream).session.phase = .writable ∧
        ((after (writes steps) file).session.schema,
          (after (writes steps) file).recordBlocks.length) = (schema, 1) := by
    refine ⟨?_, ?_, ?_, ?_⟩ <;> cbv
  have hlength : schema.encode.map List.length = .ok 14 := rfl
  obtain ⟨hschema, hblocks⟩ := Prod.mk.inj hblocks
  have hplain : plain.IsUnbounded := by
    refine ⟨rfl, ?_, rfl⟩
    rintro ⟨⟩
  obtain ⟨-, hopened⟩ := file_of_stream MemorySink.reliable MemorySink.reliable hplain
    MemorySink.isUnbounded_empty schema 2 .standard
  obtain ⟨first, -, hrun⟩ := hopened stream file hstream hfile
  obtain ⟨-, frames, sent, -, -, -, -, -, hclose⟩ := hrun steps
  have hfits : (after (writes steps) file).FooterFits := by
    intro _ metadata hmetadata
    rw [hschema] at hmetadata
    rw [hmetadata] at hlength
    rw [Footer.size, hblocks, Except.ok.inj hlength]
    decide
  obtain ⟨-, hanswer, hclosed⟩ := hclose .standard hfits
  have hok := hanswer.mpr hphase
  obtain ⟨footer, hfooter, hheldStream, hheldFile⟩ := hclosed hok
  refine ⟨stream, file, footer, hstream, hfile, hfits, hok, hfooter, ?_⟩
  rw [hheldFile, hheldStream]
  rfl

end Writer

end Ipc

end Columnar
