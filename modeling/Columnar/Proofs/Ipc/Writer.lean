import Columnar.Proofs.Ipc.Calls
import Columnar.Proofs.Ipc.SchemaCode

/-!
# Writers of either layout

Stream writers and file writers are one type here, with their calls as values. A call has a plan,
which is found without the sink, and does no more than to carry it out.
-/

namespace Columnar

namespace Ipc

/-- Whatever is wrong with a trailer is an error. -/
theorem FileWriter.trailer_isError (schema : Schema) (blocks : List Block) :
    (trailer schema blocks).FailsWith Failure.IsError := by
  have hfooter : (Footer.encode schema blocks).FailsWith Failure.IsFormatLimit :=
    schema.encode_failsWith.bind fun _ =>
      (encodeCount_failsWith _ _).bind fun _ => Result.failsWith_ok _
  refine (hfooter.mono fun _ => Failure.IsFormatLimit.isError).bind fun footer => ?_
  split
  · exact Result.failsWith_ok _
  · exact Result.failsWith_raise ⟨_, rfl⟩

/-- A writer of streams or a writer of files. -/
inductive Writer (σ : Type) where
  | stream (writer : StreamWriter σ)
  | file (writer : FileWriter σ)

/-- A call on a writer. -/
inductive Call where
  | write (batch : RecordBatch)
  | close

/-- The step of a session at which sending fails in the call. -/
def Call.step : Call → String
  | write _ => "write-record-batch"
  | close => "close"

/-- What a call sends. -/
inductive Payload where
  /-- The message of a batch of so many rows. -/
  | batch (rows : Nat) (message : Message) (padding : Nat)
  /-- The end marker and a trailer. -/
  | ending (trailer : Bytes)

namespace Payload

def parts : Payload → List Bytes
  | batch _ message padding => message.parts padding
  | ending trailer => [Message.endMarker, trailer]

/-- The bytes of all parts in a row. -/
def bytes (payload : Payload) : List UInt8 :=
  joined payload.parts

theorem bytes_batch (rows : Nat) (message : Message) (padding : Nat) :
    (batch rows message padding).bytes = (message.frame padding).encode :=
  message.joined_parts padding

theorem bytes_ending (trailer : Bytes) :
    (ending trailer).bytes = Message.endMarker.toList ++ trailer.toList := by
  simp [bytes, parts]

/-- Offers all parts to a sink. After an ending the sink is flushed. -/
def deliver {σ : Type} [Sink σ] (payload : Payload) (sink : σ) : Option IoError × σ :=
  match payload with
  | batch _ _ _ => Sink.offerAll payload.parts sink
  | ending _ => Sink.conclude payload.parts sink

theorem held_deliver {σ : Type} [Sink σ] (payload : Payload) (sink : σ) :
    Sink.held (payload.deliver sink).2 = Sink.held (Sink.offerAll payload.parts sink).2 := by
  cases payload with
  | batch rows message padding => rfl
  | ending trailer => exact Sink.held_conclude _ sink

/-- Of what is delivered a sink takes a first part. It takes everything unless it fails. -/
theorem held_deliver_eq {σ : Type} [Sink σ] (payload : Payload) (sink : σ) :
    ∃ taken, taken <+: payload.bytes ∧
      (Sink.held (payload.deliver sink).2).toList = (Sink.held sink).toList ++ taken ∧
      ((payload.deliver sink).1 = none → taken = payload.bytes) := by
  obtain ⟨count, -, hheld, hall⟩ := Sink.held_offerAll payload.parts sink
  rw [← held_deliver] at hheld
  refine ⟨_, List.take_prefix count _, hheld, fun hnone => ?_⟩
  have hwhole : (Sink.offerAll payload.parts sink).1 = none := by
    cases payload with
    | batch rows message padding => exact hnone
    | ending trailer =>
      rw [deliver, Sink.conclude] at hnone
      rcases hoffer : Sink.offerAll (ending trailer).parts sink with ⟨_ | error, after⟩
      · rfl
      · rw [hoffer] at hnone
        exact hnone
  rw [hall.mp hwhole]
  exact List.take_length

end Payload

/-- What a call is going to do. -/
inductive Plan where
  /-- It fails, and the writer stays as it is. -/
  | refused (failure : Failure)
  /-- It makes the session fail, though nothing is sent. -/
  | unframed (error : Error)
  | sent (payload : Payload)

namespace Writer

variable {σ τ : Type} {allocator : Allocator}

def session : Writer σ → Session σ
  | stream writer => writer.session
  | file writer => writer.session

/-- The writer with another session in place of its own. -/
def withSession (session : Session τ) : Writer σ → Writer τ
  | stream _ => stream ⟨session⟩
  | file writer => file ⟨session, writer.schemaBlock, writer.recordBlocks⟩

/-- The blocks of the messages of batches, which only a writer of files keeps. -/
def recordBlocks : Writer σ → List Block
  | stream _ => []
  | file writer => writer.recordBlocks

/-- The writer with the block of one more message, if it keeps blocks. -/
def noting (block : Block) : Writer σ → Writer σ
  | stream writer => stream writer
  | file writer => file { writer with recordBlocks := writer.recordBlocks ++ [block] }

/-- Whether the writer is one of streams or one of files. -/
def layout : Writer σ → Mode
  | stream _ => .stream
  | file _ => .file

/-- What comes after the end marker. -/
def trailer : Writer σ → Result Bytes
  | stream _ => pure #[]
  | file writer => FileWriter.trailer writer.session.schema writer.recordBlocks

@[simp] theorem session_withSession (session : Session τ) (writer : Writer σ) :
    (writer.withSession session).session = session := by
  cases writer <;> rfl

@[simp] theorem withSession_session (writer : Writer σ) :
    writer.withSession writer.session = writer := by
  cases writer <;> rfl

/-- What the call is going to do, found without the sink. -/
def plan (call : Call) (allocator : Allocator) (writer : Writer σ) : Plan :=
  match call with
  | .write batch =>
    match writer.session.prepare batch allocator with
    | .error failure => .refused failure
    | .ok message =>
      match message.padding? writer.session.alignment with
      | .error (.breach reason) => .refused (.breach reason)
      | .error (.error error) => .unframed error
      | .ok padding => .sent (.batch batch.rows message padding)
  | .close =>
    match writer.trailer with
    | .error failure => .refused failure
    | .ok trailer =>
      match writer.session.ensureWritable with
      | .error failure => .refused failure
      | .ok _ => .sent (.ending trailer)

/-- The writer after something was sent. -/
def advance (payload : Payload) (sink : σ) (writer : Writer σ) : Writer σ :=
  let bytesWritten := writer.session.bytesWritten + payload.bytes.length
  match payload with
  | .batch _ message padding =>
    (writer.withSession
      { writer.session with
        sink
        bytesWritten
        batchesWritten := writer.session.batchesWritten + 1 }).noting
      ((message.frame padding).block writer.session.bytesWritten)
  | .ending _ => writer.withSession { writer.session with sink, bytesWritten, phase := .closed }

/-- What is reported when something was sent. -/
def eventOf (payload : Payload) (writer : Writer σ) : Event :=
  match payload with
  | .batch rows message padding =>
    .wroteBatch writer.session.mode rows writer.session.bytesWritten
      (message.metadata.size + Message.wordSize + padding) message.body.size
  | .ending _ =>
    .closed writer.session.mode writer.session.batchesWritten
      (writer.session.bytesWritten + payload.bytes.length)

/-- How a call ends that makes the session fail. -/
def breakAt (step : String) (sink : σ) (error : Error) (writer : Writer σ) :
    Outcome (Writer σ) Unit :=
  let outcome : Outcome (Session σ) Unit := writer.session.breakAt step sink error
  ⟨outcome.answer, writer.withSession outcome.state, []⟩

/-- What a writer of the layout sends before the stream. -/
def header : Mode → Bytes
  | .stream => #[]
  | .file => FileWriter.header

/-- The writer of the layout that is made of a session and the block of its schema message. -/
def ofSession (mode : Mode) (session : Session σ) (block : Block) : Writer σ :=
  match mode with
  | .stream => stream ⟨session⟩
  | .file => file ⟨session, block, []⟩

@[simp] theorem session_ofSession (mode : Mode) (session : Session σ) (block : Block) :
    (ofSession mode session block).session = session := by
  cases mode <;> rfl

@[simp] theorem recordBlocks_ofSession (mode : Mode) (session : Session σ) (block : Block) :
    (ofSession mode session block).recordBlocks = [] := by
  cases mode <;> rfl

/-! ## What calls change -/

@[simp] theorem layout_ofSession (mode : Mode) (session : Session σ) (block : Block) :
    (ofSession mode session block).layout = mode := by
  cases mode <;> rfl

@[simp] theorem layout_advance (payload : Payload) (sink : σ) (writer : Writer σ) :
    (writer.advance payload sink).layout = writer.layout := by
  cases writer <;> cases payload <;> rfl

@[simp] theorem layout_breakAt (step : String) (sink : σ) (error : Error) (writer : Writer σ) :
    (writer.breakAt step sink error).state.layout = writer.layout := by
  cases writer <;> rfl

@[simp] theorem mode_advance (payload : Payload) (sink : σ) (writer : Writer σ) :
    (writer.advance payload sink).session.mode = writer.session.mode := by
  cases writer <;> cases payload <;> rfl

@[simp] theorem schema_advance (payload : Payload) (sink : σ) (writer : Writer σ) :
    (writer.advance payload sink).session.schema = writer.session.schema := by
  cases writer <;> cases payload <;> rfl

@[simp] theorem alignment_advance (payload : Payload) (sink : σ) (writer : Writer σ) :
    (writer.advance payload sink).session.alignment = writer.session.alignment := by
  cases writer <;> cases payload <;> rfl

@[simp] theorem mode_breakAt (step : String) (sink : σ) (error : Error) (writer : Writer σ) :
    (writer.breakAt step sink error).state.session.mode = writer.session.mode := by
  cases writer <;> rfl

@[simp] theorem schema_breakAt (step : String) (sink : σ) (error : Error) (writer : Writer σ) :
    (writer.breakAt step sink error).state.session.schema = writer.session.schema := by
  cases writer <;> rfl

@[simp] theorem alignment_breakAt (step : String) (sink : σ) (error : Error) (writer : Writer σ) :
    (writer.breakAt step sink error).state.session.alignment = writer.session.alignment := by
  cases writer <;> rfl

@[simp] theorem sink_advance (payload : Payload) (sink : σ) (writer : Writer σ) :
    (writer.advance payload sink).session.sink = sink := by
  cases writer <;> cases payload <;> rfl

@[simp] theorem bytesWritten_advance (payload : Payload) (sink : σ) (writer : Writer σ) :
    (writer.advance payload sink).session.bytesWritten =
      writer.session.bytesWritten + payload.bytes.length := by
  cases writer <;> cases payload <;> rfl

@[simp] theorem phase_advance_batch (rows : Nat) (message : Message) (padding : Nat) (sink : σ)
    (writer : Writer σ) : (writer.advance (.batch rows message padding) sink).session.phase =
      writer.session.phase := by
  cases writer <;> rfl

@[simp] theorem batchesWritten_advance_batch (rows : Nat) (message : Message) (padding : Nat)
    (sink : σ) (writer : Writer σ) :
    (writer.advance (.batch rows message padding) sink).session.batchesWritten =
      writer.session.batchesWritten + 1 := by
  cases writer <;> rfl

/-- A writer of files notes the block of the message. -/
theorem recordBlocks_advance_batch (rows : Nat) (message : Message) (padding : Nat) (sink : σ)
    {writer : Writer σ} (hlayout : writer.layout = .file) :
    (writer.advance (.batch rows message padding) sink).recordBlocks =
      writer.recordBlocks ++ [(message.frame padding).block writer.session.bytesWritten] := by
  cases writer with
  | stream writer => cases hlayout
  | file writer => rfl

@[simp] theorem batchesWritten_advance_ending (trailer : Bytes) (sink : σ) (writer : Writer σ) :
    (writer.advance (.ending trailer) sink).session.batchesWritten =
      writer.session.batchesWritten := by
  cases writer <;> rfl

@[simp] theorem recordBlocks_advance_ending (trailer : Bytes) (sink : σ) (writer : Writer σ) :
    (writer.advance (.ending trailer) sink).recordBlocks = writer.recordBlocks := by
  cases writer <;> rfl

@[simp] theorem phase_advance_ending (trailer : Bytes) (sink : σ) (writer : Writer σ) :
    (writer.advance (.ending trailer) sink).session.phase = .closed := by
  cases writer <;> rfl

@[simp] theorem sink_breakAt (step : String) (sink : σ) (error : Error) (writer : Writer σ) :
    (writer.breakAt step sink error).state.session.sink = sink := by
  cases writer <;> rfl

@[simp] theorem bytesWritten_breakAt (step : String) (sink : σ) (error : Error)
    (writer : Writer σ) : (writer.breakAt step sink error).state.session.bytesWritten =
      writer.session.bytesWritten := by
  cases writer <;> rfl

@[simp] theorem batchesWritten_breakAt (step : String) (sink : σ) (error : Error)
    (writer : Writer σ) : (writer.breakAt step sink error).state.session.batchesWritten =
      writer.session.batchesWritten := by
  cases writer <;> rfl

@[simp] theorem recordBlocks_breakAt (step : String) (sink : σ) (error : Error)
    (writer : Writer σ) :
    (writer.breakAt step sink error).state.recordBlocks = writer.recordBlocks := by
  cases writer <;> rfl

theorem phase_breakAt (step : String) (sink : σ) (error : Error) (writer : Writer σ) :
    ∃ message, (writer.breakAt step sink error).state.session.phase = .failed message := by
  cases writer <;> exact ⟨_, rfl⟩

/-- The session remembers the message of the error that it leaves with. -/
theorem phase_breakAt_eq (step : String) (sink : σ) (error : Error) (writer : Writer σ) :
    (writer.breakAt step sink error).state.session.phase =
      .failed (Error.within error (Session.place writer.session.mode step)).message := by
  cases writer <;> rfl

/-- The error that makes a session fail leaves with the place where it came up. -/
theorem answer_breakAt (step : String) (sink : σ) (error : Error) (writer : Writer σ) :
    (writer.breakAt step sink error).answer =
      .error (.error (.within error (Session.place writer.session.mode step))) :=
  rfl

/-! ## Other sinks -/

/-- The writer with another sink in place of its own. -/
def withSink (sink : τ) (writer : Writer σ) : Writer τ :=
  writer.withSession { writer.session with sink }

@[simp] theorem session_withSink (sink : τ) (writer : Writer σ) :
    (writer.withSink sink).session = { writer.session with sink } :=
  session_withSession _ writer

/-- A call plans the same whatever the sink is. -/
@[simp] theorem plan_withSink (sink : τ) (call : Call) (writer : Writer σ) :
    (writer.withSink sink).plan call allocator = writer.plan call allocator := by
  cases writer <;> cases call <;> rfl

/-- What is sent changes the rest of the writer in the same way whatever the sink is. -/
theorem advance_withSink (sink : τ) (payload : Payload) (after : τ) (other : σ)
    (writer : Writer σ) : (writer.withSink sink).advance payload after =
      (writer.advance payload other).withSink after := by
  cases writer <;> cases payload <;> rfl

theorem breakAt_withSink (sink : τ) (step : String) (after : τ) (other : σ) (error : Error)
    (writer : Writer σ) :
    ((writer.withSink sink).breakAt step after error).answer =
        (writer.breakAt step other error).answer ∧
      ((writer.withSink sink).breakAt step after error).state =
        (writer.breakAt step other error).state.withSink after := by
  cases writer <;> exact ⟨rfl, rfl⟩

/-! ## What calls plan -/

/-- The bytes are what a call has to send: the framed message of its batch, or the end marker
and the trailer. -/
def Sends (writer : Writer σ) (call : Call) (allocator : Allocator) (bytes : List UInt8) : Prop :=
  match call with
  | .write batch => ∃ message padding,
      (batch.encode writer.session.alignment allocator ()).answer = .ok message ∧
      message.padding? writer.session.alignment = .ok padding ∧
      bytes = (message.frame padding).encode
  | .close => ∃ trailer, writer.trailer = .ok trailer ∧
      bytes = Message.endMarker.toList ++ trailer.toList

theorem plan_write_eq_sent {batch : RecordBatch} {writer : Writer σ} {payload : Payload}
    (h : writer.plan (.write batch) allocator = .sent payload) :
    ∃ message padding, payload = .batch batch.rows message padding ∧
      writer.session.prepare batch allocator = .ok message ∧
      message.padding? writer.session.alignment = .ok padding := by
  rw [plan] at h
  cases hmessage : writer.session.prepare batch allocator with
  | error failure =>
    rw [hmessage] at h
    cases h
  | ok message =>
    simp only [hmessage] at h
    cases hpadding : message.padding? writer.session.alignment with
    | error failure =>
      rw [hpadding] at h
      cases failure <;> cases h
    | ok padding =>
      rw [hpadding] at h
      exact ⟨message, padding, (Plan.sent.inj h).symm, rfl, hpadding⟩

theorem plan_close_eq_sent {writer : Writer σ} {payload : Payload}
    (h : writer.plan .close allocator = .sent payload) :
    ∃ trailer, payload = .ending trailer ∧ writer.trailer = .ok trailer ∧
      writer.session.ensureWritable = .ok () := by
  rw [plan] at h
  cases htrailer : writer.trailer with
  | error failure =>
    rw [htrailer] at h
    cases h
  | ok trailer =>
    simp only [htrailer] at h
    cases hwritable : writer.session.ensureWritable with
    | error failure =>
      rw [hwritable] at h
      cases h
    | ok _ =>
      rw [hwritable] at h
      exact ⟨trailer, (Plan.sent.inj h).symm, rfl, rfl⟩

theorem plan_eq_unframed {call : Call} {writer : Writer σ} {error : Error}
    (h : writer.plan call allocator = .unframed error) :
    ∃ batch message, call = .write batch ∧ writer.session.prepare batch allocator = .ok message ∧
      message.padding? writer.session.alignment = .error (.error error) := by
  cases call with
  | write batch =>
    rw [plan] at h
    cases hmessage : writer.session.prepare batch allocator with
    | error failure =>
      rw [hmessage] at h
      cases h
    | ok message =>
      simp only [hmessage] at h
      cases hpadding : message.padding? writer.session.alignment with
      | error failure =>
        rw [hpadding] at h
        cases failure with
        | error other => exact ⟨batch, message, rfl, hmessage, Plan.unframed.inj h ▸ hpadding⟩
        | breach reason => cases h
      | ok padding =>
        rw [hpadding] at h
        cases h
  -- the end of a file or stream is not framed
  | close =>
    rw [plan] at h
    cases htrailer : writer.trailer with
    | error failure =>
      rw [htrailer] at h
      cases h
    | ok trailer =>
      simp only [htrailer] at h
      cases hwritable : writer.session.ensureWritable with
      | error failure =>
        rw [hwritable] at h
        cases h
      | ok _ =>
        rw [hwritable] at h
        cases h

theorem sends_of_plan {call : Call} {writer : Writer σ} {payload : Payload}
    (h : writer.plan call allocator = .sent payload) :
    writer.Sends call allocator payload.bytes := by
  cases call with
  | write batch =>
    obtain ⟨message, padding, rfl, hmessage, hpadding⟩ := plan_write_eq_sent h
    obtain ⟨-, -, -, hencode⟩ := Session.prepare_eq_ok hmessage
    exact ⟨message, padding, hencode, hpadding, Payload.bytes_batch _ _ _⟩
  | close =>
    obtain ⟨trailer, rfl, htrailer, -⟩ := plan_close_eq_sent h
    exact ⟨trailer, htrailer, Payload.bytes_ending _⟩

/-! ## Writers that cannot be written to -/

theorem trailer_isError (writer : Writer σ) : writer.trailer.FailsWith Failure.IsError := by
  cases writer with
  | stream writer => exact Result.failsWith_ok _
  | file writer => exact FileWriter.trailer_isError _ _

/-- Once the session has failed or is closed, a call is an error and nothing else. -/
theorem plan_of_ne {writer : Writer σ} (hphase : writer.session.phase ≠ .writable) (call : Call)
    (allocator : Allocator) : ∃ error, writer.plan call allocator = .refused (.error error) := by
  obtain ⟨error, hfailed⟩ := Session.ensureWritable_of_ne hphase
  cases call with
  | write batch =>
    rw [plan, Session.prepare, hfailed]
    exact ⟨error, rfl⟩
  | close =>
    rw [plan]
    cases htrailer : writer.trailer with
    | error failure =>
      obtain ⟨error, rfl⟩ := writer.trailer_isError failure htrailer
      exact ⟨error, rfl⟩
    | ok trailer =>
      rw [hfailed]
      exact ⟨error, rfl⟩

/-- A call that is not refused is one on a session that can be written to. -/
theorem phase_of_plan {writer : Writer σ} {call : Call} {plan : Plan}
    (h : writer.plan call allocator = plan) (hplan : ∀ failure, plan ≠ .refused failure) :
    writer.session.phase = .writable := by
  apply Decidable.byContradiction
  intro hphase
  obtain ⟨error, hrefused⟩ := plan_of_ne hphase call allocator
  exact hplan _ (h.symm.trans hrefused)

variable [Sink σ]

/-! ## Calls -/

/-- Opens a writer of the given layout. -/
def create (mode : Mode) (schema : Schema) (alignment : Nat) : Action σ (Writer σ) :=
  match mode with
  | .stream => stream <$> StreamWriter.create schema alignment
  | .file => file <$> FileWriter.create schema alignment

/-- Makes a call. -/
def act (call : Call) : Action (Writer σ) Unit := fun allocator writer =>
  match writer with
  | stream writer =>
    let outcome := match call with
      | .write batch => StreamWriter.write batch allocator writer
      | .close => StreamWriter.close allocator writer
    ⟨outcome.answer, stream outcome.state, outcome.events⟩
  | file writer =>
    let outcome := match call with
      | .write batch => FileWriter.write batch allocator writer
      | .close => FileWriter.close allocator writer
    ⟨outcome.answer, file outcome.state, outcome.events⟩

theorem act_write_of_ok {batch : RecordBatch} {writer : Writer σ} {block : Block}
    {after : Session σ} {events : List Event}
    (h : Session.writeBatch batch allocator writer.session = ⟨.ok block, after, events⟩) :
    act (.write batch) allocator writer =
      ⟨.ok (), (writer.withSession after).noting block, events⟩ := by
  cases writer with
  | stream writer =>
    simp only [act]
    rw [StreamWriter.write_of_ok h]
    rfl
  | file writer =>
    simp only [act]
    rw [FileWriter.write_of_ok h]
    rfl

theorem act_write_of_error {batch : RecordBatch} {writer : Writer σ} {failure : Failure}
    {after : Session σ} {events : List Event}
    (h : Session.writeBatch batch allocator writer.session = ⟨.error failure, after, events⟩) :
    act (.write batch) allocator writer = ⟨.error failure, writer.withSession after, events⟩ := by
  cases writer with
  | stream writer =>
    simp only [act]
    rw [StreamWriter.write_of_error h]
    rfl
  | file writer =>
    simp only [act]
    rw [FileWriter.write_of_error h]
    rfl

theorem act_close_of_error {writer : Writer σ} {failure : Failure}
    (h : writer.trailer = .error failure) :
    act .close allocator writer = ⟨.error failure, writer, []⟩ := by
  cases writer with
  | stream writer => cases h
  | file writer =>
    simp only [act]
    rw [FileWriter.close_of_error h]

theorem act_close_of_ok {writer : Writer σ} {trailer : Bytes} (h : writer.trailer = .ok trailer)
    {answer : Result Unit} {after : Session σ} {events : List Event}
    (hfinish : Session.finish trailer allocator writer.session = ⟨answer, after, events⟩) :
    act .close allocator writer = ⟨answer, writer.withSession after, events⟩ := by
  cases writer with
  | stream writer =>
    obtain rfl := Except.ok.inj h
    simp only [act]
    rw [StreamWriter.close_eq hfinish]
    rfl
  | file writer =>
    simp only [act]
    rw [FileWriter.close_of_ok h hfinish]
    rfl

/-- A call carries out its plan. Nothing but the sink decides how that ends. -/
theorem act_apply (call : Call) (allocator : Allocator) (writer : Writer σ) :
    act call allocator writer =
      match writer.plan call allocator with
      | .refused failure => ⟨.error failure, writer, []⟩
      | .unframed error => writer.breakAt call.step writer.session.sink error
      | .sent payload =>
        match payload.deliver writer.session.sink with
        | (some error, sink) => writer.breakAt call.step sink (.io error none)
        | (none, sink) => ⟨.ok (), writer.advance payload sink, [writer.eventOf payload]⟩ := by
  cases call with
  | write batch =>
    have hwrite := Session.writeBatch_apply batch allocator writer.session
    rw [plan]
    cases hmessage : writer.session.prepare batch allocator with
    | error failure =>
      rw [hmessage] at hwrite
      rw [act_write_of_error hwrite, withSession_session]
    | ok message =>
      simp only [hmessage] at hwrite ⊢
      -- a breach in framing is no error, so it leaves the session as it was
      cases hpadding : message.padding? writer.session.alignment with
      | error failure =>
        rw [hpadding] at hwrite
        cases failure with
        | breach reason => rw [act_write_of_error hwrite, withSession_session]
        | error error => exact act_write_of_error hwrite
      | ok padding =>
        simp only [hpadding] at hwrite ⊢
        simp only [Payload.deliver, Payload.parts]
        rcases hoffer : Sink.offerAll (message.parts padding) writer.session.sink with
          ⟨_ | error, after⟩
        · rw [hoffer] at hwrite
          rw [act_write_of_ok hwrite]
          simp only [advance, Payload.bytes_batch]
          rfl
        · rw [hoffer] at hwrite
          exact act_write_of_error hwrite
  | close =>
    rw [plan]
    cases htrailer : writer.trailer with
    | error failure => exact act_close_of_error htrailer
    | ok trailer =>
      have hfinish := Session.finish_apply trailer allocator writer.session
      simp only
      cases hwritable : writer.session.ensureWritable with
      | error failure =>
        rw [hwritable] at hfinish
        rw [act_close_of_ok htrailer hfinish, withSession_session]
      | ok _ =>
        simp only [hwritable] at hfinish ⊢
        simp only [Payload.deliver, Payload.parts]
        have hlength : (Payload.ending trailer).bytes.length =
            Message.endMarker.size + trailer.size := by
          rw [Payload.bytes_ending, List.length_append, Array.length_toList, Array.length_toList]
        rcases hoffer : Sink.conclude [Message.endMarker, trailer] writer.session.sink with
          ⟨_ | error, after⟩
        · rw [hoffer] at hfinish
          rw [act_close_of_ok htrailer hfinish]
          simp only [advance, eventOf, hlength]
        · rw [hoffer] at hfinish
          exact act_close_of_ok htrailer hfinish

theorem act_of_refused {call : Call} {writer : Writer σ} {failure : Failure}
    (h : writer.plan call allocator = .refused failure) :
    act call allocator writer = ⟨.error failure, writer, []⟩ := by
  rw [act_apply, h]

theorem act_write_of_ended {writer : Writer σ} {failure : Failure}
    (hended : writer.session.ensureWritable = .error failure) (batch : RecordBatch)
    (allocator : Allocator) :
    act (.write batch) allocator writer = ⟨.error failure, writer, []⟩ := by
  apply act_of_refused
  rw [plan, Session.prepare, hended]
  rfl

/-- Whatever ended a session is the answer to every further call, as long as the trailer, which
is made first, can be made. -/
theorem act_of_ended {writer : Writer σ} {failure : Failure}
    (hended : writer.session.ensureWritable = .error failure) {trailer : Bytes}
    (htrailer : writer.trailer = .ok trailer) (call : Call) (allocator : Allocator) :
    act call allocator writer = ⟨.error failure, writer, []⟩ := by
  cases call with
  | write batch => exact act_write_of_ended hended batch allocator
  | close =>
    apply act_of_refused
    rw [plan, htrailer, hended]

theorem act_of_unframed {call : Call} {writer : Writer σ} {error : Error}
    (h : writer.plan call allocator = .unframed error) :
    act call allocator writer = writer.breakAt call.step writer.session.sink error := by
  rw [act_apply, h]

theorem act_of_sent {call : Call} {writer : Writer σ} {payload : Payload}
    (h : writer.plan call allocator = .sent payload) {sink : σ}
    (hdeliver : payload.deliver writer.session.sink = (none, sink)) :
    act call allocator writer =
      ⟨.ok (), writer.advance payload sink, [writer.eventOf payload]⟩ := by
  rw [act_apply, h]
  simp only [hdeliver]

theorem act_of_failed {call : Call} {writer : Writer σ} {payload : Payload}
    (h : writer.plan call allocator = .sent payload) {error : IoError} {sink : σ}
    (hdeliver : payload.deliver writer.session.sink = (some error, sink)) :
    act call allocator writer = writer.breakAt call.step sink (.io error none) := by
  rw [act_apply, h]
  simp only [hdeliver]

/-! ## Opening -/

theorem create_apply (mode : Mode) (schema : Schema) (alignment : Nat) (allocator : Allocator)
    (sink : σ) :
    create mode schema alignment allocator sink =
      let started := Session.start mode (header mode) schema alignment allocator sink
      ⟨started.answer.map fun (session, block) => ofSession mode session block, started.state,
        started.events⟩ := by
  cases mode with
  | stream =>
    rw [create, ← bind_pure_comp]
    refine (Action.bind_pure_apply _ _).trans ?_
    rw [StreamWriter.create_apply]
    simp only [header]
    cases (Session.start .stream #[] schema alignment allocator sink).answer with
    | error failure => rfl
    | ok made => rfl
  | file =>
    rw [create, ← bind_pure_comp]
    refine (Action.bind_pure_apply _ _).trans ?_
    rw [FileWriter.create_apply]
    simp only [header]
    cases (Session.start .file FileWriter.header schema alignment allocator sink).answer with
    | error failure => rfl
    | ok made => rfl

theorem state_create (mode : Mode) (schema : Schema) (alignment : Nat) (allocator : Allocator)
    (sink : σ) :
    (create mode schema alignment allocator sink).state =
      (Sink.offerAll ((Session.opening schema alignment).parts (header mode)) sink).2 := by
  rw [create_apply, Session.start_apply]
  rcases Sink.offerAll ((Session.opening schema alignment).parts (header mode)) sink with
    ⟨_ | error, after⟩
  · cases Session.opening schema alignment <;> rfl
  · rfl

/-- A failure of the sink is what opening answers. Without one, it is up to the opening. -/
theorem answer_create (mode : Mode) (schema : Schema) (alignment : Nat) (allocator : Allocator)
    (sink : σ) :
    (create mode schema alignment allocator sink).answer =
      match Sink.offerAll ((Session.opening schema alignment).parts (header mode)) sink with
      | (some error, _) =>
        .error (.error (.within (.io error none) (Session.place mode "open")))
      | (none, after) =>
        match Session.opening schema alignment with
        | .refused failure => .error failure
        | .unframed failure => .error (Session.failedAt (Session.place mode "open") failure)
        | .framed message padding =>
          .ok (ofSession mode
            (Session.opened mode (header mode) schema alignment message padding after)
            ((message.frame padding).block (header mode).size)) := by
  rw [create_apply, Session.start_apply]
  rcases Sink.offerAll ((Session.opening schema alignment).parts (header mode)) sink with
    ⟨_ | error, after⟩
  · cases Session.opening schema alignment <;> rfl
  · rfl

theorem create_eq_ok {mode : Mode} {schema : Schema} {alignment : Nat} {sink : σ}
    {writer : Writer σ} (h : (create mode schema alignment allocator sink).answer = .ok writer) :
    ∃ message padding after, Session.opening schema alignment = .framed message padding ∧
      Sink.offerAll (header mode :: message.parts padding) sink = (none, after) ∧
      writer = ofSession mode
        (Session.opened mode (header mode) schema alignment message padding after)
        ((message.frame padding).block (header mode).size) := by
  rw [create_apply] at h
  simp only at h
  cases hanswer : (Session.start mode (header mode) schema alignment allocator sink).answer with
  | error failure =>
    rw [hanswer] at h
    cases h
  | ok made =>
    obtain ⟨session, block⟩ := made
    obtain ⟨message, padding, after, hopening, hoffer, rfl, rfl⟩ := Session.start_eq_ok hanswer
    rw [hanswer] at h
    exact ⟨message, padding, after, hopening, hoffer, (Except.ok.inj h).symm⟩

/-! ## Sequences of calls -/

/-- The writer after a sequence of calls, each with the allocator that it meets. -/
def after : (steps : List (Allocator × Call)) → Writer σ → Writer σ
  | [], writer => writer
  | (allocator, call) :: rest, writer => after rest (act call allocator writer).state

end Writer

/-- A call in a sequence of calls, with the writer as it is then. -/
structure Turn (σ : Type) where
  writer : Writer σ
  allocator : Allocator
  call : Call

namespace Turn

variable {σ : Type}

def step (turn : Turn σ) : Allocator × Call :=
  (turn.allocator, turn.call)

def plan (turn : Turn σ) : Plan :=
  turn.writer.plan turn.call turn.allocator

/-- What the call leaves. -/
def outcome [Sink σ] (turn : Turn σ) : Outcome (Writer σ) Unit :=
  Writer.act turn.call turn.allocator turn.writer

end Turn

namespace Writer

variable {σ : Type} [Sink σ]

/-- All calls of a sequence, each in its place. -/
def turns : (steps : List (Allocator × Call)) → Writer σ → List (Turn σ)
  | [], _ => []
  | (allocator, call) :: rest, writer =>
    ⟨writer, allocator, call⟩ :: turns rest (act call allocator writer).state

theorem after_append (steps more : List (Allocator × Call)) (writer : Writer σ) :
    after (steps ++ more) writer = after more (after steps writer) := by
  induction steps generalizing writer with
  | nil => rfl
  | cons step rest ih => exact ih _

theorem turns_append (steps more : List (Allocator × Call)) (writer : Writer σ) :
    turns (steps ++ more) writer = turns steps writer ++ turns more (after steps writer) := by
  induction steps generalizing writer with
  | nil => rfl
  | cons step rest ih => exact congrArg (_ :: ·) (ih _)

theorem after_concat (steps : List (Allocator × Call)) (allocator : Allocator) (call : Call)
    (writer : Writer σ) : after (steps ++ [(allocator, call)]) writer =
      (act call allocator (after steps writer)).state :=
  after_append steps _ writer

theorem turns_concat (steps : List (Allocator × Call)) (allocator : Allocator) (call : Call)
    (writer : Writer σ) : turns (steps ++ [(allocator, call)]) writer =
      turns steps writer ++ [⟨after steps writer, allocator, call⟩] :=
  turns_append steps _ writer

/-- What every call preserves, given the calls before it, holds after a sequence of calls. -/
theorem after_preserves (Inv : List (Turn σ) → Writer σ → Prop)
    (hstep : ∀ past (turn : Turn σ), Inv past turn.writer →
      Inv (past ++ [turn]) turn.outcome.state)
    {writer : Writer σ} {past : List (Turn σ)} (h : Inv past writer)
    (steps : List (Allocator × Call)) :
    Inv (past ++ turns steps writer) (after steps writer) := by
  induction steps generalizing writer past with
  | nil =>
    rw [turns, List.append_nil]
    exact h
  | cons step rest ih =>
    have hnext := ih (hstep past ⟨writer, step.1, step.2⟩ h)
    rw [List.append_assoc] at hnext
    exact hnext

end Writer

end Ipc

end Columnar
