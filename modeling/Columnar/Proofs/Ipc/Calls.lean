import Columnar.Ipc.FileWriter
import Columnar.Ipc.StreamWriter
import Columnar.Proofs.Ipc.Framing

/-!
# What the calls of sessions and writers do

A call of a session finds out without its sink what is to be sent, and then offers it in parts. The
equations here say this for any session and any sink.
-/

namespace Columnar

open Ipc

/-- Encoding a batch neither looks at the state nor changes it. -/
theorem RecordBatch.encode_apply {σ : Type} (batch : RecordBatch) (alignment : Nat)
    (allocator : Allocator) (state : σ) :
    batch.encode alignment allocator state =
      ⟨(batch.encode alignment allocator ()).answer, state, []⟩ := by
  rw [encode, encode]
  cases Body.sizeOf alignment batch.rows batch.columns with
  | error failure => rfl
  | ok size =>
    rw [Action.liftM_ok_bind, Action.liftM_ok_bind]
    -- memory is granted or refused in the same way whatever the state is
    have hreserve : Action.reserve .body 0 size allocator state =
        ⟨(Action.reserve .body 0 size allocator ()).answer, state, []⟩ := rfl
    have hunit : Action.reserve .body 0 size allocator () =
        ⟨(Action.reserve .body 0 size allocator ()).answer, (), []⟩ := rfl
    generalize (Action.reserve .body 0 size allocator ()).answer = granted at hreserve hunit
    cases granted with
    | error failure => rw [Action.bind_apply_error hreserve, Action.bind_apply_error hunit]
    | ok _ =>
      rw [Action.bind_of_ok hreserve, Action.bind_of_ok hunit]
      cases Body.empty.appendColumns alignment batch.columns with
      | error failure => rfl
      | ok made =>
        obtain ⟨entries, body⟩ := made
        rw [Action.liftM_ok_bind, Action.liftM_ok_bind]
        by_cases hagree : body.bytes.size = size
        · simp only [if_pos hagree]
          cases encodeMetadata batch.rows size entries with
          | error failure => rfl
          | ok metadata => rfl
        · simp only [if_neg hagree]
          rfl

namespace Ipc

/-- The block of a frame that begins at a place. -/
def Frame.block (frame : Frame) (offset : Nat) : Block where
  offset
  metadataLength := 4 + frame.metadata.length
  bodyLength := frame.body.length

theorem Message.block_frame (message : Message) (padding offset : Nat) :
    (message.frame padding).block offset =
      ⟨offset, message.metadata.size + wordSize + padding, message.body.size⟩ := by
  have hmetadata : 4 + (message.frame padding).metadata.length =
      message.metadata.size + wordSize + padding := by
    rw [message.length_frame_metadata, wordSize]
    omega
  have hbody : (message.frame padding).body.length = message.body.size := Array.length_toList
  rw [Frame.block, hmetadata, hbody]

/-- A message that could be framed has a block. -/
theorem Message.create_block {message : Message} {alignment padding : Nat}
    (h : message.padding? alignment = .ok padding) (offset : Nat) :
    Block.create offset (message.metadata.size + wordSize + padding) message.body.size =
      .ok ((message.frame padding).block offset) := by
  rw [Block.create, if_pos (padding?_eq_ok h).2, message.block_frame]
  rfl

/-- A message that was sent has a block, wherever it stands. -/
theorem Message.create_of_write {σ : Type} [Sink σ] {message : Message} {alignment : Nat}
    {allocator : Allocator} {sink : σ} {metadataLength bodyLength : Nat}
    (h : (write alignment message allocator sink).answer = .ok (metadataLength, bodyLength))
    (offset : Nat) :
    Block.create offset metadataLength bodyLength = .ok ⟨offset, metadataLength, bodyLength⟩ := by
  rw [write_apply] at h
  cases hpadding : message.padding? alignment with
  | error failure =>
    rw [hpadding] at h
    cases h
  | ok padding =>
    rw [hpadding] at h
    simp only at h
    rcases hoffer : Sink.offerAll (message.parts padding) sink with ⟨_ | error, after⟩
    · rw [hoffer] at h
      obtain ⟨rfl, rfl⟩ := Prod.mk.inj (Except.ok.inj h)
      rw [create_block hpadding, message.block_frame]
    · rw [hoffer] at h
      cases h

namespace Session

variable {σ α : Type} {session : Session σ} {allocator : Allocator}

theorem ensureWritable_of_ne (hphase : session.phase ≠ .writable) :
    ∃ error, session.ensureWritable = .error (.error error) := by
  rw [ensureWritable]
  cases hcase : session.phase with
  | writable => exact absurd hcase hphase
  | failed message => exact ⟨_, rfl⟩
  | closed => exact ⟨_, rfl⟩

theorem ensureWritable_of_eq (hphase : session.phase = .writable) :
    session.ensureWritable = .ok () := by
  rw [ensureWritable, hphase]
  rfl

/-! ## Sending -/

/-- How a call ends that fails while it sends: the error says at which step, and the session
fails with the message of that error. -/
def breakAt (session : Session σ) (step : String) (sink : σ) (error : Error) :
    Outcome (Session σ) α :=
  let error := Error.within error (place session.mode step)
  ⟨.error (.error error), { session with sink, phase := .failed error.message }, []⟩

theorem send_of_ok (step : String) {action : Action σ α} {answer : α} {after : σ}
    (h : action allocator session.sink = ⟨.ok answer, after, []⟩) :
    send step action allocator session = ⟨.ok answer, { session with sink := after }, []⟩ := by
  rw [send, Action.bind_of_ok (Action.attempt_of_ok (Action.onPart_apply h))]
  rfl

theorem send_of_error (step : String) {action : Action σ α} {error : Error} {after : σ}
    (h : action allocator session.sink = ⟨.error (.error error), after, []⟩) :
    send step action allocator session = session.breakAt step after error := by
  rw [send, Action.bind_of_ok (Action.attempt_of_error (Action.onPart_apply h))]
  rfl

/-- A breach does not make the session fail. -/
theorem send_of_breach (step : String) {action : Action σ α} {reason : Breach} {after : σ}
    (h : action allocator session.sink = ⟨.error (.breach reason), after, []⟩) :
    send step action allocator session =
      ⟨.error (.breach reason), { session with sink := after }, []⟩ := by
  rw [send, Action.bind_apply_error (Action.attempt_of_breach (Action.onPart_apply h))]

/-! ## Calls -/

/-- The message of a batch, if the session can be written to, the batch fits its schema and can
be encoded. -/
def prepare (session : Session σ) (batch : RecordBatch) (allocator : Allocator) :
    Result Message := do
  session.ensureWritable
  session.schema.ensureSameLayout batch.schema
  ensureNoNulls session.schema.fields batch.columns
  (batch.encode session.alignment allocator ()).answer

theorem prepare_eq_ok {batch : RecordBatch} {message : Message}
    (h : session.prepare batch allocator = .ok message) :
    session.phase = .writable ∧ session.schema.ensureSameLayout batch.schema = .ok () ∧
      ensureNoNulls session.schema.fields batch.columns = .ok () ∧
      (batch.encode session.alignment allocator ()).answer = .ok message := by
  obtain ⟨⟨⟩, hwritable, hrest⟩ := bind_eq_ok_iff.mp h
  obtain ⟨⟨⟩, hlayout, hrest⟩ := bind_eq_ok_iff.mp hrest
  obtain ⟨⟨⟩, hnulls, hencode⟩ := bind_eq_ok_iff.mp hrest
  refine ⟨Decidable.byContradiction fun hphase => ?_, hlayout, hnulls, hencode⟩
  obtain ⟨error, hfailed⟩ := ensureWritable_of_ne hphase
  rw [hfailed] at hwritable
  cases hwritable

/-- What there is to be sent when a session starts. -/
inductive Opening where
  /-- Nothing, as the alignment or the schema is at fault. -/
  | refused (failure : Failure)
  /-- The header, after which it turns out that the schema message cannot be framed. -/
  | unframed (failure : Failure)
  /-- The header and the schema message. -/
  | framed (message : Message) (padding : Nat)

/-- What there is to be sent before batches of the schema. -/
def opening (schema : Schema) (alignment : Nat) : Opening :=
  match Alignment.check alignment, schema.encode with
  | .error failure, _ => .refused failure
  | _, .error failure => .refused failure
  | _, .ok metadata =>
    match Message.padding? ⟨metadata.toArray, #[]⟩ alignment with
    | .error failure => .unframed failure
    | .ok padding => .framed ⟨metadata.toArray, #[]⟩ padding

/-- What an opening is depends on the alignment, on the schema, and on whether the schema message
can be framed. -/
theorem opening_cases (schema : Schema) (alignment : Nat) :
    (∃ failure, opening schema alignment = .refused failure ∧
        (Alignment.check alignment = .error failure ∨ schema.encode = .error failure)) ∨
      ∃ metadata, Alignment.check alignment = .ok () ∧ schema.encode = .ok metadata ∧
        ((∃ failure, opening schema alignment = .unframed failure ∧
            Message.padding? ⟨metadata.toArray, #[]⟩ alignment = .error failure) ∨
          ∃ padding, opening schema alignment = .framed ⟨metadata.toArray, #[]⟩ padding ∧
            Message.padding? ⟨metadata.toArray, #[]⟩ alignment = .ok padding) := by
  rw [opening]
  cases Alignment.check alignment with
  | error failure => exact .inl ⟨failure, rfl, .inl rfl⟩
  | ok _ =>
    cases schema.encode with
    | error failure => exact .inl ⟨failure, rfl, .inr rfl⟩
    | ok metadata =>
      refine .inr ⟨metadata, rfl, rfl, ?_⟩
      simp only
      cases Message.padding? ⟨metadata.toArray, #[]⟩ alignment with
      | error failure => exact .inl ⟨failure, rfl, rfl⟩
      | ok padding => exact .inr ⟨padding, rfl, rfl⟩

theorem opening_eq_framed {schema : Schema} {alignment : Nat} {message : Message} {padding : Nat}
    (h : opening schema alignment = .framed message padding) :
    ∃ metadata, schema.encode = .ok metadata ∧ message = ⟨metadata.toArray, #[]⟩ ∧
      message.padding? alignment = .ok padding := by
  obtain ⟨failure, hrefused, -⟩ | ⟨metadata, -, hmetadata, hrest⟩ :=
    opening_cases schema alignment
  · cases h.symm.trans hrefused
  · obtain ⟨failure, hunframed, -⟩ | ⟨found, hframed, hpadding⟩ := hrest
    · cases h.symm.trans hunframed
    · obtain ⟨rfl, rfl⟩ := Opening.framed.inj (h.symm.trans hframed)
      exact ⟨metadata, hmetadata, rfl, hpadding⟩

/-- What is sent before batches, header included. -/
def Opening.parts (header : Bytes) : Opening → List Bytes
  | refused _ => []
  | unframed _ => [header]
  | framed message padding => header :: message.parts padding

/-- The session as it is right after its opening. -/
def opened (mode : Mode) (header : Bytes) (schema : Schema) (alignment : Nat) (message : Message)
    (padding : Nat) (sink : σ) : Session σ where
  mode
  phase := .writable
  sink
  schema
  alignment
  bytesWritten := header.size + (message.frame padding).encode.length
  batchesWritten := 0

variable [Sink σ]

/-- A batch whose message cannot be made is refused. Otherwise the message is sent, unless it
cannot be framed. -/
theorem writeBatch_apply (batch : RecordBatch) (allocator : Allocator) (session : Session σ) :
    writeBatch batch allocator session =
      match session.prepare batch allocator with
      | .error failure => ⟨.error failure, session, []⟩
      | .ok message =>
        match message.padding? session.alignment with
        | .error (.breach reason) => ⟨.error (.breach reason), session, []⟩
        | .error (.error error) => session.breakAt "write-record-batch" session.sink error
        | .ok padding =>
          match Sink.offerAll (message.parts padding) session.sink with
          | (some error, sink) => session.breakAt "write-record-batch" sink (.io error none)
          | (none, sink) =>
            ⟨.ok ((message.frame padding).block session.bytesWritten),
              { session with
                sink
                bytesWritten :=
                  session.bytesWritten + (message.frame padding).encode.length
                batchesWritten := session.batchesWritten + 1 },
              [.wroteBatch session.mode batch.rows session.bytesWritten
                (message.metadata.size + Message.wordSize + padding) message.body.size]⟩ := by
  -- the checks one after the other, each of which ends the call if it fails
  rw [writeBatch, Action.getThe_bind, prepare]
  cases session.ensureWritable with
  | error failure => rfl
  | ok _ =>
    rw [Action.liftM_ok_bind, ok_bind]
    cases session.schema.ensureSameLayout batch.schema with
    | error failure => rfl
    | ok _ =>
      rw [Action.liftM_ok_bind, ok_bind]
      cases ensureNoNulls session.schema.fields batch.columns with
      | error failure => rfl
      | ok _ =>
        have hencode := batch.encode_apply session.alignment allocator session
        rw [Action.liftM_ok_bind, ok_bind]
        cases hmessage : (batch.encode session.alignment allocator ()).answer with
        | error failure =>
          rw [hmessage] at hencode
          exact Action.bind_apply_error hencode
        | ok message =>
          rw [hmessage] at hencode
          have hwrite := Message.write_apply session.alignment message allocator session.sink
          rw [Action.bind_of_ok hencode]
          cases hpadding : message.padding? session.alignment with
          | error failure =>
            simp only [hpadding] at hwrite ⊢
            cases failure with
            | breach reason => exact Action.bind_apply_error (send_of_breach _ hwrite)
            | error error => exact Action.bind_apply_error (send_of_error _ hwrite)
          | ok padding =>
            simp only [hpadding] at hwrite ⊢
            rcases hoffer : Sink.offerAll (message.parts padding) session.sink with
              ⟨_ | error, after⟩
            · rw [hoffer] at hwrite
              rw [Action.bind_of_ok (send_of_ok _ hwrite)]
              simp only [Action.modify_bind, Action.report_bind, Message.create_block hpadding,
                Action.liftM_apply]
              rw [message.length_frame_encode]
            · rw [hoffer] at hwrite
              exact Action.bind_apply_error (send_of_error _ hwrite)

/-- The end marker and the trailer are sent and the sink is flushed, if the session can be
written to. -/
theorem finish_apply (trailer : Bytes) (allocator : Allocator) (session : Session σ) :
    finish trailer allocator session =
      match session.ensureWritable with
      | .error failure => ⟨.error failure, session, []⟩
      | .ok _ =>
        match Sink.conclude [Message.endMarker, trailer] session.sink with
        | (some error, sink) => session.breakAt "close" sink (.io error none)
        | (none, sink) =>
          ⟨.ok (),
            { session with
              sink
              phase := .closed
              bytesWritten :=
                session.bytesWritten + (Message.endMarker.size + trailer.size) },
            [.closed session.mode session.batchesWritten
              (session.bytesWritten + (Message.endMarker.size + trailer.size))]⟩ := by
  rw [finish, Action.getThe_bind]
  cases session.ensureWritable with
  | error failure => rfl
  | ok _ =>
    have hsend := Message.finish_apply trailer allocator session.sink
    rw [Action.liftM_ok_bind]
    simp only
    rcases hoffer : Sink.conclude [Message.endMarker, trailer] session.sink with
      ⟨_ | error, after⟩
    · rw [hoffer] at hsend
      rw [Action.bind_of_ok (send_of_ok _ hsend)]
      rfl
    · rw [hoffer] at hsend
      exact Action.bind_apply_error (send_of_error _ hsend)

/-- A failure as it leaves a place. A breach has no place. -/
def failedAt (place : String) : Failure → Failure
  | .error error => .error (.within error place)
  | .breach reason => .breach reason

/-- The parts of the opening are offered to the sink. If it takes them all, what comes of the
session is decided by the opening alone. -/
theorem start_apply (mode : Mode) (header : Bytes) (schema : Schema) (alignment : Nat)
    (allocator : Allocator) (sink : σ) :
    start mode header schema alignment allocator sink =
      match Sink.offerAll ((opening schema alignment).parts header) sink with
      | (some error, after) =>
        ⟨.error (failedAt (place mode "open") (.error (.io error none))), after, []⟩
      | (none, after) =>
        match opening schema alignment with
        | .refused failure => ⟨.error failure, after, []⟩
        | .unframed failure => ⟨.error (failedAt (place mode "open") failure), after, []⟩
        | .framed message padding =>
          ⟨.ok
            (opened mode header schema alignment message padding after,
              (message.frame padding).block header.size), after,
            [.opened mode schema.length (message.metadata.size + Message.wordSize + padding)]⟩ := by
  rw [start, opening]
  cases Alignment.check alignment with
  | error failure => rfl
  | ok _ =>
    cases schema.encode with
    | error failure => rfl
    | ok metadata =>
      rw [Action.liftM_ok_bind, Action.liftM_ok_bind]
      simp only
      cases hpadding : Message.padding? ⟨metadata.toArray, #[]⟩ alignment with
      | error failure =>
        -- the header is offered before the framing fails
        have hsent := Message.writeAfter_of_error header hpadding allocator sink
        simp only [Opening.parts]
        rcases hoffer : Sink.offerAll [header] sink with ⟨_ | error, after⟩
        · rw [hoffer] at hsent
          cases failure with
          | error error =>
            rw [Action.bind_of_ok (Action.attempt_of_error hsent)]
            rfl
          | breach reason => exact Action.bind_apply_error (Action.attempt_of_breach hsent)
        · rw [hoffer] at hsent
          rw [Action.bind_of_ok (Action.attempt_of_error hsent)]
          rfl
      | ok padding =>
        have hsent := Message.writeAfter_of_ok header hpadding allocator sink
        simp only [Opening.parts]
        rcases hoffer : Sink.offerAll (header :: Message.parts ⟨metadata.toArray, #[]⟩ padding) sink
          with ⟨_ | error, after⟩
        · rw [hoffer] at hsent
          rw [Action.bind_of_ok (Action.attempt_of_ok hsent)]
          simp only [Message.create_block hpadding, Action.liftM_ok_bind]
          rw [opened, Message.length_frame_encode]
          rfl
        · rw [hoffer] at hsent
          rw [Action.bind_of_ok (Action.attempt_of_error hsent)]
          rfl

theorem start_eq_ok {mode : Mode} {header : Bytes} {schema : Schema} {alignment : Nat}
    {allocator : Allocator} {sink : σ} {session : Session σ} {block : Block}
    (h : (start mode header schema alignment allocator sink).answer = .ok (session, block)) :
    ∃ message padding after, opening schema alignment = .framed message padding ∧
      Sink.offerAll (header :: message.parts padding) sink = (none, after) ∧
      session = opened mode header schema alignment message padding after ∧
      block = (message.frame padding).block header.size := by
  rw [start_apply] at h
  rcases hoffer : Sink.offerAll ((opening schema alignment).parts header) sink with
    ⟨_ | error, after⟩
  · rw [hoffer] at h
    cases hopening : opening schema alignment with
    | refused failure =>
      rw [hopening] at h
      cases h
    | unframed failure =>
      rw [hopening] at h
      cases h
    | framed message padding =>
      rw [hopening] at h hoffer
      obtain ⟨rfl, rfl⟩ := Prod.mk.inj (Except.ok.inj h)
      exact ⟨message, padding, after, rfl, hoffer, rfl, rfl⟩
  · rw [hoffer] at h
    cases h

end Session

/-! ## Writers -/

namespace StreamWriter

variable {σ : Type} [Sink σ] {writer : StreamWriter σ} {allocator : Allocator} {batch : RecordBatch}

theorem write_of_ok {block : Block} {after : Session σ} {events : List Event}
    (h : Session.writeBatch batch allocator writer.session = ⟨.ok block, after, events⟩) :
    write batch allocator writer = ⟨.ok (), ⟨after⟩, events⟩ := by
  have hpart : onSession (Session.writeBatch batch) allocator writer =
      ⟨.ok block, ⟨after⟩, events⟩ := Action.onPart_apply h
  rw [write, Action.bind_apply_ok hpart]
  simp

theorem write_of_error {failure : Failure} {after : Session σ} {events : List Event}
    (h : Session.writeBatch batch allocator writer.session = ⟨.error failure, after, events⟩) :
    write batch allocator writer = ⟨.error failure, ⟨after⟩, events⟩ := by
  have hpart : onSession (Session.writeBatch batch) allocator writer =
      ⟨.error failure, ⟨after⟩, events⟩ := Action.onPart_apply h
  rw [write, Action.bind_apply_error hpart]

theorem close_eq {answer : Result Unit} {after : Session σ} {events : List Event}
    (h : Session.finish #[] allocator writer.session = ⟨answer, after, events⟩) :
    close allocator writer = ⟨answer, ⟨after⟩, events⟩ := by
  rw [close, onSession, Action.onPart_apply h]

theorem create_apply (schema : Schema) (alignment : Nat) (sink : σ) :
    create schema alignment allocator sink =
      let started := Session.start .stream #[] schema alignment allocator sink
      ⟨started.answer.map fun made => ⟨made.1⟩, started.state, started.events⟩ :=
  Action.bind_pure_apply _ _

theorem create_eq_ok {schema : Schema} {alignment : Nat} {sink : σ}
    (h : (create schema alignment allocator sink).answer = .ok writer) :
    ∃ block, (Session.start .stream #[] schema alignment allocator sink).answer =
      .ok (writer.session, block) := by
  obtain ⟨⟨session, block⟩, hstart, hmade⟩ := Action.bind_answer_eq_ok h
  obtain rfl := Except.ok.inj hmade
  exact ⟨block, hstart⟩

end StreamWriter

namespace FileWriter

variable {σ : Type} [Sink σ] {writer : FileWriter σ} {allocator : Allocator} {batch : RecordBatch}

/-- A batch that arrives is noted, one that does not is not. -/
theorem write_of_ok {block : Block} {after : Session σ} {events : List Event}
    (h : Session.writeBatch batch allocator writer.session = ⟨.ok block, after, events⟩) :
    write batch allocator writer =
      ⟨.ok (), ⟨after, writer.schemaBlock, writer.recordBlocks ++ [block]⟩, events⟩ := by
  have hpart : onSession (Session.writeBatch batch) allocator writer =
      ⟨.ok block, { writer with session := after }, events⟩ := Action.onPart_apply h
  rw [write, Action.bind_apply_ok hpart]
  simp

theorem write_of_error {failure : Failure} {after : Session σ} {events : List Event}
    (h : Session.writeBatch batch allocator writer.session = ⟨.error failure, after, events⟩) :
    write batch allocator writer =
      ⟨.error failure, ⟨after, writer.schemaBlock, writer.recordBlocks⟩, events⟩ := by
  have hpart : onSession (Session.writeBatch batch) allocator writer =
      ⟨.error failure, { writer with session := after }, events⟩ := Action.onPart_apply h
  rw [write, Action.bind_apply_error hpart]

/-- A trailer that cannot be made leaves the writer as it was. -/
theorem close_of_error {failure : Failure}
    (h : trailer writer.session.schema writer.recordBlocks = .error failure) :
    close allocator writer = ⟨.error failure, writer, []⟩ := by
  rw [close, Action.getThe_bind, h, Action.liftM_error_bind]

theorem close_of_ok {bytes : Bytes}
    (h : trailer writer.session.schema writer.recordBlocks = .ok bytes) {answer : Result Unit}
    {after : Session σ} {events : List Event}
    (hfinish : Session.finish bytes allocator writer.session = ⟨answer, after, events⟩) :
    close allocator writer = ⟨answer, { writer with session := after }, events⟩ := by
  rw [close, Action.getThe_bind, h, Action.liftM_ok_bind, onSession, Action.onPart_apply hfinish]

/-- The trailer of a writer that was closed could be made, and was sent after everything else. -/
theorem close_eq_ok {closed : FileWriter σ} {events : List Event}
    (h : close allocator writer = ⟨.ok (), closed, events⟩) :
    ∃ bytes after, trailer writer.session.schema writer.recordBlocks = .ok bytes ∧
      Session.finish bytes allocator writer.session = ⟨.ok (), after, events⟩ ∧
      closed = { writer with session := after } := by
  cases htrailer : trailer writer.session.schema writer.recordBlocks with
  | error failure =>
    rw [close_of_error htrailer] at h
    injection h with hanswer
    cases hanswer
  | ok bytes =>
    rcases hfinish : Session.finish bytes allocator writer.session with ⟨answer, after, sent⟩
    rw [close_of_ok htrailer hfinish] at h
    injection h with hanswer hstate hevents
    subst hanswer hstate hevents
    exact ⟨bytes, after, rfl, hfinish, rfl⟩

theorem create_apply (schema : Schema) (alignment : Nat) (sink : σ) :
    create schema alignment allocator sink =
      let started := Session.start .file header schema alignment allocator sink
      ⟨started.answer.map fun made => ⟨made.1, made.2, []⟩, started.state, started.events⟩ :=
  Action.bind_pure_apply _ _

theorem create_eq_ok {schema : Schema} {alignment : Nat} {sink : σ}
    (h : (create schema alignment allocator sink).answer = .ok writer) :
    (Session.start .file header schema alignment allocator sink).answer =
        .ok (writer.session, writer.schemaBlock) ∧ writer.recordBlocks = [] := by
  obtain ⟨⟨session, block⟩, hstart, hmade⟩ := Action.bind_answer_eq_ok h
  obtain rfl := Except.ok.inj hmade
  exact ⟨hstart, rfl⟩

end FileWriter

end Ipc

end Columnar
