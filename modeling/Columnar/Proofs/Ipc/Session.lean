import Columnar.Proofs.Ipc.BatchEncoding
import Columnar.Proofs.Ipc.Calls

/-! # Sessions over sinks that never fail -/

namespace Columnar.Ipc

/-- The blocks of frames one after the other, the first of which begins at a place. -/
def blocksFrom (offset : Nat) : (frames : List Frame) → List Block
  | [] => []
  | frame :: rest => frame.block offset :: blocksFrom (offset + frame.encode.length) rest

theorem blocksFrom_concat (offset : Nat) (frames : List Frame) (frame : Frame) :
    blocksFrom offset (frames ++ [frame]) =
      blocksFrom offset frames ++
        [frame.block (offset + (frames.flatMap Frame.encode).length)] := by
  induction frames generalizing offset with
  | nil => rfl
  | cons first rest ih =>
    rw [List.cons_append, blocksFrom, ih, blocksFrom, List.flatMap_cons, List.length_append,
      Nat.add_assoc]
    rfl

/-- The frame is told from the end marker, and the batch is read from it by the schema. -/
def Frame.Carries (schema : Schema) (batch : RecordBatch) (frame : Frame) : Prop :=
  frame.IsProper ∧ frame.metadata.head? = some MessageKind.recordBatch.code ∧
    ∃ reading, readBatch? schema frame = some reading ∧ reading.Shows batch

theorem isProper_of_carries {schema : Schema} {batches : List RecordBatch} {frames : List Frame}
    (h : List.Forall₂ (Frame.Carries schema) batches frames) :
    ∀ frame ∈ frames, frame.IsProper := by
  induction h with
  | nil => rintro frame ⟨⟩
  | cons hframe _ ih =>
    intro frame hmem
    obtain rfl | hmem := List.mem_cons.mp hmem
    · exact hframe.1
    · exact ih frame hmem

/-- The frame of an encoded batch carries the batch to any schema of its layout. -/
theorem Message.carries_of_isEncodedBy {batch : RecordBatch} {message : Message}
    (h : batch.IsEncodedBy message) (hbatch : batch.WellFormed) {schema : Schema}
    (hwidths : List.Forall₂ (fun field column => field.dtype.byteWidth = column.width)
      schema.fields batch.columns) {padding : Nat} (hpos : 0 < message.metadata.size + padding)
    (hlt : message.metadata.size + Message.wordSize + padding < wordBound) :
    (message.frame padding).Carries schema batch := by
  have hlength := message.length_frame_metadata padding
  rw [Message.wordSize] at hlt
  refine ⟨⟨?_, ?_, ?_⟩, ?_, h.readBatch?_eq hbatch hwidths _⟩
  · rw [hlength]
    exact hpos
  · rw [hlength]
    omega
  · exact (h.declaredBody_eq _).trans Array.length_toList.symm
  · obtain ⟨entries, -, hmetadata, -⟩ := h.2
    show (message.metadata.toList ++ _).head? = _
    rw [hmetadata]
    exact RecordBatch.head?_metadataOf _

namespace Session

variable {σ α : Type} [Sink σ] {good : σ → Prop} {session : Session σ} {allocator : Allocator}

/-! ## Calls -/

theorem writeBatch_of_ne (hphase : session.phase ≠ .writable) (batch : RecordBatch) :
    ∃ failure, writeBatch batch allocator session = ⟨.error failure, session, []⟩ := by
  obtain ⟨error, hfailed⟩ := ensureWritable_of_ne hphase
  rw [writeBatch_apply, prepare, hfailed]
  exact ⟨_, rfl⟩

theorem finish_of_ne (hphase : session.phase ≠ .writable) (trailer : Bytes) :
    ∃ failure, finish trailer allocator session = ⟨.error failure, session, []⟩ := by
  obtain ⟨error, hfailed⟩ := ensureWritable_of_ne hphase
  rw [finish_apply, hfailed]
  exact ⟨_, rfl⟩

omit [Sink σ] in
/-- The message of a batch that was prepared carries it. -/
theorem carries_of_prepare {batch : RecordBatch} (hbatch : batch.WellFormed) {message : Message}
    (hmessage : session.prepare batch allocator = .ok message) {padding : Nat}
    (hpadding : message.padding? session.alignment = .ok padding) :
    (message.frame padding).Carries session.schema batch := by
  obtain ⟨-, hlayout, -, hencode⟩ := prepare_eq_ok hmessage
  obtain ⟨hpos, hlt⟩ := Message.padding?_eq_ok hpadding
  obtain ⟨other, hother, hencoded⟩ | ⟨failure, hfailed⟩ :=
    RecordBatch.encode_cases hbatch session.alignment allocator ()
  · rw [hother] at hencode
    obtain rfl := Except.ok.inj hencode
    exact Message.carries_of_isEncodedBy hencoded hbatch
      (Schema.widths_of_sameLayout hbatch hlayout) hpos hlt
  · rw [hfailed] at hencode
    cases hencode

/-- A batch arrives as a frame, or it is refused and the session is as it was, or the session
fails before anything is sent. -/
theorem writeBatch_cases (hgood : Sink.Reliable good) (hsink : good session.sink)
    {batch : RecordBatch} (hbatch : batch.WellFormed) (allocator : Allocator) :
    (∃ frame : Frame, frame.Carries session.schema batch ∧
        ∃ after, good after ∧
          (Sink.held after).toList = (Sink.held session.sink).toList ++ frame.encode ∧
          ∃ events, writeBatch batch allocator session =
            ⟨.ok (frame.block session.bytesWritten),
              { session with
                sink := after
                bytesWritten := session.bytesWritten + frame.encode.length
                batchesWritten := session.batchesWritten + 1 }, events⟩) ∨
      (∃ failure, writeBatch batch allocator session = ⟨.error failure, session, []⟩) ∨
      ∃ failure message, writeBatch batch allocator session =
        ⟨.error failure, { session with phase := .failed message }, []⟩ := by
  rw [writeBatch_apply]
  cases hmessage : session.prepare batch allocator with
  | error failure => exact .inr (.inl ⟨failure, rfl⟩)
  | ok message =>
    simp only
    cases hpadding : message.padding? session.alignment with
    | error failure =>
      cases failure with
      | breach reason => exact .inr (.inl ⟨_, rfl⟩)
      | error error => exact .inr (.inr ⟨_, _, rfl⟩)
    | ok padding =>
      obtain ⟨hnone, hafter⟩ := hgood.offerAll_eq hsink (message.parts padding)
      have hheld := hgood.held_offerAll hsink (message.parts padding)
      rw [message.joined_parts] at hheld
      simp only
      rcases hoffer : Sink.offerAll (message.parts padding) session.sink with ⟨answer, after⟩
      rw [hoffer] at hnone hafter hheld
      obtain rfl : answer = none := hnone
      exact .inl ⟨_, carries_of_prepare hbatch hmessage hpadding, after, hafter, hheld, _, rfl⟩

end Session

/-! ## What a session has sent -/

/-- The frame is the schema message: the bytes of the schema, zero bytes after them, no body. -/
def Frame.IsSchema (schema : Schema) (frame : Frame) : Prop :=
  frame.IsProper ∧ ∃ metadata padding, schema.encode = .ok metadata ∧
    metadata.head? = some MessageKind.schema.code ∧
    frame = ⟨metadata ++ List.replicate padding 0, []⟩

theorem head?_encode {schema : Schema} {metadata : List UInt8}
    (h : schema.encode = .ok metadata) : metadata.head? = some MessageKind.schema.code := by
  obtain ⟨count, -, hrest⟩ := bind_eq_ok_iff.mp h
  obtain ⟨fields, -, hdone⟩ := bind_eq_ok_iff.mp hrest
  obtain rfl := Except.ok.inj hdone
  rfl

theorem Message.isSchema_frame {schema : Schema} {metadata : List UInt8}
    (h : schema.encode = .ok metadata) {padding : Nat}
    (hlt : metadata.length + wordSize + padding < wordBound) :
    ((⟨metadata.toArray, #[]⟩ : Message).frame padding).IsSchema schema := by
  have hhead := head?_encode h
  have hlength := length_frame_metadata ⟨metadata.toArray, #[]⟩ padding
  have hsome : 0 < metadata.length := by
    apply List.length_pos_of_ne_nil
    rintro rfl
    cases hhead
  have hother : (metadata ++ List.replicate padding 0).head? ≠
      some MessageKind.recordBatch.code := by
    rw [List.head?_append, hhead, Option.some_or]
    decide
  rw [wordSize] at hlt
  refine ⟨⟨?_, ?_, ?_⟩, metadata, padding, h, hhead, rfl⟩
  · rw [hlength, List.size_toArray]
    omega
  · rw [hlength, List.size_toArray]
    omega
  · show declaredBody (metadata ++ List.replicate padding 0) = 0
    rw [declaredBody, if_neg hother]

namespace Session

variable {σ : Type} [Sink σ] {good : σ → Prop} {session : Session σ} {schema : Schema}
  {origin : List UInt8} {header : Bytes} {frames : List Frame}

/-- The session is writable, and after what the sink held at first it has sent the header and
the frames, which is what it has counted. -/
structure Tracks (good : σ → Prop) (schema : Schema) (origin : List UInt8) (header : Bytes)
    (frames : List Frame) (session : Session σ) : Prop where
  phase_eq : session.phase = .writable
  schema_eq : session.schema = schema
  good_sink : good session.sink
  held_eq : (Sink.held session.sink).toList =
    origin ++ (header.toList ++ frames.flatMap Frame.encode)
  bytesWritten_eq : session.bytesWritten = header.size + (frames.flatMap Frame.encode).length

/-- A session that was started has sent the header and the schema message. -/
theorem start_tracks (hgood : Sink.Reliable good) {sink : σ} (hsink : good sink) {mode : Mode}
    {alignment : Nat} {allocator : Allocator} {block : Block}
    (h : (start mode header schema alignment allocator sink).answer = .ok (session, block)) :
    ∃ first : Frame, first.IsSchema schema ∧ block = first.block header.size ∧
      session.Tracks good schema (Sink.held sink).toList header [first] := by
  obtain ⟨message, padding, after, hopening, hoffer, rfl, rfl⟩ := start_eq_ok h
  obtain ⟨metadata, hmetadata, rfl, hpadding⟩ := opening_eq_framed hopening
  have hlt := (Message.padding?_eq_ok hpadding).2
  rw [List.size_toArray] at hlt
  obtain ⟨-, hafter⟩ :=
    hgood.offerAll_eq hsink (header :: Message.parts ⟨metadata.toArray, #[]⟩ padding)
  have hheld := hgood.held_offerAll hsink (header :: Message.parts ⟨metadata.toArray, #[]⟩ padding)
  rw [hoffer] at hafter hheld
  rw [joined_cons, Message.joined_parts] at hheld
  refine ⟨_, Message.isSchema_frame hmetadata hlt, rfl, rfl, rfl, hafter, ?_, ?_⟩
  · rw [List.flatMap_singleton]
    exact hheld
  · rw [List.flatMap_singleton]
    rfl

/-- A batch that is accepted adds the frame that carries it. One that is refused leaves the
session as it was, or makes it fail for good. -/
theorem Tracks.writeBatch_cases (hgood : Sink.Reliable good)
    (h : session.Tracks good schema origin header frames) {batch : RecordBatch}
    (hbatch : batch.WellFormed) (allocator : Allocator) :
    (∃ frame : Frame, frame.Carries schema batch ∧ ∃ after events,
        writeBatch batch allocator session =
          ⟨.ok (frame.block (header.size + (frames.flatMap Frame.encode).length)), after, events⟩ ∧
        after.Tracks good schema origin header (frames ++ [frame])) ∨
      ∃ failure after, writeBatch batch allocator session = ⟨.error failure, after, []⟩ ∧
        (after = session ∨ after.phase ≠ .writable) := by
  obtain ⟨frame, hcarries, after, hafter, hheld, events, hwrite⟩ | hrest :=
    Session.writeBatch_cases hgood h.good_sink hbatch allocator
  · left
    rw [h.schema_eq] at hcarries
    rw [h.bytesWritten_eq] at hwrite
    refine ⟨frame, hcarries, _, events, hwrite, h.phase_eq, h.schema_eq, hafter, ?_, ?_⟩
    · rw [hheld, h.held_eq, List.flatMap_append, List.flatMap_singleton]
      simp only [List.append_assoc]
    · rw [List.flatMap_append, List.flatMap_singleton, List.length_append]
      exact Nat.add_assoc _ _ _
  · right
    obtain ⟨failure, hrefused⟩ | ⟨failure, text, hfailed⟩ := hrest
    · exact ⟨failure, session, hrefused, .inl rfl⟩
    · refine ⟨failure, _, hfailed, .inr ?_⟩
      rintro ⟨⟩

/-- A session that is closed has sent the end marker and the trailer after its frames. -/
theorem Tracks.finish_eq (hgood : Sink.Reliable good)
    (h : session.Tracks good schema origin header frames) (trailer : Bytes)
    (allocator : Allocator) :
    ∃ after events, finish trailer allocator session = ⟨.ok (), after, events⟩ ∧
      (Sink.held after.sink).toList = origin ++ (header.toList ++
        (frames.flatMap Frame.encode ++ (LittleEndian.encode 4 0 ++ trailer.toList))) := by
  obtain ⟨hnone, -⟩ := hgood.conclude_eq h.good_sink [Message.endMarker, trailer]
  have hheld := hgood.held_offerAll h.good_sink [Message.endMarker, trailer]
  rw [← Sink.held_conclude] at hheld
  rw [finish_apply, ensureWritable_of_eq h.phase_eq]
  simp only
  rcases hoffer : Sink.conclude [Message.endMarker, trailer] session.sink with ⟨answer, after⟩
  rw [hoffer] at hnone hheld
  obtain rfl : answer = none := hnone
  refine ⟨_, _, rfl, ?_⟩
  show (Sink.held after).toList = _
  rw [hheld, h.held_eq]
  simp [Message.endMarker, Message.wordSize]

end Session

/-! ## Sequences of writes -/

namespace Session

variable {σ : Type} [Sink σ] {good : σ → Prop} {session : Session σ} {schema : Schema}
  {origin : List UInt8} {header : Bytes} {first : Frame} {accepted : List RecordBatch}
  {blocks : List Block}

/-- As long as it is writable, the session has sent the first frame and then one for every
accepted batch, and the blocks say where these lie. -/
def Keeps (good : σ → Prop) (schema : Schema) (origin : List UInt8) (header : Bytes)
    (first : Frame) (accepted : List RecordBatch) (blocks : List Block) (session : Session σ) :
    Prop :=
  session.phase = .writable → ∃ frames, List.Forall₂ (Frame.Carries schema) accepted frames ∧
    session.Tracks good schema origin header (first :: frames) ∧
    blocks = blocksFrom (header.size + first.encode.length) frames

theorem Tracks.keeps (h : session.Tracks good schema origin header [first]) :
    session.Keeps good schema origin header first [] [] :=
  fun _ => ⟨[], .nil, h, rfl⟩

theorem Keeps.accept (hgood : Sink.Reliable good)
    (h : session.Keeps good schema origin header first accepted blocks) {batch : RecordBatch}
    (hbatch : batch.WellFormed) {allocator : Allocator} {block : Block} {after : Session σ}
    {events : List Event}
    (hwrite : writeBatch batch allocator session = ⟨.ok block, after, events⟩) :
    after.Keeps good schema origin header first (accepted ++ [batch]) (blocks ++ [block]) := by
  intro _
  by_cases hphase : session.phase = .writable
  · obtain ⟨frames, hcarries, htracks, rfl⟩ := h hphase
    obtain ⟨frame, hframe, after, events, hok, hafter⟩ | ⟨failure, after, hfailed, -⟩ :=
      htracks.writeBatch_cases hgood hbatch allocator
    · rw [hok] at hwrite
      injection hwrite with hanswer hstate
      obtain rfl := Except.ok.inj hanswer
      subst hstate
      refine ⟨frames ++ [frame], List.rel_append hcarries (.cons hframe .nil), hafter, ?_⟩
      rw [blocksFrom_concat, List.flatMap_cons, List.length_append, Nat.add_assoc]
    · rw [hfailed] at hwrite
      injection hwrite with hanswer
      cases hanswer
  · obtain ⟨failure, hfailed⟩ := writeBatch_of_ne hphase batch
    rw [hfailed] at hwrite
    injection hwrite with hanswer
    cases hanswer

theorem Keeps.reject (hgood : Sink.Reliable good)
    (h : session.Keeps good schema origin header first accepted blocks) {batch : RecordBatch}
    (hbatch : batch.WellFormed) {allocator : Allocator} {failure : Failure} {after : Session σ}
    {events : List Event}
    (hwrite : writeBatch batch allocator session = ⟨.error failure, after, events⟩) :
    after.Keeps good schema origin header first accepted blocks := by
  by_cases hphase : session.phase = .writable
  · obtain ⟨frames, hcarries, htracks, hblocks⟩ := h hphase
    obtain ⟨frame, hframe, other, events, hok, hafter⟩ | ⟨failure, other, hfailed, hafter⟩ :=
      htracks.writeBatch_cases hgood hbatch allocator
    · rw [hok] at hwrite
      injection hwrite with hanswer
      cases hanswer
    · rw [hfailed] at hwrite
      injection hwrite with _ hstate
      subst hstate
      obtain rfl | hfinal := hafter
      · exact h
      · exact fun hwritable => absurd hwritable hfinal
  · obtain ⟨failure, hfailed⟩ := writeBatch_of_ne hphase batch
    rw [hfailed] at hwrite
    injection hwrite with _ hstate
    rw [← hstate]
    exact h

end Session

section

variable {ω : Type}

/-- The writer after a sequence of writes, each with the allocator that it met, and the batches
that were accepted, in order. -/
def runWrites (write : RecordBatch → Action ω Unit) :
    (steps : List (Allocator × RecordBatch)) → ω → ω × List RecordBatch
  | [], writer => (writer, [])
  | (allocator, batch) :: rest, writer =>
    let outcome := write batch allocator writer
    let last := runWrites write rest outcome.state
    match outcome.answer with
    | .ok _ => (last.1, batch :: last.2)
    | .error _ => last

/-- What every write preserves, counting the batch if it was accepted, holds after a sequence
of writes. -/
theorem runWrites_preserves {write : RecordBatch → Action ω Unit} (Good : RecordBatch → Prop)
    (Inv : List RecordBatch → ω → Prop)
    (haccept : ∀ {accepted writer batch allocator answer}, Good batch → Inv accepted writer →
      (write batch allocator writer).answer = .ok answer →
      Inv (accepted ++ [batch]) (write batch allocator writer).state)
    (hreject : ∀ {accepted writer batch allocator failure}, Good batch → Inv accepted writer →
      (write batch allocator writer).answer = .error failure →
      Inv accepted (write batch allocator writer).state)
    {steps : List (Allocator × RecordBatch)} (hsteps : ∀ step ∈ steps, Good step.2) {writer : ω}
    {accepted : List RecordBatch} (h : Inv accepted writer) :
    Inv (accepted ++ (runWrites write steps writer).2) (runWrites write steps writer).1 := by
  induction steps generalizing writer accepted with
  | nil =>
    rw [runWrites, List.append_nil]
    exact h
  | cons step rest ih =>
    obtain ⟨allocator, batch⟩ := step
    have hbatch := hsteps _ List.mem_cons_self
    have hrest := fun step hmem => hsteps step (List.mem_cons_of_mem (allocator, batch) hmem)
    rw [runWrites]
    cases hanswer : (write batch allocator writer).answer with
    | ok answer =>
      have hnext := ih hrest (haccept hbatch h hanswer)
      rw [List.append_assoc] at hnext
      exact hnext
    | error failure => exact ih hrest (hreject hbatch h hanswer)

end

namespace Session

variable {σ ω : Type} [Sink σ] {good : σ → Prop} {part : ω → Session σ}
  {Notes : ω → List Block → Prop} {write : RecordBatch → Action ω Unit}

/-- What the call does to a part of its state is what the session's own call does to a session.
The rest of the state notes the blocks in some way. -/
structure Drives (part : ω → Session σ) (Notes : ω → List Block → Prop)
    (write : RecordBatch → Action ω Unit) : Prop where
  of_ok : ∀ {writer batch allocator blocks block after events}, Notes writer blocks →
    writeBatch batch allocator (part writer) = ⟨.ok block, after, events⟩ →
    (write batch allocator writer).answer = .ok () ∧
      part (write batch allocator writer).state = after ∧
      Notes (write batch allocator writer).state (blocks ++ [block])
  of_error : ∀ {writer batch allocator blocks failure after events}, Notes writer blocks →
    writeBatch batch allocator (part writer) = ⟨.error failure, after, events⟩ →
    (write batch allocator writer).answer = .error failure ∧
      part (write batch allocator writer).state = after ∧
      Notes (write batch allocator writer).state blocks

/-- As long as it is writable, a session has sent one frame for every accepted batch, and the
blocks of these frames are noted. -/
theorem Drives.keeps_runWrites (hdrives : Drives part Notes write) (hgood : Sink.Reliable good)
    {schema : Schema} {origin : List UInt8} {header : Bytes} {first : Frame} {writer : ω}
    (h : (part writer).Tracks good schema origin header [first]) (hnotes : Notes writer [])
    {steps : List (Allocator × RecordBatch)} (hsteps : ∀ step ∈ steps, step.2.WellFormed) :
    ∃ blocks, Notes (runWrites write steps writer).1 blocks ∧
      (part (runWrites write steps writer).1).Keeps good schema origin header first
        (runWrites write steps writer).2 blocks := by
  refine runWrites_preserves RecordBatch.WellFormed
    (fun accepted writer => ∃ blocks, Notes writer blocks ∧
      (part writer).Keeps good schema origin header first accepted blocks)
    ?_ ?_ hsteps ⟨[], hnotes, h.keeps⟩
  · rintro accepted writer batch allocator answer hbatch ⟨blocks, hnotes, hkeeps⟩ hanswer
    -- the invariant is about the session, which only the call of the session changes
    rcases hwrite : writeBatch batch allocator (part writer) with ⟨failure | block, after, events⟩
    · rw [(hdrives.of_error hnotes hwrite).1] at hanswer
      cases hanswer
    · obtain ⟨-, hpart, hafter⟩ := hdrives.of_ok hnotes hwrite
      rw [← hpart] at hwrite
      exact ⟨_, hafter, hkeeps.accept hgood hbatch hwrite⟩
  · rintro accepted writer batch allocator failure hbatch ⟨blocks, hnotes, hkeeps⟩ hanswer
    rcases hwrite : writeBatch batch allocator (part writer) with ⟨failure | block, after, events⟩
    · obtain ⟨-, hpart, hafter⟩ := hdrives.of_error hnotes hwrite
      rw [← hpart] at hwrite
      exact ⟨blocks, hafter, hkeeps.reject hgood hbatch hwrite⟩
    · rw [(hdrives.of_ok hnotes hwrite).1] at hanswer
      cases hanswer

end Session

end Columnar.Ipc
