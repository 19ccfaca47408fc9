import Columnar.Proofs.Ipc.BatchEncoding
import Columnar.Proofs.Ipc.History
import Columnar.Proofs.Ipc.Opening

/-! # Where messages and buffers lie -/

namespace Columnar

namespace Ipc

/-- The buffers of a column. -/
def ColumnEntry.buffers (entry : ColumnEntry) : List Extent :=
  [entry.validity, entry.values]

namespace Body

/-- The buffers lie in the body at multiples of the alignment, as the next one would, and all
bytes that belong to none of them are zero. -/
structure IsAligned (alignment : Nat) (body : Bytes) (buffers : List Extent) : Prop where
  size_dvd : alignment ∣ body.size
  offset_dvd : ∀ extent ∈ buffers, alignment ∣ extent.offset
  zero_outside : ∀ i < body.size,
    (∀ extent ∈ buffers, i < extent.offset ∨ extent.offset + extent.length ≤ i) →
      body[i]? = some 0

variable {alignment : Nat} {body after : Body} {buffers : List Extent}

theorem isAligned_empty (alignment : Nat) : IsAligned alignment #[] [] where
  size_dvd := Nat.dvd_zero alignment
  offset_dvd := by rintro _ ⟨⟩
  zero_outside := by rintro i ⟨⟩

/-- One more buffer starts where the padding of the last one ends. -/
theorem IsAligned.append (h : IsAligned alignment body.bytes buffers)
    (halignment : IsPowerOfTwo alignment) (hbody : body.IsTight) {buffer : Bytes} {extent : Extent}
    (happend : body.append alignment buffer = .ok (extent, after)) :
    IsAligned alignment after.bytes (buffers ++ [extent]) := by
  obtain ⟨padding, hpadding, hadded⟩ := bind_eq_ok_iff.mp happend
  obtain ⟨rfl, rfl⟩ := Prod.mk.inj (Except.ok.inj hadded)
  obtain ⟨hdvd, -⟩ := Alignment.padding_eq_ok halignment hpadding
  have hoffset : body.offset = body.bytes.size := hbody
  refine ⟨?_, ?_, ?_⟩
  · rw [Array.size_append, Array.size_append, Bytes.size_zeros, Nat.add_assoc]
    exact Nat.dvd_add h.size_dvd hdvd
  · intro other hmem
    obtain hmem | hmem := List.mem_append.mp hmem
    · exact h.offset_dvd other hmem
    · obtain rfl := List.mem_singleton.mp hmem
      show alignment ∣ body.offset
      rw [hoffset]
      exact h.size_dvd
  · intro i hi houtside
    have hlast := houtside _ (List.mem_append_right _ (List.mem_singleton_self _))
    simp only [hoffset] at hlast
    rw [Array.append_assoc]
    by_cases hold : i < body.bytes.size
    · rw [Array.getElem?_append_left hold]
      exact h.zero_outside i hold fun other hmem => houtside other (List.mem_append_left _ hmem)
    · -- past the buffer there is only its padding
      have hpast : body.bytes.size + buffer.size ≤ i := hlast.resolve_left hold
      rw [Array.size_append, Array.size_append, Bytes.size_zeros] at hi
      rw [Array.getElem?_append_right (by omega), Array.getElem?_append_right (by omega),
        Bytes.zeros, Array.getElem?_replicate, if_pos (by omega)]

theorem IsAligned.appendColumn (h : IsAligned alignment body.bytes buffers)
    (halignment : IsPowerOfTwo alignment) (hbody : body.IsTight) {column : Column}
    {entry : ColumnEntry} (happend : body.appendColumn alignment column = .ok (entry, after)) :
    IsAligned alignment after.bytes (buffers ++ entry.buffers) := by
  obtain ⟨nulls, -, hbits⟩ := bind_eq_ok_iff.mp happend
  obtain ⟨bits, -, hboth⟩ := bind_eq_ok_iff.mp hbits
  obtain ⟨⟨validity, middle⟩, hvalidity, hrest⟩ := bind_eq_ok_iff.mp hboth
  obtain ⟨bytes, -, hlast⟩ := bind_eq_ok_iff.mp hrest
  obtain ⟨⟨values, last⟩, hvalues, hdone⟩ := bind_eq_ok_iff.mp hlast
  obtain ⟨rfl, rfl⟩ := Prod.mk.inj (Except.ok.inj hdone)
  have hmiddle := (append_eq_ok hbody hvalidity).1.1
  have hall := (h.append halignment hbody hvalidity).append halignment hmiddle hvalues
  rwa [List.append_assoc] at hall

theorem IsAligned.appendColumns (h : IsAligned alignment body.bytes buffers)
    (halignment : IsPowerOfTwo alignment) (hbody : body.IsTight) {columns : List Column}
    (hcolumns : ∀ column ∈ columns, column.WellFormed) {entries : List ColumnEntry}
    (happend : body.appendColumns alignment columns = .ok (entries, after)) :
    IsAligned alignment after.bytes (buffers ++ entries.flatMap ColumnEntry.buffers) := by
  induction columns generalizing body buffers entries with
  | nil =>
    obtain ⟨rfl, rfl⟩ := Prod.mk.inj (Except.ok.inj happend)
    rwa [List.flatMap_nil, List.append_nil]
  | cons column rest ih =>
    obtain ⟨⟨entry, middle⟩, hfirst, hmore⟩ := bind_eq_ok_iff.mp happend
    obtain ⟨⟨others, last⟩, hrest, hdone⟩ := bind_eq_ok_iff.mp hmore
    obtain ⟨rfl, rfl⟩ := Prod.mk.inj (Except.ok.inj hdone)
    have hmiddle := (appendColumn_eq_ok (hcolumns column List.mem_cons_self) hbody hfirst).1.1
    have hall := ih (h.appendColumn halignment hbody hfirst) hmiddle
      (fun other hmem => hcolumns other (List.mem_cons_of_mem column hmem)) hrest
    rwa [List.append_assoc, ← List.flatMap_cons] at hall

end Body

/-! ## One message -/

/-- A message in the sink: its frame, its metadata without padding, and where in the body its
buffers lie. -/
structure Layout where
  frame : Frame
  metadata : List UInt8
  buffers : List Extent

namespace Layout

variable {alignment : Nat}

/-- The bytes of the message. -/
def encode (layout : Layout) : List UInt8 :=
  layout.frame.encode

/-- Where the body starts, counted from the start of the message. -/
def bodyStart (layout : Layout) : Nat :=
  Message.wordSize + layout.frame.metadata.length

/-- The places where the message, its body, and its buffers start, counted from the start of
the message. -/
def starts (layout : Layout) : List Nat :=
  0 :: layout.bodyStart :: layout.buffers.map fun extent => layout.bodyStart + extent.offset

/-- The length of the message is a multiple of the alignment, and so are all places where
something starts. The padding is zero. -/
structure IsAligned (alignment : Nat) (layout : Layout) : Prop where
  length_dvd : alignment ∣ layout.encode.length
  starts_dvd : ∀ start ∈ layout.starts, alignment ∣ start
  metadata_eq : ∃ padding < alignment,
    layout.frame.metadata = layout.metadata ++ List.replicate padding 0
  zero_outside : ∀ i < layout.frame.body.length,
    (∀ extent ∈ layout.buffers, i < extent.offset ∨ extent.offset + extent.length ≤ i) →
      layout.frame.body[i]? = some 0

/-- A framed message is aligned if its body is. -/
theorem isAligned_frame {message : Message} {padding : Nat} {buffers : List Extent}
    (halignment : IsPowerOfTwo alignment) (hpadding : message.padding? alignment = .ok padding)
    (hbody : Body.IsAligned alignment message.body buffers) :
    IsAligned alignment ⟨message.frame padding, message.metadata.toList, buffers⟩ := by
  obtain ⟨hdvd, hlt⟩ :=
    Alignment.padding_eq_ok halignment (Message.padding?_eq_padding hpadding)
  have hstart : alignment ∣ Message.wordSize + (message.frame padding).metadata.length := by
    rwa [Message.length_frame_metadata, ← Nat.add_assoc, Nat.add_comm Message.wordSize]
  refine ⟨?_, ?_, ⟨padding, hlt, rfl⟩, ?_⟩
  · rw [encode, Message.length_frame_encode]
    exact Nat.dvd_add hdvd hbody.size_dvd
  · intro start hmem
    simp only [starts, List.mem_cons, List.mem_map] at hmem
    obtain rfl | rfl | ⟨extent, hextent, rfl⟩ := hmem
    · exact Nat.dvd_zero alignment
    · exact hstart
    · exact Nat.dvd_add hstart (hbody.offset_dvd extent hextent)
  · intro i hi houtside
    have hsize : i < message.body.size := by rwa [← Array.length_toList]
    show message.body.toList[i]? = some 0
    rw [Array.getElem?_toList]
    exact hbody.zero_outside i hsize houtside

/-- Aligned messages in a row have a length that is a multiple of the alignment. -/
theorem length_flatMap_dvd {layouts : List Layout}
    (h : ∀ layout ∈ layouts, layout.IsAligned alignment) :
    alignment ∣ (layouts.flatMap encode).length := by
  rw [List.length_flatMap]
  apply List.dvd_sum
  intro length hmem
  obtain ⟨layout, hlayout, rfl⟩ := List.mem_map.mp hmem
  exact (h layout hlayout).length_dvd

/-- What starts in one of them starts at a multiple of the alignment. -/
theorem start_dvd {layouts front back : List Layout} {layout : Layout}
    (h : ∀ layout ∈ layouts, layout.IsAligned alignment)
    (hsplit : layouts = front ++ layout :: back) {start : Nat} (hstart : start ∈ layout.starts) :
    alignment ∣ (front.flatMap encode).length + start := by
  subst hsplit
  have hfront := length_flatMap_dvd fun earlier hmem => h earlier (List.mem_append_left _ hmem)
  have hlayout := h layout (List.mem_append_right _ List.mem_cons_self)
  exact Nat.dvd_add hfront (hlayout.starts_dvd start hstart)

end Layout

/-! ## The messages of a run -/

namespace Turn

variable {σ : Type} {alignment : Nat} {turn : Turn σ} {written : Written}

/-- The call writes a batch, and the message is laid out so: its metadata says where the
buffers of all columns lie in its body. -/
def LaysOut (turn : Turn σ) (layout : Layout) : Prop :=
  ∃ batch entries, turn.call = .write batch ∧
    layout.metadata = RecordBatch.metadataOf batch.rows layout.frame.body.length entries ∧
    layout.buffers = entries.flatMap ColumnEntry.buffers ∧
    List.Forall₂ (fun entry column => entry.Describes column layout.frame.body.toArray) entries
      batch.columns

theorem Writes.laysOut (h : turn.Writes alignment written) (halignment : IsPowerOfTwo alignment)
    (hbatch : written.batch.WellFormed) :
    ∃ layout, layout.frame = written.frame ∧ turn.LaysOut layout ∧ layout.IsAligned alignment := by
  obtain ⟨hcall, message, padding, hencode, hpadding, hframe⟩ := h
  obtain ⟨entries, body, hcolumns, rfl⟩ := RecordBatch.encode_eq_ok hencode
  have htight : Body.empty.IsTight := rfl
  obtain ⟨-, hentries⟩ := Body.appendColumns_eq_ok hbatch.column htight hcolumns
  have hbody := (Body.isAligned_empty alignment).appendColumns halignment htight hbatch.column
    hcolumns
  refine ⟨_, hframe.symm, ⟨written.batch, entries, hcall, ?_, rfl, ?_⟩,
    Layout.isAligned_frame halignment hpadding hbody⟩
  · show _ = RecordBatch.metadataOf written.batch.rows body.bytes.toList.length entries
    rw [Array.length_toList]
  · exact hentries

/-- All batches of a run have aligned messages. -/
theorem laysOut_of_writes {past : List (Turn σ)} {written : List Written}
    (h : List.Forall₂ (Turn.Writes alignment) past written) (halignment : IsPowerOfTwo alignment)
    (hbatches : ∀ turn ∈ past, ∀ batch, turn.call = .write batch → batch.WellFormed) :
    ∃ layouts, layouts.map Layout.frame = written.map Written.frame ∧
      List.Forall₂ LaysOut past layouts ∧ ∀ layout ∈ layouts, layout.IsAligned alignment := by
  induction h with
  | nil => exact ⟨[], rfl, .nil, by rintro _ ⟨⟩⟩
  | @cons turn one past written hone _ ih =>
    obtain ⟨layouts, hframes, hrest, haligned⟩ :=
      ih fun turn hmem => hbatches turn (List.mem_cons_of_mem _ hmem)
    obtain ⟨layout, hframe, hfirst, hlayout⟩ :=
      hone.laysOut halignment (hbatches turn List.mem_cons_self one.batch hone.1)
    refine ⟨layout :: layouts, ?_, .cons hfirst hrest, ?_⟩
    · rw [List.map_cons, List.map_cons, hframe, hframes]
    · exact List.forall_mem_cons.mpr ⟨hlayout, haligned⟩

end Turn

/-- Where something may start, counted from where the writer was opened: at a multiple of the
alignment in a stream, and eight bytes past one in a file. -/
def Mode.IsPlace (alignment : Nat) : (mode : Mode) → (place : Nat) → Prop
  | .stream, place => alignment ∣ place
  | .file, place => place ≡ 8 [MOD alignment]

theorem Mode.isPlace_of_dvd {alignment place : Nat} (h : alignment ∣ place) (mode : Mode) :
    mode.IsPlace alignment ((Writer.header mode).size + place) := by
  cases mode with
  | stream => exact (Nat.zero_add place).symm ▸ h
  | file => exact (Nat.modEq_zero_iff_dvd.mpr h).add_left 8

namespace Writer

variable {σ : Type} [Sink σ] {mode : Mode} {schema : Schema} {alignment : Nat}
  {opening : Allocator} {sink : σ} {writer : Writer σ}

theorem step_mem_of_mem_turns {turn : Turn σ} {steps : List (Allocator × Call)}
    (h : turn ∈ turns steps writer) : turn.step ∈ steps := by
  induction steps generalizing writer with
  | nil => cases h
  | cons step rest ih =>
    obtain rfl | hrest := List.mem_cons.mp h
    · exact List.mem_cons_self
    · exact List.mem_cons_of_mem step (ih hrest)

/-- All messages that a writer sends, from the one that tells the schema to the last batch, have
lengths that are multiples of the alignment and zeros for padding. The message, its body and all
buffers of its columns start in place, however many messages stand before it. This holds after any
sequence of calls and whatever the sink does. -/
theorem places_aligned (hopen : (create mode schema alignment opening sink).answer = .ok writer)
    {steps : List (Allocator × Call)}
    (hsteps : ∀ step ∈ steps, ∀ batch, step.2 = .write batch → batch.Reachable) :
    ∃ first layouts rest,
      (Sink.held (after steps writer).session.sink).toList = (Sink.held sink).toList ++
        ((header mode).toList ++ (first :: layouts).flatMap Layout.encode ++ rest) ∧
      ((after steps writer).session.phase = .writable → rest = []) ∧
      schema.encode = .ok first.metadata ∧ first.frame.body = [] ∧ first.buffers = [] ∧
      List.Forall₂ Turn.LaysOut ((turns steps writer).filter Turn.wrote) layouts ∧
      (∀ layout ∈ first :: layouts, layout.IsAligned alignment) ∧
      ∀ front layout back, first :: layouts = front ++ layout :: back →
        ∀ start ∈ layout.starts,
          mode.IsPlace alignment
            ((header mode).size + (front.flatMap Layout.encode).length + start) := by
  have halignment := (alignment_of_create hopen).1
  obtain ⟨metadata, padding, written, hmetadata, hpadding, hhistory⟩ := history hopen steps
  -- the schema message has no body, so it is aligned as any frame is
  have hfirst := Layout.isAligned_frame halignment hpadding (Body.isAligned_empty alignment)
  obtain ⟨layouts, hframes, hlays, haligned⟩ := Turn.laysOut_of_writes hhistory.writes halignment
    (by
      intro turn hmem batch hcall
      have hstep := step_mem_of_mem_turns (List.mem_of_mem_filter hmem)
      exact (hsteps turn.step hstep batch hcall).wellFormed)
  have hall := List.forall_mem_cons.mpr ⟨hfirst, haligned⟩
  have hencode : output mode (Message.frame ⟨metadata.toArray, #[]⟩ padding) written =
      (header mode).toList ++ (⟨Message.frame ⟨metadata.toArray, #[]⟩ padding, metadata, []⟩ ::
        layouts).flatMap Layout.encode := by
    rw [output, ← hframes, List.flatMap_cons, List.flatMap_cons, List.flatMap_map]
    rfl
  obtain ⟨rest, hheld⟩ := hhistory.held_eq
  refine ⟨_, layouts, rest, ?_, ?_, hmetadata, rfl, rfl, hlays, hall, ?_⟩
  · rw [hheld, hencode]
    simp only [List.append_assoc]
  · intro hphase
    have hwhole := (hhistory.writable hphase).1
    rw [hheld] at hwhole
    exact List.append_right_eq_self.mp hwhole
  · intro front layout back hsplit start hstart
    -- every message is a multiple of the alignment long, so the next begins in place
    rw [Nat.add_assoc]
    exact Mode.isPlace_of_dvd (Layout.start_dvd hall hsplit hstart) mode

set_option maxRecDepth 8000 in
/-- The alignment is longer than the header of the file. -/
theorem places_aligned_of_long :
    let schema : Schema := ⟨[⟨"a", .int8, true⟩]⟩
    let column := ((Column.Call.setGrowing 0 #[7]).run .standard (Column.empty "a" .int8)).state
    let steps := [(Allocator.standard, Call.write ⟨schema, [column]⟩)]
    ∃ (writer : Writer MemorySink) (first one : Layout),
      (create .file schema 16 .standard MemorySink.empty).answer = .ok writer ∧
      (Sink.held (after steps writer).session.sink).toList =
        (header .file).toList ++ [first, one].flatMap Layout.encode ∧
      (Sink.held (after steps writer).session.sink).size = 152 ∧
      (∀ layout ∈ [first, one], layout.IsAligned 16) ∧
      ∀ start ∈ one.starts, 8 + ([first].flatMap Layout.encode).length + start ≡ 8 [MOD 16] := by
  intro schema column steps
  have hcolumn : (Object.column column).Reachable := by
    refine .call (.setGrowing 0 #[7]) Allocator.isBounded_standard (.empty "a" .int8) ?_
    rintro _ ⟨⟩
  have hsteps : ∀ step ∈ steps, ∀ batch, step.2 = .write batch → batch.Reachable :=
    List.forall_mem_singleton.mpr fun batch hbatch =>
      Call.write.inj hbatch ▸ RecordBatch.reachable_singleton hcolumn (by decide)
  let writer : Writer MemorySink := .file
    { session :=
      { mode := .file
        phase := .writable
        sink := { MemorySink.empty with
          held := header .file ++ #[28, 0, 0, 0, 1, 1, 0, 1, 0, 0, 0, 1, 0, 0, 0, 97, 1, 1, 0, 0,
            0, 0, 0, 0, 0, 0, 0, 0, 0, 0, 0, 0] }
        schema
        alignment := 16
        bytesWritten := 40
        batchesWritten := 0 }
      schemaBlock := ⟨8, 32, 0⟩
      recordBlocks := [] }
  have hopen : (create .file schema 16 .standard MemorySink.empty).answer = .ok writer := by cbv
  have hrun : ((turns steps writer).countP Turn.wrote, (after steps writer).session.phase,
      (Sink.held (after steps writer).session.sink).size) = (1, .writable, 152) := by cbv
  obtain ⟨hwrote, hrun⟩ := Prod.mk.inj hrun
  obtain ⟨hphase, hsize⟩ := Prod.mk.inj hrun
  obtain ⟨first, layouts, rest, hheld, hrest, -, -, -, hlays, haligned, hplaces⟩ :=
    places_aligned hopen hsteps
  obtain rfl := hrest hphase
  have hcount : layouts.length = 1 := by
    rw [← hlays.length_eq, ← List.countP_eq_length_filter, hwrote]
  obtain ⟨one, rfl⟩ := List.length_eq_one_iff.mp hcount
  rw [List.append_nil] at hheld
  exact ⟨writer, first, one, hopen, hheld, hsize, haligned, hplaces [first] one [] rfl⟩

end Writer

end Ipc

end Columnar
