import Mathlib
import Columnar.Proofs.Ipc.SchemaReading
import Columnar.Proofs.Ipc.Session

/-! # Finding the batches of a file -/

namespace Columnar.Ipc

/-- The number in four bytes from `start` on, read as a signed one. -/
def signedWord (bytes : List UInt8) (start : Nat) : Int :=
  (BitVec.ofNat 32 (word bytes start 4)).toInt

/-- The blocks lie end to end from `start` to `stop`. -/
def Tiles (start : Nat) : (blocks : List Block) → (stop : Nat) → Prop
  | [], stop => start = stop
  | block :: rest, stop =>
    block.offset = start ∧ Tiles (start + block.metadataLength + block.bodyLength) rest stop

/-- The message at the place of the block has the lengths that the block says, and the batch is
read from it by the schema. -/
def Block.Locates (schema : Schema) (file : List UInt8) (batch : RecordBatch) (block : Block) :
    Prop :=
  ∃ frame rest, readFrame? (file.drop block.offset) = some (frame, rest) ∧
    block.metadataLength = 4 + frame.metadata.length ∧
    frame.metadata.head? = some MessageKind.recordBatch.code ∧
    block.bodyLength = declaredBody frame.metadata ∧
    ∃ reading, readBatch? schema frame = some reading ∧ reading.Shows batch

/-- The schema message, which has no body, lies at the place of the block. -/
def Block.LocatesSchema (schema : Schema) (file : List UInt8) (block : Block) : Prop :=
  ∃ metadata padding rest, schema.encode = .ok metadata ∧
    readFrame? (file.drop block.offset) = some (⟨metadata ++ List.replicate padding 0, []⟩, rest) ∧
    block.metadataLength = 4 + (metadata.length + padding) ∧ block.bodyLength = 0

/-- The file can be read from its end: from the length of the footer to the footer, and from
there to every batch. Between the header and the footer there is nothing but the messages and
the end marker. -/
structure IsFile (schema : Schema) (batches : List RecordBatch) (schemaBlock : Block)
    (recordBlocks : List Block) (stop footerLength : Nat) (file : List UInt8) : Prop where
  length_eq : file.length = stop + 4 + footerLength + 10
  header_eq : file.take 8 = magic.toList ++ [0, 0]
  magic_eq : file.drop (file.length - 6) = magic.toList
  footerLength_eq : signedWord file (file.length - 10) = footerLength
  footer_eq : readFooter.run ((file.drop (file.length - 10 - footerLength)).take footerLength) =
    some (⟨metadataVersion, schema, recordBlocks⟩, [])
  locatesSchema : schemaBlock.LocatesSchema schema file
  locates : List.Forall₂ (Block.Locates schema file) batches recordBlocks
  tiles : Tiles 8 (schemaBlock :: recordBlocks) stop
  marker_eq : (file.drop stop).take 4 = LittleEndian.encode 4 0

theorem tiles_blocksFrom (start : Nat) (frames : List Frame) :
    Tiles start (blocksFrom start frames) (start + (frames.flatMap Frame.encode).length) := by
  induction frames generalizing start with
  | nil => rfl
  | cons frame rest ih =>
    have hnext := ih (start + frame.encode.length)
    have hsame : start + (frame.block start).metadataLength + (frame.block start).bodyLength =
        start + frame.encode.length := by
      show start + (4 + frame.metadata.length) + frame.body.length = _
      rw [frame.length_encode, Nat.add_assoc]
    refine ⟨rfl, ?_⟩
    rw [hsame, List.flatMap_cons, List.length_append, ← Nat.add_assoc]
    exact hnext

/-- Blocks of frames within a file whose length 64 bits can count fit the footer. -/
theorem fits_of_mem_blocksFrom {start : Nat} {frames : List Frame}
    (hframes : ∀ frame ∈ frames, frame.IsProper)
    (hlength : start + (frames.flatMap Frame.encode).length < Size.bound) :
    ∀ block ∈ blocksFrom start frames, block.Fits := by
  induction frames generalizing start with
  | nil =>
    rintro block ⟨⟩
  | cons frame rest ih =>
    rw [List.flatMap_cons, List.length_append, frame.length_encode] at hlength
    intro block hmem
    obtain rfl | hmem := List.mem_cons.mp hmem
    · have hproper := hframes frame List.mem_cons_self
      refine ⟨?_, hproper.framed_lt, ?_⟩
      · show start < _
        omega
      · show frame.body.length < _
        omega
    · refine ih ?_ ?_ block hmem
      · exact fun other hother => hframes other (List.mem_cons_of_mem frame hother)
      rw [frame.length_encode]
      omega

theorem locates_blocksFrom {schema : Schema} {batches : List RecordBatch} {frames : List Frame}
    (h : List.Forall₂ (Frame.Carries schema) batches frames) (front back : List UInt8) :
    List.Forall₂ (Block.Locates schema (front ++ (frames.flatMap Frame.encode ++ back))) batches
      (blocksFrom front.length frames) := by
  induction h generalizing front with
  | nil => exact .nil
  | @cons batch frame batches frames hframe _ ih =>
    obtain ⟨hproper, hkind, hreading⟩ := hframe
    have hfile : front ++ ((frame :: frames).flatMap Frame.encode ++ back) =
        front ++ frame.encode ++ (frames.flatMap Frame.encode ++ back) := by
      rw [List.flatMap_cons, List.append_assoc, List.append_assoc]
    have hrest := ih (front ++ frame.encode)
    rw [List.length_append] at hrest
    rw [hfile]
    refine .cons ⟨frame, frames.flatMap Frame.encode ++ back, ?_, rfl, hkind,
      hproper.body_eq.symm, hreading⟩ hrest
    rw [List.append_assoc]
    show readFrame? ((front ++ _).drop front.length) = _
    rw [List.drop_left]
    exact readFrame?_encode hproper _

/-! ## Trailers -/

theorem signedWord_append {value : Nat} (hvalue : value < signedWordBound) {front : List UInt8}
    {start : Nat} (hstart : front.length = start) (back : List UInt8) :
    signedWord (front ++ (LittleEndian.encode 4 value ++ back)) start = value := by
  have hbound : value < LittleEndian.bound 4 :=
    Nat.lt_trans hvalue (by decide : signedWordBound < LittleEndian.bound 4)
  have hbits : (BitVec.ofNat 32 value).toNat = value := by
    rw [BitVec.toNat_ofNat]
    exact Nat.mod_eq_of_lt hbound
  have hsigned : 2 * (BitVec.ofNat 32 value).toNat < 2 ^ 32 := by
    rw [signedWordBound] at hvalue
    rw [hbits]
    omega
  rw [signedWord, word_append hbound hstart, BitVec.toInt_eq_toNat_of_lt hsigned, hbits]

/-- What stands at the end of a file is found by counting from there. -/
theorem footer_append {footer : List UInt8} (hlength : footer.length < signedWordBound)
    (front : List UInt8) {file : List UInt8}
    (hfile : file =
      front ++ (footer ++ (LittleEndian.encode 4 footer.length ++ magic.toList))) :
    file.length = front.length + footer.length + 10 ∧
      file.drop (file.length - 6) = magic.toList ∧
      signedWord file (file.length - 10) = footer.length ∧
      (file.drop (file.length - 10 - footer.length)).take footer.length = footer := by
  have hmagic : magic.toList.length = 6 := by decide
  have hword := LittleEndian.length_encode 4 footer.length
  -- the number and the word at the end are of fixed length
  have hall : file.length = front.length + footer.length + 10 := by
    rw [hfile]
    simp only [List.length_append, hmagic, hword]
    omega
  refine ⟨hall, ?_, ?_, ?_⟩
  · have hfront : (front ++ (footer ++ LittleEndian.encode 4 footer.length)).length =
        file.length - 6 := by
      rw [List.length_append, List.length_append, hword]
      omega
    rw [← hfront, hfile, ← List.append_assoc, ← List.append_assoc, ← List.append_assoc,
      List.drop_left]
  · have hfront : (front ++ footer).length = file.length - 10 := by
      rw [List.length_append]
      omega
    rw [hfile] at hfront ⊢
    rw [← List.append_assoc front footer] at hfront ⊢
    exact signedWord_append hlength hfront _
  · have hplace : file.length - 10 - footer.length = front.length := by omega
    rw [hplace, hfile, List.drop_left, List.take_left]

theorem locatesSchema_block {schema : Schema} {frame : Frame} (h : frame.IsSchema schema)
    (front back : List UInt8) :
    (frame.block front.length).LocatesSchema schema (front ++ (frame.encode ++ back)) := by
  obtain ⟨hproper, metadata, padding, hmetadata, -, rfl⟩ := h
  refine ⟨metadata, padding, back, hmetadata, ?_, ?_, rfl⟩
  · show readFrame? ((front ++ _).drop front.length) = _
    rw [List.drop_left]
    exact readFrame?_encode hproper back
  · show 4 + (metadata ++ List.replicate padding 0).length = _
    rw [List.length_append, List.length_replicate]

/-- A header, messages, the end marker and a footer make a file, if 64 bits can hold its length. -/
theorem isFile_of_frames {schema : Schema} {batches : List RecordBatch} {first : Frame}
    {frames : List Frame} {footer file : List UInt8} (hfirst : first.IsSchema schema)
    (hcarries : List.Forall₂ (Frame.Carries schema) batches frames)
    (hfooter : Footer.encode schema (blocksFrom (8 + first.encode.length) frames) = .ok footer)
    (hlength : footer.length < signedWordBound)
    (hfile : file = FileWriter.header.toList ++ ((first :: frames).flatMap Frame.encode ++
      (LittleEndian.encode 4 0 ++
        (footer ++ (LittleEndian.encode 4 footer.length ++ magic.toList)))))
    (hsize : file.length < Size.bound) :
    IsFile schema batches (first.block 8) (blocksFrom (8 + first.encode.length) frames)
      (8 + ((first :: frames).flatMap Frame.encode).length) footer.length file := by
  have hheader : FileWriter.header.toList.length = 8 := by decide
  have hmarker := LittleEndian.length_encode 4 0
  have htail : file = FileWriter.header.toList ++ ((first :: frames).flatMap Frame.encode ++
      LittleEndian.encode 4 0) ++
        (footer ++ (LittleEndian.encode 4 footer.length ++ magic.toList)) := by
    rw [hfile]
    simp only [List.append_assoc]
  obtain ⟨hall, hmagic, hword, hslice⟩ := footer_append hlength _ htail
  rw [List.length_append, List.length_append, hheader, hmarker] at hall
  -- the part of the file that the blocks are about
  have hmessages : first.encode.length + (frames.flatMap Frame.encode).length =
      ((first :: frames).flatMap Frame.encode).length := by
    rw [List.flatMap_cons, List.length_append]
  have hfits : ∀ block ∈ blocksFrom (8 + first.encode.length) frames, block.Fits := by
    refine fits_of_mem_blocksFrom (isProper_of_carries hcarries) ?_
    omega
  have hfooterRead := reads_footer hfooter hfits []
  rw [List.append_nil] at hfooterRead
  have hfirstBlock : first.block 8 = first.block FileWriter.header.toList.length := by
    rw [hheader]
  refine ⟨by omega, ?_, hmagic, hword, ?_, ?_, ?_, ?_, ?_⟩
  · rw [hfile, List.take_left' hheader]
    decide
  · rw [hslice]
    exact hfooterRead
  · rw [hfirstBlock, hfile, List.flatMap_cons, List.append_assoc]
    exact locatesSchema_block hfirst _ _
  · have hlocates := locates_blocksFrom hcarries (FileWriter.header.toList ++ first.encode)
      (LittleEndian.encode 4 0 ++
        (footer ++ (LittleEndian.encode 4 footer.length ++ magic.toList)))
    rw [List.length_append, hheader, List.append_assoc] at hlocates
    rw [hfile, List.flatMap_cons, List.append_assoc first.encode]
    exact hlocates
  · exact tiles_blocksFrom 8 (first :: frames)
  · have hfront : (FileWriter.header.toList ++ (first :: frames).flatMap Frame.encode).length =
        8 + ((first :: frames).flatMap Frame.encode).length := by
      rw [List.length_append, hheader]
    rw [hfile, ← List.append_assoc, List.drop_left' hfront, List.take_left' hmarker]

namespace FileWriter

theorem trailer_eq_ok {schema : Schema} {blocks : List Block} {trailer : Bytes}
    (h : FileWriter.trailer schema blocks = .ok trailer) :
    ∃ footer, Footer.encode schema blocks = .ok footer ∧ footer.length < signedWordBound ∧
      trailer.toList = footer ++ (LittleEndian.encode 4 footer.length ++ magic.toList) := by
  obtain ⟨footer, hfooter, hrest⟩ := bind_eq_ok_iff.mp h
  by_cases hlength : footer.length < signedWordBound
  · rw [if_pos hlength] at hrest
    obtain rfl := Except.ok.inj hrest
    refine ⟨footer, hfooter, hlength, ?_⟩
    simp only [Array.toList_append, List.append_assoc]
  · rw [if_neg hlength] at hrest
    cases hrest

variable {σ : Type} [Sink σ] {good : σ → Prop} {writer : FileWriter σ}

/-- The writer keeps the block of the schema message and adds those of the batches. -/
theorem drives_write (schemaBlock : Block) :
    Session.Drives session (fun (writer : FileWriter σ) blocks =>
      writer.schemaBlock = schemaBlock ∧ writer.recordBlocks = blocks) write where
  of_ok := by
    rintro writer batch allocator blocks block after events ⟨hschema, rfl⟩ h
    rw [write_of_ok h]
    exact ⟨rfl, rfl, hschema, rfl⟩
  of_error := by
    rintro writer batch allocator blocks failure after events ⟨hschema, rfl⟩ h
    rw [write_of_error h]
    exact ⟨rfl, rfl, hschema, rfl⟩

/-- A closed file is read from its end. The footer has the schema of the writer and the place of
every accepted batch in order, and the messages lie end to end up to the end marker. Lengths
are numbers that 64 bits can hold, and so is that of the file. -/
theorem readFooter_closed (hgood : Sink.Reliable good) {sink : σ} (hsink : good sink)
    {schema : Schema} {alignment : Nat} {opening closing : Allocator}
    (hopen : (create schema alignment opening sink).answer = .ok writer)
    {steps : List (Allocator × RecordBatch)} (hsteps : ∀ step ∈ steps, step.2.Reachable)
    {last closed : FileWriter σ} {accepted : List RecordBatch} {events : List Event}
    (hrun : runWrites write steps writer = (last, accepted))
    (hclose : close closing last = ⟨.ok (), closed, events⟩)
    (hsize : (Sink.held closed.session.sink).size < Size.bound) :
    ∃ file stop footerLength,
      (Sink.held closed.session.sink).toList = (Sink.held sink).toList ++ file ∧
      IsFile schema accepted closed.schemaBlock closed.recordBlocks stop footerLength file := by
  obtain ⟨hstart, hnone⟩ := create_eq_ok hopen
  obtain ⟨first, hfirst, hblock, htracks⟩ := Session.start_tracks hgood hsink hstart
  obtain ⟨blocks, ⟨hschemaBlock, rfl⟩, hkeeps⟩ :=
    (drives_write (first.block header.size)).keeps_runWrites hgood htracks ⟨hblock, hnone⟩
      fun step hmem => (hsteps step hmem).wellFormed
  rw [hrun] at hschemaBlock hkeeps
  obtain ⟨bytes, after, htrailer, hfinish, rfl⟩ := close_eq_ok hclose
  -- a session that could be closed was writable until then
  by_cases hphase : last.session.phase = .writable
  · obtain ⟨frames, hcarries, htracks, hblocks⟩ := hkeeps hphase
    obtain ⟨footer, hfooter, hlength, hbytes⟩ := trailer_eq_ok htrailer
    obtain ⟨other, sent, hsent, hheld⟩ := htracks.finish_eq hgood bytes closing
    rw [hsent] at hfinish
    injection hfinish with _ hstate
    subst hstate
    have hheader : header.size = 8 := by decide
    rw [hheader] at hschemaBlock hblocks
    rw [htracks.schema_eq, hblocks] at hfooter
    rw [hbytes] at hheld
    have hfile := isFile_of_frames hfirst hcarries hfooter hlength rfl ?_
    · rw [← hschemaBlock, ← hblocks] at hfile
      exact ⟨_, _, _, hheld, hfile⟩
    · have hlengths := congrArg List.length hheld
      rw [Array.length_toList, List.length_append] at hlengths
      exact Nat.lt_of_le_of_lt (hlengths ▸ Nat.le_add_left _ _) hsize
  · obtain ⟨failure, hfailed⟩ := Session.finish_of_ne hphase bytes
    rw [hfailed] at hfinish
    injection hfinish with hanswer
    cases hanswer

set_option maxRecDepth 8000 in
/-- A batch of another layout is refused and has no block. The one after it has one, which begins
where the schema message ends. -/
theorem readFooter_of_refused :
    let schema : Schema := ⟨[⟨"a", .int8, true⟩]⟩
    let refused : RecordBatch := ⟨⟨[⟨"a", .int16, true⟩]⟩, [Column.empty "a" .int16]⟩
    let column := ((Column.Call.setGrowing 1 #[7]).run .standard (Column.empty "b" .int8)).state
    let batch : RecordBatch := ⟨⟨[⟨"b", .int8, true⟩]⟩, [column]⟩
    let steps := [(Allocator.standard, refused), (Allocator.standard, batch)]
    ∃ (writer last closed : FileWriter MemorySink) (events : List Event)
        (file : List UInt8) (stop footerLength : Nat),
      (create schema 2 .standard MemorySink.empty).answer = .ok writer ∧
      runWrites write steps writer = (last, [batch]) ∧
      close .standard last = ⟨.ok (), closed, events⟩ ∧
      (Sink.held closed.session.sink).toList = file ∧
      IsFile schema [batch] ⟨8, 18, 0⟩ [⟨26, 68, 4⟩] stop footerLength file := by
  intro schema refused column batch steps
  have hcolumn : (Object.column column).Reachable := by
    refine .call (.setGrowing 1 #[7]) Allocator.isBounded_standard (.empty "b" .int8) ?_
    rintro _ ⟨⟩
  have hsteps : ∀ step ∈ steps, step.2.Reachable :=
    List.forall_mem_cons.mpr ⟨RecordBatch.reachable_singleton (.empty "a" .int16) rfl,
      List.forall_mem_singleton.mpr (RecordBatch.reachable_singleton hcolumn (by decide))⟩
  let writer : FileWriter MemorySink :=
    { session :=
      { mode := .file
        phase := .writable
        sink := { MemorySink.empty with
          held := #[70, 69, 82, 82, 79, 87, 0, 0,
            14, 0, 0, 0, 1, 1, 0, 1, 0, 0, 0, 1, 0, 0, 0, 97, 1, 1] }
        schema
        alignment := 2
        bytesWritten := 26
        batchesWritten := 0 }
      schemaBlock := ⟨8, 18, 0⟩
      recordBlocks := [] }
  let last : FileWriter MemorySink :=
    { writer with
      session := { writer.session with
        sink := { MemorySink.empty with
          held := #[70, 69, 82, 82, 79, 87, 0, 0,
            14, 0, 0, 0, 1, 1, 0, 1, 0, 0, 0, 1, 0, 0, 0, 97, 1, 1,
            64, 0, 0, 0, 2, 1, 0, 2, 0, 0, 0, 0, 0, 0, 0, 4, 0, 0, 0, 0, 0, 0, 0, 1, 0, 0, 0,
            1, 0, 0, 0, 0, 0, 0, 0, 0, 0, 0, 0, 0, 0, 0, 0, 1, 0, 0, 0, 0, 0, 0, 0,
            2, 0, 0, 0, 0, 0, 0, 0, 2, 0, 0, 0, 0, 0, 0, 0, 0, 2, 0, 0, 7] }
        bytesWritten := 98
        batchesWritten := 1 }
      recordBlocks := [⟨26, 68, 4⟩] }
  let closed := (close .standard last).state
  have hopen : (create schema 2 .standard MemorySink.empty).answer = .ok writer := by cbv
  have hrun : runWrites write steps writer = (last, [batch]) := by cbv
  have hcalls : ((close .standard last).answer, closed.schemaBlock, closed.recordBlocks,
      (Sink.held closed.session.sink).size) = (.ok (), ⟨8, 18, 0⟩, [⟨26, 68, 4⟩], 152) := by cbv
  obtain ⟨hanswer, hcalls⟩ := Prod.mk.inj hcalls
  obtain ⟨hschemaBlock, hcalls⟩ := Prod.mk.inj hcalls
  obtain ⟨hrecordBlocks, hsize⟩ := Prod.mk.inj hcalls
  have hclose : close .standard last = ⟨.ok (), closed, (close .standard last).events⟩ := by
    rw [← hanswer]
  have hbound : (Sink.held closed.session.sink).size < Size.bound := by
    rw [hsize]
    decide
  obtain ⟨file, stop, footerLength, hheld, hfile⟩ :=
    readFooter_closed MemorySink.reliable MemorySink.isUnbounded_empty hopen hsteps hrun hclose
      hbound
  rw [hschemaBlock, hrecordBlocks] at hfile
  exact ⟨writer, last, closed, _, file, stop, footerLength, hopen, hrun, hclose, hheld, hfile⟩

end FileWriter

end Columnar.Ipc
