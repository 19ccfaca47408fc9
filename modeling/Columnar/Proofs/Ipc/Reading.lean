import Columnar.Ipc.BatchEncoding
import Columnar.Ipc.Framing
import Columnar.Proofs.Bits

/-!
# Reading a stream

A reader of the format, which knows nothing of how writers work. It finds messages by the lengths
they declare, and reads the columns of a batch by the widths of a given schema.
-/

namespace Columnar.Ipc

/-- The number in `width` bytes from `start` on. -/
def word (bytes : List UInt8) (start width : Nat) : Nat :=
  LittleEndian.decode ((bytes.drop start).take width)

/-- A message as it lies in a stream. The padding of the metadata is part of it. -/
structure Frame where
  metadata : List UInt8
  body : List UInt8

/-- The length of the body that metadata declares. Only record batches have one. -/
def declaredBody (metadata : List UInt8) : Nat :=
  if metadata.head? = some MessageKind.recordBatch.code then word metadata 11 8 else 0

/-- The first message and what follows it. -/
def readFrame? (bytes : List UInt8) : Option (Frame × List UInt8) :=
  let declared := word bytes 0 4
  let metadata := (bytes.drop 4).take declared
  let rest := bytes.drop (4 + declared)
  let length := declaredBody metadata
  if 0 < declared ∧ 4 + declared + length ≤ bytes.length then
    some (⟨metadata, rest.take length⟩, rest.drop length)
  else none

theorem readFrame?_shorter {bytes rest : List UInt8} {frame : Frame}
    (h : readFrame? bytes = some (frame, rest)) : rest.length < bytes.length := by
  rw [readFrame?] at h
  split at h
  · next hin =>
    obtain ⟨-, rfl⟩ := Prod.mk.inj (Option.some.inj h)
    rw [List.length_drop, List.length_drop]
    omega
  · cases h

/-- The messages before the first end marker and what follows the marker. -/
def readFrames (bytes : List UInt8) : Option (List Frame × List UInt8) :=
  if bytes.take 4 = LittleEndian.encode 4 0 then some ([], bytes.drop 4)
  else
    match _hframe : readFrame? bytes with
    | none => none
    | some (frame, rest) => (readFrames rest).map fun (frames, left) => (frame :: frames, left)
termination_by bytes.length
decreasing_by exact readFrame?_shorter _hframe

/-- What is read of a column: the number of nulls it declares, and its slots. -/
structure ColumnReading where
  nullCount : Nat
  slots : List (Option Bytes)

structure BatchReading where
  rows : Nat
  columns : List ColumnReading

def readExtent (metadata : List UInt8) (start : Nat) : Extent :=
  ⟨word metadata start 8, word metadata (start + 8) 8⟩

def readEntry (metadata : List UInt8) (start : Nat) : ColumnEntry :=
  ⟨word metadata start 8, readExtent metadata (start + 8), readExtent metadata (start + 24)⟩

/-- The buffer at a place in a body, if it lies in the body and has the length it must have. -/
def Extent.buffer? (extent : Extent) (body : Bytes) (size : Nat) : Option Bytes :=
  if extent.length = size ∧ extent.offset + extent.length ≤ body.size then
    some (body.extract extent.offset (extent.offset + extent.length))
  else none

/-- A column of so many rows and of slots of `width` bytes. -/
def readColumn? (rows width : Nat) (body : Bytes) (entry : ColumnEntry) : Option ColumnReading := do
  let validity ← entry.validity.buffer? body ((rows + 7) / 8)
  let values ← entry.values.buffer? body (rows * width)
  let slot row :=
    if Bits.bit validity row then some (values.extract (row * width) ((row + 1) * width)) else none
  return ⟨entry.nullCount, (List.range rows).map slot⟩

/-- The columns whose entries are written one after the other from `start` on. -/
def readColumns? (rows : Nat) (body : Bytes) (metadata : List UInt8) (start : Nat) :
    (fields : List Field) → Option (List ColumnReading)
  | [] => some []
  | field :: rest => do
    let column ← readColumn? rows field.dtype.byteWidth body (readEntry metadata start)
    return column :: (← readColumns? rows body metadata (start + 40) rest)

/-- A record batch of the layout of a schema. -/
def readBatch? (schema : Schema) (frame : Frame) : Option BatchReading := do
  let rows := word frame.metadata 3 8
  if frame.metadata.head? = some MessageKind.recordBatch.code ∧
      word frame.metadata 19 4 = schema.length then
    return ⟨rows, ← readColumns? rows frame.body.toArray frame.metadata 23 schema.fields⟩
  else none

/-- A word is read back from its place. -/
theorem word_append {width value : Nat} (hvalue : value < LittleEndian.bound width)
    {front : List UInt8} {start : Nat} (hstart : front.length = start) (back : List UInt8) :
    word (front ++ (LittleEndian.encode width value ++ back)) start width = value := by
  have hwidth := LittleEndian.length_encode width value
  rw [word, ← hstart, List.drop_left, List.take_append_of_le_length (Nat.le_of_eq hwidth.symm),
    List.take_of_length_le (Nat.le_of_eq hwidth), LittleEndian.decode_encode_of_lt hvalue]

theorem word_skip {front : List UInt8} {start : Nat} (hstart : front.length = start)
    (back : List UInt8) (place width : Nat) :
    word (front ++ back) (start + place) width = word back place width := by
  rw [word, word, ← List.drop_drop, ← hstart, List.drop_left]

theorem word_zero {width value : Nat} (hvalue : value < LittleEndian.bound width)
    (back : List UInt8) : word (LittleEndian.encode width value ++ back) 0 width = value :=
  @word_append width value hvalue [] 0 rfl back

/-- Each of several long words in a row is read back from its place. -/
theorem word_flatMap {numbers : List Nat}
    (hnumbers : ∀ number ∈ numbers, number < LittleEndian.bound 8) {i value : Nat}
    (hi : numbers[i]? = some value) (back : List UInt8) :
    word (numbers.flatMap (LittleEndian.encode 8) ++ back) (8 * i) 8 = value := by
  induction numbers generalizing i with
  | nil => cases hi
  | cons number rest ih =>
    rw [List.flatMap_cons, List.append_assoc]
    cases i with
    | zero =>
      obtain rfl : number = value := Option.some.inj hi
      exact word_zero (hnumbers number List.mem_cons_self) _
    | succ i =>
      have hplace : 8 * (i + 1) = 8 + 8 * i := by omega
      rw [hplace, word_skip (LittleEndian.length_encode 8 number)]
      exact ih (fun other hmem => hnumbers other (List.mem_cons_of_mem number hmem)) hi

namespace Frame

def encode (frame : Frame) : List UInt8 :=
  LittleEndian.encode 4 frame.metadata.length ++ (frame.metadata ++ frame.body)

/-- The metadata is not empty, fits its word even when the word is counted in, and declares the
length of the body. -/
structure IsProper (frame : Frame) : Prop where
  metadata_pos : 0 < frame.metadata.length
  framed_lt : 4 + frame.metadata.length < wordBound
  body_eq : declaredBody frame.metadata = frame.body.length

theorem IsProper.metadata_lt {frame : Frame} (h : frame.IsProper) :
    frame.metadata.length < wordBound :=
  Nat.lt_of_le_of_lt (Nat.le_add_left _ 4) h.framed_lt

theorem length_encode (frame : Frame) :
    frame.encode.length = 4 + frame.metadata.length + frame.body.length := by
  rw [encode, List.length_append, List.length_append, LittleEndian.length_encode, Nat.add_assoc]

end Frame

/-- A message is read back, whatever follows it. -/
theorem readFrame?_encode {frame : Frame} (h : frame.IsProper) (rest : List UInt8) :
    readFrame? (frame.encode ++ rest) = some (frame, rest) := by
  have hword : word (frame.encode ++ rest) 0 4 = frame.metadata.length := by
    rw [Frame.encode, List.append_assoc]
    exact word_zero h.metadata_lt _
  have hmetadata : ((frame.encode ++ rest).drop 4).take frame.metadata.length = frame.metadata := by
    rw [Frame.encode, List.append_assoc, List.append_assoc]
    exact List.take_left' rfl
  have hrest : (frame.encode ++ rest).drop (4 + frame.metadata.length) = frame.body ++ rest := by
    rw [← List.drop_drop, Frame.encode, List.append_assoc, List.append_assoc]
    exact List.drop_left' rfl
  have hlength : (frame.encode ++ rest).length =
      4 + frame.metadata.length + frame.body.length + rest.length := by
    rw [List.length_append, frame.length_encode]
  have hin : 0 < frame.metadata.length ∧
      4 + frame.metadata.length + frame.body.length ≤ (frame.encode ++ rest).length :=
    ⟨h.metadata_pos, by omega⟩
  simp only [readFrame?, hword, hmetadata, hrest, h.body_eq]
  rw [if_pos hin, List.take_left' rfl, List.drop_left' rfl]

theorem take_encode_ne_marker {frame : Frame} (h : frame.IsProper) (rest : List UInt8) :
    (frame.encode ++ rest).take 4 ≠ LittleEndian.encode 4 0 := by
  intro hmarker
  -- the first word is the length of the metadata, which is not zero
  have hword : word (frame.encode ++ rest) 0 4 = frame.metadata.length := by
    rw [Frame.encode, List.append_assoc]
    exact word_zero h.metadata_lt _
  rw [word, List.drop_zero, hmarker, LittleEndian.decode_encode, Nat.zero_mod] at hword
  have hpos := h.metadata_pos
  omega

theorem readFrames_marker (rest : List UInt8) :
    readFrames (LittleEndian.encode 4 0 ++ rest) = some ([], rest) := by
  rw [readFrames, if_pos]
  · rfl
  · rfl

theorem readFrames_encode_cons {frame : Frame} (h : frame.IsProper) (rest : List UInt8) :
    readFrames (frame.encode ++ rest) =
      (readFrames rest).map fun (frames, left) => (frame :: frames, left) := by
  rw [readFrames, if_neg (take_encode_ne_marker h rest)]
  split
  · next hnone =>
    rw [readFrame?_encode h] at hnone
    cases hnone
  · next hsome =>
    rw [readFrame?_encode h] at hsome
    obtain ⟨rfl, rfl⟩ := Prod.mk.inj (Option.some.inj hsome)
    rfl

theorem readFrames_encode {frames : List Frame} (h : ∀ frame ∈ frames, frame.IsProper)
    (rest : List UInt8) :
    readFrames (frames.flatMap Frame.encode ++ (LittleEndian.encode 4 0 ++ rest)) =
      some (frames, rest) := by
  induction frames with
  | nil => exact readFrames_marker rest
  | cons frame frames ih =>
    have hframe := h frame List.mem_cons_self
    have hrest := ih fun other hmem => h other (List.mem_cons_of_mem frame hmem)
    rw [List.flatMap_cons, List.append_assoc, readFrames_encode_cons hframe, hrest]
    rfl

end Columnar.Ipc
