import Columnar.Ipc.SchemaEncoding
import Columnar.Proofs.Action

/-! # Reading schemas and footers -/

namespace Columnar.Ipc

/-- Takes a value off the front of bytes, or fails. -/
abbrev Reader := StateT (List UInt8) Option

section

variable {α β : Type}

/-- The reader takes the value off the bytes, whatever follows them. -/
def Reads (read : Reader α) (bytes : List UInt8) (value : α) : Prop :=
  ∀ rest, read.run (bytes ++ rest) = some (value, rest)

theorem Reads.pure (value : α) : Reads (Pure.pure value) [] value :=
  fun _ => rfl

/-- A reader that goes on after another takes its value off the bytes that follow. -/
theorem Reads.bind {read : Reader α} {next : α → Reader β} {bytes more : List UInt8} {value : α}
    {answer : β} (h : Reads read bytes value) (hnext : Reads (next value) more answer) :
    Reads (read >>= next) (bytes ++ more) answer := by
  intro rest
  rw [List.append_assoc, StateT.run_bind, h]
  exact hnext rest

/-- The same where the last reader takes nothing more. -/
theorem Reads.bind_pure {read : Reader α} {next : α → β} {bytes : List UInt8} {value : α}
    (h : Reads read bytes value) :
    Reads (read >>= fun value => Pure.pure (next value)) bytes (next value) := by
  have hboth : Reads (read >>= fun value => Pure.pure (next value)) (bytes ++ []) (next value) :=
    h.bind (Reads.pure (next value))
  rw [List.append_nil] at hboth
  exact hboth

def readByte : Reader UInt8
  | [] => none
  | byte :: rest => some (byte, rest)

def readBytes (count : Nat) : Reader (List UInt8) := fun bytes =>
  if count ≤ bytes.length then some (bytes.take count, bytes.drop count) else none

def readWord (width : Nat) : Reader Nat := do
  return LittleEndian.decode (← readBytes width)

def readName : Reader String := do
  let length ← readWord 4
  let bytes ← readBytes length
  match String.fromUTF8? ⟨bytes.toArray⟩ with
  | some name => return name
  | none => failure

/-- So many values one after the other. -/
def readMany (read : Reader α) : (count : Nat) → Reader (List α)
  | 0 => return []
  | count + 1 => do
    let value ← read
    return value :: (← readMany read count)

theorem reads_byte (byte : UInt8) : Reads readByte [byte] byte :=
  fun _ => rfl

theorem reads_bytes (bytes : List UInt8) : Reads (readBytes bytes.length) bytes bytes := by
  intro rest
  have hin : bytes.length ≤ (bytes ++ rest).length := by
    rw [List.length_append]
    exact Nat.le_add_right _ _
  show readBytes bytes.length (bytes ++ rest) = _
  rw [readBytes, if_pos hin, List.take_left' rfl, List.drop_left' rfl]

theorem reads_word {width value : Nat} (hvalue : value < LittleEndian.bound width) :
    Reads (readWord width) (LittleEndian.encode width value) value := by
  have hbytes := reads_bytes (LittleEndian.encode width value)
  rw [LittleEndian.length_encode] at hbytes
  have hword : Reads (readWord width) (LittleEndian.encode width value)
      (LittleEndian.decode (LittleEndian.encode width value)) := hbytes.bind_pure
  rw [LittleEndian.decode_encode_of_lt hvalue] at hword
  exact hword

theorem reads_count {what : FormatCount} {count : Nat} {bytes : List UInt8}
    (h : encodeCount what count = .ok bytes) : Reads (readWord 4) bytes count := by
  rw [encodeCount] at h
  by_cases hcount : count < wordBound
  · rw [if_pos hcount] at h
    obtain rfl := Except.ok.inj h
    exact reads_word hcount
  · rw [if_neg hcount] at h
    cases h

theorem fromUTF8?_toUTF8 (name : String) :
    String.fromUTF8? ⟨name.toUTF8.data.toList.toArray⟩ = some name := by
  rw [Array.toArray_toList]
  show String.fromUTF8? name.toByteArray = some name
  rw [String.fromUTF8?, dif_pos name.isValidUTF8]
  rfl

theorem reads_name {name : String} {length : List UInt8}
    (h : encodeCount .fieldNameLength name.utf8ByteSize = .ok length) :
    Reads readName (length ++ name.toUTF8.data.toList) name := by
  -- the word before a name counts its bytes, not its characters
  have hlength : name.toUTF8.data.toList.length = name.utf8ByteSize := Array.length_toList
  have hbytes := reads_bytes name.toUTF8.data.toList
  rw [hlength] at hbytes
  refine (reads_count h).bind ?_
  intro rest
  rw [StateT.run_bind, hbytes]
  show (match String.fromUTF8? ⟨name.toUTF8.data.toList.toArray⟩ with
    | some name => Pure.pure name
    | none => failure : Reader String).run rest = _
  rw [fromUTF8?_toUTF8]
  rfl

theorem reads_many {read : Reader α} {encode : α → List UInt8} {values : List α}
    (h : ∀ value ∈ values, Reads read (encode value) value) :
    Reads (readMany read values.length) (values.flatMap encode) values := by
  induction values with
  | nil => exact Reads.pure []
  | cons value rest ih =>
    have hrest := ih fun other hmem => h other (List.mem_cons_of_mem value hmem)
    rw [List.flatMap_cons]
    exact (h value List.mem_cons_self).bind hrest.bind_pure

end

def readUnit : Reader TimeUnit := do
  match (← readByte).toNat with
  | 0 => return .second
  | 1 => return .millisecond
  | 2 => return .microsecond
  | 3 => return .nanosecond
  | _ => failure

/-- A type by its tag, with the parameters that the tag asks for. -/
def readDataType : Reader DataType := do
  match (← readByte).toNat with
  | 1 => return .int8
  | 2 => return .int16
  | 3 => return .int32
  | 4 => return .int64
  | 5 => return .uint8
  | 6 => return .uint16
  | 7 => return .uint32
  | 8 => return .uint64
  | 9 => return .float32
  | 10 => return .float64
  | 11 => return .date32
  | 12 => return .date64
  | 13 => return .time32 (← readUnit)
  | 14 => return .time64 (← readUnit)
  | 15 => return .timestamp (← readUnit)
  | 16 => return .duration (← readUnit)
  | 17 => return .decimal (← readByte) (← readByte)
  | 18 => return .fixedSizeBinary (← readWord 4)
  | _ => failure

def readNullable : Reader Bool := do
  match (← readByte).toNat with
  | 0 => return false
  | 1 => return true
  | _ => failure

def readField : Reader Field := do
  let name ← readName
  let nullable ← readNullable
  let dtype ← readDataType
  return { name, dtype, nullable }

/-- The metadata of a schema message, of the one version there is. -/
def readSchema : Reader Schema := do
  let kind ← readByte
  let version ← readWord 2
  if kind = MessageKind.schema.code ∧ version = metadataVersion then
    let count ← readWord 4
    return ⟨← readMany readField count⟩
  else failure

theorem reads_unit (unit : TimeUnit) : Reads readUnit [unit.code] unit := by
  cases unit with
  | second => exact fun _ => rfl
  | millisecond => exact fun _ => rfl
  | microsecond => exact fun _ => rfl
  | nanosecond => exact fun _ => rfl

theorem reads_nullable (nullable : Bool) : Reads readNullable [nullable.toUInt8] nullable := by
  cases nullable with
  | false => exact fun _ => rfl
  | true => exact fun _ => rfl

theorem reads_dataType {dtype : DataType} {bytes : List UInt8} (h : dtype.encode = .ok bytes) :
    Reads readDataType bytes dtype := by
  cases dtype with
  | time32 unit | time64 unit | timestamp unit | duration unit =>
    obtain rfl := Except.ok.inj h
    exact (reads_byte _).bind (reads_unit unit).bind_pure
  | decimal precision scale =>
    obtain rfl := Except.ok.inj h
    exact fun _ => rfl
  | fixedSizeBinary width =>
    -- the only parameter that may not fit its word
    obtain ⟨parameters, hparameters, hdone⟩ := bind_eq_ok_iff.mp h
    obtain rfl := Except.ok.inj hdone
    exact (reads_byte _).bind (reads_count hparameters).bind_pure
  | _ =>
    obtain rfl := Except.ok.inj h
    exact fun _ => rfl

theorem reads_field {field : Field} {bytes : List UInt8} (h : field.encode = .ok bytes) :
    Reads readField bytes field := by
  obtain ⟨length, hlength, hrest⟩ := bind_eq_ok_iff.mp h
  obtain ⟨dtype, hdtype, hdone⟩ := bind_eq_ok_iff.mp hrest
  obtain rfl := Except.ok.inj hdone
  rw [List.append_assoc]
  exact (reads_name hlength).bind ((reads_nullable field.nullable).bind
    (reads_dataType hdtype).bind_pure)

theorem reads_fields {fields : List Field} {bytes : List UInt8}
    (h : Schema.encodeFields fields = .ok bytes) :
    Reads (readMany readField fields.length) bytes fields := by
  induction fields generalizing bytes with
  | nil =>
    obtain rfl := Except.ok.inj h
    exact Reads.pure []
  | cons field rest ih =>
    obtain ⟨first, hfirst, hmore⟩ := bind_eq_ok_iff.mp h
    obtain ⟨others, hothers, hdone⟩ := bind_eq_ok_iff.mp hmore
    obtain rfl := Except.ok.inj hdone
    exact (reads_field hfirst).bind (ih hothers).bind_pure

/-- The bytes of a schema are read as that schema, whatever follows them. -/
theorem reads_schema {schema : Schema} {bytes : List UInt8} (h : schema.encode = .ok bytes) :
    Reads readSchema bytes schema := by
  obtain ⟨count, hcount, hrest⟩ := bind_eq_ok_iff.mp h
  obtain ⟨fields, hfields, hdone⟩ := bind_eq_ok_iff.mp hrest
  obtain rfl := Except.ok.inj hdone
  have hversion : metadataVersion < LittleEndian.bound 2 := by decide
  have hbytes :
      MessageKind.schema.code :: LittleEndian.encode 2 metadataVersion ++ count ++ fields =
        [MessageKind.schema.code] ++
          (LittleEndian.encode 2 metadataVersion ++ (count ++ fields)) := by
    simp only [List.append_assoc, List.cons_append, List.nil_append]
  rw [hbytes]
  refine (reads_byte MessageKind.schema.code).bind ((reads_word hversion).bind ?_)
  exact (reads_count hcount).bind (reads_fields hfields).bind_pure

structure FooterReading where
  version : Nat
  schema : Schema
  blocks : List Block

def readBlock : Reader Block := do
  let offset ← readWord 8
  let metadataLength ← readWord 4
  let bodyLength ← readWord 8
  return { offset, metadataLength, bodyLength }

def readFooter : Reader FooterReading := do
  let version ← readWord 2
  let schema ← readSchema
  let count ← readWord 4
  let blocks ← readMany readBlock count
  return { version, schema, blocks }

/-- The numbers of the block fit the words for them. -/
structure Block.Fits (block : Block) : Prop where
  offset_lt : block.offset < Size.bound
  metadataLength_lt : block.metadataLength < wordBound
  bodyLength_lt : block.bodyLength < Size.bound

theorem reads_block {block : Block} (h : block.Fits) : Reads readBlock block.encode block := by
  rw [Block.encode, List.append_assoc]
  exact (reads_word h.offset_lt).bind ((reads_word h.metadataLength_lt).bind
    (reads_word h.bodyLength_lt).bind_pure)

/-- The bytes of a footer are read as its schema and its blocks, and nothing of them is left. -/
theorem reads_footer {schema : Schema} {blocks : List Block} {bytes : List UInt8}
    (h : Footer.encode schema blocks = .ok bytes) (hblocks : ∀ block ∈ blocks, block.Fits) :
    Reads readFooter bytes ⟨metadataVersion, schema, blocks⟩ := by
  obtain ⟨schemaBytes, hschema, hrest⟩ := bind_eq_ok_iff.mp h
  obtain ⟨count, hcount, hdone⟩ := bind_eq_ok_iff.mp hrest
  obtain rfl := Except.ok.inj hdone
  have hversion : metadataVersion < LittleEndian.bound 2 := by decide
  have hmany : Reads (readMany readBlock blocks.length) (blocks.flatMap Block.encode) blocks :=
    reads_many fun block hmem => reads_block (hblocks block hmem)
  rw [List.append_assoc, List.append_assoc]
  exact (reads_word hversion).bind ((reads_schema hschema).bind
    ((reads_count hcount).bind hmany.bind_pure))

end Columnar.Ipc
