import Columnar.Ipc.Format
import Columnar.Schema

/-!
# The bytes of a schema

A field is the length of its name, the name in UTF-8, whether it is nullable, and a tag for its type
with parameters. The encoding says by itself where it ends.
-/

namespace Columnar

open Ipc

/-- The number that stands for the unit. -/
def TimeUnit.code : TimeUnit → UInt8
  | second => 0
  | millisecond => 1
  | microsecond => 2
  | nanosecond => 3

namespace DataType

/-- The number that stands for the type, whatever its parameters. -/
def tag : DataType → UInt8
  | int8 => 1
  | int16 => 2
  | int32 => 3
  | int64 => 4
  | uint8 => 5
  | uint16 => 6
  | uint32 => 7
  | uint64 => 8
  | float32 => 9
  | float64 => 10
  | date32 => 11
  | date64 => 12
  | time32 _ => 13
  | time64 _ => 14
  | timestamp _ => 15
  | duration _ => 16
  | decimal _ _ => 17
  | fixedSizeBinary _ => 18

/-- The bytes of the parameters of the type. -/
def encodeParameters : DataType → Result (List UInt8)
  | time32 unit | time64 unit | timestamp unit | duration unit => pure [unit.code]
  | decimal precision scale => pure [precision, scale]
  | fixedSizeBinary width => encodeCount .binaryWidth width
  | _ => pure []

/-- The bytes of the type. -/
def encode (dtype : DataType) : Result (List UInt8) :=
  return dtype.tag :: (← dtype.encodeParameters)

end DataType

/-- The bytes of a field. -/
def Field.encode (field : Field) : Result (List UInt8) := do
  let nameLength ← encodeCount .fieldNameLength field.name.utf8ByteSize
  let dtype ← field.dtype.encode
  return nameLength ++ field.name.toUTF8.data.toList ++ [field.nullable.toUInt8] ++ dtype

namespace Schema

/-- The bytes of fields one after the other. -/
def encodeFields : (fields : List Field) → Result (List UInt8)
  | [] => pure []
  | field :: rest => return (← field.encode) ++ (← encodeFields rest)

/-- The metadata of a schema message. -/
def encode (schema : Schema) : Result (List UInt8) := do
  let count ← encodeCount .fields schema.length
  let fields ← encodeFields schema.fields
  return MessageKind.schema.code :: LittleEndian.encode 2 metadataVersion ++ count ++ fields

end Schema

namespace Ipc

/-- The bytes of a block. -/
def Block.encode (block : Block) : List UInt8 :=
  LittleEndian.encode 8 block.offset ++ LittleEndian.encode 4 block.metadataLength ++
    LittleEndian.encode 8 block.bodyLength

/-- The footer of a file: the version, the schema and the blocks of its record batches. -/
def Footer.encode (schema : Schema) (blocks : List Block) : Result (List UInt8) := do
  let schemaBytes ← schema.encode
  let count ← encodeCount .recordBatches blocks.length
  return LittleEndian.encode 2 metadataVersion ++ schemaBytes ++ count ++
    blocks.flatMap Block.encode

end Ipc

end Columnar
