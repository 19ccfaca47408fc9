import Columnar.Ipc.Alignment
import Columnar.Ipc.Format
import Columnar.RecordBatch

/-!
# The bytes of a record batch

The body holds the validity bits and then the values of each column, padded to the alignment. Its
length is worked out first, since the memory for it may be refused.
-/

namespace Columnar

namespace Ipc

/-- The place of a buffer in a body and its length without padding. -/
structure Extent where
  offset : Nat
  length : Nat
  deriving DecidableEq

/-- What the metadata says about a column. -/
structure ColumnEntry where
  nullCount : Nat
  validity : Extent
  values : Extent
  deriving DecidableEq

def ColumnEntry.encode (entry : ColumnEntry) : List UInt8 :=
  [entry.nullCount, entry.validity.offset, entry.validity.length, entry.values.offset,
    entry.values.length].flatMap (LittleEndian.encode 8)

/-- A body in the making: its bytes, and the place where the next buffer goes. -/
structure Body where
  bytes : Bytes
  offset : Nat

namespace Body

def empty : Body := ⟨#[], 0⟩

/-- The length of a buffer with its padding. -/
def paddedSize (alignment length : Nat) : Result Nat := do
  Size.add length (← Alignment.padding length alignment)

/-- The length of the buffers of a column of so many rows, with their padding. -/
def columnSize (alignment rows : Nat) (column : Column) : Result Nat := do
  let validity := Bits.bytesFor rows
  let values ← Size.mul rows column.width
  let size ← paddedSize alignment validity
  let size ← Size.add size values
  Size.add size (← Alignment.padding values alignment)

/-- The length of a body of so many rows, on top of `size` bytes before it. -/
def sizeFrom (alignment rows size : Nat) : (columns : List Column) → Result Nat
  | [] => pure size
  | column :: rest => do
    sizeFrom alignment rows (← Size.add size (← columnSize alignment rows column)) rest

/-- The length of the body of columns of so many rows. -/
def sizeOf (alignment rows : Nat) (columns : List Column) : Result Nat :=
  sizeFrom alignment rows 0 columns

/-- The body with a buffer and its padding added, and where the buffer lies. -/
def append (alignment : Nat) (body : Body) (buffer : Bytes) : Result (Extent × Body) := do
  let padding ← Alignment.padding buffer.size alignment
  return (⟨body.offset, buffer.size⟩,
    ⟨body.bytes ++ buffer ++ Bytes.zeros padding, body.offset + (buffer.size + padding)⟩)

/-- The body with the buffers of a column added, and what the metadata says about it. Bits
past the last row are sent as zeros. -/
def appendColumn (alignment : Nat) (body : Body) (column : Column) :
    Result (ColumnEntry × Body) := do
  let nullCount ← column.nullCount
  let bits ← column.validity.bytes.stretch 0 (Bits.bytesFor column.length)
  let (validity, body) ← body.append alignment (Bits.maskTrailing bits column.length)
  let (values, body) ← body.append alignment (← column.valueBytes)
  return (⟨nullCount, validity, values⟩, body)

def appendColumns (alignment : Nat) (body : Body) :
    (columns : List Column) → Result (List ColumnEntry × Body)
  | [] => pure ([], body)
  | column :: rest => do
    let (entry, body) ← body.appendColumn alignment column
    let (entries, body) ← body.appendColumns alignment rest
    return (entry :: entries, body)

end Body

end Ipc

namespace RecordBatch

open Ipc

/-- The metadata of a record batch message. -/
def encodeMetadata (rows bodyLength : Nat) (entries : List ColumnEntry) :
    Result (List UInt8) := do
  let count ← encodeCount .columns entries.length
  return MessageKind.recordBatch.code :: LittleEndian.encode 2 metadataVersion ++
    LittleEndian.encode 8 rows ++ LittleEndian.encode 8 bodyLength ++ count ++
    entries.flatMap ColumnEntry.encode

def encode {σ : Type} (batch : RecordBatch) (alignment : Nat) : Action σ Message := do
  let size ← Body.sizeOf alignment batch.rows batch.columns
  Action.reserve .body 0 size
  let (entries, body) ← Body.empty.appendColumns alignment batch.columns
  -- the two ways to find the length must agree
  unless body.bytes.size = size do breach .lengthMismatch
  let metadata ← encodeMetadata batch.rows size entries
  return ⟨metadata.toArray, body.bytes⟩

end RecordBatch

end Columnar
