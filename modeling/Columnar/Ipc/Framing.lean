import Columnar.Ipc.Alignment
import Columnar.Ipc.Format
import Columnar.Ipc.Sink

/-!
# Framing

A message goes to the sink in four parts: a word with the length of the padded metadata, the
metadata, its padding and the body.
-/

namespace Columnar.Ipc

namespace Message

/-- The number of bytes of the word before the metadata. -/
def wordSize : Nat := 4

/-- The length of the word before the metadata, the metadata and its padding together, if a
32-bit word can hold it. -/
def framedSize (metadataSize alignment : Nat) : Result Nat := do
  unless metadataSize + wordSize < wordBound do raise (.metadataTooLong metadataSize)
  -- the word is padded with the metadata, as the body follows both
  let padding ← Alignment.padding (metadataSize + wordSize) alignment
  unless metadataSize + wordSize + padding < wordBound do raise (.metadataTooLong metadataSize)
  return metadataSize + wordSize + padding

variable {σ : Type} [Sink σ]

/-- Sends a message. The answer is the length of everything before the body, and the length
of the body. -/
def write (alignment : Nat) (message : Message) : Action σ (Nat × Nat) := do
  let framed ← framedSize message.metadata.size alignment
  let declared := framed - wordSize
  -- a length of zero would end the stream
  unless 0 < declared do breach .emptyMetadata
  Sink.writeAll (LittleEndian.encode wordSize declared).toArray
  Sink.writeAll message.metadata
  Sink.writeAll (Bytes.zeros (declared - message.metadata.size))
  Sink.writeAll message.body
  return (framed, message.body.size)

/-- The metadata length that ends a stream. -/
def endMarker : Bytes := (LittleEndian.encode wordSize 0).toArray

/-- Sends the marker that ends a stream. The answer is its length. -/
def writeEnd : Action σ Nat := do
  Sink.writeAll endMarker
  return endMarker.size

end Message

end Columnar.Ipc
