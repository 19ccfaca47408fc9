import Columnar.Failure
import Columnar.LittleEndian

/-!
# The interchange format

A *stream* is a schema message, record batch messages and an end marker. A *file* is a stream
between a magic number and a footer, which says where every record batch message lies.
-/

namespace Columnar.Ipc

/-- The bytes that a file begins and ends with. -/
def magic : Bytes := "FERROW".toUTF8.data

/-- The version of the metadata layout. -/
def metadataVersion : Nat := 1

inductive MessageKind where
  | schema
  | recordBatch
  deriving DecidableEq

def MessageKind.code : MessageKind → UInt8
  | schema => 1
  | recordBatch => 2

/-- Where a message lies. -/
structure Block where
  /-- The place of the first byte of the message. -/
  offset : Nat
  /-- The length of the metadata with its padding and with the word before it. -/
  metadataLength : Nat
  bodyLength : Nat
  deriving DecidableEq

/-- The metadata and the body of a message. -/
structure Message where
  metadata : Bytes
  body : Bytes
  deriving DecidableEq

/-- One more than the largest number of an unsigned 32-bit word. -/
def wordBound : Nat := 0x100000000

/-- One more than the largest number of a signed 32-bit word. -/
def signedWordBound : Nat := 0x80000000

/-- A block whose metadata length fits the footer's word for it. -/
def Block.create (offset metadataLength bodyLength : Nat) : Result Block :=
  if metadataLength < wordBound then pure ⟨offset, metadataLength, bodyLength⟩
  else raise (.blockTooLong metadataLength)

/-- A count as a 32-bit word. -/
def encodeCount (what : FormatCount) (count : Nat) : Result (List UInt8) :=
  if count < wordBound then pure (LittleEndian.encode 4 count)
  else raise (.formatLimit what count)

end Columnar.Ipc
