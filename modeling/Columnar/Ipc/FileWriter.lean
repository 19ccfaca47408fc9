import Columnar.Ipc.Session

/-!
# File writers

A file is a header, a stream, and a trailer from which every batch is found without reading the
others. The whole trailer is made before any of it is sent.
-/

namespace Columnar.Ipc

/-- A writer of files. -/
structure FileWriter (σ : Type) where
  session : Session σ
  /-- The place of the schema message. -/
  schemaBlock : Block
  /-- The places of the record batch messages in the order in which they were written. -/
  recordBlocks : List Block

namespace FileWriter

variable {σ α : Type}

/-- The magic number, and as many zero bytes as make eight in all. -/
def header : Bytes :=
  magic ++ Bytes.zeros (8 - magic.size)

/-- The footer, its length as a signed word, and the magic number. -/
def trailer (schema : Schema) (blocks : List Block) : Result Bytes := do
  let footer ← Footer.encode schema blocks
  unless footer.length < signedWordBound do raise (.footerTooLong footer.length)
  return footer.toArray ++ (LittleEndian.encode 4 footer.length).toArray ++ magic

/-- A call on the session beneath. -/
def onSession (action : Action (Session σ) α) : Action (FileWriter σ) α :=
  Action.onPart session (fun writer session => { writer with session }) action

variable [Sink σ]

/-- Sends the header and the schema message to the state, which is the sink, and answers
with the writer. -/
def create (schema : Schema) (alignment : Nat) : Action σ (FileWriter σ) := do
  let (session, schemaBlock) ← Session.start .file header schema alignment
  return { session, schemaBlock, recordBlocks := [] }

/-- Sends a batch and notes its place. -/
def write (batch : RecordBatch) : Action (FileWriter σ) Unit := do
  let block ← onSession (Session.writeBatch batch)
  modify fun writer => { writer with recordBlocks := writer.recordBlocks ++ [block] }

/-- Sends the end marker and the trailer, and flushes the sink. -/
def close : Action (FileWriter σ) Unit := do
  let writer ← getThe (FileWriter σ)
  -- made before the state is looked at, so its own errors come first
  let trailer ← trailer writer.session.schema writer.recordBlocks
  onSession (Session.finish trailer)

end FileWriter

end Columnar.Ipc
