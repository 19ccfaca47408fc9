import Columnar.Ipc.BatchEncoding
import Columnar.Ipc.Framing
import Columnar.Ipc.SchemaEncoding

/-!
# Writing sessions

A session writes one stream to a sink and is writable until it finishes or sending fails. What is
refused before anything is sent leaves it as it was.
-/

namespace Columnar.Ipc

/-- How far a session has come. -/
inductive Session.Phase where
  /-- Batches may be written. -/
  | writable
  /-- Sending something failed with the given message. -/
  | failed (message : String)
  /-- The end of the stream was written. -/
  | closed
  deriving DecidableEq

/-- A stream that is being written to a sink. -/
structure Session (σ : Type) where
  mode : Mode
  phase : Session.Phase
  sink : σ
  schema : Schema
  alignment : Nat
  /-- The number of bytes written, which is the place of the next message. -/
  bytesWritten : Nat
  batchesWritten : Nat

namespace Session

variable {σ τ α : Type}

/-- The name of a place in a writer, as errors report it. -/
def place (mode : Mode) (step : String) : String :=
  s!"[ipc][{mode.text}-writer][{step}]"

def isClosed (session : Session σ) : Bool :=
  session.phase = .closed

/-- Checks that batches may be written. -/
def ensureWritable (session : Session σ) : Result Unit :=
  match session.phase with
  | .writable => pure ()
  | .failed message => raise (.writerUnusable session.mode message)
  | .closed => raise (.writerAlreadyClosed session.mode)

/-- Makes the session fail with an error that came up at a step. -/
def failAt (step : String) (error : Error) : Action (Session σ) α := do
  let error := Error.within error (place (← getThe (Session σ)).mode step)
  modify fun session => { session with phase := .failed error.message }
  fail error

/-- Sends something to the sink. If that fails, the session fails at the given step. -/
def send (step : String) (action : Action σ α) : Action (Session σ) α := do
  match ← Action.attempt
    (Action.onPart sink (fun session sink => { session with sink }) action) with
  | .ok answer => return answer
  | .error error => failAt step error

/-- Checks that the columns written under non-nullable fields have no nulls. -/
def ensureNoNulls : (fields : List Field) → (columns : List Column) → Result Unit
  | field :: fields, column :: columns => do
    unless field.nullable do
      let nulls ← column.nullCount
      unless nulls = 0 do raise (.nullsInColumn field.name nulls)
    ensureNoNulls fields columns
  | _, _ => pure ()

variable [Sink σ]

/-- Sends the header and the schema message to the state, which is the sink. The answer is
the session with that sink, and the place of the schema message. -/
def start (mode : Mode) (header : Bytes) (schema : Schema) (alignment : Nat) :
    Action σ (Session σ × Block) := do
  Alignment.check alignment
  let metadata ← schema.encode
  let sent ← Action.attempt do
    Sink.writeAll header
    Message.write alignment ⟨metadata.toArray, #[]⟩
  match sent with
  | .error error => fail (.within error (place mode "open"))
  | .ok (metadataLength, bodyLength) =>
    let block ← Block.create header.size metadataLength bodyLength
    Action.report (.opened mode schema.length metadataLength)
    let session :=
      { mode
        phase := .writable
        sink := ← getThe σ
        schema
        alignment
        bytesWritten := header.size + metadataLength + bodyLength
        batchesWritten := 0 }
    return (session, block)

/-- Sends the message of a batch that has the layout of the session's schema and no nulls
where that allows none. The answer is the place of the message. -/
def writeBatch (batch : RecordBatch) : Action (Session σ) Block := do
  let session ← getThe (Session σ)
  session.ensureWritable
  session.schema.ensureSameLayout batch.schema
  ensureNoNulls session.schema.fields batch.columns
  let message ← batch.encode session.alignment
  let (metadataLength, bodyLength) ←
    send "write-record-batch" (Message.write session.alignment message)
  modify fun session =>
    { session with
      bytesWritten := session.bytesWritten + (metadataLength + bodyLength)
      batchesWritten := session.batchesWritten + 1 }
  Action.report
    (.wroteBatch session.mode batch.rows session.bytesWritten metadataLength bodyLength)
  Block.create session.bytesWritten metadataLength bodyLength

/-- Sends the end marker and a trailer, and flushes the sink. -/
def finish (trailer : Bytes) : Action (Session σ) Unit := do
  (← getThe (Session σ)).ensureWritable
  let written ← send "close" do
    let marker ← Message.writeEnd
    Sink.writeAll trailer
    Sink.flushAll
    return marker + trailer.size
  modify fun session =>
    { session with bytesWritten := session.bytesWritten + written, phase := .closed }
  let session ← getThe (Session σ)
  Action.report (.closed session.mode session.batchesWritten session.bytesWritten)

omit [Sink σ]

/-- Ends the use of a session. One that was still writable leaves an unfinished stream
behind. -/
def discard (session : Session σ) : Action τ Unit :=
  match session.phase with
  | .writable => Action.report (.abandoned session.mode)
  | _ => pure ()

/-- Ends the use of a session. The answer is the sink, if the stream was finished. -/
def release (session : Session σ) : Action τ σ := do
  session.discard
  match session.phase with
  | .closed => return session.sink
  | .writable => raise (.writerStillOpen session.mode)
  | .failed message => raise (.writerNeverClosed session.mode message)

end Session

end Columnar.Ipc
