import Columnar.Ipc.Session

/-! # Stream writers -/

namespace Columnar.Ipc

/-- A writer of streams. -/
structure StreamWriter (σ : Type) where
  session : Session σ

namespace StreamWriter

variable {σ α : Type}

/-- A call on the session beneath. -/
def onSession (action : Action (Session σ) α) : Action (StreamWriter σ) α :=
  Action.onPart session (fun _ session => ⟨session⟩) action

variable [Sink σ]

/-- Sends the schema message to the state, which is the sink, and answers with the writer. -/
def create (schema : Schema) (alignment : Nat) : Action σ (StreamWriter σ) := do
  let (session, _) ← Session.start .stream #[] schema alignment
  return ⟨session⟩

/-- Sends a batch. -/
def write (batch : RecordBatch) : Action (StreamWriter σ) Unit := do
  let _ ← onSession (Session.writeBatch batch)

/-- Sends the end marker and flushes the sink. -/
def close : Action (StreamWriter σ) Unit :=
  onSession (Session.finish #[])

end StreamWriter

end Columnar.Ipc
