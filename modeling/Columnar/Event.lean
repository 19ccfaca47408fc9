import Columnar.Ipc.Mode

/-! # Log events -/

namespace Columnar

/-- Something that happened during a call. -/
inductive Event where
  /-- The buffers of a column were made to hold more slots. -/
  | grew (name : String) (width oldCapacity newCapacity : Nat)
  /-- A writer was created; its schema message takes `schemaLength` bytes. -/
  | opened (mode : Ipc.Mode) (fields schemaLength : Nat)
  /-- A record batch message was written. -/
  | wroteBatch (mode : Ipc.Mode) (rows offset metadataLength bodyLength : Nat)
  /-- A writer finished its output. -/
  | closed (mode : Ipc.Mode) (batches bytes : Nat)
  /-- A writer was given up while more output was expected of it. -/
  | abandoned (mode : Ipc.Mode)
  deriving DecidableEq

namespace Event

inductive Level where
  | trace
  | debug
  | warn
  deriving DecidableEq

def Level.text : Level → String
  | trace => "TRACE"
  | debug => "DEBUG"
  | warn => "WARN"

/-- Growth is a detail, an unfinished output a warning. -/
def level : Event → Level
  | grew _ _ _ _ => .trace
  | opened _ _ _ | wroteBatch _ _ _ _ _ | closed _ _ _ => .debug
  | abandoned _ => .warn

def message : Event → String
  | grew _ _ _ _ => "grew vector"
  | opened _ _ _ => "opened IPC writer"
  | wroteBatch _ _ _ _ _ => "wrote record batch"
  | closed _ _ _ => "closed IPC writer"
  | abandoned mode =>
    s!"IPC writer dropped without being closed, the sink holds a truncated {mode.text}"

/-- The values logged with an event, each under its name. -/
def fields : Event → List (String × String)
  | grew name width oldCapacity newCapacity =>
    [("vector", name), ("width", toString width), ("old_capacity", toString oldCapacity),
      ("new_capacity", toString newCapacity)]
  | opened mode fields schemaLength =>
    [("mode", mode.text), ("fields", toString fields), ("schema_len", toString schemaLength)]
  | wroteBatch mode rows offset metadataLength bodyLength =>
    [("mode", mode.text), ("rows", toString rows), ("offset", toString offset),
      ("meta_data_length", toString metadataLength), ("body_length", toString bodyLength)]
  | closed mode batches bytes =>
    [("mode", mode.text), ("batches", toString batches), ("bytes", toString bytes)]
  | abandoned mode => [("mode", mode.text)]

end Event

end Columnar
