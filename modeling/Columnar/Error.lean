import Columnar.DataType.Basic
import Columnar.Ipc.Mode

/-!
# Errors

An error is a cause, a failure of the sink that bytes were written to, or another error within a
place that it passed through. The wording of all of them is in this module.
-/

namespace Columnar

/-- The classes that causes fall into. -/
inductive CauseKind where
  | outOfMemory
  | schemaMismatch
  | shapeMismatch
  | nullValue
  | typeMismatch
  | writerClosed
  | outOfBounds
  | compute
  deriving DecidableEq

def CauseKind.heading : CauseKind → String
  | outOfMemory => "out of memory: "
  | schemaMismatch => "schema mismatch: "
  | shapeMismatch => "shape mismatch: "
  | nullValue => "null value: "
  | typeMismatch => "type mismatch: "
  | writerClosed => "writer closed: "
  | outOfBounds => "out of bounds: "
  | compute => ""

/-- The counts for which the format reserves 32 bits. -/
inductive FormatCount where
  | fields
  | fieldNameLength
  | binaryWidth
  | columns
  | recordBatches
  deriving DecidableEq

def FormatCount.text : FormatCount → String
  | fields => "field count"
  | fieldNameLength => "field name length"
  | binaryWidth => "fixed-size binary width"
  | columns => "column count"
  | recordBatches => "record batch count"

/-- What the library objects to. -/
inductive Cause where
  /-- A buffer of more than `2 ^ 63 - 1` bytes was asked for. -/
  | capacityOverflow
  /-- The allocator refused a buffer. -/
  | allocationRefused
  /-- No power of two of 64 bits lies above the index. -/
  | indexTooLarge (index : Nat)
  /-- The bytes of that many slots cannot be counted in 64 bits. -/
  | slotsTooLarge (slots width : Nat)
  | fieldCount (expected got : Nat)
  /-- Two schemas differ in the physical type at a position. -/
  | fieldLayout (position : Nat) (name : String) (expected got : DataType)
  | columnCount (columns fields : Nat)
  /-- A column's logical type is not its field's. -/
  | columnType (field : String) (got expected : DataType)
  /-- A column written under a non-nullable field holds nulls. -/
  | nullsInColumn (field : String) (nulls : Nat)
  | rowCount (field : String) (got expected : Nat)
  | nullSlot (index : Nat) (name : String)
  /-- A value, or another column, has slots of another width. -/
  | elementWidth (expected got : Nat)
  /-- A logical type is not stored as the primitive asked for. -/
  | primitiveMismatch (dtype : DataType) (primitive : Primitive)
  | writerAlreadyClosed (mode : Ipc.Mode)
  /-- The writer failed before, with the given message. -/
  | writerUnusable (mode : Ipc.Mode) (failure : String)
  /-- The sink was asked of a writer that is still open. -/
  | writerStillOpen (mode : Ipc.Mode)
  /-- The sink was asked of a writer that failed, with the given message. -/
  | writerNeverClosed (mode : Ipc.Mode) (failure : String)
  | indexOutOfBounds (index length : Nat)
  /-- The end of a range cannot be counted in 64 bits. -/
  | splitOverflow (start : Nat)
  | splitOutOfBounds (start stop : Nat) (name : String) (length : Nat)
  | invalidDecimal (precision scale : UInt8)
  | emptyFieldName (position : Nat)
  | duplicateFieldName (name : String)
  /-- A record batch binds a column holding nulls to a non-nullable field. -/
  | nullsInField (field : String) (nulls : Nat)
  /-- A count needs more than the 32 bits that the format reserves for it. -/
  | formatLimit (what : FormatCount) (count : Nat)
  /-- The metadata of a message, once framed, is longer than 32 bits can say. -/
  | metadataTooLong (size : Nat)
  /-- The metadata of a message is longer than a footer can say. -/
  | blockTooLong (size : Nat)
  /-- The footer of a file is longer than a signed 32-bit length can say. -/
  | footerTooLong (size : Nat)
  | alignmentNotInteger (text : String)
  | alignmentNotPowerOfTwo (alignment : Nat)
  /-- A cause of the given class in the words of whoever raised it. -/
  | described (kind : CauseKind) (text : String)
  deriving DecidableEq

namespace Cause

def kind : Cause → CauseKind
  | capacityOverflow | allocationRefused | indexTooLarge _ | slotsTooLarge _ _ => .outOfMemory
  | fieldCount _ _ | fieldLayout _ _ _ _ | columnCount _ _ | columnType _ _ _
  | nullsInColumn _ _ => .schemaMismatch
  | rowCount _ _ _ => .shapeMismatch
  | nullSlot _ _ => .nullValue
  | elementWidth _ _ | primitiveMismatch _ _ => .typeMismatch
  | writerAlreadyClosed _ | writerUnusable _ _ | writerStillOpen _ | writerNeverClosed _ _ =>
    .writerClosed
  | indexOutOfBounds _ _ | splitOverflow _ | splitOutOfBounds _ _ _ _ => .outOfBounds
  | invalidDecimal _ _ | emptyFieldName _ | duplicateFieldName _ | nullsInField _ _
  | formatLimit _ _ | metadataTooLong _ | blockTooLong _ | footerTooLong _
  | alignmentNotInteger _ | alignmentNotPowerOfTwo _ => .compute
  | described kind _ => kind

/-- What the message of a cause says after its heading. -/
def text : Cause → String
  | capacityOverflow =>
    "memory allocation failed because the computed capacity exceeded the collection's maximum"
  | allocationRefused =>
    "memory allocation failed because the memory allocator returned an error"
  | indexTooLarge index => s!"cannot grow vector to hold index {index}"
  | slotsTooLarge slots width => s!"{slots} slots of {width} bytes overflow"
  | fieldCount expected got => s!"expected {expected} fields, got {got}"
  | fieldLayout position name expected got =>
    s!"field {position} ('{name}'): expected {expected.text}, got {got.text}"
  | columnCount columns fields =>
    s!"record batch has {columns} columns but its schema has {fields} fields"
  | columnType field got expected =>
    s!"column for field '{field}' is {got.text}, expected {expected.text}"
  | nullsInColumn field nulls =>
    s!"field '{field}' is not nullable, but its column has {nulls} nulls"
  | rowCount field got expected =>
    "record batch requires all its columns to have an equal number of rows; " ++
      s!"'{field}' has {got}, expected {expected}"
  | nullSlot index name => s!"value at index {index} of '{name}' is null"
  | elementWidth expected got =>
    s!"element width mismatch: expected {expected} bytes, got {got} bytes"
  | primitiveMismatch dtype primitive =>
    s!"a vector of {dtype.text} cannot hold values of type {primitive.valueTypeText}"
  | writerAlreadyClosed mode => s!"{mode.text} writer is already closed"
  | writerUnusable mode failure =>
    s!"{mode.text} writer is unusable after an earlier failure: {failure}"
  | writerStillOpen mode =>
    s!"{mode.text} writer is still open, close it before taking its sink"
  | writerNeverClosed mode failure =>
    s!"{mode.text} writer failed and was never closed: {failure}"
  | indexOutOfBounds index length => s!"index {index} is out of bounds for length {length}"
  | splitOverflow start => s!"split range starting at {start} overflows"
  | splitOutOfBounds start stop name length =>
    s!"cannot split [{start}, {stop}) out of '{name}' with {length} values"
  | invalidDecimal precision scale =>
    s!"invalid Decimal({precision.toNat}, {scale.toNat}): precision must be at most " ++
      s!"{DataType.maxDecimalPrecision.toNat} and scale at most the precision"
  | emptyFieldName position => s!"field at position {position} has an empty name"
  | duplicateFieldName name => s!"duplicate field name '{name}' in schema"
  | nullsInField field nulls => s!"non-nullable field '{field}' holds {nulls} nulls"
  | formatLimit what count => s!"{what.text} of {count} does not fit in the IPC format"
  | metadataTooLong size => s!"metadata of {size} bytes does not fit in a message"
  | blockTooLong size => s!"metadata of {size} bytes does not fit in a block"
  | footerTooLong size => s!"footer of {size} bytes is too large"
  | alignmentNotInteger text => s!"FERROW_IPC_ALIGNMENT must be an integer, got '{text}'"
  | alignmentNotPowerOfTwo alignment =>
    s!"IPC alignment must be a power of two, got {alignment}"
  | described _ text => text

def message (cause : Cause) : String :=
  cause.kind.heading ++ cause.text

end Cause

inductive IoErrorKind where
  | brokenPipe
  | permissionDenied
  | connectionReset
  | timedOut
  | writeZero
  | notFound
  | unexpectedEof
  | other
  deriving DecidableEq

def IoErrorKind.text : IoErrorKind → String
  | brokenPipe => "broken pipe"
  | permissionDenied => "permission denied"
  | connectionReset => "connection reset"
  | timedOut => "timed out"
  | writeZero => "write zero"
  | notFound => "entity not found"
  | unexpectedEof => "unexpected end of file"
  | other => "other error"

/-- What a sink answers when it fails: the kind of failure and perhaps words of its own. -/
structure IoError where
  kind : IoErrorKind
  words : Option String
  deriving DecidableEq

namespace IoError

/-- The sink's own words, or else those for the kind of failure. -/
def message (error : IoError) : String :=
  error.words.getD error.kind.text

/-- A sink accepted none of the bytes it was offered. -/
def nothingAccepted : IoError :=
  ⟨.writeZero, some "failed to write whole buffer"⟩

end IoError

/-- A cause or a sink failure, within any number of places. -/
inductive Error where
  | raised (cause : Cause)
  /-- A sink failure, with a message that takes the place of the sink's if it is given. -/
  | io (error : IoError) (message : Option String)
  /-- `error` as it left `place`. -/
  | within (error : Error) (place : String)
  deriving DecidableEq

/-- The outermost form of an error. -/
inductive ErrorKind where
  | caused (kind : CauseKind)
  | io
  | within
  deriving DecidableEq

namespace Error

/-- The outermost form of an error, with the class of its cause. -/
def kind : Error → ErrorKind
  | raised cause => .caused cause.kind
  | io _ _ => .io
  | within _ _ => .within

/-- The error without the places it passed through. -/
def root : Error → Error
  | within error _ => error.root
  | error => error

def isIo (error : Error) : Bool :=
  match error.root with
  | io _ _ => true
  | _ => false

/-- The whole message. Every place stands in a paragraph of its own after the error that
passed through it. -/
def message : Error → String
  | raised cause => cause.message
  | io error words => words.getD error.message
  | within error place => s!"{error.message}\n\nerror context: {place}"

end Error

end Columnar
