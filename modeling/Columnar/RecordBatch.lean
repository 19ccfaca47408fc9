import Columnar.Column.Basic

/-!
# Record batches

A record batch is a schema and one column per field, all of the same length. Columns are checked in
order, and of one column its type, then its length, then that it has no nulls where none may be.
-/

namespace Columnar

/-- A schema and one column per field. -/
structure RecordBatch where
  schema : Schema
  columns : List Column

namespace RecordBatch

/-- The length that the columns of a batch have in common, which is zero without columns. -/
def commonLength : (columns : List Column) → Nat
  | [] => 0
  | column :: _ => column.length

/-- Checks that a column belongs under a field of a batch of so many rows. -/
def checkColumn (rows : Nat) (field : Field) (column : Column) : Result Unit := do
  unless column.dtype = field.dtype do raise (.columnType field.name column.dtype field.dtype)
  unless column.length = rows do raise (.rowCount field.name column.length rows)
  unless field.nullable do
    let nulls ← column.nullCount
    if 0 < nulls then raise (.nullsInField field.name nulls)

/-- Checks columns against the fields in the same places. -/
def checkColumns (rows : Nat) : (fields : List Field) → (columns : List Column) → Result Unit
  | field :: fields, column :: columns => do
    checkColumn rows field column
    checkColumns rows fields columns
  | _, _ => pure ()

/-- The batch of a schema and as many columns as it has fields, each of them fitting its
field. -/
def create (schema : Schema) (columns : List Column) : Result RecordBatch := do
  unless columns.length = schema.length do raise (.columnCount columns.length schema.length)
  checkColumns (commonLength columns) schema.fields columns
  return ⟨schema, columns⟩

def rows (batch : RecordBatch) : Nat :=
  commonLength batch.columns

/-- Whether columns in the same places have the same slots, and there are as many of them. -/
def sameColumns : (columns others : List Column) → Result Bool
  | [], [] => pure true
  | column :: columns, other :: others => do
    if ← column.sameSlots other then sameColumns columns others else return false
  | _, _ => pure false

/-- Whether two batches have equal schemas and columns with the same slots. -/
def same (batch other : RecordBatch) : Result Bool := do
  if batch.schema = other.schema then sameColumns batch.columns other.columns else return false

end RecordBatch

end Columnar
