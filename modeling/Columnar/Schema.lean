import Columnar.Failure

/-!
# Schemas

A schema is a sequence of fields, which the columns of a batch are matched to by position. Fields
are checked in order, and of one field its type, then that it has a name, then that it is new.
-/

namespace Columnar

/-- Checks the parameters of a logical type. -/
def DataType.check (dtype : DataType) : Result Unit :=
  match dtype with
  | .decimal precision scale =>
    if dtype.HasValidParameters then pure () else raise (.invalidDecimal precision scale)
  | _ => pure ()

/-- A column of a schema. -/
structure Field where
  name : String
  dtype : DataType
  nullable : Bool
  deriving DecidableEq

/-- A sequence of fields. -/
structure Schema where
  fields : List Field
  deriving DecidableEq

namespace Schema

/-- Checks a field that follows the fields `earlier`. -/
def checkField (earlier : List Field) (field : Field) : Result Unit := do
  field.dtype.check
  if field.name = "" then raise (.emptyFieldName earlier.length)
  if earlier.any (·.name = field.name) then raise (.duplicateFieldName field.name)

/-- Checks fields that follow the fields `earlier`, in order. -/
def checkFields (earlier : List Field) : (fields : List Field) → Result Unit
  | [] => pure ()
  | field :: rest => do
    checkField earlier field
    checkFields (earlier ++ [field]) rest

/-- The schema of a list of fields whose types are valid and whose names are present and
distinct. -/
def create (fields : List Field) : Result Schema := do
  checkFields [] fields
  return ⟨fields⟩

def length (schema : Schema) : Nat :=
  schema.fields.length

def get? (schema : Schema) (index : Nat) : Option Field :=
  schema.fields[index]?

def indexOf? (schema : Schema) (name : String) : Option Nat :=
  schema.fields.findIdx? (·.name = name)

/-- Checks that fields at the same place, from `position` on, have the same physical type. -/
def ensureSameTypes (position : Nat) : (expected got : List Field) → Result Unit
  | field :: expected, other :: got => do
    unless field.dtype.physical = other.dtype.physical do
      raise (.fieldLayout position field.name field.dtype other.dtype)
    ensureSameTypes (position + 1) expected got
  | _, _ => pure ()

/-- Checks that `other` has as many fields as `schema` and the same physical type in every
place. Names and nullability are not compared. -/
def ensureSameLayout (schema other : Schema) : Result Unit := do
  unless schema.length = other.length do raise (.fieldCount schema.length other.length)
  ensureSameTypes 0 schema.fields other.fields

end Schema

end Columnar
