import Columnar.Bitmap
import Columnar.Schema

/-!
# Columns

A column is a sequence of slots of one logical type, some of which may be null. The bytes under a
null slot are of no meaning, nor are those past the length.
-/

namespace Columnar

/-- A sequence of nullable slots of one type. -/
structure Column where
  name : String
  dtype : DataType
  width : Nat
  /-- The slots that hold a value. -/
  validity : Bitmap
  /-- The slots of the column one after the other, up to its capacity. -/
  values : Bytes
  length : Nat
  /-- The number of slots that the buffers are made for. -/
  capacity : Nat
  /-- The capacity that the column is given when it is allocated anew. -/
  initialCapacity : Nat
  deriving DecidableEq

namespace Column

/-- The capacity that a column is given when it is allocated anew, unless another was set. -/
def defaultInitialCapacity : Nat := 4096

/-- A column without slots and without buffers. The type is taken as it is. -/
protected def empty (name : String) (dtype : DataType) : Column where
  name
  dtype
  width := dtype.byteWidth
  validity := .empty
  values := #[]
  length := 0
  capacity := 0
  initialCapacity := defaultInitialCapacity

def create (name : String) (dtype : DataType) : Result Column := do
  dtype.check
  return Column.empty name dtype

/-- A column without slots of the same type as another. -/
def emptyLike (column : Column) (name : String) : Column :=
  Column.empty name column.dtype

/-- The nullable field that describes the column. -/
def field (column : Column) : Field where
  name := column.name
  dtype := column.dtype
  nullable := true

/-- The number of null slots. -/
def nullCount (column : Column) : Result Nat :=
  column.validity.unsetBits column.length

/-- The value bytes of all slots, null slots included. -/
def valueBytes (column : Column) : Result Bytes := do
  column.values.stretch 0 (← Size.mul column.length column.width)

/-- Whether a slot holds a value. Slots past the capacity do not. -/
def isValid (column : Column) (index : Nat) : Result Bool :=
  if index < column.capacity then column.validity.get index else pure false

def isNull (column : Column) (index : Nat) : Result Bool :=
  return !(← column.isValid index)

/-- The first byte of a slot and the first byte past it. -/
def slotBounds (column : Column) (index : Nat) : Result (Nat × Nat) := do
  let start ← Size.mul index column.width
  let stop ← Size.mul (← Size.add index 1) column.width
  return (start, stop)

/-- The bytes of a slot, whether it is null or not. -/
def slotBytes (column : Column) (index : Nat) : Result Bytes := do
  let (start, stop) ← column.slotBounds index
  column.values.stretch start stop

/-- The bytes of a slot, or nothing if it is null. -/
def get? (column : Column) (index : Nat) : Result (Option Bytes) := do
  if ← column.isValid index then return some (← column.slotBytes index) else return none

protected def get (column : Column) (index : Nat) : Result Bytes := do
  match ← column.get? index with
  | some bytes => return bytes
  | none => raise (.nullSlot index column.name)

def slots (column : Column) : Result (List (Option Bytes)) :=
  (List.range column.length).mapM column.get?

/-- Whether two columns have the same type and the same slots. Names, capacities and the
bytes of null slots make no difference. -/
def sameSlots (column other : Column) : Result Bool := do
  if column.dtype = other.dtype ∧ column.length = other.length then
    return (← column.slots) = (← other.slots)
  else return false

/-- Checks that `width` is the width of the column's slots. -/
def checkWidth (column : Column) (width : Nat) : Result Unit :=
  if column.width = width then pure () else raise (.elementWidth column.width width)

end Column

end Columnar
