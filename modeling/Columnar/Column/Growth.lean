import Columnar.Column.Basic
import Columnar.PowerOfTwo

/-!
# Making room in a column

The buffers of a column grow to a power of two for a slot past its capacity, and exactly to a
capacity that is asked for. Both are granted before one changes, so a refusal leaves them in step.
-/

namespace Columnar

namespace Column

variable {σ : Type}

/-- The capacity that a column grows to so that slot `index` fits: the least power of two
above the index, as long as that can be counted in 64 bits. -/
def grownCapacity (index : Nat) : Result Nat :=
  if powerAbove index < Size.bound then pure (powerAbove index) else raise (.indexTooLarge index)

/-- Grows both buffers to exactly `capacity` slots, unless they hold as many already. -/
def reallocateExact (capacity : Nat) : Action Column Unit := do
  let column ← getThe Column
  unless capacity ≤ column.capacity do
    let size := capacity * column.width
    unless size < Size.bound do raise (.slotsTooLarge capacity column.width)
    let added ← Size.sub size column.values.size
    -- both requests come before the value buffer grows
    Action.reserve .values column.values.size size
    Action.onPart Column.validity (fun column validity => { column with validity })
      (Bitmap.ensureCapacity capacity)
    modify fun column => { column with values := column.values ++ Bytes.zeros added }
    Action.report (.grew column.name column.width column.capacity capacity)
    modify fun column => { column with capacity }

def makeRoom (index : Nat) : Action Column Unit := do
  unless index < (← getThe Column).capacity do
    reallocateExact (← grownCapacity index)

/-- A column without slots that has room for exactly `capacity`. -/
def withCapacity (name : String) (dtype : DataType) (capacity : Nat) : Action σ Column := do
  Action.build (← create name dtype) (reallocateExact capacity)

/-- Sets the capacity that the column is given when it is next allocated anew. -/
def setInitialCapacity (capacity : Nat) : Action Column Unit :=
  modify fun column => { column with initialCapacity := capacity }

/-- The column without its slots and buffers. -/
def cleared (column : Column) : Column :=
  { column with validity := .empty, values := #[], length := 0, capacity := 0 }

/-- Gives up all slots and both buffers. -/
def clear : Action Column Unit :=
  modify cleared

/-- Gives up all slots and makes room for exactly `capacity` new ones. -/
def allocateNewWith (capacity : Nat) : Action Column Unit := do
  clear
  reallocateExact capacity

/-- Gives up all slots and makes room for as many as the initial capacity says. -/
def allocateNew : Action Column Unit := do
  allocateNewWith (← getThe Column).initialCapacity

/-- Makes the column end after `count` slots. Slots that it loses are made null, so that
they are null if the column gets them back. -/
def setLength (count : Nat) : Action Column Unit := do
  if 0 < count then makeRoom (count - 1)
  let column ← getThe Column
  let validity ← column.validity.putRun false count (column.length - count)
  modify fun column => { column with validity, length := count }

end Column

end Columnar
