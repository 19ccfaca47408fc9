import Columnar.Column.Growth

/-!
# Writing slots

Every way to write a slot has two forms. The plain form takes the slot to be within the capacity,
and it is a breach if it is not. The growing form makes room first.
-/

namespace Columnar

namespace Column

/-- Insists that slot `index` is within the capacity. -/
def insistRoom (index : Nat) : Action Column Unit := do
  let column ← getThe Column
  unless index < column.capacity do
    breach (.slotOutOfCapacity index column.capacity column.name)

/-- Makes the column at least long enough to contain slot `index`. -/
def extendLength (index : Nat) : Action Column Unit := do
  let needed ← Size.add index 1
  modify fun column => { column with length := max column.length needed }

/-- Writes the bytes of slot `index` and then marks it as holding a value. -/
def writeValue (index : Nat) (value : Bytes) : Action Column Unit := do
  insistRoom index
  let column ← getThe Column
  let (start, stop) ← column.slotBounds index
  unless start ≤ stop ∧ stop ≤ column.values.size do breach .stretchOutOfRange
  unless value.size = column.width ∧ value.size = stop - start do breach .lengthMismatch
  modify fun column => { column with values := column.values.overwrite start value }
  let validity ← column.validity.put index true
  modify fun column => { column with validity }
  extendLength index

protected def set (index : Nat) (value : Bytes) : Action Column Unit := do
  (← getThe Column).checkWidth value.size
  writeValue index value

def setGrowing (index : Nat) (value : Bytes) : Action Column Unit := do
  (← getThe Column).checkWidth value.size
  makeRoom index
  writeValue index value

def setNull (index : Nat) : Action Column Unit := do
  insistRoom index
  let validity ← (← getThe Column).validity.put index false
  modify fun column => { column with validity }
  extendLength index

def setNullGrowing (index : Nat) : Action Column Unit := do
  makeRoom index
  setNull index

/-- Sets slot `index` to a value, or makes it null if there is none. -/
def setOption (index : Nat) (value : Option Bytes) : Action Column Unit :=
  match value with
  | some value => Column.set index value
  | none => setNull index

def setOptionGrowing (index : Nat) (value : Option Bytes) : Action Column Unit := do
  if let some value := value then (← getThe Column).checkWidth value.size
  makeRoom index
  setOption index value

/-- Sets slot `index` to slot `position` of `source`, unless that is null. -/
def copySlot (source : Column) (position index : Nat) : Action Column Unit := do
  if let some value ← source.get? position then writeValue index value

/-- Sets slot `index` to slot `position` of a column of the same width, unless that is null. -/
def copyFrom (source : Column) (position index : Nat) : Action Column Unit := do
  (← getThe Column).checkWidth source.width
  copySlot source position index

/-- Sets slot `index` to slot `position` of a column of the same width, unless that is null,
after making room for it. -/
def copyFromGrowing (source : Column) (position index : Nat) : Action Column Unit := do
  (← getThe Column).checkWidth source.width
  makeRoom index
  copySlot source position index

end Column

end Columnar
