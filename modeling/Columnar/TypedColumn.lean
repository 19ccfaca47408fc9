import Columnar.Column.Text
import Columnar.Column.Transfer

/-!
# Typed columns

A typed column is a column whose slots are known to hold values of one primitive. Its calls skip the
checks of width, which were settled when the column was made.
-/

namespace Columnar

/-- A column whose slots hold values of `primitive`. -/
structure TypedColumn (primitive : Primitive) where
  column : Column

namespace TypedColumn

variable {primitive : Primitive} {σ α : Type}

/-- A call on the column beneath. -/
def onColumn (action : Action Column α) : Action (TypedColumn primitive) α :=
  Action.onPart column (fun _ column => ⟨column⟩) action

def onColumns (action : Action (Pair Column) α) : Action (Pair (TypedColumn primitive)) α :=
  Action.onPart (fun pair => ⟨pair.source.column, pair.target.column⟩)
    (fun _ pair => ⟨⟨pair.source⟩, ⟨pair.target⟩⟩) action

/-- Checks that slots of a logical type hold values of a primitive. -/
def checkType (primitive : Primitive) (dtype : DataType) : Result Unit := do
  dtype.check
  unless dtype.physical = .primitive primitive do raise (.primitiveMismatch dtype primitive)

protected def empty (name : String) : TypedColumn primitive :=
  ⟨Column.empty name (.ofPrimitive primitive)⟩

def create (name : String) (dtype : DataType) : Result (TypedColumn primitive) := do
  checkType primitive dtype
  return ⟨Column.empty name dtype⟩

/-- A column that is of a type stored as the primitive. -/
def ofColumn? (column : Column) : Result (TypedColumn primitive) := do
  checkType primitive column.dtype
  return ⟨column⟩

def reallocateExact (capacity : Nat) : Action (TypedColumn primitive) Unit :=
  onColumn (Column.reallocateExact capacity)

def withCapacity (name : String) (capacity : Nat) : Action σ (TypedColumn primitive) :=
  Action.build (TypedColumn.empty name) (reallocateExact capacity)

protected def set (index : Nat) (value : Scalar primitive) : Action (TypedColumn primitive) Unit :=
  onColumn (Column.writeValue index value.toBytes)

def setGrowing (index : Nat) (value : Scalar primitive) :
    Action (TypedColumn primitive) Unit := do
  onColumn (Column.makeRoom index)
  TypedColumn.set index value

def setNull (index : Nat) : Action (TypedColumn primitive) Unit :=
  onColumn (Column.setNull index)

def setNullGrowing (index : Nat) : Action (TypedColumn primitive) Unit :=
  onColumn (Column.setNullGrowing index)

def setOption (index : Nat) (value : Option (Scalar primitive)) :
    Action (TypedColumn primitive) Unit :=
  match value with
  | some value => TypedColumn.set index value
  | none => setNull index

def setOptionGrowing (index : Nat) (value : Option (Scalar primitive)) :
    Action (TypedColumn primitive) Unit := do
  onColumn (Column.makeRoom index)
  setOption index value

/-- Sets consecutive slots from `start` on. -/
def setOptions (start : Nat) :
    (values : List (Option (Scalar primitive))) → Action (TypedColumn primitive) Unit
  | [] => pure ()
  | value :: rest => do
    setOption start value
    setOptions (start + 1) rest

/-- Puts bytes in the place of the whole value buffer and marks the first `count` slots as
holding a value. -/
def fill (bytes : Bytes) (count : Nat) : Action Column Unit := do
  unless bytes.size = (← getThe Column).values.size do breach .lengthMismatch
  modify fun column => { column with values := bytes }
  let validity ← (← getThe Column).validity.putRun true 0 count
  modify fun column => { column with validity, length := count }

/-- A column of the given values. -/
def ofValues (name : String) (values : List (Scalar primitive)) :
    Action σ (TypedColumn primitive) := do
  let blank ← withCapacity name values.length
  let bytes := values.toArray.flatMap Scalar.toBytes
  Action.build blank (onColumn (fill bytes values.length))

/-- A column of the given values, with a null slot in the place of each that is missing. -/
def ofOptions (name : String) (values : List (Option (Scalar primitive))) :
    Action σ (TypedColumn primitive) := do
  let blank ← withCapacity name values.length
  Action.build blank (setOptions 0 values)

def get? (typed : TypedColumn primitive) (index : Nat) : Result (Option (Scalar primitive)) := do
  match ← typed.column.get? index with
  | some bytes => return some (← Scalar.ofBytes bytes)
  | none => return none

protected def get (typed : TypedColumn primitive) (index : Nat) : Result (Scalar primitive) := do
  Scalar.ofBytes (← typed.column.get index)

def options (typed : TypedColumn primitive) : Result (List (Option (Scalar primitive))) :=
  (List.range typed.column.length).mapM typed.get?

/-- The values in all slots, with whatever the bytes of the null slots mean. -/
def rawValues (typed : TypedColumn primitive) : Result (List (Scalar primitive)) := do
  let bytes ← typed.column.valueBytes
  let width := primitive.byteWidth
  (List.range (bytes.size / width)).mapM fun i =>
    Scalar.ofBytes (bytes.extract (i * width) ((i + 1) * width))

def copyFrom (source : TypedColumn primitive) (position index : Nat) :
    Action (TypedColumn primitive) Unit :=
  onColumn (Column.copySlot source.column position index)

def copyFromGrowing (source : TypedColumn primitive) (position index : Nat) :
    Action (TypedColumn primitive) Unit := do
  onColumn (Column.makeRoom index)
  copyFrom source position index

def transfer : Action (Pair (TypedColumn primitive)) Unit :=
  onColumns Column.moveBuffers

def splitAndTransfer (start length : Nat) : Action (Pair (TypedColumn primitive)) Unit :=
  onColumns (Column.splitInto start length)

def allocateNew : Action (TypedColumn primitive) Unit :=
  onColumn Column.allocateNew

def setLength (count : Nat) : Action (TypedColumn primitive) Unit :=
  onColumn (Column.setLength count)

def clear : Action (TypedColumn primitive) Unit :=
  onColumn Column.clear

end TypedColumn

end Columnar
