import Columnar.Column.Basic
import Columnar.Scalar
import Columnar.Text.DecimalText

/-! # The text of a column -/

namespace Columnar

namespace DataType

/-- The text of the bytes of one slot of a primitive. -/
def primitiveText (primitive : Primitive) (bytes : Bytes) : Result String :=
  return (← Scalar.ofBytes bytes : Scalar primitive).text

/-- The scales at which a decimal is shown with a point. At scale zero there is nothing
after the point, and past the largest precision the unit is more than 128 bits can hold;
such decimals are shown as the integer they are stored as. -/
def HasShownScale (scale : UInt8) : Prop :=
  0 < scale ∧ scale ≤ maxDecimalPrecision

instance : DecidablePred HasShownScale :=
  fun scale => inferInstanceAs (Decidable (0 < scale ∧ scale ≤ maxDecimalPrecision))

/-- The text of the bytes of one slot. -/
def valueText (dtype : DataType) (bytes : Bytes) : Result String :=
  match dtype with
  | decimal _ scale => do
    let value : Scalar .int128 ← Scalar.ofBytes bytes
    if HasShownScale scale then return fixedPointText value.toInt scale.toNat
    else return value.text
  | time32 unit | time64 unit | timestamp unit | duration unit =>
    if dtype.byteWidth = 4 then return (← primitiveText .int32 bytes) ++ unit.suffix
    else return (← primitiveText .int64 bytes) ++ unit.suffix
  | dtype =>
    match dtype.physical with
    | .primitive primitive => primitiveText primitive bytes
    | .fixedSizeBinary _ => return "0x" ++ hexText bytes

end DataType

namespace Column

/-- The text of a slot of a column of the given type. -/
def slotText (dtype : DataType) : (slot : Option Bytes) → Result String
  | some bytes => dtype.valueText bytes
  | none => pure "None"

/-- The type, the name and the slots of a column. -/
def text (column : Column) : Result String := do
  let slots ← (← column.slots).mapM (slotText column.dtype)
  return s!"{column.dtype.text} '{column.name}' [" ++ ", ".intercalate slots ++ "]"

end Column

end Columnar
