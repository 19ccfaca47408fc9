/-!
# Logical and physical types

A logical type says what the slots of a column mean. Its physical type says how many bytes a slot
takes and how they are read, and may be that of several logical types.
-/

namespace Columnar

/-- The resolution of a time, a timestamp or a duration. -/
inductive TimeUnit where
  | second
  | millisecond
  | microsecond
  | nanosecond
  deriving DecidableEq

/-- The machine types a slot can hold. -/
inductive Primitive where
  | int8
  | int16
  | int32
  | int64
  | int128
  | uint8
  | uint16
  | uint32
  | uint64
  | float32
  | float64
  deriving DecidableEq

/-- The logical type of a column. Every type has a constant number of bytes per slot. -/
inductive DataType where
  | int8
  | int16
  | int32
  | int64
  | uint8
  | uint16
  | uint32
  | uint64
  | float32
  | float64
  /-- Days since the epoch, stored as a 32-bit integer. -/
  | date32
  /-- Milliseconds since the epoch, stored as a 64-bit integer. -/
  | date64
  /-- Time since midnight, stored as a 32-bit integer. -/
  | time32 (unit : TimeUnit)
  /-- Time since midnight, stored as a 64-bit integer. -/
  | time64 (unit : TimeUnit)
  /-- Time elapsed since the epoch, stored as a 64-bit integer. -/
  | timestamp (unit : TimeUnit)
  /-- Elapsed time, stored as a 64-bit integer. -/
  | duration (unit : TimeUnit)
  /-- A decimal number of `precision` digits, `scale` of them after the point, stored as
  the 128-bit integer that is `10 ^ scale` times the number. -/
  | decimal (precision scale : UInt8)
  /-- Opaque values of exactly `width` bytes each. -/
  | fixedSizeBinary (width : Nat)
  deriving DecidableEq

/-- How the slots of a logical type are stored. -/
inductive PhysicalType where
  | primitive (primitive : Primitive)
  | fixedSizeBinary (width : Nat)
  deriving DecidableEq

namespace TimeUnit

def text : TimeUnit → String
  | second => "Second"
  | millisecond => "Millisecond"
  | microsecond => "Microsecond"
  | nanosecond => "Nanosecond"

/-- The suffix that follows a number counted in the unit. -/
def suffix : TimeUnit → String
  | second => "s"
  | millisecond => "ms"
  | microsecond => "us"
  | nanosecond => "ns"

end TimeUnit

namespace Primitive

def all : List Primitive :=
  [int8, int16, int32, int64, int128, uint8, uint16, uint32, uint64, float32, float64]

def byteWidth : Primitive → Nat
  | int8 | uint8 => 1
  | int16 | uint16 => 2
  | int32 | uint32 | float32 => 4
  | int64 | uint64 | float64 => 8
  | int128 => 16

/-- The name of the primitive among the physical types. -/
def text : Primitive → String
  | int8 => "Int8"
  | int16 => "Int16"
  | int32 => "Int32"
  | int64 => "Int64"
  | int128 => "Int128"
  | uint8 => "UInt8"
  | uint16 => "UInt16"
  | uint32 => "UInt32"
  | uint64 => "UInt64"
  | float32 => "Float32"
  | float64 => "Float64"

/-- The name of the type of a single value of the primitive. -/
def valueTypeText : Primitive → String
  | int8 => "i8"
  | int16 => "i16"
  | int32 => "i32"
  | int64 => "i64"
  | int128 => "i128"
  | uint8 => "u8"
  | uint16 => "u16"
  | uint32 => "u32"
  | uint64 => "u64"
  | float32 => "f32"
  | float64 => "f64"

theorem byteWidth_pos (primitive : Primitive) : 0 < primitive.byteWidth := by
  cases primitive <;> decide

end Primitive

namespace PhysicalType

def byteWidth : PhysicalType → Nat
  | primitive p => p.byteWidth
  | fixedSizeBinary width => width

def text : PhysicalType → String
  | primitive p => s!"Primitive({p.text})"
  | fixedSizeBinary width => s!"FixedSizeBinary({width})"

end PhysicalType

namespace DataType

/-- The largest number of decimal digits that every 128-bit integer can hold. -/
def maxDecimalPrecision : UInt8 := 38

def physical : DataType → PhysicalType
  | int8 => .primitive .int8
  | int16 => .primitive .int16
  | int32 | date32 | time32 _ => .primitive .int32
  | int64 | date64 | time64 _ | timestamp _ | duration _ => .primitive .int64
  | uint8 => .primitive .uint8
  | uint16 => .primitive .uint16
  | uint32 => .primitive .uint32
  | uint64 => .primitive .uint64
  | float32 => .primitive .float32
  | float64 => .primitive .float64
  | decimal _ _ => .primitive .int128
  | fixedSizeBinary width => .fixedSizeBinary width

def byteWidth (dtype : DataType) : Nat :=
  dtype.physical.byteWidth

/-- A decimal has at most `maxDecimalPrecision` digits and no more digits after the point
than it has in all. Every other type is free of such bounds. -/
def HasValidParameters : DataType → Prop
  | decimal precision scale => precision ≤ maxDecimalPrecision ∧ scale ≤ precision
  | _ => True

instance : DecidablePred HasValidParameters
  | decimal precision scale =>
    inferInstanceAs (Decidable (precision ≤ maxDecimalPrecision ∧ scale ≤ precision))
  | int8 | int16 | int32 | int64 | uint8 | uint16 | uint32 | uint64 | float32 | float64
  | date32 | date64 | time32 _ | time64 _ | timestamp _ | duration _ | fixedSizeBinary _ =>
    isTrue trivial

/-- The logical type that a primitive stands for by itself. A 128-bit integer is a decimal
of full precision without digits after the point. -/
def ofPrimitive : Primitive → DataType
  | .int8 => int8
  | .int16 => int16
  | .int32 => int32
  | .int64 => int64
  | .int128 => decimal maxDecimalPrecision 0
  | .uint8 => uint8
  | .uint16 => uint16
  | .uint32 => uint32
  | .uint64 => uint64
  | .float32 => float32
  | .float64 => float64

def text : DataType → String
  | int8 => "Int8"
  | int16 => "Int16"
  | int32 => "Int32"
  | int64 => "Int64"
  | uint8 => "UInt8"
  | uint16 => "UInt16"
  | uint32 => "UInt32"
  | uint64 => "UInt64"
  | float32 => "Float32"
  | float64 => "Float64"
  | date32 => "Date32"
  | date64 => "Date64"
  | time32 unit => s!"Time32({unit.text})"
  | time64 unit => s!"Time64({unit.text})"
  | timestamp unit => s!"Timestamp({unit.text})"
  | duration unit => s!"Duration({unit.text})"
  | decimal precision scale => s!"Decimal({precision.toNat}, {scale.toNat})"
  | fixedSizeBinary width => s!"FixedSizeBinary({width})"

@[simp] theorem physical_ofPrimitive (primitive : Primitive) :
    (ofPrimitive primitive).physical = .primitive primitive := by
  cases primitive <;> rfl

theorem byteWidth_ofPrimitive (primitive : Primitive) :
    (ofPrimitive primitive).byteWidth = primitive.byteWidth := by
  rw [byteWidth, physical_ofPrimitive]
  rfl

theorem byteWidth_ofPrimitive_pos (primitive : Primitive) :
    0 < (ofPrimitive primitive).byteWidth :=
  (byteWidth_ofPrimitive primitive).symm ▸ primitive.byteWidth_pos

end DataType

end Columnar
