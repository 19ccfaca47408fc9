import Columnar.Column.Write

/-!
# Handing slots from one column to another

A target takes over the buffers of a source of its width, or a copy of a range of its slots. It
keeps its own name, type and initial capacity.
-/

namespace Columnar

/-- A source that something is taken from and a target that it is given to. -/
structure Pair (α : Type) where
  source : α
  target : α

namespace Column

/-- Hands the buffers of the source over to the target. The source is left without slots. -/
def moveBuffers : Action (Pair Column) Unit :=
  modify fun pair =>
    { source := pair.source.cleared
      target :=
        { pair.target with
          validity := pair.source.validity
          values := pair.source.values
          length := pair.source.length
          capacity := pair.source.capacity } }

/-- Hands the buffers of the source over to a target of the same width. -/
def transfer : Action (Pair Column) Unit := do
  let pair ← getThe (Pair Column)
  pair.source.checkWidth pair.target.width
  moveBuffers

/-- Copies the slots from `start` to `start + length` of the source into buffers of their
own, and gives these to the target. -/
def splitInto (start length : Nat) : Action (Pair Column) Unit := do
  let source := (← getThe (Pair Column)).source
  let stop := start + length
  unless stop < Size.bound do raise (.splitOverflow start)
  unless stop ≤ source.length do
    raise (.splitOutOfBounds start stop source.name source.length)
  -- both buffers are complete before the target gives up its own
  let validity ← source.validity.slice start length
  Action.reserve .values 0 (← Size.mul length source.width)
  let values ← source.values.stretch (← Size.mul start source.width)
    (← Size.mul stop source.width)
  modify fun pair =>
    { pair with target := { pair.target with validity, values, length, capacity := length } }

/-- Copies the slots from `start` to `start + length` of the source into a target of the
same width. -/
def splitAndTransfer (start length : Nat) : Action (Pair Column) Unit := do
  let pair ← getThe (Pair Column)
  pair.source.checkWidth pair.target.width
  splitInto start length

/-- Two columns of the same width. -/
def pair (source target : Column) : Result (Pair Column) := do
  target.checkWidth source.width
  return ⟨source, target⟩

/-- Sets slot `index` of the target to slot `position` of the source, unless that is null,
after making room for it. -/
def copyValue (position index : Nat) : Action (Pair Column) Unit := do
  let source := (← getThe (Pair Column)).source
  Action.onPart Pair.target (fun pair target => { pair with target }) do
    makeRoom index
    copySlot source position index

end Column

end Columnar
