import Columnar.Proofs.TypedColumn.Reading

/-!
# Programs on typed columns

A program keeps columns in numbered places and works on them step by step. It can be carried out on
typed columns, or on plain columns with every value passed as its bytes.
-/

namespace Columnar

namespace Column

/-- The columns that constructors make and calls leave, whatever the answers are and however
memory is granted. Creating a column of a checked type gives an empty one, a column with
capacity is an empty one after `Call.reallocateExact`, and a call on two columns of different
widths changes neither. -/
inductive Made : Column → Prop where
  | empty (name : String) (dtype : DataType) : Made (Column.empty name dtype)
  | call (call : Call) (allocator : Allocator) {column : Column} : Made column →
      Made (call.run allocator column).state
  | pair_source (call : PairCall) (allocator : Allocator) {pair : Pair Column} :
      Made pair.source → Made pair.target → pair.source.width = pair.target.width →
      Made (call.run allocator pair).state.source
  | pair_target (call : PairCall) (allocator : Allocator) {pair : Pair Column} :
      Made pair.source → Made pair.target → pair.source.width = pair.target.width →
      Made (call.run allocator pair).state.target
  | ofValues {primitive : Primitive} {σ : Type} {state : σ} {allocator : Allocator}
      {name : String} {values : List (Scalar primitive)} {made : TypedColumn primitive} :
      (TypedColumn.ofValues name values allocator state).answer = .ok made → Made made.column

end Column

namespace TypedColumn

variable {primitive : Primitive} {σ α : Type} {state : σ} {allocator : Allocator}
  {typed : TypedColumn primitive} {name : String}

/-- Memory of any amount may be granted, and there is room for as many slots as were asked
for. -/
theorem withCapacity_keeps {capacity : Nat}
    (h : (withCapacity name capacity allocator state).answer = .ok typed) :
    (Column.empty name (.ofPrimitive primitive)).Keeps typed.column ∧
      capacity ≤ typed.column.capacity := by
  obtain ⟨hanswer, rfl⟩ := Action.build_eq_ok h
  obtain ⟨hkeeps, hcapacity⟩ := Column.reallocateExact_keeps allocator
    (Column.wellFormed_empty name (.ofPrimitive primitive)).measured capacity
  exact ⟨hkeeps, hcapacity hanswer⟩

/-- Filling a column overwrites its values in their place. -/
theorem fill_keeps {column : Column} (h : column.Measured) (bytes : Bytes) {count : Nat}
    (hcount : count ≤ column.capacity) :
    column.Keeps (fill bytes count allocator column).state := by
  rw [fill, Action.getThe_bind]
  by_cases hbytes : bytes.size = column.values.size
  · simp only [if_pos hbytes, Action.modify_bind, Action.getThe_bind]
    have hwritten := h.written hbytes rfl
    apply Action.leaves_liftM_bind column.Keeps hwritten
    intro validity hput
    have hput := hwritten.measured.written rfl (Bitmap.size_of_putRun hput)
    exact (hwritten.trans hput).trans (hput.measured.endingAt hcount)
  · rw [if_neg hbytes, Action.breach_bind]
    exact h.keeps

theorem ofValues_measured {values : List (Scalar primitive)}
    (h : (ofValues name values allocator state).answer = .ok typed) : typed.column.Measured := by
  obtain ⟨blank, hblank, hbuild⟩ := Action.bind_answer_eq_ok h
  obtain ⟨hkeeps, hcapacity⟩ := withCapacity_keeps hblank
  obtain ⟨-, rfl⟩ := Action.build_eq_ok hbuild
  exact (fill_keeps hkeeps.measured _ hcapacity).measured

end TypedColumn

theorem Column.Made.measured {column : Column} (h : column.Made) : column.Measured := by
  induction h with
  | empty name dtype => exact (Column.wellFormed_empty name dtype).measured
  | call call allocator _ ih => exact (call.run_keeps allocator ih).measured
  | pair_source call allocator _ _ hwidth ihsource ihtarget =>
    exact (call.run_keeps allocator ihsource ihtarget hwidth).1.measured
  | pair_target call allocator _ _ hwidth ihsource ihtarget =>
    exact (call.run_keeps allocator ihsource ihtarget hwidth).2.measured
  | ofValues hmade => exact TypedColumn.ofValues_measured hmade

/-- Sets consecutive slots from `start` on. -/
def Column.setOptions (start : Nat) : (values : List (Option Bytes)) → Action Column Unit
  | [] => pure ()
  | value :: rest => do
    Column.setOption start value
    setOptions (start + 1) rest

namespace TypedColumn

variable {primitive : Primitive} {α : Type}

/-- A way to make a typed column. -/
inductive Origin (primitive : Primitive) where
  | empty (name : String)
  | create (name : String) (dtype : DataType)
  | withCapacity (name : String) (capacity : Nat)
  | ofOptions (name : String) (values : List (Option (Scalar primitive)))
  | ofColumn (column : Column) (made : column.Made)

/-- A call that changes one typed column and reads no other. -/
abbrev LocalCall (primitive : Primitive) :=
  { call : Call primitive // call.source? = none }

/-- One step of a program that keeps columns in numbered places. -/
inductive Step (primitive : Primitive) where
  | make (place : Nat) (origin : Origin primitive)
  | call (place : Nat) (request : LocalCall primitive)
  | copy (source target : Nat) (growing : Bool) (position index : Nat)
  | handOver (source target : Nat) (request : Column.Handover)
  /-- A call on the column that the typed column was, which is then made a typed one again. -/
  | unwrapped (place : Nat) (request : Column.Call)

/-- What stands in each place. -/
abbrev Shelf (α : Type) := Nat → Option α

namespace Shelf

def bare : Shelf α := fun _ => none

/-- Puts what is made in a place. -/
def put (place : Nat) (making : Action Unit α) : Action (Shelf α) Unit :=
  fun allocator shelf =>
    match making allocator () with
    | ⟨.ok column, _, events⟩ => ⟨.ok (), Function.update shelf place (some column), events⟩
    | ⟨.error failure, _, events⟩ => ⟨.error failure, shelf, events⟩

/-- A call on what stands in a place. -/
def act (place : Nat) (call : Action α Unit) : Action (Shelf α) Unit :=
  fun allocator shelf =>
    match shelf place with
    | some column =>
      let outcome := call allocator column
      ⟨outcome.answer, Function.update shelf place (some outcome.state), outcome.events⟩
    | none => ⟨.ok (), shelf, []⟩

/-- A call on what stands in two places. -/
def actOnPair (source target : Nat) (call : Action (Pair α) Unit) : Action (Shelf α) Unit :=
  fun allocator shelf =>
    match shelf source, shelf target with
    | some first, some second =>
      let outcome := call allocator ⟨first, second⟩
      ⟨outcome.answer,
        Function.update (Function.update shelf source (some outcome.state.source)) target
          (some outcome.state.target),
        outcome.events⟩
    | _, _ => ⟨.ok (), shelf, []⟩

/-- The columns beneath the typed columns. -/
def erase (shelf : Shelf (TypedColumn primitive)) : Shelf Column :=
  fun place => (shelf place).map TypedColumn.column

end Shelf

/-- How steps are carried out on columns of some kind. -/
structure Interpretation (primitive : Primitive) (α : Type) where
  make : Origin primitive → Action Unit α
  call : LocalCall primitive → Action α Unit
  copy : (growing : Bool) → (source : α) → (position index : Nat) → Action α Unit
  handOver : Column.Handover → Action (Pair α) Unit
  unwrapped : Column.Call → Action α Unit

def Step.run (step : Step primitive) (on : Interpretation primitive α) : Action (Shelf α) Unit :=
  match step with
  | make place origin => Shelf.put place (on.make origin)
  | call place request => Shelf.act place (on.call request)
  | copy source target growing position index => fun allocator shelf =>
    match shelf source with
    | some column => Shelf.act target (on.copy growing column position index) allocator shelf
    | none => ⟨.ok (), shelf, []⟩
  | handOver source target request => Shelf.actOnPair source target (on.handOver request)
  | unwrapped place request => Shelf.act place (on.unwrapped request)

/-- The steps one after the other, each with an allocator of its own. -/
abbrev Program (primitive : Primitive) := List (Allocator × Step primitive)

/-- The answers and events of all steps, and what they leave in each place. -/
def Program.run (on : Interpretation primitive α) :
    Program primitive → Shelf α → List (Result Unit × List Event) × Shelf α
  | [], shelf => ([], shelf)
  | (allocator, step) :: rest, shelf =>
    let outcome := step.run on allocator shelf
    let later := Program.run on rest outcome.state
    ((outcome.answer, outcome.events) :: later.1, later.2)

def Origin.make : Origin primitive → Action Unit (TypedColumn primitive)
  | empty name => pure (TypedColumn.empty name)
  | create name dtype => liftM (TypedColumn.create name dtype : Result (TypedColumn primitive))
  | withCapacity name capacity => TypedColumn.withCapacity name capacity
  | ofOptions name values => TypedColumn.ofOptions name values
  | ofColumn column _ => liftM (TypedColumn.ofColumn? column : Result (TypedColumn primitive))

/-- The column made without the knowledge of what its slots hold, after the check of its type
if there is one. -/
def Origin.makeColumn : Origin primitive → Action Unit Column
  | empty name => pure (Column.empty name (.ofPrimitive primitive))
  | create name dtype => do
    checkType primitive dtype
    Column.create name dtype
  | withCapacity name capacity => Column.withCapacity name (.ofPrimitive primitive) capacity
  | ofOptions name values => do
    let blank ← Column.withCapacity name (.ofPrimitive primitive) values.length
    Action.build blank (Column.setOptions 0 (values.map (Option.map Scalar.toBytes)))
  | ofColumn column _ => do
    checkType primitive column.dtype
    return column

/-- A call on the column beneath, from which the typed column is made anew. -/
def unwrapped (call : Column.Call) : Action (TypedColumn primitive) Unit :=
  fun allocator typed =>
    let outcome := call.run allocator typed.column
    match (ofColumn? outcome.state : Result (TypedColumn primitive)) with
    | .ok again => ⟨outcome.answer, again, outcome.events⟩
    | .error failure => ⟨.error failure, typed, outcome.events⟩

namespace Interpretation

def typed : Interpretation primitive (TypedColumn primitive) where
  make := Origin.make
  call call := call.1.run
  copy growing source position index :=
    if growing then TypedColumn.copyFromGrowing source position index
    else TypedColumn.copyFrom source position index
  handOver := TypedColumn.handOver
  unwrapped := TypedColumn.unwrapped

/-- The same calls on plain columns, with all their checks and with every value passed as its
bytes. -/
def erased : Interpretation primitive Column where
  make := Origin.makeColumn
  call call := call.1.erase.run
  copy growing source position index :=
    if growing then Column.copyFromGrowing source position index
    else Column.copyFrom source position index
  handOver := Column.Handover.run
  unwrapped := Column.Call.run

end Interpretation

end TypedColumn

end Columnar
