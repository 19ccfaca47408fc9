import Columnar.Proofs.TypedColumn

/-!
# What holds of every column

`Object.Reachable` is everything that constructors make and calls leave, also those that fail, with
any bounded allocator at each step.
-/

namespace Columnar

/-- What calls are made on: a column, a typed column or a pair of columns. -/
inductive Object where
  | column (column : Column)
  | typed {primitive : Primitive} (typed : TypedColumn primitive)
  | pair (pair : Pair Column)

namespace Object

def columns : Object → List Column
  | column single => [single]
  | typed outer => [outer.column]
  | pair both => [both.source, both.target]

/-- The objects that constructors make and calls leave. What a call leaves counts whatever its
answer is, and memory may be granted and refused differently in every step. -/
inductive Reachable : Object → Prop where
  | empty (name : String) (dtype : DataType) : Reachable (.column (Column.empty name dtype))
  | create {name : String} {dtype : DataType} {made : Column} :
      Column.create name dtype = .ok made → Reachable (.column made)
  | withCapacity {σ : Type} {state : σ} {allocator : Allocator} {name : String}
      {dtype : DataType} {capacity : Nat} {made : Column} : allocator.IsBounded →
      (Column.withCapacity name dtype capacity allocator state).answer = .ok made →
      Reachable (.column made)
  | emptyLike {column : Column} (name : String) :
      Reachable (.column column) → Reachable (.column (column.emptyLike name))
  | call {allocator : Allocator} {column : Column} (call : Column.Call) : allocator.IsBounded →
      Reachable (.column column) →
      (∀ source, call.source? = some source → Reachable (.column source)) →
      Reachable (.column (call.run allocator column).state)
  | handover_source {allocator : Allocator} {pair : Pair Column} (call : Column.Handover) :
      allocator.IsBounded → Reachable (.column pair.source) → Reachable (.column pair.target) →
      Reachable (.column (call.run allocator pair).state.source)
  | handover_target {allocator : Allocator} {pair : Pair Column} (call : Column.Handover) :
      allocator.IsBounded → Reachable (.column pair.source) → Reachable (.column pair.target) →
      Reachable (.column (call.run allocator pair).state.target)
  | pair {source target : Column} {made : Pair Column} : Reachable (.column source) →
      Reachable (.column target) → Column.pair source target = .ok made → Reachable (.pair made)
  | pairCall {allocator : Allocator} {pair : Pair Column} (call : Column.PairCall) :
      allocator.IsBounded → Reachable (.pair pair) →
      Reachable (.pair (call.run allocator pair).state)
  | pair_source {pair : Pair Column} : Reachable (.pair pair) → Reachable (.column pair.source)
  | pair_target {pair : Pair Column} : Reachable (.pair pair) → Reachable (.column pair.target)
  | typedEmpty {primitive : Primitive} (name : String) :
      Reachable (.typed (TypedColumn.empty name : TypedColumn primitive))
  | typedCreate {primitive : Primitive} {name : String} {dtype : DataType}
      {made : TypedColumn primitive} : TypedColumn.create name dtype = .ok made →
      Reachable (.typed made)
  | typedWithCapacity {σ : Type} {state : σ} {allocator : Allocator} {primitive : Primitive}
      {name : String} {capacity : Nat} {made : TypedColumn primitive} : allocator.IsBounded →
      (TypedColumn.withCapacity name capacity allocator state).answer = .ok made →
      Reachable (.typed made)
  | ofValues {σ : Type} {state : σ} {allocator : Allocator} {primitive : Primitive}
      {name : String} {values : List (Scalar primitive)} {made : TypedColumn primitive} :
      allocator.IsBounded →
      (TypedColumn.ofValues name values allocator state).answer = .ok made →
      Reachable (.typed made)
  | ofOptions {σ : Type} {state : σ} {allocator : Allocator} {primitive : Primitive}
      {name : String} {values : List (Option (Scalar primitive))} {made : TypedColumn primitive} :
      allocator.IsBounded →
      (TypedColumn.ofOptions name values allocator state).answer = .ok made →
      Reachable (.typed made)
  | ofColumn {primitive : Primitive} {column : Column} {made : TypedColumn primitive} :
      Reachable (.column column) → TypedColumn.ofColumn? column = .ok made →
      Reachable (.typed made)
  | typedCall {allocator : Allocator} {primitive : Primitive} {typed : TypedColumn primitive}
      (call : TypedColumn.Call primitive) : allocator.IsBounded → Reachable (.typed typed) →
      (∀ source, call.source? = some source → Reachable (.typed source)) →
      Reachable (.typed (call.run allocator typed).state)
  | typedHandover_source {allocator : Allocator} {primitive : Primitive}
      {pair : Pair (TypedColumn primitive)} (call : Column.Handover) : allocator.IsBounded →
      Reachable (.typed pair.source) → Reachable (.typed pair.target) →
      Reachable (.typed (TypedColumn.handOver call allocator pair).state.source)
  | typedHandover_target {allocator : Allocator} {primitive : Primitive}
      {pair : Pair (TypedColumn primitive)} (call : Column.Handover) : allocator.IsBounded →
      Reachable (.typed pair.source) → Reachable (.typed pair.target) →
      Reachable (.typed (TypedColumn.handOver call allocator pair).state.target)
  | toColumn {primitive : Primitive} {typed : TypedColumn primitive} :
      Reachable (.typed typed) → Reachable (.column typed.column)

/-- The columns in the object are well-formed, those of a pair have one width, and that of a
typed column has a type stored as the primitive. -/
def WellFormed : Object → Prop
  | column single => single.WellFormed
  | typed outer => outer.WellFormed
  | pair both =>
    both.source.WellFormed ∧ both.target.WellFormed ∧ both.source.width = both.target.width

end Object

namespace Column

variable {pair : Pair Column} {allocator : Allocator}

theorem pair_eq_ok {source target : Column} (h : Column.pair source target = .ok pair) :
    pair = ⟨source, target⟩ ∧ source.width = target.width := by
  by_cases hwidth : target.width = source.width
  · rw [Column.pair, checkWidth_of_eq hwidth] at h
    exact ⟨(Except.ok.inj h).symm, hwidth.symm⟩
  · rw [Column.pair, checkWidth_of_ne hwidth] at h
    cases h

theorem WellFormed.width_eq_of_dtype_eq {column other : Column} (h : column.WellFormed)
    (hother : other.WellFormed) (hdtype : column.dtype = other.dtype) :
    column.width = other.width := by
  rw [h.width_eq, hother.width_eq, hdtype]

/-- A call on a pair leaves two well-formed columns of the types that they had. -/
theorem PairCall.run_wellFormed (call : PairCall) (hallocator : allocator.IsBounded)
    (hsource : pair.source.WellFormed) (htarget : pair.target.WellFormed)
    (hwidth : pair.source.width = pair.target.width) :
    ((call.run allocator pair).state.source.WellFormed ∧
        (call.run allocator pair).state.source.dtype = pair.source.dtype) ∧
      (call.run allocator pair).state.target.WellFormed ∧
        (call.run allocator pair).state.target.dtype = pair.target.dtype := by
  obtain ⟨hsucceeded, -⟩ | ⟨failure, hfailed⟩ := call.outcome hallocator hsource htarget hwidth
  · obtain ⟨hleft, hdtype, -⟩ := call.leaves_wellFormed hsource
    rw [hsucceeded.source_eq]
    exact ⟨⟨hleft, hdtype⟩, hsucceeded.target_wellFormed, hsucceeded.target_dtype_eq⟩
  · rw [hfailed]
    exact ⟨⟨hsource, rfl⟩, htarget, rfl⟩

theorem Handover.run_wellFormed (call : Handover) (hallocator : allocator.IsBounded)
    (hsource : pair.source.WellFormed) (htarget : pair.target.WellFormed) :
    (call.run allocator pair).state.source.WellFormed ∧
      (call.run allocator pair).state.target.WellFormed := by
  by_cases hwidth : pair.source.width = pair.target.width
  · rw [call.run_of_eq hwidth]
    obtain ⟨⟨hleft, -⟩, hright, -⟩ := call.checked.run_wellFormed hallocator hsource htarget hwidth
    exact ⟨hleft, hright⟩
  · obtain ⟨failure, hfailed⟩ : PairFailed pair (call.run allocator pair) := call.run_of_ne hwidth
    rw [hfailed]
    exact ⟨hsource, htarget⟩

end Column

namespace TypedColumn

variable {primitive : Primitive} {pair : Pair (TypedColumn primitive)} {allocator : Allocator}

theorem handOver_wellFormed (call : Column.Handover) (hallocator : allocator.IsBounded)
    (hsource : pair.source.WellFormed) (htarget : pair.target.WellFormed) :
    (handOver call allocator pair).state.source.WellFormed ∧
      (handOver call allocator pair).state.target.WellFormed := by
  have hwidth : pair.source.column.width = pair.target.column.width :=
    hsource.width_eq.trans htarget.width_eq.symm
  obtain ⟨⟨hleft, hleftType⟩, hright, hrightType⟩ :=
    @Column.PairCall.run_wellFormed ⟨pair.source.column, pair.target.column⟩ allocator
      call.checked hallocator hsource.column htarget.column hwidth
  rw [handOver_eq]
  exact ⟨⟨hleft, (congrArg DataType.physical hleftType).trans hsource.physical_eq⟩,
    hright, (congrArg DataType.physical hrightType).trans htarget.physical_eq⟩

end TypedColumn

namespace Object

/-- Whatever constructors make and calls leave is well-formed. -/
theorem Reachable.wellFormed {object : Object} (h : object.Reachable) : object.WellFormed := by
  induction h with
  | empty name dtype => exact Column.wellFormed_empty name dtype
  | create hmade =>
    obtain ⟨-, rfl⟩ := Column.create_eq_ok hmade
    exact Column.wellFormed_empty _ _
  | withCapacity hallocator hmade => exact (Column.withCapacity_eq_ok hallocator hmade).2
  | emptyLike name _ _ => exact Column.wellFormed_empty name _
  | call call hallocator _ _ ihcolumn ihsource =>
    exact (call.run_wellFormed hallocator ihcolumn ihsource).1
  | handover_source call hallocator _ _ ihsource ihtarget =>
    exact (call.run_wellFormed hallocator ihsource ihtarget).1
  | handover_target call hallocator _ _ ihsource ihtarget =>
    exact (call.run_wellFormed hallocator ihsource ihtarget).2
  | pair _ _ hmade ihsource ihtarget =>
    obtain ⟨rfl, hwidth⟩ := Column.pair_eq_ok hmade
    exact ⟨ihsource, ihtarget, hwidth⟩
  | pairCall call hallocator _ ih =>
    obtain ⟨hsource, htarget, hwidth⟩ := ih
    obtain ⟨⟨hleft, hleftType⟩, hright, hrightType⟩ :=
      call.run_wellFormed hallocator hsource htarget hwidth
    refine ⟨hleft, hright, ?_⟩
    -- the types are kept, and with them the widths
    rw [hleft.width_eq_of_dtype_eq hsource hleftType,
      hright.width_eq_of_dtype_eq htarget hrightType]
    exact hwidth
  | pair_source _ ih => exact ih.1
  | pair_target _ ih => exact ih.2.1
  | typedEmpty name => exact TypedColumn.wellFormed_empty name
  | typedCreate hmade => exact TypedColumn.create_eq_ok hmade
  | typedWithCapacity hallocator hmade => exact (TypedColumn.withCapacity_eq_ok hallocator hmade).2
  | ofValues hallocator hmade => exact TypedColumn.ofValues_eq_ok hallocator hmade
  | ofOptions hallocator hmade => exact TypedColumn.ofOptions_eq_ok hallocator hmade
  | ofColumn _ hmade ih => exact TypedColumn.ofColumn?_eq_ok ih hmade
  | typedCall call hallocator _ _ ihtyped ihsource =>
    exact call.run_wellFormed hallocator ihtyped ihsource
  | typedHandover_source call hallocator _ _ ihsource ihtarget =>
    exact (TypedColumn.handOver_wellFormed call hallocator ihsource ihtarget).1
  | typedHandover_target call hallocator _ _ ihsource ihtarget =>
    exact (TypedColumn.handOver_wellFormed call hallocator ihsource ihtarget).2
  | toColumn _ ih => exact ih.column

theorem WellFormed.of_mem {object : Object} (h : object.WellFormed) {column : Column}
    (hmem : column ∈ object.columns) : column.WellFormed := by
  cases object with
  | column single =>
    obtain rfl := List.mem_singleton.mp hmem
    exact h
  | typed outer =>
    obtain rfl := List.mem_singleton.mp hmem
    exact h.column
  | pair both =>
    obtain rfl | hmem := List.mem_cons.mp hmem
    · exact h.1
    · obtain rfl := List.mem_singleton.mp hmem
      exact h.2.1

/-- Both buffers of every column fit its capacity, the column ends within it, and no bit from
the length on is set, so that only slots of the column hold values. -/
theorem Reachable.layout {object : Object} (h : object.Reachable) {column : Column}
    (hmem : column ∈ object.columns) :
    column.width = column.dtype.byteWidth ∧
      column.values.size = column.capacity * column.width ∧
      column.validity.bytes.size = (column.capacity + 7) / 8 ∧
      column.length ≤ column.capacity ∧
      (∀ index, column.length ≤ index → index < column.validity.bytes.size * 8 →
        column.validity.get index = .ok false) ∧
      ∀ index, ∃ valid, column.isValid index = .ok valid ∧
        (valid = true → index < column.length) := by
  have hcolumn := h.wellFormed.of_mem hmem
  refine ⟨hcolumn.width_eq, hcolumn.size_values, hcolumn.size_validity, hcolumn.length_le, ?_, ?_⟩
  · intro index hpast hindex
    rw [Bitmap.get_eq_ok hindex, hcolumn.bit_eq_false index hpast]
  · intro index
    exact ⟨_, hcolumn.isValid_eq_ok index, hcolumn.lt_length_of_bit⟩

/-- A column of one byte of bits whose fourth slot was written and then cut off. -/
theorem layout_of_shortened :
    let column := ((Column.Call.setLength 1).run .standard
      ((Column.Call.setGrowing 3 #[7, 0]).run .standard (Column.empty "a" .int16)).state).state
    (Object.column column).Reachable ∧ column.values.size = 4 * 2 ∧
      column.validity.bytes.size = 1 ∧ column.validity.get 3 = .ok false := by
  intro column
  have hreachable : (Object.column column).Reachable := by
    refine .call (.setLength 1) Allocator.isBounded_standard ?_ ?_
    · refine .call (.setGrowing 3 #[7, 0]) Allocator.isBounded_standard (.empty "a" .int16) ?_
      rintro _ ⟨⟩
    · rintro _ ⟨⟩
  obtain ⟨-, hvalues, hvalidity, -, hbits, -⟩ := hreachable.layout (List.mem_singleton.mpr rfl)
  have hcapacity : column.capacity = 4 := by decide
  have hwidth : column.width = 2 := by decide
  rw [hcapacity, hwidth] at hvalues
  rw [hcapacity] at hvalidity
  exact ⟨hreachable, hvalues, hvalidity, hbits 3 (by decide) (by decide)⟩

end Object

end Columnar
