import Columnar.Proofs.Column.Transfer

/-!
# Calls on columns and their outcome

A call on a well-formed column has its effect or fails. What it leaves is well-formed in both cases
and holds the slots that a plain list of optional values would hold.
-/

namespace Columnar

/-! ## Lists of slots -/

namespace Slots

/-- The list with `value` at `index`, padded with nulls if it does not reach that far. -/
def put (slots : List (Option Bytes)) (index : Nat) (value : Option Bytes) : List (Option Bytes) :=
  (slots ++ List.replicate (index + 1 - slots.length) none).set index value

/-- The first `count` slots, padded with nulls if there are fewer. -/
def resize (slots : List (Option Bytes)) (count : Nat) : List (Option Bytes) :=
  slots.take count ++ List.replicate (count - slots.length) none

variable {slots : List (Option Bytes)}

theorem length_put (slots : List (Option Bytes)) (index : Nat) (value : Option Bytes) :
    (put slots index value).length = max slots.length (index + 1) := by
  simp only [put, List.length_set, List.length_append, List.length_replicate]
  omega

theorem getElem?_append_nulls (slots : List (Option Bytes)) {count i : Nat}
    (hi : i < slots.length + count) :
    (slots ++ List.replicate count none)[i]? = some slots[i]?.join := by
  by_cases hold : i < slots.length
  · rw [List.getElem?_append_left hold, List.getElem?_eq_getElem hold]
    rfl
  · have hnull : i - slots.length < count := by omega
    rw [List.getElem?_append_right (Nat.le_of_not_lt hold), List.getElem?_replicate_of_lt hnull,
      List.getElem?_eq_none (Nat.le_of_not_lt hold)]
    rfl

theorem getElem?_put {index i : Nat} {value : Option Bytes}
    (hi : i < max slots.length (index + 1)) :
    (put slots index value)[i]? = some (if i = index then value else slots[i]?.join) := by
  have hlength : i < slots.length + (index + 1 - slots.length) := by omega
  rw [put, List.getElem?_set]
  by_cases h : i = index
  · subst h
    rw [if_pos rfl, if_pos rfl, if_pos]
    rw [List.length_append, List.length_replicate]
    exact hlength
  · rw [if_neg (Ne.symm h), if_neg h, getElem?_append_nulls slots hlength]

theorem length_resize (slots : List (Option Bytes)) (count : Nat) :
    (resize slots count).length = count := by
  simp only [resize, List.length_append, List.length_take, List.length_replicate]
  omega

theorem getElem?_resize {count i : Nat} (hi : i < count) :
    (resize slots count)[i]? = some slots[i]?.join := by
  have hlength : i < (slots.take count).length + (count - slots.length) := by
    rw [List.length_take]
    omega
  rw [resize, getElem?_append_nulls _ hlength, List.getElem?_take_of_lt hi]

end Slots

namespace Column

variable {column source : Column} {index position : Nat}

/-- The list of slots says the same of any slot as the column. -/
theorem WellFormed.join_contents (h : column.WellFormed) (index : Nat) :
    column.contents[index]?.join = column.slot index := by
  rw [contents_getElem?]
  split
  · rfl
  · next hindex => exact (h.slot_eq_none (Nat.le_of_not_lt hindex)).symm

theorem WellFormed.contents_withSlot (h : column.WellFormed) (hindex : index < column.capacity)
    {value : Option Bytes} (hvalue : ∀ bytes, value = some bytes → bytes.size = column.width) :
    (column.withSlot index value).contents = Slots.put column.contents index value := by
  have hlength : (column.withSlot index value).length = max column.contents.length (index + 1) := by
    rw [length_contents]
    rfl
  apply contents_eq
  · rw [Slots.length_put, hlength]
  · intro i hi
    rw [hlength] at hi
    rw [Slots.getElem?_put hi, h.slot_withSlot hindex hvalue, h.join_contents]

theorem WellFormed.contents_resized (h : column.WellFormed) (count : Nat) :
    (column.resized count).contents = Slots.resize column.contents count := by
  apply contents_eq
  · exact Slots.length_resize _ _
  · intro i hi
    have hi : i < count := hi
    rw [Slots.getElem?_resize hi, h.slot_resized hi, h.join_contents]

theorem WellFormed.contents_withRoom (h : column.WellFormed) (index : Nat) :
    (column.withRoom index).contents = column.contents :=
  h.contents_grow _

theorem WellFormed.contents_withLength (h : column.WellFormed) {count : Nat}
    (hroom : 0 < count → (column.withRoom (count - 1)).WellFormed) :
    (column.withLength count).contents = Slots.resize column.contents count := by
  rw [withLength]
  by_cases hcount : 0 < count
  · rw [if_pos hcount, (hroom hcount).contents_resized, h.contents_withRoom]
  · rw [if_neg hcount]
    exact h.contents_resized count

/-! ## Calls -/

/-- A call that changes one column. -/
inductive Call where
  | set (index : Nat) (value : Bytes)
  | setGrowing (index : Nat) (value : Bytes)
  | setNull (index : Nat)
  | setNullGrowing (index : Nat)
  | setOption (index : Nat) (value : Option Bytes)
  | setOptionGrowing (index : Nat) (value : Option Bytes)
  | copyFrom (source : Column) (position index : Nat)
  | copyFromGrowing (source : Column) (position index : Nat)
  | reallocateExact (capacity : Nat)
  | allocateNew
  | allocateNewWith (capacity : Nat)
  | setInitialCapacity (capacity : Nat)
  | setLength (count : Nat)
  | clear

namespace Call

def run : Call → Action Column Unit
  | set index value => Column.set index value
  | setGrowing index value => Column.setGrowing index value
  | setNull index => Column.setNull index
  | setNullGrowing index => Column.setNullGrowing index
  | setOption index value => Column.setOption index value
  | setOptionGrowing index value => Column.setOptionGrowing index value
  | copyFrom source position index => Column.copyFrom source position index
  | copyFromGrowing source position index => Column.copyFromGrowing source position index
  | reallocateExact capacity => Column.reallocateExact capacity
  | allocateNew => Column.allocateNew
  | allocateNewWith capacity => Column.allocateNewWith capacity
  | setInitialCapacity capacity => Column.setInitialCapacity capacity
  | setLength count => Column.setLength count
  | clear => Column.clear

/-- The other column that the call reads. -/
def source? : Call → Option Column
  | copyFrom source _ _ | copyFromGrowing source _ _ => some source
  | _ => none

/-- What the call makes of the list of slots when it succeeds. -/
def onSlots (call : Call) (slots : List (Option Bytes)) : List (Option Bytes) :=
  match call with
  | set index value | setGrowing index value => Slots.put slots index (some value)
  | setNull index | setNullGrowing index => Slots.put slots index none
  | setOption index value | setOptionGrowing index value => Slots.put slots index value
  | copyFrom source position index | copyFromGrowing source position index =>
    match source.get? position with
    | .ok (some value) => Slots.put slots index (some value)
    | _ => slots
  | reallocateExact _ | setInitialCapacity _ => slots
  | allocateNew | allocateNewWith _ | clear => []
  | setLength count => Slots.resize slots count

/-- What the call leaves of the column when it fails. -/
def left (call : Call) (column : Column) : Column :=
  match call with
  | allocateNew | allocateNewWith _ => column.cleared
  | _ => column

/-- What the call leaves of the list of slots when it fails. -/
def leftSlots (call : Call) (slots : List (Option Bytes)) : List (Option Bytes) :=
  match call with
  | allocateNew | allocateNewWith _ => []
  | _ => slots

end Call

/-- A call on the column succeeded and left a well-formed one with the given slots. -/
structure Succeeded (column : Column) (outcome : Outcome Column Unit)
    (slots : List (Option Bytes)) : Prop where
  answer_eq : outcome.answer = .ok ()
  wellFormed : outcome.state.WellFormed
  dtype_eq : outcome.state.dtype = column.dtype
  contents_eq : outcome.state.contents = slots

/-- A call failed, reported nothing and left the given column. -/
def Failed (outcome : Outcome Column Unit) (left : Column) : Prop :=
  ∃ failure, outcome = ⟨.error failure, left, []⟩

/-! ## The outcome of each call -/

variable {allocator : Allocator} {value : Bytes} {slots : List (Option Bytes)}

theorem writeValue_succeeded (h : column.WellFormed) (hindex : index < column.capacity)
    (hvalue : value.size = column.width) :
    Succeeded column (writeValue index value allocator column)
      (Slots.put column.contents index (some value)) := by
  have hfits : ∀ bytes : Bytes, some value = some bytes → bytes.size = column.width := by
    rintro bytes ⟨⟩
    exact hvalue
  rw [writeValue_eq h hindex hvalue]
  exact ⟨rfl, h.withSlot hindex hfits, rfl, h.contents_withSlot hindex hfits⟩

theorem setNull_succeeded (h : column.WellFormed) (hindex : index < column.capacity) :
    Succeeded column (setNull index allocator column) (Slots.put column.contents index none) := by
  have hfits : ∀ bytes : Bytes, none = some bytes → bytes.size = column.width := by
    rintro bytes ⟨⟩
  rw [setNull_eq h hindex]
  exact ⟨rfl, h.withSlot hindex hfits, rfl, h.contents_withSlot hindex hfits⟩

theorem copySlot_succeeded (h : column.WellFormed) (hsource : source.WellFormed)
    (hwidth : column.width = source.width) (hindex : index < column.capacity) :
    Succeeded column (copySlot source position index allocator column)
      ((Call.copyFrom source position index).onSlots column.contents) := by
  rw [Call.onSlots, hsource.get?_eq_ok]
  cases hslot : source.slot position with
  | none =>
    rw [copySlot_of_none hsource hslot]
    exact ⟨rfl, h, rfl, rfl⟩
  | some value =>
    rw [copySlot_of_some hsource hslot]
    exact writeValue_succeeded h hindex ((hsource.size_of_slot hslot).trans hwidth.symm)

/-- A call that insists on a slot within the capacity succeeds there and fails elsewhere. -/
theorem outcome_within {outcome : Outcome Column Unit}
    (hin : index < column.capacity → Succeeded column outcome slots)
    (hout : column.capacity ≤ index → Failed outcome column) :
    Succeeded column outcome slots ∨ Failed outcome column := by
  by_cases hindex : index < column.capacity
  · exact .inl (hin hindex)
  · exact .inr (hout (Nat.le_of_not_lt hindex))

/-- A call that makes room before it acts succeeds unless there is no room to be had. -/
theorem outcome_afterRoom {next : Unit → Action Column Unit} (hallocator : allocator.IsBounded)
    (h : column.WellFormed)
    (hnext : ∀ roomy : Column, roomy.WellFormed → index < roomy.capacity →
      roomy.width = column.width → roomy.contents = column.contents →
      Succeeded roomy (next () allocator roomy) slots) :
    Succeeded column ((makeRoom index >>= next) allocator column) slots ∨
      Failed ((makeRoom index >>= next) allocator column) column := by
  obtain ⟨hroom, hroomy⟩ | ⟨cause, hrefused⟩ := makeRoom_cases hallocator h index
  · left
    have hsucceeded := hnext _ hroomy (lt_capacity_withRoom column index) (width_grow _ _)
      (h.contents_withRoom index)
    rw [Action.bind_apply_ok hroom]
    exact { hsucceeded with dtype_eq := hsucceeded.dtype_eq.trans (dtype_grow _ _) }
  · exact .inr ⟨_, Action.bind_apply_error hrefused⟩

/-- A call that checks a width goes on, or fails. -/
theorem outcome_checked {width : Nat} {next : Unit → Action Column Unit}
    (hnext : column.width = width →
      Succeeded column (next () allocator column) slots ∨
        Failed (next () allocator column) column) :
    Succeeded column ((liftM (column.checkWidth width) >>= next) allocator column) slots ∨
      Failed ((liftM (column.checkWidth width) >>= next) allocator column) column := by
  by_cases hwidth : column.width = width
  · rw [checkWidth_of_eq hwidth]
    exact hnext hwidth
  · rw [checkWidth_of_ne hwidth]
    exact .inr ⟨_, rfl⟩

theorem reallocateExact_outcome (hallocator : allocator.IsBounded) (h : column.WellFormed)
    (capacity : Nat) :
    Succeeded column (reallocateExact capacity allocator column) column.contents ∨
      Failed (reallocateExact capacity allocator column) column := by
  obtain ⟨hok, hgrown⟩ | ⟨cause, hrefused⟩ := reallocateExact_cases hallocator h capacity
  · rw [hok]
    exact .inl ⟨rfl, hgrown, dtype_grow _ _, h.contents_grow capacity⟩
  · exact .inr ⟨_, hrefused⟩

theorem contents_cleared (column : Column) : column.cleared.contents = [] :=
  rfl

theorem allocateNewWith_outcome (hallocator : allocator.IsBounded) (h : column.WellFormed)
    (capacity : Nat) :
    Succeeded column (allocateNewWith capacity allocator column) [] ∨
      Failed (allocateNewWith capacity allocator column) column.cleared := by
  obtain hsucceeded | hfailed := reallocateExact_outcome hallocator h.cleared capacity
  · exact .inl { hsucceeded with }
  · exact .inr hfailed

theorem set_outcome (h : column.WellFormed) (index : Nat) (value : Bytes) :
    Succeeded column (Column.set index value allocator column)
        (Slots.put column.contents index (some value)) ∨
      Failed (Column.set index value allocator column) column :=
  outcome_checked fun hwidth =>
    outcome_within (fun hindex => writeValue_succeeded h hindex hwidth.symm)
      (fun hout => ⟨_, writeValue_of_le hout⟩)

theorem setNull_outcome (h : column.WellFormed) (index : Nat) :
    Succeeded column (setNull index allocator column) (Slots.put column.contents index none) ∨
      Failed (setNull index allocator column) column :=
  outcome_within (setNull_succeeded h) (fun hout => ⟨_, setNull_of_le hout⟩)

theorem setGrowing_outcome (hallocator : allocator.IsBounded) (h : column.WellFormed)
    (index : Nat) (value : Bytes) :
    Succeeded column (setGrowing index value allocator column)
        (Slots.put column.contents index (some value)) ∨
      Failed (setGrowing index value allocator column) column := by
  apply outcome_checked
  intro hvalue
  apply outcome_afterRoom hallocator h
  intro roomy hroomy hindex hwidth hcontents
  rw [← hcontents]
  exact writeValue_succeeded hroomy hindex (hvalue.symm.trans hwidth.symm)

theorem setNullGrowing_outcome (hallocator : allocator.IsBounded) (h : column.WellFormed)
    (index : Nat) :
    Succeeded column (setNullGrowing index allocator column)
        (Slots.put column.contents index none) ∨
      Failed (setNullGrowing index allocator column) column := by
  apply outcome_afterRoom hallocator h
  intro roomy hroomy hindex _ hcontents
  rw [← hcontents]
  exact setNull_succeeded hroomy hindex

/-- The width is checked again once there is room, which makes no difference. -/
theorem setOptionGrowing_some (index : Nat) (value : Bytes) :
    setOptionGrowing index (some value) allocator column =
      (do
        (← getThe Column).checkWidth value.size
        makeRoom index
        Column.set index value : Action Column Unit) allocator column :=
  rfl

theorem setOptionGrowing_outcome (hallocator : allocator.IsBounded) (h : column.WellFormed)
    (index : Nat) (value : Option Bytes) :
    Succeeded column (setOptionGrowing index value allocator column)
        (Slots.put column.contents index value) ∨
      Failed (setOptionGrowing index value allocator column) column := by
  cases value with
  | none => exact setNullGrowing_outcome hallocator h index
  | some value =>
    rw [setOptionGrowing_some]
    apply outcome_checked
    intro hvalue
    apply outcome_afterRoom hallocator h
    intro roomy hroomy hindex hwidth hcontents
    have hfits : roomy.width = value.size := hwidth.trans hvalue
    rw [← hcontents, Column.set, Action.getThe_bind, checkWidth_of_eq hfits, Action.liftM_ok_bind]
    exact writeValue_succeeded hroomy hindex hfits.symm

/-- A null slot can be copied anywhere. Any other is written, which takes room. -/
theorem copyFrom_outcome (h : column.WellFormed) (hsource : source.WellFormed)
    (position index : Nat) :
    Succeeded column (copyFrom source position index allocator column)
        ((Call.copyFrom source position index).onSlots column.contents) ∨
      Failed (copyFrom source position index allocator column) column := by
  apply outcome_checked
  intro hwidth
  by_cases hindex : index < column.capacity
  · exact .inl (copySlot_succeeded h hsource hwidth hindex)
  · rw [Call.onSlots, hsource.get?_eq_ok]
    cases hslot : source.slot position with
    | none =>
      rw [copySlot_of_none hsource hslot]
      exact .inl ⟨rfl, h, rfl, rfl⟩
    | some value =>
      rw [copySlot_of_some hsource hslot]
      exact .inr ⟨_, writeValue_of_le (Nat.le_of_not_lt hindex)⟩

theorem copyFromGrowing_outcome (hallocator : allocator.IsBounded) (h : column.WellFormed)
    (hsource : source.WellFormed) (position index : Nat) :
    Succeeded column (copyFromGrowing source position index allocator column)
        ((Call.copyFromGrowing source position index).onSlots column.contents) ∨
      Failed (copyFromGrowing source position index allocator column) column := by
  apply outcome_checked
  intro hsame
  apply outcome_afterRoom hallocator h
  intro roomy hroomy hindex hwidth hcontents
  rw [← hcontents]
  exact copySlot_succeeded hroomy hsource (hwidth.trans hsame) hindex

theorem setLength_outcome (hallocator : allocator.IsBounded) (h : column.WellFormed)
    (count : Nat) :
    Succeeded column (setLength count allocator column) (Slots.resize column.contents count) ∨
      Failed (setLength count allocator column) column := by
  obtain ⟨hok, hroom, hresized⟩ | ⟨cause, hrefused⟩ := setLength_cases hallocator h count
  · rw [hok]
    exact .inl ⟨rfl, hresized, dtype_withLength _ _, h.contents_withLength hroom⟩
  · exact .inr ⟨_, hrefused⟩

theorem WellFormed.withInitialCapacity (h : column.WellFormed) (capacity : Nat) :
    { column with initialCapacity := capacity }.WellFormed :=
  { h with }

/-- Any call in any well-formed state has its effect on the slots, or it fails and leaves
what it leaves. -/
theorem Call.outcome (call : Call) (hallocator : allocator.IsBounded) (h : column.WellFormed)
    (hsource : ∀ source, call.source? = some source → source.WellFormed) :
    Succeeded column (call.run allocator column) (call.onSlots column.contents) ∨
      Failed (call.run allocator column) (call.left column) := by
  cases call with
  | set index value => exact set_outcome h index value
  | setGrowing index value => exact setGrowing_outcome hallocator h index value
  | setNull index => exact setNull_outcome h index
  | setNullGrowing index => exact setNullGrowing_outcome hallocator h index
  | setOption index value =>
    cases value with
    | none => exact setNull_outcome h index
    | some value => exact set_outcome h index value
  | setOptionGrowing index value => exact setOptionGrowing_outcome hallocator h index value
  | copyFrom source position index =>
    exact copyFrom_outcome h (hsource source rfl) position index
  | copyFromGrowing source position index =>
    exact copyFromGrowing_outcome hallocator h (hsource source rfl) position index
  | reallocateExact capacity => exact reallocateExact_outcome hallocator h capacity
  | allocateNew => exact allocateNewWith_outcome hallocator h column.initialCapacity
  | allocateNewWith capacity => exact allocateNewWith_outcome hallocator h capacity
  | setInitialCapacity capacity => exact .inl ⟨rfl, h.withInitialCapacity capacity, rfl, rfl⟩
  | setLength count => exact setLength_outcome hallocator h count
  | clear => exact .inl ⟨rfl, h.cleared, rfl, contents_cleared column⟩

/-- A failed call leaves a well-formed column with the slots that it says it leaves. -/
theorem Call.left_wellFormed (call : Call) (h : column.WellFormed) :
    (call.left column).WellFormed ∧ (call.left column).dtype = column.dtype ∧
      (call.left column).contents = call.leftSlots column.contents := by
  cases call with
  | allocateNew => exact ⟨h.cleared, rfl, contents_cleared column⟩
  | allocateNewWith _ => exact ⟨h.cleared, rfl, contents_cleared column⟩
  | _ => exact ⟨h, rfl, rfl⟩

theorem Call.run_wellFormed (call : Call) (hallocator : allocator.IsBounded)
    (h : column.WellFormed)
    (hsource : ∀ source, call.source? = some source → source.WellFormed) :
    (call.run allocator column).state.WellFormed ∧
      (call.run allocator column).state.dtype = column.dtype := by
  obtain hsucceeded | ⟨failure, hfailed⟩ := call.outcome hallocator h hsource
  · exact ⟨hsucceeded.wellFormed, hsucceeded.dtype_eq⟩
  · obtain ⟨hleft, hdtype, -⟩ := call.left_wellFormed h
    rw [hfailed]
    exact ⟨hleft, hdtype⟩

end Column

end Columnar
