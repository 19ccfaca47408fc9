import Columnar.Proofs.Column.PairCall

/-!
# Columns under any allocator

An allocator that is not bounded may grant so many slots without bytes that a bitmap has no bit for
each. What is left of well-formed columns then is that they are measured.
-/

namespace Columnar

namespace Action

variable {σ α β : Type} {allocator : Allocator} {state : σ}

/-- What a sequence of two calls leaves is what the first leaves, if that fails, or else what
the second leaves. -/
theorem leaves_bind {first : Action σ α} {next : α → Action σ β} (post : σ → Prop)
    (hfirst : post (first allocator state).state)
    (hnext : ∀ value, (first allocator state).answer = .ok value →
      post (next value allocator (first allocator state).state).state) :
    post ((first >>= next) allocator state).state := by
  rcases hcase : first allocator state with ⟨failure | value, after, events⟩
  · rw [hcase] at hfirst
    rw [bind_apply_error hcase]
    exact hfirst
  · rw [hcase] at hnext
    rw [bind_apply_ok hcase]
    exact hnext value rfl

theorem leaves_liftM_bind {result : Result α} {next : α → Action σ β} (post : σ → Prop)
    (hstate : post state)
    (hnext : ∀ value, result = .ok value → post (next value allocator state).state) :
    post ((liftM result >>= next) allocator state).state :=
  leaves_bind post hstate hnext

end Action

namespace Column

/-- The value buffer holds the slots up to the capacity, no more than a buffer can hold, and
the column ends within the capacity. Slots that have bytes also have a bit each. -/
structure Measured (column : Column) : Prop where
  width_eq : column.width = column.dtype.byteWidth
  size_values : column.values.size = column.capacity * column.width
  size_le : column.values.size ≤ Allocator.maxSize
  length_le : column.length ≤ column.capacity
  capacity_le : 0 < column.width → column.capacity ≤ column.validity.bytes.size * 8

/-- The column that a call left is measured and of the type that it was. -/
structure Keeps (column after : Column) : Prop where
  measured : after.Measured
  dtype_eq : after.dtype = column.dtype

variable {column source after : Column} {allocator : Allocator} {capacity index position : Nat}
  {value : Bytes}

theorem WellFormed.measured (h : column.WellFormed) : column.Measured where
  width_eq := h.width_eq
  size_values := h.size_values
  size_le := by
    have hvalues := h.values_lt
    simp only [Allocator.standardLimit, Allocator.maxSize] at hvalues ⊢
    omega
  length_le := h.length_le
  capacity_le := fun _ => h.capacity_le

theorem Keeps.trans {later : Column} (h : column.Keeps after) (hlater : after.Keeps later) :
    column.Keeps later :=
  ⟨hlater.measured, hlater.dtype_eq.trans h.dtype_eq⟩

namespace Measured

theorem keeps (h : column.Measured) : column.Keeps column :=
  ⟨h, rfl⟩

/-- The width of a measured column is settled by its type. -/
theorem width_eq_of_keeps (h : column.Measured) (hafter : column.Keeps after) :
    after.width = column.width := by
  rw [hafter.measured.width_eq, hafter.dtype_eq, h.width_eq]

theorem capacity_le_maxSize (h : column.Measured) (hwidth : 0 < column.width) :
    column.capacity ≤ Allocator.maxSize := by
  have hvalues := h.size_le
  rw [h.size_values] at hvalues
  exact Nat.le_trans (Nat.le_mul_of_pos_right _ hwidth) hvalues

/-- Slots that have bytes are within reach up to the capacity. -/
theorem reaches (h : column.Measured) (hwidth : 0 < column.width)
    (hindex : index < column.capacity) : column.Reaches index := by
  have hend : (index + 1) * column.width ≤ column.values.size := by
    rw [h.size_values]
    exact Nat.mul_le_mul_right _ hindex
  have hsize := h.size_le
  have hcapacity := h.capacity_le_maxSize hwidth
  simp only [Allocator.maxSize] at hsize hcapacity
  exact
    { index_lt := hindex
      bit_lt := Nat.lt_of_lt_of_le hindex (h.capacity_le hwidth)
      end_le := hend
      end_lt := by
        simp only [Size.bound]
        omega
      next_lt := by
        simp only [Size.bound]
        omega }

theorem size_of_get? (h : column.Measured) (hwidth : 0 < column.width) (index : Nat) :
    ∃ slot, column.get? index = .ok slot ∧
      ∀ bytes, slot = some bytes → bytes.size = column.width ∧
        column.slotBytes index = .ok bytes := by
  rcases Nat.lt_or_ge index column.capacity with hindex | hpast
  · have hreaches := h.reaches hwidth hindex
    refine ⟨column.slot index, hreaches.get?_eq_ok, ?_⟩
    intro bytes hslot
    refine ⟨hreaches.size_of_slot hslot, ?_⟩
    rw [hreaches.slotBytes_eq_ok]
    unfold slot at hslot
    split at hslot
    · rw [Option.some.inj hslot]
    · cases hslot
  · refine ⟨none, ?_, by rintro _ ⟨⟩⟩
    rw [Column.get?, isValid, if_neg (Nat.not_lt_of_le hpast)]
    rfl

/-- The values of all slots of the column can be had in one piece. -/
theorem valueBytes_eq_ok (h : column.Measured) :
    column.valueBytes = .ok (column.values.extract 0 (column.length * column.width)) ∧
      column.length * column.width ≤ column.values.size := by
  have hstop : column.length * column.width ≤ column.values.size := by
    rw [h.size_values]
    exact Nat.mul_le_mul_right _ h.length_le
  have hlt : column.length * column.width < Size.bound := by
    have hsize := h.size_le
    simp only [Allocator.maxSize, Size.bound] at hsize ⊢
    omega
  refine ⟨?_, hstop⟩
  rw [valueBytes, Size.mul_eq_ok hlt, ok_bind, Bytes.stretch_eq_ok (Nat.zero_le _) hstop]

theorem cleared (h : column.Measured) : column.Keeps column.cleared :=
  ⟨{ WellFormed.measured (wellFormed_empty column.name column.dtype) with
      width_eq := h.width_eq
      size_values := by simp [Column.cleared]
      capacity_le := fun _ => Nat.zero_le _ }, rfl⟩

/-- Values may change in place, and bits may. -/
theorem written (h : column.Measured) {values : Bytes} {validity : Bitmap}
    (hvalues : values.size = column.values.size)
    (hvalidity : validity.bytes.size = column.validity.bytes.size) :
    column.Keeps { column with values, validity } :=
  ⟨{ width_eq := h.width_eq
     size_values := hvalues.trans h.size_values
     size_le := Nat.le_trans (Nat.le_of_eq hvalues) h.size_le
     length_le := h.length_le
     capacity_le := by
      intro hwidth
      show column.capacity ≤ validity.bytes.size * 8
      rw [hvalidity]
      exact h.capacity_le hwidth }, rfl⟩

theorem endingAt (h : column.Measured) {length : Nat} (hlength : length ≤ column.capacity) :
    column.Keeps { column with length } :=
  ⟨{ h with length_le := hlength }, rfl⟩

theorem grow (h : column.Measured) (hvalues : capacity * column.width ≤ Allocator.maxSize) :
    column.Keeps (column.grow capacity) := by
  by_cases hroom : capacity ≤ column.capacity
  · rw [Column.grow, if_pos hroom]
    exact h.keeps
  have hmore : column.values.size ≤ capacity * column.width := by
    rw [h.size_values]
    exact Nat.mul_le_mul_right _ (Nat.le_of_not_le hroom)
  have hsize : (column.values ++
      Bytes.zeros (capacity * column.width - column.values.size)).size =
        capacity * column.width := by
    rw [Array.size_append, Bytes.size_zeros]
    omega
  rw [Column.grow, if_neg hroom]
  refine ⟨?_, rfl⟩
  exact
    { width_eq := h.width_eq
      size_values := hsize
      size_le := Nat.le_trans (Nat.le_of_eq hsize) hvalues
      length_le := Nat.le_trans h.length_le (Nat.le_of_not_le hroom)
      capacity_le := by
        intro hwidth
        have hcapacity : capacity ≤ Allocator.maxSize :=
          Nat.le_trans (Nat.le_mul_of_pos_right _ hwidth) hvalues
        show capacity ≤ (column.validity.extend capacity).bytes.size * 8
        rw [Bitmap.size_extend, Bits.bytesFor_of_le_maxSize hcapacity]
        omega }

/-- The target takes over the buffers of a source of its width. -/
theorem holding {target : Column} (htarget : target.Measured) (hsource : source.Measured)
    (hwidth : source.width = target.width) : target.Keeps (target.holding source) :=
  ⟨{ width_eq := htarget.width_eq
     size_values := by
      show source.values.size = source.capacity * target.width
      rw [← hwidth]
      exact hsource.size_values
     size_le := hsource.size_le
     length_le := hsource.length_le
     capacity_le := by
      intro hpos
      exact hsource.capacity_le (hwidth ▸ hpos) }, rfl⟩

theorem withPart {target : Column} {start length : Nat} {part : Bitmap}
    (htarget : target.Measured) (hsource : source.Measured)
    (hwidth : source.width = target.width) (hin : start + length ≤ source.length)
    (hpart : 0 < target.width → length ≤ part.bytes.size * 8) :
    target.Keeps (target.withPart source part start length) := by
  have hstop : (start + length) * source.width ≤ source.values.size := by
    rw [hsource.size_values]
    exact Nat.mul_le_mul_right _ (Nat.le_trans hin hsource.length_le)
  have hvalues : (target.withPart source part start length).values.size =
      length * source.width := size_withPart hstop part
  have hbelow : length * source.width ≤ (start + length) * source.width :=
    Nat.mul_le_mul_right _ (Nat.le_add_left length start)
  refine ⟨?_, rfl⟩
  exact
    { width_eq := htarget.width_eq
      size_values := hvalues.trans (congrArg (length * ·) hwidth)
      size_le := by
        rw [hvalues]
        exact Nat.le_trans hbelow (Nat.le_trans hstop hsource.size_le)
      length_le := Nat.le_refl length
      capacity_le := hpart }

end Measured

/-! ## What calls leave -/

/-- A measured column grows to the capacity asked for, or memory was refused and it is as it
was. -/
theorem reallocateExact_of_measured (allocator : Allocator) (h : column.Measured)
    (capacity : Nat) :
    (reallocateExact capacity allocator column =
        ⟨.ok (), column.grow capacity, column.growth capacity⟩ ∧
        column.Keeps (column.grow capacity)) ∨
      ∃ cause, reallocateExact capacity allocator column =
        ⟨.error (.error (.raised cause)), column, []⟩ := by
  rcases Nat.lt_or_ge column.capacity capacity with hmore | hroom
  · have hsize : column.values.size ≤ capacity * column.width := by
      rw [h.size_values]
      exact Nat.mul_le_mul_right _ (Nat.le_of_lt hmore)
    obtain ⟨hok, hvalues, -⟩ | hrefused := reallocateExact_of_lt allocator hmore hsize
    · have hfits : capacity * column.width ≤ Allocator.maxSize := by
        rcases hvalues with hheld | ⟨hmax, -⟩
        · exact Nat.le_trans hheld h.size_le
        · exact hmax
      exact .inl ⟨hok, h.grow hfits⟩
    · exact .inr hrefused
  · rw [reallocateExact_of_le hroom, Column.grow, growth, if_pos hroom, if_pos hroom]
    exact .inl ⟨rfl, h.keeps⟩

theorem makeRoom_of_measured (allocator : Allocator) (h : column.Measured) (index : Nat) :
    (makeRoom index allocator column =
        ⟨.ok (), column.withRoom index, column.growth (column.roomFor index)⟩ ∧
        column.Keeps (column.withRoom index)) ∨
      ∃ cause, makeRoom index allocator column =
        ⟨.error (.error (.raised cause)), column, []⟩ := by
  obtain hgrow | htoo := makeRoom_eq allocator column index
  · rw [hgrow]
    exact reallocateExact_of_measured allocator h (column.roomFor index)
  · exact .inr ⟨_, htoo⟩

theorem reallocateExact_keeps (allocator : Allocator) (h : column.Measured) (capacity : Nat) :
    column.Keeps (reallocateExact capacity allocator column).state ∧
      ((reallocateExact capacity allocator column).answer = .ok () →
        capacity ≤ (reallocateExact capacity allocator column).state.capacity) := by
  obtain ⟨hok, hkeeps⟩ | ⟨cause, hrefused⟩ := reallocateExact_of_measured allocator h capacity
  · rw [hok]
    refine ⟨hkeeps, fun _ => ?_⟩
    show capacity ≤ (column.grow capacity).capacity
    rw [capacity_grow]
    exact Nat.le_max_right _ _
  · rw [hrefused]
    refine ⟨h.keeps, ?_⟩
    rintro ⟨⟩

theorem makeRoom_keeps (allocator : Allocator) (h : column.Measured) (index : Nat) :
    column.Keeps (makeRoom index allocator column).state ∧
      ((makeRoom index allocator column).answer = .ok () →
        index < (makeRoom index allocator column).state.capacity) := by
  obtain ⟨hok, hkeeps⟩ | ⟨cause, hrefused⟩ := makeRoom_of_measured allocator h index
  · rw [hok]
    exact ⟨hkeeps, fun _ => lt_capacity_withRoom column index⟩
  · rw [hrefused]
    refine ⟨h.keeps, ?_⟩
    rintro ⟨⟩

/-- A call that goes on once there is room leaves what it makes of the column with room. -/
theorem keeps_afterRoom {next : Unit → Action Column Unit} (h : column.Measured) (index : Nat)
    (hnext : ∀ roomy : Column, roomy.Measured → roomy.Keeps (next () allocator roomy).state) :
    column.Keeps ((makeRoom index >>= next) allocator column).state := by
  obtain ⟨hroomy, -⟩ := makeRoom_keeps allocator h index
  exact Action.leaves_bind column.Keeps hroomy fun _ _ => hroomy.trans (hnext _ hroomy.measured)

theorem keeps_checked {next : Unit → Action Column Unit} {width : Nat} (h : column.Measured)
    (hnext : column.Keeps (next () allocator column).state) :
    column.Keeps ((liftM (column.checkWidth width) >>= next) allocator column).state :=
  Action.leaves_liftM_bind column.Keeps h.keeps fun _ _ => hnext

/-- The end of a column moves no further than a slot within its capacity. -/
theorem extendLength_keeps (h : column.Measured) (hindex : index < column.capacity) :
    column.Keeps (extendLength index allocator column).state := by
  apply Action.leaves_liftM_bind column.Keeps h.keeps
  intro needed hneeded
  by_cases hlt : index + 1 < Size.bound
  · rw [Size.add_eq_ok hlt] at hneeded
    obtain rfl := Except.ok.inj hneeded
    exact h.endingAt (Nat.max_le.mpr ⟨h.length_le, hindex⟩)
  · rw [Size.add_of_le (Nat.le_of_not_lt hlt)] at hneeded
    cases hneeded

/-- Whatever the call finds out of range, it has overwritten values in their place only. -/
theorem writeValue_keeps (allocator : Allocator) (h : column.Measured) (index : Nat)
    (value : Bytes) : column.Keeps (writeValue index value allocator column).state := by
  rcases Nat.lt_or_ge index column.capacity with hindex | hpast
  · unfold writeValue
    rw [Action.bind_of_ok (insistRoom_of_lt hindex), Action.getThe_bind]
    apply Action.leaves_liftM_bind column.Keeps h.keeps
    rintro ⟨start, stop⟩ -
    by_cases hstretch : start ≤ stop ∧ stop ≤ column.values.size
    · by_cases hsize : value.size = column.width ∧ value.size = stop - start
      · simp only [if_pos hstretch, if_pos hsize, Action.modify_bind]
        have hinside : start + value.size ≤ column.values.size := by omega
        have hwritten := h.written (Bytes.size_overwrite hinside) rfl
        apply Action.leaves_liftM_bind column.Keeps hwritten
        intro validity hput
        have hput := hwritten.measured.written rfl (Bitmap.size_of_put hput)
        rw [Action.modify_bind]
        exact (hwritten.trans hput).trans (extendLength_keeps hput.measured hindex)
      · simp only [if_pos hstretch, if_neg hsize, Action.breach_bind]
        exact h.keeps
    · simp only [if_neg hstretch, Action.breach_bind]
      exact h.keeps
  · rw [writeValue_of_le hpast]
    exact h.keeps

theorem setNull_keeps (allocator : Allocator) (h : column.Measured) (index : Nat) :
    column.Keeps (setNull index allocator column).state := by
  rcases Nat.lt_or_ge index column.capacity with hindex | hpast
  · rw [setNull, Action.bind_of_ok (insistRoom_of_lt hindex), Action.getThe_bind]
    apply Action.leaves_liftM_bind column.Keeps h.keeps
    intro validity hput
    have hput := h.written rfl (Bitmap.size_of_put hput)
    rw [Action.modify_bind]
    exact hput.trans (extendLength_keeps hput.measured hindex)
  · rw [setNull_of_le hpast]
    exact h.keeps

theorem copySlot_keeps (allocator : Allocator) (h : column.Measured) (source : Column)
    (position index : Nat) :
    column.Keeps (copySlot source position index allocator column).state := by
  apply Action.leaves_liftM_bind column.Keeps h.keeps
  rintro (_ | value) -
  · exact h.keeps
  · exact writeValue_keeps allocator h index value

theorem endAt_keeps (allocator : Allocator) (h : column.Measured) {count : Nat}
    (hcount : count ≤ column.capacity) : column.Keeps (endAt count allocator column).state := by
  rw [endAt, Action.getThe_bind]
  apply Action.leaves_liftM_bind column.Keeps h.keeps
  intro validity hput
  have hput := h.written rfl (Bitmap.size_of_putRun hput)
  exact hput.trans (hput.measured.endingAt hcount)

/-- A column that ends later has room for its slots, so it ends within its capacity. -/
theorem setLength_keeps (allocator : Allocator) (h : column.Measured) (count : Nat) :
    column.Keeps (setLength count allocator column).state := by
  by_cases hcount : 0 < count
  · obtain ⟨hroomy, hcapacity⟩ := makeRoom_keeps allocator h (count - 1)
    rw [setLength_of_pos hcount]
    apply Action.leaves_bind column.Keeps hroomy
    intro _ hanswer
    have hfits := hcapacity hanswer
    exact hroomy.trans (endAt_keeps allocator hroomy.measured (by omega))
  · obtain rfl := Nat.eq_zero_of_not_pos hcount
    exact endAt_keeps allocator h (Nat.zero_le _)

theorem allocateNewWith_keeps (allocator : Allocator) (h : column.Measured) (capacity : Nat) :
    column.Keeps (allocateNewWith capacity allocator column).state :=
  h.cleared.trans (reallocateExact_keeps allocator h.cleared.measured capacity).1

/-- Every call on a measured column leaves one, with any allocator, any source and any
arguments. -/
theorem Call.run_keeps (call : Call) (allocator : Allocator) (h : column.Measured) :
    column.Keeps (call.run allocator column).state := by
  cases call with
  | set index value => exact keeps_checked h (writeValue_keeps allocator h index value)
  | setGrowing index value =>
    exact keeps_checked h (keeps_afterRoom h index fun _ hroomy =>
      writeValue_keeps allocator hroomy index value)
  | setNull index => exact setNull_keeps allocator h index
  | setNullGrowing index =>
    exact keeps_afterRoom h index fun _ hroomy => setNull_keeps allocator hroomy index
  | setOption index value =>
    cases value with
    | none => exact setNull_keeps allocator h index
    | some value => exact keeps_checked h (writeValue_keeps allocator h index value)
  | setOptionGrowing index value =>
    cases value with
    | none => exact keeps_afterRoom h index fun _ hroomy => setNull_keeps allocator hroomy index
    | some value =>
      exact keeps_checked h (keeps_afterRoom h index fun _ hroomy =>
        keeps_checked hroomy (writeValue_keeps allocator hroomy index value))
  | copyFrom source position index =>
    exact keeps_checked h (copySlot_keeps allocator h source position index)
  | copyFromGrowing source position index =>
    exact keeps_checked h (keeps_afterRoom h index fun _ hroomy =>
      copySlot_keeps allocator hroomy source position index)
  | reallocateExact capacity => exact (reallocateExact_keeps allocator h capacity).1
  | allocateNew => exact allocateNewWith_keeps allocator h column.initialCapacity
  | allocateNewWith capacity => exact allocateNewWith_keeps allocator h capacity
  | setInitialCapacity _ => exact ⟨{ h with }, rfl⟩
  | setLength count => exact setLength_keeps allocator h count
  | clear => exact h.cleared

variable {pair : Pair Column}

/-- A range that was split off has the bits of its slots, if these have bytes. -/
theorem splitInto_keeps (allocator : Allocator) (hsource : pair.source.Measured)
    (htarget : pair.target.Measured) (hwidth : pair.source.width = pair.target.width)
    (start length : Nat) :
    pair.source.Keeps (splitInto start length allocator pair).state.source ∧
      pair.target.Keeps (splitInto start length allocator pair).state.target := by
  let post (after : Pair Column) : Prop :=
    pair.source.Keeps after.source ∧ pair.target.Keeps after.target
  show post (splitInto start length allocator pair).state
  have hpair : post pair := ⟨hsource.keeps, htarget.keeps⟩
  unfold splitInto
  rw [Action.getThe_bind]
  by_cases hbound : ¬ start + length < Size.bound
  · simp only [hbound, if_false]
    exact hpair
  by_cases hin : ¬ start + length ≤ pair.source.length
  · simp only [Classical.not_not.mp hbound, hin, if_true, if_false]
    exact hpair
  rw [Classical.not_not] at hbound hin
  simp only [if_pos hbound, if_pos hin]
  have hcapacity : start + length ≤ pair.source.capacity := Nat.le_trans hin hsource.length_le
  have hstop : (start + length) * pair.source.width ≤ pair.source.values.size := by
    rw [hsource.size_values]
    exact Nat.mul_le_mul_right _ hcapacity
  have hstart : start * pair.source.width ≤ (start + length) * pair.source.width :=
    Nat.mul_le_mul_right _ (Nat.le_add_right start length)
  have hlength : length * pair.source.width ≤ (start + length) * pair.source.width :=
    Nat.mul_le_mul_right _ (Nat.le_add_left length start)
  have hcount : (start + length) * pair.source.width < Size.bound := by
    have hsize := hsource.size_le
    simp only [Allocator.maxSize, Size.bound] at hsize ⊢
    omega
  have hsame := Bitmap.state_slice pair.source.validity start length allocator pair
  apply Action.leaves_bind post
  · rw [hsame]
    exact hpair
  intro part hpart
  -- slots without bytes may be more than a row of bits can hold
  have hbits : 0 < pair.target.width → length ≤ part.bytes.size * 8 := by
    intro hpos
    have hmax := hsource.capacity_le_maxSize (hwidth ▸ hpos)
    have hneeded := Bits.bytesFor_of_le_maxSize (by omega : length ≤ Allocator.maxSize)
    have hsize := Bitmap.size_of_slice hpart
    omega
  rw [hsame, Size.mul_eq_ok (Nat.lt_of_le_of_lt hlength hcount), Action.liftM_ok_bind]
  apply Action.leaves_bind post hpair
  intro _ _
  show post (_ : Outcome (Pair Column) Unit).state
  rw [Size.mul_eq_ok (Nat.lt_of_le_of_lt hstart hcount), Action.liftM_ok_bind,
    Size.mul_eq_ok hcount, Action.liftM_ok_bind, Bytes.stretch_eq_ok hstart hstop,
    Action.liftM_ok_bind]
  exact ⟨hsource.keeps, htarget.withPart hsource hwidth hin hbits⟩

/-- Every call on a pair of one width leaves two measured columns. -/
theorem PairCall.run_keeps (call : PairCall) (allocator : Allocator)
    (hsource : pair.source.Measured) (htarget : pair.target.Measured)
    (hwidth : pair.source.width = pair.target.width) :
    pair.source.Keeps (call.run allocator pair).state.source ∧
      pair.target.Keeps (call.run allocator pair).state.target := by
  cases call with
  | moveBuffers => exact ⟨hsource.cleared, htarget.holding hsource hwidth⟩
  | splitInto start length => exact splitInto_keeps allocator hsource htarget hwidth start length
  | copyValue position index =>
    rw [run, copyValue_eq hwidth]
    exact ⟨hsource.keeps,
      (Call.copyFromGrowing pair.source position index).run_keeps allocator htarget⟩

end Column

end Columnar
