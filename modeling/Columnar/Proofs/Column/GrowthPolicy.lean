import Columnar.Proofs.Column.Measures
import Columnar.Proofs.Column.Reachable
import Mathlib

/-!
# How much a column grows

A growing call checks a width, makes room, and then does what it is called for. Only the room that
it makes decides how the column grows, under any allocator.
-/

namespace Columnar

variable {index : Nat}

/-! ## Powers of two -/

/-- The power of two is the least that is not below the count. -/
def IsLeastPower (count power : Nat) : Prop :=
  IsLeast {n | count ≤ n ∧ ∃ k, n = 2 ^ k} power

theorem isPowerOfTwo_two_pow (k : Nat) : IsPowerOfTwo (2 ^ k) :=
  isPowerOfTwo_iff.mpr ⟨k, (Nat.one_shiftLeft k).symm⟩

theorem isLeastPower_powerAbove (index : Nat) : IsLeastPower (index + 1) (powerAbove index) := by
  refine ⟨⟨lt_powerAbove index, ?_⟩, ?_⟩
  · obtain ⟨k, hk⟩ := isPowerOfTwo_iff.mp (isPowerOfTwo_powerAbove index)
    exact ⟨k, hk.trans (Nat.one_shiftLeft k)⟩
  · rintro _ ⟨hlt, k, rfl⟩
    exact powerAbove_le (isPowerOfTwo_two_pow k) hlt

/-- The power of two above a number of 64 bits has 64 bits unless the number has all of them. -/
theorem powerAbove_lt_bound_iff : powerAbove index < Size.bound ↔ index < 2 ^ 63 := by
  constructor
  · intro hpower
    obtain ⟨k, hk⟩ := isPowerOfTwo_iff.mp (isPowerOfTwo_powerAbove index)
    have habove := lt_powerAbove index
    rw [hk, Nat.one_shiftLeft] at hpower habove
    have hk : k < 64 := (Nat.pow_lt_pow_iff_right (by decide)).mp hpower
    exact Nat.lt_of_lt_of_le habove (Nat.pow_le_pow_right (by decide) (by omega))
  · intro hindex
    have hle := powerAbove_le (isPowerOfTwo_two_pow 63) hindex
    simp only [Size.bound]
    omega

namespace Column

variable {α β : Type} {column after : Column} {allocator : Allocator} {capacity : Nat}

/-- The capacity for a slot is the least power of two above its index, and there is none from
index `2 ^ 63` on. -/
theorem grownCapacity_eq (index : Nat) :
    grownCapacity index =
      if index < 2 ^ 63 then .ok (powerAbove index)
      else .error (.error (.raised (.indexTooLarge index))) := by
  rw [grownCapacity]
  simp only [powerAbove_lt_bound_iff, pure_eq_ok, raise_eq_error]

/-! ## Calls that do not grow a column -/

/-- The column is for as many slots of the same width, and under the same name. -/
structure SameRoom (column after : Column) : Prop where
  name_eq : after.name = column.name
  width_eq : after.width = column.width
  capacity_eq : after.capacity = column.capacity

/-- A call left the column with the room it had, and reported nothing. -/
structure InPlace (column : Column) (outcome : Outcome Column α) : Prop where
  room : column.SameRoom outcome.state
  events_eq : outcome.events = []

theorem SameRoom.rfl {column : Column} : column.SameRoom column :=
  ⟨Eq.refl _, Eq.refl _, Eq.refl _⟩

theorem SameRoom.trans {later : Column} (h : column.SameRoom after)
    (hlater : after.SameRoom later) : column.SameRoom later :=
  ⟨hlater.name_eq.trans h.name_eq, hlater.width_eq.trans h.width_eq,
    hlater.capacity_eq.trans h.capacity_eq⟩

theorem inPlace_of_same (answer : Result α) : InPlace column ⟨answer, column, []⟩ :=
  ⟨.rfl, rfl⟩

theorem inPlace_bind {first : Action Column α} {next : α → Action Column β}
    (hfirst : InPlace column (first allocator column))
    (hnext : ∀ value after, InPlace after (next value allocator after)) :
    InPlace column ((first >>= next) allocator column) := by
  obtain ⟨hroom, hevents⟩ := hfirst
  rcases hcase : first allocator column with ⟨failure | value, after, events⟩
  · rw [hcase] at hroom hevents
    rw [Action.bind_apply_error hcase]
    exact ⟨hroom, hevents⟩
  · rw [hcase] at hroom hevents
    obtain rfl : events = [] := hevents
    obtain ⟨hlater, hrest⟩ := hnext value after
    rw [Action.bind_of_ok hcase]
    exact ⟨hroom.trans hlater, hrest⟩

theorem inPlace_liftM_bind {result : Result α} {next : α → Action Column β}
    (hnext : ∀ value, InPlace column (next value allocator column)) :
    InPlace column ((liftM result >>= next) allocator column) := by
  cases result with
  | ok value => exact hnext value
  | error failure => exact inPlace_of_same _

theorem inPlace_modify_bind {change : Column → Column} {next : PUnit → Action Column β}
    (hchange : column.SameRoom (change column))
    (hnext : InPlace (change column) (next ⟨⟩ allocator (change column))) :
    InPlace column ((modify change >>= next) allocator column) :=
  ⟨hchange.trans hnext.room, hnext.events_eq⟩

theorem insistRoom_inPlace (index : Nat) :
    InPlace column (insistRoom index allocator column) := by
  rcases Nat.lt_or_ge index column.capacity with hin | hout
  · rw [insistRoom_of_lt hin]
    exact inPlace_of_same _
  · rw [insistRoom_of_le hout]
    exact inPlace_of_same _

theorem extendLength_inPlace (index : Nat) :
    InPlace column (extendLength index allocator column) :=
  inPlace_liftM_bind fun _ => ⟨⟨rfl, rfl, rfl⟩, rfl⟩

theorem writeValue_inPlace (index : Nat) (value : Bytes) :
    InPlace column (writeValue index value allocator column) := by
  apply inPlace_bind (insistRoom_inPlace index)
  intro _ column
  rw [Action.getThe_bind]
  apply inPlace_liftM_bind
  rintro ⟨start, stop⟩
  by_cases hstretch : start ≤ stop ∧ stop ≤ column.values.size
  · by_cases hsize : value.size = column.width ∧ value.size = stop - start
    · simp only [if_pos hstretch, if_pos hsize]
      apply inPlace_modify_bind ⟨rfl, rfl, rfl⟩
      apply inPlace_liftM_bind
      intro validity
      exact inPlace_modify_bind ⟨rfl, rfl, rfl⟩ (extendLength_inPlace index)
    · simp only [if_pos hstretch, if_neg hsize, Action.breach_bind]
      exact inPlace_of_same _
  · simp only [if_neg hstretch, Action.breach_bind]
    exact inPlace_of_same _

theorem setNull_inPlace (index : Nat) : InPlace column (setNull index allocator column) := by
  apply inPlace_bind (insistRoom_inPlace index)
  intro _ column
  rw [Action.getThe_bind]
  apply inPlace_liftM_bind
  intro validity
  exact inPlace_modify_bind ⟨rfl, rfl, rfl⟩ (extendLength_inPlace index)

theorem setOption_inPlace (index : Nat) (value : Option Bytes) :
    InPlace column (setOption index value allocator column) := by
  cases value with
  | none => exact setNull_inPlace index
  | some value => exact inPlace_liftM_bind fun _ => writeValue_inPlace index value

theorem copySlot_inPlace (source : Column) (position index : Nat) :
    InPlace column (copySlot source position index allocator column) := by
  apply inPlace_liftM_bind
  rintro (_ | value)
  · exact inPlace_of_same _
  · exact writeValue_inPlace index value

theorem endAt_inPlace (count : Nat) : InPlace column (endAt count allocator column) :=
  inPlace_liftM_bind fun _ => ⟨⟨rfl, rfl, rfl⟩, rfl⟩

/-! ## Room -/

/-- The room that a call makes: for one slot, or for exactly so many. -/
inductive Room where
  | slot (index : Nat)
  | slots (capacity : Nat)

namespace Room

def make : (room : Room) → Action Column Unit
  | slot index => makeRoom index
  | slots capacity => Column.reallocateExact capacity

/-- How many slots the column is to be made for, if it is for fewer. -/
def asked (room : Room) (column : Column) : Nat :=
  match room with
  | slot index => column.roomFor index
  | slots capacity => capacity

/-- The capacity once there is room: that of before, or the least power of two that does, or
exactly what was asked for. -/
def IsMade (room : Room) (before after : Nat) : Prop :=
  match room with
  | slot index =>
    (index < before → after = before) ∧ (before ≤ index → IsLeastPower (index + 1) after)
  | slots capacity => after = max before capacity

theorem isMade_grow (room : Room) (column : Column) :
    room.IsMade column.capacity (column.grow (room.asked column)).capacity := by
  rw [capacity_grow]
  cases room with
  | slots capacity => rfl
  | slot index =>
    refine ⟨?_, ?_⟩
    · intro hin
      rw [asked, roomFor, if_pos hin, Nat.max_self]
    · intro hout
      have hmore : column.capacity ≤ powerAbove index :=
        Nat.le_trans hout (Nat.le_of_lt (lt_powerAbove index))
      rw [asked, roomFor, if_neg (Nat.not_lt_of_le hout), Nat.max_eq_right hmore]
      exact isLeastPower_powerAbove index

end Room

/-- The room is made and reported, or the column is as it was. -/
theorem Room.make_cases (room : Room) (allocator : Allocator) (h : column.Measured) :
    room.make allocator column =
        ⟨.ok (), column.grow (room.asked column), column.growth (room.asked column)⟩ ∨
      ∃ cause, room.make allocator column =
        ⟨.error (.error (.raised cause)), column, []⟩ := by
  cases room with
  | slots capacity => exact (reallocateExact_of_measured allocator h capacity).imp_left And.left
  | slot index => exact (makeRoom_of_measured allocator h index).imp_left And.left

/-! ## Enlarged columns -/

/-- The column is for as many slots as it was, or more. Both buffers begin with all the bytes that
they held, those of null slots included, and all further bytes are zero. So are all bits of slots
that it was not for. -/
structure Enlarged (column grown : Column) : Prop where
  capacity_le : column.capacity ≤ grown.capacity
  size_values : grown.values.size = grown.capacity * column.width
  eq_append : ∃ valueBytes validityBytes, grown =
    { column with
      capacity := grown.capacity
      values := column.values ++ Bytes.zeros valueBytes
      validity := ⟨column.validity.bytes ++ Bytes.zeros validityBytes⟩ }
  bit_eq : ∀ index, grown.validity.bit index =
    (decide (index < column.capacity) && column.validity.bit index)

theorem WellFormed.enlarged_grow (h : column.WellFormed) (capacity : Nat) :
    column.Enlarged (column.grow capacity) where
  capacity_le := by
    rw [capacity_grow]
    exact Nat.le_max_left _ _
  size_values := by
    by_cases hroom : capacity ≤ column.capacity
    · rw [Column.grow, if_pos hroom, h.size_values]
    · have hmore : column.values.size ≤ capacity * column.width := by
        rw [h.size_values]
        exact Nat.mul_le_mul_right _ (Nat.le_of_not_le hroom)
      rw [Column.grow, if_neg hroom]
      show (column.values ++ Bytes.zeros _).size = capacity * column.width
      rw [Array.size_append, Bytes.size_zeros]
      omega
  eq_append := by
    by_cases hroom : capacity ≤ column.capacity
    · refine ⟨0, 0, ?_⟩
      rw [Column.grow, if_pos hroom]
      simp [Bytes.zeros]
    · rw [Column.grow, if_neg hroom]
      exact ⟨_, _, rfl⟩
  bit_eq := by
    intro index
    rw [bit_grow]
    by_cases hin : index < column.capacity
    · rw [decide_eq_true hin, Bool.true_and]
    · rw [decide_eq_false hin, Bool.false_and]
      -- past the capacity there may be bits up to the end of a byte, all unset
      exact h.bit_eq_false index (Nat.le_trans h.length_le (Nat.le_of_not_lt hin))

theorem growth_grow (column : Column) (capacity : Nat) :
    column.growth (column.grow capacity).capacity = column.growth capacity := by
  rw [capacity_grow, growth, growth]
  by_cases hroom : capacity ≤ column.capacity
  · rw [Nat.max_eq_left hroom, if_pos hroom, if_pos (Nat.le_refl _)]
  · rw [Nat.max_eq_right (Nat.le_of_not_le hroom)]

/-! ## Growing calls -/

/-- A call that makes room before it does anything else, and gives none up. -/
inductive GrowingCall where
  | set (index : Nat) (value : Bytes)
  | setNull (index : Nat)
  | setOption (index : Nat) (value : Option Bytes)
  | copyFrom (source : Column) (position index : Nat)
  /-- Copies a slot as one of two columns that were checked to be of one width. -/
  | copyValue (source : Column) (position index : Nat)
  | reallocateExact (capacity : Nat)
  | setLength (count : Nat)

namespace GrowingCall

def run : (call : GrowingCall) → Action Column Unit
  | set index value => setGrowing index value
  | setNull index => setNullGrowing index
  | setOption index value => setOptionGrowing index value
  | copyFrom source position index => copyFromGrowing source position index
  | copyValue source position index =>
    Action.onPart (fun target => ⟨source, target⟩) (fun _ pair => pair.target)
      (Column.copyValue position index)
  | reallocateExact capacity => Column.reallocateExact capacity
  | setLength count => Column.setLength count

/-- The check of a width that comes before all else. -/
def check (call : GrowingCall) (column : Column) : Result Unit :=
  match call with
  | set _ value | setOption _ (some value) => column.checkWidth value.size
  | copyFrom source _ _ => column.checkWidth source.width
  | _ => pure ()

/-- The room that the call makes. A column that is to have no slots needs none. -/
def room : (call : GrowingCall) → Room
  | set index _ | setNull index | setOption index _ | copyFrom _ _ index
  | copyValue _ _ index => .slot index
  | reallocateExact capacity => .slots capacity
  | setLength 0 => .slots 0
  | setLength (last + 1) => .slot last

/-- What the call does in the room that it made. -/
def inRoom : (call : GrowingCall) → Action Column Unit
  | set index value => writeValue index value
  | setNull index => Column.setNull index
  | setOption index value => Column.setOption index value
  | copyFrom source position index | copyValue source position index =>
    copySlot source position index
  | reallocateExact _ => pure ()
  | setLength count => endAt count

/-- The three parts of a growing call. -/
theorem run_eq (call : GrowingCall) :
    call.run allocator column =
      (do
        call.check (← getThe Column)
        call.room.make
        call.inRoom : Action Column Unit) allocator column := by
  rw [Action.getThe_bind]
  cases call with
  | set _ _ => rfl
  | setNull _ => rfl
  | setOption _ value =>
    cases value with
    | none => rfl
    | some _ => rfl
  | copyFrom _ _ _ => rfl
  | copyValue _ _ _ => rfl
  | reallocateExact capacity => exact congrFun (congrFun bind_pure_unit.symm allocator) column
  | setLength count =>
    cases count with
    | zero =>
      -- no room is made for no slots, as none would be for a capacity of zero
      have hnone : Column.reallocateExact 0 allocator column = ⟨.ok (), column, []⟩ :=
        reallocateExact_of_le (Nat.zero_le _)
      show endAt 0 allocator column =
        (Column.reallocateExact 0 >>= fun _ => endAt 0 : Action Column Unit) allocator column
      rw [Action.bind_of_ok hnone]
    | succ _ => rfl

theorem inRoom_inPlace (call : GrowingCall) (allocator : Allocator) (column : Column) :
    InPlace column (call.inRoom allocator column) := by
  cases call with
  | set index value => exact writeValue_inPlace index value
  | setNull index => exact setNull_inPlace index
  | setOption index value => exact setOption_inPlace index value
  | copyFrom source position index => exact copySlot_inPlace source position index
  | copyValue source position index => exact copySlot_inPlace source position index
  | reallocateExact _ => exact inPlace_of_same _
  | setLength count => exact endAt_inPlace count

/-- A growing call fails and leaves the column as it was, or it goes on in the room that it made.
Growth is all that is reported of it. -/
theorem run_cases (call : GrowingCall) (allocator : Allocator) (h : column.Measured) :
    (∃ failure, call.run allocator column = ⟨.error failure, column, []⟩) ∨
      call.run allocator column =
        { call.inRoom allocator (column.grow (call.room.asked column)) with
          events := column.growth (call.room.asked column) } := by
  rw [run_eq, Action.getThe_bind]
  cases hcheck : call.check column with
  | error failure => exact .inl ⟨failure, rfl⟩
  | ok _ =>
    rw [Action.liftM_ok_bind]
    obtain hmade | ⟨cause, hrefused⟩ := call.room.make_cases allocator h
    · obtain ⟨-, hquiet⟩ := call.inRoom_inPlace allocator (column.grow (call.room.asked column))
      rw [Action.bind_apply_ok hmade, hquiet, List.append_nil]
      exact .inr rfl
    · rw [Action.bind_apply_error hrefused]
      exact .inl ⟨_, rfl⟩

/-- What a growing call leaves is measured. -/
theorem run_keeps (call : GrowingCall) (allocator : Allocator) (h : column.Measured) :
    column.Keeps (call.run allocator column).state := by
  cases call with
  | set index value => exact (Call.setGrowing index value).run_keeps allocator h
  | setNull index => exact (Call.setNullGrowing index).run_keeps allocator h
  | setOption index value => exact (Call.setOptionGrowing index value).run_keeps allocator h
  | copyFrom source position index =>
    exact (Call.copyFromGrowing source position index).run_keeps allocator h
  | copyValue source position index =>
    rw [run_eq]
    exact keeps_afterRoom h index fun _ hroomy => copySlot_keeps allocator hroomy source _ _
  | reallocateExact capacity => exact (Call.reallocateExact capacity).run_keeps allocator h
  | setLength count => exact (Call.setLength count).run_keeps allocator h

end GrowingCall

/-! ## Runs of growing calls -/

/-- Reports that a column of the name and the width grew from the first capacity to the last. Each
is of a growth to more slots, from where the one before ended. -/
inductive Climbs (name : String) (width : Nat) : (first last : Nat) → List Event → Prop
  | still (capacity : Nat) : Climbs name width capacity capacity []
  | grew {first next last : Nat} {rest : List Event} (hmore : first < next)
      (hrest : Climbs name width next last rest) :
      Climbs name width first last (.grew name width first next :: rest)

namespace Climbs

variable {name : String} {width first next last : Nat} {events rest : List Event}

theorem le (h : Climbs name width first last events) : first ≤ last := by
  induction h with
  | still capacity => exact Nat.le_refl capacity
  | grew hmore _ ih => exact Nat.le_trans (Nat.le_of_lt hmore) ih

theorem append (h : Climbs name width first next events)
    (hrest : Climbs name width next last rest) :
    Climbs name width first last (events ++ rest) := by
  induction h with
  | still _ => exact hrest
  | grew hmore _ ih => exact .grew hmore (ih hrest)

end Climbs

theorem climbs_growth (hroom : column.capacity ≤ capacity) :
    Climbs column.name column.width column.capacity capacity (column.growth capacity) := by
  rw [growth]
  by_cases hsame : capacity ≤ column.capacity
  · obtain rfl : capacity = column.capacity := Nat.le_antisymm hsame hroom
    rw [if_pos hsame]
    exact .still _
  · rw [if_neg hsame]
    exact .grew (Nat.lt_of_not_le hsame) (.still capacity)

namespace GrowingCall

/-- The column after a run of growing calls, each with the allocator that it met, and all that was
reported. A call that fails does not end the run. -/
def runAll : (calls : List (Allocator × GrowingCall)) → Column → Column × List Event
  | [], column => (column, [])
  | (allocator, call) :: rest, column =>
    let outcome := call.run allocator column
    let (last, events) := runAll rest outcome.state
    (last, outcome.events ++ events)

/-- The column has its name, its width and at least its capacity after a growing call, and exactly
the growth is reported. -/
theorem run_climbs (call : GrowingCall) (allocator : Allocator) (h : column.Measured) :
    (call.run allocator column).state.name = column.name ∧
      (call.run allocator column).state.width = column.width ∧
      column.capacity ≤ (call.run allocator column).state.capacity ∧
      (call.run allocator column).events =
        column.growth (call.run allocator column).state.capacity := by
  obtain ⟨failure, hfailed⟩ | hgrown := call.run_cases allocator h
  · rw [hfailed, growth, if_pos (Nat.le_refl _)]
    exact ⟨rfl, rfl, Nat.le_refl _, rfl⟩
  · obtain ⟨⟨hname, hwidth, hcapacity⟩, -⟩ :=
      call.inRoom_inPlace allocator (column.grow (call.room.asked column))
    rw [hgrown]
    refine ⟨?_, ?_, ?_, ?_⟩
    · rw [hname, name_grow]
    · rw [hwidth, width_grow]
    · rw [hcapacity, capacity_grow]
      exact Nat.le_max_left _ _
    · rw [hcapacity, growth_grow]

/-- The capacity of a column never goes down under growing calls, and every time it goes up is
reported once. -/
theorem climbs_runAll (calls : List (Allocator × GrowingCall)) (h : column.Measured) :
    Climbs column.name column.width column.capacity (runAll calls column).1.capacity
      (runAll calls column).2 := by
  induction calls generalizing column with
  | nil => exact .still _
  | cons step rest ih =>
    obtain ⟨allocator, call⟩ := step
    obtain ⟨hname, hwidth, hmore, hevents⟩ := call.run_climbs allocator h
    -- what the call leaves is measured, so the rest climbs on from its capacity
    have hrest := ih (call.run_keeps allocator h).measured
    rw [hname, hwidth] at hrest
    have hstep := climbs_growth hmore
    rw [← hevents] at hstep
    exact hstep.append hrest

end GrowingCall

end Column

namespace Object

open Column

variable {column : Column}

/-- How every column grows, with any allocator. A slot is given the least power of two above its
index, which can be had for the indices below `2 ^ 63`. A call that grows a column fails and leaves
it as it was, or goes on in the room that it made, in which all bytes and bits that there were are
kept and all others are zero. If it succeeds the capacity is what the call asks for: the least power
of two for a slot past the capacity, that of before for any other slot, and never less than before
for a capacity that was asked for. Each growth is reported once, with both capacities, and nothing
else is reported. So in any run of such calls the capacity never goes down. -/
theorem Reachable.grows_by_policy (h : (Object.column column).Reachable) :
    (∀ index,
      (∀ capacity, grownCapacity index = .ok capacity → IsLeastPower (index + 1) capacity) ∧
      ((∃ failure, grownCapacity index = .error failure) ↔ 2 ^ 63 ≤ index)) ∧
    (∀ (allocator : Allocator) (call : GrowingCall),
      ((call.run allocator column).answer = .ok () →
        call.room.IsMade column.capacity (call.run allocator column).state.capacity) ∧
      ((∃ failure, call.run allocator column = ⟨.error failure, column, []⟩) ∨
        ∃ grown, column.Enlarged grown ∧
          grown.capacity = (call.run allocator column).state.capacity ∧
          call.run allocator column =
            { call.inRoom allocator grown with events := column.growth grown.capacity }) ∧
      column.capacity ≤ (call.run allocator column).state.capacity ∧
      (call.run allocator column).events =
        if column.capacity < (call.run allocator column).state.capacity then
          [.grew column.name column.width column.capacity
            (call.run allocator column).state.capacity]
        else []) ∧
    ∀ calls : List (Allocator × GrowingCall),
      column.capacity ≤ (GrowingCall.runAll calls column).1.capacity ∧
      Climbs column.name column.width column.capacity
        (GrowingCall.runAll calls column).1.capacity (GrowingCall.runAll calls column).2 := by
  have hcolumn : column.WellFormed := h.wellFormed
  refine ⟨?_, ?_, ?_⟩
  · intro index
    rw [grownCapacity_eq]
    by_cases hindex : index < 2 ^ 63
    · rw [if_pos hindex]
      refine ⟨?_, ?_⟩
      · rintro _ ⟨⟩
        exact isLeastPower_powerAbove index
      · exact ⟨by rintro ⟨_, ⟨⟩⟩, fun hlarge => absurd hindex (Nat.not_lt_of_le hlarge)⟩
    · rw [if_neg hindex]
      refine ⟨?_, ?_⟩
      · rintro _ ⟨⟩
      · exact ⟨fun _ => Nat.le_of_not_lt hindex, fun _ => ⟨_, rfl⟩⟩
  · intro allocator call
    obtain ⟨-, -, hmore, hevents⟩ := call.run_climbs allocator hcolumn.measured
    have hcases := call.run_cases allocator hcolumn.measured
    obtain ⟨hroom, -⟩ := call.inRoom_inPlace allocator (column.grow (call.room.asked column))
    refine ⟨?_, ?_, hmore, ?_⟩
    · intro hok
      obtain ⟨failure, hfailed⟩ | hgrown := hcases
      · rw [hfailed] at hok
        cases hok
      · rw [hgrown, hroom.capacity_eq]
        exact call.room.isMade_grow column
    · refine hcases.imp_right fun hgrown => ?_
      refine ⟨column.grow (call.room.asked column), hcolumn.enlarged_grow _, ?_, ?_⟩
      · rw [hgrown, hroom.capacity_eq]
      · rw [hgrown, growth_grow]
    · rw [hevents, growth]
      by_cases hgrows : column.capacity < (call.run allocator column).state.capacity
      · rw [if_pos hgrows, if_neg (Nat.not_le_of_lt hgrows)]
      · rw [if_neg hgrows, if_pos (Nat.le_of_not_lt hgrows)]
  · intro calls
    have hclimbs := GrowingCall.climbs_runAll calls hcolumn.measured
    exact ⟨hclimbs.le, hclimbs⟩

/-- A column for exactly three slots grows to eight for its sixth slot, and not for its third. Once
it ends after two slots it is still for eight, until the ninth is made null. -/
theorem grows_by_policy_of_exact :
    let column := ((Call.reallocateExact 3).run .standard (Column.empty "a" .int16)).state
    let calls : List (Allocator × GrowingCall) :=
      [(.standard, .set 2 #[7, 0]), (.standard, .set 5 #[7, 0]), (.standard, .setLength 2),
        (.standard, .setNull 8)]
    (Object.column column).Reachable ∧
      IsLeastPower 6 ((GrowingCall.set 5 #[7, 0]).run .standard column).state.capacity ∧
      ((GrowingCall.set 5 #[7, 0]).run .standard column).events = [.grew "a" 2 3 8] ∧
      ((GrowingCall.set 2 #[7, 0]).run .standard column).state.capacity = 3 ∧
      (GrowingCall.runAll calls column).2 = [.grew "a" 2 3 8, .grew "a" 2 8 16] ∧
      Climbs "a" 2 3 16 (GrowingCall.runAll calls column).2 := by
  intro column calls
  have hreachable : (Object.column column).Reachable := by
    refine .call (.reallocateExact 3) Allocator.isBounded_standard (.empty "a" .int16) ?_
    rintro _ ⟨⟩
  have hname : column.name = "a" := rfl
  have hwidth : column.width = 2 := rfl
  have hcapacity : column.capacity = 3 := rfl
  have hlast : (GrowingCall.runAll calls column).1.capacity = 16 := by cbv
  have hsixth : ((GrowingCall.set 5 #[7, 0]).run .standard column).state.capacity = 8 := by cbv
  obtain ⟨-, hcall, hruns⟩ := hreachable.grows_by_policy
  obtain ⟨hmade, -, -, hevents⟩ := hcall .standard (.set 5 #[7, 0])
  obtain ⟨hheld, -⟩ := hcall .standard (.set 2 #[7, 0])
  obtain ⟨-, hclimbs⟩ := hruns calls
  rw [hname, hwidth, hcapacity, hsixth] at hevents
  rw [hname, hwidth, hcapacity, hlast] at hclimbs
  have hout : column.capacity ≤ 5 := by
    rw [hcapacity]
    decide
  have hin : 2 < column.capacity := by
    rw [hcapacity]
    decide
  refine ⟨hreachable, (hmade (by cbv)).2 hout, hevents, ?_, by cbv, hclimbs⟩
  exact ((hheld (by cbv)).1 hin).trans hcapacity

end Object

end Columnar
