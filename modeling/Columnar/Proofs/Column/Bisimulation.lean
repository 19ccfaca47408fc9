import Columnar.Proofs.Column.Refinement
import Mathlib.Logic.Relation

/-!
# Equal columns cannot be told apart

Columns are equal if they have one type and the same slots. Capacities, names and the bytes under
null slots may differ, and no call that is made on both ever shows it.
-/

namespace Columnar

namespace Column

variable {column other after later source : Column}

/-! ## Equal columns -/

/-- Two columns that can come about, of one type and with the same slots. -/
structure Twins (column other : Column) : Prop where
  reachable : (Object.column column).Reachable
  other_reachable : (Object.column other).Reachable
  dtype_eq : column.dtype = other.dtype
  contents_eq : column.contents = other.contents

theorem sameSlots_eq_true_iff (h : (Object.column column).Reachable)
    (hother : (Object.column other).Reachable) :
    column.sameSlots other = .ok true ↔
      column.dtype = other.dtype ∧ column.contents = other.contents := by
  rw [h.wellFormed.sameSlots_eq hother.wellFormed, Except.ok.injEq, decide_eq_true_iff]

theorem twins_iff (h : (Object.column column).Reachable)
    (hother : (Object.column other).Reachable) :
    Twins column other ↔ column.sameSlots other = .ok true := by
  rw [sameSlots_eq_true_iff h hother]
  exact ⟨fun htwins => ⟨htwins.dtype_eq, htwins.contents_eq⟩,
    fun hsame => ⟨h, hother, hsame.1, hsame.2⟩⟩

/-! ## The same call on both -/

/-- The same call on two columns. What is copied from a column may be copied from an equal one. -/
inductive Call.Alike : Call → Call → Prop
  | same {call : Call} (hnone : call.source? = none) : Alike call call
  | copyFrom {source other : Column} (h : (Object.column source).Reachable)
      (hother : (Object.column other).Reachable) (hsame : source.sameSlots other = .ok true)
      (position index : Nat) :
      Alike (.copyFrom source position index) (.copyFrom other position index)
  | copyFromGrowing {source other : Column} (h : (Object.column source).Reachable)
      (hother : (Object.column other).Reachable) (hsame : source.sameSlots other = .ok true)
      (position index : Nat) :
      Alike (.copyFromGrowing source position index) (.copyFromGrowing other position index)

/-- The same call is made on each of two columns and succeeds on both, whatever memory the one and
the other is granted. If slots are handed over to targets of one type, either the sources or the
targets are gone on with. -/
inductive Moves : Column × Column → Column × Column → Prop
  | call {column other : Column} {allocator beside : Allocator} {first second : Call}
      (halike : first.Alike second) (hallocator : allocator.IsBounded) (hbeside : beside.IsBounded)
      (hok : (first.run allocator column).answer = .ok ())
      (hother : (second.run beside other).answer = .ok ()) :
      Moves (column, other) ((first.run allocator column).state, (second.run beside other).state)
  | handover_source {column other target onto : Column} {allocator beside : Allocator}
      (call : Handover) (htarget : (Object.column target).Reachable)
      (honto : (Object.column onto).Reachable) (hdtype : target.dtype = onto.dtype)
      (hallocator : allocator.IsBounded) (hbeside : beside.IsBounded)
      (hok : (call.run allocator ⟨column, target⟩).answer = .ok ())
      (hother : (call.run beside ⟨other, onto⟩).answer = .ok ()) :
      Moves (column, other)
        ((call.run allocator ⟨column, target⟩).state.source,
          (call.run beside ⟨other, onto⟩).state.source)
  | handover_target {column other target onto : Column} {allocator beside : Allocator}
      (call : Handover) (htarget : (Object.column target).Reachable)
      (honto : (Object.column onto).Reachable) (hdtype : target.dtype = onto.dtype)
      (hallocator : allocator.IsBounded) (hbeside : beside.IsBounded)
      (hok : (call.run allocator ⟨column, target⟩).answer = .ok ())
      (hother : (call.run beside ⟨other, onto⟩).answer = .ok ()) :
      Moves (column, other)
        ((call.run allocator ⟨column, target⟩).state.target,
          (call.run beside ⟨other, onto⟩).state.target)

variable {allocator beside : Allocator} {first second : Call}

theorem Call.Alike.reachable (h : first.Alike second) :
    (∀ source, first.source? = some source → (Object.column source).Reachable) ∧
      ∀ source, second.source? = some source → (Object.column source).Reachable := by
  cases h with
  | same hnone =>
    refine ⟨?_, ?_⟩ <;>
    · intro source hsome
      rw [hnone] at hsome
      cases hsome
  | copyFrom hsource hother _ _ _ =>
    refine ⟨?_, ?_⟩
    · rintro _ ⟨⟩
      exact hsource
    · rintro _ ⟨⟩
      exact hother
  | copyFromGrowing hsource hother _ _ _ =>
    refine ⟨?_, ?_⟩
    · rintro _ ⟨⟩
      exact hsource
    · rintro _ ⟨⟩
      exact hother

/-- Equal columns hold the same in every slot. -/
theorem get?_eq_of_sameSlots (h : (Object.column column).Reachable)
    (hother : (Object.column other).Reachable) (hsame : column.sameSlots other = .ok true)
    (index : Nat) : column.get? index = other.get? index := by
  have hcolumn : column.WellFormed := h.wellFormed
  have hbeside : other.WellFormed := hother.wellFormed
  obtain ⟨-, hcontents⟩ := (sameSlots_eq_true_iff h hother).mp hsame
  rw [hcolumn.get?_eq_ok, hbeside.get?_eq_ok, ← hcolumn.join_contents, ← hbeside.join_contents,
    hcontents]

theorem Call.Alike.onSlots_eq (h : first.Alike second) (slots : List (Option Bytes)) :
    first.onSlots slots = second.onSlots slots := by
  cases h with
  | same _ => rfl
  | copyFrom hsource hother hsame position index =>
    rw [Call.onSlots, Call.onSlots, get?_eq_of_sameSlots hsource hother hsame]
  | copyFromGrowing hsource hother hsame position index =>
    rw [Call.onSlots, Call.onSlots, get?_eq_of_sameSlots hsource hother hsame]

/-- A call that succeeded left the slots that it says. -/
theorem Call.succeeded (call : Call) (hallocator : allocator.IsBounded) (h : column.WellFormed)
    (hsource : ∀ source, call.source? = some source → (Object.column source).Reachable)
    (hok : (call.run allocator column).answer = .ok ()) :
    Succeeded column (call.run allocator column) (call.onSlots column.contents) := by
  obtain hsucceeded | ⟨failure, hfailed⟩ :=
    call.outcome hallocator h fun source hsome => (hsource source hsome).wellFormed
  · exact hsucceeded
  · rw [hfailed] at hok
    cases hok

theorem Handover.succeeded {target : Column} (call : Handover)
    (hallocator : allocator.IsBounded) (hsource : source.WellFormed) (htarget : target.WellFormed)
    (hok : (call.run allocator ⟨source, target⟩).answer = .ok ()) :
    PairSucceeded ⟨source, target⟩ (call.run allocator ⟨source, target⟩)
      (call.checked.leaves source) (call.checked.onTarget source.contents target.contents) := by
  obtain ⟨hsucceeded, -⟩ | ⟨failure, hfailed⟩ :=
    @Handover.outcome ⟨source, target⟩ allocator call hallocator hsource htarget
  · exact hsucceeded
  · rw [hfailed] at hok
    cases hok

/-- A target that slots are handed over to gives up its own. -/
theorem Handover.onTarget_eq (call : Handover) (given slots others : List (Option Bytes)) :
    call.checked.onTarget given slots = call.checked.onTarget given others := by
  cases call with
  | transfer => rfl
  | splitAndTransfer start length => rfl

theorem Twins.call (h : Twins column other) (halike : first.Alike second)
    (hallocator : allocator.IsBounded) (hbeside : beside.IsBounded)
    (hok : (first.run allocator column).answer = .ok ())
    (hother : (second.run beside other).answer = .ok ()) :
    Twins (first.run allocator column).state (second.run beside other).state := by
  obtain ⟨hfirst, hsecond⟩ := halike.reachable
  have hleft := first.succeeded hallocator h.reachable.wellFormed hfirst hok
  have hright := second.succeeded hbeside h.other_reachable.wellFormed hsecond hother
  exact
    { reachable := .call first hallocator h.reachable hfirst
      other_reachable := .call second hbeside h.other_reachable hsecond
      dtype_eq := by rw [hleft.dtype_eq, hright.dtype_eq, h.dtype_eq]
      contents_eq := by
        rw [hleft.contents_eq, hright.contents_eq, h.contents_eq, halike.onSlots_eq] }

/-- Slots of equal columns that are handed over to columns of one type leave two pairs of equal
columns. -/
theorem Twins.handover {target onto : Column} (h : Twins column other) (call : Handover)
    (htarget : (Object.column target).Reachable) (honto : (Object.column onto).Reachable)
    (hdtype : target.dtype = onto.dtype) (hallocator : allocator.IsBounded)
    (hbeside : beside.IsBounded) (hok : (call.run allocator ⟨column, target⟩).answer = .ok ())
    (hother : (call.run beside ⟨other, onto⟩).answer = .ok ()) :
    Twins (call.run allocator ⟨column, target⟩).state.source
        (call.run beside ⟨other, onto⟩).state.source ∧
      Twins (call.run allocator ⟨column, target⟩).state.target
        (call.run beside ⟨other, onto⟩).state.target := by
  have hcolumn : column.WellFormed := h.reachable.wellFormed
  have hcopy : other.WellFormed := h.other_reachable.wellFormed
  -- what the targets held before does not count: they give it up
  have hleft := call.succeeded hallocator hcolumn htarget.wellFormed hok
  have hright := call.succeeded hbeside hcopy honto.wellFormed hother
  obtain ⟨-, hleftType, hleftSlots⟩ := call.checked.leaves_wellFormed hcolumn
  obtain ⟨-, hrightType, hrightSlots⟩ := call.checked.leaves_wellFormed hcopy
  refine ⟨?_, ?_⟩
  · exact
      { reachable := .handover_source call hallocator h.reachable htarget
        other_reachable := .handover_source call hbeside h.other_reachable honto
        dtype_eq := by
          rw [hleft.source_eq, hright.source_eq, hleftType, hrightType, h.dtype_eq]
        contents_eq := by
          rw [hleft.source_eq, hright.source_eq, hleftSlots, hrightSlots, h.contents_eq] }
  · exact
      { reachable := .handover_target call hallocator h.reachable htarget
        other_reachable := .handover_target call hbeside h.other_reachable honto
        dtype_eq := by rw [hleft.target_dtype_eq, hright.target_dtype_eq, hdtype]
        contents_eq := by
          rw [hleft.target_contents_eq, hright.target_contents_eq, h.contents_eq]
          exact call.onTarget_eq _ _ _ }

/-- Two equal columns are equal after the same call on both. -/
theorem Twins.moves {before next : Column × Column} (h : Twins before.1 before.2)
    (hmoves : Moves before next) : Twins next.1 next.2 := by
  cases hmoves with
  | call halike hallocator hbeside hok hother => exact h.call halike hallocator hbeside hok hother
  | handover_source call htarget honto hdtype hallocator hbeside hok hother =>
    exact (h.handover call htarget honto hdtype hallocator hbeside hok hother).1
  | handover_target call htarget honto hdtype hallocator hbeside hok hother =>
    exact (h.handover call htarget honto hdtype hallocator hbeside hok hother).2

theorem Twins.run {before last : Column × Column}
    (hrun : Relation.ReflTransGen Moves before last) (h : Twins before.1 before.2) :
    Twins last.1 last.2 := by
  induction hrun with
  | refl => exact h
  | tail _ hmoves ih => exact ih.moves hmoves

/-! ## What can be read -/

/-- Everything that is read of the one column is read of the other. The error at a null slot gives
the name of each. -/
structure AnswersAlike (column other : Column) : Prop where
  sameSlots_eq : column.sameSlots other = .ok true
  length_eq : column.length = other.length
  slots_eq : ∃ slots, column.slots = .ok slots ∧ other.slots = .ok slots
  nullCount_eq : ∃ count, column.nullCount = .ok count ∧ other.nullCount = .ok count
  isValid_eq : ∀ index, ∃ valid, column.isValid index = .ok valid ∧ other.isValid index = .ok valid
  get?_eq : ∀ index, ∃ slot, column.get? index = .ok slot ∧ other.get? index = .ok slot
  get_eq : ∀ index,
    (∃ value, column.get index = .ok value ∧ other.get index = .ok value) ∨
      column.get index = .error (.error (.raised (.nullSlot index column.name))) ∧
        other.get index = .error (.error (.raised (.nullSlot index other.name)))

theorem WellFormed.isValid_eq (h : column.WellFormed) (index : Nat) :
    column.isValid index = .ok column.contents[index]?.join.isSome := by
  rw [h.isValid_eq_ok, h.join_contents, slot]
  cases column.validity.bit index with
  | false => rfl
  | true => rfl

/-- A slot of the one is the slot of the other, or both are null. -/
theorem get_eq_of_get?_eq {slot : Option Bytes} {index : Nat} (h : column.get? index = .ok slot)
    (hother : other.get? index = .ok slot) :
    (∃ value, column.get index = .ok value ∧ other.get index = .ok value) ∨
      column.get index = .error (.error (.raised (.nullSlot index column.name))) ∧
        other.get index = .error (.error (.raised (.nullSlot index other.name))) := by
  rw [Column.get, Column.get, h, hother]
  cases slot with
  | some value => exact .inl ⟨value, rfl, rfl⟩
  | none => exact .inr ⟨rfl, rfl⟩

theorem Twins.answersAlike (h : Twins column other) : column.AnswersAlike other where
  sameSlots_eq := (twins_iff h.reachable h.other_reachable).mp h
  length_eq := by rw [← length_contents, h.contents_eq, length_contents]
  slots_eq := by
    refine ⟨_, h.reachable.wellFormed.slots_eq_ok, ?_⟩
    rw [h.contents_eq]
    exact h.other_reachable.wellFormed.slots_eq_ok
  nullCount_eq := by
    refine ⟨_, h.reachable.wellFormed.nullCount_eq_ok, ?_⟩
    rw [h.contents_eq]
    exact h.other_reachable.wellFormed.nullCount_eq_ok
  isValid_eq := by
    intro index
    refine ⟨_, h.reachable.wellFormed.isValid_eq index, ?_⟩
    rw [h.contents_eq]
    exact h.other_reachable.wellFormed.isValid_eq index
  get?_eq := by
    intro index
    refine ⟨_, h.reachable.wellFormed.shows.2.2 index, ?_⟩
    rw [h.contents_eq]
    exact h.other_reachable.wellFormed.shows.2.2 index
  get_eq := by
    intro index
    have hslot := h.reachable.wellFormed.shows.2.2 index
    rw [h.contents_eq] at hslot
    exact get_eq_of_get?_eq hslot (h.other_reachable.wellFormed.shows.2.2 index)

end Column

namespace Object

open Column

/-- What calls that read no other column leave of a reachable column can be reached. -/
theorem reachable_after {calls : List (Allocator × Call)} {column : Column}
    (h : (Object.column column).Reachable)
    (hcalls : ∀ step ∈ calls, step.1.IsBounded ∧ step.2.source? = none) :
    (Object.column (after calls column)).Reachable := by
  induction calls generalizing column with
  | nil => exact h
  | cons step rest ih =>
    obtain ⟨allocator, call⟩ := step
    obtain ⟨⟨hallocator, hnone⟩, hrest⟩ := List.forall_mem_cons.mp hcalls
    apply ih _ hrest
    refine .call call hallocator h ?_
    intro source hsome
    rw [hnone] at hsome
    cases hsome

/-- What equality of columns means. Of any two columns that calls can make, it can be told whether
they are equal, and they are exactly if they have the same type and show the same list of optional
values. This is an equivalence. If two columns are equal and the same calls are made on both and
succeed, copies being from equal columns and slots being handed over to columns of the same type,
then whatever either was granted they are equal after every call and read alike. -/
theorem sameSlots_bisimulates :
    (∀ column other, (Object.column column).Reachable → (Object.column other).Reachable →
      ∃ slots others, column.Shows slots ∧ other.Shows others ∧
        column.sameSlots other = .ok (decide (column.dtype = other.dtype ∧ slots = others))) ∧
    Equivalence (fun first second : {column : Column // (Object.column column).Reachable} =>
      first.val.sameSlots second.val = .ok true) ∧
    ∀ column other, (Object.column column).Reachable → (Object.column other).Reachable →
      column.sameSlots other = .ok true →
      ∀ after later, Relation.ReflTransGen Moves (column, other) (after, later) →
        after.AnswersAlike later := by
  refine ⟨?_, ?_, ?_⟩
  · intro column other hcolumn hother
    exact ⟨_, _, hcolumn.wellFormed.shows, hother.wellFormed.shows,
      hcolumn.wellFormed.sameSlots_eq hother.wellFormed⟩
  · refine ⟨?_, ?_, ?_⟩
    · rintro ⟨column, hcolumn⟩
      exact (sameSlots_eq_true_iff hcolumn hcolumn).mpr ⟨rfl, rfl⟩
    · rintro ⟨column, hcolumn⟩ ⟨other, hother⟩ hsame
      obtain ⟨hdtype, hcontents⟩ := (sameSlots_eq_true_iff hcolumn hother).mp hsame
      exact (sameSlots_eq_true_iff hother hcolumn).mpr ⟨hdtype.symm, hcontents.symm⟩
    · rintro ⟨column, hcolumn⟩ ⟨other, hother⟩ ⟨last, hlast⟩ hfirst hsecond
      obtain ⟨hdtype, hcontents⟩ := (sameSlots_eq_true_iff hcolumn hother).mp hfirst
      obtain ⟨hnext, hrest⟩ := (sameSlots_eq_true_iff hother hlast).mp hsecond
      exact (sameSlots_eq_true_iff hcolumn hlast).mpr
        ⟨hdtype.trans hnext, hcontents.trans hrest⟩
  · intro column other hcolumn hother hsame after later hrun
    have htwins : Twins column other := (twins_iff hcolumn hother).mpr hsame
    exact (Twins.run hrun htwins).answersAlike

/-- One of two equal columns is for two slots, and has the bytes of a value under its null. The
other is for five, and its null is a slot that was cut off. They are still equal at four slots, and
so are the parts of them from the second slot on. -/
theorem sameSlots_bisimulates_of_regrown :
    let column := Column.after [(.standard, .setGrowing 0 #[1, 0]),
      (.standard, .setGrowing 1 #[9, 9]), (.standard, .setNull 1)] (Column.empty "a" .int16)
    let other := Column.after [(.standard, .reallocateExact 5), (.standard, .setGrowing 0 #[1, 0]),
      (.standard, .setGrowing 3 #[7, 7]), (.standard, .setLength 1), (.standard, .setLength 2)]
      (Column.empty "b" .int16)
    let longer (column : Column) := ((Call.setLength 4).run .standard column).state
    let part (column : Column) := ((Handover.splitAndTransfer 1 3).run .standard
      ⟨column, Column.empty "c" .int16⟩).state.target
    (Object.column column).Reachable ∧ (Object.column other).Reachable ∧
      column.capacity = 2 ∧ other.capacity = 5 ∧ column.sameSlots other = .ok true ∧
      (longer column).AnswersAlike (longer other) ∧
      (part (longer column)).AnswersAlike (part (longer other)) := by
  intro column other longer part
  have hbounded := Allocator.isBounded_standard
  have hcolumn : (Object.column column).Reachable := by
    apply reachable_after (.empty "a" .int16)
    simp only [List.forall_mem_cons]
    exact ⟨⟨hbounded, rfl⟩, ⟨hbounded, rfl⟩, ⟨hbounded, rfl⟩, List.forall_mem_nil _⟩
  have hother : (Object.column other).Reachable := by
    apply reachable_after (.empty "b" .int16)
    simp only [List.forall_mem_cons]
    exact ⟨⟨hbounded, rfl⟩, ⟨hbounded, rfl⟩, ⟨hbounded, rfl⟩, ⟨hbounded, rfl⟩, ⟨hbounded, rfl⟩,
      List.forall_mem_nil _⟩
  have hsame : column.sameSlots other = .ok true := by
    refine (sameSlots_eq_true_iff hcolumn hother).mpr ⟨rfl, ?_⟩
    have hslots : column.contents = [some #[1, 0], none] := by decide
    have hothers : other.contents = [some #[1, 0], none] := by decide
    rw [hslots, hothers]
  have halike : (Call.setLength 4).Alike (Call.setLength 4) := .same rfl
  have hlonger : Moves (column, other) (longer column, longer other) :=
    .call halike hbounded hbounded rfl rfl
  have hpart : Moves (longer column, longer other)
      (part (longer column), part (longer other)) :=
    .handover_target (.splitAndTransfer 1 3) (.empty "c" .int16) (.empty "c" .int16) rfl
      hbounded hbounded rfl rfl
  obtain ⟨-, -, hruns⟩ := sameSlots_bisimulates
  refine ⟨hcolumn, hother, rfl, rfl, hsame, ?_, ?_⟩
  · exact hruns column other hcolumn hother hsame _ _ (.single hlonger)
  · exact hruns column other hcolumn hother hsame _ _ (.tail (.single hlonger) hpart)

end Object

end Columnar
