import Columnar.Proofs.Column.Reachable

/-! # Columns as lists of optional values -/

namespace Columnar

namespace Column

/-- Reading all slots gives the list, and reading any slot gives the slot of the list. -/
def Shows (column : Column) (slots : List (Option Bytes)) : Prop :=
  column.slots = .ok slots ∧ slots.length = column.length ∧
    ∀ index, column.get? index = .ok slots[index]?.join

/-- What a call that answered like this has made of the list of slots. -/
def Call.effect (call : Call) (answer : Result Unit) (slots : List (Option Bytes)) :
    List (Option Bytes) :=
  match answer with
  | .ok _ => call.onSlots slots
  | .error _ => call.leftSlots slots

/-- The column after a run of calls, each with the allocator that it met. -/
def after : (calls : List (Allocator × Call)) → Column → Column
  | [], column => column
  | (allocator, call) :: rest, column => after rest (call.run allocator column).state

/-- The list of slots after a run of calls that answered as they do on the column. -/
def slotsAfter :
    (calls : List (Allocator × Call)) → Column → List (Option Bytes) → List (Option Bytes)
  | [], _, slots => slots
  | (allocator, call) :: rest, column, slots =>
    slotsAfter rest (call.run allocator column).state
      (call.effect (call.run allocator column).answer slots)

/-- A call on two columns had its effect on the lists that they show, or it failed and left
both columns as they were. -/
def PairCall.Acts (call : PairCall) (pair : Pair Column) (given slots : List (Option Bytes))
    (outcome : Outcome (Pair Column) Unit) : Prop :=
  match outcome.answer with
  | .ok _ =>
    call.InRange given.length ∧ outcome.state.source = call.leaves pair.source ∧
      outcome.state.source.Shows (call.onSource given) ∧
      outcome.state.target.Shows (call.onTarget given slots)
  | .error _ => outcome.state = pair

variable {column source : Column} {pair : Pair Column} {allocator : Allocator}

theorem WellFormed.shows (h : column.WellFormed) : column.Shows column.contents := by
  refine ⟨h.slots_eq_ok, length_contents column, ?_⟩
  intro index
  rw [h.join_contents, h.get?_eq_ok]

/-- One call acts on the column as on the list. -/
theorem Call.run_contents (call : Call) (hallocator : allocator.IsBounded) (h : column.WellFormed)
    (hsource : ∀ source, call.source? = some source → source.WellFormed) :
    (call.run allocator column).state.contents =
      call.effect (call.run allocator column).answer column.contents := by
  obtain hsucceeded | ⟨failure, hfailed⟩ := call.outcome hallocator h hsource
  · rw [hsucceeded.answer_eq, hsucceeded.contents_eq]
    rfl
  · rw [hfailed]
    exact (call.left_wellFormed h).2.2

/-- A run of calls acts on the column as on the list. -/
theorem after_contents {calls : List (Allocator × Call)} (h : column.WellFormed)
    (hcalls : ∀ step ∈ calls, step.1.IsBounded ∧
      ∀ source, step.2.source? = some source → source.WellFormed) :
    (after calls column).WellFormed ∧
      (after calls column).contents = slotsAfter calls column column.contents := by
  induction calls generalizing column with
  | nil => exact ⟨h, rfl⟩
  | cons step rest ih =>
    obtain ⟨allocator, call⟩ := step
    obtain ⟨hallocator, hsource⟩ := hcalls _ List.mem_cons_self
    have hstep := (call.run_wellFormed hallocator h hsource).1
    have hrest := ih hstep fun step hmem => hcalls step (List.mem_cons_of_mem _ hmem)
    rw [call.run_contents hallocator h hsource] at hrest
    exact hrest

theorem PairSucceeded.acts {call : PairCall} {outcome : Outcome (Pair Column) Unit}
    (hsource : pair.source.WellFormed) (hin : call.InRange pair.source.length)
    (h : PairSucceeded pair outcome (call.leaves pair.source)
      (call.onTarget pair.source.contents pair.target.contents)) :
    call.Acts pair pair.source.contents pair.target.contents outcome := by
  obtain ⟨hleft, -, hcontents⟩ := call.leaves_wellFormed hsource
  rw [PairCall.Acts, h.answer_eq]
  refine ⟨?_, h.source_eq, ?_, ?_⟩
  · rw [length_contents]
    exact hin
  · rw [h.source_eq, ← hcontents]
    exact hleft.shows
  · rw [← h.target_contents_eq]
    exact h.target_wellFormed.shows

theorem PairFailed.acts {call : PairCall} {outcome : Outcome (Pair Column) Unit}
    {given slots : List (Option Bytes)} (h : PairFailed pair outcome) :
    call.Acts pair given slots outcome := by
  obtain ⟨failure, rfl⟩ := h
  rfl

theorem PairCall.run_acts (call : PairCall) (hallocator : allocator.IsBounded)
    (hsource : pair.source.WellFormed) (htarget : pair.target.WellFormed)
    (hwidth : pair.source.width = pair.target.width) :
    call.Acts pair pair.source.contents pair.target.contents (call.run allocator pair) := by
  obtain ⟨hsucceeded, hin⟩ | hfailed := call.outcome hallocator hsource htarget hwidth
  · exact hsucceeded.acts hsource hin
  · exact hfailed.acts

theorem Handover.run_acts (call : Handover) (hallocator : allocator.IsBounded)
    (hsource : pair.source.WellFormed) (htarget : pair.target.WellFormed) :
    call.checked.Acts pair pair.source.contents pair.target.contents
      (call.run allocator pair) := by
  obtain ⟨hsucceeded, hin, -⟩ | hfailed := call.outcome hallocator hsource htarget
  · exact hsucceeded.acts hsource hin
  · exact hfailed.acts

end Column

namespace Object

open Column

/-- Every call on a reachable column acts on what is read from it as on a list, and so does
every run of calls. A call that fails leaves the list, or empties it if it allocates anew. A
null slot can be copied anywhere. Calls on two columns act on both lists. -/
theorem Reachable.refines_slots {column target : Column} (h : (Object.column column).Reachable)
    (htarget : (Object.column target).Reachable) :
    ∃ slots others, column.Shows slots ∧ target.Shows others ∧
      (∀ (allocator : Allocator), allocator.IsBounded →
        (∀ call : Call,
          (∀ source, call.source? = some source → (Object.column source).Reachable) →
          (call.run allocator column).state.Shows
            (call.effect (call.run allocator column).answer slots)) ∧
        (target.width = column.width → ∀ position, target.get? position = .ok none →
          ∀ index, copyFrom target position index allocator column = ⟨.ok (), column, []⟩) ∧
        (∀ call : Handover, call.checked.Acts ⟨column, target⟩ slots others
          (call.run allocator ⟨column, target⟩)) ∧
        (∀ pair, Column.pair column target = .ok pair →
          ∀ call : PairCall, call.Acts pair slots others (call.run allocator pair))) ∧
      (∀ calls : List (Allocator × Call),
        (∀ step ∈ calls, step.1.IsBounded ∧
          ∀ source, step.2.source? = some source → (Object.column source).Reachable) →
        (after calls column).Shows (slotsAfter calls column slots)) := by
  have hcolumn : column.WellFormed := h.wellFormed
  have hother : target.WellFormed := htarget.wellFormed
  refine ⟨column.contents, target.contents, hcolumn.shows, hother.shows, ?_, ?_⟩
  · intro allocator hallocator
    refine ⟨?_, ?_, ?_, ?_⟩
    · intro call hsource
      have hsources : ∀ source, call.source? = some source → source.WellFormed :=
        fun source hsome => (hsource source hsome).wellFormed
      rw [← call.run_contents hallocator hcolumn hsources]
      exact (call.run_wellFormed hallocator hcolumn hsources).1.shows
    -- a null is not copied, so that the index is never looked at
    · intro hwidth position hnull index
      rw [hother.get?_eq_ok, Except.ok.injEq] at hnull
      rw [copyFrom, Action.getThe_bind, checkWidth_of_eq hwidth.symm, Action.liftM_ok_bind,
        copySlot_of_none hother hnull]
    · intro call
      exact call.run_acts hallocator hcolumn hother
    · intro pair hpair call
      obtain ⟨rfl, hwidth⟩ := pair_eq_ok hpair
      exact call.run_acts hallocator hcolumn hother hwidth
  · intro calls hcalls
    have hrun := after_contents hcolumn fun step hmem =>
      ⟨(hcalls step hmem).1, fun source hsome => ((hcalls step hmem).2 source hsome).wellFormed⟩
    rw [← hrun.2]
    exact hrun.1.shows

/-- A slot that was written and cut off is null when the column gets it back. -/
theorem refines_slots_of_regrown :
    (after [(.standard, .setGrowing 2 #[7, 0]), (.standard, .setLength 1),
      (.standard, .setLength 3)] (Column.empty "a" .int16)).Shows [none, none, none] := by
  obtain ⟨slots, others, ⟨hslots, -, -⟩, -, -, hruns⟩ :=
    Reachable.refines_slots (.empty "a" .int16) (.empty "b" .int16)
  obtain rfl : [] = slots := Except.ok.inj hslots
  apply hruns
  intro step hmem
  simp only [List.mem_cons, List.not_mem_nil, or_false] at hmem
  obtain rfl | rfl | rfl := hmem
  · exact ⟨Allocator.isBounded_standard, by rintro _ ⟨⟩⟩
  · exact ⟨Allocator.isBounded_standard, by rintro _ ⟨⟩⟩
  · exact ⟨Allocator.isBounded_standard, by rintro _ ⟨⟩⟩

end Object

end Columnar
