import Columnar.Proofs.Column.Call

/-! # Calls on two columns and their outcome -/

namespace Columnar

namespace Column

variable {pair : Pair Column} {allocator : Allocator}

/-- A call on a pair of columns of one width. -/
inductive PairCall where
  | moveBuffers
  | splitInto (start length : Nat)
  | copyValue (position index : Nat)

namespace PairCall

def run : PairCall → Action (Pair Column) Unit
  | moveBuffers => Column.moveBuffers
  | splitInto start length => Column.splitInto start length
  | copyValue position index => Column.copyValue position index

/-- A range of slots that is split off is one of the source, which has `count` slots. -/
def InRange (call : PairCall) (count : Nat) : Prop :=
  match call with
  | splitInto start length => start + length ≤ count
  | moveBuffers | copyValue _ _ => True

/-- What the call leaves of the source when it succeeds. -/
def leaves (call : PairCall) (source : Column) : Column :=
  match call with
  | moveBuffers => source.cleared
  | splitInto _ _ | copyValue _ _ => source

/-- What the call makes of the slots of the source when it succeeds. -/
def onSource (call : PairCall) (slots : List (Option Bytes)) : List (Option Bytes) :=
  match call with
  | moveBuffers => []
  | splitInto _ _ | copyValue _ _ => slots

/-- What the call makes of the slots of the target when it succeeds. -/
def onTarget (call : PairCall) (given slots : List (Option Bytes)) : List (Option Bytes) :=
  match call with
  | moveBuffers => given
  | splitInto start length => (given.drop start).take length
  | copyValue position index =>
    match given[position]? with
    | some (some value) => Slots.put slots index (some value)
    | _ => slots

theorem leaves_wellFormed (call : PairCall) {source : Column} (h : source.WellFormed) :
    (call.leaves source).WellFormed ∧ (call.leaves source).dtype = source.dtype ∧
      (call.leaves source).contents = call.onSource source.contents := by
  cases call with
  | moveBuffers => exact ⟨h.cleared, rfl, contents_cleared source⟩
  | splitInto _ _ => exact ⟨h, rfl, rfl⟩
  | copyValue _ _ => exact ⟨h, rfl, rfl⟩

end PairCall

/-- A call on a pair succeeded and left the given source and a well-formed target with the
given slots. -/
structure PairSucceeded (pair : Pair Column) (outcome : Outcome (Pair Column) Unit)
    (source : Column) (slots : List (Option Bytes)) : Prop where
  answer_eq : outcome.answer = .ok ()
  source_eq : outcome.state.source = source
  target_wellFormed : outcome.state.target.WellFormed
  target_dtype_eq : outcome.state.target.dtype = pair.target.dtype
  target_contents_eq : outcome.state.target.contents = slots

/-- A call on a pair failed, reported nothing and left both columns as they were. -/
def PairFailed (pair : Pair Column) (outcome : Outcome (Pair Column) Unit) : Prop :=
  ∃ failure, outcome = ⟨.error failure, pair, []⟩

/-- A range was split off only if it is a range of the source. -/
theorem splitInto_outcome (hallocator : allocator.IsBounded) (hsource : pair.source.WellFormed)
    (htarget : pair.target.WellFormed) (hwidth : pair.source.width = pair.target.width)
    (start length : Nat) :
    PairSucceeded pair (splitInto start length allocator pair) pair.source
          ((pair.source.contents.drop start).take length) ∧
        start + length ≤ pair.source.length ∨
      PairFailed pair (splitInto start length allocator pair) := by
  obtain ⟨source, target⟩ := pair
  obtain ⟨part, hok, hin, hbits, hpart⟩ | ⟨cause, hrefused⟩ :=
    splitInto_cases hallocator hsource htarget hwidth start length
  · rw [hok]
    refine .inl ⟨?_, hin⟩
    exact
      { answer_eq := rfl
        source_eq := rfl
        target_wellFormed := hpart
        target_dtype_eq := rfl
        target_contents_eq := contents_withPart hsource hwidth hin hbits }
  · exact .inr ⟨_, hrefused⟩

theorem moveBuffers_succeeded (hsource : pair.source.WellFormed)
    (htarget : pair.target.WellFormed) (hwidth : pair.source.width = pair.target.width) :
    PairSucceeded pair (moveBuffers allocator pair) pair.source.cleared pair.source.contents where
  answer_eq := rfl
  source_eq := rfl
  target_wellFormed := htarget.holding hsource hwidth
  target_dtype_eq := rfl
  target_contents_eq := contents_holding hwidth

theorem copyValue_eq (hwidth : pair.source.width = pair.target.width) (position index : Nat) :
    copyValue position index allocator pair =
      Action.onPart Pair.target (fun pair target => { pair with target })
        (copyFromGrowing pair.source position index) allocator pair := by
  have hcopy : (do
      makeRoom index
      copySlot pair.source position index : Action Column Unit) allocator pair.target =
        copyFromGrowing pair.source position index allocator pair.target := by
    rw [copyFromGrowing, Action.getThe_bind, checkWidth_of_eq hwidth.symm, Action.liftM_ok_bind]
  rw [copyValue, Action.getThe_bind, Action.onPart, Action.onPart, hcopy]

theorem copyValue_outcome (hallocator : allocator.IsBounded) (hsource : pair.source.WellFormed)
    (htarget : pair.target.WellFormed) (hwidth : pair.source.width = pair.target.width)
    (position index : Nat) :
    PairSucceeded pair (copyValue position index allocator pair) pair.source
        ((PairCall.copyValue position index).onTarget pair.source.contents
          pair.target.contents) ∨
      PairFailed pair (copyValue position index allocator pair) := by
  have hslots : (Call.copyFromGrowing pair.source position index).onSlots pair.target.contents =
      (PairCall.copyValue position index).onTarget pair.source.contents pair.target.contents := by
    rw [Call.onSlots, PairCall.onTarget, hsource.get?_eq_ok, ← hsource.join_contents]
    rcases pair.source.contents[position]? with _ | _ | value
    · rfl
    · rfl
    · rfl
  rw [copyValue_eq hwidth, ← hslots]
  obtain hsucceeded | ⟨failure, hfailed⟩ :=
    copyFromGrowing_outcome hallocator htarget hsource position index
  · left
    exact
      { answer_eq := hsucceeded.answer_eq
        source_eq := rfl
        target_wellFormed := hsucceeded.wellFormed
        target_dtype_eq := hsucceeded.dtype_eq
        target_contents_eq := hsucceeded.contents_eq }
  · exact .inr ⟨failure, Action.onPart_apply hfailed⟩

/-- Any call on a pair of one width has its effect on the slots of both columns, or it fails
and both are as they were. -/
theorem PairCall.outcome (call : PairCall) (hallocator : allocator.IsBounded)
    (hsource : pair.source.WellFormed) (htarget : pair.target.WellFormed)
    (hwidth : pair.source.width = pair.target.width) :
    PairSucceeded pair (call.run allocator pair) (call.leaves pair.source)
          (call.onTarget pair.source.contents pair.target.contents) ∧
        call.InRange pair.source.length ∨
      PairFailed pair (call.run allocator pair) := by
  cases call with
  | moveBuffers => exact .inl ⟨moveBuffers_succeeded hsource htarget hwidth, trivial⟩
  | splitInto start length =>
    exact splitInto_outcome hallocator hsource htarget hwidth start length
  | copyValue position index =>
    obtain hsucceeded | hfailed :=
      copyValue_outcome hallocator hsource htarget hwidth position index
    · exact .inl ⟨hsucceeded, trivial⟩
    · exact .inr hfailed

/-- A call on any two columns. -/
inductive Handover where
  | transfer
  | splitAndTransfer (start length : Nat)

namespace Handover

def run : Handover → Action (Pair Column) Unit
  | transfer => Column.transfer
  | splitAndTransfer start length => Column.splitAndTransfer start length

/-- The call that it is on columns of one width. -/
def checked : Handover → PairCall
  | transfer => .moveBuffers
  | splitAndTransfer start length => .splitInto start length

theorem run_of_eq (call : Handover) (hwidth : pair.source.width = pair.target.width) :
    call.run allocator pair = call.checked.run allocator pair := by
  cases call with
  | transfer => exact transfer_eq hwidth
  | splitAndTransfer start length => exact splitAndTransfer_of_eq hwidth start length

theorem run_of_ne (call : Handover) (hwidth : pair.source.width ≠ pair.target.width) :
    PairFailed pair (call.run allocator pair) := by
  cases call with
  | transfer => exact ⟨_, transfer_of_ne hwidth⟩
  | splitAndTransfer start length => exact ⟨_, splitAndTransfer_of_ne hwidth start length⟩

theorem outcome (call : Handover) (hallocator : allocator.IsBounded)
    (hsource : pair.source.WellFormed) (htarget : pair.target.WellFormed) :
    PairSucceeded pair (call.run allocator pair) (call.checked.leaves pair.source)
          (call.checked.onTarget pair.source.contents pair.target.contents) ∧
        call.checked.InRange pair.source.length ∧ pair.source.width = pair.target.width ∨
      PairFailed pair (call.run allocator pair) := by
  by_cases hwidth : pair.source.width = pair.target.width
  · rw [call.run_of_eq hwidth]
    obtain ⟨hsucceeded, hin⟩ | hfailed := call.checked.outcome hallocator hsource htarget hwidth
    · exact .inl ⟨hsucceeded, hin, hwidth⟩
    · exact .inr hfailed
  · exact .inr (call.run_of_ne hwidth)

end Handover

end Column

end Columnar
