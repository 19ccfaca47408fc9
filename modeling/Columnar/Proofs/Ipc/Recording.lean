import Columnar.Proofs.Ipc.Writer

/-!
# How a sink is used

A recorded sink notes every use that is made of it and what it answered, and is otherwise the same.
-/

namespace Columnar.Ipc

namespace Sink

/-- A use of a sink, with its answer. -/
inductive Use where
  | offered (bytes : Bytes) (reply : Reply)
  | flushed (error : Option IoError)

/-- The sink reports an error, or takes nothing of an offer that is not empty. -/
def Use.Fails : Use → Prop
  | offered bytes reply => bytes.size ≠ 0 ∧ (reply = .accepted 0 ∨ ∃ error, reply = .failed error)
  | flushed error => error ≠ none

/-- A sink and the uses that were made of it. -/
structure Recorded (σ : Type) where
  sink : σ
  uses : List Use

section

variable {σ : Type} {before uses : List Use} {plain : Option IoError × σ}
  {outcome : Option IoError × Recorded σ}

/-- What becomes of a recorded sink is what becomes of the sink itself, and one of the uses noted
has failed exactly if there is an error. -/
def Echoes (before : List Use) (plain : Option IoError × σ)
    (outcome : Option IoError × Recorded σ) : Prop :=
  ∃ uses, outcome = (plain.1, ⟨plain.2, before ++ uses⟩) ∧
    ((∃ use ∈ uses, use.Fails) ↔ plain.1 ≠ none)

theorem echoes_none (before : List Use) (sink : σ) :
    Echoes before (none, sink) (none, ⟨sink, before⟩) :=
  ⟨[], by rw [List.append_nil], by simp⟩

/-- A use that has failed comes last. -/
theorem echoes_of_fails (before : List Use) (use : Use) (h : use.Fails) (error : IoError)
    (sink : σ) : Echoes before (some error, sink) (some error, ⟨sink, before ++ [use]⟩) :=
  ⟨[use], rfl, by simp [h]⟩

/-- What follows uses that have not failed decides. -/
theorem Echoes.of_append (h : Echoes (before ++ uses) plain outcome)
    (huses : ∀ use ∈ uses, ¬ use.Fails) : Echoes before plain outcome := by
  obtain ⟨more, houtcome, hiff⟩ := h
  refine ⟨uses ++ more, by rw [houtcome, List.append_assoc], ?_⟩
  rw [← hiff]
  constructor
  · rintro ⟨use, hmem, hfails⟩
    obtain hmem | hmem := List.mem_append.mp hmem
    · exact absurd hfails (huses use hmem)
    · exact ⟨use, hmem, hfails⟩
  · rintro ⟨use, hmem, hfails⟩
    exact ⟨use, List.mem_append_right _ hmem, hfails⟩

/-- Without an error none of the uses noted has failed. -/
theorem Echoes.of_none {sink : σ} (h : Echoes before (none, sink) outcome) :
    ∃ uses, outcome = (none, ⟨sink, before ++ uses⟩) ∧ ∀ use ∈ uses, ¬ use.Fails := by
  obtain ⟨uses, houtcome, hiff⟩ := h
  exact ⟨uses, houtcome, fun use hmem hfails => hiff.mp ⟨use, hmem, hfails⟩ rfl⟩

end

variable {σ : Type} [Sink σ]

instance : Sink (Recorded σ) where
  held recorded := held recorded.sink
  write recorded bytes :=
    ((write recorded.sink bytes).1, ⟨(write recorded.sink bytes).2,
      recorded.uses ++ [.offered bytes (write recorded.sink bytes).1]⟩)
  flush recorded :=
    ((flush recorded.sink).1, ⟨(flush recorded.sink).2,
      recorded.uses ++ [.flushed (flush recorded.sink).1]⟩)
  patience recorded := patience recorded.sink
  count_le recorded bytes := count_le recorded.sink bytes
  held_write recorded bytes := held_write recorded.sink bytes
  patience_lt recorded bytes := patience_lt recorded.sink bytes
  held_flush recorded := held_flush recorded.sink

/-- One offer, by what the sink answers. -/
theorem offer_of_size {bytes : Bytes} (hsize : bytes.size ≠ 0) (sink : σ) :
    offer bytes sink =
      match write sink bytes with
      | (.accepted 0, after) => (some .nothingAccepted, after)
      | (.accepted (count + 1), after) => offer (bytes.extract (count + 1) bytes.size) after
      | (.interrupted, after) => offer bytes after
      | (.failed error, after) => (some error, after) := by
  rw [offer, dif_neg hsize]
  split <;> simp only [*]

theorem echoes_offer (bytes : Bytes) (sink : σ) (before : List Use) :
    Echoes before (offer bytes sink) (offer bytes (⟨sink, before⟩ : Recorded σ)) := by
  have hnoted : write (⟨sink, before⟩ : Recorded σ) bytes =
      ((write sink bytes).1, ⟨(write sink bytes).2,
        before ++ [.offered bytes (write sink bytes).1]⟩) := rfl
  fun_induction offer bytes sink generalizing before with
  | case1 bytes sink hsize =>
    rw [offer, dif_pos hsize]
    exact echoes_none before sink
  | case2 bytes sink hsize after hwrite =>
    rw [hwrite] at hnoted
    rw [offer_of_size hsize (⟨sink, before⟩ : Recorded σ), hnoted]
    exact echoes_of_fails before (.offered bytes (.accepted 0)) ⟨hsize, .inl rfl⟩ _ after
  -- that a part was taken is no failure, so whether one was noted is up to the rest
  | case3 bytes sink hsize count after hwrite ih =>
    rw [hwrite] at hnoted
    rw [offer_of_size hsize (⟨sink, before⟩ : Recorded σ), hnoted]
    refine (ih _ rfl).of_append (List.forall_mem_singleton.mpr ?_)
    rintro ⟨-, hreply | ⟨error, hreply⟩⟩ <;> cases hreply
  | case4 bytes sink hsize after hwrite ih =>
    rw [hwrite] at hnoted
    rw [offer_of_size hsize (⟨sink, before⟩ : Recorded σ), hnoted]
    refine (ih _ rfl).of_append (List.forall_mem_singleton.mpr ?_)
    rintro ⟨-, hreply | ⟨error, hreply⟩⟩ <;> cases hreply
  | case5 bytes sink hsize error after hwrite =>
    rw [hwrite] at hnoted
    rw [offer_of_size hsize (⟨sink, before⟩ : Recorded σ), hnoted]
    exact echoes_of_fails before (.offered bytes (.failed error)) ⟨hsize, .inr ⟨error, rfl⟩⟩ _ after

theorem echoes_offerAll (parts : List Bytes) (sink : σ) (before : List Use) :
    Echoes before (offerAll parts sink) (offerAll parts (⟨sink, before⟩ : Recorded σ)) := by
  induction parts generalizing sink before with
  | nil => exact echoes_none before sink
  | cons part rest ih =>
    have hfirst := echoes_offer part sink before
    rw [offerAll, offerAll]
    rcases hoffer : offer part sink with ⟨_ | error, after⟩ <;> rw [hoffer] at hfirst
    · obtain ⟨uses, hnoted, hnone⟩ := hfirst.of_none
      rw [hnoted]
      exact (ih after _).of_append hnone
    · obtain ⟨uses, hnoted, hiff⟩ := hfirst
      rw [hnoted]
      exact ⟨uses, rfl, hiff⟩

theorem echoes_flush (sink : σ) (before : List Use) :
    Echoes before (flush sink) (flush (⟨sink, before⟩ : Recorded σ)) :=
  ⟨[.flushed (flush sink).1], rfl, by simp [Use.Fails]⟩

theorem echoes_deliver (payload : Payload) (sink : σ) (before : List Use) :
    Echoes before (payload.deliver sink) (payload.deliver (⟨sink, before⟩ : Recorded σ)) := by
  cases payload with
  | batch rows message padding => exact echoes_offerAll _ sink before
  | ending trailer =>
    have hparts := echoes_offerAll (Payload.ending trailer).parts sink before
    rw [Payload.deliver, Payload.deliver, conclude, conclude]
    rcases hoffer : offerAll (Payload.ending trailer).parts sink with ⟨_ | error, after⟩ <;>
      rw [hoffer] at hparts
    · obtain ⟨uses, hnoted, hnone⟩ := hparts.of_none
      rw [hnoted]
      exact (echoes_flush after _).of_append hnone
    · obtain ⟨uses, hnoted, hiff⟩ := hparts
      rw [hnoted]
      exact ⟨uses, rfl, hiff⟩

end Sink

namespace Turn

variable {σ : Type} [Sink σ] (turn : Turn σ)

/-- The call as it is on a writer whose sink is recorded from then on. -/
def recorded : Outcome (Writer (Sink.Recorded σ)) Unit :=
  Writer.act turn.call turn.allocator (turn.writer.withSink ⟨turn.writer.session.sink, []⟩)

/-- The uses that the call makes of its sink. -/
def uses : List Sink.Use :=
  turn.recorded.state.session.sink.uses

omit [Sink σ] in
theorem plan_recorded :
    (turn.writer.withSink (⟨turn.writer.session.sink, []⟩ : Sink.Recorded σ)).plan turn.call
      turn.allocator = turn.plan :=
  Writer.plan_withSink _ turn.call turn.writer

/-- A call with a record, by what it plans: it answers and leaves what it does without one, and the
uses noted are none if nothing is sent. -/
theorem recorded_cases : ∃ uses, turn.recorded.answer = turn.outcome.answer ∧
    turn.recorded.state = turn.outcome.state.withSink ⟨turn.outcome.state.session.sink, uses⟩ ∧
    match turn.plan with
    | .sent payload =>
      (∃ use ∈ uses, use.Fails) ↔ (payload.deliver turn.writer.session.sink).1 ≠ none
    | _ => uses = [] := by
  cases hplan : turn.plan with
  | refused failure =>
    have hplain : turn.outcome = _ := Writer.act_of_refused hplan
    have hnoted : turn.recorded = _ := Writer.act_of_refused (turn.plan_recorded.trans hplan)
    rw [hplain, hnoted]
    exact ⟨[], rfl, rfl, rfl⟩
  | unframed error =>
    have hplain : turn.outcome = _ := Writer.act_of_unframed hplan
    have hnoted : turn.recorded = _ := Writer.act_of_unframed (turn.plan_recorded.trans hplan)
    obtain ⟨hanswer, hstate⟩ := Writer.breakAt_withSink
      (⟨turn.writer.session.sink, []⟩ : Sink.Recorded σ) turn.call.step
      ⟨turn.writer.session.sink, []⟩ turn.writer.session.sink error turn.writer
    rw [hplain, hnoted, Writer.session_withSink, Writer.sink_breakAt]
    exact ⟨[], hanswer, hstate, rfl⟩
  | sent payload =>
    obtain ⟨uses, hdeliver, hiff⟩ := Sink.echoes_deliver payload turn.writer.session.sink []
    have hplanned := turn.plan_recorded.trans hplan
    -- with a record the sink replies as it does without
    have hsame : payload.deliver (turn.writer.withSink
        (⟨turn.writer.session.sink, []⟩ : Sink.Recorded σ)).session.sink =
          ((payload.deliver turn.writer.session.sink).1,
            ⟨(payload.deliver turn.writer.session.sink).2, uses⟩) := by
      rw [Writer.session_withSink]
      exact hdeliver
    rcases hsent : payload.deliver turn.writer.session.sink with ⟨_ | error, after⟩ <;>
      rw [hsent] at hsame
    · have hplain : turn.outcome = _ := Writer.act_of_sent hplan hsent
      have hnoted : turn.recorded = _ := Writer.act_of_sent hplanned hsame
      rw [hplain, hnoted, Writer.sink_advance]
      exact ⟨uses, rfl, Writer.advance_withSink _ payload _ after turn.writer, hiff⟩
    · have hplain : turn.outcome = _ := Writer.act_of_failed hplan hsent
      have hnoted : turn.recorded = _ := Writer.act_of_failed hplanned hsame
      obtain ⟨hanswer, hstate⟩ := Writer.breakAt_withSink
        (⟨turn.writer.session.sink, []⟩ : Sink.Recorded σ) turn.call.step ⟨after, uses⟩ after
        (.io error none) turn.writer
      rw [hplain, hnoted, Writer.sink_breakAt]
      exact ⟨uses, hanswer, hstate, hiff⟩

/-- A call that sends something uses its sink, and one of the uses has failed exactly if the sink
did not take it. -/
theorem uses_fail_iff {payload : Payload} (hplan : turn.plan = .sent payload) :
    (∃ use ∈ turn.uses, use.Fails) ↔ (payload.deliver turn.writer.session.sink).1 ≠ none := by
  obtain ⟨uses, -, hstate, hiff⟩ := turn.recorded_cases
  rw [hplan] at hiff
  rw [Turn.uses, hstate, Writer.session_withSink]
  exact hiff

/-- A call that sends nothing does not use its sink. -/
theorem uses_of_unsent (hplan : ∀ payload, turn.plan ≠ .sent payload) : turn.uses = [] := by
  obtain ⟨uses, -, hstate, hnone⟩ := turn.recorded_cases
  rw [Turn.uses, hstate, Writer.session_withSink]
  cases hcase : turn.plan with
  | sent payload => exact absurd hcase (hplan payload)
  | refused failure =>
    rw [hcase] at hnone
    exact hnone
  | unframed error =>
    rw [hcase] at hnone
    exact hnone

end Turn

end Columnar.Ipc
