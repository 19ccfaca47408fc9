import Columnar.Proofs.Ipc.Writer
import Mathlib

/-!
# Sinks that run full

The same calls are made of two writers, one over a sink that never fails and one over a sink that
takes only so many bytes. They do the same until the second sink is full.
-/

namespace Columnar.Ipc

namespace Payload

variable {σ : Type} [Sink σ] {good fair : σ → Prop} {room : σ → Nat} {sink : σ}

/-- All parts are accepted, but the flush after them fails. -/
def FlushesInVain (payload : Payload) (sink : σ) : Prop :=
  match payload with
  | batch _ _ _ => False
  | ending _ => ∃ after, Sink.offerAll payload.parts sink = (none, after) ∧
      (Sink.flush after).1 ≠ none

/-- A sink that never fails takes all that is delivered. -/
theorem deliver_reliable (hgood : Sink.Reliable good) (hsink : good sink) (payload : Payload) :
    (payload.deliver sink).1 = none ∧ good (payload.deliver sink).2 ∧
      (Sink.held (payload.deliver sink).2).toList = (Sink.held sink).toList ++ payload.bytes := by
  have hheld := hgood.held_offerAll hsink payload.parts
  rw [← held_deliver] at hheld
  cases payload with
  | batch rows message padding =>
    obtain ⟨hnone, hafter⟩ := hgood.offerAll_eq hsink (batch rows message padding).parts
    exact ⟨hnone, hafter, hheld⟩
  | ending trailer =>
    obtain ⟨hnone, hafter⟩ := hgood.conclude_eq hsink (ending trailer).parts
    exact ⟨hnone, hafter, hheld⟩

/-- Of what is delivered, a sink takes as much as it has room for. -/
theorem deliver_rationed (hfair : Sink.Rationed room fair) (hsink : fair sink)
    (payload : Payload) :
    fair (payload.deliver sink).2 ∧
      room (payload.deliver sink).2 = room sink - payload.bytes.length ∧
      (Sink.held (payload.deliver sink).2).toList =
        (Sink.held sink).toList ++ payload.bytes.take (room sink) ∧
      ((payload.deliver sink).1 = none ↔
        payload.bytes.length ≤ room sink ∧ ¬ payload.FlushesInVain sink) := by
  cases payload with
  | batch rows message padding =>
    obtain ⟨hafter, hroom, hnone, hheld⟩ :=
      hfair.offerAll_eq hsink (batch rows message padding).parts
    exact ⟨hafter, hroom, hheld, hnone.trans (and_iff_left id).symm⟩
  | ending trailer =>
    obtain ⟨hafter, hroom, hheld, hnone⟩ := hfair.conclude_eq hsink (ending trailer).parts
    refine ⟨hafter, hroom, hheld, hnone.trans (and_congr_right fun _ => ?_)⟩
    constructor
    · rintro hflush ⟨after, hoffer, hfails⟩
      exact hfails (hflush after hoffer)
    · intro hvain after hoffer
      exact Decidable.byContradiction fun hfails => hvain ⟨after, hoffer, hfails⟩

end Payload

/-- The call sends everything it has to, but the flush after it fails. -/
def Turn.FlushesInVain {σ : Type} [Sink σ] (turn : Turn σ) : Prop :=
  ∃ payload, turn.plan = .sent payload ∧ payload.FlushesInVain turn.writer.session.sink

namespace Writer

variable {σ τ : Type} [Sink σ] [Sink τ] {good : σ → Prop} {room : τ → Nat} {fair : τ → Prop}
  {endless : σ} {narrow : τ} {stream : List UInt8} {wide : Writer σ} {strait : Writer τ}

/-! ## Before the call that fails -/

/-- Two writers that have sent the same, and that differ in nothing but their sinks. -/
structure InStep (good : σ → Prop) (room : τ → Nat) (fair : τ → Prop) (endless : σ) (narrow : τ)
    (stream : List UInt8) (wide : Writer σ) (strait : Writer τ) : Prop where
  eq_withSink : strait = wide.withSink strait.session.sink
  good_sink : good wide.session.sink
  fair_sink : fair strait.session.sink
  held_wide : (Sink.held wide.session.sink).toList = (Sink.held endless).toList ++ stream
  held_strait : (Sink.held strait.session.sink).toList = (Sink.held narrow).toList ++ stream
  room_eq : room strait.session.sink + stream.length = room narrow

/-- The second of two writers has failed for its sink, which holds the first bytes of what the
other sink holds. Either these are all that it had room for, or nothing more will be sent to the
other sink. -/
structure Cut (good : σ → Prop) (room : τ → Nat) (endless : σ) (narrow : τ)
    (stream : List UInt8) (wide : Writer σ) (strait : Writer τ) : Prop where
  good_sink : good wide.session.sink
  held_wide : (Sink.held wide.session.sink).toList = (Sink.held endless).toList ++ stream
  held_strait : (Sink.held strait.session.sink).toList =
    (Sink.held narrow).toList ++ stream.take (room narrow)
  stuck : strait.session.phase ≠ .writable
  spent : room narrow < stream.length ∨ wide.session.phase ≠ .writable

namespace InStep

variable (h : InStep good room fair endless narrow stream wide strait)
include h

theorem plan_eq (call : Call) (allocator : Allocator) :
    strait.plan call allocator = wide.plan call allocator := by
  rw [h.eq_withSink, plan_withSink]

/-- What the sinks take makes the writers stay in step. -/
theorem of_taken {after : Writer σ} {wideSink : σ} {straitSink : τ} {sent : List UInt8}
    (hsink : after.session.sink = wideSink) (hgood : good wideSink) (hfair : fair straitSink)
    (hwide : (Sink.held wideSink).toList = (Sink.held wide.session.sink).toList ++ sent)
    (hstrait : (Sink.held straitSink).toList = (Sink.held strait.session.sink).toList ++ sent)
    (hroom : room straitSink + sent.length = room strait.session.sink) :
    InStep good room fair endless narrow (stream ++ sent) after (after.withSink straitSink) where
  eq_withSink := by rw [session_withSink]
  good_sink := by rwa [hsink]
  fair_sink := by rwa [session_withSink]
  held_wide := by rw [hsink, hwide, h.held_wide, List.append_assoc]
  held_strait := by rw [session_withSink, hstrait, h.held_strait, List.append_assoc]
  room_eq := by
    rw [session_withSink, List.length_append]
    have hbefore := h.room_eq
    simp only
    omega

/-- A call that sends nothing, or whose bytes the second sink has room for and can be flushed,
does the same to both writers. -/
theorem act_of_fits (hgood : Sink.Reliable good) (hfair : Sink.Rationed room fair) (call : Call)
    (allocator : Allocator)
    (hfits : ∀ payload, wide.plan call allocator = .sent payload →
      payload.bytes.length ≤ room strait.session.sink ∧
        ¬ payload.FlushesInVain strait.session.sink) :
    (∃ sent, InStep good room fair endless narrow (stream ++ sent)
        (act call allocator wide).state (act call allocator strait).state) ∧
      (act call allocator strait).answer = (act call allocator wide).answer := by
  have hplan := h.plan_eq call allocator
  cases hcase : wide.plan call allocator with
  | refused failure =>
    rw [act_of_refused hcase, act_of_refused (hplan.trans hcase)]
    exact ⟨⟨[], by rw [List.append_nil]; exact h⟩, rfl⟩
  | unframed error =>
    -- an error in framing comes before the sinks are used, so both fail alike
    obtain ⟨hanswer, hstate⟩ := breakAt_withSink strait.session.sink call.step strait.session.sink
      wide.session.sink error wide
    rw [← h.eq_withSink] at hanswer hstate
    rw [act_of_unframed hcase, act_of_unframed (hplan.trans hcase), hstate]
    refine ⟨⟨[], ?_⟩, hanswer⟩
    exact h.of_taken (sink_breakAt _ _ _ _) h.good_sink h.fair_sink (List.append_nil _).symm
      (List.append_nil _).symm rfl
  | sent payload =>
    obtain ⟨hroom, hflush⟩ := hfits payload hcase
    obtain ⟨hwide, hgoodAfter, hheldWide⟩ := payload.deliver_reliable hgood h.good_sink
    obtain ⟨hfairAfter, hleft, hheldStrait, hnone⟩ := payload.deliver_rationed hfair h.fair_sink
    have hstrait := hnone.mpr ⟨hroom, hflush⟩
    rw [List.take_of_length_le hroom] at hheldStrait
    rcases hdeliverWide : payload.deliver wide.session.sink with ⟨answerWide, wideSink⟩
    rcases hdeliverStrait : payload.deliver strait.session.sink with ⟨answerStrait, straitSink⟩
    rw [hdeliverWide] at hwide hgoodAfter hheldWide
    rw [hdeliverStrait] at hstrait hfairAfter hleft hheldStrait
    obtain rfl : answerWide = none := hwide
    obtain rfl : answerStrait = none := hstrait
    have hadvance := advance_withSink strait.session.sink payload straitSink wideSink wide
    rw [← h.eq_withSink] at hadvance
    rw [act_of_sent hcase hdeliverWide, act_of_sent (hplan.trans hcase) hdeliverStrait, hadvance]
    refine ⟨⟨payload.bytes, ?_⟩, rfl⟩
    exact h.of_taken (sink_advance _ _ _) hgoodAfter hfairAfter hheldWide hheldStrait
      (by simp only at hleft; omega)

/-- A call whose bytes the second sink has no room for, or whose flush fails there, makes the
second writer fail, and that sink takes what it has room for. -/
theorem act_of_not_fits (hgood : Sink.Reliable good) (hfair : Sink.Rationed room fair)
    {call : Call} {allocator : Allocator} {payload : Payload}
    (hcase : wide.plan call allocator = .sent payload)
    (hfits : ¬ (payload.bytes.length ≤ room strait.session.sink ∧
      ¬ payload.FlushesInVain strait.session.sink)) :
    Cut good room endless narrow (stream ++ payload.bytes)
        (act call allocator wide).state (act call allocator strait).state ∧
      ∃ error, (act call allocator strait).answer = .error (.error error) ∧ error.isIo := by
  have hplan := h.plan_eq call allocator
  obtain ⟨hwide, hgoodAfter, hheldWide⟩ := payload.deliver_reliable hgood h.good_sink
  obtain ⟨-, -, hheldStrait, hnone⟩ := payload.deliver_rationed hfair h.fair_sink
  rcases hdeliverWide : payload.deliver wide.session.sink with ⟨answerWide, wideSink⟩
  rcases hdeliverStrait : payload.deliver strait.session.sink with ⟨_ | error, straitSink⟩
  · rw [hdeliverStrait] at hnone
    exact absurd (hnone.mp rfl) hfits
  rw [hdeliverWide] at hwide hgoodAfter hheldWide
  rw [hdeliverStrait] at hheldStrait
  obtain rfl : answerWide = none := hwide
  rw [act_of_sent hcase hdeliverWide, act_of_failed (hplan.trans hcase) hdeliverStrait]
  have hroom := h.room_eq
  refine ⟨?_, _, answer_breakAt _ _ _ _, rfl⟩
  exact
    { good_sink := by rwa [sink_advance]
      held_wide := by rw [sink_advance, hheldWide, h.held_wide, List.append_assoc]
      held_strait := by
        -- the bytes taken now complete those taken before to as many as there was room for
        have hcount : room narrow = stream.length + room strait.session.sink := by omega
        rw [sink_breakAt, hheldStrait, h.held_strait, hcount, List.take_length_add_append,
          List.append_assoc]
      stuck := by
        obtain ⟨message, hfailed⟩ := phase_breakAt call.step straitSink (.io error none) strait
        rw [hfailed]
        rintro ⟨⟩
      spent := by
        by_cases hover : payload.bytes.length ≤ room strait.session.sink
        · refine .inr ?_
          have hvain : payload.FlushesInVain strait.session.sink :=
            Classical.byContradiction fun hnot => hfits ⟨hover, hnot⟩
          cases payload with
          | batch rows message padding => exact hvain.elim
          | ending trailer =>
            rw [phase_advance_ending]
            rintro ⟨⟩
        · refine .inl ?_
          rw [List.length_append]
          omega }

end InStep

omit [Sink τ] in
/-- A call on a writer whose sink never fails adds something to what the sink holds. -/
theorem held_act_of_reliable (hgood : Sink.Reliable good) (hsink : good wide.session.sink)
    (call : Call) (allocator : Allocator) :
    good (act call allocator wide).state.session.sink ∧
      ∃ sent, (Sink.held (act call allocator wide).state.session.sink).toList =
        (Sink.held wide.session.sink).toList ++ sent := by
  cases hcase : wide.plan call allocator with
  | refused failure =>
    rw [act_of_refused hcase]
    exact ⟨hsink, [], (List.append_nil _).symm⟩
  | unframed error =>
    rw [act_of_unframed hcase, sink_breakAt]
    exact ⟨hsink, [], (List.append_nil _).symm⟩
  | sent payload =>
    obtain ⟨hnone, hafter, hheld⟩ := payload.deliver_reliable hgood hsink
    rcases hdeliver : payload.deliver wide.session.sink with ⟨answer, after⟩
    rw [hdeliver] at hnone hafter hheld
    obtain rfl : answer = none := hnone
    rw [act_of_sent hcase hdeliver, sink_advance]
    exact ⟨hafter, payload.bytes, hheld⟩

/-- After the call that fails, the second writer only has errors to answer, and its sink takes
nothing more. -/
theorem Cut.act_eq (hgood : Sink.Reliable good)
    (h : Cut good room endless narrow stream wide strait) (call : Call) (allocator : Allocator) :
    (∃ sent, Cut good room endless narrow (stream ++ sent)
        (act call allocator wide).state (act call allocator strait).state) ∧
      ∃ error, act call allocator strait = ⟨.error (.error error), strait, []⟩ := by
  obtain ⟨error, hrefused⟩ := plan_of_ne h.stuck call allocator
  have hstrait := act_of_refused hrefused
  refine ⟨?_, error, hstrait⟩
  rw [hstrait]
  -- either what the first writer still sends is past the room of the second, or it sends nothing
  obtain hover | hstuck := h.spent
  · obtain ⟨hafter, sent, hheld⟩ := held_act_of_reliable hgood h.good_sink call allocator
    refine ⟨sent, hafter, ?_, ?_, h.stuck, .inl ?_⟩
    · rw [hheld, h.held_wide, List.append_assoc]
    · rw [List.take_append_of_le_length (Nat.le_of_lt hover)]
      exact h.held_strait
    · rw [List.length_append]
      omega
  · obtain ⟨error, hrefused⟩ := plan_of_ne hstuck call allocator
    rw [act_of_refused hrefused]
    exact ⟨[], by rw [List.append_nil]; exact h⟩

/-! ## Sequences of calls -/

/-- After the calls the first sink holds no more than the second one has room for, and none of
the calls flushes the second one in vain. -/
def Fits (room : τ → Nat) (endless : σ) (narrow : τ) (steps : List (Allocator × Call))
    (wide : Writer σ) (strait : Writer τ) : Prop :=
  (Sink.held (after steps wide).session.sink).size ≤ (Sink.held endless).size + room narrow ∧
    ∀ turn ∈ turns steps strait, ¬ turn.FlushesInVain

/-- Two writers after a sequence of calls: in step if everything fits, one cut off otherwise. -/
inductive Follows (good : σ → Prop) (room : τ → Nat) (fair : τ → Prop) (endless : σ) (narrow : τ)
    (wide : Writer σ) (strait : Writer τ) (steps : List (Allocator × Call))
    (stream : List UInt8) : Prop where
  | inStep (h : InStep good room fair endless narrow stream (after steps wide)
      (after steps strait)) (hfits : Fits room endless narrow steps wide strait)
  | cut (h : Cut good room endless narrow stream (after steps wide) (after steps strait))
      (hover : ¬ Fits room endless narrow steps wide strait)

variable {before : List (Allocator × Call)}

/-- What fits with one more call fits without it. -/
theorem Fits.of_concat (hgood : Sink.Reliable good)
    (hsink : good (after before wide).session.sink) {allocator : Allocator} {call : Call}
    (h : Fits room endless narrow (before ++ [(allocator, call)]) wide strait) :
    Fits room endless narrow before wide strait := by
  obtain ⟨hsize, hflush⟩ := h
  obtain ⟨-, sent, hheld⟩ := held_act_of_reliable hgood hsink call allocator
  rw [turns_concat] at hflush
  rw [after_concat, ← Array.length_toList, hheld, List.length_append, Array.length_toList] at hsize
  exact ⟨by omega, fun turn hmem => hflush turn (List.mem_append_left _ hmem)⟩

theorem InStep.length_le (h : InStep good room fair endless narrow stream wide strait) :
    (Sink.held wide.session.sink).size ≤ (Sink.held endless).size + room narrow := by
  have hroom := h.room_eq
  rw [← Array.length_toList, h.held_wide, List.length_append, Array.length_toList]
  omega

/-- What one more call does. -/
theorem Follows.concat (hgood : Sink.Reliable good) (hfair : Sink.Rationed room fair)
    (h : Follows good room fair endless narrow wide strait before stream) (allocator : Allocator)
    (call : Call) :
    (∃ sent, Follows good room fair endless narrow wide strait (before ++ [(allocator, call)])
        (stream ++ sent)) ∧
      (Fits room endless narrow (before ++ [(allocator, call)]) wide strait →
        (act call allocator (after before strait)).answer =
          (act call allocator (after before wide)).answer) ∧
      (Fits room endless narrow before wide strait →
        ¬ Fits room endless narrow (before ++ [(allocator, call)]) wide strait →
        ∃ error, (act call allocator (after before strait)).answer = .error (.error error) ∧
          error.isIo) ∧
      (¬ Fits room endless narrow before wide strait →
        ∃ error, act call allocator (after before strait) =
          ⟨.error (.error error), after before strait, []⟩) := by
  cases h with
  | inStep h hfits =>
    by_cases hcall : ∀ payload, (after before wide).plan call allocator = .sent payload →
        payload.bytes.length ≤ room (after before strait).session.sink ∧
          ¬ payload.FlushesInVain (after before strait).session.sink
    · obtain ⟨⟨sent, hnext⟩, hanswer⟩ := h.act_of_fits hgood hfair call allocator hcall
      rw [← after_concat, ← after_concat] at hnext
      have hmore : Fits room endless narrow (before ++ [(allocator, call)]) wide strait := by
        refine ⟨hnext.length_le, ?_⟩
        rw [turns_concat]
        intro turn hmem
        obtain hmem | rfl := (List.mem_append.mp hmem).imp_right List.mem_singleton.mp
        · exact hfits.2 turn hmem
        · rintro ⟨payload, hplan, hvain⟩
          exact (hcall payload ((h.plan_eq call allocator).symm.trans hplan)).2 hvain
      exact ⟨⟨sent, .inStep hnext hmore⟩, fun _ => hanswer, fun _ hover => absurd hmore hover,
        fun hover => absurd hfits hover⟩
    · obtain ⟨payload, hcall⟩ := Classical.not_forall.mp hcall
      obtain ⟨hplan, hnot⟩ := Classical.not_imp.mp hcall
      obtain ⟨hnext, hio⟩ := h.act_of_not_fits hgood hfair hplan hnot
      rw [← after_concat, ← after_concat] at hnext
      have hover : ¬ Fits room endless narrow (before ++ [(allocator, call)]) wide strait := by
        -- were everything to fit, the first sink would not be too long, nor the last flush in vain
        rintro ⟨hsize, hflush⟩
        have hroom := h.room_eq
        refine hnot ⟨?_, fun hvain => ?_⟩
        · rw [← Array.length_toList, hnext.held_wide, List.length_append, List.length_append,
            Array.length_toList] at hsize
          omega
        · refine hflush ⟨after before strait, allocator, call⟩ ?_
            ⟨payload, (h.plan_eq call allocator).trans hplan, hvain⟩
          rw [turns_concat]
          exact List.mem_append_right _ (List.mem_singleton_self _)
      exact ⟨⟨payload.bytes, .cut hnext hover⟩, fun hmore => absurd hmore hover, fun _ _ => hio,
        fun hover => absurd hfits hover⟩
  | cut h hover =>
    obtain ⟨⟨sent, hnext⟩, hstrait⟩ := h.act_eq hgood call allocator
    rw [← after_concat, ← after_concat] at hnext
    have hmore : ¬ Fits room endless narrow (before ++ [(allocator, call)]) wide strait :=
      fun hmore => hover (hmore.of_concat hgood h.good_sink)
    exact ⟨⟨sent, .cut hnext hmore⟩, fun hfits => absurd hfits hmore,
      fun hfits => absurd hfits hover, fun _ => hstrait⟩

/-- The second writer is in step with the first as long as everything fits, and is cut off
after that. -/
theorem InStep.follows (hgood : Sink.Reliable good) (hfair : Sink.Rationed room fair)
    (h : InStep good room fair endless narrow stream wide strait)
    (steps : List (Allocator × Call)) :
    ∃ sent, Follows good room fair endless narrow wide strait steps (stream ++ sent) := by
  induction steps using List.reverseRecOn with
  | nil =>
    refine ⟨[], .inStep (by rw [List.append_nil]; exact h) ⟨h.length_le, ?_⟩⟩
    rintro turn ⟨⟩
  | append_singleton before step ih =>
    obtain ⟨sent, hbefore⟩ := ih
    obtain ⟨⟨more, hnext⟩, -⟩ := hbefore.concat hgood hfair step.1 step.2
    exact ⟨sent ++ more, by rw [← List.append_assoc]; exact hnext⟩

omit [Sink τ] in
/-- What the sink holds grows with every call. -/
theorem held_after_of_reliable (hgood : Sink.Reliable good) (hsink : good wide.session.sink)
    (steps : List (Allocator × Call)) :
    ∃ sent, (Sink.held (after steps wide).session.sink).toList =
      (Sink.held wide.session.sink).toList ++ sent := by
  induction steps generalizing wide with
  | nil => exact ⟨[], (List.append_nil _).symm⟩
  | cons step rest ih =>
    obtain ⟨hnext, first, hfirst⟩ := held_act_of_reliable hgood hsink step.2 step.1
    obtain ⟨more, hmore⟩ := ih hnext
    refine ⟨first ++ more, ?_⟩
    rw [← List.append_assoc, ← hfirst]
    exact hmore

/-! ## Opening -/

/-- The sink once a writer was opened and a sequence of calls was made, if there is a writer. -/
def lastSink (opened : Outcome σ (Writer σ)) (steps : List (Allocator × Call)) : σ :=
  match opened.answer with
  | .ok writer => (after steps writer).session.sink
  | .error _ => opened.state

variable (mode : Mode) (schema : Schema) (alignment : Nat) (allocator : Allocator)

omit [Sink τ] in
/-- Whatever is opened on a sink that never fails, the sink then holds all that was sent. -/
theorem held_lastSink_of_reliable (hgood : Sink.Reliable good) (hendless : good endless)
    (steps : List (Allocator × Call)) :
    ∃ sent, (Sink.held (lastSink (create mode schema alignment allocator endless) steps)).toList =
      (Sink.held endless).toList ++
        (joined ((Session.opening schema alignment).parts (header mode)) ++ sent) := by
  have hheld := hgood.held_offerAll hendless
    ((Session.opening schema alignment).parts (header mode))
  obtain ⟨-, hafter⟩ := hgood.offerAll_eq hendless
    ((Session.opening schema alignment).parts (header mode))
  rw [lastSink]
  cases hanswer : (create mode schema alignment allocator endless).answer with
  | error failure =>
    simp only [state_create]
    exact ⟨[], by rw [List.append_nil]; exact hheld⟩
  | ok writer =>
    obtain ⟨message, padding, sink, hopening, hoffer, rfl⟩ := create_eq_ok hanswer
    rw [hopening] at hafter hheld ⊢
    rw [Session.Opening.parts] at hafter hheld ⊢
    rw [hoffer] at hafter hheld
    have hsink : (ofSession mode
        (Session.opened mode (header mode) schema alignment message padding sink)
        ((message.frame padding).block (header mode).size)).session.sink = sink := by
      rw [session_ofSession, Session.opened]
    obtain ⟨sent, hsent⟩ := held_after_of_reliable hgood (by rwa [hsink]) steps
    rw [hsink, hheld, List.append_assoc] at hsent
    exact ⟨sent, hsent⟩

/-- An opening that the second sink has room for ends in the same way for both, with two
writers in step if there are any. -/
theorem create_of_fits (hgood : Sink.Reliable good) (hfair : Sink.Rationed room fair)
    (hendless : good endless) (hnarrow : fair narrow) {mode : Mode} {schema : Schema}
    {alignment : Nat} (allocator : Allocator)
    (hfits : (joined ((Session.opening schema alignment).parts (header mode))).length ≤
      room narrow) :
    (create mode schema alignment allocator narrow).answer.map (fun _ => ()) =
        (create mode schema alignment allocator endless).answer.map (fun _ => ()) ∧
      ∀ {wide : Writer σ} {strait : Writer τ},
        (create mode schema alignment allocator endless).answer = .ok wide →
        (create mode schema alignment allocator narrow).answer = .ok strait →
        InStep good room fair endless narrow
          (joined ((Session.opening schema alignment).parts (header mode))) wide strait := by
  generalize hparts : (Session.opening schema alignment).parts (header mode) = parts at hfits ⊢
  obtain ⟨hwide, hgoodAfter⟩ := hgood.offerAll_eq hendless parts
  have hheldWide := hgood.held_offerAll hendless parts
  obtain ⟨hfairAfter, hleft, hstrait, hheldStrait⟩ := hfair.offerAll_eq hnarrow parts
  rw [List.take_of_length_le hfits] at hheldStrait
  rcases hofferWide : Sink.offerAll parts endless with ⟨answerWide, wideSink⟩
  rcases hofferStrait : Sink.offerAll parts narrow with ⟨answerStrait, straitSink⟩
  rw [hofferWide] at hwide hgoodAfter hheldWide
  rw [hofferStrait] at hstrait hfairAfter hleft hheldStrait
  obtain rfl : answerWide = none := hwide
  obtain rfl : answerStrait = none := hstrait.mpr hfits
  rw [answer_create, answer_create, hparts, hofferWide, hofferStrait]
  simp only at hleft ⊢
  -- after the same bytes were taken the opening alone decides
  cases Session.opening schema alignment with
  | refused failure => exact ⟨rfl, by rintro _ _ ⟨⟩⟩
  | unframed failure => exact ⟨rfl, by rintro _ _ ⟨⟩⟩
  | framed message padding =>
    refine ⟨rfl, ?_⟩
    rintro _ _ ⟨⟩ ⟨⟩
    exact
      { eq_withSink := by cases mode <;> rfl
        good_sink := by rwa [session_ofSession]
        fair_sink := by rwa [session_ofSession]
        held_wide := by rwa [session_ofSession]
        held_strait := by rwa [session_ofSession]
        room_eq := by
          rw [session_ofSession]
          show room straitSink + _ = _
          omega }

omit [Sink σ] in
/-- An opening that the second sink has no room for fails for it. -/
theorem create_of_not_fits (hfair : Sink.Rationed room fair) (hnarrow : fair narrow)
    {mode : Mode} {schema : Schema} {alignment : Nat} (allocator : Allocator)
    (hfits : room narrow <
      (joined ((Session.opening schema alignment).parts (header mode))).length) :
    ∃ error, (create mode schema alignment allocator narrow).answer = .error (.error error) ∧
      error.isIo := by
  obtain ⟨-, -, hnone, -⟩ := hfair.offerAll_eq hnarrow
    ((Session.opening schema alignment).parts (header mode))
  rw [answer_create]
  rcases hoffer : Sink.offerAll ((Session.opening schema alignment).parts (header mode)) narrow
    with ⟨_ | error, after⟩
  · rw [hoffer] at hnone
    exact absurd (hnone.mp rfl) (Nat.not_le_of_lt hfits)
  · exact ⟨_, rfl, rfl⟩

/-- Whenever both stop, the second sink has taken the first bytes of those that the other one has
taken, as many as it had room for. -/
theorem held_lastSink (hgood : Sink.Reliable good) (hfair : Sink.Rationed room fair)
    (hendless : good endless) (hnarrow : fair narrow) (steps : List (Allocator × Call)) :
    ∃ stream,
      (Sink.held (lastSink (create mode schema alignment allocator endless) steps)).toList =
        (Sink.held endless).toList ++ stream ∧
      (Sink.held (lastSink (create mode schema alignment allocator narrow) steps)).toList =
        (Sink.held narrow).toList ++ stream.take (room narrow) := by
  obtain ⟨-, -, -, htaken⟩ := hfair.offerAll_eq hnarrow
    ((Session.opening schema alignment).parts (header mode))
  have hsent := hgood.held_offerAll hendless
    ((Session.opening schema alignment).parts (header mode))
  rw [← state_create mode schema alignment allocator] at hsent htaken
  by_cases hfits : (joined ((Session.opening schema alignment).parts (header mode))).length ≤
      room narrow
  · obtain ⟨hanswer, hinStep⟩ := create_of_fits hgood hfair hendless hnarrow allocator hfits
    cases hwide : (create mode schema alignment allocator endless).answer with
    | error failure =>
      cases hstrait : (create mode schema alignment allocator narrow).answer with
      | error other =>
        rw [lastSink, lastSink, hwide, hstrait]
        exact ⟨_, hsent, htaken⟩
      | ok strait =>
        rw [hwide, hstrait] at hanswer
        cases hanswer
    | ok wide =>
      cases hstrait : (create mode schema alignment allocator narrow).answer with
      | error failure =>
        rw [hwide, hstrait] at hanswer
        cases hanswer
      | ok strait =>
        obtain ⟨sent, hfollows⟩ := (hinStep hwide hstrait).follows hgood hfair steps
        rw [lastSink, lastSink, hwide, hstrait]
        cases hfollows with
        | inStep h _ =>
          have hroom := h.room_eq
          have hwhole := List.take_of_length_le (Nat.le_of_add_left_le (Nat.le_of_eq hroom))
          exact ⟨_, h.held_wide, by rw [hwhole]; exact h.held_strait⟩
        | cut h _ => exact ⟨_, h.held_wide, h.held_strait⟩
  · -- the second sink is full before there is a writer for it
    have hover := Nat.le_of_not_le hfits
    obtain ⟨error, hstrait, -⟩ :=
      create_of_not_fits hfair hnarrow allocator (Nat.lt_of_not_le hfits)
    obtain ⟨sent, hheld⟩ := held_lastSink_of_reliable mode schema alignment allocator hgood
      hendless steps
    refine ⟨_, hheld, ?_⟩
    rw [lastSink, hstrait, List.take_append_of_le_length hover]
    exact htaken

/-- Of two writers that are opened and used in the same way, one on a sink that never fails and
one on a sink with a certain room, the second does nothing but send less.

- Whenever both stop, the second sink has taken the first bytes of those that the other one has
  taken, as many as it had room for.
- An opening that there is room for ends in the same way, and one that there is none for fails
  for the sink.
- The calls before the first that does not fit answer the same. That one fails for the sink, and
  those after it fail and send nothing. -/
theorem truncated (hgood : Sink.Reliable good) (hfair : Sink.Rationed room fair)
    (hendless : good endless) (hnarrow : fair narrow) (mode : Mode) (schema : Schema)
    (alignment : Nat) (opening : Allocator) :
    let onEndless := create mode schema alignment opening endless
    let onNarrow := create mode schema alignment opening narrow
    (∀ steps, ∃ stream,
      (Sink.held (lastSink onEndless steps)).toList = (Sink.held endless).toList ++ stream ∧
        (Sink.held (lastSink onNarrow steps)).toList =
          (Sink.held narrow).toList ++ stream.take (room narrow)) ∧
      ((Sink.held onEndless.state).size ≤ (Sink.held endless).size + room narrow →
        onNarrow.answer.map (fun _ => ()) = onEndless.answer.map fun _ => ()) ∧
      ((Sink.held endless).size + room narrow < (Sink.held onEndless.state).size →
        ∃ error, onNarrow.answer = .error (.error error) ∧ error.isIo) ∧
      ∀ wide strait, onEndless.answer = .ok wide → onNarrow.answer = .ok strait →
        ∀ before allocator call,
          (Fits room endless narrow (before ++ [(allocator, call)]) wide strait →
            (act call allocator (after before strait)).answer =
              (act call allocator (after before wide)).answer) ∧
          (Fits room endless narrow before wide strait →
            ¬ Fits room endless narrow (before ++ [(allocator, call)]) wide strait →
            ∃ error, (act call allocator (after before strait)).answer = .error (.error error) ∧
              error.isIo) ∧
          (¬ Fits room endless narrow before wide strait →
            ∃ error, act call allocator (after before strait) =
              ⟨.error (.error error), after before strait, []⟩) := by
  intro onEndless onNarrow
  have hsent := hgood.held_offerAll hendless
    ((Session.opening schema alignment).parts (header mode))
  rw [← state_create mode schema alignment opening] at hsent
  have hsize : (Sink.held onEndless.state).size = (Sink.held endless).size +
      (joined ((Session.opening schema alignment).parts (header mode))).length := by
    rw [← Array.length_toList, hsent, List.length_append, Array.length_toList]
  refine ⟨held_lastSink mode schema alignment opening hgood hfair hendless hnarrow, ?_, ?_, ?_⟩
  · intro hfits
    exact (create_of_fits hgood hfair hendless hnarrow opening (by omega)).1
  · intro hover
    exact create_of_not_fits hfair hnarrow opening (by omega)
  · intro wide strait hwide hstrait before allocator call
    by_cases hfits : (joined ((Session.opening schema alignment).parts (header mode))).length ≤
        room narrow
    · obtain ⟨-, hinStep⟩ := create_of_fits hgood hfair hendless hnarrow opening hfits
      obtain ⟨sent, hfollows⟩ := (hinStep hwide hstrait).follows hgood hfair before
      exact (hfollows.concat hgood hfair allocator call).2
    · obtain ⟨error, hfailed, -⟩ :=
        create_of_not_fits hfair hnarrow opening (Nat.lt_of_not_le hfits)
      rw [hfailed] at hstrait
      cases hstrait

set_option maxRecDepth 8000 in
/-- A sink of twenty bytes, three at a time, has room for the schema message but not for the
batch after it. -/
theorem truncated_of_full :
    let schema : Schema := ⟨[⟨"a", .int8, true⟩]⟩
    let batch : RecordBatch := ⟨schema, [Column.empty "a" .int8]⟩
    let narrow : MemorySink :=
      { MemorySink.empty with capacity := some 20, chunk := some 3, interrupts := 2 }
    let write := (Allocator.standard, Call.write batch)
    let close := (Allocator.standard, Call.close)
    ∃ (wide strait : Writer MemorySink) (stream : List UInt8),
      (create .stream schema 2 .standard MemorySink.empty).answer = .ok wide ∧
      (create .stream schema 2 .standard narrow).answer = .ok strait ∧
      (Sink.held (after [write, close] wide).session.sink).toList = stream ∧
      (Sink.held (after [write, close] strait).session.sink).toList = stream.take 20 ∧
      (∃ error, (act write.2 write.1 strait).answer = .error (.error error) ∧ error.isIo) ∧
      ∃ error, act close.2 close.1 (after [write] strait) =
        ⟨.error (.error error), after [write] strait, []⟩ := by
  intro schema batch narrow write close
  let wide : Writer MemorySink := .stream
    { session :=
      { mode := .stream
        phase := .writable
        sink := { MemorySink.empty with
          held := #[14, 0, 0, 0, 1, 1, 0, 1, 0, 0, 0, 1, 0, 0, 0, 97, 1, 1] }
        schema
        alignment := 2
        bytesWritten := 18
        batchesWritten := 0 } }
  let strait : Writer MemorySink := wide.withSink { wide.session.sink with
    capacity := some 20, chunk := some 3 }
  have hwide : (create .stream schema 2 .standard MemorySink.empty).answer = .ok wide := by cbv
  have hstrait : (create .stream schema 2 .standard narrow).answer = .ok strait := by cbv
  have hlimited : narrow.IsLimited := ⟨by decide, by decide⟩
  obtain ⟨hheld, -, -, hcalls⟩ := truncated MemorySink.reliable MemorySink.rationed
    MemorySink.isUnbounded_empty hlimited .stream schema 2 .standard
  obtain ⟨stream, hall, htaken⟩ := hheld [write, close]
  have hopened : Fits MemorySink.left MemorySink.empty narrow [] wide strait := by
    refine ⟨by decide, ?_⟩
    rintro turn ⟨⟩
  have hfull : ¬ Fits MemorySink.left MemorySink.empty narrow [write] wide strait := by
    have hlong : (Sink.held (after [write] wide).session.sink).size = 86 := by cbv
    rintro ⟨hsize, -⟩
    rw [hlong] at hsize
    revert hsize
    decide
  refine ⟨wide, strait, stream, hwide, hstrait, ?_, ?_, ?_, ?_⟩
  · rw [lastSink, hwide] at hall
    exact hall
  · rw [lastSink, hstrait] at htaken
    exact htaken
  · exact (hcalls wide strait hwide hstrait [] .standard (.write batch)).2.1 hopened hfull
  · exact (hcalls wide strait hwide hstrait [write] .standard .close).2.2 hfull

end Writer

end Columnar.Ipc
