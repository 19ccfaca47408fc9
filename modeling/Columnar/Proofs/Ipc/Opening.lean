import Columnar.Proofs.Ipc.Alignment
import Columnar.Proofs.Ipc.Writer
import Mathlib

/-! # Writers that cannot be opened -/

namespace Columnar.Ipc

namespace Writer

variable {σ : Type} [Sink σ]

/-- A writer is opened with a power of two only, and the schema message is a multiple of it. -/
theorem alignment_of_create {mode : Mode} {schema : Schema} {alignment : Nat}
    {allocator : Allocator} {sink : σ} {writer : Writer σ}
    (hopen : (create mode schema alignment allocator sink).answer = .ok writer) :
    IsPowerOfTwo alignment ∧ alignment < wordBound := by
  obtain ⟨message, padding, -, hframed, -, -⟩ := create_eq_ok hopen
  obtain ⟨metadata, -, rfl, hpadding⟩ := Session.opening_eq_framed hframed
  have halignment : IsPowerOfTwo alignment := by
    obtain ⟨failure, hrefused, -⟩ | ⟨-, hcheck, -, -⟩ := Session.opening_cases schema alignment
    · cases hframed.symm.trans hrefused
    · exact Alignment.check_eq_ok hcheck
  obtain ⟨-, hlt⟩ := Message.padding?_eq_ok hpadding
  obtain ⟨hdvd, -⟩ := Alignment.padding_eq_ok halignment (Message.padding?_eq_padding hpadding)
  exact ⟨halignment, Nat.lt_of_le_of_lt (Nat.le_of_dvd (by rw [Message.wordSize]; omega) hdvd) hlt⟩

/-- If a writer cannot be opened and the sink has not failed, then nothing was sent, or the header
was sent and the schema message cannot be framed. -/
theorem create_eq_error {mode : Mode} {schema : Schema} {alignment : Nat} {allocator : Allocator}
    {sink : σ} {failure : Failure}
    (h : (create mode schema alignment allocator sink).answer = .error failure)
    (hsink : ∀ error, failure = .error error → error.isIo = false) :
    ((create mode schema alignment allocator sink).state = sink ∧
        (Alignment.check alignment = .error failure ∨ schema.encode = .error failure)) ∨
      ∃ metadata cause, Alignment.check alignment = .ok () ∧ schema.encode = .ok metadata ∧
        Message.padding? ⟨metadata.toArray, #[]⟩ alignment = .error cause ∧
        failure = Session.failedAt (Session.place mode "open") cause ∧
        (Sink.held (create mode schema alignment allocator sink).state).toList =
          (Sink.held sink).toList ++ (header mode).toList := by
  have hstate := state_create mode schema alignment allocator sink
  rw [answer_create] at h
  rcases hoffer : Sink.offerAll ((Session.opening schema alignment).parts (header mode)) sink with
    ⟨_ | error, after⟩
  · rw [hoffer] at h hstate
    simp only at h hstate
    obtain ⟨other, hopening, hfault⟩ | ⟨metadata, halignment, hmetadata, hrest⟩ :=
      Session.opening_cases schema alignment
    · rw [hopening] at h hoffer
      obtain rfl := Except.error.inj h
      obtain rfl : sink = after := congrArg Prod.snd hoffer
      exact .inl ⟨hstate, hfault⟩
    obtain ⟨cause, hopening, hpadding⟩ | ⟨padding, hopening, -⟩ := hrest
    · -- the header is the only part that is offered of a message that cannot be framed
      obtain ⟨count, -, hheld, hall⟩ :=
        Sink.held_offerAll ((Session.opening schema alignment).parts (header mode)) sink
      rw [hoffer] at hheld hall
      rw [hall.mp rfl, List.take_length, hopening] at hheld
      rw [hopening] at h
      refine .inr ⟨metadata, cause, halignment, hmetadata, hpadding,
        (Except.error.inj h).symm, ?_⟩
      rw [hstate, hheld]
      simp [Session.Opening.parts]
    · rw [hopening] at h
      cases h
  · rw [hoffer] at h
    obtain rfl := Except.error.inj h
    cases hsink _ rfl

/-- An alignment of `2 ^ 32` is a power of two, but too large for any word to hold the length of
metadata that is padded to it. -/
theorem opening_of_huge_alignment : Session.opening ⟨[⟨"a", .int8, true⟩]⟩ 0x100000000 =
    .unframed (.error (.raised (.metadataTooLong 14))) := by
  have halignment : Alignment.check 0x100000000 = .ok () :=
    if_pos (isPowerOfTwo_iff.mpr ⟨32, rfl⟩)
  have hmetadata : Schema.encode ⟨[⟨"a", .int8, true⟩]⟩ =
      .ok [1, 1, 0, 1, 0, 0, 0, 1, 0, 0, 0, 97, 1, 1] := by cbv
  rw [Session.opening, halignment, hmetadata]
  cbv

/-- A writer of streams has no header, so its sink holds nothing then. -/
theorem create_stream_of_huge_alignment :
    let opened := create .stream ⟨[⟨"a", .int8, true⟩]⟩ 0x100000000 .standard MemorySink.empty
    ∃ error, opened.answer = .error (.error error) ∧ error.isIo = false ∧
      (Sink.held opened.state).toList = [] := by
  intro opened
  have hanswer : opened.answer = .error (.error
      (.within (.raised (.metadataTooLong 14)) (Session.place .stream "open"))) := by
    rw [answer_create, opening_of_huge_alignment]
    cbv
  refine ⟨_, hanswer, rfl, ?_⟩
  obtain ⟨hstate, -⟩ | ⟨metadata, cause, -, -, -, -, hheld⟩ :=
    create_eq_error hanswer (by rintro _ ⟨⟩; rfl)
  · rw [hstate]
    rfl
  · exact hheld

/-- A writer of files has sent its header by then. -/
theorem create_file_of_huge_alignment :
    let opened := create .file ⟨[⟨"a", .int8, true⟩]⟩ 0x100000000 .standard MemorySink.empty
    ∃ error, opened.answer = .error (.error error) ∧ error.isIo = false ∧
      (Sink.held opened.state).size = 8 := by
  intro opened
  have hanswer : opened.answer = .error (.error
      (.within (.raised (.metadataTooLong 14)) (Session.place .file "open"))) := by
    rw [answer_create, opening_of_huge_alignment]
    cbv
  refine ⟨_, hanswer, rfl, ?_⟩
  rw [state_create, opening_of_huge_alignment]
  cbv

end Writer

end Columnar.Ipc
