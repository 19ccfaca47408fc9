import Columnar.Proofs.Ipc.Offers
import Columnar.Proofs.Ipc.Reading

/-! # Sending messages -/

namespace Columnar.Ipc

namespace Message

variable {σ : Type} [Sink σ]

/-- The message with zero bytes after its metadata. -/
def frame (message : Message) (padding : Nat) : Frame where
  metadata := message.metadata.toList ++ List.replicate padding 0
  body := message.body.toList

theorem length_frame_metadata (message : Message) (padding : Nat) :
    (message.frame padding).metadata.length = message.metadata.size + padding := by
  rw [frame, List.length_append, List.length_replicate, Array.length_toList]

theorem length_frame_encode (message : Message) (padding : Nat) :
    (message.frame padding).encode.length =
      message.metadata.size + wordSize + padding + message.body.size := by
  have hbody : (message.frame padding).body.length = message.body.size := Array.length_toList
  rw [Frame.length_encode, length_frame_metadata, hbody, wordSize]
  omega

/-- The length that a word declares for metadata and its padding is one that it can hold. -/
theorem framedSize_eq_ok {metadataSize alignment framed : Nat}
    (h : framedSize metadataSize alignment = .ok framed) :
    ∃ padding, Alignment.padding (metadataSize + wordSize) alignment = .ok padding ∧
      framed = metadataSize + wordSize + padding ∧ framed < wordBound := by
  rw [framedSize] at h
  by_cases hshort : metadataSize + wordSize < wordBound
  · rw [if_pos hshort] at h
    obtain ⟨padding, hpadding, hrest⟩ := bind_eq_ok_iff.mp h
    by_cases hpadded : metadataSize + wordSize + padding < wordBound
    · rw [if_pos hpadded] at hrest
      obtain rfl := Except.ok.inj hrest
      exact ⟨padding, hpadding, rfl, hpadded⟩
    · rw [if_neg hpadded] at hrest
      cases hrest
  · rw [if_neg hshort] at h
    cases h

/-- The number of zero bytes after the metadata, if the message can be framed at all. -/
def padding? (message : Message) (alignment : Nat) : Result Nat := do
  let framed ← framedSize message.metadata.size alignment
  unless 0 < framed - wordSize do breach .emptyMetadata
  return framed - wordSize - message.metadata.size

/-- The parts in which the message is sent. -/
def parts (message : Message) (padding : Nat) : List Bytes :=
  [(LittleEndian.encode wordSize (message.metadata.size + padding)).toArray, message.metadata,
    Bytes.zeros padding, message.body]

theorem joined_parts (message : Message) (padding : Nat) :
    joined (message.parts padding) = (message.frame padding).encode := by
  rw [Frame.encode, length_frame_metadata]
  simp [parts, frame, Bytes.zeros, wordSize]

/-- A message that can be framed has metadata or padding, and is declared in a word. -/
theorem padding?_eq_ok {message : Message} {alignment padding : Nat}
    (h : message.padding? alignment = .ok padding) :
    0 < message.metadata.size + padding ∧
      message.metadata.size + wordSize + padding < wordBound := by
  obtain ⟨framed, hframed, hrest⟩ := bind_eq_ok_iff.mp h
  obtain ⟨more, -, rfl, hshort⟩ := framedSize_eq_ok hframed
  by_cases hsome : 0 < message.metadata.size + wordSize + more - wordSize
  · rw [if_pos hsome] at hrest
    obtain rfl := Except.ok.inj hrest
    exact ⟨by omega, by omega⟩
  · rw [if_neg hsome] at hrest
    cases hrest

/-- The word before the metadata is padded with it. -/
theorem padding?_eq_padding {message : Message} {alignment padding : Nat}
    (h : message.padding? alignment = .ok padding) :
    Alignment.padding (message.metadata.size + wordSize) alignment = .ok padding := by
  obtain ⟨framed, hframed, hrest⟩ := bind_eq_ok_iff.mp h
  obtain ⟨more, hmore, rfl, -⟩ := framedSize_eq_ok hframed
  have hdeclared : message.metadata.size + wordSize + more - wordSize - message.metadata.size =
      more := by omega
  rw [hmore, ← hdeclared]
  by_cases hsome : 0 < message.metadata.size + wordSize + more - wordSize
  · rw [if_pos hsome] at hrest
    exact hrest
  · rw [if_neg hsome] at hrest
    cases hrest

/-- A message with metadata or padding can be framed if a word can hold the length of both. -/
theorem padding?_of_lt {message : Message} {alignment padding : Nat}
    (hpadding : Alignment.padding (message.metadata.size + wordSize) alignment = .ok padding)
    (hsome : 0 < message.metadata.size + padding)
    (hlt : message.metadata.size + wordSize + padding < wordBound) :
    message.padding? alignment = .ok padding := by
  have hframed : framedSize message.metadata.size alignment =
      .ok (message.metadata.size + wordSize + padding) := by
    rw [framedSize, if_pos (by omega), hpadding, ok_bind, if_pos hlt]
    rfl
  rw [padding?, hframed, ok_bind, if_pos (by omega)]
  exact congrArg Except.ok (by omega)

/-- A message that cannot be framed is not sent at all. Otherwise its parts are. -/
theorem write_apply (alignment : Nat) (message : Message) (allocator : Allocator) (sink : σ) :
    write alignment message allocator sink =
      match message.padding? alignment with
      | .error failure => ⟨.error failure, sink, []⟩
      | .ok padding =>
        Sink.settle (message.metadata.size + wordSize + padding, message.body.size)
          (Sink.offerAll (message.parts padding) sink) := by
  rw [write, padding?]
  cases hframed : framedSize message.metadata.size alignment with
  | error failure => rfl
  | ok framed =>
    obtain ⟨padding, -, rfl, -⟩ := framedSize_eq_ok hframed
    have hdeclared : message.metadata.size + wordSize + padding - wordSize =
        message.metadata.size + padding := by omega
    rw [Action.liftM_ok_bind, ok_bind, hdeclared]
    -- a length of zero would be taken for the end marker
    by_cases hsome : 0 < message.metadata.size + padding
    · simp only [if_pos hsome, Nat.add_sub_cancel_left]
      apply Sink.writeAll_bind_eq_settle
      apply Sink.writeAll_bind_eq_settle
      apply Sink.writeAll_bind_eq_settle
      apply Sink.writeAll_bind_eq_settle
      intro sink
      rfl
    · simp only [if_neg hsome]
      rfl

/-- Of a header and a message that can be framed, all parts are offered. -/
theorem writeAfter_of_ok (header : Bytes) {message : Message} {alignment padding : Nat}
    (h : message.padding? alignment = .ok padding) (allocator : Allocator) (sink : σ) :
    (do
      Sink.writeAll header
      write alignment message) allocator sink =
      Sink.settle (message.metadata.size + wordSize + padding, message.body.size)
        (Sink.offerAll (header :: message.parts padding) sink) := by
  apply Sink.writeAll_bind_eq_settle
  intro sink
  rw [write_apply, h]

/-- Of a header and a message that cannot be framed, the header is offered. -/
theorem writeAfter_of_error (header : Bytes) {message : Message} {alignment : Nat}
    {failure : Failure} (h : message.padding? alignment = .error failure) (allocator : Allocator)
    (sink : σ) :
    (do
      Sink.writeAll header
      write alignment message) allocator sink =
      match Sink.offerAll [header] sink with
      | (none, after) => ⟨.error failure, after, []⟩
      | (some error, after) => ⟨.error (.error (.io error none)), after, []⟩ := by
  have hheader := Sink.writeAll_eq_settle header allocator sink
  rw [Sink.offerAll]
  rcases hoffer : Sink.offer header sink with ⟨_ | error, after⟩
  · rw [hoffer] at hheader
    rw [Action.bind_of_ok hheader, write_apply, h]
    rfl
  · rw [hoffer] at hheader
    exact Action.bind_apply_error hheader

/-- The end marker and a trailer are offered, and the sink is flushed. -/
theorem finish_apply (trailer : Bytes) (allocator : Allocator) (sink : σ) :
    (do
      let marker ← writeEnd
      Sink.writeAll trailer
      Sink.flushAll
      return marker + trailer.size : Action σ Nat) allocator sink =
      Sink.settle (endMarker.size + trailer.size) (Sink.conclude [endMarker, trailer] sink) := by
  rw [writeEnd, bind_assoc]
  apply Sink.writeAll_bind_eq_conclude
  intro sink
  rw [pure_bind]
  apply Sink.writeAll_bind_eq_conclude
  exact Sink.flushAll_eq_settle _

end Message

end Columnar.Ipc
