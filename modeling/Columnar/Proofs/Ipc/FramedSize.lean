import Columnar.Proofs.Ipc.Alignment
import Columnar.Proofs.Ipc.Framing

/-!
# How long a framed message is

The framed length is the first multiple of the alignment with room for a word and the metadata, and
a word must be able to hold it. All checks on the way to it come to that one.
-/

namespace Columnar.Ipc

namespace Word

/-- A size as a word, if it is small enough. -/
def ofSize? (size : Nat) : Option UInt32 :=
  if size < wordBound then some (UInt32.ofNat size) else none

/-- The sum of two words, if it is a word. -/
def add? (a b : UInt32) : Option UInt32 :=
  ofSize? (a.toNat + b.toNat)

theorem ofSize?_of_lt {size : Nat} (h : size < wordBound) :
    ofSize? size = some (UInt32.ofNat size) :=
  if_pos h

theorem ofSize?_of_le {size : Nat} (h : wordBound ≤ size) : ofSize? size = none :=
  if_neg (Nat.not_lt_of_le h)

/-- To narrow two sizes and add them is to narrow their sum. -/
theorem ofSize?_bind_add? {a : Nat} {b : UInt32} :
    (ofSize? a).bind (add? · b) = ofSize? (a + b.toNat) := by
  by_cases ha : a < wordBound
  · rw [ofSize?_of_lt ha, Option.bind_some, add?, UInt32.toNat_ofNat_of_lt' ha]
  · rw [ofSize?_of_le (by omega), ofSize?_of_le (by omega), Option.bind_none]

end Word

namespace Message

variable {metadataSize alignment total : Nat}

/-- The word, or the error that metadata of the size is too long to be framed. -/
def wordOrTooLong (metadataSize : Nat) (word? : Option UInt32) : Result UInt32 :=
  match word? with
  | some word => pure word
  | none => raise (.metadataTooLong metadataSize)

/-- The framed length in steps of 32 bits: the size of the metadata is narrowed to a word, the size
of the word before it is added, and so is the padding once it has been narrowed. -/
def framedWord (metadataSize alignment : Nat) : Result UInt32 := do
  let size ← wordOrTooLong metadataSize
    ((Word.ofSize? metadataSize).bind (Word.add? · (UInt32.ofNat wordSize)))
  let padding ← Alignment.padding size.toNat alignment
  wordOrTooLong metadataSize ((Word.ofSize? padding).bind (Word.add? · size))

/-- The steps in 32 bits come to the comparison of sizes with the bound of a word. -/
theorem framedSize_eq_framedWord (metadataSize alignment : Nat) :
    framedSize metadataSize alignment = (framedWord metadataSize alignment).map UInt32.toNat := by
  have hword : (UInt32.ofNat wordSize).toNat = wordSize := rfl
  rw [framedSize, framedWord, Word.ofSize?_bind_add?, hword]
  by_cases hsize : metadataSize + wordSize < wordBound
  · rw [if_pos hsize, Word.ofSize?_of_lt hsize]
    simp only [wordOrTooLong, pure_eq_ok, ok_bind, UInt32.toNat_ofNat_of_lt' hsize,
      Word.ofSize?_bind_add?]
    cases Alignment.padding (metadataSize + wordSize) alignment with
    | error failure => rfl
    | ok padding =>
      rw [ok_bind, ok_bind, Nat.add_comm padding]
      by_cases hpadded : metadataSize + wordSize + padding < wordBound
      · rw [if_pos hpadded, Word.ofSize?_of_lt hpadded]
        exact congrArg Except.ok (UInt32.toNat_ofNat_of_lt' hpadded).symm
      · rw [if_neg hpadded, Word.ofSize?_of_le (Nat.le_of_not_lt hpadded)]
        rfl
  · rw [if_neg hsize, Word.ofSize?_of_le (Nat.le_of_not_lt hsize)]
    rfl

/-- The first multiple of the alignment that has room for the word before the metadata and for the
metadata. -/
def IsFramedLength (metadataSize alignment total : Nat) : Prop :=
  IsLeast {multiple | alignment ∣ multiple ∧ metadataSize + wordSize ≤ multiple} total

theorem isFramedLength_roundUp (metadataSize : Nat) (hpos : 0 < alignment) :
    IsFramedLength metadataSize alignment
      (Alignment.roundUp (metadataSize + wordSize) alignment) :=
  Alignment.isLeast_roundUp _ hpos

theorem IsFramedLength.eq_roundUp (h : IsFramedLength metadataSize alignment total)
    (hpos : 0 < alignment) : total = Alignment.roundUp (metadataSize + wordSize) alignment :=
  h.unique (isFramedLength_roundUp metadataSize hpos)

/-- The padding of metadata that is not too long by itself. -/
theorem padding_of_isFramedLength (halignment : IsPowerOfTwo alignment)
    (hbound : alignment < Size.bound) (htotal : IsFramedLength metadataSize alignment total)
    (hsize : metadataSize + wordSize < wordBound) :
    Alignment.padding (metadataSize + wordSize) alignment =
      .ok (total - (metadataSize + wordSize)) := by
  have hlength : metadataSize + wordSize < Allocator.standardLimit :=
    Nat.lt_trans hsize (by decide)
  rw [Alignment.padding_of_buffer hlength halignment hbound, htotal.eq_roundUp halignment.pos]

/-- The framed length is found for metadata of any size, if a word can hold it. -/
theorem framedSize_of_isFramedLength (halignment : IsPowerOfTwo alignment)
    (hbound : alignment < Size.bound) (htotal : IsFramedLength metadataSize alignment total) :
    framedSize metadataSize alignment =
      if total < wordBound then pure total else raise (.metadataTooLong metadataSize) := by
  obtain ⟨-, hroom⟩ := htotal.1
  rw [framedSize]
  by_cases hsize : metadataSize + wordSize < wordBound
  · have hpadded : metadataSize + wordSize + (total - (metadataSize + wordSize)) = total := by omega
    rw [if_pos hsize, padding_of_isFramedLength halignment hbound htotal hsize]
    simp only [pure_eq_ok, ok_bind, hpadded]
    by_cases hshort : total < wordBound
    · rw [if_pos hshort, if_pos hshort]
    · rw [if_neg hshort, if_neg hshort]
      rfl
  · -- what is too long without padding is too long with it
    rw [if_neg hsize, if_neg (by omega)]
    rfl

variable {σ : Type} [Sink σ] {good : σ → Prop} {message : Message}

/-- The zero bytes after the metadata fill up the framed length. -/
theorem padding?_of_isFramedLength (halignment : IsPowerOfTwo alignment)
    (hbound : alignment < Size.bound)
    (htotal : IsFramedLength message.metadata.size alignment total) (hshort : total < wordBound)
    (hsome : wordSize < total) :
    message.padding? alignment = .ok (total - (message.metadata.size + wordSize)) := by
  obtain ⟨-, hroom⟩ := htotal.1
  exact padding?_of_lt
    (padding_of_isFramedLength halignment hbound htotal (Nat.lt_of_le_of_lt hroom hshort))
    (by omega) (by omega)

theorem padding?_of_tooLong (halignment : IsPowerOfTwo alignment) (hbound : alignment < Size.bound)
    (htotal : IsFramedLength message.metadata.size alignment total) (hlong : wordBound ≤ total) :
    message.padding? alignment =
      .error (.error (.raised (.metadataTooLong message.metadata.size))) := by
  rw [padding?, framedSize_of_isFramedLength halignment hbound htotal,
    if_neg (Nat.not_lt_of_le hlong)]
  rfl

/-- Of a message that can be framed, the length of metadata and padding, the metadata, the padding
and the body arrive at a sink that never fails. -/
theorem write_of_reliable (hgood : Sink.Reliable good) (halignment : IsPowerOfTwo alignment)
    (hbound : alignment < Size.bound)
    (htotal : IsFramedLength message.metadata.size alignment total) (hshort : total < wordBound)
    (hsome : wordSize < total) (allocator : Allocator) {sink : σ} (hsink : good sink) :
    ∃ after, write alignment message allocator sink =
        ⟨.ok (total, message.body.size), after, []⟩ ∧ good after ∧
      (Sink.held after).toList = (Sink.held sink).toList ++
        LittleEndian.encode wordSize (total - wordSize) ++ message.metadata.toList ++
          List.replicate (total - wordSize - message.metadata.size) 0 ++ message.body.toList := by
  have hpadding := padding?_of_isFramedLength halignment hbound htotal hshort hsome
  obtain ⟨-, hroom⟩ := htotal.1
  obtain ⟨padding, rfl⟩ := Nat.exists_eq_add_of_le hroom
  have hdeclared : message.metadata.size + wordSize + padding - wordSize =
      message.metadata.size + padding := by omega
  have hheld := hgood.held_offerAll hsink (message.parts padding)
  have hwrite := write_apply alignment message allocator sink
  rw [Nat.add_sub_cancel_left] at hpadding
  simp only [hpadding] at hwrite
  obtain ⟨hnone, hafter⟩ := hgood.offerAll_eq hsink (message.parts padding)
  rcases hoffer : Sink.offerAll (message.parts padding) sink with ⟨answer, after⟩
  rw [hoffer] at hwrite hnone hafter hheld
  obtain rfl : answer = none := hnone
  refine ⟨after, hwrite, hafter, ?_⟩
  rw [hheld, parts, hdeclared, Nat.add_sub_cancel_left]
  simp [Bytes.zeros]

/-- For every alignment of 64 bits that is a power of two: metadata of any size has a framed length,
it is found if a word can hold it, and otherwise it is an error, also if the steps are made in 32
bits. A message with a framed length arrives in that length, followed by its body, and of a message
whose framed length is too long for a word nothing is sent. -/
theorem write_eq_framed (hgood : Sink.Reliable good) (halignment : IsPowerOfTwo alignment)
    (hbound : alignment < Size.bound) :
    (∀ metadataSize, ∃ total, IsFramedLength metadataSize alignment total ∧
      framedSize metadataSize alignment =
        (framedWord metadataSize alignment).map UInt32.toNat ∧
      (total < wordBound → framedSize metadataSize alignment = .ok total) ∧
      (wordBound ≤ total → ∃ error, framedSize metadataSize alignment = .error (.error error) ∧
        error.kind = .caused .compute)) ∧
    ∀ (message : Message) (allocator : Allocator) (total : Nat),
      IsFramedLength message.metadata.size alignment total →
      (total < wordBound → wordSize < total → ∀ sink : σ, good sink →
        ∃ after, write alignment message allocator sink =
            ⟨.ok (total, message.body.size), after, []⟩ ∧ good after ∧
          (Sink.held after).toList = (Sink.held sink).toList ++
            LittleEndian.encode wordSize (total - wordSize) ++ message.metadata.toList ++
              List.replicate (total - wordSize - message.metadata.size) 0 ++
                message.body.toList) ∧
      (wordBound ≤ total → ∀ sink : σ, ∃ error,
        write alignment message allocator sink = ⟨.error (.error error), sink, []⟩ ∧
          error.kind = .caused .compute) := by
  refine ⟨?_, ?_⟩
  · intro metadataSize
    have htotal := isFramedLength_roundUp metadataSize halignment.pos
    have hframed := framedSize_of_isFramedLength halignment hbound htotal
    refine ⟨_, htotal, framedSize_eq_framedWord metadataSize alignment, ?_, ?_⟩
    · intro hshort
      rw [hframed, if_pos hshort]
      rfl
    · intro hlong
      rw [hframed, if_neg (Nat.not_lt_of_le hlong)]
      exact ⟨_, rfl, rfl⟩
  · intro message allocator total htotal
    refine ⟨?_, ?_⟩
    · intro hshort hsome sink hsink
      exact write_of_reliable hgood halignment hbound htotal hshort hsome allocator hsink
    · intro hlong sink
      refine ⟨.raised (.metadataTooLong message.metadata.size), ?_, rfl⟩
      rw [write_apply, padding?_of_tooLong halignment hbound htotal hlong]

/-- Five bytes of metadata are framed in sixteen bytes. Metadata that is nine bytes short of the
bound of a word has room for the word before it, and is refused for its padding alone. -/
theorem write_eq_framed_of_padded :
    IsPowerOfTwo 8 ∧ MemorySink.empty.IsUnbounded ∧
      IsFramedLength 5 8 16 ∧
      (∃ after, write 8 ⟨Array.replicate 5 7, Array.replicate 2 1⟩ .standard MemorySink.empty =
          ⟨.ok (16, 2), after, []⟩ ∧
        (Sink.held after).toList = [12, 0, 0, 0, 7, 7, 7, 7, 7, 0, 0, 0, 0, 0, 0, 0, 1, 1]) ∧
      IsFramedLength (wordBound - 9) 8 wordBound ∧
      ∃ error, write 8 ⟨Array.replicate (wordBound - 9) 7, #[]⟩ .standard MemorySink.empty =
        ⟨.error (.error error), MemorySink.empty, []⟩ ∧ error.kind = .caused .compute := by
  have halignment : IsPowerOfTwo 8 := by decide
  have hshort : IsFramedLength 5 8 16 := by
    refine ⟨⟨by decide, by decide⟩, ?_⟩
    rintro _ ⟨⟨count, rfl⟩, hroom⟩
    simp only [wordSize] at hroom
    omega
  have hlong : IsFramedLength (wordBound - 9) 8 wordBound := by
    refine ⟨⟨by decide, by decide⟩, ?_⟩
    rintro _ ⟨⟨count, rfl⟩, hroom⟩
    simp only [wordSize, wordBound] at hroom ⊢
    omega
  obtain ⟨-, hwrite⟩ := write_eq_framed MemorySink.reliable halignment (by decide)
  have hmetadata : (Array.replicate (wordBound - 9) (7 : UInt8)).size = wordBound - 9 :=
    Array.size_replicate
  obtain ⟨after, hafter, -, hheld⟩ := (hwrite ⟨Array.replicate 5 7, Array.replicate 2 1⟩ .standard
    16 hshort).1 (by decide) (by decide) MemorySink.empty MemorySink.isUnbounded_empty
  refine ⟨halignment, MemorySink.isUnbounded_empty, hshort, ⟨after, hafter, hheld⟩, hlong, ?_⟩
  exact (hwrite ⟨Array.replicate (wordBound - 9) 7, #[]⟩ .standard wordBound
    (hmetadata.symm ▸ hlong)).2 (Nat.le_refl _) MemorySink.empty

end Message

end Columnar.Ipc
