import Columnar.Proofs.Ipc.Writer

/-! # Footers that fit -/

namespace Columnar.Ipc

theorem Block.length_encode (block : Block) : block.encode.length = 20 := by
  simp only [encode, List.length_append, LittleEndian.length_encode]

namespace Footer

/-- The length of the footer of a schema with the given bytes: the version, the schema, the
number of blocks, and the blocks. -/
def size (metadata : List UInt8) (blocks : List Block) : Nat :=
  2 + metadata.length + 4 + 20 * blocks.length

theorem length_blocks (blocks : List Block) :
    (blocks.flatMap Block.encode).length = 20 * blocks.length := by
  induction blocks with
  | nil => rfl
  | cons block rest ih =>
    rw [List.flatMap_cons, List.length_append, ih, block.length_encode, List.length_cons]
    omega

/-- So many blocks as make the footer too long for their own count make it too long for a signed
word before. -/
theorem encode_of_size_lt {schema : Schema} {metadata : List UInt8} {blocks : List Block}
    (hmetadata : schema.encode = .ok metadata) (hsize : size metadata blocks < signedWordBound) :
    ∃ footer, encode schema blocks = .ok footer ∧ footer.length = size metadata blocks := by
  have hcount : blocks.length < wordBound := by
    rw [size, signedWordBound] at hsize
    rw [wordBound]
    omega
  refine ⟨LittleEndian.encode 2 metadataVersion ++ metadata ++
    LittleEndian.encode 4 blocks.length ++ blocks.flatMap Block.encode, ?_, ?_⟩
  · rw [encode, hmetadata, encodeCount, if_pos hcount]
    rfl
  · rw [size, List.length_append, List.length_append, List.length_append, length_blocks,
      LittleEndian.length_encode, LittleEndian.length_encode]

end Footer

namespace Writer

variable {σ : Type} {writer : Writer σ}

/-- A signed word can hold the length of the footer, if the writer is one of files. -/
def FooterFits (writer : Writer σ) : Prop :=
  writer.layout = .file → ∀ metadata, writer.session.schema.encode = .ok metadata →
    Footer.size metadata writer.recordBlocks < signedWordBound

/-- A footer that fits makes the trailer possible. -/
theorem trailer_of_footerFits (hfits : writer.FooterFits) {metadata : List UInt8}
    (hmetadata : writer.session.schema.encode = .ok metadata) :
    ∃ trailer, writer.trailer = .ok trailer ∧
      (writer.layout = .file → ∃ footer,
        Footer.encode writer.session.schema writer.recordBlocks = .ok footer ∧
        trailer.toList = footer ++ (LittleEndian.encode 4 footer.length ++ magic.toList)) := by
  cases writer with
  | stream writer =>
    refine ⟨#[], rfl, ?_⟩
    rintro ⟨⟩
  | file writer =>
    have hsize := hfits rfl metadata hmetadata
    obtain ⟨footer, hfooter, hlength⟩ := Footer.encode_of_size_lt hmetadata hsize
    have hmade : FileWriter.trailer writer.session.schema writer.recordBlocks =
        .ok (footer.toArray ++ (LittleEndian.encode 4 footer.length).toArray ++ magic) := by
      rw [FileWriter.trailer]
      refine bind_eq_ok_iff.mpr ⟨footer, hfooter, ?_⟩
      rw [if_pos (hlength ▸ hsize)]
      rfl
    refine ⟨_, hmade, fun _ => ⟨footer, hfooter, ?_⟩⟩
    simp only [Array.toList_append, List.append_assoc]

end Writer

end Columnar.Ipc
