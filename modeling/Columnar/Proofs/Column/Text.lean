import Columnar.Proofs.Column.Reachable
import Columnar.Proofs.Text.DecimalText

/-! # What the text of a column says -/

namespace Columnar

namespace Scalar

variable {primitive : Primitive} {value other : Scalar primitive}

/-- No two patterns are read as one integer. -/
theorem toInt_inj (h : value.toInt = other.toInt) : value = other := by
  have hbits : value.bits = other.bits := by
    rw [toInt, toInt] at h
    by_cases hsigned : primitive.isSigned = true
    · rw [if_pos hsigned, if_pos hsigned] at h
      exact BitVec.eq_of_toInt_eq h
    · rw [if_neg hsigned, if_neg hsigned] at h
      exact BitVec.eq_of_toNat_eq (Int.natCast_inj.mp h)
  cases value
  cases other
  exact congrArg Scalar.mk hbits

theorem text_of_integer (h : primitive.floatFormat? = none) (value : Scalar primitive) :
    value.text = toString value.toInt := by
  rw [text, h]

theorem fitsInt128_toInt (value : Scalar .int128) : FitsInt128 value.toInt := by
  have hlow : -(2 ^ 128 : Nat) ≤ 2 * value.bits.toInt := BitVec.le_two_mul_toInt
  have hhigh : 2 * value.bits.toInt < (2 ^ 128 : Nat) := BitVec.two_mul_toInt_lt
  have hsigned : value.toInt = value.bits.toInt := rfl
  rw [FitsInt128, hsigned]
  omega

end Scalar

namespace DataType

variable {dtype : DataType} {primitive : Primitive} {bytes : Bytes}

theorem primitiveText_toBytes (value : Scalar primitive) :
    primitiveText primitive value.toBytes = .ok value.text := by
  rw [primitiveText, Scalar.ofBytes_toBytes]
  rfl

/-- A decimal is shown with a point at the scales up to the largest precision, and as the integer
that it is stored as at scale zero and beyond. -/
theorem valueText_decimal (precision scale : UInt8) (value : Scalar .int128) :
    (decimal precision scale).valueText value.toBytes =
      .ok (if 0 < scale.toNat ∧ scale.toNat ≤ 38 then fixedPointText value.toInt scale.toNat
        else toString value.toInt) := by
  have hshown : HasShownScale scale ↔ 0 < scale.toNat ∧ scale.toNat ≤ 38 := by
    rw [HasShownScale, UInt8.lt_iff_toNat_lt, UInt8.le_iff_toNat_le]
    exact Iff.rfl
  simp only [valueText, Scalar.ofBytes_toBytes, ok_bind, hshown, Scalar.text_of_integer rfl value]
  split <;> rfl

/-- All that there is to say about the text of a decimal. -/
theorem decimalText_exact (precision scale : UInt8) (value : Scalar .int128) :
    ∃ text, (decimal precision scale).valueText value.toBytes = .ok text ∧
      checkedDecimalText value.toInt scale.toNat = some text ∧
      (1 ≤ scale.toNat ∧ scale.toNat ≤ 38 → IsFixedPoint text value.toInt scale.toNat) ∧
      (scale.toNat = 0 ∨ 38 < scale.toNat →
        text = toString value.toInt ∧ IsInteger text value.toInt) ∧
      readInt text = value.toInt := by
  have htext := valueText_decimal precision scale value
  have hchecked := checkedDecimalText_eq value.fitsInt128_toInt scale.toNat
  by_cases hshown : 0 < scale.toNat ∧ scale.toNat ≤ 38
  · rw [if_pos hshown] at htext hchecked
    have hexact := isFixedPoint_fixedPointText hshown.1 value.toInt
    exact ⟨_, htext, hchecked, fun _ => hexact, fun hout => absurd hshown (by omega),
      hexact.readsAs.readInt_eq⟩
  · rw [if_neg hshown] at htext hchecked
    have hexact := isInteger_toString value.toInt
    exact ⟨_, htext, hchecked, fun hin => absurd hin hshown, fun _ => ⟨rfl, hexact⟩,
      hexact.readsAs.readInt_eq⟩

theorem not_isDigit_suffix (unit : TimeUnit) :
    ∀ c ∈ unit.suffix.toList, c.isDigit = false ∧ c ≠ '-' := by
  cases unit <;> simp [TimeUnit.suffix]

/-- The text of a time or a duration is that of its integer and the unit. -/
theorem exists_readsAs_unit (h : primitive.floatFormat? = none) (value : Scalar primitive)
    (unit : TimeUnit) :
    ∃ text, (return (← primitiveText primitive value.toBytes) ++ unit.suffix : Result String) =
      .ok text ∧ ReadsAs text value.toInt := by
  refine ⟨value.text ++ unit.suffix, by rw [primitiveText_toBytes]; rfl, ?_⟩
  rw [Scalar.text_of_integer h]
  exact (isInteger_toString value.toInt).readsAs_append _ (not_isDigit_suffix unit)

/-- The text of a value that is stored as an integer says that integer. -/
theorem exists_readsAs (hphysical : dtype.physical = .primitive primitive)
    (hfloat : primitive.floatFormat? = none) (value : Scalar primitive) :
    ∃ text, dtype.valueText value.toBytes = .ok text ∧ ReadsAs text value.toInt := by
  have hplain : ∃ text, primitiveText primitive value.toBytes = .ok text ∧
      ReadsAs text value.toInt := by
    refine ⟨value.text, primitiveText_toBytes value, ?_⟩
    rw [Scalar.text_of_integer hfloat]
    exact (isInteger_toString value.toInt).readsAs
  cases dtype with
  | decimal precision scale =>
    cases hphysical
    refine ⟨_, valueText_decimal precision scale value, ?_⟩
    split
    · next hshown => exact (isFixedPoint_fixedPointText hshown.1 value.toInt).readsAs
    · exact (isInteger_toString value.toInt).readsAs
  | time32 unit | time64 unit | timestamp unit | duration unit =>
    cases hphysical
    exact exists_readsAs_unit rfl value unit
  | fixedSizeBinary width => cases hphysical
  | _ =>
    cases hphysical
    exact hplain

/-- The text of a slot is decoded from bytes of the width of its type. -/
theorem valueText_eq_ok (h : bytes.size = dtype.byteWidth) :
    ∃ text, dtype.valueText bytes = .ok text := by
  cases hphysical : dtype.physical with
  | primitive primitive =>
    rw [byteWidth, hphysical] at h
    obtain ⟨value, -, rfl⟩ := Scalar.ofBytes_of_size h
    cases hfloat : primitive.floatFormat? with
    | none =>
      obtain ⟨text, htext, -⟩ := exists_readsAs hphysical hfloat value
      exact ⟨text, htext⟩
    | some format =>
      cases dtype with
      | float32 | float64 =>
        cases hphysical
        exact ⟨_, primitiveText_toBytes value⟩
      | fixedSizeBinary width => cases hphysical
      | _ =>
        cases hphysical
        cases hfloat
  | fixedSizeBinary width =>
    cases dtype <;> cases hphysical
    exact ⟨_, rfl⟩

/-- The text of opaque bytes has a digit in front and then all bytes. -/
theorem valueText_binary (width : Nat) (bytes : Bytes) :
    (fixedSizeBinary width).valueText bytes = .ok ("0x" ++ hexText bytes) :=
  rfl

theorem binaryText_inj {first second : Bytes} (h : "0x" ++ hexText first = "0x" ++ hexText second) :
    first = second := by
  have hlists := congrArg String.toList h
  rw [String.toList_append, String.toList_append] at hlists
  exact hexText_inj (String.toList_inj.mp (List.append_cancel_left hlists))

theorem binaryText_ne_none (bytes : Bytes) : "0x" ++ hexText bytes ≠ "None" := by
  intro h
  have hlists := congrArg String.toList h
  rw [String.toList_append] at hlists
  exact absurd (congrArg List.head? hlists) (by simp)

/-- Of a type that is not of floats, values have a text each, and no null has one of these. -/
theorem valueText_exact (hfloat32 : dtype ≠ .float32) (hfloat64 : dtype ≠ .float64)
    (h : bytes.size = dtype.byteWidth) :
    ∃ text, dtype.valueText bytes = .ok text ∧ text ≠ "None" ∧
      ∀ other : Bytes, other.size = dtype.byteWidth → dtype.valueText other = .ok text →
        other = bytes := by
  cases hphysical : dtype.physical with
  | primitive primitive =>
    have hinteger : primitive.floatFormat? = none := by
      cases dtype <;> cases hphysical <;> first | rfl | contradiction
    rw [byteWidth, hphysical] at h ⊢
    obtain ⟨value, -, rfl⟩ := Scalar.ofBytes_of_size h
    obtain ⟨text, htext, hreads⟩ := exists_readsAs hphysical hinteger value
    refine ⟨text, htext, hreads.ne_none, fun other hother hsame => ?_⟩
    obtain ⟨second, -, rfl⟩ := Scalar.ofBytes_of_size hother
    obtain ⟨again, hagain, hread⟩ := exists_readsAs hphysical hinteger second
    -- one text is read as one integer, and so it comes from one pattern of bits
    obtain rfl : again = text := Except.ok.inj (hagain.symm.trans hsame)
    rw [Scalar.toInt_inj (hread.readInt_eq.symm.trans hreads.readInt_eq)]
  | fixedSizeBinary width =>
    cases dtype <;> cases hphysical
    refine ⟨_, valueText_binary width bytes, binaryText_ne_none bytes, fun other _ hsame => ?_⟩
    exact binaryText_inj (Except.ok.inj hsame)

end DataType

namespace Column

variable {column : Column}

/-- The column is shown with these texts, one for each slot: a word for a null, and for a value
the text that its type gives it. -/
structure ShownAs (column : Column) (texts : List String) : Prop where
  text_eq : column.text =
    .ok (s!"{column.dtype.text} '{column.name}' [" ++ ", ".intercalate texts ++ "]")
  length_eq : texts.length = column.length
  null_eq : ∀ index < column.length, column.get? index = .ok none → texts[index]? = some "None"
  value_eq : ∀ index bytes, column.get? index = .ok (some bytes) →
    bytes.size = column.dtype.byteWidth ∧
      ∃ text, column.dtype.valueText bytes = .ok text ∧ texts[index]? = some text

/-- The text of a slot, or of none if there is no text. -/
def shownSlot (dtype : DataType) (slot : Option Bytes) : String :=
  (slotText dtype slot).toOption.getD ""

theorem WellFormed.exists_shownAs (h : column.WellFormed) : ∃ texts, column.ShownAs texts := by
  have htext : ∀ bytes index, column.slot index = some bytes →
      bytes.size = column.dtype.byteWidth ∧
        column.dtype.valueText bytes = .ok (shownSlot column.dtype (some bytes)) := by
    intro bytes index hslot
    have hsize := (h.size_of_slot hslot).trans h.width_eq
    obtain ⟨text, htext⟩ := DataType.valueText_eq_ok hsize
    refine ⟨hsize, ?_⟩
    rw [shownSlot, slotText, htext]
    rfl
  -- a slot that is not null is as wide as its type, and all such bytes have a text
  have hslots : ∀ slot ∈ column.contents,
      slotText column.dtype slot = .ok (shownSlot column.dtype slot) := by
    intro slot hslot
    obtain ⟨index, -, rfl⟩ := List.mem_map.mp hslot
    cases hvalue : column.slot index with
    | none => rfl
    | some bytes => exact (htext bytes index hvalue).2
  refine ⟨column.contents.map (shownSlot column.dtype), ?_, ?_, ?_, ?_⟩
  · rw [text, h.slots_eq_ok, ok_bind, mapM_eq_ok hslots]
    rfl
  · rw [List.length_map, length_contents]
  · intro index hindex hnull
    have hslot : column.slot index = none := Except.ok.inj ((h.get?_eq_ok index).symm.trans hnull)
    rw [List.getElem?_map, contents_getElem?, if_pos hindex, hslot]
    rfl
  · intro index bytes hvalue
    have hslot := Except.ok.inj ((h.get?_eq_ok index).symm.trans hvalue)
    have hindex : index < column.length := by
      by_contra hpast
      rw [h.slot_eq_none (Nat.le_of_not_lt hpast)] at hslot
      cases hslot
    obtain ⟨hsize, hbytes⟩ := htext bytes index hslot
    refine ⟨hsize, _, hbytes, ?_⟩
    rw [List.getElem?_map, contents_getElem?, if_pos hindex, hslot]
    rfl

theorem WellFormed.text_eq_ok (h : column.WellFormed) : ∃ text, column.text = .ok text := by
  obtain ⟨texts, hshown⟩ := h.exists_shownAs
  exact ⟨_, hshown.text_eq⟩

/-- Every column is shown slot by slot. A decimal is shown exactly, at scales up to the largest
precision with a point and at others as the integer that it is stored as, and no operation that
this takes overflows or divides by zero. Of every type but those of floats, the text of a value
determines its bytes and is not that of a null. -/
theorem text_exact :
    (∀ column : Column, (Object.column column).Reachable → ∃ texts, column.ShownAs texts) ∧
      (∀ (precision scale : UInt8) (value : Scalar .int128), ∃ text,
        (DataType.decimal precision scale).valueText value.toBytes = .ok text ∧
          checkedDecimalText value.toInt scale.toNat = some text ∧
          (1 ≤ scale.toNat ∧ scale.toNat ≤ 38 → IsFixedPoint text value.toInt scale.toNat) ∧
          (scale.toNat = 0 ∨ 38 < scale.toNat →
            text = toString value.toInt ∧ IsInteger text value.toInt) ∧
          readInt text = value.toInt) ∧
      ∀ dtype : DataType, dtype ≠ .float32 → dtype ≠ .float64 → ∀ bytes : Bytes,
        bytes.size = dtype.byteWidth → ∃ text, dtype.valueText bytes = .ok text ∧
          text ≠ "None" ∧ ∀ other : Bytes, other.size = dtype.byteWidth →
            dtype.valueText other = .ok text → other = bytes := by
  refine ⟨fun column hcolumn => hcolumn.wellFormed.exists_shownAs, DataType.decimalText_exact, ?_⟩
  exact fun dtype hfloat32 hfloat64 bytes => DataType.valueText_exact hfloat32 hfloat64

/-- A decimal between minus one and zero, whose whole part has no sign of its own. -/
theorem text_exact_of_fractions :
    let column := ((Call.setGrowing 0 (⟨-5⟩ : Scalar .int128).toBytes).run .standard
      (Column.empty "d" (.decimal 5 2))).state
    (∃ texts, column.ShownAs texts) ∧
      column.text.toOption = some "Decimal(5, 2) 'd' [-0.05]" ∧
      ∃ text, (DataType.decimal 5 2).valueText (⟨-5⟩ : Scalar .int128).toBytes = .ok text ∧
        text ≠ "None" := by
  intro column
  have hreachable : (Object.column column).Reachable := by
    refine .call (.setGrowing 0 _) Allocator.isBounded_standard (.empty "d" _) ?_
    rintro _ ⟨⟩
  obtain ⟨text, htext, hnone, -⟩ := text_exact.2.2 (.decimal 5 2) (by decide) (by decide)
    (⟨-5⟩ : Scalar .int128).toBytes (by decide)
  exact ⟨text_exact.1 column hreachable, by decide, text, htext, hnone⟩

end Column

end Columnar
