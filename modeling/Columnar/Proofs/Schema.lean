import Columnar.Proofs.Check
import Columnar.Schema
import Mathlib.Data.List.Nodup
import Mathlib.Tactic.Push

/-! # Which fields make a schema -/

namespace Columnar

namespace DataType

variable {dtype : DataType}

theorem hasValidParameters_iff :
    dtype.HasValidParameters ↔ ∀ precision scale, dtype = .decimal precision scale →
      scale.toNat ≤ precision.toNat ∧ precision.toNat ≤ 38 := by
  cases dtype with
  | decimal precision scale =>
    rw [HasValidParameters, UInt8.le_iff_toNat_le, UInt8.le_iff_toNat_le]
    constructor
    · rintro ⟨hprecision, hscale⟩ _ _ ⟨⟩
      exact ⟨hscale, hprecision⟩
    · intro h
      obtain ⟨hscale, hprecision⟩ := h precision scale rfl
      exact ⟨hprecision, hscale⟩
  | _ => exact iff_of_true trivial fun _ _ => nofun

theorem check_of_valid (h : dtype.HasValidParameters) : dtype.check = .ok () := by
  cases dtype with
  | decimal precision scale => simp only [check, if_pos h, pure_eq_ok]
  | _ => rfl

theorem check_of_not_valid (h : ¬ dtype.HasValidParameters) :
    ∃ precision scale, dtype = .decimal precision scale ∧
      dtype.check = .error (.error (.raised (.invalidDecimal precision scale))) := by
  cases dtype with
  | decimal precision scale =>
    exact ⟨precision, scale, rfl, by simp only [check, if_neg h, raise_eq_error]⟩
  | _ => exact absurd trivial h

end DataType

namespace Schema

variable {earlier fields : List Field} {field : Field} {failure : Failure} {cause : Cause}

/-- What is wrong with a field that follows the fields `earlier`. Its type comes first, then
that it has a name, then that the name is new. -/
inductive Fault (earlier : List Field) (field : Field) : Cause → Prop where
  | dtype {precision scale : UInt8} : field.dtype = .decimal precision scale →
      ¬ field.dtype.HasValidParameters → Fault earlier field (.invalidDecimal precision scale)
  | unnamed : field.dtype.HasValidParameters → field.name = "" →
      Fault earlier field (.emptyFieldName earlier.length)
  | duplicate {other : Field} : field.dtype.HasValidParameters → field.name ≠ "" →
      other ∈ earlier → other.name = field.name →
      Fault earlier field (.duplicateFieldName field.name)

theorem Fault.kind_eq (h : Fault earlier field cause) : cause.kind = .compute := by
  cases h <;> rfl

/-- A field is all right after the fields `earlier`. -/
structure Fits (earlier : List Field) (field : Field) : Prop where
  dtype : field.dtype.HasValidParameters
  named : field.name ≠ ""
  new : ∀ other ∈ earlier, other.name ≠ field.name

theorem Fits.checkField_eq (h : Fits earlier field) : checkField earlier field = .ok () := by
  have hnew : ¬ earlier.any (·.name = field.name) = true := by
    rw [List.any_eq_true]
    rintro ⟨other, hother, hsame⟩
    exact h.new other hother (of_decide_eq_true hsame)
  rw [checkField, DataType.check_of_valid h.dtype, ok_bind, if_neg h.named, if_neg hnew]
  rfl

theorem Fault.checkField_eq (h : Fault earlier field cause) :
    checkField earlier field = .error (.error (.raised cause)) := by
  cases h with
  | dtype hdtype hvalid =>
    obtain ⟨_, _, hsame, hcheck⟩ := DataType.check_of_not_valid hvalid
    cases hdtype.symm.trans hsame
    rw [checkField, hcheck, error_bind]
  | unnamed hvalid hname =>
    rw [checkField, DataType.check_of_valid hvalid, ok_bind, if_pos hname]
    rfl
  | duplicate hvalid hname hother hsame =>
    have hany : earlier.any (·.name = field.name) = true :=
      List.any_eq_true.mpr ⟨_, hother, decide_eq_true hsame⟩
    rw [checkField, DataType.check_of_valid hvalid, ok_bind, if_neg hname, if_pos hany]
    rfl

theorem checkField_decides (earlier : List Field) (field : Field) :
    Decides (checkField earlier field) (Fits earlier field) (Fault earlier field) where
  good_or_fault := by
    by_cases hvalid : field.dtype.HasValidParameters
    · by_cases hname : field.name = ""
      · exact .inr ⟨_, .unnamed hvalid hname⟩
      by_cases hnew : ∀ other ∈ earlier, other.name ≠ field.name
      · exact .inl ⟨hvalid, hname, hnew⟩
      · push Not at hnew
        obtain ⟨other, hother, hsame⟩ := hnew
        exact .inr ⟨_, .duplicate hvalid hname hother hsame⟩
    · obtain ⟨precision, scale, hdtype, -⟩ := DataType.check_of_not_valid hvalid
      exact .inr ⟨_, .dtype hdtype hvalid⟩
  passes := Fits.checkField_eq
  raises _ := Fault.checkField_eq

/-- The fields have distinct names, none of them empty, and every decimal is within its bounds. -/
structure Admissible (fields : List Field) : Prop where
  named : ∀ field ∈ fields, field.name ≠ ""
  distinct : (fields.map Field.name).Nodup
  decimal : ∀ field ∈ fields, ∀ precision scale, field.dtype = .decimal precision scale →
    scale.toNat ≤ precision.toNat ∧ precision.toNat ≤ 38

theorem admissible_nil : Admissible [] :=
  ⟨List.forall_mem_nil _, List.nodup_nil, List.forall_mem_nil _⟩

/-- Fields that come first are admissible by themselves. -/
theorem Admissible.of_append (h : Admissible (earlier ++ fields)) : Admissible earlier where
  named field hmem := h.named field (List.mem_append_left _ hmem)
  distinct := h.distinct.sublist ((List.sublist_append_left earlier fields).map Field.name)
  decimal field hmem := h.decimal field (List.mem_append_left _ hmem)

/-- One more field is a matter of that field and those before it. -/
theorem admissible_concat_iff (hearlier : Admissible earlier) :
    Admissible (earlier ++ [field]) ↔ Fits earlier field := by
  have hdistinct : ((earlier ++ [field]).map Field.name).Nodup ↔
      ∀ other ∈ earlier, other.name ≠ field.name := by
    rw [List.map_append, List.map_singleton, ← List.concat_eq_append, List.nodup_concat,
      List.mem_map]
    constructor
    · rintro ⟨hout, -⟩ other hother hsame
      exact hout ⟨other, hother, hsame⟩
    · intro hnew
      refine ⟨?_, hearlier.distinct⟩
      rintro ⟨other, hother, hsame⟩
      exact hnew other hother hsame
  constructor
  · intro h
    have hlast : field ∈ earlier ++ [field] := List.mem_append_right _ List.mem_cons_self
    exact ⟨DataType.hasValidParameters_iff.mpr (h.decimal field hlast), h.named field hlast,
      hdistinct.mp h.distinct⟩
  · intro h
    have hforall {good : Field → Prop} (hgood : ∀ other ∈ earlier, good other)
        (hfield : good field) : ∀ other ∈ earlier ++ [field], good other :=
      List.forall_mem_append.mpr ⟨hgood, List.forall_mem_singleton.mpr hfield⟩
    exact ⟨hforall hearlier.named h.named, hdistinct.mpr h.new,
      hforall hearlier.decimal (DataType.hasValidParameters_iff.mp h.dtype)⟩

/-- Fields that follow admissible ones pass if all of them together are admissible. The induction
is on the fields: each that passes joins those before it. -/
theorem checkFields_eq_ok_iff (hearlier : Admissible earlier) :
    checkFields earlier fields = .ok () ↔ Admissible (earlier ++ fields) := by
  induction fields generalizing earlier with
  | nil =>
    rw [List.append_nil]
    exact iff_of_true rfl hearlier
  | cons field rest ih =>
    have hsplit : earlier ++ field :: rest = earlier ++ [field] ++ rest := by simp
    rw [hsplit]
    by_cases hfits : Fits earlier field
    · have hnext := (admissible_concat_iff hearlier).mpr hfits
      rw [checkFields, hfits.checkField_eq, ok_bind, ih hnext]
    · refine iff_of_false (fun hok => hfits ?_) fun h =>
        hfits ((admissible_concat_iff hearlier).mp h.of_append)
      obtain ⟨⟨⟩, hfield, -⟩ := bind_eq_ok_iff.mp hok
      exact (checkField_decides earlier field).eq_ok_iff.mp hfield

theorem checkFields_eq_checkEach (earlier fields : List Field) :
    checkFields earlier fields = checkEach checkField earlier fields := by
  induction fields generalizing earlier with
  | nil => rfl
  | cons field rest ih =>
    rw [checkFields, checkEach]
    exact congrArg _ (funext fun _ => ih _)

theorem create_eq_ok_iff {schema : Schema} :
    create fields = .ok schema ↔ Admissible fields ∧ schema = ⟨fields⟩ := by
  have hadmissible : checkFields [] fields = .ok () ↔ Admissible fields :=
    checkFields_eq_ok_iff admissible_nil
  rw [create, ← hadmissible, bind_eq_ok_iff]
  constructor
  · rintro ⟨⟨⟩, hpassed, hschema⟩
    exact ⟨hpassed, (Except.ok.inj hschema).symm⟩
  · rintro ⟨hpassed, rfl⟩
    exact ⟨(), hpassed, rfl⟩

/-- The error is about the first field that is at fault after admissible ones. -/
theorem create_eq_error_iff :
    create fields = .error failure ↔
      ∃ before field after cause, fields = before ++ field :: after ∧ Admissible before ∧
        Fault before field cause ∧ failure = .error (.raised cause) := by
  have hbefore (before : List Field) :
      checkEach checkField [] before = .ok () ↔ Admissible before := by
    rw [← checkFields_eq_checkEach]
    exact checkFields_eq_ok_iff admissible_nil
  rw [create, bind_pure_eq_error_iff, checkFields_eq_checkEach, checkEach_eq_error_iff]
  simp only [hbefore, List.nil_append, (checkField_decides _ _).eq_error_iff,
    exists_and_left]

theorem indexOf?_eq_none_iff {schema : Schema} {name : String} :
    schema.indexOf? name = none ↔ ∀ field ∈ schema.fields, field.name ≠ name := by
  simp [indexOf?]

theorem exists_of_indexOf? {schema : Schema} {name : String} {index : Nat}
    (h : schema.indexOf? name = some index) :
    ∃ field, schema.get? index = some field ∧ field.name = name := by
  obtain ⟨hindex, hname, -⟩ := List.findIdx?_eq_some_iff_getElem.mp h
  exact ⟨_, List.getElem?_eq_getElem hindex, of_decide_eq_true hname⟩

/-- Names are distinct, so that the first field of a name is the only one. -/
theorem indexOf?_eq_some_iff {schema : Schema} (h : Admissible schema.fields) {name : String}
    {index : Nat} :
    schema.indexOf? name = some index ↔
      ∃ field, schema.get? index = some field ∧ field.name = name := by
  refine ⟨exists_of_indexOf?, ?_⟩
  rintro ⟨field, hget, hname⟩
  cases hfound : schema.indexOf? name with
  | none => exact absurd hname (indexOf?_eq_none_iff.mp hfound field (List.mem_of_getElem? hget))
  | some found =>
    obtain ⟨other, hother, hsame⟩ := exists_of_indexOf? hfound
    -- both positions hold the same name, and a list without repetitions has it once
    have hnames : (schema.fields.map Field.name)[found]? =
        (schema.fields.map Field.name)[index]? := by
      rw [List.getElem?_map, List.getElem?_map]
      show (schema.get? found).map Field.name = (schema.get? index).map Field.name
      rw [hother, hget, Option.map_some, Option.map_some, hsame, hname]
    have hfound : found < (schema.fields.map Field.name).length := by
      obtain ⟨hindex, -⟩ := List.getElem?_eq_some_iff.mp hother
      rwa [List.length_map]
    rw [(List.getElem?_inj hfound h.distinct).mp hnames]

/-- A list of fields makes a schema exactly if it is admissible. Otherwise the error is about the
first field that is at fault with respect to itself and those before it. In a schema that was
made, positions are found by name and fields by position, and neither finds more than the other. -/
theorem admission_and_lookup (fields : List Field) :
    (∀ schema, create fields = .ok schema ↔ Admissible fields ∧ schema = ⟨fields⟩) ∧
      (∀ failure, create fields = .error failure ↔
        ∃ before field after cause, fields = before ++ field :: after ∧ Admissible before ∧
          Fault before field cause ∧ failure = .error (.raised cause) ∧ cause.kind = .compute) ∧
      ∀ schema, create fields = .ok schema → ∀ name,
        (∀ index, schema.indexOf? name = some index ↔
          ∃ field, schema.get? index = some field ∧ field.name = name) ∧
        (schema.indexOf? name = none ↔ ∀ field ∈ schema.fields, field.name ≠ name) := by
  refine ⟨fun schema => create_eq_ok_iff, fun failure => ?_, fun schema hcreate name => ?_⟩
  · rw [create_eq_error_iff]
    constructor
    · rintro ⟨before, field, after, cause, hsplit, hbefore, hfault, hfailure⟩
      exact ⟨before, field, after, cause, hsplit, hbefore, hfault, hfailure, hfault.kind_eq⟩
    · rintro ⟨before, field, after, cause, hsplit, hbefore, hfault, hfailure, -⟩
      exact ⟨before, field, after, cause, hsplit, hbefore, hfault, hfailure⟩
  · obtain ⟨hadmissible, rfl⟩ := create_eq_ok_iff.mp hcreate
    exact ⟨fun index => indexOf?_eq_some_iff hadmissible, indexOf?_eq_none_iff⟩

/-- A name that came before counts against the third field, and the fourth is not looked at. -/
theorem admission_and_lookup_of_four :
    let fields : List Field := [⟨"a", .int8, true⟩, ⟨"b", .decimal 4 2, false⟩]
    (⟨fields⟩ : Schema).indexOf? "b" = some 1 ∧
      create (fields ++ [⟨"a", .int8, true⟩, ⟨"", .decimal 39 0, true⟩]) =
        .error (.error (.raised (.duplicateFieldName "a"))) := by
  intro fields
  have hlookup := (admission_and_lookup fields).2.2 ⟨fields⟩ (by decide) "b"
  refine ⟨(hlookup.1 1).mpr ⟨⟨"b", .decimal 4 2, false⟩, rfl, rfl⟩, ?_⟩
  decide

end Schema

end Columnar
