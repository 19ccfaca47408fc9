import Columnar.Proofs.Ipc.SchemaReading

/-!
# The code of schemas

A reader of schemas takes the bytes of one off the front of any bytes, or nothing. So no two schemas
have the same bytes, and those of none are the beginning of those of another.
-/

namespace Columnar

open Ipc

namespace Ipc

section

variable {α β : Type} {read : Reader α} {IsCode : α → List UInt8 → Prop}

/-- What the reader takes off bytes, with any value, is a code of that value. -/
def TakesCode (read : Reader α) (IsCode : α → List UInt8 → Prop) : Prop :=
  ∀ bytes value rest, read.run bytes = some (value, rest) →
    ∃ code, IsCode value code ∧ bytes = code ++ rest

theorem takesCode_pure {value : α} (h : IsCode value []) : TakesCode (pure value) IsCode := by
  rintro bytes _ _ ⟨⟩
  exact ⟨[], h, rfl⟩

theorem takesCode_failure : TakesCode (failure : Reader α) IsCode := by
  rintro bytes value rest ⟨⟩

/-- A reader that goes on after another takes its code right behind the code before it. -/
theorem TakesCode.bind {next : α → Reader β} {IsWhole : β → List UInt8 → Prop}
    (h : TakesCode read IsCode)
    (hnext : ∀ value front, IsCode value front →
      TakesCode (next value) fun answer back => IsWhole answer (front ++ back)) :
    TakesCode (read >>= next) IsWhole := by
  intro bytes answer rest hrun
  rw [StateT.run_bind] at hrun
  obtain ⟨⟨value, middle⟩, hread, hanswer⟩ := Option.bind_eq_some_iff.mp hrun
  obtain ⟨front, hfront, rfl⟩ := h bytes value middle hread
  obtain ⟨back, hback, rfl⟩ := hnext value front hfront middle answer rest hanswer
  exact ⟨front ++ back, hback, (List.append_assoc front back rest).symm⟩

/-! ## Words and names -/

theorem takesCode_byte : TakesCode readByte fun byte code => code = [byte] := by
  intro bytes byte rest h
  cases bytes with
  | nil => cases h
  | cons first others =>
    obtain ⟨rfl, rfl⟩ := Prod.mk.inj (Option.some.inj h)
    exact ⟨[first], rfl, rfl⟩

theorem takesCode_bytes (count : Nat) :
    TakesCode (readBytes count) fun taken code => code = taken ∧ taken.length = count := by
  intro bytes taken rest h
  have h : readBytes count bytes = some (taken, rest) := h
  rw [readBytes] at h
  split at h
  · next hin =>
    obtain ⟨rfl, rfl⟩ := Prod.mk.inj (Option.some.inj h)
    exact ⟨_, ⟨rfl, List.length_take_of_le hin⟩, (List.take_append_drop count bytes).symm⟩
  · cases h

theorem takesCode_word (width : Nat) :
    TakesCode (readWord width) fun value code =>
      code = LittleEndian.encode width value ∧ value < LittleEndian.bound width := by
  refine (takesCode_bytes width).bind ?_
  rintro _ bytes ⟨rfl, rfl⟩
  refine takesCode_pure ⟨?_, LittleEndian.decode_lt bytes⟩
  rw [List.append_nil, LittleEndian.encode_decode]

theorem encodeCount_of_lt {what : FormatCount} {count : Nat} (h : count < wordBound) :
    encodeCount what count = .ok (LittleEndian.encode 4 count) :=
  if_pos h

theorem takesCode_count (what : FormatCount) :
    TakesCode (readWord 4) fun count code => encodeCount what count = .ok code := by
  intro bytes count rest h
  obtain ⟨code, ⟨rfl, hcount⟩, hbytes⟩ := takesCode_word 4 bytes count rest h
  exact ⟨_, encodeCount_of_lt hcount, hbytes⟩

theorem toUTF8_of_fromUTF8? {bytes : ByteArray} {name : String}
    (h : String.fromUTF8? bytes = some name) : name.toUTF8 = bytes := by
  rw [String.fromUTF8?] at h
  split at h
  · obtain rfl := Option.some.inj h
    rfl
  · cases h

theorem takesCode_name :
    TakesCode readName fun name code => ∃ length,
      encodeCount .fieldNameLength name.utf8ByteSize = .ok length ∧
        code = length ++ name.toUTF8.data.toList := by
  refine (takesCode_count .fieldNameLength).bind fun count length hlength => ?_
  refine (takesCode_bytes count).bind ?_
  rintro _ bytes ⟨rfl, rfl⟩
  split
  · next name hname =>
    have hutf8 := toUTF8_of_fromUTF8? hname
    have hbytes : name.toUTF8.data.toList = bytes := by rw [hutf8]
    have hsize : name.utf8ByteSize = bytes.length := by
      rw [← hbytes]
      exact Array.length_toList.symm
    refine takesCode_pure ⟨length, ?_, ?_⟩
    · rwa [hsize]
    · rw [hbytes, List.append_nil]
  · exact takesCode_failure

end

/-! ## Types and fields -/

theorem takesCode_unit : TakesCode readUnit fun unit code => code = [unit.code] := by
  refine takesCode_byte.bind ?_
  rintro byte _ rfl
  have hcode : ∀ {unit : TimeUnit}, byte.toNat = unit.code.toNat →
      TakesCode (pure unit) fun unit back => [byte] ++ back = [unit.code] := by
    intro unit hbyte
    exact takesCode_pure (congrArg (fun code => [code]) (UInt8.toNat_inj.mp hbyte))
  split
  · next h => exact hcode h
  · next h => exact hcode h
  · next h => exact hcode h
  · next h => exact hcode h
  · exact takesCode_failure

theorem takesCode_nullable :
    TakesCode readNullable fun nullable code => code = [nullable.toUInt8] := by
  refine takesCode_byte.bind ?_
  rintro byte _ rfl
  split
  · next h => exact takesCode_pure (congrArg (fun code => [code]) (UInt8.toNat_inj.mp h))
  · next h => exact takesCode_pure (congrArg (fun code => [code]) (UInt8.toNat_inj.mp h))
  · exact takesCode_failure

theorem encode_of_parameters {dtype : DataType} {bytes : List UInt8}
    (h : dtype.encodeParameters = .ok bytes) : dtype.encode = .ok (dtype.tag :: bytes) := by
  rw [DataType.encode, h]
  rfl

/-- A type is taken off by its tag if its parameters are taken off by their bytes. -/
theorem takesCode_parameters {α : Type} {read : Reader α} {IsCode : α → List UInt8 → Prop}
    {dtype : α → DataType} {byte : UInt8} (hread : TakesCode read IsCode)
    (htag : ∀ value, byte.toNat = (dtype value).tag.toNat)
    (hcode : ∀ value code, IsCode value code → (dtype value).encodeParameters = .ok code) :
    TakesCode (read >>= fun value => pure (dtype value))
      fun dtype back => dtype.encode = .ok ([byte] ++ back) := by
  refine hread.bind fun value code hvalue => takesCode_pure ?_
  obtain rfl := UInt8.toNat_inj.mp (htag value)
  rw [List.append_nil]
  exact encode_of_parameters (hcode value code hvalue)

theorem takesCode_dataType :
    TakesCode readDataType fun dtype code => dtype.encode = .ok code := by
  refine takesCode_byte.bind ?_
  rintro byte _ rfl
  have hplain : ∀ dtype : DataType, dtype.encodeParameters = .ok [] →
      byte.toNat = dtype.tag.toNat →
      TakesCode (pure dtype) fun dtype back => dtype.encode = .ok ([byte] ++ back) := by
    intro dtype hparameters htag
    obtain rfl := UInt8.toNat_inj.mp htag
    exact takesCode_pure (encode_of_parameters hparameters)
  have hunit : ∀ dtype : TimeUnit → DataType,
      (∀ unit, (dtype unit).encodeParameters = .ok [unit.code]) →
      (∀ unit, byte.toNat = (dtype unit).tag.toNat) →
      TakesCode (readUnit >>= fun unit => pure (dtype unit))
        fun dtype back => dtype.encode = .ok ([byte] ++ back) := by
    intro dtype hparameters htag
    refine takesCode_parameters takesCode_unit htag ?_
    rintro unit _ rfl
    exact hparameters unit
  -- one case for each tag, in the order of the tags, and one for the bytes that are none
  split
  · next h => exact hplain .int8 rfl h
  · next h => exact hplain .int16 rfl h
  · next h => exact hplain .int32 rfl h
  · next h => exact hplain .int64 rfl h
  · next h => exact hplain .uint8 rfl h
  · next h => exact hplain .uint16 rfl h
  · next h => exact hplain .uint32 rfl h
  · next h => exact hplain .uint64 rfl h
  · next h => exact hplain .float32 rfl h
  · next h => exact hplain .float64 rfl h
  · next h => exact hplain .date32 rfl h
  · next h => exact hplain .date64 rfl h
  · next h => exact hunit .time32 (fun _ => rfl) fun _ => h
  · next h => exact hunit .time64 (fun _ => rfl) fun _ => h
  · next h => exact hunit .timestamp (fun _ => rfl) fun _ => h
  · next h => exact hunit .duration (fun _ => rfl) fun _ => h
  · next h =>
    refine takesCode_byte.bind ?_
    rintro precision _ rfl
    refine takesCode_byte.bind ?_
    rintro scale _ rfl
    obtain rfl : byte = (DataType.decimal precision scale).tag := UInt8.toNat_inj.mp h
    exact takesCode_pure (encode_of_parameters rfl)
  · next h => exact takesCode_parameters (takesCode_count .binaryWidth) (fun _ => h) fun _ _ => id
  · exact takesCode_failure

theorem takesCode_field : TakesCode readField fun field code => field.encode = .ok code := by
  refine takesCode_name.bind ?_
  rintro name _ ⟨length, hlength, rfl⟩
  refine takesCode_nullable.bind ?_
  rintro nullable _ rfl
  refine takesCode_dataType.bind fun dtype code hdtype => takesCode_pure ?_
  rw [Field.encode, hlength, ok_bind, hdtype, ok_bind, List.append_nil]
  exact congrArg Except.ok (List.append_assoc _ _ _)

theorem takesCode_fields (count : Nat) :
    TakesCode (readMany readField count) fun fields code =>
      fields.length = count ∧ Schema.encodeFields fields = .ok code := by
  induction count with
  | zero => exact takesCode_pure ⟨rfl, rfl⟩
  | succ count ih =>
    refine takesCode_field.bind fun field front hfield => ?_
    refine ih.bind ?_
    rintro fields back ⟨rfl, hfields⟩
    refine takesCode_pure ⟨rfl, ?_⟩
    rw [Schema.encodeFields, hfield, ok_bind, hfields, ok_bind, List.append_nil]
    rfl

/-- What is read as a schema is the bytes of that schema. -/
theorem takesCode_schema : TakesCode readSchema fun schema code => schema.encode = .ok code := by
  refine takesCode_byte.bind ?_
  rintro kind _ rfl
  refine (takesCode_word 2).bind ?_
  rintro version _ ⟨rfl, -⟩
  split
  · next h =>
    obtain ⟨rfl, rfl⟩ := h
    refine (takesCode_count .fields).bind fun count bytes hcount => ?_
    refine (takesCode_fields count).bind ?_
    rintro fields back ⟨rfl, hfields⟩
    refine takesCode_pure ?_
    rw [Schema.encode, Schema.length, hcount, ok_bind, hfields, ok_bind, List.append_nil]
    simp only [pure_eq_ok, List.append_assoc, List.cons_append, List.nil_append]
  · exact takesCode_failure

end Ipc

/-! ## The schemas that have bytes -/

/-- The parameters of the type fit the words for them. -/
def DataType.FitsFormat : DataType → Prop
  | .fixedSizeBinary width => width < wordBound
  | _ => True

/-- The length of the name and the parameters of the type fit the words for them. -/
structure Field.FitsFormat (field : Field) : Prop where
  name_lt : field.name.utf8ByteSize < wordBound
  dtype_fits : field.dtype.FitsFormat

/-- The number of fields fits its word, and so does everything that is counted in a field. -/
structure Schema.FitsFormat (schema : Schema) : Prop where
  length_lt : schema.length < wordBound
  fields_fit : ∀ field ∈ schema.fields, field.FitsFormat

/-- A count was refused that does not fit the word for it. -/
def Failure.IsFormatLimit (failure : Failure) : Prop :=
  ∃ what count, wordBound ≤ count ∧ failure = .error (.raised (.formatLimit what count))

theorem Failure.IsFormatLimit.isError {failure : Failure} (h : failure.IsFormatLimit) :
    failure.IsError := by
  obtain ⟨what, count, -, rfl⟩ := h
  exact ⟨_, rfl⟩

theorem exists_encodeCount_iff {what : FormatCount} {count : Nat} :
    (∃ code, encodeCount what count = .ok code) ↔ count < wordBound := by
  constructor
  · rintro ⟨code, h⟩
    rw [encodeCount] at h
    split at h
    · assumption
    · cases h
  · exact fun h => ⟨_, encodeCount_of_lt h⟩

theorem encodeCount_failsWith (what : FormatCount) (count : Nat) :
    (encodeCount what count).FailsWith Failure.IsFormatLimit := by
  rw [encodeCount]
  split
  · exact Result.failsWith_ok _
  · next h => exact Result.failsWith_raise ⟨what, count, Nat.le_of_not_lt h, rfl⟩

theorem DataType.exists_encode_iff {dtype : DataType} :
    (∃ code, dtype.encode = .ok code) ↔ dtype.FitsFormat := by
  cases dtype with
  | fixedSizeBinary width =>
    constructor
    · rintro ⟨code, h⟩
      obtain ⟨parameters, hparameters, -⟩ := bind_eq_ok_iff.mp h
      exact exists_encodeCount_iff.mp ⟨parameters, hparameters⟩
    · intro h
      obtain ⟨parameters, hparameters⟩ := exists_encodeCount_iff.mpr h
      exact ⟨_, encode_of_parameters hparameters⟩
  | _ => exact ⟨fun _ => trivial, fun _ => ⟨_, rfl⟩⟩

theorem DataType.encode_failsWith (dtype : DataType) :
    dtype.encode.FailsWith Failure.IsFormatLimit := by
  refine Result.FailsWith.bind ?_ fun _ => Result.failsWith_ok _
  cases dtype with
  | fixedSizeBinary width => exact encodeCount_failsWith .binaryWidth width
  | _ => exact Result.failsWith_ok _

theorem Field.exists_encode_iff {field : Field} :
    (∃ code, field.encode = .ok code) ↔ field.FitsFormat := by
  constructor
  · rintro ⟨code, h⟩
    obtain ⟨length, hlength, hrest⟩ := bind_eq_ok_iff.mp h
    obtain ⟨dtype, hdtype, -⟩ := bind_eq_ok_iff.mp hrest
    exact ⟨exists_encodeCount_iff.mp ⟨length, hlength⟩,
      DataType.exists_encode_iff.mp ⟨dtype, hdtype⟩⟩
  · intro h
    obtain ⟨length, hlength⟩ := exists_encodeCount_iff.mpr h.name_lt
    obtain ⟨dtype, hdtype⟩ := DataType.exists_encode_iff.mpr h.dtype_fits
    exact ⟨_, bind_eq_ok_iff.mpr ⟨length, hlength, bind_eq_ok_iff.mpr ⟨dtype, hdtype, rfl⟩⟩⟩

theorem Field.encode_failsWith (field : Field) : field.encode.FailsWith Failure.IsFormatLimit :=
  (encodeCount_failsWith .fieldNameLength field.name.utf8ByteSize).bind fun _ =>
    field.dtype.encode_failsWith.bind fun _ => Result.failsWith_ok _

namespace Schema

theorem exists_encodeFields_iff {fields : List Field} :
    (∃ code, encodeFields fields = .ok code) ↔ ∀ field ∈ fields, field.FitsFormat := by
  induction fields with
  | nil =>
    constructor
    · rintro - field hmem
      cases hmem
    · exact fun _ => ⟨[], rfl⟩
  | cons field rest ih =>
    rw [List.forall_mem_cons]
    constructor
    · rintro ⟨code, h⟩
      obtain ⟨front, hfront, hmore⟩ := bind_eq_ok_iff.mp h
      obtain ⟨back, hback, -⟩ := bind_eq_ok_iff.mp hmore
      exact ⟨Field.exists_encode_iff.mp ⟨front, hfront⟩, ih.mp ⟨back, hback⟩⟩
    · rintro ⟨hfield, hrest⟩
      obtain ⟨front, hfront⟩ := Field.exists_encode_iff.mpr hfield
      obtain ⟨back, hback⟩ := ih.mpr hrest
      exact ⟨_, bind_eq_ok_iff.mpr ⟨front, hfront, bind_eq_ok_iff.mpr ⟨back, hback, rfl⟩⟩⟩

theorem encodeFields_failsWith (fields : List Field) :
    (encodeFields fields).FailsWith Failure.IsFormatLimit := by
  induction fields with
  | nil => exact Result.failsWith_ok _
  | cons field rest ih =>
    exact field.encode_failsWith.bind fun _ => ih.bind fun _ => Result.failsWith_ok _

/-- A schema has bytes exactly if all its counts fit the words for them. -/
theorem exists_encode_iff {schema : Schema} :
    (∃ code, schema.encode = .ok code) ↔ schema.FitsFormat := by
  constructor
  · rintro ⟨code, h⟩
    obtain ⟨count, hcount, hrest⟩ := bind_eq_ok_iff.mp h
    obtain ⟨fields, hfields, -⟩ := bind_eq_ok_iff.mp hrest
    exact ⟨exists_encodeCount_iff.mp ⟨count, hcount⟩, exists_encodeFields_iff.mp ⟨fields, hfields⟩⟩
  · intro h
    obtain ⟨count, hcount⟩ := exists_encodeCount_iff.mpr h.length_lt
    obtain ⟨fields, hfields⟩ := exists_encodeFields_iff.mpr h.fields_fit
    exact ⟨_, bind_eq_ok_iff.mpr ⟨count, hcount, bind_eq_ok_iff.mpr ⟨fields, hfields, rfl⟩⟩⟩

theorem encode_failsWith (schema : Schema) : schema.encode.FailsWith Failure.IsFormatLimit :=
  (encodeCount_failsWith .fields schema.length).bind fun _ =>
    (encodeFields_failsWith schema.fields).bind fun _ => Result.failsWith_ok _

/-! ## The code -/

/-- Two schemas of which the bytes of one begin the bytes of the other are one schema. -/
theorem eq_of_encode_append {schema other : Schema} {code more : List UInt8}
    (h : schema.encode = .ok code) (hother : other.encode = .ok (code ++ more)) :
    other = schema ∧ more = [] := by
  have hread := reads_schema h more
  have hreadOther := reads_schema hother []
  rw [List.append_nil, hread] at hreadOther
  obtain ⟨rfl, rfl⟩ := Prod.mk.inj (Option.some.inj hreadOther)
  exact ⟨rfl, rfl⟩

/-- The bytes of schemas are a code. A schema has bytes exactly if its counts fit the format, and
is refused with the error of a count otherwise. Its bytes are read as it is, whatever follows them,
and whatever is read as a schema is the bytes of that schema. The bytes of no schema begin those of
another. All of this holds whether or not the fields are ones that `create` accepts. -/
theorem encode_isCode (schema : Schema) :
    ((∃ code, schema.encode = .ok code) ↔ schema.FitsFormat) ∧
    (¬schema.FitsFormat → ∃ what count, wordBound ≤ count ∧
      schema.encode = .error (.error (.raised (.formatLimit what count))) ∧
      (Error.raised (.formatLimit what count)).kind = .caused .compute) ∧
    (∀ code rest, schema.encode = .ok code →
      readSchema.run (code ++ rest) = some (schema, rest)) ∧
    (∀ bytes rest, readSchema.run bytes = some (schema, rest) →
      ∃ code, schema.encode = .ok code ∧ bytes = code ++ rest) ∧
    ∀ other code more, schema.encode = .ok code → other.encode = .ok (code ++ more) →
      other = schema ∧ more = [] := by
  refine ⟨exists_encode_iff, ?_, fun code rest h => reads_schema h rest,
    fun bytes rest => takesCode_schema bytes schema rest, fun _ _ _ => eq_of_encode_append⟩
  intro hfits
  cases hencode : schema.encode with
  | ok code => exact absurd (exists_encode_iff.mp ⟨code, hencode⟩) hfits
  | error failure =>
    obtain ⟨what, count, hcount, rfl⟩ := schema.encode_failsWith failure hencode
    exact ⟨what, count, hcount, rfl, rfl⟩

/-- A schema whose types have parameters is read back before a byte that is not of it, and one with
a width of 33 bits is refused. -/
theorem encode_isCode_of_parameters :
    let schema : Schema := ⟨[⟨"at", .timestamp .microsecond, false⟩, ⟨"sum", .decimal 9 2, true⟩,
      ⟨"key", .fixedSizeBinary 20, false⟩]⟩
    let wide : Schema := ⟨[⟨"key", .fixedSizeBinary 0x100000000, true⟩]⟩
    (∃ code, schema.encode = .ok code ∧ readSchema.run (code ++ [7]) = some (schema, [7])) ∧
      ∃ what count, wide.encode = .error (.error (.raised (.formatLimit what count))) := by
  intro schema wide
  have hfits : schema.FitsFormat := by
    refine ⟨by decide, ?_⟩
    simp only [schema, List.forall_mem_cons, List.not_mem_nil, false_imp_iff, implies_true,
      and_true]
    exact ⟨⟨by decide, trivial⟩, ⟨by decide, trivial⟩, ⟨by decide, show 20 < wordBound by decide⟩⟩
  have hwide : ¬wide.FitsFormat := by
    intro h
    have hwidth : 0x100000000 < wordBound := (h.fields_fit _ List.mem_cons_self).dtype_fits
    exact absurd hwidth (by decide)
  obtain ⟨hexists, -, hread, -, -⟩ := encode_isCode schema
  obtain ⟨-, hrefused, -, -, -⟩ := encode_isCode wide
  obtain ⟨code, hcode⟩ := hexists.mpr hfits
  obtain ⟨what, count, -, hencode, -⟩ := hrefused hwide
  exact ⟨⟨code, hcode, hread code [7] hcode⟩, what, count, hencode⟩

end Schema

end Columnar
