import Columnar.Text.DecimalText
import Mathlib.Algebra.Order.Ring.Int
import Mathlib.Data.List.Basic
import Mathlib.Tactic.IntervalCases
import Mathlib.Tactic.NormNum

/-! # What the text of integers and bytes says -/

namespace Columnar

variable {n places : Nat} {value : Int} {text : String}

/-! ## Digits -/

/-- Digits that say a number, with no zeros in front but for the one that says zero. -/
structure IsNumeral (digits : List Char) (n : Nat) : Prop where
  isDigit : ∀ c ∈ digits, c.isDigit = true
  ne_nil : digits ≠ []
  head_ne : 1 < digits.length → digits.head? ≠ some '0'
  value_eq : Nat.ofDigitChars 10 digits 0 = n

theorem head?_toDigits_ne (h : 0 < n) : (Nat.toDigits 10 n).head? ≠ some '0' := by
  induction n using Nat.strong_induction_on with
  | _ n ih =>
    rcases Nat.lt_or_ge n 10 with hsmall | hlarge
    · rw [Nat.toDigits_eq_if (by decide), if_pos hsmall]
      interval_cases n <;> decide
    · have hrest : 0 < n / 10 := Nat.div_pos hlarge (by decide)
      rw [Nat.toDigits_of_base_le (by decide) hlarge,
        List.head?_append_of_ne_nil _ Nat.toDigits_ne_nil]
      exact ih (n / 10) (Nat.div_lt_self h (by decide)) hrest

theorem isNumeral_toDigits (n : Nat) : IsNumeral (Nat.toDigits 10 n) n where
  isDigit _ hmem := Nat.isDigit_of_mem_toDigits (by decide) (by decide) hmem
  ne_nil := Nat.toDigits_ne_nil
  head_ne := by
    intro hlength
    apply head?_toDigits_ne
    apply Nat.pos_of_ne_zero
    rintro rfl
    exact absurd hlength (by decide)
  value_eq := Nat.ofDigitChars_ten_toDigits

/-- Zeros in front make up for the digits that a number has too few. -/
theorem toList_paddedDigits (places n : Nat) :
    (paddedDigits places n).toList =
      List.replicate (places - (Nat.toDigits 10 n).length) '0' ++ Nat.toDigits 10 n :=
  String.toList_ofList

theorem length_paddedDigits (hplaces : 0 < places) (h : n < 10 ^ places) :
    (paddedDigits places n).toList.length = places := by
  have hlength := (Nat.length_toDigits_le_iff (by decide) hplaces).mpr h
  rw [toList_paddedDigits, List.length_append, List.length_replicate]
  omega

theorem isDigit_of_mem_paddedDigits {c : Char} (h : c ∈ (paddedDigits places n).toList) :
    c.isDigit = true := by
  rw [toList_paddedDigits, List.mem_append] at h
  obtain hzero | hdigit := h
  · rw [List.eq_of_mem_replicate hzero]
    decide
  · exact (isNumeral_toDigits n).isDigit c hdigit

theorem ofDigitChars_paddedDigits (places n : Nat) :
    Nat.ofDigitChars 10 (paddedDigits places n).toList 0 = n := by
  rw [toList_paddedDigits, Nat.ofDigitChars_append, Nat.ofDigitChars_replicate_zero, Nat.mul_zero,
    Nat.ofDigitChars_ten_toDigits]

/-! ## Integers and decimals -/

/-- The minus sign stands before numbers below zero and no others. -/
def signOf (value : Int) : List Char :=
  if value < 0 then ['-'] else []

/-- The text is a sign and the digits of the absolute value. -/
def IsInteger (text : String) (value : Int) : Prop :=
  ∃ digits, text.toList = signOf value ++ digits ∧ IsNumeral digits value.natAbs

/-- The text is a sign, a whole part, a point and so many digits. Without the point they are the
absolute value. -/
def IsFixedPoint (text : String) (value : Int) (places : Nat) : Prop :=
  ∃ (whole fraction : List Char) (units : Nat),
    text.toList = signOf value ++ whole ++ '.' :: fraction ∧ IsNumeral whole units ∧
      fraction.length = places ∧ (∀ c ∈ fraction, c.isDigit = true) ∧
      value.natAbs = units * 10 ^ places + Nat.ofDigitChars 10 fraction 0

theorem toList_toString_int (value : Int) :
    (toString value).toList = signOf value ++ Nat.toDigits 10 value.natAbs := by
  rw [Int.toString_eq_repr, Int.repr_eq_if, signOf]
  by_cases hsign : 0 ≤ value
  · have hnat : value.toNat = value.natAbs := by omega
    rw [if_pos hsign, if_neg (Int.not_lt.mpr hsign), Nat.toList_repr, hnat, List.nil_append]
  · have hnat : (-value).toNat = value.natAbs := by omega
    rw [if_neg hsign, if_pos (Int.not_le.mp hsign), String.toList_append, Nat.toList_repr, hnat]
    rfl

theorem isInteger_toString (value : Int) : IsInteger (toString value) value :=
  ⟨_, toList_toString_int value, isNumeral_toDigits _⟩

/-- A quotient that is rounded towards zero never has the other sign. -/
theorem tdiv_nonpos (h : value ≤ 0) {unit : Int} (hunit : 0 ≤ unit) : value.tdiv unit ≤ 0 := by
  have hopposite : 0 ≤ (-value).tdiv unit := Int.tdiv_nonneg (by omega) hunit
  rw [Int.neg_tdiv] at hopposite
  omega

/-- The sign that is written apart is there for a whole part of zero, which has none of its own. -/
theorem toList_sign_append (value : Int) {unit : Int} (hunit : 0 ≤ unit) :
    (if value < 0 ∧ value.tdiv unit = 0 then "-" else "").toList ++ signOf (value.tdiv unit) =
      signOf value := by
  rcases Int.lt_or_le value 0 with hsign | hsign
  · have hwhole := tdiv_nonpos (Int.le_of_lt hsign) hunit
    rw [signOf, signOf, if_pos hsign]
    by_cases hzero : value.tdiv unit = 0
    · rw [if_pos ⟨hsign, hzero⟩, if_neg (by omega)]
      rfl
    · rw [if_neg fun h => hzero h.2, if_pos (by omega)]
      rfl
  · have hwhole : 0 ≤ value.tdiv unit := Int.tdiv_nonneg hsign hunit
    rw [signOf, signOf, if_neg fun h => absurd h.1 (by omega), if_neg (by omega), if_neg (by omega)]
    rfl

theorem toList_fixedPointText (value : Int) (places : Nat) :
    (fixedPointText value places).toList =
      signOf value ++ Nat.toDigits 10 (value.natAbs / 10 ^ places) ++
        '.' :: (paddedDigits places (value.natAbs % 10 ^ places)).toList := by
  have hunit : ((Nat.pow 10 places : Nat) : Int).natAbs = 10 ^ places := Int.natAbs_natCast _
  have hwhole : (value.tdiv (Nat.pow 10 places : Nat)).natAbs = value.natAbs / 10 ^ places := by
    rw [Int.natAbs_tdiv, hunit]
    rfl
  have hfraction : (value.tmod (Nat.pow 10 places : Nat)).natAbs = value.natAbs % 10 ^ places := by
    rw [Int.natAbs_tmod, hunit]
  have hsign := toList_sign_append value (Int.natCast_nonneg (Nat.pow 10 places))
  rw [fixedPointText, hfraction, ← hsign, ← hwhole]
  simp only [String.toList_append, toList_toString_int, List.append_assoc]
  rfl

/-- The text of a decimal is exact, whatever the number is. -/
theorem isFixedPoint_fixedPointText (hplaces : 0 < places) (value : Int) :
    IsFixedPoint (fixedPointText value places) value places := by
  have hfraction : value.natAbs % 10 ^ places < 10 ^ places :=
    Nat.mod_lt _ (Nat.pow_pos (by decide))
  refine ⟨_, _, _, toList_fixedPointText value places, isNumeral_toDigits _,
    length_paddedDigits hplaces hfraction, fun c => isDigit_of_mem_paddedDigits, ?_⟩
  rw [ofDigitChars_paddedDigits, Nat.div_add_mod']

/-! ## Reading a text -/

/-- The integer that the sign and the digits of a text say, whatever else is in it. -/
def readInt (text : String) : Int :=
  let digits := Nat.ofDigitChars 10 (text.toList.filter Char.isDigit) 0
  if '-' ∈ text.toList then -digits else digits

/-- There are digits in the text, and with the sign they say this integer. -/
structure ReadsAs (text : String) (value : Int) : Prop where
  readInt_eq : readInt text = value
  exists_digit : ∃ c ∈ text.toList, c.isDigit = true

theorem ReadsAs.ne_none (h : ReadsAs text value) : text ≠ "None" := by
  rintro rfl
  obtain ⟨c, hmem, hdigit⟩ := h.exists_digit
  have hnone : "None".toList.any Char.isDigit = false := by decide
  exact absurd hdigit (by simpa using List.any_eq_false.mp hnone c hmem)

theorem readInt_eq (rest : List Char) (htext : text.toList = signOf value ++ rest)
    (hrest : '-' ∉ rest)
    (hvalue : Nat.ofDigitChars 10 (rest.filter Char.isDigit) 0 = value.natAbs) :
    readInt text = value := by
  rw [readInt, htext, signOf]
  by_cases hsign : value < 0
  · have hdigits : (['-'] ++ rest).filter Char.isDigit = rest.filter Char.isDigit := rfl
    rw [if_pos hsign, hdigits, hvalue, if_pos (List.mem_append_left _ List.mem_cons_self)]
    omega
  · rw [if_neg hsign, List.nil_append, hvalue, if_neg hrest]
    omega

theorem not_mem_of_isDigit {digits : List Char} (h : ∀ c ∈ digits, c.isDigit = true) {c : Char}
    (hc : c.isDigit = false) : c ∉ digits := by
  intro hmem
  rw [h c hmem] at hc
  cases hc

theorem IsNumeral.exists_digit {digits : List Char} (h : IsNumeral digits n) :
    ∃ c ∈ digits, c.isDigit = true := by
  obtain ⟨c, hmem⟩ := List.exists_mem_of_ne_nil digits h.ne_nil
  exact ⟨c, hmem, h.isDigit c hmem⟩

/-- A unit after an integer has neither a sign nor digits. -/
theorem IsInteger.readsAs_append (h : IsInteger text value) (suffix : String)
    (hsuffix : ∀ c ∈ suffix.toList, c.isDigit = false ∧ c ≠ '-') :
    ReadsAs (text ++ suffix) value := by
  obtain ⟨digits, htext, hdigits⟩ := h
  have hwhole : (text ++ suffix).toList = signOf value ++ (digits ++ suffix.toList) := by
    rw [String.toList_append, htext, List.append_assoc]
  have hnone : suffix.toList.filter Char.isDigit = [] :=
    List.filter_eq_nil_iff.mpr fun c hmem => by simp [(hsuffix c hmem).1]
  constructor
  · refine readInt_eq _ hwhole ?_ ?_
    · rw [List.mem_append, not_or]
      exact ⟨not_mem_of_isDigit hdigits.isDigit (by decide), fun hmem => (hsuffix _ hmem).2 rfl⟩
    · rw [List.filter_append, hnone, List.append_nil, List.filter_eq_self.mpr hdigits.isDigit,
        hdigits.value_eq]
  · obtain ⟨c, hmem, hdigit⟩ := hdigits.exists_digit
    rw [hwhole]
    exact ⟨c, List.mem_append_right _ (List.mem_append_left _ hmem), hdigit⟩

theorem IsInteger.readsAs (h : IsInteger text value) : ReadsAs text value := by
  have hreads := h.readsAs_append "" (by simp)
  rwa [String.append_empty] at hreads

/-- Without the point, the digits before it and after it are those of the absolute value. -/
theorem IsFixedPoint.readsAs (h : IsFixedPoint text value places) : ReadsAs text value := by
  obtain ⟨whole, fraction, units, htext, hwhole, hlength, hfraction, hvalue⟩ := h
  rw [List.append_assoc] at htext
  constructor
  · refine readInt_eq _ htext ?_ ?_
    · have hminus : ('-').isDigit = false := by decide
      rw [List.mem_append, List.mem_cons, not_or, not_or]
      exact ⟨not_mem_of_isDigit hwhole.isDigit hminus, by decide,
        not_mem_of_isDigit hfraction hminus⟩
    · have hpoint : ('.' :: fraction).filter Char.isDigit = fraction.filter Char.isDigit := rfl
      rw [List.filter_append, hpoint, List.filter_eq_self.mpr hwhole.isDigit,
        List.filter_eq_self.mpr hfraction, Nat.ofDigitChars_append, hwhole.value_eq,
        Nat.ofDigitChars_eq_ofDigitChars_zero, hlength, hvalue, Nat.mul_comm]
  · obtain ⟨c, hmem, hdigit⟩ := hwhole.exists_digit
    rw [htext]
    exact ⟨c, List.mem_append_right _ (List.mem_append_left _ hmem), hdigit⟩

/-! ## Operations on 128 bits -/

/-- The number is one of those that 128 bits hold with a sign. -/
def FitsInt128 (value : Int) : Prop :=
  -0x80000000000000000000000000000000 ≤ value ∧ value ≤ 0x7fffffffffffffffffffffffffffffff

instance (value : Int) : Decidable (FitsInt128 value) :=
  inferInstanceAs (Decidable (_ ∧ _))

/-- A power, unless it is out of range. -/
def checkedPow (base : Int) (exponent : Nat) : Option Int :=
  if FitsInt128 (base ^ exponent) then some (base ^ exponent) else none

/-- A quotient rounded towards zero, unless there is none or it is out of range. -/
def checkedDiv (value unit : Int) : Option Int :=
  if unit ≠ 0 ∧ FitsInt128 (value.tdiv unit) then some (value.tdiv unit) else none

/-- The remainder of such a quotient. It is taken together with the quotient, which must be in
range too. -/
def checkedRem (value unit : Int) : Option Int :=
  if unit ≠ 0 ∧ FitsInt128 (value.tdiv unit) then some (value.tmod unit) else none

/-- The text of a decimal by operations that have no answer if they overflow or divide by zero.
The power alone may have none. -/
def checkedDecimalText (value : Int) (scale : Nat) : Option String :=
  match checkedPow 10 scale with
  | some unit =>
    if 0 < scale then do
      let fraction ← checkedRem value unit
      let whole ← checkedDiv value unit
      let sign := if value < 0 ∧ whole = 0 then "-" else ""
      return s!"{sign}{whole}.{paddedDigits scale fraction.natAbs}"
    else some (toString value)
  | none => some (toString value)

/-- The unit of a decimal fits in 128 bits up to the largest precision. -/
theorem fitsInt128_ten_pow_iff {scale : Nat} : FitsInt128 (10 ^ scale) ↔ scale ≤ 38 := by
  constructor
  · rintro ⟨-, hle⟩
    by_contra hlarge
    have hpow : (10 : Int) ^ 39 ≤ 10 ^ scale := pow_le_pow_right₀ (by decide) (by omega)
    exact absurd (le_trans hpow hle) (by norm_num)
  · intro hscale
    have hpow : (10 : Int) ^ scale ≤ 10 ^ 38 := pow_le_pow_right₀ (by decide) hscale
    exact ⟨le_trans (by norm_num) (pow_nonneg (by decide) scale),
      le_trans hpow (by norm_num)⟩

/-- A quotient by a positive number is no further from zero than what is divided. -/
theorem FitsInt128.tdiv (h : FitsInt128 value) {unit : Int} (hunit : 0 < unit) :
    FitsInt128 (value.tdiv unit) := by
  obtain ⟨hlow, hhigh⟩ := h
  have habs : (value.tdiv unit).natAbs ≤ value.natAbs := by
    rw [Int.natAbs_tdiv]
    exact Nat.div_le_self _ _
  rw [FitsInt128]
  rcases Int.lt_or_le value 0 with hsign | hsign
  · -- the least number has no counterpart above zero, but its quotient is not above zero
    have hwhole := tdiv_nonpos (Int.le_of_lt hsign) (Int.le_of_lt hunit)
    omega
  · have hwhole : 0 ≤ value.tdiv unit := Int.tdiv_nonneg hsign (Int.le_of_lt hunit)
    omega

/-- No operation but the power is ever without an answer, and the power is so exactly for the
scales that are not shown. -/
theorem checkedDecimalText_eq (h : FitsInt128 value) (scale : Nat) :
    checkedDecimalText value scale =
      some (if 0 < scale ∧ scale ≤ 38 then fixedPointText value scale else toString value) := by
  have hunit : 0 < (10 : Int) ^ scale := pow_pos (by decide) scale
  have hdivides : (10 : Int) ^ scale ≠ 0 ∧ FitsInt128 (value.tdiv (10 ^ scale)) :=
    ⟨Int.ne_of_gt hunit, h.tdiv hunit⟩
  rw [checkedDecimalText, checkedPow]
  by_cases hscale : scale ≤ 38
  · rw [if_pos (fitsInt128_ten_pow_iff.mpr hscale)]
    by_cases hpos : 0 < scale
    · have hcast : ((Nat.pow 10 scale : Nat) : Int) = 10 ^ scale := by norm_num
      rw [if_pos ⟨hpos, hscale⟩, fixedPointText, hcast]
      simp only [if_pos hpos, checkedRem, checkedDiv, if_pos hdivides]
      rfl
    · rw [if_neg fun hshown => hpos hshown.1]
      simp only [if_neg hpos]
  · rw [if_neg fun hfits => hscale (fitsInt128_ten_pow_iff.mp hfits),
      if_neg fun hshown => hscale hshown.2]

/-! ## Hexadecimal digits -/

theorem digitChar_inj : ∀ first < 16, ∀ second < 16,
    Nat.digitChar first = Nat.digitChar second → first = second := by
  decide

theorem hexDigits_inj {first second : UInt8} (h : hexDigits first = hexDigits second) :
    first = second := by
  have hfirst := first.toNat_lt
  have hsecond := second.toNat_lt
  simp only [hexDigits, List.cons.injEq, and_true] at h
  have hhigh := digitChar_inj _ (by omega) _ (by omega) h.1
  have hlow := digitChar_inj _ (by omega) _ (by omega) h.2
  apply UInt8.toNat_inj.mp
  omega

/-- Every byte takes two digits, so that bytes are told apart at the first that differs. -/
theorem hexText_inj {first second : Bytes} (h : hexText first = hexText second) :
    first = second := by
  have hinj : ∀ these those : List UInt8,
      these.flatMap hexDigits = those.flatMap hexDigits → these = those := by
    intro these
    induction these with
    | nil =>
      rintro (_ | ⟨byte, those⟩) hdigits
      · rfl
      · cases hdigits
    | cons byte these ih =>
      rintro (_ | ⟨other, those⟩) hdigits
      · cases hdigits
      · rw [List.flatMap_cons, List.flatMap_cons] at hdigits
        obtain ⟨hbyte, hrest⟩ := List.append_inj hdigits rfl
        rw [hexDigits_inj hbyte, ih those hrest]
  exact Array.toList_inj.mp (hinj _ _ (String.ofList_injective h))

end Columnar
