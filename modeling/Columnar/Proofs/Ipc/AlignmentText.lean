import Columnar.Proofs.Ipc.Alignment

/-!
# Which texts ask for an alignment

A text denotes the sum of its digits over their places, however it is read. A reader that has only
64 bits gives up once a product or a sum overflows, and comes to the same answer.
-/

namespace Columnar.Ipc.Alignment

variable {text : String} {n : Nat}

/-! ## Digits -/

/-- A decimal digit as a character. -/
def digitChar (digit : Fin 10) : Char :=
  Nat.digitChar digit

/-- The number that digits denote by their places: the last digit counts once, and every other ten
times as much as it would one place later. -/
def placeValue (digits : List (Fin 10)) : Nat :=
  Nat.ofDigits 10 (digits.reverse.map Fin.val)

/-- The text is made of one or more digits that denote the number, perhaps after one plus sign. -/
def Denotes (text : String) (n : Nat) : Prop :=
  ∃ (sign : List Char) (digits : List (Fin 10)),
    text.toList = sign ++ digits.map digitChar ∧ (sign = [] ∨ sign = ['+']) ∧ digits ≠ [] ∧
      placeValue digits = n

theorem isDigit_iff {c : Char} : c.isDigit = true ↔ ∃ digit, digitChar digit = c := by
  constructor
  · intro h
    obtain ⟨hlow, hhigh⟩ := Char.isDigit_iff_toNat.mp h
    have hzero : '0'.toNat = 48 := rfl
    have hnine : '9'.toNat = 57 := rfl
    have hlt : c.toNat - 48 < 10 := by omega
    refine ⟨⟨c.toNat - 48, hlt⟩, Char.toNat_inj.mp ?_⟩
    rw [digitChar, Nat.toNat_digitChar_of_lt_ten hlt]
    omega
  · rintro ⟨digit, rfl⟩
    fin_cases digit <;> rfl

/-- Characters that are digits, each of them, are the characters of digits. -/
theorem all_isDigit_iff {cs : List Char} :
    cs.all Char.isDigit = true ↔ ∃ digits, List.map digitChar digits = cs := by
  have hrange := Set.ext_iff.mp (Set.range_list_map digitChar) cs
  rw [List.all_eq_true]
  exact (forall₂_congr fun c _ => isDigit_iff).trans hrange.symm

theorem placeValue_cons (digit : Fin 10) (rest : List (Fin 10)) :
    placeValue (digit :: rest) = 10 ^ rest.length * digit + placeValue rest := by
  rw [placeValue, placeValue, List.map_reverse, List.map_reverse, List.map_cons,
    Nat.ofDigits_reverse_cons, List.length_map, Nat.add_comm]

/-- To go through the digits from the first to the last is to add up their places. -/
theorem ofDigitChars_map_digitChar (digits : List (Fin 10)) :
    Nat.ofDigitChars 10 (digits.map digitChar) 0 = placeValue digits := by
  induction digits with
  | nil => rfl
  | cons digit rest ih =>
    rw [List.map_cons, digitChar, Nat.ofDigitChars_cons_digitChar_of_lt_ten digit.isLt,
      Nat.ofDigitChars_eq_ofDigitChars_zero, ih, placeValue_cons, List.length_map, Nat.mul_zero,
      Nat.zero_add]

/-! ## Reading a size -/

/-- At most a plus sign is taken away. -/
theorem exists_sign (cs : List Char) :
    ∃ sign, (sign = [] ∨ sign = ['+']) ∧ cs = sign ++ withoutPlus cs := by
  unfold withoutPlus
  split
  · exact ⟨['+'], Or.inr rfl, rfl⟩
  · exact ⟨[], Or.inl rfl, rfl⟩

/-- Digits are left when the sign is taken away, since none of them is a plus sign. -/
theorem withoutPlus_digits {sign : List Char} (hsign : sign = [] ∨ sign = ['+'])
    (digits : List (Fin 10)) :
    withoutPlus (sign ++ digits.map digitChar) = digits.map digitChar := by
  obtain rfl | rfl := hsign
  · cases digits with
    | nil => rfl
    | cons digit rest => fin_cases digit <;> rfl
  · rfl

/-- What is left without the sign tells whether a text denotes a number, and which. -/
theorem denotes_iff :
    Denotes text n ↔
      withoutPlus text.toList ≠ [] ∧ (withoutPlus text.toList).all Char.isDigit = true ∧
        digitsValue (withoutPlus text.toList) = n := by
  constructor
  · rintro ⟨sign, digits, htext, hsign, hne, rfl⟩
    rw [htext, withoutPlus_digits hsign]
    exact ⟨fun h => hne (List.map_eq_nil_iff.mp h), all_isDigit_iff.mpr ⟨digits, rfl⟩,
      ofDigitChars_map_digitChar digits⟩
  · rintro ⟨hne, hdigits, rfl⟩
    obtain ⟨sign, hsign, htext⟩ := exists_sign text.toList
    obtain ⟨digits, hchars⟩ := all_isDigit_iff.mp hdigits
    rw [← hchars] at htext hne ⊢
    exact ⟨sign, digits, htext, hsign, fun h => hne (List.map_eq_nil_iff.mpr h),
      (ofDigitChars_map_digitChar digits).symm⟩

/-- No text denotes two numbers. -/
theorem Denotes.unique {m : Nat} (hn : Denotes text n) (hm : Denotes text m) : n = m :=
  (denotes_iff.mp hn).2.2.symm.trans (denotes_iff.mp hm).2.2

/-- A size is found exactly if the text denotes it. -/
theorem size?_eq_some_iff : size? text = some n ↔ Denotes text n ∧ n < Size.bound := by
  rw [denotes_iff, size?, Option.ite_none_right_eq_some, Option.some_inj]
  constructor
  · rintro ⟨⟨hne, hdigits, hlt⟩, rfl⟩
    exact ⟨⟨hne, hdigits, rfl⟩, hlt⟩
  · rintro ⟨⟨hne, hdigits, rfl⟩, hlt⟩
    exact ⟨⟨hne, hdigits, hlt⟩, rfl⟩

theorem size?_eq_none_iff : size? text = none ↔ ∀ n, Denotes text n → Size.bound ≤ n := by
  simp only [Option.eq_none_iff_forall_ne_some, ne_eq, size?_eq_some_iff, not_and, Nat.not_lt]

/-! ## Reading a size digit by digit -/

/-- A size with one more digit after its own, unless the product or the sum leaves 64 bits. -/
def pushDigit? (size : Nat) (c : Char) : Option Nat :=
  if c.isDigit then
    (Size.mul 10 size >>= fun tens => Size.add tens (c.toNat - '0'.toNat)).toOption
  else none

/-- The size that a text denotes, read digit by digit. The reading ends with the first character
that is no digit, and with the first product or sum that leaves 64 bits. -/
def sizeByDigits? (text : String) : Option Nat :=
  match withoutPlus text.toList with
  | [] => none
  | digits => digits.foldlM pushDigit? 0

/-- To check the product and then the sum is to check the sum. -/
theorem pushDigit?_eq (size : Nat) (c : Char) :
    pushDigit? size c =
      if c.isDigit = true ∧ 10 * size + (c.toNat - '0'.toNat) < Size.bound then
        some (10 * size + (c.toNat - '0'.toNat))
      else none := by
  rw [pushDigit?, Size.mul_eq_checked, Size.checked_bind_add]
  by_cases hdigit : c.isDigit = true
  · rw [if_pos hdigit]
    by_cases hlt : 10 * size + (c.toNat - '0'.toNat) < Size.bound
    · rw [Size.checked_of_lt hlt, if_pos ⟨hdigit, hlt⟩]
      rfl
    · rw [Size.checked_of_le (Nat.le_of_not_lt hlt), if_neg fun h => hlt h.2]
      rfl
  · rw [if_neg hdigit, if_neg fun h => hdigit h.1]

/-- A number only grows by the digits that follow. -/
theorem le_ofDigitChars (cs : List Char) (size : Nat) : size ≤ Nat.ofDigitChars 10 cs size := by
  rw [Nat.ofDigitChars_eq_ofDigitChars_zero]
  exact Nat.le_add_right_of_le (Nat.le_mul_of_pos_left size (Nat.pow_pos (by decide)))

/-- What the digits after a size make of it, unless 64 bits cannot count that. -/
theorem foldlM_pushDigit? (cs : List Char) {size : Nat} (hsize : size < Size.bound) :
    cs.foldlM pushDigit? size =
      if cs.all Char.isDigit = true ∧ Nat.ofDigitChars 10 cs size < Size.bound then
        some (Nat.ofDigitChars 10 cs size)
      else none := by
  induction cs generalizing size with
  | nil => exact (if_pos ⟨rfl, hsize⟩).symm
  | cons c rest ih =>
    rw [List.foldlM_cons, pushDigit?_eq, List.all_cons, Nat.ofDigitChars_cons]
    by_cases hdigit : c.isDigit = true
    · by_cases hlt : 10 * size + (c.toNat - '0'.toNat) < Size.bound
      · rw [if_pos ⟨hdigit, hlt⟩, hdigit, Bool.true_and]
        exact ih hlt
      · -- what comes after an overflow cannot take it back
        have hgrows := le_ofDigitChars rest (10 * size + (c.toNat - '0'.toNat))
        rw [if_neg fun h => hlt h.2, if_neg fun h => hlt (Nat.lt_of_le_of_lt hgrows h.2)]
        rfl
    · rw [if_neg fun h => hdigit h.1, if_neg fun h => hdigit (Bool.and_eq_true_iff.mp h.1).1]
      rfl

/-- A reader that gives up at the first overflow finds every size that a text denotes, and no
other. -/
theorem sizeByDigits?_eq_size? (text : String) : sizeByDigits? text = size? text := by
  rw [sizeByDigits?, size?]
  cases withoutPlus text.toList with
  | nil => rfl
  | cons c rest =>
    simp only [foldlM_pushDigit? (c :: rest) (by decide : 0 < Size.bound), ne_eq,
      reduceCtorEq, not_false_eq_true, true_and]
    rfl

/-! ## Asking for an alignment -/

/-- The powers of two that are sizes. -/
theorem lt_bound_and_isPowerOfTwo_iff :
    n < Size.bound ∧ IsPowerOfTwo n ↔ ∃ exponent ≤ 63, n = 2 ^ exponent := by
  rw [isPowerOfTwo_iff]
  constructor
  · rintro ⟨hlt, exponent, rfl⟩
    rw [Nat.one_shiftLeft] at hlt ⊢
    have hexponent : exponent < 64 := (Nat.pow_lt_pow_iff_right (by decide)).mp hlt
    exact ⟨exponent, Nat.le_of_lt_succ hexponent, rfl⟩
  · rintro ⟨exponent, hle, rfl⟩
    exact ⟨Nat.pow_lt_pow_right (by decide) (Nat.lt_succ_of_le hle), exponent,
      (Nat.one_shiftLeft exponent).symm⟩

/-- What is wrong with a text that asks for no alignment. -/
inductive Fault (text : String) : Cause → Prop
  /-- The text denotes no number, or one that 64 bits cannot count. -/
  | notSize (h : ∀ n, Denotes text n → Size.bound ≤ n) : Fault text (.alignmentNotInteger text)
  /-- The text denotes a number that is not a power of two. -/
  | notPowerOfTwo {n : Nat} (hdenotes : Denotes text n) (hlt : n < Size.bound)
      (h : ¬ IsPowerOfTwo n) : Fault text (.alignmentNotPowerOfTwo n)

/-- A text that denotes a size asks for it if it is a power of two. -/
theorem ofText_of_size (h : size? text = some n) :
    ofText (some text) =
      if IsPowerOfTwo n then .ok n else .error (.error (.raised (.alignmentNotPowerOfTwo n))) := by
  simp only [ofText, h, check, pure_eq_ok, ok_bind]
  by_cases hpower : IsPowerOfTwo n
  · rw [if_pos hpower, if_pos hpower, ok_bind]
  · rw [if_neg hpower, if_neg hpower]
    rfl

theorem ofText_of_not_size (h : size? text = none) :
    ofText (some text) = .error (.error (.raised (.alignmentNotInteger text))) := by
  simp only [ofText, h]
  rfl

/-- A text asks for the power of two that it denotes. -/
theorem ofText_eq_ok_iff :
    ofText (some text) = .ok n ↔ Denotes text n ∧ ∃ exponent ≤ 63, n = 2 ^ exponent := by
  rw [← lt_bound_and_isPowerOfTwo_iff, ← and_assoc, ← size?_eq_some_iff]
  cases hsize : size? text with
  | none => simp [ofText_of_not_size hsize]
  | some size =>
    rw [ofText_of_size hsize, Option.some_inj]
    by_cases hpower : IsPowerOfTwo size
    · rw [if_pos hpower, Except.ok.injEq]
      exact ⟨fun h => ⟨h, h ▸ hpower⟩, And.left⟩
    · rw [if_neg hpower]
      exact ⟨nofun, fun h => absurd (h.1 ▸ h.2) hpower⟩

/-- Every other text is an error of the one fault that it has. -/
theorem ofText_eq_error_iff {failure : Failure} :
    ofText (some text) = .error failure ↔
      ∃ cause, Fault text cause ∧ failure = .error (.raised cause) := by
  constructor
  · intro h
    cases hsize : size? text with
    | none =>
      rw [ofText_of_not_size hsize] at h
      exact ⟨_, .notSize (size?_eq_none_iff.mp hsize), (Except.error.inj h).symm⟩
    | some size =>
      obtain ⟨hdenotes, hlt⟩ := size?_eq_some_iff.mp hsize
      rw [ofText_of_size hsize] at h
      by_cases hpower : IsPowerOfTwo size
      · rw [if_pos hpower] at h
        cases h
      · rw [if_neg hpower] at h
        exact ⟨_, .notPowerOfTwo hdenotes hlt hpower, (Except.error.inj h).symm⟩
  · rintro ⟨cause, hfault, rfl⟩
    cases hfault with
    | notSize hlarge => exact ofText_of_not_size (size?_eq_none_iff.mpr hlarge)
    | notPowerOfTwo hdenotes hlt hpower =>
      rw [ofText_of_size (size?_eq_some_iff.mpr ⟨hdenotes, hlt⟩), if_neg hpower]

theorem Fault.kind_eq {cause : Cause} (h : Fault text cause) : cause.kind = .compute := by
  cases h <;> rfl

/-- Without a text the alignment is one. A text asks for an alignment exactly if it denotes a power
of two up to `2 ^ 63`, which then is the alignment. Every other text is an error of computation.
Whether the size is read as a whole or digit by digit in 64 bits makes no difference. -/
theorem ofText_exact :
    ofText none = .ok 1 ∧
      ∀ text,
        (∀ alignment, ofText (some text) = .ok alignment ↔
          Denotes text alignment ∧ ∃ exponent ≤ 63, alignment = 2 ^ exponent) ∧
        ((¬ ∃ exponent ≤ 63, Denotes text (2 ^ exponent)) ↔
          ∃ cause, Fault text cause ∧ cause.kind = .compute ∧
            ofText (some text) = .error (.error (.raised cause))) ∧
        sizeByDigits? text = size? text := by
  refine ⟨rfl, fun text => ⟨fun alignment => ofText_eq_ok_iff, ?_, sizeByDigits?_eq_size? text⟩⟩
  constructor
  · intro hnone
    cases hanswer : ofText (some text) with
    | ok alignment =>
      obtain ⟨hdenotes, exponent, hle, rfl⟩ := ofText_eq_ok_iff.mp hanswer
      exact absurd ⟨exponent, hle, hdenotes⟩ hnone
    | error failure =>
      obtain ⟨cause, hfault, rfl⟩ := ofText_eq_error_iff.mp hanswer
      exact ⟨cause, hfault, hfault.kind_eq, rfl⟩
  · rintro ⟨cause, -, -, hanswer⟩ ⟨exponent, hle, hdenotes⟩
    rw [ofText_eq_ok_iff.mpr ⟨hdenotes, exponent, hle, rfl⟩] at hanswer
    cases hanswer

/-- Twenty zeros before the digits of an alignment do no harm. Twenty digits of which none is a zero
in front are too many even for a power of two. -/
theorem ofText_exact_of_twenty_digits :
    ofText (some "+0000000000000000000064") = .ok 64 ∧
      Denotes "18446744073709551616" (2 ^ 64) ∧
      ∃ cause, cause.kind = .compute ∧
        ofText (some "18446744073709551616") = .error (.error (.raised cause)) := by
  obtain ⟨-, htexts⟩ := ofText_exact
  have hzeros : Denotes "+0000000000000000000064" 64 :=
    ⟨['+'], List.replicate 20 0 ++ [6, 4], rfl, .inr rfl, by decide, rfl⟩
  have hlarge : Denotes "18446744073709551616" (2 ^ 64) :=
    ⟨[], [1, 8, 4, 4, 6, 7, 4, 4, 0, 7, 3, 7, 0, 9, 5, 5, 1, 6, 1, 6], rfl, .inl rfl, by decide,
      rfl⟩
  have hnone : ¬ ∃ exponent ≤ 63, Denotes "18446744073709551616" (2 ^ exponent) := by
    rintro ⟨exponent, hle, hdenotes⟩
    have hexponent := Nat.pow_right_injective (Nat.le_refl 2) (hdenotes.unique hlarge)
    omega
  obtain ⟨cause, -, hkind, hanswer⟩ := (htexts _).2.1.mp hnone
  exact ⟨((htexts _).1 64).mpr ⟨hzeros, 6, by decide, rfl⟩, hlarge, cause, hkind, hanswer⟩

end Columnar.Ipc.Alignment
