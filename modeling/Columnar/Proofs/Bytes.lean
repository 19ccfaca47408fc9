import Columnar.Bytes

/-! # Parts of byte buffers -/

namespace Columnar

namespace Bytes

variable {bytes part : Bytes} {start : Nat}

theorem getElem?_overwrite (h : start + part.size ≤ bytes.size) (i : Nat) :
    (overwrite bytes start part)[i]? =
      if start ≤ i ∧ i < start + part.size then part[i - start]? else bytes[i]? := by
  have hfront : (bytes.extract 0 start).size = start := by
    rw [Array.size_extract]
    omega
  unfold overwrite
  rw [Array.append_assoc, Array.getElem?_append, hfront]
  by_cases hbefore : i < start
  · have hout : ¬ (start ≤ i ∧ i < start + part.size) := by omega
    rw [if_pos hbefore, if_neg hout, Array.getElem?_extract, if_pos (by omega), Nat.zero_add]
  rw [if_neg hbefore, Array.getElem?_append]
  by_cases hin : i - start < part.size
  · rw [if_pos hin, if_pos (by omega)]
  · have hout : ¬ (start ≤ i ∧ i < start + part.size) := by omega
    rw [if_neg hin, if_neg hout, Array.getElem?_extract, Nat.min_self]
    by_cases hsize : i < bytes.size
    · have hplace : start + part.size + (i - start - part.size) = i := by omega
      rw [if_pos (by omega), hplace]
    · rw [if_neg (by omega), Array.getElem?_eq_none (by omega)]

theorem extract_overwrite_self (h : start + part.size ≤ bytes.size) :
    (overwrite bytes start part).extract start (start + part.size) = part := by
  apply Array.ext_getElem?
  intro i
  rw [Array.getElem?_extract, size_overwrite h]
  by_cases hi : i < part.size
  · have hin : start ≤ start + i ∧ start + i < start + part.size := by omega
    rw [if_pos (by omega), getElem?_overwrite h, if_pos hin, Nat.add_sub_cancel_left]
  · rw [if_neg (by omega), Array.getElem?_eq_none (by omega)]

theorem extract_overwrite_of_disjoint (h : start + part.size ≤ bytes.size) {first last : Nat}
    (hdisjoint : last ≤ start ∨ start + part.size ≤ first) :
    (overwrite bytes start part).extract first last = bytes.extract first last := by
  apply Array.ext_getElem?
  intro i
  rw [Array.getElem?_extract, Array.getElem?_extract, size_overwrite h]
  by_cases hi : i < min last bytes.size - first
  · have hout : ¬ (start ≤ first + i ∧ first + i < start + part.size) := by omega
    rw [if_pos hi, if_pos hi, getElem?_overwrite h, if_neg hout]
  · rw [if_neg hi, if_neg hi]

variable {first second : Bytes} {width count : Nat}

/-- Buffers made of parts of one width are equal if all their parts are. -/
theorem eq_of_extract_eq (hfirst : first.size = count * width)
    (hsecond : second.size = count * width)
    (h : ∀ index < count, first.extract (index * width) ((index + 1) * width) =
      second.extract (index * width) ((index + 1) * width)) : first = second := by
  refine Array.ext (hfirst.trans hsecond.symm) fun i hi hother => ?_
  rw [hfirst] at hi
  -- byte `i` is byte `i % width` of part `i / width`
  have hindex : i / width < count := Nat.div_lt_of_lt_mul (Nat.mul_comm count width ▸ hi)
  have hplace : i / width * width + i % width = i := Nat.div_add_mod' i width
  have hpos : 0 < width := by
    apply Nat.pos_of_ne_zero
    rintro rfl
    simp at hi
  have hend : (i / width + 1) * width ≤ count * width := Nat.mul_le_mul_right _ hindex
  have hin : i % width < (i / width + 1) * width - i / width * width := by
    have := Nat.mod_lt i hpos
    rw [Nat.add_mul, Nat.one_mul]
    omega
  have hpart := congrArg (fun part => part[i % width]?) (h (i / width) hindex)
  simpa [Array.getElem?_extract, hfirst, hsecond, hend, hin, hplace] using hpart

/-- Of parts of one width one after the other, each is found in its place. -/
theorem extract_flatMap {α : Type} {encode : α → Bytes} (hwidth : ∀ x, (encode x).size = width)
    {values : List α} {index : Nat} {value : α} (h : values[index]? = some value) :
    (values.toArray.flatMap encode).extract (index * width) ((index + 1) * width) =
      encode value := by
  induction values generalizing index with
  | nil => simp at h
  | cons first rest ih =>
    have hcons : (first :: rest).toArray.flatMap encode =
        encode first ++ rest.toArray.flatMap encode := by simp
    cases index with
    | zero =>
      obtain rfl : first = value := by simpa using h
      simp [hcons, Array.extract_append, hwidth]
    | succ index =>
      have hpast :
          (encode first).extract ((index + 1) * width) ((index + 1 + 1) * width) = #[] := by
        apply Array.extract_empty_of_size_le_start
        rw [hwidth]
        exact Nat.le_mul_of_pos_left width (Nat.succ_pos index)
      have hskip (place : Nat) : (place + 1) * width - width = place * width := by
        rw [Nat.succ_mul, Nat.add_sub_cancel]
      rw [hcons, Array.extract_append, hpast, Array.empty_append, hwidth, hskip, hskip,
        ih (by simpa using h)]

end Bytes

end Columnar
