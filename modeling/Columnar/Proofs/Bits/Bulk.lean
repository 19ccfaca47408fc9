import Mathlib.Tactic.Choose
import Columnar.Proofs.Bits

/-! # Counting and moving bits a byte at a time -/

namespace Columnar

/-- If a call has a value for every element of a list, so has going through the list. -/
theorem mapM_eq_ok {α β : Type} {call : α → Result β} {value : α → β} {list : List α}
    (h : ∀ x ∈ list, call x = .ok (value x)) : list.mapM call = .ok (list.map value) := by
  induction list with
  | nil => rfl
  | cons x rest ih =>
    rw [List.mapM_cons, h x List.mem_cons_self, ok_bind,
      ih fun y hy => h y (List.mem_cons_of_mem x hy), ok_bind]
    rfl

/-- Going through a list gives as many values as it has elements. -/
theorem length_of_mapM {α β : Type} {call : α → Result β} {list : List α} {values : List β}
    (h : list.mapM call = .ok values) : values.length = list.length := by
  induction list generalizing values with
  | nil =>
    obtain rfl := Except.ok.inj h
    rfl
  | cons x rest ih =>
    rw [List.mapM_cons] at h
    obtain ⟨value, -, h⟩ := bind_eq_ok_iff.mp h
    obtain ⟨others, hothers, h⟩ := bind_eq_ok_iff.mp h
    obtain rfl := Except.ok.inj h
    rw [List.length_cons, List.length_cons, ih hothers]

namespace Bits

variable {bytes : Bytes}

theorem onesIn_append (first second : List UInt8) :
    onesIn (first ++ second) = onesIn first + onesIn second := by
  induction first with
  | nil => simp [onesIn]
  | cons byte rest ih => simp only [List.cons_append, onesIn, ih, Nat.add_assoc]

/-- The bits of a row up to `extra` bits into byte `count` are those of the bytes before it
and the low bits of that byte. -/
theorem countP_bit_add {count extra : Nat} (hcount : count < bytes.size) (hextra : extra ≤ 8) :
    (List.range (8 * count + extra)).countP (bit bytes) =
      (List.range (8 * count)).countP (bit bytes) +
        (List.range extra).countP (isSet bytes[count]) := by
  rw [List.range_add, List.countP_append, List.countP_map]
  congr 1
  apply List.countP_congr
  intro i hi
  have hlt : i < 8 := Nat.lt_of_lt_of_le (List.mem_range.mp hi) hextra
  have hbit := bit_of_getElem? (Array.getElem?_eq_getElem hcount) hlt
  simp only [Function.comp_apply, hbit]

theorem onesIn_extract {count : Nat} (h : count ≤ bytes.size) :
    onesIn (bytes.extract 0 count).toList = (List.range (8 * count)).countP (bit bytes) := by
  induction count with
  | zero => simp [onesIn]
  | succ count ih =>
    have hlast : bytes.extract 0 (count + 1) = (bytes.extract 0 count).push bytes[count] := by
      rw [Array.push_extract_getElem]
      simp
    rw [hlast, Array.toList_push, onesIn_append, ih (by omega), Nat.mul_succ,
      countP_bit_add h (Nat.le_refl 8)]
    simp [onesIn, ones]

theorem ones_and_lowMask {count : Nat} (byte : UInt8) (h : count < 8) :
    ones (byte &&& lowMask count) = (List.range count).countP (isSet byte) := by
  have hsplit : List.range 8 = List.range count ++ (List.range (8 - count)).map (count + ·) := by
    rw [← List.range_add]
    congr 1
    omega
  have hlow : (List.range count).countP (isSet (byte &&& lowMask count)) =
      (List.range count).countP (isSet byte) := by
    apply List.countP_congr
    intro i hi
    have hi := List.mem_range.mp hi
    rw [isSet_and (by omega), isSet_lowMask count h i (by omega)]
    simp [hi]
  have hhigh : ((List.range (8 - count)).map (count + ·)).countP
      (isSet (byte &&& lowMask count)) = 0 := by
    rw [List.countP_eq_zero]
    intro i hi
    obtain ⟨j, hj, rfl⟩ := List.mem_map.mp hi
    have hj := List.mem_range.mp hj
    rw [isSet_and (by omega), isSet_lowMask count h (count + j) (by omega)]
    simp
  rw [ones, hsplit, List.countP_append, hlow, hhigh, Nat.add_zero]

theorem countZeros_of_lt (hcount : bytes.size * 8 < Size.bound) {length : Nat}
    (h : bytes.size * 8 < length) : countZeros bytes length = .error (.breach .bitOutOfRange) := by
  rw [countZeros, Size.mul_eq_ok hcount, ok_bind, if_neg (Nat.not_le_of_lt h)]
  rfl

/-- Counting by bytes finds the number of unset bits before the length. -/
theorem countZeros_eq_ok (hcount : bytes.size * 8 < Size.bound) {length : Nat}
    (h : length ≤ bytes.size * 8) :
    countZeros bytes length = .ok ((List.range length).countP fun i => !bit bytes i) := by
  have hones : ∀ {ones : Nat}, ones = (List.range length).countP (bit bytes) →
      Size.sub length ones = .ok ((List.range length).countP fun i => !bit bytes i) := by
    intro ones hones
    have hall : (List.range length).length = _ := List.length_eq_countP_add_countP (bit bytes)
    simp only [List.length_range, Bool.not_eq_true, ← hones] at hall
    have hrest : length - ones = (List.range length).countP fun i => !bit bytes i := by
      have heq : (List.range length).countP (fun i => !bit bytes i) =
          (List.range length).countP (fun i => decide (bit bytes i = false)) := by
        congr 1
        funext i
        cases bit bytes i <;> rfl
      omega
    rw [Size.sub_eq_ok (by omega), hrest]
  have hwhole : onesIn (bytes.extract 0 (length / 8)).toList =
      (List.range (8 * (length / 8))).countP (bit bytes) := onesIn_extract (by omega)
  unfold countZeros
  simp only [Size.mul_eq_ok hcount, ok_bind, h, if_true]
  split
  · next hrem =>
    apply hones
    rw [hwhole]
    congr 2
    omega
  · next hrem =>
    -- of the byte in which the length ends, only the bits below it count
    have hlast : length / 8 < bytes.size := by omega
    have hrange : 8 * (length / 8) + length % 8 = length := by omega
    have hsplit := countP_bit_add hlast (Nat.le_of_lt (Nat.mod_lt length (by decide : 8 > 0)))
    rw [hrange] at hsplit
    simp only [Array.getElem?_eq_getElem hlast]
    apply hones
    rw [hwhole, ones_and_lowMask _ (Nat.mod_lt length (by decide)), hsplit]

/-- Byte `j` of the row that starts `shift` bits into byte `first` holds its eight bits. -/
theorem straddling_eq_ok (bytes : Bytes) {first shift j : Nat} (hshift : shift < 8)
    (hin : first + j < bytes.size) :
    ∃ byte, straddling bytes first shift j = .ok byte ∧
      ∀ k < 8, isSet byte k = bit bytes (8 * (first + j) + (shift + k)) := by
  have hlow : bytes[first + j]? = some bytes[first + j] := Array.getElem?_eq_getElem hin
  simp only [straddling, hlow, pure_eq_ok]
  by_cases hzero : shift = 0
  · refine ⟨bytes[first + j], by simp [hzero], ?_⟩
    intro k hk
    rw [hzero, Nat.zero_add, bit_of_getElem? hlow hk]
  · refine ⟨_, by rw [if_neg hzero], ?_⟩
    intro k hk
    rw [isSet_straddling (by omega) hshift hk]
    split
    · next hsame => rw [bit_of_getElem? hlow hsame]
    · next hnext =>
      have hplace : 8 * (first + j) + (shift + k) = 8 * (first + j + 1) + (shift + k - 8) := by
        omega
      rw [hplace]
      cases hhigh : bytes[first + j + 1]? with
      | some high => rw [bit_of_getElem? hhigh (by omega), Option.getD_some]
      | none =>
        have hend : bytes.size ≤ first + j + 1 := Array.getElem?_eq_none_iff.mp hhigh
        rw [bit_of_le (by omega), Option.getD_none, isSet_zero _ (by omega)]

/-- The bytes that are put together hold the bits of the stretch one after the other. -/
theorem mapM_straddling_eq_ok {source : Bytes} {offset : Nat} (count : Nat)
    (h : offset + 8 * count ≤ source.size * 8 + 7) :
    ∃ moved : List UInt8,
      (List.range count).mapM (straddling source (offset / 8) (offset % 8)) = .ok moved ∧
        moved.length = count ∧ ∀ k < 8 * count, bit moved.toArray k = bit source (offset + k) := by
  -- every byte of the stretch begins within the source
  have hbyte : ∀ j, ∃ byte, j < count →
      straddling source (offset / 8) (offset % 8) j = .ok byte ∧
        ∀ k < 8, isSet byte k = bit source (offset + (8 * j + k)) := by
    intro j
    by_cases hj : j < count
    · have hin : offset / 8 + j < source.size := by omega
      obtain ⟨byte, hok, hbits⟩ := straddling_eq_ok source (Nat.mod_lt offset (by decide)) hin
      refine ⟨byte, fun _ => ⟨hok, ?_⟩⟩
      intro k hk
      rw [hbits k hk]
      congr 1
      omega
    · exact ⟨0, fun h => absurd h hj⟩
  choose byte hbyte using hbyte
  refine ⟨(List.range count).map byte, ?_, by simp, ?_⟩
  · apply mapM_eq_ok
    intro j hj
    exact (hbyte j (List.mem_range.mp hj)).1
  · intro k hk
    have hj : k / 8 < count := by omega
    have hget : ((List.range count).map byte).toArray[k / 8]? = some (byte (k / 8)) := by
      simp [hj]
    have hbit := bit_of_getElem? hget (Nat.mod_lt k (by decide : 8 > 0))
    have hk : 8 * (k / 8) + k % 8 = k := by omega
    rw [(hbyte (k / 8) hj).2 _ (Nat.mod_lt k (by decide)), hk] at hbit
    exact hbit

/-- A row to which bits were moved is as long as it was. -/
theorem size_of_copyToStart {source target moved : Bytes} {offset length : Nat}
    (h : copyToStart source offset length target = .ok moved) : moved.size = target.size := by
  rw [copyToStart] at h
  split at h
  · obtain rfl := Except.ok.inj h
    rfl
  obtain ⟨stop, -, h⟩ := bind_eq_ok_iff.mp h
  obtain ⟨count, -, h⟩ := bind_eq_ok_iff.mp h
  by_cases hstop : stop ≤ count
  · by_cases hroom : bytesFor length ≤ target.size
    · simp only [if_pos hstop, if_pos hroom] at h
      obtain ⟨bytes, hbytes, h⟩ := bind_eq_ok_iff.mp h
      obtain rfl := Except.ok.inj h
      have hlength := length_of_mapM hbytes
      rw [List.length_range] at hlength
      rw [size_maskTrailing, Array.size_append, Array.size_extract, List.size_toArray, hlength]
      omega
    · simp only [if_pos hstop, if_neg hroom] at h
      cases h
  · simp only [if_neg hstop] at h
    cases h

theorem bit_append_extract (first target : Bytes) (k : Nat) :
    bit (first ++ target.extract first.size target.size) k =
      if k < first.size * 8 then bit first k else bit target k := by
  by_cases hfirst : k / 8 < first.size
  · have hk : k < first.size * 8 := by omega
    rw [if_pos hk]
    simp only [bit, Array.getElem?_append_left hfirst]
  · have hk : ¬ k < first.size * 8 := by omega
    have hget : (target.extract first.size target.size)[k / 8 - first.size]? = target[k / 8]? := by
      rw [Array.getElem?_extract, Nat.min_self, Nat.add_sub_cancel' (Nat.le_of_not_lt hfirst)]
      by_cases hin : k / 8 < target.size
      · rw [if_pos (by omega)]
      · rw [if_neg (by omega), Array.getElem?_eq_none (by omega)]
    rw [if_neg hk]
    simp only [bit, Array.getElem?_append_right (Nat.le_of_not_lt hfirst), hget]

/-- A stretch of bits is moved to the start of a row that is long enough. It is followed by
unset bits to the end of a byte, and all further bits of the row stay. -/
theorem copyToStart_eq_ok {source target : Bytes} {offset length : Nat}
    (hcount : source.size * 8 < Size.bound) (hsource : offset + length ≤ source.size * 8)
    (htarget : (length + 7) / 8 ≤ target.size) :
    ∃ moved, copyToStart source offset length target = .ok moved ∧ moved.size = target.size ∧
      ∀ k, bit moved k =
        if k < length then bit source (offset + k)
        else decide ((length + 7) / 8 * 8 ≤ k) && bit target k := by
  unfold copyToStart
  by_cases hnone : length = 0
  · refine ⟨target, by simp [hnone], rfl, ?_⟩
    intro k
    simp [hnone]
  have hstop : offset + length < Size.bound := Nat.lt_of_le_of_lt hsource hcount
  have hneeded := bytesFor_eq (add_seven_lt hcount (by omega : length ≤ _))
  have hfits : bytesFor length ≤ target.size := hneeded ▸ htarget
  obtain ⟨first, hfirst, hlength, hbits⟩ :=
    mapM_straddling_eq_ok (bytesFor length)
      (show offset + 8 * bytesFor length ≤ source.size * 8 + 7 by omega)
  refine ⟨maskTrailing (first.toArray ++ target.extract (bytesFor length) target.size) length,
    ?_, ?_, ?_⟩
  · simp only [hnone, if_false, Size.add_eq_ok hstop, Size.mul_eq_ok hcount, ok_bind, hsource,
      if_true, hfits, hfirst, pure_eq_ok]
  · simp [hlength]
    omega
  -- a bit is one of the stretch, one that was masked, or one of a byte that stays
  · intro k
    have hrow := bit_append_extract first.toArray target k
    rw [List.size_toArray, hlength] at hrow
    rw [bit_maskTrailing, hrow]
    by_cases hlt : k < length
    · have hk : k < bytesFor length * 8 := by omega
      simp only [hlt, true_or, decide_true, Bool.true_and, if_true, if_pos hk]
      exact hbits k (by omega)
    · by_cases hpast : (length + 7) / 8 * 8 ≤ k
      · have hk : ¬ k < bytesFor length * 8 := by omega
        simp only [hlt, hpast, hk, or_true, if_false]
      · simp only [hlt, hpast, or_false, decide_false, Bool.false_and, if_false]

end Bits

end Columnar
