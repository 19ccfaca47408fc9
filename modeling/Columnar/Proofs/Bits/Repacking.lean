import Columnar.Proofs.Bits.Bulk

/-! # Repacking stretches of bits -/

namespace Columnar

namespace Bits

theorem eq_of_isSet_eq {first second : UInt8} (h : ∀ k < 8, isSet first k = isSet second k) :
    first = second := by
  apply UInt8.toBitVec_inj.mp
  apply BitVec.eq_of_getLsbD_eq
  intro k hk
  rw [← isSet_eq_getLsbD hk, ← isSet_eq_getLsbD hk, h k hk]

section

variable {first second : Bytes}

theorem getElem?_eq_of_bit_eq (hsize : first.size = second.size) {j : Nat}
    (h : ∀ k < 8, bit first (8 * j + k) = bit second (8 * j + k)) : first[j]? = second[j]? := by
  by_cases hj : j < first.size
  · have hfirst := Array.getElem?_eq_getElem hj
    have hsecond := Array.getElem?_eq_getElem (hsize ▸ hj : j < second.size)
    rw [hfirst, hsecond]
    congr 1
    apply eq_of_isSet_eq
    intro k hk
    rw [← bit_of_getElem? hfirst hk, ← bit_of_getElem? hsecond hk, h k hk]
  · rw [Array.getElem?_eq_none (by omega), Array.getElem?_eq_none (by omega)]

/-- Rows of one size with the same bits are equal. -/
theorem eq_of_bit_eq (hsize : first.size = second.size) (h : ∀ i, bit first i = bit second i) :
    first = second :=
  Array.ext_getElem? fun _ => getElem?_eq_of_bit_eq hsize fun _ _ => h _

end

variable {source target : Bytes} {offset length : Nat}

/-- The row is the target with the stretch of the source in its first places. The bits that
follow the stretch in its last byte are unset, and all further bytes are those of the target. -/
structure Repacks (source : Bytes) (offset length : Nat) (target moved : Bytes) : Prop where
  size_eq : moved.size = target.size
  bit_eq : ∀ k < length, bit moved k = bit source (offset + k)
  bit_eq_false : ∀ k, length ≤ k → k < (length + 7) / 8 * 8 → bit moved k = false
  getElem?_eq : ∀ j, (length + 7) / 8 ≤ j → moved[j]? = target[j]?

theorem copyToStart_zero : copyToStart source offset 0 target = .ok target := by
  rw [copyToStart, if_pos rfl]
  rfl

/-- A stretch of bits that lies in its source is moved to a row that has room for it. No bits can
be taken from anywhere. -/
theorem exists_repacks (hcount : source.size * 8 < Size.bound)
    (hsource : 0 < length → offset + length ≤ source.size * 8)
    (htarget : (length + 7) / 8 ≤ target.size) :
    ∃ moved, copyToStart source offset length target = .ok moved ∧
      Repacks source offset length target moved := by
  by_cases hlength : length = 0
  · subst hlength
    refine ⟨target, copyToStart_zero, rfl, ?_, ?_, fun _ _ => rfl⟩
    · rintro k ⟨⟩
    · rintro k - ⟨⟩
  have hsource := hsource (Nat.pos_of_ne_zero hlength)
  obtain ⟨moved, hmoved, hsize, hbits⟩ := copyToStart_eq_ok hcount hsource htarget
  refine ⟨moved, hmoved, hsize, ?_, ?_, ?_⟩
  · intro k hk
    rw [hbits, if_pos hk]
  · intro k hk hlast
    have hout : ¬ (length + 7) / 8 * 8 ≤ k := by omega
    rw [hbits, if_neg (by omega), decide_eq_false hout, Bool.false_and]
  · intro j hj
    apply getElem?_eq_of_bit_eq hsize
    intro k _
    have hpast : (length + 7) / 8 * 8 ≤ 8 * j + k := by omega
    rw [hbits, if_neg (by omega), decide_eq_true hpast, Bool.true_and]

/-- A stretch that does not lie in its source, or has no room, is a breach. -/
theorem copyToStart_of_out (hcount : source.size * 8 < Size.bound) (hlength : 0 < length)
    (h : source.size * 8 < offset + length ∨ target.size < (length + 7) / 8) :
    ∃ reason, copyToStart source offset length target = .error (.breach reason) := by
  rw [copyToStart, if_neg (by omega)]
  by_cases hadd : offset + length < Size.bound
  · simp only [Size.add_eq_ok hadd, Size.mul_eq_ok hcount, ok_bind]
    by_cases hsource : offset + length ≤ source.size * 8
    · have hneeded := bytesFor_eq (add_seven_lt hcount (by omega : length ≤ _))
      have hshort : ¬ bytesFor length ≤ target.size := by omega
      exact ⟨.stretchOutOfRange, by simp only [if_pos hsource, if_neg hshort]; rfl⟩
    · exact ⟨.bitOutOfRange, by simp only [if_neg hsource]; rfl⟩
  · exact ⟨.sizeOverflow, by rw [Size.add_of_le (Nat.le_of_not_lt hadd), error_bind]⟩

/-- Two rows made of the same target differ in nothing but their stretches. -/
theorem Repacks.eq {first second moved other : Bytes} {i j : Nat}
    (h : Repacks first i length target moved) (hother : Repacks second j length target other)
    (hbits : ∀ k < length, bit first (i + k) = bit second (j + k)) : moved = other := by
  apply eq_of_bit_eq (h.size_eq.trans hother.size_eq.symm)
  intro k
  by_cases hk : k < length
  · rw [h.bit_eq k hk, hother.bit_eq k hk, hbits k hk]
  · by_cases hlast : k < (length + 7) / 8 * 8
    · rw [h.bit_eq_false k (by omega) hlast, hother.bit_eq_false k (by omega) hlast]
    · have hpast : (length + 7) / 8 ≤ k / 8 := by omega
      rw [bit, bit, h.getElem?_eq _ hpast, hother.getElem?_eq _ hpast]

/-- Equal stretches are moved to the same row as equal rows, wherever they come from. -/
theorem copyToStart_congr {first second : Bytes} {i j : Nat}
    (hfirst : first.size * 8 < Size.bound) (hsecond : second.size * 8 < Size.bound)
    (hi : 0 < length → i + length ≤ first.size * 8)
    (hj : 0 < length → j + length ≤ second.size * 8)
    (htarget : (length + 7) / 8 ≤ target.size)
    (hbits : ∀ k < length, bit first (i + k) = bit second (j + k)) :
    copyToStart first i length target = copyToStart second j length target := by
  obtain ⟨moved, hmoved, hrepacks⟩ := exists_repacks hfirst hi htarget
  obtain ⟨other, hother, hotherRepacks⟩ := exists_repacks hsecond hj htarget
  rw [hmoved, hother, hrepacks.eq hotherRepacks hbits]

/-- Puts bytes of a stretch into their places in a row, one after the other. -/
def place (source : Bytes) (first shift : Nat) : (places : List Nat) → Action Bytes Unit
  | [] => pure ()
  | j :: rest => do
    let byte ← straddling source first shift j
    modify (·.setIfInBounds j byte)
    place source first shift rest

/-- Moves a stretch of bits to the start of the row that is the state. -/
def copyInto (source : Bytes) (offset length : Nat) : Action Bytes Unit := do
  if length = 0 then
    return
  let stop ← Size.add offset length
  unless stop ≤ (← Size.mul source.size 8) do breach .bitOutOfRange
  let count := bytesFor length
  unless count ≤ (← getThe Bytes).size do breach .stretchOutOfRange
  place source (offset / 8) (offset % 8) (List.range count)
  modify (maskTrailing · length)

theorem place_apply {first shift : Nat} {byte : Nat → UInt8} {places : List Nat}
    (h : ∀ j ∈ places, straddling source first shift j = .ok (byte j)) (allocator : Allocator)
    (target : Bytes) :
    place source first shift places allocator target =
      ⟨.ok (), places.foldl (fun row j => row.setIfInBounds j (byte j)) target, []⟩ := by
  induction places generalizing target with
  | nil => rfl
  | cons j rest ih =>
    obtain ⟨hfirst, hrest⟩ := List.forall_mem_cons.mp h
    rw [place, hfirst, Action.liftM_ok_bind, Action.modify_bind, ih hrest]
    rfl

/-- Bytes that are put in the first places of a row take the place of those that were there. -/
theorem foldl_setIfInBounds (byte : Nat → UInt8) {count : Nat} (h : count ≤ target.size) :
    (List.range count).foldl (fun row j => row.setIfInBounds j (byte j)) target =
      ((List.range count).map byte).toArray ++ target.extract count target.size := by
  induction count with
  | zero => simp
  | succ count ih =>
    rw [List.range_succ, List.foldl_append, ih (by omega)]
    apply Array.ext_getElem?
    intro j
    simp only [List.foldl_cons, List.foldl_nil, Array.getElem?_setIfInBounds, Array.getElem?_append,
      Array.getElem?_extract, List.size_toArray, List.length_map, List.length_append,
      List.length_range, List.length_singleton, List.getElem?_toArray, List.getElem?_map,
      Array.size_append, Array.size_extract, Nat.min_self]
    -- the new byte takes the place of the first byte of the target that was left
    rcases Nat.lt_trichotomy j count with hlt | rfl | hgt
    · have hin : j < (List.range count).length := by rwa [List.length_range]
      rw [if_neg (by omega), if_pos hlt, if_pos (by omega), List.getElem?_append_left hin]
    · rw [if_pos rfl, if_pos (by omega), if_pos (by omega),
        List.getElem?_append_right (Nat.le_of_eq List.length_range)]
      simp
    · have hplace : count + (j - count) = count + 1 + (j - (count + 1)) := by omega
      have hin : j - count < target.size - count ↔
          j - (count + 1) < target.size - (count + 1) := by omega
      rw [if_neg (by omega), if_neg (by omega : ¬ j < count), if_neg (by omega : ¬ j < count + 1),
        hplace]
      exact if_congr hin rfl rfl

/-- Every byte of a stretch begins within the source, and so can be had. -/
theorem exists_straddling (hsource : offset + length ≤ source.size * 8) :
    ∃ byte : Nat → UInt8, ∀ j ∈ List.range (bytesFor length),
      straddling source (offset / 8) (offset % 8) j = .ok (byte j) := by
  have hle : bytesFor length ≤ (length + 7) / 8 := Nat.div_le_div_right (Nat.min_le_left _ _)
  have hbyte : ∀ j, ∃ byte, j ∈ List.range (bytesFor length) →
      straddling source (offset / 8) (offset % 8) j = .ok byte := by
    intro j
    by_cases hj : j < bytesFor length
    · obtain ⟨byte, hok, -⟩ := straddling_eq_ok source (Nat.mod_lt offset (by decide))
        (by omega : offset / 8 + j < source.size)
      exact ⟨byte, fun _ => hok⟩
    · exact ⟨0, fun hmem => absurd (List.mem_range.mp hmem) hj⟩
  choose byte hbyte using hbyte
  exact ⟨byte, hbyte⟩

/-- Byte by byte, a row is left as if the stretch had been moved at once. A breach is found before
any byte is put into its place. -/
theorem copyInto_apply (source : Bytes) (offset length : Nat) (allocator : Allocator)
    (target : Bytes) :
    copyInto source offset length allocator target =
      match copyToStart source offset length target with
      | .ok moved => ⟨.ok (), moved, []⟩
      | .error failure => ⟨.error failure, target, []⟩ := by
  rw [copyInto, copyToStart]
  by_cases hlength : length = 0
  · rw [if_pos hlength, if_pos hlength]
    rfl
  rw [if_neg hlength, if_neg hlength]
  rcases Nat.lt_or_ge (offset + length) Size.bound with hadd | hadd
  · rcases Nat.lt_or_ge (source.size * 8) Size.bound with hcount | hcount
    · simp only [Size.add_eq_ok hadd, Size.mul_eq_ok hcount, ok_bind, Action.liftM_ok_bind]
      -- from here on the one moves all bytes at once and the other byte by byte
      by_cases hsource : offset + length ≤ source.size * 8
      · by_cases hroom : bytesFor length ≤ target.size
        · obtain ⟨byte, hbyte⟩ := exists_straddling hsource
          simp only [if_pos hsource, Action.getThe_bind, if_pos hroom, mapM_eq_ok hbyte, ok_bind]
          rw [Action.bind_of_ok (place_apply hbyte allocator target),
            foldl_setIfInBounds byte hroom]
          rfl
        · simp only [if_pos hsource, Action.getThe_bind, if_neg hroom]
          rfl
      · simp only [if_neg hsource]
        rfl
    · simp only [Size.add_eq_ok hadd, Size.mul_eq_checked, Size.checked_of_le hcount, ok_bind,
        Action.liftM_ok_bind]
      rfl
  · rw [Size.add_of_le hadd]
    rfl

end Bits

end Columnar
