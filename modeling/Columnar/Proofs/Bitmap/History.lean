import Columnar.Proofs.Bitmap.Slicing

/-!
# Bitmaps as what was written to them

A bitmap holds, up to its capacity, a row of bits without an end. What it began with and the calls
that it has answered tell every bit of the row.
-/

namespace Columnar

namespace Bitmap

variable {bitmap : Bitmap} {allocator : Allocator}

/-! ## Reading -/

theorem capacity_eq_ok (hcount : bitmap.bytes.size * 8 < Size.bound) :
    bitmap.capacity = .ok (bitmap.bytes.size * 8) :=
  Size.mul_eq_ok hcount

theorem bits_eq_ok (hcount : bitmap.bytes.size * 8 < Size.bound) {length : Nat}
    (h : length ≤ bitmap.bytes.size * 8) :
    bitmap.bits length = .ok ((List.range length).map bitmap.bit) := by
  have hget : ∀ index ∈ List.range length, bitmap.get index = .ok (bitmap.bit index) := by
    intro index hindex
    exact get_eq_ok (Nat.lt_of_lt_of_le (List.mem_range.mp hindex) h)
  rw [bits, capacity_eq_ok hcount, ok_bind, if_pos h]
  exact mapM_eq_ok hget

theorem bits_of_lt (hcount : bitmap.bytes.size * 8 < Size.bound) {length : Nat}
    (h : bitmap.bytes.size * 8 < length) :
    bitmap.bits length = .error (.breach .bitOutOfRange) := by
  rw [bits, capacity_eq_ok hcount, ok_bind, if_neg (Nat.not_le_of_lt h)]
  rfl

/-- The count by bytes and the list agree on how many bits are unset. -/
theorem unsetBits_eq_count (hcount : bitmap.bytes.size * 8 < Size.bound) {length : Nat}
    (h : length ≤ bitmap.bytes.size * 8) :
    bitmap.unsetBits length = .ok (((List.range length).map bitmap.bit).count false) := by
  have hunset : ((· == false) ∘ bitmap.bit) = fun index => !bitmap.bit index := by
    funext index
    exact beq_false (bitmap.bit index)
  rw [unsetBits_eq_ok hcount h, List.count, List.countP_map, hunset]

/-! ## Writing and growing -/

theorem get_update_self {index : Nat} (h : index < bitmap.bytes.size * 8) (value : Bool) :
    (bitmap.update index value).get index = .ok value := by
  rw [get_eq_ok, bit_update h, if_pos rfl]
  rwa [size_update]

theorem get_update_of_ne {index place : Nat} (h : index < bitmap.bytes.size * 8) (value : Bool)
    (hplace : place ≠ index) : (bitmap.update index value).get place = bitmap.get place := by
  rcases Nat.lt_or_ge place (bitmap.bytes.size * 8) with hin | hout
  · rw [get_eq_ok hin, get_eq_ok (by rwa [size_update]), bit_update h, if_neg hplace]
  · rw [get_of_le hout, get_of_le (by rwa [size_update])]

theorem get_extend_of_lt {bits place : Nat} (h : place < bitmap.bytes.size * 8) :
    (bitmap.extend bits).get place = bitmap.get place := by
  rw [get_eq_ok h, get_eq_ok, bit_extend]
  rw [size_extend]
  omega

theorem get_extend_of_le {bits place : Nat} (h : bitmap.bytes.size * 8 ≤ place)
    (hin : place < (bitmap.extend bits).bytes.size * 8) :
    (bitmap.extend bits).get place = .ok false := by
  rw [get_eq_ok hin, bit_extend, bit_of_le h]

/-- A bitmap grows to whole bytes under a bounded allocator, or memory was refused and it is as it
was. -/
theorem ensureCapacity_bounded (hallocator : allocator.IsBounded)
    (hsize : bitmap.bytes.size < Allocator.standardLimit) (bits : Nat) :
    (ensureCapacity bits allocator bitmap = ⟨.ok (), bitmap.extend bits, []⟩ ∧
        (bitmap.extend bits).bytes.size = max bitmap.bytes.size ((bits + 7) / 8) ∧
        (bitmap.extend bits).bytes.size < Allocator.standardLimit) ∨
      ∃ cause, ensureCapacity bits allocator bitmap =
        ⟨.error (.error (.raised cause)), bitmap, []⟩ := by
  obtain ⟨hok, hfits⟩ | hrefused := ensureCapacity_cases allocator bits bitmap
  · have hneeded : Bits.bytesFor bits < Allocator.standardLimit := by
      obtain hheld | hgrant := hfits
      · exact Nat.lt_of_le_of_lt hheld hsize
      · exact hallocator _ _ hgrant
    refine .inl ⟨hok, ?_, ?_⟩
    · rw [size_extend, Bits.bytesFor_of_lt hneeded]
    · rw [size_extend]
      exact Nat.max_lt.mpr ⟨hsize, hneeded⟩
  · exact .inr hrefused

/-- Under a bounded allocator a bitmap grows exactly if it need not or may. -/
theorem ensureCapacity_eq_ok_iff (hallocator : allocator.IsBounded)
    (hsize : bitmap.bytes.size < Allocator.standardLimit) {bits : Nat} :
    (ensureCapacity bits allocator bitmap).answer = .ok () ↔
      bits ≤ bitmap.bytes.size * 8 ∨ allocator.grants .validity ((bits + 7) / 8) = true := by
  have hneeded : Bits.bytesFor bits < Allocator.standardLimit →
      Bits.bytesFor bits = (bits + 7) / 8 := Bits.bytesFor_of_lt
  have hcapacity : bits ≤ bitmap.bytes.size * 8 ↔ (bits + 7) / 8 ≤ bitmap.bytes.size := by
    omega
  constructor
  · intro hok
    obtain ⟨-, hfits⟩ | ⟨cause, hrefused⟩ := ensureCapacity_cases allocator bits bitmap
    · obtain hheld | hgrant := hfits
      · rw [hneeded (Nat.lt_of_le_of_lt hheld hsize)] at hheld
        exact .inl (hcapacity.mpr hheld)
      · rw [hneeded (hallocator _ _ hgrant)] at hgrant
        exact .inr hgrant
    · rw [hrefused] at hok
      cases hok
  · intro hfits
    have hsmall : (bits + 7) / 8 < Allocator.standardLimit := by
      obtain hheld | hgrant := hfits
      · exact Nat.lt_of_le_of_lt (hcapacity.mp hheld) hsize
      · exact hallocator _ _ hgrant
    -- the count of bytes saturates only for lengths that are neither held nor ever granted
    have hbits : Bits.bytesFor bits = (bits + 7) / 8 := by
      apply Bits.bytesFor_eq
      simp only [Allocator.standardLimit, Size.bound] at hsmall ⊢
      omega
    have hmost : (bits + 7) / 8 ≤ Allocator.maxSize := by
      simp only [Allocator.standardLimit, Allocator.maxSize] at hsmall ⊢
      omega
    rw [ensureCapacity_of_allows]
    rw [hbits]
    exact hfits.imp hcapacity.mp fun hgrant => .inr ⟨hmost, hgrant⟩

/-! ## Calls and their history -/

/-- A call that changes a bitmap. -/
inductive Call where
  /-- Makes a bit equal to a value. -/
  | put (index : Nat) (value : Bool)
  | ensureCapacity (bits : Nat)
  /-- Gives up all bytes. -/
  | clear

namespace Call

/-- What the call does. -/
def run : (call : Call) → Action Bitmap Unit
  | put index value => do set (← (← get).put index value)
  | ensureCapacity bits => Bitmap.ensureCapacity bits
  | clear => set empty

/-- The value that the call writes to a place, if it does. To give up all bytes unsets every bit. -/
def written? (call : Call) (place : Nat) : Option Bool :=
  match call with
  | put index value => if place = index then some value else none
  | ensureCapacity _ => none
  | clear => some false

theorem run_put_of_lt {index : Nat} (h : index < bitmap.bytes.size * 8) (value : Bool) :
    (put index value).run allocator bitmap = ⟨.ok (), bitmap.update index value, []⟩ := by
  simp only [run, Action.get_bind, put_eq_ok h]
  rfl

theorem run_put_of_le {index : Nat} (h : bitmap.bytes.size * 8 ≤ index) (value : Bool) :
    (put index value).run allocator bitmap = ⟨.error (.breach .bitOutOfRange), bitmap, []⟩ := by
  simp only [run, Action.get_bind, put_of_le h]
  rfl

theorem run_clear : clear.run allocator bitmap = ⟨.ok (), empty, []⟩ :=
  rfl

end Call

/-- What a bitmap began with, and what has been done to it. -/
structure History where
  initial : Nat → Bool
  /-- The calls that were answered, the last one first. -/
  calls : List Call

namespace History

/-- The value that was written to a place last, or the one it began with. -/
def value (history : History) (place : Nat) : Bool :=
  (history.calls.findSome? (·.written? place)).getD (history.initial place)

/-- The history after one more call. A call that fails leaves no trace. -/
def record (history : History) (call : Call) : (answer : Result Unit) → History
  | .ok _ => { history with calls := call :: history.calls }
  | .error _ => history

theorem value_record_ok (history : History) (call : Call) (place : Nat) :
    (history.record call (.ok ())).value place =
      (call.written? place).getD (history.value place) := by
  simp only [value, record, List.findSome?_cons]
  cases call.written? place with
  | none => rfl
  | some _ => rfl

end History

/-- The bitmaps that can be made by calls on bounded allocators, with their histories. A stretch of
a bitmap begins with the bits that the bitmap has at that time. -/
inductive Reached : Bitmap → History → Prop
  | empty : Reached .empty ⟨fun _ => false, []⟩
  | withCapacity {bits : Nat} {allocator : Allocator} {bitmap : Bitmap}
      (hallocator : allocator.IsBounded)
      (hmade : (withCapacity bits allocator ()).answer = .ok bitmap) :
      Reached bitmap ⟨fun _ => false, []⟩
  | ofBytes {bytes : Bytes} (hsize : bytes.size < Allocator.standardLimit) :
      Reached ⟨bytes⟩ ⟨fun place => (bytes[place / 8]?.getD 0).toNat.testBit (place % 8), []⟩
  | slice {bitmap part : Bitmap} {history : History} {offset length : Nat} {allocator : Allocator}
      (hbitmap : Reached bitmap history)
      (hmade : (bitmap.slice offset length allocator ()).answer = .ok part) :
      Reached part ⟨fun place => decide (place < length) && history.value (offset + place), []⟩
  | call {bitmap : Bitmap} {history : History} {allocator : Allocator}
      (hbitmap : Reached bitmap history) (hallocator : allocator.IsBounded) (call : Call) :
      Reached (call.run allocator bitmap).state
        (history.record call (call.run allocator bitmap).answer)

/-! ## The history tells all bits -/

/-- The bitmap is one that a machine can hold, and all its bits are those of the history. Past the
capacity both are unset. -/
structure Holds (bitmap : Bitmap) (history : History) : Prop where
  size_lt : bitmap.bytes.size < Allocator.standardLimit
  bit_eq : ∀ place, bitmap.bit place = history.value place

theorem holds_blank {initial : Nat → Bool}
    (hsize : bitmap.bytes.size < Allocator.standardLimit)
    (hbits : ∀ place, bitmap.bit place = initial place) : Holds bitmap ⟨initial, []⟩ :=
  ⟨hsize, hbits⟩

theorem holds_withCapacity {bits : Nat} (hallocator : allocator.IsBounded)
    (h : (withCapacity bits allocator ()).answer = .ok bitmap) :
    Holds bitmap ⟨fun _ => false, []⟩ := by
  obtain ⟨hanswer, hstate⟩ := Action.build_eq_ok h
  have hnone : empty.bytes.size < Allocator.standardLimit := by decide
  obtain ⟨hok, -, hsize⟩ | ⟨cause, hrefused⟩ := ensureCapacity_bounded hallocator hnone bits
  · rw [hok] at hstate
    obtain rfl : empty.extend bits = bitmap := hstate
    exact holds_blank hsize fun place => (bit_extend empty bits place).trans (bit_empty place)
  · rw [hrefused] at hanswer
    cases hanswer

variable {history : History}

theorem Holds.slice {part : Bitmap} {offset length : Nat} (h : Holds bitmap history)
    (hmade : (bitmap.slice offset length allocator ()).answer = .ok part) :
    Holds part ⟨fun place => decide (place < length) && history.value (offset + place), []⟩ := by
  have hsize := h.size_lt
  obtain ⟨hin, hslice⟩ := isSlice_of_slice (Bits.count_lt hsize) hmade
  apply holds_blank
  · rw [hslice.size_eq]
    omega
  · intro place
    rw [hslice.bit_eq, h.bit_eq]

/-- Whatever a call answers, it leaves the bits that the history then tells. -/
theorem Holds.run (h : Holds bitmap history) (hallocator : allocator.IsBounded) (call : Call) :
    Holds (call.run allocator bitmap).state
      (history.record call (call.run allocator bitmap).answer) := by
  cases call with
  | put index value =>
    rcases Nat.lt_or_ge index (bitmap.bytes.size * 8) with hin | hout
    · rw [Call.run_put_of_lt hin]
      refine ⟨?_, ?_⟩
      · rw [size_update]
        exact h.size_lt
      · intro place
        rw [bit_update hin, History.value_record_ok, h.bit_eq, Call.written?]
        by_cases hplace : place = index
        · rw [if_pos hplace, if_pos hplace, Option.getD_some]
        · rw [if_neg hplace, if_neg hplace, Option.getD_none]
    · rw [Call.run_put_of_le hout]
      exact h
  | ensureCapacity bits =>
    obtain ⟨hok, -, hsize⟩ | ⟨cause, hrefused⟩ := ensureCapacity_bounded hallocator h.size_lt bits
    · rw [Call.run, hok]
      refine ⟨hsize, ?_⟩
      intro place
      rw [bit_extend, History.value_record_ok, h.bit_eq]
      rfl
    · rw [Call.run, hrefused]
      exact h
  | clear =>
    rw [Call.run_clear]
    -- no byte is left, so the row is unset at every place, whatever was written before
    refine ⟨by decide, ?_⟩
    intro place
    rw [bit_empty, History.value_record_ok]
    rfl

theorem Reached.holds (h : Reached bitmap history) : Holds bitmap history := by
  induction h with
  | empty => exact holds_blank (by decide) bit_empty
  | withCapacity hallocator hmade => exact holds_withCapacity hallocator hmade
  | ofBytes hsize => exact holds_blank hsize (Bits.bit_eq_testBit _)
  | slice _ hmade ih => exact ih.slice hmade
  | call _ hallocator call ih => exact ih.run hallocator call

/-! ## What a bitmap answers -/

/-- A bitmap made on bounded allocators holds a row of bits without an end. Up to the capacity every
bit can be read and is the value that was written there last, or else the first bit. Writing one bit
changes no other bit and no size. The bitmap grows exactly if it need not or is granted the memory,
and otherwise it is as it was. Then it has as many bytes as the bits need, or those it had, and all
new bits are unset. The unset bits of a length are counted as they are listed, whatever comes after
them. A place or a length past the capacity is a breach. -/
theorem Reached.refines (h : Reached bitmap history) :
    ∃ capacity, bitmap.capacity = .ok capacity ∧
      (∀ index,
        (index < capacity → bitmap.get index = .ok (history.value index)) ∧
        (capacity ≤ index → bitmap.get index = .error (.breach .bitOutOfRange))) ∧
      (∀ index value,
        (index < capacity → ∃ after, bitmap.put index value = .ok after ∧
          after.bytes.size = bitmap.bytes.size ∧ after.get index = .ok value ∧
          ∀ place ≠ index, after.get place = bitmap.get place) ∧
        (capacity ≤ index → bitmap.put index value = .error (.breach .bitOutOfRange))) ∧
      (∀ (bits : Nat) (allocator : Allocator), allocator.IsBounded →
        ((ensureCapacity bits allocator bitmap).answer = .ok () ↔
          bits ≤ capacity ∨ allocator.grants .validity ((bits + 7) / 8) = true) ∧
        ((∃ after more, ensureCapacity bits allocator bitmap = ⟨.ok (), after, []⟩ ∧
            after.bytes.size = max bitmap.bytes.size ((bits + 7) / 8) ∧
            after.capacity = .ok more ∧
            (∀ place < capacity, after.get place = bitmap.get place) ∧
            ∀ place, capacity ≤ place → place < more → after.get place = .ok false) ∨
          ∃ error, ensureCapacity bits allocator bitmap = ⟨.error (.error error), bitmap, []⟩)) ∧
      ∀ length,
        (length ≤ capacity → ∃ bits, bitmap.bits length = .ok bits ∧
          bits = (List.range length).map history.value ∧
          bitmap.unsetBits length = .ok (bits.count false)) ∧
        (capacity < length →
          bitmap.bits length = .error (.breach .bitOutOfRange) ∧
          bitmap.unsetBits length = .error (.breach .bitOutOfRange)) := by
  have hholds := h.holds
  have hcount := Bits.count_lt hholds.size_lt
  refine ⟨_, capacity_eq_ok hcount, ?_, ?_, ?_, ?_⟩
  · intro index
    refine ⟨?_, get_of_le⟩
    intro hin
    rw [get_eq_ok hin, hholds.bit_eq]
  · intro index value
    refine ⟨?_, fun hout => put_of_le hout value⟩
    intro hin
    refine ⟨bitmap.update index value, put_eq_ok hin value, size_update _ _ _, ?_, ?_⟩
    · exact get_update_self hin value
    · exact fun place => get_update_of_ne hin value
  · intro bits allocator hallocator
    refine ⟨ensureCapacity_eq_ok_iff hallocator hholds.size_lt, ?_⟩
    obtain ⟨hok, hsize, hbounded⟩ | ⟨cause, hrefused⟩ :=
      ensureCapacity_bounded hallocator hholds.size_lt bits
    · have hmore := capacity_eq_ok (Bits.count_lt hbounded)
      refine .inl ⟨bitmap.extend bits, _, hok, hsize, hmore, ?_, ?_⟩
      · exact fun place => get_extend_of_lt
      · exact fun place => get_extend_of_le
    · exact .inr ⟨_, hrefused⟩
  · intro length
    refine ⟨?_, ?_⟩
    · intro hin
      refine ⟨_, bits_eq_ok hcount hin, ?_, unsetBits_eq_count hcount hin⟩
      rw [funext hholds.bit_eq]
    · intro hout
      exact ⟨bits_of_lt hcount hout, Bits.countZeros_of_lt hcount hout⟩

/-- Of eleven bits from the third of two bytes on, the second is unset. It is set, the bitmap grows,
and in the last of its three bytes one more bit is set. -/
theorem Reached.refines_of_grown :
    let calls : List Call := [.put 17 true, .ensureCapacity 20, .put 1 true]
    ∃ bitmap history, Reached bitmap history ∧ history.calls = calls ∧
      bitmap.get 1 = .ok true ∧ bitmap.get 11 = .ok false ∧
      bitmap.get 24 = .error (.breach .bitOutOfRange) ∧ bitmap.unsetBits 18 = .ok 6 := by
  intro calls
  let source : Bitmap := ⟨#[0xf5, 0xff]⟩
  have hsource : Reached source _ := .ofBytes (by decide)
  have hallows : Allocator.standard.Allows .validity (Bits.bytesFor 11) :=
    Allocator.allows_standard_iff.mpr (by decide)
  have hpacked : Bits.copyToStart source.bytes 2 11 (Bitmap.empty.extend 11).bytes =
      .ok #[0xfd, 0x07] := by cbv
  have hmade : (source.slice 2 11 .standard ()).answer = .ok ⟨#[0xfd, 0x07]⟩ := by
    rw [slice_of_blank (withCapacity_of_allows hallows), hpacked]
    rfl
  have hset := (hsource.slice hmade).call Allocator.isBounded_standard (.put 1 true)
  have hgrown := hset.call Allocator.isBounded_standard (.ensureCapacity 20)
  have hreached := hgrown.call Allocator.isBounded_standard (.put 17 true)
  obtain ⟨capacity, hcapacity, hget, -, -, hcount⟩ := hreached.refines
  obtain rfl : capacity = 24 := Except.ok.inj (hcapacity.symm.trans rfl)
  refine ⟨_, _, hreached, rfl, ?_, ?_, ?_, ?_⟩
  · rw [(hget 1).1 (by decide)]
    rfl
  · rw [(hget 11).1 (by decide)]
    rfl
  · exact (hget 24).2 (by decide)
  · obtain ⟨bits, -, rfl, hunset⟩ := (hcount 18).1 (by decide)
    rw [hunset]
    rfl

end Bitmap

end Columnar
