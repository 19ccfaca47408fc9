import Columnar.Proofs.TypedColumn

/-! # Reading values out of a typed column -/

namespace Columnar

namespace TypedColumn

variable {primitive : Primitive} {typed : TypedColumn primitive} {allocator : Allocator}
  {index : Nat} {value : Scalar primitive}

namespace Measured

theorem width_pos (h : typed.Measured) : 0 < typed.column.width := by
  rw [h.width_eq]
  exact primitive.byteWidth_pos

/-- A slot is read, and if it holds bytes these are the bytes of the value that is given. -/
theorem get?_eq (h : typed.Measured) (index : Nat) :
    ∃ value, typed.get? index = .ok value ∧
      typed.column.get? index = .ok (value.map Scalar.toBytes) := by
  obtain ⟨slot, hget, hsize⟩ := h.column.size_of_get? h.width_pos index
  cases slot with
  | none => exact ⟨none, by rw [get?, hget]; rfl, hget⟩
  | some bytes =>
    obtain ⟨value, hread, rfl⟩ :=
      Scalar.ofBytes_of_size ((hsize bytes rfl).1.trans h.width_eq)
    refine ⟨some value, ?_, hget⟩
    rw [get?, hget, ok_bind]
    simp only [hread, ok_bind, pure_eq_ok]

/-- A null slot is the same error in both. -/
theorem get_eq (h : typed.Measured) (index : Nat) :
    typed.column.get index = (typed.get index).map Scalar.toBytes := by
  obtain ⟨slot, -, hget⟩ := h.get?_eq index
  rw [TypedColumn.get, Column.get, hget, ok_bind]
  cases slot with
  | none => rfl
  | some value =>
    simp only [Option.map_some, pure_eq_ok, ok_bind, Scalar.ofBytes_toBytes]
    rfl

theorem options_eq (h : typed.Measured) :
    ∃ values, typed.options = .ok values ∧
      typed.column.slots = .ok (values.map (Option.map Scalar.toBytes)) := by
  choose value hget hcolumn using fun index => h.get?_eq index
  refine ⟨(List.range typed.column.length).map value, mapM_eq_ok fun index _ => hget index, ?_⟩
  rw [List.map_map]
  exact mapM_eq_ok fun index _ => hcolumn index

/-- The bytes of a slot of the column, null or not, are those of a value. -/
theorem slotBytes_eq (h : typed.Measured) (hindex : index < typed.column.length) :
    ∃ value : Scalar primitive, typed.column.slotBytes index = .ok value.toBytes ∧
      value.toBytes = typed.column.values.extract (index * typed.column.width)
        ((index + 1) * typed.column.width) := by
  have hreaches := h.column.reaches h.width_pos (Nat.lt_of_lt_of_le hindex h.column.length_le)
  obtain ⟨value, -, hbytes⟩ :=
    Scalar.ofBytes_of_size (hreaches.size_extract.trans h.width_eq)
  exact ⟨value, by rw [hbytes, hreaches.slotBytes_eq_ok], hbytes⟩

/-- There is one value for each slot of the column. Its bytes are those of the slot, so it is
the value in the slot unless that is null. -/
theorem rawValues_eq (h : typed.Measured) :
    ∃ values, typed.rawValues = .ok values ∧ values.length = typed.column.length ∧
      ∀ index value, values[index]? = some value →
        typed.column.slotBytes index = .ok value.toBytes ∧
          ∀ held, typed.get? index = .ok (some held) → held = value := by
  have hexists : ∀ index, ∃ value : Scalar primitive, index < typed.column.length →
      typed.column.slotBytes index = .ok value.toBytes ∧
        value.toBytes = typed.column.values.extract (index * typed.column.width)
          ((index + 1) * typed.column.width) := by
    intro index
    by_cases hindex : index < typed.column.length
    · obtain ⟨value, hvalue⟩ := h.slotBytes_eq hindex
      exact ⟨value, fun _ => hvalue⟩
    · exact ⟨⟨0⟩, fun hin => absurd hin hindex⟩
  -- past the length any value will do
  choose value hvalue using hexists
  obtain ⟨hbytes, hstop⟩ := h.column.valueBytes_eq_ok
  have hcount : (typed.column.values.extract 0
      (typed.column.length * typed.column.width)).size / primitive.byteWidth =
        typed.column.length := by
    rw [Array.size_extract, Nat.min_eq_left hstop, Nat.sub_zero, h.width_eq,
      Nat.mul_div_cancel _ primitive.byteWidth_pos]
  refine ⟨(List.range typed.column.length).map value, ?_, ?_, ?_⟩
  · simp only [rawValues, hbytes, ok_bind, hcount]
    apply mapM_eq_ok
    intro index hindex
    have hindex := List.mem_range.mp hindex
    have hend : (index + 1) * typed.column.width ≤ typed.column.length * typed.column.width :=
      Nat.mul_le_mul_right _ hindex
    rw [← h.width_eq, Array.extract_extract, Nat.zero_add, Nat.zero_add, Nat.min_eq_left hend,
      ← (hvalue index hindex).2, Scalar.ofBytes_toBytes]
  · rw [List.length_map, List.length_range]
  · intro index held hheld
    have hindex : index < typed.column.length := by
      by_contra hout
      rw [List.getElem?_eq_none (by simpa using hout)] at hheld
      cases hheld
    rw [List.getElem?_map, List.getElem?_range hindex, Option.map_some] at hheld
    obtain rfl := Option.some.inj hheld
    refine ⟨(hvalue index hindex).1, ?_⟩
    intro other hother
    obtain ⟨slot, hslot, hsize⟩ := h.column.size_of_get? h.width_pos index
    obtain ⟨read, hread, hcolumn⟩ := h.get?_eq index
    rw [hread] at hother
    rw [Except.ok.inj hother, Option.map_some, hslot] at hcolumn
    have hsame := (hsize _ (Except.ok.inj hcolumn)).2
    rw [(hvalue index hindex).1] at hsame
    exact Scalar.toBytes_inj (Except.ok.inj hsame).symm

end Measured

/-- A call on a typed column leaves a measured one of the type that it was. -/
theorem Call.run_measured (call : Call primitive) (allocator : Allocator) (h : typed.Measured)
    (hsource : ∀ source, call.source? = some source → source.Measured) :
    (call.run allocator typed).state.Measured := by
  obtain ⟨hcolumn, hdtype⟩ := call.erase.run_keeps allocator h.column
  rw [call.run_eq allocator h hsource]
  exact ⟨hcolumn, (congrArg DataType.physical hdtype).trans h.physical_eq⟩

/-- The slot that the call writes a value to, and the value. -/
def Call.written? : Call primitive → Option (Nat × Scalar primitive)
  | set index value | setGrowing index value => some (index, value)
  | setOption index value | setOptionGrowing index value => value.map (index, ·)
  | _ => none

theorem get_set (h : typed.Measured)
    (hset : (TypedColumn.set index value allocator typed).answer = .ok ()) :
    (TypedColumn.set index value allocator typed).state.get index = .ok value := by
  have hsize : value.toBytes.size = typed.column.width := (h.width_eq_size value).symm
  rcases Nat.lt_or_ge index typed.column.capacity with hindex | hpast
  · have hreaches := h.column.reaches h.width_pos hindex
    have hwritten : TypedColumn.set index value allocator typed =
        ⟨.ok (), ⟨typed.column.withSlot index (some value.toBytes)⟩, []⟩ := by
      rw [TypedColumn.set, onColumn_apply (hreaches.writeValue_eq hsize)]
    have hmeasured := (Call.set index value).run_measured allocator h (by rintro _ ⟨⟩)
    rw [Call.run, hwritten] at hmeasured
    have hslot : (typed.column.withSlot index (some value.toBytes)).get? index =
        .ok (some value.toBytes) := by
      have hagain := hmeasured.column.reaches hmeasured.width_pos hindex
      rw [hagain.get?_eq_ok, hreaches.slot_withSlot_self hsize]
    rw [hwritten, TypedColumn.get, Column.get, hslot]
    exact value.ofBytes_toBytes
  · rw [TypedColumn.set, onColumn_apply (Column.writeValue_of_le hpast)] at hset
    cases hset

/-- Making room changes nothing about reading a value that is written next. -/
theorem get_setGrowing (h : typed.Measured)
    (hset : (TypedColumn.setGrowing index value allocator typed).answer = .ok ()) :
    (TypedColumn.setGrowing index value allocator typed).state.get index = .ok value := by
  obtain ⟨hkeeps, -⟩ := Column.makeRoom_keeps allocator h.column index
  rcases hroom : (onColumn (Column.makeRoom index) : Action (TypedColumn primitive) Unit)
    allocator typed with ⟨failure | ⟨⟩, roomy, events⟩
  · rw [TypedColumn.setGrowing, Action.bind_apply_error hroom] at hset
    cases hset
  · have hcolumn : (Column.makeRoom index allocator typed.column).state = roomy.column :=
      congrArg (fun outcome => outcome.state.column) hroom
    rw [hcolumn] at hkeeps
    have hroomy : roomy.Measured :=
      ⟨hkeeps.measured, (congrArg DataType.physical hkeeps.dtype_eq).trans h.physical_eq⟩
    rw [TypedColumn.setGrowing, Action.bind_apply_ok hroom] at hset ⊢
    exact get_set hroomy hset

/-- A value that a call wrote is read back bit for bit. -/
theorem Call.get_run (call : Call primitive) (h : typed.Measured)
    (hwritten : call.written? = some (index, value))
    (hanswer : (call.run allocator typed).answer = .ok ()) :
    (call.run allocator typed).state.get index = .ok value := by
  cases call with
  | set _ _ =>
    obtain ⟨rfl, rfl⟩ := Prod.mk.inj (Option.some.inj hwritten)
    exact get_set h hanswer
  | setGrowing _ _ =>
    obtain ⟨rfl, rfl⟩ := Prod.mk.inj (Option.some.inj hwritten)
    exact get_setGrowing h hanswer
  | setOption _ option =>
    obtain ⟨held, rfl, hpair⟩ := Option.map_eq_some_iff.mp hwritten
    obtain ⟨rfl, rfl⟩ := Prod.mk.inj hpair
    exact get_set h hanswer
  | setOptionGrowing _ option =>
    obtain ⟨held, rfl, hpair⟩ := Option.map_eq_some_iff.mp hwritten
    obtain ⟨rfl, rfl⟩ := Prod.mk.inj hpair
    exact get_setGrowing h hanswer
  | _ => cases hwritten

end TypedColumn

end Columnar
