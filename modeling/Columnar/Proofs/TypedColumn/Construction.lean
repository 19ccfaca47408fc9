import Columnar.Proofs.Column.Exact
import Columnar.Proofs.TypedColumn.Reading

/-! # Making a column at once and slot by slot -/

namespace Columnar

namespace TypedColumn

variable {primitive : Primitive} {σ : Type} {state : σ} {allocator : Allocator} {name : String}
  {typed : TypedColumn primitive} {count : Nat}

/-! ## Slots set one after the other -/

/-- Sets slots to values, one after the other. -/
def setEach : (entries : List (Scalar primitive × Nat)) → Action (TypedColumn primitive) Unit
  | [] => pure ()
  | (value, index) :: rest => do
    TypedColumn.set index value
    setEach rest

/-- A column with room for `count` slots that are then set one after the other. -/
def ofEntries (name : String) (count : Nat) (entries : List (Scalar primitive × Nat)) :
    Action σ (TypedColumn primitive) := do
  let blank ← withCapacity name count
  Action.build blank (setEach entries)

/-- Sets slots to values or to null, one after the other. -/
def setEntries :
    (entries : List (Option (Scalar primitive) × Nat)) → Action (TypedColumn primitive) Unit
  | [] => pure ()
  | (value, index) :: rest => do
    setOption index value
    setEntries rest

theorem setEach_eq_setEntries (entries : List (Scalar primitive × Nat)) :
    setEach entries = setEntries (entries.map (Prod.map some id)) := by
  induction entries with
  | nil => rfl
  | cons entry rest ih =>
    rw [setEach, ih]
    rfl

theorem setOptions_eq_setEntries (start : Nat) (options : List (Option (Scalar primitive))) :
    setOptions start options = setEntries (options.zipIdx start) := by
  induction options generalizing start with
  | nil => rfl
  | cons option rest ih =>
    rw [setOptions, ih]
    rfl

/-- The bytes of an entry. -/
def encodeEntry (entry : Option (Scalar primitive) × Nat) : Option Bytes × Nat :=
  (entry.1.map Scalar.toBytes, entry.2)

/-- Slots within reach are all written. The induction is on the entries: each leaves the
measures of the column as they were, so that the rest is still within reach. -/
theorem setEntries_eq {entries : List (Option (Scalar primitive) × Nat)}
    (hwidth : typed.column.width = primitive.byteWidth)
    (h : ∀ entry ∈ entries, typed.column.Reaches entry.2) :
    setEntries entries allocator typed =
      ⟨.ok (), ⟨typed.column.withSlots (entries.map encodeEntry)⟩, []⟩ := by
  induction entries generalizing typed with
  | nil => rfl
  | cons entry rest ih =>
    obtain ⟨value, index⟩ := entry
    obtain ⟨hreaches, hrest⟩ := List.forall_mem_cons.mp h
    have hreaches : typed.column.Reaches index := hreaches
    have hadmits : typed.column.Admits (value.map Scalar.toBytes, index) := by
      refine ⟨hreaches, fun bytes hbytes => ?_⟩
      obtain ⟨held, -, rfl⟩ := Option.map_eq_some_iff.mp hbytes
      exact held.size_toBytes.trans hwidth.symm
    have hframe := Column.sameFrame_withSlot hadmits
    have hlater : setEntries rest allocator
        ⟨typed.column.withSlot index (value.map Scalar.toBytes)⟩ = _ :=
      ih (hframe.width_eq.trans hwidth) fun entry hmem => hframe.reaches (hrest entry hmem)
    rw [setEntries, Action.bind_of_ok (setOption_of_reaches hreaches hwidth value), hlater]
    rfl

/-! ## What a constructor makes -/

/-- The typed column is of these options and nothing else: all fields of the column beneath are
settled, and what is read from it are the options. -/
structure Consists (typed : TypedColumn primitive) (name : String)
    (options : List (Option (Scalar primitive))) : Prop where
  isExactly : typed.column.IsExactly name (.ofPrimitive primitive)
    (options.map (Option.map Scalar.toBytes))
  capacity_eq : typed.column.capacity = options.length
  length_eq : typed.column.length = options.length
  get?_eq : ∀ index, typed.get? index = .ok options[index]?.join
  nullCount_eq : typed.column.nullCount = .ok (options.countP Option.isNone)
  slotBytes_of_null : ∀ index, options[index]? = some none →
    typed.column.slotBytes index = .ok (Bytes.zeros primitive.byteWidth)

/-- A constructor of these options is refused memory if it cannot be had, and makes a column of
them otherwise. The object it is called from stays as it is. -/
structure Makes (allocator : Allocator) (state : σ) (name : String)
    (options : List (Option (Scalar primitive))) (outcome : Outcome σ (TypedColumn primitive)) :
    Prop where
  refused : ¬ allocator.Affords primitive.byteWidth options.length →
    ∃ error, error.kind = .caused .outOfMemory ∧ outcome = ⟨.error (.error error), state, []⟩
  made : allocator.Affords primitive.byteWidth options.length →
    ∃ typed : TypedColumn primitive, typed.Consists name options ∧
      outcome = ⟨.ok typed, state,
        (Column.empty name (.ofPrimitive primitive)).growth options.length⟩

/-- All that is read from a column of given slots follows from its fields. -/
theorem consists_of_isExactly {options : List (Option (Scalar primitive))}
    (hafford : allocator.Affords primitive.byteWidth options.length)
    (h : typed.column.IsExactly name (.ofPrimitive primitive)
      (options.map (Option.map Scalar.toBytes))) : typed.Consists name options := by
  have hcount : (options.map (Option.map Scalar.toBytes)).length = options.length :=
    List.length_map _
  have hwidth := DataType.byteWidth_ofPrimitive_pos primitive
  have hbyteWidth := DataType.byteWidth_ofPrimitive primitive
  have hafford : allocator.Affords (DataType.ofPrimitive primitive).byteWidth
      (options.map (Option.map Scalar.toBytes)).length := by rwa [hbyteWidth, hcount]
  refine ⟨h, h.capacity_eq.trans hcount, h.length_eq.trans hcount, ?_, ?_, ?_⟩
  · intro index
    rw [get?, h.get?_eq hwidth hafford, List.getElem?_map]
    cases options[index]? with
    | none => rfl
    | some option =>
      cases option with
      | none => rfl
      | some value =>
        simp [Scalar.ofBytes_toBytes]
  · rw [h.nullCount_eq hwidth hafford, List.countP_map]
    congr 2
    funext option
    cases option <;> rfl
  · intro index hnull
    obtain ⟨hindex, -⟩ := List.getElem?_eq_some_iff.mp hnull
    rw [h.slotBytes_eq hwidth hafford (hcount.symm ▸ hindex), List.getElem?_map, hnull,
      ← hbyteWidth]
    rfl

/-! ## All constructors -/

/-- A blank column that is filled so is exactly of these options. -/
def Fills (fill : Action (TypedColumn primitive) Unit) (allocator : Allocator) (name : String)
    (options : List (Option (Scalar primitive))) : Prop :=
  ∃ made : TypedColumn primitive,
    fill allocator ⟨Column.blank name (.ofPrimitive primitive) options.length⟩ =
        ⟨.ok (), made, []⟩ ∧
      made.column.IsExactly name (.ofPrimitive primitive) (options.map (Option.map Scalar.toBytes))

/-- If the memory can be had, a constructor makes what filling a blank column leaves. -/
theorem afterCapacity_of_affords {fill : Action (TypedColumn primitive) Unit}
    {made : TypedColumn primitive} (h : allocator.Affords primitive.byteWidth count)
    (hfill : fill allocator ⟨Column.blank name (.ofPrimitive primitive) count⟩ =
      ⟨.ok (), made, []⟩) :
    (withCapacity name count >>= fun blank => Action.build blank fill) allocator state =
      ⟨.ok made, state, (Column.empty name (.ofPrimitive primitive)).growth count⟩ := by
  rw [← DataType.byteWidth_ofPrimitive] at h
  have hcolumn : Column.reallocateExact count allocator
      (TypedColumn.empty name : TypedColumn primitive).column = _ :=
    Column.reallocateExact_empty_of_affords h
  have hroom : (withCapacity name count : Action σ (TypedColumn primitive)) allocator state =
      ⟨.ok ⟨Column.blank name (.ofPrimitive primitive) count⟩, state, _⟩ :=
    Action.build_of_ok (onColumn_apply hcolumn)
  rw [Action.bind_apply_ok hroom, Action.build_of_ok hfill, List.append_nil]

/-- Otherwise all constructors of columns of one length come to the same error. -/
theorem afterCapacity_of_not_affords (h : ¬ allocator.Affords primitive.byteWidth count)
    (name : String) (state : σ) :
    ∃ error, error.kind = .caused .outOfMemory ∧
      ∀ fill : Action (TypedColumn primitive) Unit,
        (withCapacity name count >>= fun blank => Action.build blank fill) allocator state =
          ⟨.error (.error error), state, []⟩ := by
  rw [← DataType.byteWidth_ofPrimitive] at h
  obtain ⟨error, hrefused, hkind⟩ := Column.reallocateExact_empty_of_not_affords h
  have hcolumn : Column.reallocateExact count allocator
      (TypedColumn.empty name : TypedColumn primitive).column = _ := hrefused
  have hroom : (withCapacity name count : Action σ (TypedColumn primitive)) allocator state =
      ⟨.error (.error error), state, []⟩ :=
    Action.build_of_error (onColumn_apply hcolumn)
  exact ⟨error, hkind, fun fill => Action.bind_apply_error hroom⟩

section Constructors

variable {values : List (Scalar primitive)} {options : List (Option (Scalar primitive))}
  {first second : Action (TypedColumn primitive) Unit}

theorem makes_afterCapacity (state : σ)
    (h : allocator.Affords primitive.byteWidth options.length →
      Fills first allocator name options) :
    Makes allocator state name options
      ((withCapacity name options.length >>= fun blank => Action.build blank first) allocator
        state) where
  refused hrefuse := by
    obtain ⟨error, hkind, hrefused⟩ := afterCapacity_of_not_affords hrefuse name state
    exact ⟨error, hkind, hrefused _⟩
  made hafford := by
    obtain ⟨made, hfill, hexact⟩ := h hafford
    exact ⟨made, consists_of_isExactly hafford hexact, afterCapacity_of_affords hafford hfill⟩

/-- However a column is filled with the same options, a constructor comes to the same. -/
theorem afterCapacity_congr (state : σ)
    (hfirst : allocator.Affords primitive.byteWidth options.length →
      Fills first allocator name options)
    (hsecond : allocator.Affords primitive.byteWidth options.length →
      Fills second allocator name options) :
    (withCapacity name options.length >>= fun blank => Action.build blank first) allocator state =
      (withCapacity name options.length >>= fun blank => Action.build blank second) allocator
        state := by
  by_cases hafford : allocator.Affords primitive.byteWidth options.length
  · obtain ⟨made, hfill, hexact⟩ := hfirst hafford
    obtain ⟨other, hother, hsame⟩ := hsecond hafford
    -- both ways end at a column of exactly these slots, and there is only one
    obtain rfl : other = made := congrArg TypedColumn.mk (hsame.eq hexact)
    rw [afterCapacity_of_affords hafford hfill, afterCapacity_of_affords hafford hother]
  · obtain ⟨error, -, hrefused⟩ := afterCapacity_of_not_affords hafford name state
    rw [hrefused, hrefused]

/-- All values are put in their place at once. -/
theorem fills_values
    (hafford : allocator.Affords primitive.byteWidth (values.map some).length) (name : String) :
    Fills (onColumn (fill (values.toArray.flatMap Scalar.toBytes) values.length)) allocator name
      (values.map some) := by
  have hwidth := DataType.byteWidth_ofPrimitive_pos primitive
  have hbyteWidth := DataType.byteWidth_ofPrimitive primitive
  rw [List.length_map, ← hbyteWidth] at hafford
  have hblank : (Column.blank name (.ofPrimitive primitive) values.length).IsMadeFor name
      (.ofPrimitive primitive) values.length := Column.isMadeFor_blank hwidth hafford
  have hbytes : (values.toArray.flatMap Scalar.toBytes).size =
      (Column.blank name (.ofPrimitive primitive) values.length).values.size := by
    rw [hblank.size_values, hbyteWidth, size_flatMap_toBytes]
  have hfilled : fill (values.toArray.flatMap Scalar.toBytes) values.length allocator _ = _ :=
    fill_eq hblank.count_le hbytes
  rw [Fills, List.length_map, List.map_map]
  refine ⟨_, onColumn_apply hfilled, ?_⟩
  exact Column.isExactly_filled (fun value => value.size_toBytes.trans hbyteWidth.symm) hwidth
    hafford

/-- Every slot is set to its option, in any order. -/
theorem fills_setEntries {entries : List (Option (Scalar primitive) × Nat)}
    (hentries : ∀ entry, entry ∈ entries ↔ options[entry.2]? = some entry.1)
    (hafford : allocator.Affords primitive.byteWidth options.length) (name : String) :
    Fills (setEntries entries) allocator name options := by
  have hwidth := DataType.byteWidth_ofPrimitive_pos primitive
  have hbyteWidth := DataType.byteWidth_ofPrimitive primitive
  have hcount : (options.map (Option.map Scalar.toBytes)).length = options.length :=
    List.length_map _
  rw [← hbyteWidth, ← hcount] at hafford
  rw [Fills, ← hcount]
  have hblank : (Column.blank name (.ofPrimitive primitive) _).IsMadeFor _ _ _ :=
    Column.isMadeFor_blank hwidth hafford
  have hreaches : ∀ entry ∈ entries, (Column.blank name (.ofPrimitive primitive)
      (options.map (Option.map Scalar.toBytes)).length).Reaches entry.2 := by
    intro entry hmem
    obtain ⟨hindex, -⟩ := List.getElem?_eq_some_iff.mp ((hentries entry).mp hmem)
    exact hblank.reaches hwidth hafford (hcount.symm ▸ hindex)
  -- each slot is written to, so the order does not show in the end
  refine ⟨_, setEntries_eq (Column.width_blank.trans hbyteWidth) hreaches, ?_⟩
  refine Column.isExactly_withSlots ?_ ?_ hwidth hafford
  · rintro ⟨value, index⟩
    simp only [List.mem_map, encodeEntry, Prod.exists, Prod.mk.injEq, List.getElem?_map,
      Option.map_eq_some_iff, hentries]
    constructor
    · rintro ⟨option, place, hoption, rfl, rfl⟩
      exact ⟨option, hoption, rfl⟩
    · rintro ⟨option, hoption, rfl⟩
      exact ⟨option, index, hoption, rfl, rfl⟩
  · intro bytes hmem
    obtain ⟨option, -, hoption⟩ := List.mem_map.mp hmem
    obtain ⟨value, -, rfl⟩ := Option.map_eq_some_iff.mp hoption
    exact value.size_toBytes.trans hbyteWidth.symm

theorem fills_setOptions (hafford : allocator.Affords primitive.byteWidth options.length)
    (name : String) : Fills (setOptions 0 options) allocator name options := by
  rw [setOptions_eq_setEntries]
  exact fills_setEntries (fun _ => List.mem_zipIdx_iff_getElem?) hafford name

theorem fills_setEach {entries : List (Scalar primitive × Nat)}
    (hentries : ∀ entry, entry ∈ entries ↔ entry ∈ values.zipIdx)
    (hafford : allocator.Affords primitive.byteWidth (values.map some).length) (name : String) :
    Fills (setEach entries) allocator name (values.map some) := by
  rw [setEach_eq_setEntries]
  refine fills_setEntries ?_ hafford name
  rintro ⟨option, index⟩
  simp only [List.mem_map, hentries, List.mem_zipIdx_iff_getElem?, List.getElem?_map,
    Option.map_eq_some_iff, Prod.exists, Prod.map_apply, Prod.mk.injEq, id]
  constructor
  · rintro ⟨value, place, hvalue, rfl, rfl⟩
    exact ⟨value, hvalue, rfl⟩
  · rintro ⟨value, hvalue, rfl⟩
    exact ⟨value, index, hvalue, rfl, rfl⟩

end Constructors

/-- Values put in their place at once, options that are all there, and values that a caller sets
in any order, once or more often, come to the same: all are refused memory with one error, or
all make one column. Whatever options are given, the column made of them is settled in all its
fields, and reading it gives them back. -/
theorem constructions_agree (allocator : Allocator) (state : σ) (name : String) :
    (∀ (values : List (Scalar primitive)) (entries : List (Scalar primitive × Nat)),
      (∀ entry, entry ∈ entries ↔ entry ∈ values.zipIdx) →
        ofOptions name (values.map some) allocator state = ofValues name values allocator state ∧
          ofEntries name values.length entries allocator state =
            ofValues name values allocator state) ∧
      ∀ options : List (Option (Scalar primitive)),
        Makes allocator state name options (ofOptions name options allocator state) := by
  refine ⟨fun values entries hentries => ?_, fun options =>
    makes_afterCapacity state fun hafford => fills_setOptions hafford name⟩
  have hatOnce : allocator.Affords primitive.byteWidth (values.map some).length →
      Fills _ allocator name (values.map some) := fun hafford => fills_values hafford name
  have hinTurn := afterCapacity_congr state (fun hafford => fills_setOptions hafford name) hatOnce
  have hinOrder :=
    afterCapacity_congr state (fun hafford => fills_setEach hentries hafford name) hatOnce
  rw [List.length_map] at hinTurn hinOrder
  constructor
  · rw [ofOptions, ofValues, List.length_map, hinTurn]
  · rw [ofEntries, ofValues, hinOrder]

/-- Three values set from the last to the first. -/
theorem constructions_agree_backwards :
    let values : List (Scalar .int16) := [⟨3⟩, ⟨5⟩, ⟨7⟩]
    ofEntries "a" 3 values.zipIdx.reverse .standard () = ofValues "a" values .standard () ∧
      (ofValues "a" values .standard ()).answer.toOption.map (fun typed => typed.column.values) =
        some #[3, 0, 5, 0, 7, 0] := by
  intro values
  have hagree := (constructions_agree .standard () "a").1 values values.zipIdx.reverse
    fun _ => List.mem_reverse
  exact ⟨hagree.2, by decide⟩

end TypedColumn

end Columnar
