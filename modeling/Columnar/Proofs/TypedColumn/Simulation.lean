import Columnar.Proofs.TypedColumn.Program

/-! # Typed columns simulate the columns beneath -/

namespace Columnar

namespace TypedColumn

variable {primitive : Primitive} {typed : TypedColumn primitive} {allocator : Allocator}

/-! ## What holds of every typed column -/

/-- The column beneath came about by calls, and its type passes the check for typed columns. -/
structure Sound (typed : TypedColumn primitive) : Prop where
  made : typed.column.Made
  checked : checkType primitive typed.column.dtype = .ok ()

theorem Sound.measured (h : typed.Sound) : typed.Measured :=
  ⟨h.made.measured, (checkType_eq_ok h.checked).2⟩

theorem checkType_ofPrimitive (primitive : Primitive) :
    checkType primitive (.ofPrimitive primitive) = .ok () := by
  cases primitive <;> rfl

theorem sound_empty (name : String) : (TypedColumn.empty name : TypedColumn primitive).Sound :=
  ⟨.empty name _, checkType_ofPrimitive primitive⟩

/-- A call on the column beneath leaves a sound typed column. -/
theorem Sound.onColumn (h : typed.Sound) (call : Column.Call) (allocator : Allocator) :
    (onColumn call.run allocator typed).state.Sound where
  made := .call call allocator h.made
  checked := by
    have hdtype : (TypedColumn.onColumn call.run allocator typed).state.column.dtype =
        typed.column.dtype := (call.run_keeps allocator h.made.measured).dtype_eq
    rw [hdtype]
    exact h.checked

/-! ## Calls and the calls beneath -/

/-- On sound typed columns the call is another one on the column beneath, and it leaves sound
typed columns. -/
def ErasesTo (allocator : Allocator) (call : Action (TypedColumn primitive) Unit)
    (beneath : Action Column Unit) : Prop :=
  ∀ typed : TypedColumn primitive, typed.Sound →
    call allocator typed = onColumn beneath allocator typed ∧ (call allocator typed).state.Sound

theorem erasesTo_onColumn (call : Column.Call) :
    ErasesTo allocator (onColumn call.run : Action (TypedColumn primitive) Unit) call.run :=
  fun _ h => ⟨rfl, h.onColumn call allocator⟩

theorem Call.erasesTo (call : Call primitive)
    (hsource : ∀ source, call.source? = some source → source.Sound) :
    ErasesTo allocator call.run call.erase.run := by
  intro typed h
  have hrun := call.run_eq allocator h.measured fun source hsome => (hsource source hsome).measured
  refine ⟨hrun, ?_⟩
  rw [hrun]
  exact h.onColumn call.erase allocator

theorem ErasesTo.bind {first : Action (TypedColumn primitive) Unit}
    {next : Unit → Action (TypedColumn primitive) Unit} {beneath : Action Column Unit}
    {rest : Unit → Action Column Unit} (hfirst : ErasesTo allocator first beneath)
    (hnext : ErasesTo allocator (next ()) (rest ())) :
    ErasesTo allocator (first >>= next) (beneath >>= rest) := by
  intro typed h
  obtain ⟨hrun, hsound⟩ := hfirst typed h
  rw [onColumn_bind]
  rcases hcase : first allocator typed with ⟨failure | ⟨⟩, after, events⟩
  · rw [Action.bind_apply_error hcase, Action.bind_apply_error (hrun.symm.trans hcase)]
    rw [hcase] at hsound
    exact ⟨rfl, hsound⟩
  · rw [hcase] at hsound
    obtain ⟨hlater, hend⟩ := hnext after hsound
    rw [Action.bind_apply_ok hcase, Action.bind_apply_ok (hrun.symm.trans hcase), hlater]
    rw [hlater] at hend
    exact ⟨rfl, hend⟩

/-- Setting slots one after the other, by induction on the values. -/
theorem setOptions_erasesTo (allocator : Allocator) (start : Nat)
    (values : List (Option (Scalar primitive))) :
    ErasesTo allocator (setOptions start values)
      (Column.setOptions start (values.map (Option.map Scalar.toBytes))) := by
  induction values generalizing start with
  | nil => exact fun _ h => ⟨rfl, h⟩
  | cons value rest ih =>
    have hstep : ErasesTo allocator (setOption start value)
        (Column.setOption start (value.map Scalar.toBytes)) :=
      (Call.setOption start value).erasesTo (by rintro _ ⟨⟩)
    exact hstep.bind (ih (start + 1))

/-- A column taken out of a typed one still has a type that makes it a typed one. -/
theorem unwrapped_erasesTo (call : Column.Call) :
    ErasesTo allocator (unwrapped call : Action (TypedColumn primitive) Unit) call.run := by
  intro typed h
  have hsound := h.onColumn call allocator
  have hagain : (ofColumn? (call.run allocator typed.column).state :
      Result (TypedColumn primitive)) = .ok ⟨(call.run allocator typed.column).state⟩ := by
    have hchecked : checkType primitive (call.run allocator typed.column).state.dtype = .ok () :=
      hsound.checked
    rw [ofColumn?, hchecked]
    rfl
  have hrun : unwrapped call allocator typed = onColumn call.run allocator typed := by
    simp only [unwrapped, hagain]
    rfl
  rw [hrun]
  exact ⟨rfl, hsound⟩

theorem copy_erasesTo (allocator : Allocator) {source : TypedColumn primitive}
    (hsource : source.Sound) (growing : Bool) (position index : Nat) :
    ErasesTo allocator (Interpretation.typed.copy growing source position index)
      ((Interpretation.erased : Interpretation primitive Column).copy growing source.column
        position index) := by
  have hsome : ∀ other, some source = some other → other.Sound := by
    rintro _ ⟨⟩
    exact hsource
  cases growing with
  | false => exact (Call.copyFrom source position index).erasesTo hsome
  | true => exact (Call.copyFromGrowing source position index).erasesTo hsome

/-- Two typed columns of one primitive have one width, so the check of the widths that plain
columns undergo makes no difference. -/
theorem handOver_eq_run (allocator : Allocator) {source target : TypedColumn primitive}
    (hsource : source.Sound)
    (htarget : target.Sound) (call : Column.Handover) :
    handOver call allocator ⟨source, target⟩ =
        onColumns call.run allocator ⟨source, target⟩ ∧
      (handOver call allocator ⟨source, target⟩).state.source.Sound ∧
      (handOver call allocator ⟨source, target⟩).state.target.Sound := by
  have hwidth : source.column.width = target.column.width :=
    hsource.measured.width_eq.trans htarget.measured.width_eq.symm
  obtain ⟨hleft, hright⟩ := @Column.PairCall.run_keeps ⟨source.column, target.column⟩
    call.checked allocator hsource.made.measured htarget.made.measured hwidth
  have hrun := @Column.Handover.run_of_eq ⟨source.column, target.column⟩ allocator call hwidth
  have hsame : handOver call allocator ⟨source, target⟩ =
      onColumns call.run allocator ⟨source, target⟩ := by
    rw [handOver_eq]
    simp only [onColumns, Action.onPart, hrun]
  refine ⟨hsame, ?_⟩
  rw [handOver_eq]
  refine ⟨⟨.pair_source call.checked allocator hsource.made htarget.made hwidth, ?_⟩,
    .pair_target call.checked allocator hsource.made htarget.made hwidth, ?_⟩
  · exact (congrArg (checkType primitive) hleft.dtype_eq).trans hsource.checked
  · exact (congrArg (checkType primitive) hright.dtype_eq).trans htarget.checked

/-! ## Making columns -/

/-- Something typed was made out of nothing, or a plain column was, with the same answer. -/
structure MadeAlike (beneath : Outcome Unit Column)
    (outcome : Outcome Unit (TypedColumn primitive)) : Prop where
  beneath_eq : beneath = ⟨outcome.answer.map TypedColumn.column, (), outcome.events⟩
  sound : ∀ typed, outcome.answer = .ok typed → typed.Sound

theorem madeAlike_build {start : TypedColumn primitive} {call : Action (TypedColumn primitive) Unit}
    {beneath : Action Column Unit} (hstart : start.Sound)
    (hcall : ErasesTo allocator call beneath) :
    MadeAlike (Action.build start.column beneath allocator ())
      (Action.build start call allocator ()) := by
  obtain ⟨hrun, hsound⟩ := hcall start hstart
  refine ⟨?_, ?_⟩
  · rw [Action.build, Action.build, hrun, onColumn, Action.onPart]
    cases (beneath allocator start.column).answer with
    | ok _ => rfl
    | error _ => rfl
  · intro typed hmade
    obtain ⟨-, rfl⟩ := Action.build_eq_ok hmade
    exact hsound

theorem madeAlike_check {dtype : DataType} {column : Column} (hdtype : column.dtype = dtype)
    (hmade : column.Made) :
    MadeAlike
      ((do
        checkType primitive dtype
        return column : Action Unit Column) allocator ())
      ((liftM (do
        checkType primitive dtype
        return ⟨column⟩ : Result (TypedColumn primitive)) :
          Action Unit (TypedColumn primitive)) allocator ()) := by
  cases hcheck : checkType primitive dtype with
  | error failure => exact ⟨rfl, fun _ hanswer => nomatch hanswer⟩
  | ok _ =>
    refine ⟨rfl, ?_⟩
    rintro _ ⟨⟩
    exact ⟨hmade, hdtype ▸ hcheck⟩

theorem withCapacity_madeAlike (primitive : Primitive) (allocator : Allocator) (name : String)
    (capacity : Nat) :
    MadeAlike (Column.withCapacity name (.ofPrimitive primitive) capacity allocator ())
      (withCapacity name capacity allocator () : Outcome Unit (TypedColumn primitive)) := by
  have hcreate : Column.create name (.ofPrimitive primitive) =
      .ok (Column.empty name (.ofPrimitive primitive)) := by
    rw [Column.create, (checkType_eq_ok (checkType_ofPrimitive primitive)).1]
    rfl
  rw [Column.withCapacity, hcreate]
  exact madeAlike_build (sound_empty name) (erasesTo_onColumn (.reallocateExact capacity))

/-- However a column is made, the typed one has the plain one beneath it, or both fail alike. -/
theorem Origin.madeAlike (origin : Origin primitive) :
    MadeAlike (origin.makeColumn allocator ()) (origin.make allocator ()) := by
  cases origin with
  | empty name =>
    refine ⟨rfl, ?_⟩
    rintro _ ⟨⟩
    exact sound_empty name
  | create name dtype =>
    cases hcheck : checkType primitive dtype with
    | error failure =>
      simp only [makeColumn, make, TypedColumn.create, hcheck]
      exact ⟨rfl, fun _ hanswer => nomatch hanswer⟩
    | ok _ =>
      have hcreate : Column.create name dtype = .ok (Column.empty name dtype) := by
        rw [Column.create, (checkType_eq_ok hcheck).1]
        rfl
      simp only [makeColumn, make, TypedColumn.create, hcheck, hcreate]
      refine ⟨rfl, ?_⟩
      rintro _ ⟨⟩
      exact ⟨.empty name dtype, hcheck⟩
  | withCapacity name capacity => exact withCapacity_madeAlike primitive allocator name capacity
  | ofOptions name values =>
    -- first a blank column is made, then the options are put into it
    obtain ⟨hbeneath, hsound⟩ := withCapacity_madeAlike primitive allocator name values.length
    rcases hblank : (TypedColumn.withCapacity name values.length :
      Action Unit (TypedColumn primitive)) allocator () with ⟨failure | blank, ⟨⟩, events⟩
    · rw [hblank] at hbeneath
      rw [makeColumn, make, TypedColumn.ofOptions, Action.bind_apply_error hbeneath,
        Action.bind_apply_error hblank]
      exact ⟨rfl, fun _ hanswer => nomatch hanswer⟩
    · rw [hblank] at hbeneath hsound
      obtain ⟨hfilled, hfilledSound⟩ := madeAlike_build (hsound blank rfl)
        (setOptions_erasesTo allocator 0 values)
      rw [makeColumn, make, TypedColumn.ofOptions, Action.bind_apply_ok hbeneath,
        Action.bind_apply_ok hblank]
      refine ⟨?_, hfilledSound⟩
      rw [hfilled]
  | ofColumn column made => exact madeAlike_check rfl made

/-! ## Steps and programs -/

/-- The typed columns on a shelf are sound. -/
def Shelf.Sound (shelf : Shelf (TypedColumn primitive)) : Prop :=
  ∀ place typed, shelf place = some typed → typed.Sound

/-- The outcome on plain columns is that on typed columns as seen from the columns beneath, and
those typed columns are sound. -/
structure Mirrors (beneath : Outcome (Shelf Column) Unit)
    (outcome : Outcome (Shelf (TypedColumn primitive)) Unit) : Prop where
  beneath_eq : beneath = ⟨outcome.answer, outcome.state.erase, outcome.events⟩
  sound : outcome.state.Sound

variable {shelf : Shelf (TypedColumn primitive)}

theorem Shelf.erase_update (shelf : Shelf (TypedColumn primitive)) (place : Nat)
    (typed : TypedColumn primitive) :
    Shelf.erase (Function.update shelf place (some typed)) =
      Function.update shelf.erase place (some typed.column) := by
  funext other
  by_cases hother : other = place
  · subst hother
    simp [erase]
  · simp [erase, hother]

theorem Shelf.Sound.update (h : shelf.Sound) (place : Nat) (hplace : typed.Sound) :
    Shelf.Sound (Function.update shelf place (some typed)) := by
  intro other found hfound
  by_cases hother : other = place
  · subst hother
    rw [Function.update_self] at hfound
    exact Option.some.inj hfound ▸ hplace
  · rw [Function.update_of_ne hother] at hfound
    exact h other found hfound

/-- A step that finds a place empty does nothing in either interpretation. -/
theorem Shelf.Sound.mirrors (h : shelf.Sound) :
    Mirrors ⟨.ok (), shelf.erase, []⟩ ⟨.ok (), shelf, []⟩ :=
  ⟨rfl, h⟩

theorem put_mirrors (h : shelf.Sound) (place : Nat)
    {making : Action Unit (TypedColumn primitive)} {beneath : Action Unit Column}
    (halike : MadeAlike (beneath allocator ()) (making allocator ())) :
    Mirrors (Shelf.put place beneath allocator shelf.erase)
      (Shelf.put place making allocator shelf) := by
  obtain ⟨hbeneath, hsound⟩ := halike
  rcases hmade : making allocator () with ⟨failure | made, ⟨⟩, events⟩
  · rw [hmade] at hbeneath
    simp only [Shelf.put, hmade, hbeneath]
    exact ⟨rfl, h⟩
  · rw [hmade] at hbeneath hsound
    simp only [Shelf.put, hmade, hbeneath]
    exact ⟨by rw [Shelf.erase_update]; rfl, h.update place (hsound made rfl)⟩

theorem act_mirrors (h : shelf.Sound) (place : Nat) {call : Action (TypedColumn primitive) Unit}
    {beneath : Action Column Unit} (herases : ErasesTo allocator call beneath) :
    Mirrors (Shelf.act place beneath allocator shelf.erase)
      (Shelf.act place call allocator shelf) := by
  cases hplace : shelf place with
  | none =>
    simp only [Shelf.act, Shelf.erase, hplace, Option.map_none]
    exact h.mirrors
  | some typed =>
    obtain ⟨hrun, hsound⟩ := herases typed (h place typed hplace)
    simp only [Shelf.act, Shelf.erase, hplace, Option.map_some]
    refine ⟨?_, h.update place hsound⟩
    rw [Shelf.erase_update, hrun]
    rfl

theorem actOnPair_mirrors (h : shelf.Sound) (source target : Nat) (call : Column.Handover) :
    Mirrors (Shelf.actOnPair source target call.run allocator shelf.erase)
      (Shelf.actOnPair source target (handOver call) allocator shelf) := by
  cases hsource : shelf source with
  | none =>
    simp only [Shelf.actOnPair, Shelf.erase, hsource, Option.map_none]
    exact h.mirrors
  | some first =>
    cases htarget : shelf target with
    | none =>
      simp only [Shelf.actOnPair, Shelf.erase, hsource, htarget, Option.map_none, Option.map_some]
      exact h.mirrors
    | some second =>
      obtain ⟨hrun, hleft, hright⟩ :=
        handOver_eq_run allocator (h source first hsource) (h target second htarget) call
      simp only [Shelf.actOnPair, Shelf.erase, hsource, htarget, Option.map_some]
      refine ⟨?_, (h.update source hleft).update target hright⟩
      rw [Shelf.erase_update, Shelf.erase_update, hrun]
      rfl

/-- A step does the same in both interpretations. -/
theorem Step.mirrors (step : Step primitive) (allocator : Allocator) (h : shelf.Sound) :
    Mirrors (step.run .erased allocator shelf.erase) (step.run .typed allocator shelf) := by
  cases step with
  | make place origin => exact put_mirrors h place origin.madeAlike
  | call place request =>
    refine act_mirrors h place (request.1.erasesTo ?_)
    intro source hsome
    rw [request.2] at hsome
    cases hsome
  | copy source target growing position index =>
    cases hsource : shelf source with
    | none =>
      simp only [run, Shelf.erase, hsource, Option.map_none]
      exact h.mirrors
    | some found =>
      have hcopy := act_mirrors h target
        (copy_erasesTo allocator (h source found hsource) growing position index)
      simp only [run, hsource, Shelf.erase, Option.map_some]
      exact hcopy
  | handOver source target request => exact actOnPair_mirrors h source target request
  | unwrapped place request => exact act_mirrors h place (unwrapped_erasesTo request)

/-- A program does the same in both interpretations, step by step. -/
theorem Program.run_erased (program : Program primitive) (h : shelf.Sound) :
    program.run .erased shelf.erase =
        ((program.run .typed shelf).1, (program.run .typed shelf).2.erase) ∧
      (program.run .typed shelf).2.Sound := by
  induction program generalizing shelf with
  | nil => exact ⟨rfl, h⟩
  | cons first rest ih =>
    obtain ⟨allocator, step⟩ := first
    obtain ⟨hbeneath, hsound⟩ := step.mirrors allocator h
    obtain ⟨hrest, hend⟩ := ih hsound
    refine ⟨?_, hend⟩
    simp only [run, hbeneath, hrest]

/-- The type of the column beneath is stored as the primitive, its width is that of the
primitive, and what is read of the typed column is what is read of the column beneath,
decoded. What a call wrote is read back bit for bit. -/
structure Faithful (typed : TypedColumn primitive) : Prop where
  physical_eq : typed.column.dtype.physical = .primitive primitive
  width_eq : typed.column.width = primitive.byteWidth
  get?_eq : ∀ index, ∃ value, typed.get? index = .ok value ∧
    typed.column.get? index = .ok (value.map Scalar.toBytes)
  get_eq : ∀ index, typed.column.get index = (typed.get index).map Scalar.toBytes
  options_eq : ∃ values, typed.options = .ok values ∧
    typed.column.slots = .ok (values.map (Option.map Scalar.toBytes))
  rawValues_eq : ∃ values, typed.rawValues = .ok values ∧
    values.length = typed.column.length ∧
    ∀ index value, values[index]? = some value →
      typed.column.slotBytes index = .ok value.toBytes ∧
        ∀ held, typed.get? index = .ok (some held) → held = value
  get_run : ∀ (allocator : Allocator) (call : Call primitive) (index : Nat)
    (value : Scalar primitive), call.written? = some (index, value) →
      (call.run allocator typed).answer = .ok () →
        (call.run allocator typed).state.get index = .ok value

theorem Measured.faithful (h : typed.Measured) : typed.Faithful where
  physical_eq := h.physical_eq
  width_eq := h.width_eq
  get?_eq := h.get?_eq
  get_eq := h.get_eq
  options_eq := h.options_eq
  rawValues_eq := h.rawValues_eq
  get_run := fun _ call _ _ hwritten hanswer => call.get_run h hwritten hanswer

/-- Any program gives the same answers and the same events on typed columns as on plain columns
that are passed the bytes of the values, and leaves the same columns. Every typed column that
it leaves is faithful to the column beneath, which came about by calls on plain columns. -/
theorem Program.simulates (program : Program primitive) :
    program.run .erased Shelf.bare =
        ((program.run .typed Shelf.bare).1, (program.run .typed Shelf.bare).2.erase) ∧
      ∀ place typed, (program.run .typed Shelf.bare).2 place = some typed →
        typed.Faithful ∧ typed.column.Made := by
  have hbare : (Shelf.bare : Shelf (TypedColumn primitive)).Sound := by
    rintro _ _ ⟨⟩
  obtain ⟨hrun, hsound⟩ := program.run_erased hbare
  refine ⟨hrun, ?_⟩
  intro place typed hplace
  have htyped := hsound place typed hplace
  exact ⟨htyped.measured.faithful, htyped.made⟩

/-- A signalling NaN with its sign is written past the end of one column, and copied to the room
of another. It is read back bit for bit there, by itself and among the values of all slots, and the
plain column in its place holds its four bytes. -/
theorem Program.simulates_of_nan :
    let nan : Scalar .float32 := ⟨0xffa00001⟩
    let program : Program .float32 :=
      [(.standard, .make 0 (.empty "a")), (.standard, .call 0 ⟨.setGrowing 2 nan, rfl⟩),
        (.standard, .make 1 (.withCapacity "b" 2)), (.standard, .copy 0 1 false 2 1)]
    ∃ typed plain, (program.run .typed Shelf.bare).2 1 = some typed ∧
      (program.run .erased Shelf.bare).2 1 = some plain ∧
      typed.get 1 = .ok nan ∧ plain.get 1 = .ok #[0x01, 0x00, 0xa0, 0xff] ∧
      ∃ values, typed.rawValues = .ok values ∧ values.length = 2 ∧ values[1]? = some nan := by
  intro nan program
  let typed : TypedColumn .float32 :=
    ⟨{ Column.empty "b" .float32 with
      validity := ⟨#[0x02]⟩
      values := #[0, 0, 0, 0, 0x01, 0x00, 0xa0, 0xff]
      length := 2
      capacity := 2 }⟩
  obtain ⟨hrun, hfaithful⟩ := Program.simulates program
  have hcolumn : ((program.run .typed Shelf.bare).2 1).map TypedColumn.column =
      some typed.column := by decide
  have hplain : (program.run .erased Shelf.bare).2 1 = some typed.column := by
    rw [hrun]
    exact hcolumn
  obtain ⟨found, htyped, hfound⟩ := Option.map_eq_some_iff.mp hcolumn
  obtain rfl : found = typed := congrArg TypedColumn.mk hfound
  obtain ⟨hfaithful, -⟩ := hfaithful 1 typed htyped
  have hnan : nan.toBytes = #[0x01, 0x00, 0xa0, 0xff] := by decide
  have hbytes : typed.column.get 1 = .ok nan.toBytes := by
    rw [hnan]
    cbv
  have hget : typed.get 1 = .ok nan := by
    rw [TypedColumn.get, hbytes, ok_bind, Scalar.ofBytes_toBytes]
  obtain ⟨values, hvalues, hlength, hvalue⟩ := hfaithful.rawValues_eq
  have hlength : values.length = 2 := hlength
  have hsecond : values[1]? = some values[1] := List.getElem?_eq_getElem (by omega)
  have hslot : typed.column.slotBytes 1 = .ok nan.toBytes := by
    rw [hnan]
    cbv
  refine ⟨typed, typed.column, htyped, hplain, hget, hnan ▸ hbytes, values, hvalues, hlength, ?_⟩
  rw [hsecond, Scalar.toBytes_inj (Except.ok.inj ((hvalue 1 _ hsecond).1.symm.trans hslot))]

end TypedColumn

end Columnar
