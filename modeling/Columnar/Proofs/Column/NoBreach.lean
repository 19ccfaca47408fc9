import Columnar.Proofs.Column.Safety
import Columnar.Proofs.Column.Text
import Columnar.Proofs.TypedColumn.Reading

/-! # No call breaks a promise unless it says so -/

namespace Columnar

namespace Column

/-- Reading the column gives an answer. No call breaks a promise, on the column alone or with
another one as target, but for those that insist on a slot past the capacity, and these do so
before anything has happened. -/
structure Safe (column : Column) : Prop where
  get?_answers : ∀ index, ∃ slot, column.get? index = .ok slot
  get_failsWith : ∀ index, (column.get index).FailsWith Failure.IsError
  isValid_answers : ∀ index, ∃ valid, column.isValid index = .ok valid
  isNull_answers : ∀ index, ∃ null, column.isNull index = .ok null
  slots_answers : ∃ slots, column.slots = .ok slots
  nullCount_answers : ∃ count, column.nullCount = .ok count
  valueBytes_answers : ∃ bytes, column.valueBytes = .ok bytes
  text_answers : ∃ text, column.text = .ok text
  sameSlots_answers : ∀ other, (Object.column other).Reachable →
    ∃ same, column.sameSlots other = .ok same
  call_breaches : ∀ (allocator : Allocator) (call : Call) (index : Nat),
    call.insistsOn? column = some index → column.capacity ≤ index →
      call.run allocator column =
        ⟨.error (.breach (.slotOutOfCapacity index column.capacity column.name)), column, []⟩
  call_failsWith : ∀ (allocator : Allocator) (call : Call), allocator.IsBounded →
    (∀ source, call.source? = some source → (Object.column source).Reachable) →
      (∀ index, call.insistsOn? column = some index → index < column.capacity) →
        (call.run allocator column).answer.FailsWith Failure.IsError
  handover_failsWith : ∀ (allocator : Allocator) (call : Handover) (target : Column),
    allocator.IsBounded → (Object.column target).Reachable →
      (call.run allocator ⟨column, target⟩).answer.FailsWith Failure.IsError
  pair_failsWith : ∀ target, (Column.pair column target).FailsWith Failure.IsError

theorem WellFormed.safe {column : Column} (h : column.WellFormed) : column.Safe where
  get?_answers index := ⟨_, h.get?_eq_ok index⟩
  get_failsWith := h.get_failsWith
  isValid_answers index := ⟨_, h.isValid_eq_ok index⟩
  isNull_answers index := ⟨_, by rw [isNull, h.isValid_eq_ok]; rfl⟩
  slots_answers := ⟨_, h.slots_eq_ok⟩
  nullCount_answers := ⟨_, h.nullCount_eq_ok⟩
  valueBytes_answers := ⟨_, h.measured.valueBytes_eq_ok.1⟩
  text_answers := h.text_eq_ok
  sameSlots_answers _ hother := ⟨_, h.sameSlots_eq hother.wellFormed⟩
  call_breaches _ call _ hinsists hpast := call.run_of_le hinsists hpast
  call_failsWith _ call hallocator hsource hin :=
    call.run_failsWith hallocator h (fun source hsome => (hsource source hsome).wellFormed) hin
  handover_failsWith _ call _ hallocator htarget :=
    call.run_failsWith hallocator h htarget.wellFormed
  pair_failsWith := Column.pair_failsWith column

end Column

namespace TypedColumn

variable {primitive : Primitive} {typed : TypedColumn primitive} {allocator : Allocator}

/-- The column beneath is safe, and so are reading values and the calls on the typed column. -/
structure Safe (typed : TypedColumn primitive) : Prop where
  column : typed.column.Safe
  get?_answers : ∀ index, ∃ value, typed.get? index = .ok value
  get_failsWith : ∀ index, (typed.get index).FailsWith Failure.IsError
  options_answers : ∃ values, typed.options = .ok values
  rawValues_answers : ∃ values, typed.rawValues = .ok values
  call_breaches : ∀ (allocator : Allocator) (call : Call primitive) (index : Nat),
    (∀ source, call.source? = some source → (Object.typed source).Reachable) →
      call.erase.insistsOn? typed.column = some index → typed.column.capacity ≤ index →
        call.run allocator typed =
          ⟨.error (.breach (.slotOutOfCapacity index typed.column.capacity typed.column.name)),
            typed, []⟩
  call_failsWith : ∀ (allocator : Allocator) (call : Call primitive), allocator.IsBounded →
    (∀ source, call.source? = some source → (Object.typed source).Reachable) →
      (∀ index, call.erase.insistsOn? typed.column = some index →
        index < typed.column.capacity) →
        (call.run allocator typed).answer.FailsWith Failure.IsError
  handOver_failsWith : ∀ (allocator : Allocator) (call : Column.Handover)
    (target : TypedColumn primitive), allocator.IsBounded → (Object.typed target).Reachable →
      (handOver call allocator ⟨typed, target⟩).answer.FailsWith Failure.IsError

theorem WellFormed.get_failsWith (h : typed.WellFormed) (index : Nat) :
    (typed.get index).FailsWith Failure.IsError := by
  intro failure hfailure
  have hcolumn := h.measured.get_eq index
  rw [hfailure] at hcolumn
  exact h.column.get_failsWith index failure hcolumn

theorem WellFormed.safe (h : typed.WellFormed) : typed.Safe where
  column := h.column.safe
  get?_answers index := by
    obtain ⟨value, hget, -⟩ := h.measured.get?_eq index
    exact ⟨value, hget⟩
  get_failsWith := h.get_failsWith
  options_answers := by
    obtain ⟨values, hvalues, -⟩ := h.measured.options_eq
    exact ⟨values, hvalues⟩
  rawValues_answers := by
    obtain ⟨values, hvalues, -⟩ := h.measured.rawValues_eq
    exact ⟨values, hvalues⟩
  call_breaches allocator call index hsource hinsists hpast := by
    have hmeasured : ∀ source, call.source? = some source → source.Measured :=
      fun source hsome => TypedColumn.WellFormed.measured (hsource source hsome).wellFormed
    rw [call.run_eq allocator h.measured hmeasured]
    exact Action.onPart_apply (call.erase.run_of_le hinsists hpast)
  call_failsWith allocator call hallocator hsource hin := by
    have hmeasured : ∀ source, call.source? = some source → source.Measured :=
      fun source hsome => TypedColumn.WellFormed.measured (hsource source hsome).wellFormed
    have herased : ∀ source, call.erase.source? = some source → source.WellFormed := by
      intro source hsome
      rw [call.source?_erase, Option.map_eq_some_iff] at hsome
      obtain ⟨typedSource, hsome, rfl⟩ := hsome
      exact TypedColumn.WellFormed.column (hsource typedSource hsome).wellFormed
    rw [call.run_eq allocator h.measured hmeasured]
    exact call.erase.run_failsWith hallocator h.column herased hin
  handOver_failsWith allocator call target hallocator htarget := by
    have htarget : target.WellFormed := htarget.wellFormed
    rw [handOver_eq]
    exact @Column.PairCall.run_failsWith allocator ⟨typed.column, target.column⟩ call.checked
      hallocator h.column htarget.column (h.width_eq.trans htarget.width_eq.symm)

end TypedColumn

namespace Object

/-- No call on the object breaks a promise but those that insist on a slot past the capacity. -/
def Safe : Object → Prop
  | column single => single.Safe
  | typed outer => outer.Safe
  | pair both => both.source.Safe ∧ both.target.Safe ∧
    ∀ (allocator : Allocator) (call : Column.PairCall), allocator.IsBounded →
      (call.run allocator both).answer.FailsWith Failure.IsError

theorem WellFormed.safe {object : Object} (h : object.WellFormed) : object.Safe := by
  cases object with
  | column single => exact Column.WellFormed.safe h
  | typed outer => exact TypedColumn.WellFormed.safe h
  | pair both =>
    obtain ⟨hsource, htarget, hwidth⟩ := h
    exact ⟨hsource.safe, htarget.safe, fun _ call hallocator =>
      call.run_failsWith hallocator hsource htarget hwidth⟩

end Object

/-! ## Constructors -/

theorem Action.build_failsWith {σ τ : Type} {allocator : Allocator} {state : σ} {start : τ}
    {action : Action τ Unit} {allowed : Failure → Prop}
    (h : (action allocator start).answer.FailsWith allowed) :
    (Action.build start action allocator state).answer.FailsWith allowed := by
  intro failure hfailure
  rw [Action.build] at hfailure
  cases hanswer : (action allocator start).answer with
  | ok _ =>
    rw [hanswer] at hfailure
    cases hfailure
  | error cause =>
    rw [hanswer] at hfailure
    obtain rfl := Except.error.inj hfailure
    exact h cause hanswer

theorem DataType.check_failsWith (dtype : DataType) :
    dtype.check.FailsWith Failure.IsError := by
  cases dtype with
  | decimal precision scale =>
    by_cases hvalid : (decimal precision scale).HasValidParameters
    · simp only [DataType.check, if_pos hvalid]
      exact Result.failsWith_ok ()
    · simp only [DataType.check, if_neg hvalid]
      exact Result.failsWith_raise (Failure.isError_raised _)
  | _ => exact Result.failsWith_ok ()

namespace Column

variable {allocator : Allocator} {σ : Type} {state : σ}

theorem create_failsWith (name : String) (dtype : DataType) :
    (create name dtype).FailsWith Failure.IsError :=
  dtype.check_failsWith.bind fun _ => Result.failsWith_ok _

theorem withCapacity_failsWith (hallocator : allocator.IsBounded) (name : String)
    (dtype : DataType) (capacity : Nat) :
    (withCapacity name dtype capacity allocator state).answer.FailsWith Failure.IsError := by
  have hcreate := create_failsWith name dtype
  cases hblank : create name dtype with
  | error failure =>
    rw [hblank] at hcreate
    rw [withCapacity, hblank]
    exact hcreate
  | ok blank =>
    obtain ⟨-, rfl⟩ := create_eq_ok hblank
    rw [withCapacity, hblank]
    exact Action.build_failsWith
      (reallocateExact_failsWith hallocator (wellFormed_empty name dtype) capacity)

end Column

namespace TypedColumn

variable {primitive : Primitive} {typed : TypedColumn primitive} {allocator : Allocator}
  {σ : Type} {state : σ}

theorem setOption_eq (allocator : Allocator) (h : typed.WellFormed) {index : Nat}
    (hindex : index < typed.column.capacity) (value : Option (Scalar primitive)) :
    setOption index value allocator typed =
        ⟨.ok (), ⟨typed.column.withSlot index (value.map Scalar.toBytes)⟩, []⟩ ∧
      (⟨typed.column.withSlot index (value.map Scalar.toBytes)⟩ :
        TypedColumn primitive).WellFormed := by
  have hsize : ∀ bytes, value.map Scalar.toBytes = some bytes →
      bytes.size = typed.column.width := by
    intro bytes hbytes
    obtain ⟨held, -, rfl⟩ := Option.map_eq_some_iff.mp hbytes
    exact (h.measured.width_eq_size held).symm
  exact ⟨setOption_of_reaches (h.column.reaches hindex) h.width_eq value,
    h.column.withSlot hindex hsize, h.physical_eq⟩

/-- Slots within the capacity are all set, by induction on the values. -/
theorem setOptions_eq_ok (h : typed.WellFormed) {start : Nat}
    {values : List (Option (Scalar primitive))}
    (hroom : start + values.length ≤ typed.column.capacity) :
    (setOptions start values allocator typed).answer = .ok () := by
  induction values generalizing typed start with
  | nil => rfl
  | cons value rest ih =>
    rw [List.length_cons] at hroom
    obtain ⟨hset, hwritten⟩ := setOption_eq allocator h
      (show start < typed.column.capacity by omega) value
    rw [setOptions, Action.bind_of_ok hset]
    exact ih hwritten (show start + 1 + rest.length ≤ typed.column.capacity by omega)

theorem checkType_failsWith (primitive : Primitive) (dtype : DataType) :
    (checkType primitive dtype).FailsWith Failure.IsError := by
  apply dtype.check_failsWith.bind
  intro _
  split
  · exact Result.failsWith_ok _
  · exact Result.failsWith_raise (Failure.isError_raised _)

theorem create_failsWith (name : String) (dtype : DataType) :
    (create name dtype : Result (TypedColumn primitive)).FailsWith Failure.IsError :=
  (checkType_failsWith primitive dtype).bind fun _ => Result.failsWith_ok _

theorem ofColumn?_failsWith (column : Column) :
    (ofColumn? column : Result (TypedColumn primitive)).FailsWith Failure.IsError :=
  (checkType_failsWith primitive column.dtype).bind fun _ => Result.failsWith_ok _

theorem withCapacity_failsWith (hallocator : allocator.IsBounded) (name : String) (capacity : Nat) :
    (withCapacity name capacity allocator state :
      Outcome σ (TypedColumn primitive)).answer.FailsWith Failure.IsError :=
  Action.build_failsWith
    (Column.reallocateExact_failsWith hallocator (Column.wellFormed_empty name _) capacity)

/-- A call that builds on a new column with room for it fails only if there is no memory. -/
theorem failsWith_afterCapacity (hallocator : allocator.IsBounded) {name : String} {capacity : Nat}
    {next : TypedColumn primitive → Action σ (TypedColumn primitive)}
    (hnext : ∀ blank : TypedColumn primitive, blank.WellFormed → blank.column.capacity = capacity →
      (next blank allocator state).answer.FailsWith Failure.IsError) :
    ((withCapacity name capacity >>= next) allocator state).answer.FailsWith Failure.IsError := by
  have hfails : (withCapacity name capacity allocator state :
      Outcome σ (TypedColumn primitive)).answer.FailsWith Failure.IsError :=
    withCapacity_failsWith hallocator name capacity
  rcases hblank : (withCapacity name capacity : Action σ (TypedColumn primitive)) allocator state
    with ⟨failure | blank, after, events⟩
  · rw [hblank] at hfails
    rw [Action.bind_apply_error hblank]
    exact hfails
  · obtain rfl : state = after := congrArg Outcome.state hblank
    have hanswer := congrArg Outcome.answer hblank
    rw [Action.bind_apply_ok hblank]
    exact hnext blank (withCapacity_eq_ok hallocator hanswer).2
      (withCapacity_capacity hallocator hanswer)

theorem ofValues_failsWith (hallocator : allocator.IsBounded) (name : String)
    (values : List (Scalar primitive)) :
    (ofValues name values allocator state).answer.FailsWith Failure.IsError := by
  apply failsWith_afterCapacity hallocator
  intro blank hblank hcapacity
  have hbytes : (values.toArray.flatMap Scalar.toBytes).size = blank.column.values.size := by
    rw [size_flatMap_toBytes, hblank.column.size_values, hcapacity, hblank.width_eq]
  apply Action.build_failsWith
  rw [onColumn_apply
    (fill_eq (hcapacity ▸ hblank.column.capacity_le) hbytes)]
  exact Result.failsWith_ok ()

theorem ofOptions_failsWith (hallocator : allocator.IsBounded) (name : String)
    (values : List (Option (Scalar primitive))) :
    (ofOptions name values allocator state).answer.FailsWith Failure.IsError := by
  apply failsWith_afterCapacity hallocator
  intro blank hblank hcapacity
  apply Action.build_failsWith
  rw [setOptions_eq_ok hblank (by omega)]
  exact Result.failsWith_ok ()

end TypedColumn

/-- No constructor breaks a promise, whatever it is given. -/
structure ConstructorsSafe (allocator : Allocator) : Prop where
  create_failsWith : ∀ (name : String) (dtype : DataType),
    (Column.create name dtype).FailsWith Failure.IsError
  withCapacity_failsWith : ∀ (name : String) (dtype : DataType) (capacity : Nat),
    (Column.withCapacity name dtype capacity allocator ()).answer.FailsWith Failure.IsError
  typedCreate_failsWith : ∀ (primitive : Primitive) (name : String) (dtype : DataType),
    (TypedColumn.create name dtype : Result (TypedColumn primitive)).FailsWith Failure.IsError
  ofColumn?_failsWith : ∀ (primitive : Primitive) (column : Column),
    (TypedColumn.ofColumn? column : Result (TypedColumn primitive)).FailsWith Failure.IsError
  typedWithCapacity_failsWith : ∀ (primitive : Primitive) (name : String) (capacity : Nat),
    (TypedColumn.withCapacity name capacity allocator () :
      Outcome Unit (TypedColumn primitive)).answer.FailsWith Failure.IsError
  ofValues_failsWith : ∀ (primitive : Primitive) (name : String)
    (values : List (Scalar primitive)),
      (TypedColumn.ofValues name values allocator ()).answer.FailsWith Failure.IsError
  ofOptions_failsWith : ∀ (primitive : Primitive) (name : String)
    (values : List (Option (Scalar primitive))),
      (TypedColumn.ofOptions name values allocator ()).answer.FailsWith Failure.IsError

theorem constructorsSafe {allocator : Allocator} (hallocator : allocator.IsBounded) :
    ConstructorsSafe allocator where
  create_failsWith := Column.create_failsWith
  withCapacity_failsWith := Column.withCapacity_failsWith hallocator
  typedCreate_failsWith _ := TypedColumn.create_failsWith
  ofColumn?_failsWith _ := TypedColumn.ofColumn?_failsWith
  typedWithCapacity_failsWith _ := TypedColumn.withCapacity_failsWith hallocator
  ofValues_failsWith _ := TypedColumn.ofValues_failsWith hallocator
  ofOptions_failsWith _ := TypedColumn.ofOptions_failsWith hallocator

namespace Object

/-- However an object came about, no call on it breaks a promise but those that insist on a slot
past the capacity, and no constructor does. -/
theorem Reachable.breaks_no_promise {object : Object} (h : object.Reachable) :
    object.Safe ∧ ∀ allocator : Allocator, allocator.IsBounded → ConstructorsSafe allocator :=
  ⟨h.wellFormed.safe, fun _ => constructorsSafe⟩

/-- A column whose slots have no bytes, with four slots of capacity, of which none is refused
and the fifth is. -/
theorem breaks_no_promise_of_widthless :
    let column := ((Column.Call.setGrowing 3 #[]).run .standard
      (Column.empty "a" (.fixedSizeBinary 0))).state
    (Object.column column).Reachable ∧ column.capacity = 4 ∧
      (∀ index < 4, ((Column.Call.setNull index).run .standard column).answer.FailsWith
        Failure.IsError) ∧
      (Column.Call.set 4 #[]).run .standard column =
        ⟨.error (.breach (.slotOutOfCapacity 4 4 "a")), column, []⟩ := by
  intro column
  have hreachable : (Object.column column).Reachable := by
    refine .call (.setGrowing 3 #[]) Allocator.isBounded_standard (.empty "a" _) ?_
    rintro _ ⟨⟩
  have hsafe : column.Safe := hreachable.breaks_no_promise.1
  have hcapacity : column.capacity = 4 := by decide
  refine ⟨hreachable, hcapacity, ?_, ?_⟩
  · intro index hindex
    refine hsafe.call_failsWith .standard (.setNull index) Allocator.isBounded_standard ?_ ?_
    · rintro _ ⟨⟩
    · rintro _ ⟨⟩
      rw [hcapacity]
      exact hindex
  · have hinsists : (Column.Call.set 4 #[]).insistsOn? column = some 4 := by decide
    have hname : column.name = "a" := by decide
    have hbreach := hsafe.call_breaches .standard (.set 4 #[]) 4 hinsists
      (Nat.le_of_eq hcapacity)
    rw [hcapacity, hname] at hbreach
    exact hbreach

end Object

end Columnar
