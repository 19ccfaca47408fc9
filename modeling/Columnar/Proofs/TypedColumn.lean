import Columnar.TypedColumn
import Columnar.Proofs.Column.Creation
import Columnar.Proofs.Column.Measures

/-!
# Typed columns and the columns beneath

Every call on a typed column is one of the calls on the column beneath: what it skips are checks
that would have passed.
-/

namespace Columnar

namespace TypedColumn

variable {primitive : Primitive} {σ α β : Type} {state : σ} {allocator : Allocator}
  {typed : TypedColumn primitive}

structure WellFormed (typed : TypedColumn primitive) : Prop where
  column : typed.column.WellFormed
  physical_eq : typed.column.dtype.physical = .primitive primitive

/-- The column beneath is measured and has a type that is stored as the primitive. -/
structure Measured (typed : TypedColumn primitive) : Prop where
  column : typed.column.Measured
  physical_eq : typed.column.dtype.physical = .primitive primitive

theorem WellFormed.measured (h : typed.WellFormed) : typed.Measured :=
  ⟨h.column.measured, h.physical_eq⟩

theorem Measured.width_eq (h : typed.Measured) : typed.column.width = primitive.byteWidth := by
  rw [h.column.width_eq, DataType.byteWidth, h.physical_eq]
  rfl

theorem Measured.width_eq_size (h : typed.Measured) (value : Scalar primitive) :
    typed.column.width = value.toBytes.size :=
  h.width_eq.trans value.size_toBytes.symm

theorem WellFormed.width_eq (h : typed.WellFormed) :
    typed.column.width = primitive.byteWidth :=
  h.measured.width_eq

theorem checkType_eq_ok {dtype : DataType} (h : checkType primitive dtype = .ok ()) :
    dtype.check = .ok () ∧ dtype.physical = .primitive primitive := by
  obtain ⟨⟨⟩, hcheck, hphysical⟩ := bind_eq_ok_iff.mp h
  by_cases hsame : dtype.physical = .primitive primitive
  · exact ⟨hcheck, hsame⟩
  · rw [if_neg hsame] at hphysical
    cases hphysical

theorem wellFormed_empty (name : String) :
    (TypedColumn.empty name : TypedColumn primitive).WellFormed where
  column := Column.wellFormed_empty name _
  physical_eq := DataType.physical_ofPrimitive primitive

theorem create_eq_ok {name : String} {dtype : DataType}
    (h : create name dtype = .ok typed) : typed.WellFormed := by
  obtain ⟨⟨⟩, hcheck, hempty⟩ := bind_eq_ok_iff.mp h
  obtain rfl := Except.ok.inj hempty
  exact ⟨Column.wellFormed_empty name dtype, (checkType_eq_ok hcheck).2⟩

theorem ofColumn?_eq_ok {column : Column} (hcolumn : column.WellFormed)
    (h : ofColumn? column = .ok typed) : typed.WellFormed := by
  obtain ⟨⟨⟩, hcheck, hsame⟩ := bind_eq_ok_iff.mp h
  obtain rfl := Except.ok.inj hsame
  exact ⟨hcolumn, (checkType_eq_ok hcheck).2⟩

/-! ## Calls on the column beneath -/

theorem onColumn_apply {action : Action Column α} {answer : Result α} {after : Column}
    {events : List Event} (h : action allocator typed.column = ⟨answer, after, events⟩) :
    onColumn action allocator typed = ⟨answer, ⟨after⟩, events⟩ :=
  Action.onPart_apply h

/-- What a call on the column beneath leaves depends on what it does in that state only. -/
theorem onColumn_congr {first second : Action Column α}
    (h : first allocator typed.column = second allocator typed.column) :
    onColumn first allocator typed = onColumn second allocator typed := by
  rw [onColumn, onColumn, Action.onPart, Action.onPart, h]

theorem onColumn_bind (first : Action Column α) (next : α → Action Column β) :
    (onColumn (first >>= next) : Action (TypedColumn primitive) β) =
      (onColumn first >>= fun answer => onColumn (next answer)) := by
  funext allocator typed
  rcases hfirst : first allocator typed.column with ⟨failure | answer, after, events⟩
  · have hpart : (onColumn first : Action (TypedColumn primitive) α) allocator typed =
        ⟨.error failure, ⟨after⟩, events⟩ := Action.onPart_apply hfirst
    rw [Action.bind_apply_error hpart]
    exact Action.onPart_apply (Action.bind_apply_error hfirst)
  · have hpart : (onColumn first : Action (TypedColumn primitive) α) allocator typed =
        ⟨.ok answer, ⟨after⟩, events⟩ := Action.onPart_apply hfirst
    rw [Action.bind_apply_ok hpart]
    exact Action.onPart_apply (Action.bind_apply_ok hfirst)

/-- A call that changes one typed column. -/
inductive Call (primitive : Primitive) where
  | set (index : Nat) (value : Scalar primitive)
  | setGrowing (index : Nat) (value : Scalar primitive)
  | setNull (index : Nat)
  | setNullGrowing (index : Nat)
  | setOption (index : Nat) (value : Option (Scalar primitive))
  | setOptionGrowing (index : Nat) (value : Option (Scalar primitive))
  | copyFrom (source : TypedColumn primitive) (position index : Nat)
  | copyFromGrowing (source : TypedColumn primitive) (position index : Nat)
  | reallocateExact (capacity : Nat)
  | allocateNew
  | setLength (count : Nat)
  | clear

namespace Call

def run : Call primitive → Action (TypedColumn primitive) Unit
  | set index value => TypedColumn.set index value
  | setGrowing index value => TypedColumn.setGrowing index value
  | setNull index => TypedColumn.setNull index
  | setNullGrowing index => TypedColumn.setNullGrowing index
  | setOption index value => TypedColumn.setOption index value
  | setOptionGrowing index value => TypedColumn.setOptionGrowing index value
  | copyFrom source position index => TypedColumn.copyFrom source position index
  | copyFromGrowing source position index => TypedColumn.copyFromGrowing source position index
  | reallocateExact capacity => TypedColumn.reallocateExact capacity
  | allocateNew => TypedColumn.allocateNew
  | setLength count => TypedColumn.setLength count
  | clear => TypedColumn.clear

/-- The call on the column beneath. -/
def erase : Call primitive → Column.Call
  | set index value => .set index value.toBytes
  | setGrowing index value => .setGrowing index value.toBytes
  | setNull index => .setNull index
  | setNullGrowing index => .setNullGrowing index
  | setOption index value => .setOption index (value.map Scalar.toBytes)
  | setOptionGrowing index value => .setOptionGrowing index (value.map Scalar.toBytes)
  | copyFrom source position index => .copyFrom source.column position index
  | copyFromGrowing source position index => .copyFromGrowing source.column position index
  | reallocateExact capacity => .reallocateExact capacity
  | allocateNew => .allocateNew
  | setLength count => .setLength count
  | clear => .clear

/-- The other typed column that the call reads. -/
def source? : Call primitive → Option (TypedColumn primitive)
  | copyFrom source _ _ | copyFromGrowing source _ _ => some source
  | _ => none

theorem source?_erase (call : Call primitive) :
    call.erase.source? = call.source?.map TypedColumn.column := by
  cases call <;> rfl

end Call

theorem set_eq (h : typed.Measured) (index : Nat) (value : Scalar primitive) :
    TypedColumn.set index value allocator typed =
      onColumn (Column.set index value.toBytes) allocator typed := by
  apply onColumn_congr
  rw [Column.set, Action.getThe_bind, Column.checkWidth_of_eq (h.width_eq_size value),
    Action.liftM_ok_bind]

theorem setGrowing_eq (h : typed.Measured) (index : Nat) (value : Scalar primitive) :
    TypedColumn.setGrowing index value allocator typed =
      onColumn (Column.setGrowing index value.toBytes) allocator typed := by
  rw [TypedColumn.setGrowing, TypedColumn.set, ← onColumn_bind]
  apply onColumn_congr
  rw [Column.setGrowing, Action.getThe_bind, Column.checkWidth_of_eq (h.width_eq_size value),
    Action.liftM_ok_bind]

/-- Making room leaves the width as it was, so that checking it again makes no difference. -/
theorem setOptionGrowing_eq (h : typed.Measured) (index : Nat)
    (value : Option (Scalar primitive)) :
    TypedColumn.setOptionGrowing index value allocator typed =
      onColumn (Column.setOptionGrowing index (value.map Scalar.toBytes)) allocator typed := by
  cases value with
  | none =>
    rw [TypedColumn.setOptionGrowing, setOption, TypedColumn.setNull, ← onColumn_bind]
    rfl
  | some value =>
    have hwidth := h.width_eq_size value
    rw [TypedColumn.setOptionGrowing, setOption, TypedColumn.set, ← onColumn_bind]
    apply onColumn_congr
    rw [Option.map_some, Column.setOptionGrowing_some, Action.getThe_bind,
      Column.checkWidth_of_eq hwidth, Action.liftM_ok_bind]
    obtain ⟨hkeeps, -⟩ := Column.makeRoom_keeps allocator h.column index
    rcases hroom : Column.makeRoom index allocator typed.column with
      ⟨failure | ⟨⟩, roomy, events⟩
    · rw [Action.bind_apply_error hroom, Action.bind_apply_error hroom]
    · rw [hroom] at hkeeps
      have hroomy : roomy.width = value.toBytes.size :=
        (h.column.width_eq_of_keeps hkeeps).trans hwidth
      rw [Action.bind_apply_ok hroom, Action.bind_apply_ok hroom, Column.set, Action.getThe_bind,
        Column.checkWidth_of_eq hroomy, Action.liftM_ok_bind]

theorem copyFrom_eq (h : typed.Measured) {source : TypedColumn primitive}
    (hsource : source.Measured) (position index : Nat) :
    TypedColumn.copyFrom source position index allocator typed =
      onColumn (Column.copyFrom source.column position index) allocator typed := by
  have hwidth : typed.column.width = source.column.width := h.width_eq.trans hsource.width_eq.symm
  apply onColumn_congr
  rw [Column.copyFrom, Action.getThe_bind, Column.checkWidth_of_eq hwidth, Action.liftM_ok_bind]

theorem copyFromGrowing_eq (h : typed.Measured) {source : TypedColumn primitive}
    (hsource : source.Measured) (position index : Nat) :
    TypedColumn.copyFromGrowing source position index allocator typed =
      onColumn (Column.copyFromGrowing source.column position index) allocator typed := by
  have hwidth : typed.column.width = source.column.width := h.width_eq.trans hsource.width_eq.symm
  rw [TypedColumn.copyFromGrowing, TypedColumn.copyFrom, ← onColumn_bind]
  apply onColumn_congr
  rw [Column.copyFromGrowing, Action.getThe_bind, Column.checkWidth_of_eq hwidth,
    Action.liftM_ok_bind]

/-- A call on a measured typed column is its erasure on the column beneath, whatever memory is
granted. -/
theorem Call.run_eq (call : Call primitive) (allocator : Allocator) (h : typed.Measured)
    (hsource : ∀ source, call.source? = some source → source.Measured) :
    call.run allocator typed = onColumn call.erase.run allocator typed := by
  cases call with
  | set index value => exact set_eq h index value
  | setGrowing index value => exact setGrowing_eq h index value
  | setOption index value =>
    cases value with
    | none => rfl
    | some value => exact set_eq h index value
  | setOptionGrowing index value => exact setOptionGrowing_eq h index value
  | copyFrom source position index => exact copyFrom_eq h (hsource source rfl) position index
  | copyFromGrowing source position index =>
    exact copyFromGrowing_eq h (hsource source rfl) position index
  | _ => rfl

theorem Call.run_wellFormed (call : Call primitive) (hallocator : allocator.IsBounded)
    (h : typed.WellFormed) (hsource : ∀ source, call.source? = some source → source.WellFormed) :
    (call.run allocator typed).state.WellFormed := by
  have herased : ∀ source, call.erase.source? = some source → source.WellFormed := by
    intro source hsome
    rw [call.source?_erase, Option.map_eq_some_iff] at hsome
    obtain ⟨typedSource, hsome, rfl⟩ := hsome
    exact (hsource typedSource hsome).column
  obtain ⟨hcolumn, hdtype⟩ := call.erase.run_wellFormed hallocator h.column herased
  rw [call.run_eq allocator h.measured fun source hsome => (hsource source hsome).measured]
  exact ⟨hcolumn, (congrArg DataType.physical hdtype).trans h.physical_eq⟩

/-- A slot within reach is written in a column that is as wide as the primitive. -/
theorem setOption_of_reaches {index : Nat} (h : typed.column.Reaches index)
    (hwidth : typed.column.width = primitive.byteWidth) (value : Option (Scalar primitive)) :
    setOption index value allocator typed =
      ⟨.ok (), ⟨typed.column.withSlot index (value.map Scalar.toBytes)⟩, []⟩ := by
  cases value with
  | none =>
    rw [setOption, setNull, onColumn_apply h.setNull_eq]
    rfl
  | some value =>
    have hsize : value.toBytes.size = typed.column.width := value.size_toBytes.trans hwidth.symm
    rw [setOption, TypedColumn.set, onColumn_apply (h.writeValue_eq hsize)]
    rfl

/-- The call on any two typed columns of one primitive. -/
def handOver : Column.Handover → Action (Pair (TypedColumn primitive)) Unit
  | .transfer => TypedColumn.transfer
  | .splitAndTransfer start length => TypedColumn.splitAndTransfer start length

/-- The widths of two typed columns of one primitive need no check. -/
theorem handOver_eq (call : Column.Handover) :
    (handOver call : Action (Pair (TypedColumn primitive)) Unit) = onColumns call.checked.run := by
  cases call <;> rfl

/-! ## New typed columns -/

theorem withCapacity_eq_ok {name : String} {capacity : Nat} (hallocator : allocator.IsBounded)
    (h : (withCapacity name capacity allocator state).answer = .ok typed) :
    typed.column = (Column.empty name (.ofPrimitive primitive)).grow capacity ∧
      typed.WellFormed := by
  have hempty : (TypedColumn.empty name : TypedColumn primitive).WellFormed := wellFormed_empty name
  obtain ⟨hanswer, rfl⟩ := Action.build_eq_ok h
  obtain ⟨hgrown, hcolumn⟩ :=
    Column.reallocateExact_eq_ok hallocator hempty.column hanswer rfl
  have hdtype := congrArg Column.dtype hgrown
  rw [Column.dtype_grow] at hdtype
  exact ⟨hgrown, hcolumn, (congrArg DataType.physical hdtype).trans hempty.physical_eq⟩

theorem size_flatMap_toBytes (values : List (Scalar primitive)) :
    (values.toArray.flatMap Scalar.toBytes).size = values.length * primitive.byteWidth := by
  simp [List.map_const']

/-- A column is filled with bytes of the size of its value buffer. -/
theorem fill_eq {bytes : Bytes} {column : Column} {count : Nat}
    (hcount : count ≤ column.validity.bytes.size * 8) (hbytes : bytes.size = column.values.size) :
    fill bytes count allocator column = ⟨.ok (), column.filled bytes count, []⟩ := by
  have hrun : 0 + count ≤ column.validity.bytes.size * 8 := by rwa [Nat.zero_add]
  rw [fill, Action.getThe_bind]
  simp only [if_pos hbytes, Action.modify_bind, Action.getThe_bind, Bitmap.putRun_eq_ok hrun,
    Action.liftM_ok_bind]
  rfl

/-- The call that fills a column checks the size of the bytes only. -/
theorem fill_cases (allocator : Allocator) (bytes : Bytes) {column : Column} {count : Nat}
    (h : column.WellFormed) (hcount : count ≤ column.capacity) :
    (fill bytes count allocator column = ⟨.ok (), column.filled bytes count, []⟩ ∧
        bytes.size = column.values.size) ∨
      fill bytes count allocator column = ⟨.error (.breach .lengthMismatch), column, []⟩ := by
  by_cases hbytes : bytes.size = column.values.size
  · exact .inl ⟨fill_eq (Nat.le_trans hcount h.capacity_le) hbytes, hbytes⟩
  · right
    rw [fill, Action.getThe_bind, if_neg hbytes, Action.breach_bind]

/-- A new column has exactly the room that was asked for. -/
theorem withCapacity_capacity {name : String} {capacity : Nat} (hallocator : allocator.IsBounded)
    (h : (withCapacity name capacity allocator state).answer = .ok typed) :
    typed.column.capacity = capacity := by
  rw [(withCapacity_eq_ok hallocator h).1, Column.capacity_grow]
  exact Nat.zero_max capacity

theorem ofValues_eq_ok {name : String} {values : List (Scalar primitive)}
    (hallocator : allocator.IsBounded)
    (h : (ofValues name values allocator state).answer = .ok typed) : typed.WellFormed := by
  obtain ⟨blank, hmade, hbuild⟩ := Action.bind_answer_eq_ok h
  obtain ⟨hgrown, hblank⟩ := withCapacity_eq_ok hallocator hmade
  obtain ⟨hanswer, rfl⟩ := Action.build_eq_ok hbuild
  have hcapacity := withCapacity_capacity hallocator hmade
  have hlength : blank.column.length = 0 := by
    rw [hgrown, Column.length_grow]
    rfl
  obtain ⟨hfilled, hbytes⟩ | hfailed := fill_cases allocator
    (values.toArray.flatMap Scalar.toBytes) hblank.column (Nat.le_of_eq hcapacity.symm)
  · have hcolumn := hblank.column.filled hbytes (hlength ▸ Nat.zero_le values.length)
      (Nat.le_of_eq hcapacity.symm)
    rw [onColumn_apply hfilled]
    exact ⟨hcolumn, hblank.physical_eq⟩
  · rw [onColumn_apply hfailed] at hanswer
    cases hanswer

/-- Setting slots one after the other leaves a well-formed column, however far it gets. -/
theorem setOptions_wellFormed (hallocator : allocator.IsBounded) (h : typed.WellFormed)
    (start : Nat) (values : List (Option (Scalar primitive))) :
    (setOptions start values allocator typed).state.WellFormed := by
  induction values generalizing typed start with
  | nil => exact h
  | cons value rest ih =>
    have hnone : ∀ source, (Call.setOption start value).source? = some source →
        source.WellFormed := by
      rintro source ⟨⟩
    have hstep : (setOption start value allocator typed).state.WellFormed :=
      (Call.setOption start value).run_wellFormed hallocator h hnone
    rcases hset : setOption start value allocator typed with ⟨failure | answer, after, events⟩
    · rw [setOptions, Action.bind_apply_error hset]
      rw [hset] at hstep
      exact hstep
    · rw [setOptions, Action.bind_apply_ok hset]
      rw [hset] at hstep
      exact ih hstep (start + 1)

theorem ofOptions_eq_ok {name : String} {values : List (Option (Scalar primitive))}
    (hallocator : allocator.IsBounded)
    (h : (ofOptions name values allocator state).answer = .ok typed) : typed.WellFormed := by
  obtain ⟨blank, hblank, hbuild⟩ := Action.bind_answer_eq_ok h
  obtain ⟨-, hblank⟩ := withCapacity_eq_ok hallocator hblank
  obtain ⟨-, rfl⟩ := Action.build_eq_ok hbuild
  exact setOptions_wellFormed hallocator hblank 0 values

end TypedColumn

end Columnar
