import Columnar.Proofs.Action

/-!
# Checks of lists

A list is checked item by item, each against itself and the items before it, and the check ends with
the first item that is at fault.
-/

namespace Columnar

variable {α : Type} {check : List α → α → Result Unit} {earlier items : List α}
  {failure : Failure}

/-- A check passes what is good and raises a cause for everything else. -/
structure Decides (checked : Result Unit) (good : Prop) (fault : Cause → Prop) : Prop where
  good_or_fault : good ∨ ∃ cause, fault cause
  passes : good → checked = .ok ()
  raises : ∀ cause, fault cause → checked = .error (.error (.raised cause))

namespace Decides

variable {checked : Result Unit} {good : Prop} {fault : Cause → Prop}

theorem eq_ok_iff (h : Decides checked good fault) : checked = .ok () ↔ good := by
  refine ⟨fun hok => h.good_or_fault.resolve_right ?_, h.passes⟩
  rintro ⟨cause, hfault⟩
  cases hok.symm.trans (h.raises cause hfault)

theorem eq_error_iff (h : Decides checked good fault) :
    checked = .error failure ↔ ∃ cause, fault cause ∧ failure = .error (.raised cause) := by
  constructor
  · intro herror
    obtain hgood | ⟨cause, hfault⟩ := h.good_or_fault
    · cases herror.symm.trans (h.passes hgood)
    · exact ⟨cause, hfault, Except.error.inj (herror.symm.trans (h.raises cause hfault))⟩
  · rintro ⟨cause, hfault, rfl⟩
    exact h.raises cause hfault

end Decides

/-- Checks items that follow the items `earlier`, in order. -/
def checkEach (check : List α → α → Result Unit) (earlier : List α) :
    (items : List α) → Result Unit
  | [] => pure ()
  | item :: rest => do
    check earlier item
    checkEach check (earlier ++ [item]) rest

theorem checkEach_append (earlier before rest : List α) :
    checkEach check earlier (before ++ rest) =
      checkEach check earlier before >>= fun _ => checkEach check (earlier ++ before) rest := by
  induction before generalizing earlier with
  | nil => rw [List.nil_append, List.append_nil, checkEach, pure_eq_ok, ok_bind]
  | cons item before ih =>
    have hsplit : earlier ++ item :: before = earlier ++ [item] ++ before := by simp
    rw [List.cons_append, checkEach, checkEach, ih, hsplit]
    cases check earlier item with
    | ok passed => rw [ok_bind, ok_bind]
    | error cause => rw [error_bind, error_bind, error_bind]

/-- The failure is that of the first item that does not pass after items that do. -/
theorem checkEach_eq_error_iff :
    checkEach check earlier items = .error failure ↔
      ∃ before item after, items = before ++ item :: after ∧
        checkEach check earlier before = .ok () ∧
        check (earlier ++ before) item = .error failure := by
  constructor
  · intro herror
    induction items generalizing earlier with
    | nil => cases herror
    | cons item rest ih =>
      cases hitem : check earlier item with
      | error cause =>
        rw [checkEach, hitem, error_bind] at herror
        refine ⟨[], item, rest, rfl, rfl, ?_⟩
        rw [List.append_nil, hitem, herror]
      | ok passed =>
        rw [checkEach, hitem, ok_bind] at herror
        obtain ⟨before, other, after, rfl, hbefore, hother⟩ := ih herror
        refine ⟨item :: before, other, after, rfl, ?_, ?_⟩
        · rw [checkEach, hitem, ok_bind, hbefore]
        · rwa [List.append_assoc] at hother
  · rintro ⟨before, item, after, rfl, hbefore, hitem⟩
    rw [checkEach_append, hbefore, ok_bind, checkEach, hitem, error_bind]

theorem checkEach_const_eq_ok_iff {check : α → Result Unit} :
    checkEach (fun _ => check) earlier items = .ok () ↔ ∀ item ∈ items, check item = .ok () := by
  induction items generalizing earlier with
  | nil => exact iff_of_true rfl (List.forall_mem_nil _)
  | cons item rest ih =>
    rw [List.forall_mem_cons, checkEach, bind_eq_ok_iff]
    constructor
    · rintro ⟨⟨⟩, hitem, hrest⟩
      exact ⟨hitem, ih.mp hrest⟩
    · rintro ⟨hitem, hrest⟩
      exact ⟨(), hitem, ih.mpr hrest⟩

/-- What is made of a list that passed its check does not fail. -/
theorem bind_pure_eq_error_iff {β γ : Type} {checked : Result β} {made : γ} :
    (checked >>= fun _ => pure made) = .error failure ↔ checked = .error failure := by
  cases checked with
  | ok passed => exact iff_of_false nofun nofun
  | error cause => rw [error_bind, Except.error.injEq, Except.error.injEq]

end Columnar
