import MeisterStack.Foundation.Revision

/-!
# Deletes that remove the object that was judged

`finish_delete` removes an object by the revision it was judged at. After a conflict it reads again
and asks the verdict of what it read; it gives up on another uid or after eight attempts.
-/

namespace MeisterStack.ControllerApi

open Foundation

def finishDeleteAttempts : Nat := 8

structure Deletion (α : Type*) where
  checked : Versioned α
  current : Cell α
  left : Nat

def Deletion.of {α : Type*} (checked : Versioned α) : Deletion α :=
  ⟨checked, some checked, finishDeleteAttempts⟩

inductive DeleteOutcome (α : Type*) where
  | ended
  | removed
  | again (d : Deletion α)

variable {α : Type*}

def finishDelete (uid : α → String) (concluded : α → Bool) (cell : Cell α)
    (d : Deletion α) : DeleteOutcome α :=
  match d.current with
  | some current =>
    if d.left = 0 || !concluded current.val then .ended
    else if cell.standsAt current.rev then .removed
    else .again { d with current := none, left := d.left - 1 }
  | none =>
    match cell with
    | some fresh =>
      if uid fresh.val = uid d.checked.val then .again { d with current := some fresh }
      else .ended
    | none => .ended

variable {uid : α → String} {concluded : α → Bool} {cell : Cell α} {d d' : Deletion α}

theorem finishDelete_removed (h : finishDelete uid concluded cell d = .removed) :
    ∃ current, d.current = some current ∧ concluded current.val ∧ cell.standsAt current.rev := by
  unfold finishDelete at h
  split at h
  · rename_i current hcurrent
    split at h
    · cases h
    · rename_i hgo
      simp only [Bool.or_eq_true, Bool.not_eq_true', not_or, Bool.not_eq_false] at hgo
      split at h
      · exact ⟨current, hcurrent, hgo.2, by assumption⟩
      · cases h
  · split at h
    · split at h <;> cases h
    · cases h

theorem finishDelete_again (h : finishDelete uid concluded cell d = .again d') :
    d'.checked = d.checked ∧ ∀ v, d'.current = some v → cell = some v := by
  unfold finishDelete at h
  split at h
  · split at h
    · cases h
    · split at h <;> cases h
      exact ⟨rfl, fun v hv => by cases hv⟩
  · split at h
    · split at h <;> cases h
      exact ⟨rfl, fun v hv => hv⟩
    · cases h

def Deletion.Judges (uid : α → String) (cell : Cell α) (next : Nat) (d : Deletion α) : Prop :=
  ∀ v, d.current = some v → cell.Saw next v ∧ uid v.val = uid d.checked.val

variable {next : Nat}

theorem Deletion.judges_of {v} (h : cell.Saw next v) : (Deletion.of v).Judges uid cell next := by
  rintro w ⟨⟩
  exact ⟨h, rfl⟩

theorem Deletion.Judges.keep {cell' next'} (hd : d.Judges uid cell next)
    (hsaw : ∀ v, cell.Saw next v → cell'.Saw next' v) : d.Judges uid cell' next' :=
  fun v hv => ⟨hsaw v (hd v hv).1, (hd v hv).2⟩

theorem Deletion.judges_again (hcell : cell.Below next)
    (h : finishDelete uid concluded cell d = .again d') : d'.Judges uid cell next := by
  obtain ⟨hchecked, hfresh⟩ := finishDelete_again h
  intro v hv
  refine ⟨hcell.saw (hfresh v hv), ?_⟩
  rw [hchecked]
  unfold finishDelete at h
  split at h
  · split at h
    · cases h
    · split at h <;> cases h
      cases hv
  · split at h
    · split at h <;> cases h
      cases hv
      assumption
    · cases h

theorem Deletion.Judges.removed (hd : d.Judges uid cell next)
    (h : finishDelete uid concluded cell d = .removed) {v} (hv : cell = some v) :
    uid v.val = uid d.checked.val ∧ concluded v.val := by
  obtain ⟨current, hcurrent, hconcluded, hstands⟩ := finishDelete_removed h
  obtain ⟨hsaw, huid⟩ := hd current hcurrent
  have hcell := hsaw.eq_of_standsAt hstands
  rw [hv] at hcell
  cases hcell
  exact ⟨huid, hconcluded⟩

end MeisterStack.ControllerApi
