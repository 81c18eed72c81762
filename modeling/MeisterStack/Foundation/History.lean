import MeisterStack.Foundation.Program

/-!
# History variables

An observer keeps a value beside the shared state of a program and updates it in every step. No step
reads it. `Dated` does the same for tasks: each one carries what the shared state showed when its
procedure began.
-/

namespace MeisterStack.Foundation

open Option

structure Observer (σ τ ε ι η : Type*) where
  env : σ → ε → η → η
  task : σ → τ → ι → η → η

namespace Program

variable {σ τ ε ι η : Type*} (P : Program σ τ ε ι) (O : Observer σ τ ε ι η)

def observed : Program (σ × η) τ ε ι where
  env s event := (P.env s.1 event).map fun r => ((r.1, O.env s.1 event s.2), r.2)
  task s t input := (P.task s.1 t input).map fun r => ((r.1, O.task s.1 t input s.2), r.2)

variable {P O}

theorem observed_env {s s' event new} (h : (P.observed O).env s event = some (s', new)) :
    P.env s.1 event = some (s'.1, new) ∧ s'.2 = O.env s.1 event s.2 := by
  obtain ⟨⟨state, tasks⟩, hstep, heq⟩ := map_eq_some_iff.mp h
  cases heq
  exact ⟨hstep, rfl⟩

theorem observed_task {s s' t input next} (h : (P.observed O).task s t input = some (s', next)) :
    P.task s.1 t input = some (s'.1, next) ∧ s'.2 = O.task s.1 t input s.2 := by
  obtain ⟨⟨state, tasks⟩, hstep, heq⟩ := map_eq_some_iff.mp h
  cases heq
  exact ⟨hstep, rfl⟩

end Program

structure Dated (τ η : Type*) where
  task : τ
  began : η

namespace Program

variable {σ τ ε ι η : Type*} (P : Program σ τ ε ι) (view : σ → η)

def dated : Program σ (Dated τ η) ε ι where
  env s event := (P.env s event).map fun r => (r.1, r.2.map (⟨·, view s⟩))
  task s t input := (P.task s t.task input).map fun r => (r.1, r.2.map (⟨·, t.began⟩))

variable {P view}

theorem dated_env {s s' event new} (h : (P.dated view).env s event = some (s', new)) :
    ∃ new0, P.env s event = some (s', new0) ∧ new = new0.map (⟨·, view s⟩) := by
  obtain ⟨⟨state, tasks⟩, hstep, heq⟩ := map_eq_some_iff.mp h
  cases heq
  exact ⟨tasks, hstep, rfl⟩

theorem dated_task {s s' t input next} (h : (P.dated view).task s t input = some (s', next)) :
    ∃ next0, P.task s t.task input = some (s', next0) ∧ next = next0.map (⟨·, t.began⟩) := by
  obtain ⟨⟨state, tasks⟩, hstep, heq⟩ := map_eq_some_iff.mp h
  cases heq
  exact ⟨tasks, hstep, rfl⟩

end Program

end MeisterStack.Foundation
