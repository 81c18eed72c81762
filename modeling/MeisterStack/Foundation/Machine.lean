import Mathlib.Data.List.Induction

/-!
# Machines

A machine is one component that takes events from outside one at a time. `Machine.invariant` is the
rule for runs whose events meet a guard that is read in the state before each event.
-/

namespace MeisterStack.Foundation

structure Machine (σ ε : Type*) where
  step : σ → ε → Option σ

namespace Machine

variable {σ ε : Type*} (M : Machine σ ε)

def run (s : σ) : List ε → Option σ
  | [] => some s
  | e :: es =>
    match M.step s e with
    | none => none
    | some s' => run s' es

def RunMeets (guard : σ → ε → Prop) (s : σ) : List ε → Prop
  | [] => True
  | e :: es => guard s e ∧ ∀ s', M.step s e = some s' → RunMeets guard s' es

instance decidableRunMeets (guard : σ → ε → Prop) [∀ s e, Decidable (guard s e)] :
    ∀ (s : σ) (es : List ε), Decidable (M.RunMeets guard s es)
  | _, [] => inferInstanceAs (Decidable True)
  | s, e :: es =>
    have := fun s' => decidableRunMeets guard s' es
    inferInstanceAs (Decidable (guard s e ∧ ∀ s' ∈ M.step s e, M.RunMeets guard s' es))

variable {s : σ} {es : List ε}

theorem run_cons {s'' e} (h : M.run s (e :: es) = some s'') :
    ∃ s', M.step s e = some s' ∧ M.run s' es = some s'' := by
  simp only [run] at h
  split at h
  · cases h
  · rename_i s' hstep
    exact ⟨s', hstep, h⟩

variable {s' : σ}

theorem run_concat (h : M.run s es = some s') (e : ε) : M.run s (es ++ [e]) = M.step s' e := by
  induction es generalizing s with
  | nil =>
    cases h
    simp only [List.nil_append, run]
    split <;> simp_all
  | cons e' es ih =>
    obtain ⟨s1, hstep, hrest⟩ := M.run_cons h
    simp only [List.cons_append, run, hstep]
    exact ih hrest

theorem run_of_concat {s'' e} (h : M.run s (es ++ [e]) = some s'') :
    ∃ s', M.run s es = some s' ∧ M.step s' e = some s'' := by
  cases hrun : M.run s es with
  | some s' => exact ⟨s', rfl, M.run_concat hrun e ▸ h⟩
  | none =>
    exfalso
    induction es generalizing s with
    | nil => cases hrun
    | cons e' es ih =>
      obtain ⟨s1, hstep, hrest⟩ := M.run_cons h
      simp only [run, hstep] at hrun
      exact ih hrest hrun

variable {M} {guard : σ → ε → Prop} {holds : σ → Prop}

theorem invariant (keeps : ∀ {s e s'}, holds s → guard s e → M.step s e = some s' → holds s')
    (hs : holds s) (hm : M.RunMeets guard s es) (h : M.run s es = some s') : holds s' := by
  induction es generalizing s with
  | nil =>
    cases h
    exact hs
  | cons e es ih =>
    obtain ⟨s1, hstep, hrest⟩ := M.run_cons h
    exact ih (keeps hs hm.1 hstep) (hm.2 s1 hstep) hrest

theorem always (keeps : ∀ {s e s'}, holds s → M.step s e = some s' → holds s')
    (hs : holds s) (h : M.run s es = some s') : holds s' := by
  have hm : ∀ (s : σ) (es : List ε), M.RunMeets (fun _ _ => True) s es := by
    intro s es
    induction es generalizing s with
    | nil => trivial
    | cons e es ih => exact ⟨trivial, fun s' _ => ih s'⟩
  exact invariant (fun hs _ => keeps hs) hs (hm s es) h

theorem traced {traces : List ε → σ → Prop} (hs : traces [] s)
    (keeps : ∀ {es s1 e s2}, M.run s es = some s1 → traces es s1 → M.step s1 e = some s2 →
      traces (es ++ [e]) s2)
    (h : M.run s es = some s') : traces es s' := by
  induction es using List.reverseRecOn generalizing s' with
  | nil =>
    cases h
    exact hs
  | append_singleton es e ih =>
    obtain ⟨s1, hrun, hstep⟩ := M.run_of_concat h
    exact keeps hrun (ih hrun) hstep

end Machine

end MeisterStack.Foundation
