import Mathlib.Data.List.Basic

/-!
# Concurrent programs over a shared state

A program has a shared state and any number of tasks, each the rest of a running procedure. Every
move is atomic: the environment acts, one task takes one step, or a task disappears in a crash.
`Outline` is the proof rule for every interleaving: one assertion about the shared state and one
about each task, which no step of another task invalidates.
-/

namespace MeisterStack.Foundation

open List

structure Program (σ τ ε ι : Type*) where
  env : σ → ε → Option (σ × List τ)
  task : σ → τ → ι → Option (σ × List τ)

inductive Move (ε ι : Type*) where
  | env (event : ε)
  | task (index : Nat) (input : ι)
  | crash (index : Nat)

structure World (σ τ : Type*) where
  shared : σ
  tasks : List τ

structure Guard (σ τ ε ι : Type*) where
  env : σ → ε → Prop
  task : σ → τ → ι → Prop

def Guard.all (σ τ ε ι : Type*) : Guard σ τ ε ι := ⟨fun _ _ => True, fun _ _ _ => True⟩

def Guard.Meets {σ τ ε ι : Type*} (guard : Guard σ τ ε ι) (w : World σ τ) :
    Move ε ι → Prop
  | .env event => guard.env w.shared event
  | .task index input => ∀ t, w.tasks[index]? = some t → guard.task w.shared t input
  | .crash _ => True

namespace Program

variable {σ τ ε ι : Type*} (P : Program σ τ ε ι)

def step (w : World σ τ) : Move ε ι → Option (World σ τ)
  | .env event =>
    match P.env w.shared event with
    | none => none
    | some (s, new) => some ⟨s, w.tasks ++ new⟩
  | .task index input =>
    match w.tasks[index]? with
    | none => none
    | some t =>
      match P.task w.shared t input with
      | none => none
      | some (s, next) =>
        some ⟨s, w.tasks.take index ++ next ++ w.tasks.drop (index + 1)⟩
  | .crash index => some ⟨w.shared, w.tasks.eraseIdx index⟩

def run (w : World σ τ) : List (Move ε ι) → Option (World σ τ)
  | [] => some w
  | m :: ms =>
    match P.step w m with
    | none => none
    | some w' => run w' ms

def RunMeets (guard : Guard σ τ ε ι) (w : World σ τ) : List (Move ε ι) → Prop
  | [] => True
  | m :: ms => guard.Meets w m ∧ ∀ w', P.step w m = some w' → RunMeets guard w' ms

section Decidability

variable (guard : Guard σ τ ε ι) [∀ s event, Decidable (guard.env s event)]
  [∀ s t input, Decidable (guard.task s t input)]

instance (w m) : Decidable (guard.Meets w m) :=
  match m with
  | .env event => inferInstanceAs (Decidable (guard.env w.shared event))
  | .task index input =>
    inferInstanceAs (Decidable (∀ t ∈ w.tasks[index]?, guard.task w.shared t input))
  | .crash _ => inferInstanceAs (Decidable True)

instance decidableRunMeets : ∀ (w : World σ τ) (ms : List (Move ε ι)),
    Decidable (P.RunMeets guard w ms)
  | _, [] => inferInstanceAs (Decidable True)
  | w, m :: ms =>
    have := fun w' => decidableRunMeets w' ms
    inferInstanceAs (Decidable (guard.Meets w m ∧ ∀ w' ∈ P.step w m, P.RunMeets guard w' ms))

end Decidability

variable {w w' : World σ τ} {m : Move ε ι}

theorem step_cases (h : P.step w m = some w') :
    (∃ event new, m = .env event ∧ P.env w.shared event = some (w'.shared, new) ∧
      w'.tasks = w.tasks ++ new) ∨
    (∃ index input t next, m = .task index input ∧ w.tasks[index]? = some t ∧
      P.task w.shared t input = some (w'.shared, next) ∧
      w'.tasks = w.tasks.take index ++ next ++ w.tasks.drop (index + 1)) ∨
    (∃ index, m = .crash index ∧ w'.shared = w.shared ∧
      w'.tasks = w.tasks.eraseIdx index) := by
  cases m with
  | env event =>
    simp only [step] at h
    split at h <;> cases h
    rename_i s new henv
    exact .inl ⟨event, new, rfl, henv, rfl⟩
  | task index input =>
    simp only [step] at h
    split at h
    · cases h
    · rename_i t ht
      split at h <;> cases h
      rename_i s next htask
      exact .inr (.inl ⟨index, input, t, next, rfl, ht, htask, rfl⟩)
  | crash index =>
    simp only [step, Option.some.injEq] at h
    subst h
    exact .inr (.inr ⟨index, rfl, rfl, rfl⟩)

theorem run_cons {w'' ms} (h : P.run w (m :: ms) = some w'') :
    ∃ w', P.step w m = some w' ∧ P.run w' ms = some w'' := by
  simp only [run] at h
  split at h
  · cases h
  · rename_i w' hstep
    exact ⟨w', hstep, h⟩

/--
Owicki--Gries obligations: `shared` is an assertion about the shared state and
`taskOk` one about a task in it. The steps need to be considered only where
they meet the guard.
-/
structure Outline (guard : Guard σ τ ε ι) (shared : σ → Prop)
    (taskOk : σ → τ → Prop) : Prop where
  env : ∀ {s event s' new}, shared s → guard.env s event →
    P.env s event = some (s', new) →
      shared s' ∧ (∀ t ∈ new, taskOk s' t) ∧ ∀ t, taskOk s t → taskOk s' t
  task : ∀ {s t input s' next}, shared s → taskOk s t → guard.task s t input →
    P.task s t input = some (s', next) →
      shared s' ∧ (∀ u ∈ next, taskOk s' u) ∧ ∀ u, taskOk s u → taskOk s' u

variable {P} {guard : Guard σ τ ε ι} {shared : σ → Prop} {taskOk : σ → τ → Prop}

def Holds (shared : σ → Prop) (taskOk : σ → τ → Prop) (w : World σ τ) : Prop :=
  shared w.shared ∧ ∀ t ∈ w.tasks, taskOk w.shared t

theorem Outline.step (outline : P.Outline guard shared taskOk) (hw : Holds shared taskOk w)
    (hm : guard.Meets w m) (h : P.step w m = some w') : Holds shared taskOk w' := by
  obtain ⟨hshared, htasks⟩ := hw
  rcases P.step_cases h with ⟨event, new, rfl, henv, hnew⟩ |
    ⟨index, input, t, next, rfl, ht, htask, hnext⟩ | ⟨index, rfl, hs, herase⟩
  · obtain ⟨hs', hfresh, hkeep⟩ := outline.env hshared hm henv
    refine ⟨hs', fun u hu => ?_⟩
    rw [hnew, mem_append] at hu
    rcases hu with hu | hu
    · exact hkeep u (htasks u hu)
    · exact hfresh u hu
  · have htOk := htasks t (mem_of_getElem? ht)
    obtain ⟨hs', hfresh, hkeep⟩ := outline.task hshared htOk (hm t ht) htask
    refine ⟨hs', fun u hu => ?_⟩
    rw [hnext, mem_append, mem_append] at hu
    rcases hu with (hu | hu) | hu
    · exact hkeep u (htasks u (mem_of_mem_take hu))
    · exact hfresh u hu
    · exact hkeep u (htasks u (mem_of_mem_drop hu))
  · refine ⟨hs ▸ hshared, fun u hu => ?_⟩
    rw [herase] at hu
    rw [hs]
    exact htasks u (mem_of_mem_eraseIdx hu)

theorem Outline.run (outline : P.Outline guard shared taskOk) {ms} (hw : Holds shared taskOk w)
    (hm : P.RunMeets guard w ms) (h : P.run w ms = some w') : Holds shared taskOk w' := by
  induction ms generalizing w with
  | nil =>
    cases h
    exact hw
  | cons m ms ih =>
    obtain ⟨w1, hstep, hrest⟩ := P.run_cons h
    exact ih (outline.step hw hm.1 hstep) (hm.2 w1 hstep) hrest

theorem runMeets_all (w ms) : P.RunMeets (Guard.all σ τ ε ι) w ms := by
  induction ms generalizing w with
  | nil => trivial
  | cons m ms ih =>
    refine ⟨?_, fun w' _ => ih w'⟩
    cases m <;> simp [Guard.Meets, Guard.all]

end Program

end MeisterStack.Foundation
