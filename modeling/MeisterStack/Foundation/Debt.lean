import MeisterStack.Foundation.Program

/-!
# Debts that running tasks settle

A write may leave the shared state in need of a repair by a task that is still running. `Owes` says
what is to be repaired and `Covers` which task will. A step may leave a debt that some task covers;
where no task is lost in a crash, a state without tasks owes nothing.
-/

namespace MeisterStack.Foundation

open List

namespace Program

variable {σ τ ε ι δ : Type*} (P : Program σ τ ε ι) (guard : Guard σ τ ε ι)

def CarriedOver (taskOk : σ → τ → Prop) (owes : σ → δ → Prop) (covers : τ → δ → Prop)
    (released : τ → Prop) (s : σ) (d : δ) : Prop :=
  ∃ d0, owes s d0 ∧ (∀ t, released t → ¬covers t d0) ∧
    ∀ u, taskOk s u → covers u d0 → covers u d

structure DebtOutline (shared : σ → Prop) (taskOk : σ → τ → Prop) (owes : σ → δ → Prop)
    (covers : τ → δ → Prop) : Prop where
  outline : P.Outline guard shared taskOk
  env : ∀ {s event s' new}, shared s → guard.env s event → P.env s event = some (s', new) →
    ∀ d, owes s' d → CarriedOver taskOk owes covers (fun _ => False) s d
  task : ∀ {s t input s' next}, shared s → taskOk s t → guard.task s t input →
    P.task s t input = some (s', next) → ∀ d, owes s' d →
      (∃ u ∈ next, covers u d) ∨ CarriedOver taskOk owes covers (· = t) s d

def Covered (owes : σ → δ → Prop) (covers : τ → δ → Prop) (w : World σ τ) : Prop :=
  ∀ d, owes w.shared d → ∃ t ∈ w.tasks, covers t d

variable {P guard} {shared : σ → Prop} {taskOk : σ → τ → Prop} {owes : σ → δ → Prop}
  {covers : τ → δ → Prop}

theorem mem_take_or_drop {tasks : List τ} {index t u} (ht : tasks[index]? = some t) (hu : u ∈ tasks)
    (hne : u ≠ t) : u ∈ tasks.take index ∨ u ∈ tasks.drop (index + 1) := by
  obtain ⟨j, hj⟩ := mem_iff_getElem?.mp hu
  rcases Nat.lt_trichotomy j index with hlt | heq | hgt
  · left
    apply mem_of_getElem? (i := j)
    rw [List.getElem?_take_of_lt hlt, hj]
  · subst heq
    exact absurd (Option.some.inj (hj.symm.trans ht)) hne
  · right
    apply mem_of_getElem? (i := j - (index + 1))
    rw [List.getElem?_drop, ← hj]
    congr 1
    omega

variable {w : World σ τ} (outline : P.DebtOutline guard shared taskOk owes covers)

include outline

theorem DebtOutline.step {w' m} (hw : Holds shared taskOk w) (hcovered : Covered owes covers w)
    (hm : guard.Meets w m) (hcrash : ∀ index, m ≠ .crash index) (h : P.step w m = some w') :
    Covered owes covers w' := by
  intro d hd
  rcases P.step_cases h with ⟨event, new, rfl, henv, hnew⟩ |
    ⟨index, input, t, next, rfl, ht, htask, hnext⟩ | ⟨index, rfl, -, -⟩
  · obtain ⟨d0, hd0, -, hkeep⟩ := outline.env hw.1 hm henv d hd
    obtain ⟨u, hu, hcovers⟩ := hcovered d0 hd0
    refine ⟨u, ?_, hkeep u (hw.2 u hu) hcovers⟩
    rw [hnew]
    exact mem_append_left _ hu
  · have htOk := hw.2 t (mem_of_getElem? ht)
    rw [hnext]
    rcases outline.task hw.1 htOk (hm t ht) htask d hd with
      ⟨u, hu, hcovers⟩ | ⟨d0, hd0, hreleased, hkeep⟩
    · exact ⟨u, by simp [hu], hcovers⟩
    · obtain ⟨u, hu, hcovers⟩ := hcovered d0 hd0
      have hne : u ≠ t := by
        rintro rfl
        exact hreleased u rfl hcovers
      refine ⟨u, ?_, hkeep u (hw.2 u hu) hcovers⟩
      rcases mem_take_or_drop ht hu hne with hu | hu <;> simp [hu]
  · exact absurd rfl (hcrash index)

theorem DebtOutline.run {ms w'} (hw : Holds shared taskOk w) (hcovered : Covered owes covers w)
    (hm : P.RunMeets guard w ms) (hcrash : ∀ index, .crash index ∉ ms) (h : P.run w ms = some w') :
    Covered owes covers w' := by
  induction ms generalizing w with
  | nil =>
    cases h
    exact hcovered
  | cons m ms ih =>
    obtain ⟨w1, hstep, hrest⟩ := P.run_cons h
    have hfirst : ∀ index, m ≠ .crash index := by
      rintro index rfl
      exact hcrash index mem_cons_self
    exact ih (outline.outline.step hw hm.1 hstep)
      (outline.step hw hcovered hm.1 hfirst hstep) (hm.2 w1 hstep)
      (fun index hin => hcrash index (mem_cons_of_mem _ hin)) hrest

theorem DebtOutline.settled {ms s} (hs : shared s) (howes : ∀ d, ¬owes s d)
    (hm : P.RunMeets guard ⟨s, []⟩ ms) (hcrash : ∀ index, .crash index ∉ ms)
    (h : P.run ⟨s, []⟩ ms = some w) (hdone : w.tasks = []) (d : δ) : ¬owes w.shared d := by
  intro hd
  have hcovered := outline.run ⟨hs, by simp⟩ (fun d hd => absurd hd (howes d)) hm hcrash h
  obtain ⟨t, ht, -⟩ := hcovered d hd
  rw [hdone] at ht
  cases ht

end Program

end MeisterStack.Foundation
