import MeisterStack.Foundation.History

/-!
# Clearing an assignment on an older reading

A shared state assigns at most one thing at a time, and tasks that read the assignment clear it
later, unconditionally. What stands at any moment was read by the task or assigned since
(`Assignment.Covers`): where nothing else was assigned since, the task clears what it read.
-/

namespace MeisterStack.Foundation

open List Program

structure Assignment (α : Type*) where
  now : Option α
  made : List α

structure Reading (α : Type*) where
  value : Option α
  made : Nat

namespace Assignment

variable {α : Type*} (a : Assignment α)

def read : Reading α := ⟨a.now, a.made.length⟩

def since (r : Reading α) : List α := a.made.take (a.made.length - r.made)

inductive Next (a : Assignment α) : Assignment α → Prop
  | kept : Next a a
  | cleared : Next a ⟨none, a.made⟩
  | assigned (x : α) : Next a ⟨some x, x :: a.made⟩

structure Covers (a : Assignment α) (r : Reading α) : Prop where
  past : r.made ≤ a.made.length
  known : ∀ x, a.now = some x → r.value = some x ∨ x ∈ a.since r

theorem covers_read : a.Covers a.read :=
  ⟨Nat.le_refl _, fun _ hx => .inl hx⟩

theorem Covers.next {a a' : Assignment α} {r} (h : a.Covers r) (hnext : a.Next a') :
    a'.Covers r := by
  cases hnext with
  | kept => exact h
  | cleared => exact ⟨h.past, by rintro x ⟨⟩⟩
  | assigned x =>
    refine ⟨Nat.le_succ_of_le h.past, ?_⟩
    rintro y ⟨⟩
    have hlen : (x :: a.made).length - r.made = (a.made.length - r.made) + 1 :=
      Nat.succ_sub h.past
    refine .inr ?_
    rw [since, hlen, take_succ_cons]
    exact mem_cons_self

end Assignment

structure Clearing (σ τ ε ι α : Type*) where
  program : Program σ τ ε ι
  assignment : σ → Assignment α
  target : Dated τ (Reading α) → Option α

namespace Clearing

variable {σ τ ε ι α : Type*} (C : Clearing σ τ ε ι α)

def dated : Program σ (Dated τ (Reading α)) ε ι :=
  C.program.dated fun s => (C.assignment s).read

def undisturbed : Guard σ (Dated τ (Reading α)) ε ι where
  env _ _ := True
  task s t _ := ∀ x ∈ C.target t, (C.assignment s).now.isSome →
    ∀ y ∈ (C.assignment s).since t.began, y = x

instance (s : σ) (event : ε) : Decidable (C.undisturbed.env s event) :=
  inferInstanceAs (Decidable True)

instance [DecidableEq α] (s : σ) (t) (input : ι) : Decidable (C.undisturbed.task s t input) :=
  inferInstanceAs (Decidable (∀ x ∈ C.target t, (C.assignment s).now.isSome →
    ∀ y ∈ (C.assignment s).since t.began, y = x))

def ClearsOwn (w : World σ (Dated τ (Reading α))) (m : Move ε ι) : Prop :=
  ∀ index input t x w', m = .task index input → w.tasks[index]? = some t →
    C.target t = some x → C.dated.step w m = some w' →
      ∀ y, (C.assignment w.shared).now = some y → (C.assignment w'.shared).now = none → y = x

structure Sound (ok : Reading α → τ → Prop) : Prop where
  env : ∀ {s event s' new}, C.program.env s event = some (s', new) →
    (C.assignment s).Next (C.assignment s') ∧ ∀ t ∈ new, ok (C.assignment s).read t
  task : ∀ {s t input s' next r}, ok r t → C.program.task s t input = some (s', next) →
    (C.assignment s).Next (C.assignment s') ∧ ∀ u ∈ next, ok r u
  target : ∀ {t r x}, ok r t → C.target ⟨t, r⟩ = some x → r.value = some x

variable {C} {ok : Reading α → τ → Prop}

theorem Sound.outline (h : C.Sound ok) :
    C.dated.Outline (Guard.all _ _ _ _) (fun _ => True)
      (fun s t => (C.assignment s).Covers t.began ∧ ok t.began t.task) where
  env := by
    intro s event s' new _ _ hstep
    obtain ⟨new0, hstep0, rfl⟩ := dated_env hstep
    obtain ⟨hnext, hok⟩ := h.env hstep0
    refine ⟨trivial, fun t ht => ?_, fun t ht => ⟨ht.1.next hnext, ht.2⟩⟩
    obtain ⟨t0, ht0, rfl⟩ := mem_map.mp ht
    exact ⟨(Assignment.covers_read _).next hnext, hok t0 ht0⟩
  task := by
    intro s t input s' next _ ht _ hstep
    obtain ⟨next0, hstep0, rfl⟩ := dated_task hstep
    obtain ⟨hnext, hok⟩ := h.task ht.2 hstep0
    refine ⟨trivial, fun u hu => ?_, fun u hu => ⟨hu.1.next hnext, hu.2⟩⟩
    obtain ⟨u0, hu0, rfl⟩ := mem_map.mp hu
    exact ⟨ht.1.next hnext, hok u0 hu0⟩

theorem Sound.clearsOwn (h : C.Sound ok) {s ms w} (hrun : C.dated.run ⟨s, []⟩ ms = some w) {m}
    (hm : C.undisturbed.Meets w m) : C.ClearsOwn w m := by
  intro index input t x w' hmove ht htarget _ y hy _
  subst hmove
  have hall := h.outline.run ⟨trivial, by simp⟩ (runMeets_all _ ms) hrun
  obtain ⟨hcovers, hok⟩ := hall.2 t (mem_of_getElem? ht)
  rcases hcovers.known y hy with hread | hsince
  · exact Option.some.inj (hread.symm.trans (h.target hok htarget))
  · exact hm t ht x htarget (by simp [hy]) y hsince

end Clearing

end MeisterStack.Foundation
