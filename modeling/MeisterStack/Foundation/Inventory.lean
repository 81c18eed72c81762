import Mathlib.Data.List.Forall2

/-!
# Decisions over an inventory with unreadable entries

An inventory lists entries, some of which cannot be read. `may a b` says that the entry `a` may in
truth be `b`. A decision fails closed where it allows nothing that a truth behind the inventory
would forbid.
-/

namespace MeisterStack.Foundation.Inventory

variable {α : Type*} (may : α → α → Prop)

def FailsClosed (allows : List α → Prop) : Prop :=
  ∀ entries truth, List.Forall₂ may entries truth → allows entries → allows truth

variable {may} {allows allows' : List α → Prop}

theorem FailsClosed.congr (h : FailsClosed may allows)
    (hiff : ∀ entries, allows' entries ↔ allows entries) : FailsClosed may allows' := by
  intro entries truth hmay hallows
  exact (hiff truth).mpr (h entries truth hmay ((hiff entries).mp hallows))

theorem failsClosed_all {clear : α → Prop} (h : ∀ a b, may a b → clear a → clear b) :
    FailsClosed may fun entries => ∀ a ∈ entries, clear a := by
  intro entries truth hmay
  induction hmay with
  | nil => simp
  | cons hab _ ih =>
    intro hclear
    simp only [List.forall_mem_cons] at hclear ⊢
    exact ⟨h _ _ hab hclear.1, ih hclear.2⟩

end MeisterStack.Foundation.Inventory
