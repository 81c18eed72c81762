import Mathlib.Data.Finset.Max
import Mathlib.Algebra.Order.BigOperators.Group.Finset

/-!
# Saturating natural numbers

Naturals up to a maximum, with the addition and subtraction that stop at the
ends instead of wrapping. `add_le_of_le_sub_sub` says when a saturating
comparison of a positive amount speaks about the true sums.
-/

namespace MeisterStack.Foundation

open Finset

structure Sat (max : Nat) where
  val : Nat
  le_max : val ≤ max
  deriving DecidableEq

namespace Sat

variable {max : Nat}

def zero : Sat max := ⟨0, Nat.zero_le max⟩

def clamp (n : Nat) : Sat max := ⟨min n max, Nat.min_le_right n max⟩

variable (a b : Sat max)

def add : Sat max := clamp (a.val + b.val)

def sub : Sat max :=
  ⟨a.val - b.val, (Nat.sub_le _ _).trans a.le_max⟩

@[simp] theorem zero_val : (zero : Sat max).val = 0 := rfl

@[simp] theorem add_val : (a.add b).val = min (a.val + b.val) max := rfl

/--
A positive amount that fits in what two saturating subtractions leave also
fits beside the true sums: a sum that had saturated would have left nothing.
-/
theorem add_le_of_le_sub_sub {size allowed used ahead} (hsize : 0 < size) (hallowed : allowed ≤ max)
    (hfits : size ≤ allowed - min used max - min ahead max) : used + ahead + size ≤ allowed := by
  omega

end Sat

/-- Where each of those that hold fits together with all before it, they fit together. -/
theorem sum_le_of_queue {α κ : Type*} [LinearOrder κ] {size : α → Nat} {room : Nat} {s : Finset α}
    (key : α → κ) (all : Finset α) (hsub : s ⊆ all)
    (hkey : ∀ x ∈ all, ∀ y ∈ all, key x = key y → x = y)
    (hfits : ∀ x ∈ s, 0 < size x → ∑ y ∈ all with key y < key x, size y + size x ≤ room) :
    ∑ x ∈ s, size x ≤ room := by
  classical
  by_cases hpos : ({x ∈ s | 0 < size x}).Nonempty
  · obtain ⟨last, hlast, hmax⟩ := exists_max_image _ key hpos
    obtain ⟨hmem, hsize⟩ := mem_filter.mp hlast
    have hnot : last ∉ ({y ∈ all | key y < key last}) := by simp
    calc ∑ x ∈ s, size x ≤ ∑ x ∈ insert last ({y ∈ all | key y < key last}), size x := by
          refine sum_le_sum_of_ne_zero fun x hx hne => ?_
          have hle := hmax x (mem_filter.mpr ⟨hx, Nat.pos_of_ne_zero hne⟩)
          rcases hle.lt_or_eq with hlt | heq
          · exact mem_insert_of_mem (mem_filter.mpr ⟨hsub hx, hlt⟩)
          · rw [hkey x (hsub hx) last (hsub hmem) heq]
            exact mem_insert_self _ _
      _ ≤ room := by
          rw [sum_insert hnot, Nat.add_comm]
          exact hfits last hmem hsize
  · have hzero : ∀ x ∈ s, size x = 0 := fun x hx =>
      Nat.eq_zero_of_not_pos fun h => hpos ⟨x, mem_filter.mpr ⟨hx, h⟩⟩
    simp [sum_eq_zero hzero]

end MeisterStack.Foundation
