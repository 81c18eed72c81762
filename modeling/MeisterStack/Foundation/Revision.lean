import Mathlib.Data.List.AList
import Mathlib.Algebra.Order.BigOperators.Group.List
import Mathlib.Tactic.Linarith

/-!
# Linearizable stores with revisions

Every write of the store takes the next revision, and the key it writes carries that revision until
it is written again. `Cell.Saw` says that a versioned value was the content of a cell at some
earlier moment; `Cell.Saw.eq_of_standsAt` is the reason a compare-and-swap is an atomic
read-modify-write.
-/

namespace MeisterStack.Foundation

open List AList Nat Function

structure Versioned (α : Type*) where
  rev : Nat
  val : α
  deriving DecidableEq

abbrev Cell (α : Type*) := Option (Versioned α)

namespace Cell

variable {α : Type*}

def standsAt : Cell α → Nat → Bool
  | none, _ => false
  | some v, rev => v.rev == rev

variable (c : Cell α)

def revision : Nat := c.elim 0 Versioned.rev

def Below (next : Nat) : Prop := ∀ v, c = some v → v.rev < next

def Saw (next : Nat) (v : Versioned α) : Prop :=
  v.rev < next ∧ ∀ w, c = some w → w.rev = v.rev → w = v

variable {c : Cell α} {rev : Nat}

theorem standsAt_iff : c.standsAt rev ↔ ∃ v, c = some v ∧ v.rev = rev := by
  cases c with
  | none | some => simp [standsAt]

@[simp] theorem below_none (next) : Below (none : Cell α) next := by
  intro v h
  cases h

variable {v : Versioned α} {next : Nat}

theorem below_some (h : v.rev < next) : Below (some v : Cell α) next := by
  rintro w ⟨⟩
  exact h

variable {next' : Nat}

theorem Below.mono (h : c.Below next) (hle : next ≤ next') : c.Below next' :=
  fun v hv => (h v hv).trans_le hle

theorem Below.saw (h : c.Below next) (hv : c = some v) : c.Saw next v := by
  refine ⟨h v hv, fun w hw _ => ?_⟩
  rw [hv] at hw
  exact (Option.some.inj hw).symm

theorem Saw.write (h : c.Saw next v) (x : α) : Saw (some ⟨next, x⟩) (next + 1) v := by
  refine ⟨h.1.trans (lt_succ_self next), fun w hw hrev => ?_⟩
  cases hw
  exact absurd hrev h.1.ne'

theorem Saw.gone (h : c.Saw next v) (hle : next ≤ next') : Saw (none : Cell α) next' v :=
  ⟨h.1.trans_le hle, by rintro w ⟨⟩⟩

theorem Saw.mono (h : c.Saw next v) (hle : next ≤ next') : c.Saw next' v :=
  ⟨h.1.trans_le hle, h.2⟩

theorem Saw.eq_of_standsAt (h : c.Saw next v) (hs : c.standsAt v.rev) : c = some v := by
  obtain ⟨w, rfl, hrev⟩ := standsAt_iff.mp hs
  exact congrArg some (h.2 w rfl hrev)

theorem standsAt_of_stood {c' : Cell α} (hrev : rev < next)
    (hstood : ∀ v, c' = some v → v.rev < next → c = some v) (hs : c'.standsAt rev) :
    c.standsAt rev ∧ c' = c := by
  obtain ⟨v, rfl, rfl⟩ := standsAt_iff.mp hs
  have hv := hstood v rfl hrev
  exact ⟨standsAt_iff.mpr ⟨v, hv, rfl⟩, hv.symm⟩

def Pinned (c : Cell α) (next rev : Nat) (read : Versioned α) : Prop :=
  rev < next ∧ (c.standsAt rev → c = some read)

theorem Pinned.keep {c' : Cell α} {read} (h : c.Pinned next rev read) (hle : next ≤ next')
    (hstood : ∀ v, c' = some v → v.rev < next → c = some v) : c'.Pinned next' rev read := by
  refine ⟨h.1.trans_le hle, fun hs => ?_⟩
  obtain ⟨hs, rfl⟩ := standsAt_of_stood h.1 hstood hs
  exact h.2 hs

end Cell

structure Slot (α : Type*) where
  next : Nat
  cell : Cell α

namespace Slot

variable {α : Type*} (s : Slot α)

def write (x : α) : Slot α := ⟨s.next + 1, some ⟨s.next, x⟩⟩

def remove : Slot α := ⟨s.next + 1, none⟩

def mutate (edit : α → α) : Slot α :=
  match s.cell with
  | some v => s.write (edit v.val)
  | none => s

def Follows (s s' : Slot α) : Prop :=
  (s.cell.Below s.next → s'.cell.Below s'.next) ∧
    ∀ v, s.cell.Saw s.next v → s'.cell.Saw s'.next v

theorem Follows.refl : Follows s s := ⟨id, fun _ => id⟩

theorem follows_write (s) (x : α) : Follows s (s.write x) :=
  ⟨fun _ => Cell.below_some (lt_succ_self _), fun _ h => h.write _⟩

theorem follows_remove : Follows s s.remove :=
  ⟨fun _ => Cell.below_none _, fun _ h => h.gone (le_succ _)⟩

theorem mutate_of_some {s : Slot α} {v} (h : s.cell = some v) (edit : α → α) :
    s.mutate edit = s.write (edit v.val) := by
  simp [mutate, h]

theorem mutate_of_none {s : Slot α} (h : s.cell = none) (edit : α → α) : s.mutate edit = s := by
  simp [mutate, h]

end Slot

abbrev Table (κ α : Type*) := AList fun _ : κ => Versioned α

namespace Table

variable {κ α : Type*} [DecidableEq κ] (t : Table κ α) (k : κ)

def cell : Cell α := t.lookup k

def put (rev : Nat) (x : α) : Table κ α :=
  t.insert k ⟨rev, x⟩

def remove : Table κ α := t.erase k

def list : List (κ × Versioned α) := t.entries.map fun e => (e.1, e.2)

private theorem entries_remove :
    (t.remove k).entries = t.entries.kerase k := rfl

@[simp] theorem cell_put_self (rev) (x : α) :
    (t.put k rev x).cell k = some ⟨rev, x⟩ :=
  lookup_insert t

variable {k k' : κ}

theorem cell_put_ne (h : k' ≠ k) (rev) (x : α) :
    (t.put k rev x).cell k' = t.cell k' :=
  lookup_insert_ne h

@[simp] theorem cell_remove_self (k : κ) : (t.remove k).cell k = none :=
  lookup_erase k t

theorem cell_remove_ne (h : k' ≠ k) : (t.remove k).cell k' = t.cell k' :=
  lookup_erase_ne h

variable {t : Table κ α} {v : Versioned α}

theorem mem_list : (k, v) ∈ t.list ↔ t.cell k = some v := by
  rw [list, List.mem_map]
  constructor
  · rintro ⟨⟨k', v'⟩, hmem, heq⟩
    cases heq
    exact mem_lookup_iff.mpr hmem
  · intro h
    exact ⟨⟨k, v⟩, mem_lookup_iff.mp h, rfl⟩

omit [DecidableEq κ] in
theorem nodup_list (t : Table κ α) : (t.list.map Prod.fst).Nodup := by
  rw [list, map_map]
  exact t.nodupKeys

def Below (t : Table κ α) (next : Nat) : Prop := ∀ k, (t.cell k).Below next

variable {next : Nat}

theorem Below.put (h : t.Below next) (k : κ) (x : α) : (t.put k next x).Below (next + 1) := by
  intro k'
  by_cases hk : k' = k
  · subst hk
    rw [cell_put_self]
    exact Cell.below_some (lt_succ_self next)
  · rw [cell_put_ne t hk]
    exact (h k').mono (le_succ next)

theorem Below.remove (h : t.Below next) (k : κ) : (t.remove k).Below next := by
  intro k'
  by_cases hk : k' = k
  · subst hk
    rw [cell_remove_self]
    exact Cell.below_none next
  · rw [cell_remove_ne t hk]
    exact h k'

theorem Below.mono {next'} (h : t.Below next) (hle : next ≤ next') : t.Below next' :=
  fun k => (h k).mono hle

variable {x : α}

theorem cell_put_cases {rev} (h : (t.put k rev x).cell k' = some v) :
    k' = k ∧ v = ⟨rev, x⟩ ∨ k' ≠ k ∧ t.cell k' = some v := by
  by_cases hk : k' = k
  · subst hk
    rw [cell_put_self] at h
    cases h
    exact .inl ⟨rfl, rfl⟩
  · rw [cell_put_ne t hk] at h
    exact .inr ⟨hk, h⟩

theorem cell_of_put_none {rev} (h : (t.put k rev x).cell k' = none) : t.cell k' = none := by
  by_cases hk : k' = k
  · subst hk
    rw [cell_put_self] at h
    cases h
  · rwa [cell_put_ne t hk] at h

theorem cell_of_put (h : (t.put k next x).cell k' = some v) (hv : v.rev < next) :
    k' ≠ k ∧ t.cell k' = some v := by
  rcases cell_put_cases h with ⟨-, rfl⟩ | hold
  · exact absurd hv (lt_irrefl next)
  · exact hold

theorem cell_of_remove (h : (t.remove k).cell k' = some v) : k' ≠ k ∧ t.cell k' = some v := by
  by_cases hk : k' = k
  · subst hk
    rw [cell_remove_self] at h
    cases h
  · rw [cell_remove_ne t hk] at h
    exact ⟨hk, h⟩

theorem saw_put (h : (t.cell k').Saw next v) (x : α) :
    ((t.put k next x).cell k').Saw (next + 1) v := by
  by_cases hk : k' = k
  · subst hk
    rw [cell_put_self]
    exact h.write x
  · rw [cell_put_ne t hk]
    exact h.mono (le_succ next)

theorem saw_remove (h : (t.cell k').Saw next v) : ((t.remove k).cell k').Saw next v := by
  by_cases hk : k' = k
  · subst hk
    rw [cell_remove_self]
    exact h.gone le_rfl
  · rw [cell_remove_ne t hk]
    exact h

def total (f : κ → Versioned α → Nat) (t : Table κ α) : Nat :=
  (t.list.map fun e => f e.1 e.2).sum

variable (f : κ → Versioned α → Nat)

include f

theorem total_put_of_none (h : t.cell k = none) (rev) (x : α) :
    (t.put k rev x).total f = f k ⟨rev, x⟩ + t.total f := by
  have hk : k ∉ t.entries.keys := lookup_eq_none.mp h
  simp [total, list, put, kerase_of_notMem_keys hk]

theorem total_remove (h : t.cell k = some v) :
    t.total f = f k v + (t.remove k).total f := by
  have hmem : (⟨k, v⟩ : Sigma fun _ : κ => Versioned α) ∈ t.entries :=
    mem_lookup_iff.mp h
  obtain ⟨v', l1, l2, hl1, hentries, herase⟩ :=
    exists_of_kerase (mem_keys_of_mem hmem)
  have hv : v' = v := by
    have hin : (⟨k, v'⟩ : Sigma fun _ : κ => Versioned α) ∈ t.entries := by
      rw [hentries]
      simp
    have hlookup : t.lookup k = some v' := mem_lookup_iff.mpr hin
    exact Option.some.inj (hlookup.symm.trans h)
  subst hv
  have hsplit : t.total f =
      ((l1 ++ ⟨k, v'⟩ :: l2).map fun e => f e.1 e.2).sum := by
    simp [total, list, hentries, comp_def]
  have hrest : (t.remove k).total f = ((l1 ++ l2).map fun e => f e.1 e.2).sum := by
    simp [total, list, entries_remove, herase, comp_def]
  rw [hsplit, hrest]
  simp only [map_append, map_cons, sum_append, sum_cons]
  omega

theorem total_split (t : Table κ α) (k : κ) :
    t.total f = (t.cell k).elim 0 (f k) + (t.remove k).total f := by
  cases hk : t.cell k with
  | none =>
    have hkeys : k ∉ t.entries.keys := lookup_eq_none.mp hk
    simp [total, list, entries_remove, kerase_of_notMem_keys hkeys]
  | some => simpa using total_remove f hk

theorem total_put (t : Table κ α) (k : κ) (rev) (x : α) :
    (t.put k rev x).total f = f k ⟨rev, x⟩ + (t.remove k).total f := by
  rw [total_remove f (cell_put_self t k rev x)]
  congr 1
  simp [total, list, put, entries_remove, AList.insert, List.kinsert, kerase_cons_eq]

omit f

theorem total_le_total {f g} (h : ∀ k v, t.cell k = some v → f k v ≤ g k v) :
    t.total f ≤ t.total g := by
  apply sum_le_sum
  rintro ⟨k, v⟩ hmem
  exact h k v (mem_list.mp hmem)

theorem total_congr {f g} (h : ∀ k v, t.cell k = some v → f k v = g k v) : t.total f = t.total g :=
  le_antisymm (total_le_total fun k v hv => (h k v hv).le)
    (total_le_total fun k v hv => (h k v hv).ge)

end Table

end MeisterStack.Foundation
