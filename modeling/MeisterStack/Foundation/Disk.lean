import Mathlib.Logic.Function.Basic

/-!
# Directories and open files

A directory links names to files. A file lives on while somebody has it open, whatever happens to
its name, so writes go to the file and not to the name.
-/

namespace MeisterStack.Foundation

open Function

structure Disk (ν β : Type*) where
  entry : ν → Option Nat
  files : Nat → β
  next : Nat
  below : ∀ {name file}, entry name = some file → file < next
  unique : ∀ {name name' file}, entry name = some file → entry name' = some file → name = name'

namespace Disk

variable {ν β : Type*} (d : Disk ν β)

def edit (file : Nat) (change : β → β) : Disk ν β :=
  { d with files := update d.files file (change (d.files file)) }

variable {file : Nat}

theorem edit_files_of_ne {other} (h : other ≠ file) (change : β → β) :
    (d.edit file change).files other = d.files other :=
  update_of_ne h _ _

def extend (content : β) : Disk ν β where
  entry := d.entry
  files := update d.files d.next content
  next := d.next + 1
  below := fun h => Nat.lt_succ_of_lt (d.below h)
  unique := d.unique

theorem entry_ne_next (name : ν) : d.entry name ≠ some d.next :=
  fun h => Nat.lt_irrefl _ (d.below h)

variable [DecidableEq ν]

def unlink (name : ν) : Disk ν β where
  entry := fun other => if other = name then none else d.entry other
  files := d.files
  next := d.next
  below := by
    intro other file h
    split at h
    · cases h
    · exact d.below h
  unique := by
    intro a b file ha hb
    split at ha
    · cases ha
    · split at hb
      · cases hb
      · exact d.unique ha hb

def point (name : ν) (file : Nat) (hfile : file < d.next)
    (hfree : ∀ other, d.entry other ≠ some file) : Disk ν β where
  entry := fun other => if other = name then some file else d.entry other
  files := d.files
  next := d.next
  below := by
    intro other f h
    split at h
    · cases h
      exact hfile
    · exact d.below h
  unique := by
    intro a b f ha hb
    split at ha <;> split at hb
    · rename_i hname hname'
      rw [hname, hname']
    · cases ha
      exact absurd hb (hfree b)
    · cases hb
      exact absurd ha (hfree a)
    · exact d.unique ha hb

variable {d : Disk ν β} {name : ν}

theorem unlink_entry_ne (h : d.entry name = some file)
    (other : ν) : (d.unlink name).entry other ≠ some file := by
  dsimp only [unlink]
  split
  · simp
  · rename_i hne
    exact fun hother => hne (d.unique hother h)

def create (d : Disk ν β) (name : ν) (content : β) : Disk ν β × Nat :=
  match d.entry name with
  | some file => (d.edit file fun _ => content, file)
  | none =>
    ((d.extend content).point name d.next (Nat.lt_succ_self _) d.entry_ne_next, d.next)

def rename (d : Disk ν β) (a b : ν) : Option (Disk ν β) :=
  match h : d.entry a with
  | some file => some ((d.unlink a).point b file (d.below h) (unlink_entry_ne h))
  | none => none

theorem unlink_entry_of_ne (d : Disk ν β) {other} (h : other ≠ name) :
    (d.unlink name).entry other = d.entry other :=
  if_neg h

theorem entry_of_unlink {other} (h : (d.unlink name).entry other = some file) :
    d.entry other = some file := by
  dsimp only [unlink] at h
  split at h
  · cases h
  · exact h

structure Created (d : Disk ν β) (name : ν) (d' : Disk ν β) (file : Nat) : Prop where
  here : d'.entry name = some file
  elsewhere : ∀ other, other ≠ name → d'.entry other = d.entry other
  kept : ∀ other, other ≠ file → d'.files other = d.files other
  made : d.entry name = some file ∨ d.entry name = none ∧ file = d.next
  grows : d.next ≤ d'.next

theorem created_create (d : Disk ν β) (name : ν) (content : β) :
    d.Created name (d.create name content).1 (d.create name content).2 := by
  unfold create
  split
  · rename_i file hfile
    exact ⟨hfile, fun _ _ => rfl, fun _ h => update_of_ne h _ _, .inl hfile, Nat.le_refl _⟩
  · rename_i hnone
    exact ⟨if_pos rfl, fun _ h => if_neg h, fun _ h => update_of_ne h _ _,
      .inr ⟨hnone, rfl⟩, Nat.le_succ _⟩

structure Renamed (d : Disk ν β) (a b : ν) (d' : Disk ν β) : Prop where
  moved : ∃ file, d.entry a = some file ∧ d'.entry b = some file
  elsewhere : ∀ other, other ≠ a → other ≠ b → d'.entry other = d.entry other
  gone : a ≠ b → d'.entry a = none
  files : d'.files = d.files
  next : d'.next = d.next

theorem renamed_rename {d' a b} (h : d.rename a b = some d') : d.Renamed a b d' := by
  unfold rename at h
  split at h <;> cases h
  rename_i file hfile
  refine ⟨⟨file, hfile, if_pos rfl⟩, fun other ha hb => ?_, fun hne => ?_, rfl, rfl⟩
  · exact (if_neg hb).trans (if_neg ha)
  · exact (if_neg hne).trans (if_pos rfl)

end Disk

end MeisterStack.Foundation
