import Mathlib.Algebra.Order.Ring.Nat
import Mathlib.Data.List.Sort

/-!
# Ranges of IPv4 addresses

Inclusive ranges as both tiers read them, and the first-fit search for a free aligned block.
A range is never empty: a text whose end lies before its start does not parse.
-/

namespace MeisterStack.Common

open List

structure Ipv4Range where
  start : Nat
  last : Nat
  edgesReserved : Bool
  le : start ≤ last
  lt : last < 2 ^ 32
  deriving DecidableEq

namespace Ipv4Range

def overlaps (r other : Ipv4Range) : Bool := r.start ≤ other.last && other.start ≤ r.last

theorem overlaps_comm (r other : Ipv4Range) : r.overlaps other = other.overlaps r :=
  Bool.and_comm _ _

variable (r : Ipv4Range)

def len : Nat := r.last - r.start + 1

def isCidr : Bool := r.len = 2 ^ r.len.log2 && r.start % r.len = 0

variable {addr : Nat}

private theorem block_lt {bits} (haddr : addr < 2 ^ 32) (hbits : bits ≤ 32) :
    addr / 2 ^ bits * 2 ^ bits + (2 ^ bits - 1) < 2 ^ 32 := by
  have hpos : 0 < 2 ^ bits := Nat.two_pow_pos bits
  have hsplit : 2 ^ (32 - bits) * 2 ^ bits = 2 ^ 32 := by
    rw [← Nat.pow_add, Nat.sub_add_cancel hbits]
  have hblock : addr / 2 ^ bits + 1 ≤ 2 ^ (32 - bits) := by
    rw [Nat.succ_le_iff, Nat.div_lt_iff_lt_mul hpos, hsplit]
    exact haddr
  have := Nat.mul_le_mul_right (2 ^ bits) hblock
  rw [hsplit, Nat.succ_mul] at this
  omega

def ofCidr (addr len : Nat) : Option Ipv4Range :=
  if h : addr < 2 ^ 32 ∧ len ≤ 32 then
    some {
      start := addr / 2 ^ (32 - len) * 2 ^ (32 - len)
      last := addr / 2 ^ (32 - len) * 2 ^ (32 - len) + (2 ^ (32 - len) - 1)
      edgesReserved := len ≤ 30
      le := Nat.le_add_right _ _
      lt := block_lt h.1 (Nat.sub_le 32 len) }
  else none

def contains (addr : Nat) : Bool := r.start ≤ addr && addr ≤ r.last

def allocatable : List Nat :=
  let (first, last) := if r.edgesReserved then (r.start + 1, r.last - 1) else (r.start, r.last)
  (range (last + 1 - first)).map fun i => first + i

def isAllocatable (addr : Nat) : Bool :=
  r.contains addr && (!r.edgesReserved || (addr != r.start && addr != r.last))

theorem isAllocatable_of_mem {r : Ipv4Range} (h : addr ∈ r.allocatable) : r.isAllocatable addr := by
  unfold allocatable at h
  cases hedges : r.edgesReserved with
  | true =>
    simp only [hedges, if_true, mem_map, mem_range] at h
    obtain ⟨i, hi, rfl⟩ := h
    simp only [isAllocatable, contains, hedges, Bool.and_eq_true, decide_eq_true_eq,
      Bool.not_true, Bool.false_or, bne_iff_ne]
    omega
  | false =>
    simp only [hedges, Bool.false_eq_true, if_false, mem_map, mem_range] at h
    obtain ⟨i, hi, rfl⟩ := h
    simp only [isAllocatable, contains, hedges, Bool.and_eq_true, decide_eq_true_eq,
      Bool.not_false, Bool.true_or, and_true]
    omega

theorem contains_of_isAllocatable {r : Ipv4Range} (h : r.isAllocatable addr) : r.contains addr := by
  simp only [isAllocatable, Bool.and_eq_true] at h
  exact h.1

end Ipv4Range

namespace Ipv4Ranges

variable (ranges : List Ipv4Range)

def contains (addr : Nat) : Bool := ranges.any fun r => r.contains addr

def isAllocatable (addr : Nat) : Bool :=
  ranges.any fun r => r.isAllocatable addr

def len : Nat := (ranges.map Ipv4Range.len).sum

def firstFree (taken : List Nat) : Option Nat :=
  (ranges.flatMap Ipv4Range.allocatable).find? fun addr => !taken.contains addr

theorem firstFree_some {ranges taken addr} (h : firstFree ranges taken = some addr) :
    isAllocatable ranges addr ∧ addr ∉ taken := by
  have hfree : addr ∉ taken := by simpa using find?_some h
  obtain ⟨r, hr, haddr⟩ := mem_flatMap.mp (mem_of_find?_eq_some h)
  refine ⟨?_, hfree⟩
  rw [isAllocatable, any_eq_true]
  exact ⟨r, hr, Ipv4Range.isAllocatable_of_mem haddr⟩

theorem contains_of_isAllocatable {ranges addr} (h : isAllocatable ranges addr) :
    contains ranges addr := by
  obtain ⟨r, hr, haddr⟩ := any_eq_true.mp h
  exact any_eq_true.mpr ⟨r, hr, Ipv4Range.contains_of_isAllocatable haddr⟩

end Ipv4Ranges

def overlapping (a b : List Ipv4Range) : Bool := a.any fun r => b.any fun c => r.overlaps c

theorem overlapping_iff {a b} : overlapping a b ↔ ∃ r ∈ a, ∃ c ∈ b, r.overlaps c := by
  simp [overlapping]

theorem overlapping_comm (a b) : overlapping a b = overlapping b a := by
  rw [Bool.eq_iff_iff, overlapping_iff, overlapping_iff]
  constructor
  · rintro ⟨r, hr, c, hc, h⟩
    exact ⟨c, hc, r, hr, c.overlaps_comm r ▸ h⟩
  · rintro ⟨c, hc, r, hr, h⟩
    exact ⟨r, hr, c, hc, r.overlaps_comm c ▸ h⟩

def blocksIn (super : Ipv4Range) (size : Nat) : List Nat :=
  let base := (super.start + size - 1) / size * size
  (range ((super.last + 1 - base) / size)).map fun i => base + i * size

def cutSubnet (supers : List Ipv4Range) (prefixLen : Nat)
    (occupied : List (String × Ipv4Range)) : Option Ipv4Range :=
  if prefixLen > 32 then none
  else
    (supers.flatMap fun super => blocksIn super (2 ^ (32 - prefixLen))).findSome? fun base =>
      (Ipv4Range.ofCidr base prefixLen).filter fun candidate =>
        !occupied.any fun o => o.2.overlaps candidate

end MeisterStack.Common
