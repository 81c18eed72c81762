import MeisterStack.ControllerApi.Vm
import MeisterStack.Foundation.Revision
import Mathlib.Data.Prod.Lex
import Mathlib.Data.String.Basic

/-!
# Room on a node and the queue of claims for it

Sizes in two dimensions, what the VMs bound to a node leave of its allowance, and the check a claim
passes: the claims made before it and the claim itself must fit in that room. The overcommit factors
are floating-point arithmetic and stay a parameter.
-/

namespace MeisterStack.ControllerApi

open Foundation List

structure Capacity where
  vcpus : Sat u32Max
  memMib : Sat u64Max
  deriving DecidableEq

namespace Capacity

def none : Capacity := ⟨.zero, .zero⟩

def wantedBySpec (spec : AgentSpec) : Capacity where
  vcpus := .clamp (spec.vcpus.getD .zero).val
  memMib := spec.memoryMib.getD .zero

def wantedBy (vm : Vm) : Capacity := wantedBySpec vm.spec.vm

def minus (a b : Capacity) : Capacity := ⟨a.vcpus.sub b.vcpus, a.memMib.sub b.memMib⟩

def plus (a b : Capacity) : Capacity := ⟨a.vcpus.add b.vcpus, a.memMib.add b.memMib⟩

def fitsIn (size room : Capacity) : Bool :=
  size.vcpus.val ≤ room.vcpus.val && size.memMib.val ≤ room.memMib.val

end Capacity

structure Overcommit where
  allowance : Capacity → Capacity

inductive Claimant where
  | migration | placement
  deriving DecidableEq

structure CapacityReservation where
  name : String
  node : String
  vm : String
  vmUid : String
  claimant : Claimant
  migration : String
  migrationUid : String
  size : Capacity
  deriving DecidableEq

namespace CapacityReservation

def placementName (uid : String) : String := "place." ++ uid

def forPlacement (vm : Vm) (node : String) : CapacityReservation where
  name := placementName vm.uid
  node := node
  vm := vm.name
  vmUid := vm.uid
  claimant := .placement
  migration := ""
  migrationUid := ""
  size := Capacity.wantedBy vm

def isPlacementOf (r : CapacityReservation) (vm : Vm) : Bool :=
  r.claimant = .placement && r.vmUid = vm.uid

end CapacityReservation

variable (node : String)

def boundOn (vms : List Vm) : Capacity :=
  (vms.filter fun v => v.spec.nodeName = some node).foldl
    (fun sum vm => sum.plus (Capacity.wantedBy vm)) .none

def freeOn (capacity : Capacity) (vms : List Vm)
    (overcommit : Overcommit) : Capacity :=
  (overcommit.allowance capacity).minus (boundOn node vms)

def madeAt (r : Versioned CapacityReservation) : ℕ ×ₗ String :=
  toLex (r.rev, r.val.name)

section Queue

variable {α : Type} (claim : α → CapacityReservation) (before : α → α → Bool) (mine : α)
  (held : List α)

/-- The claims of the node that were made before this one. -/
def queue : List α :=
  (held.filter fun r => (claim r).node = (claim mine).node &&
    (claim r).name != (claim mine).name).filter fun r => before r mine

def holdsBehind (room : Capacity) : Bool :=
  let ahead := (queue claim before mine held).foldl (fun sum r => sum.plus (claim r).size) .none
  (claim mine).size.fitsIn (room.minus ahead)

end Queue

def reservationHolds (room : Capacity) (mine : Versioned CapacityReservation)
    (held : List (Versioned CapacityReservation)) : Bool :=
  holdsBehind (·.val) (fun r r' => madeAt r < madeAt r') mine held room

/-! ## The two dimensions, one at a time

The checks treat the dimensions alike, so what follows from them is stated once
for a dimension: a number read off a capacity and the largest it can be. -/

structure Dimension where
  max : Nat
  of : Capacity → Nat
  of_le : ∀ c, of c ≤ max
  of_none : of .none = 0
  of_plus : ∀ a b, of (a.plus b) = min (of a + of b) max
  of_minus : ∀ a b, of (a.minus b) = of a - of b
  of_fitsIn : ∀ {a b}, a.fitsIn b → of a ≤ of b

namespace Dimension

def vcpus : Dimension where
  max := u32Max
  of c := c.vcpus.val
  of_le c := c.vcpus.le_max
  of_none := rfl
  of_plus _ _ := rfl
  of_minus _ _ := rfl
  of_fitsIn h := by
    simp only [Capacity.fitsIn, Bool.and_eq_true, decide_eq_true_eq] at h
    exact h.1

def memMib : Dimension where
  max := u64Max
  of c := c.memMib.val
  of_le c := c.memMib.le_max
  of_none := rfl
  of_plus _ _ := rfl
  of_minus _ _ := rfl
  of_fitsIn h := by
    simp only [Capacity.fitsIn, Bool.and_eq_true, decide_eq_true_eq] at h
    exact h.2

variable (d : Dimension)

theorem of_foldl_plus {α : Type*} (f : α → Capacity) (l : List α) (start) :
    d.of (l.foldl (fun sum x => sum.plus (f x)) start) =
      min (d.of start + (l.map fun x => d.of (f x)).sum) d.max := by
  induction l generalizing start with
  | nil => simpa using d.of_le start
  | cons x l ih =>
    simp only [foldl_cons, ih, d.of_plus, map_cons, sum_cons]
    omega

def bound (vms : List Vm) : Nat :=
  ((vms.filter fun v => v.spec.nodeName = some node).map fun v =>
    d.of (Capacity.wantedBy v)).sum

def ahead (mine : Versioned CapacityReservation)
    (held : List (Versioned CapacityReservation)) : Nat :=
  (((held.filter fun r => r.val.node = mine.val.node &&
      r.val.name != mine.val.name).filter fun r => madeAt r < madeAt mine).map fun r =>
    d.of r.val.size).sum

/--
What a claim that holds establishes where it asks for anything at all: bound
VMs, the queue before it and the claim stay within the allowance together.
-/
theorem le_allowance_of_reservationHolds {node capacity vms overcommit mine held}
    (hpos : 0 < d.of mine.val.size)
    (h : reservationHolds (freeOn node capacity vms overcommit) mine held) :
    d.bound node vms + d.ahead mine held + d.of mine.val.size ≤
      d.of (overcommit.allowance capacity) := by
  have hfits := d.of_fitsIn h
  simp only [freeOn, boundOn, d.of_minus, d.of_foldl_plus, d.of_none, Nat.zero_add] at hfits
  exact Sat.add_le_of_le_sub_sub hpos (d.of_le _) hfits

end Dimension

end MeisterStack.ControllerApi
