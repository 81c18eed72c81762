import MeisterStack.ControllerApi.Scheduler
import MeisterStack.Foundation.Program

/-!
# Placement under capacity claims

`place` binds a VM in four store operations: a create-only claim on the node, its confirmation on
one listing, the binding guarded by the revisions of VM and claim, and the release of the claim. Any
number of replicas run it and any can stop between two operations. Meanwhile VMs come and go, claims
are reaped, and live migrations use the same queue.
-/

namespace MeisterStack.ClusterController.Placement

open Foundation ControllerApi

structure Store where
  next : Nat
  vms : Table String Vm
  claims : Table String CapacityReservation

namespace Store

variable (s : Store) (name : String)

def putVm (vm : Vm) : Store :=
  { s with next := s.next + 1, vms := s.vms.put name s.next vm }

def removeVm : Store :=
  { s with next := s.next + 1, vms := s.vms.remove name }

def putClaim (r : CapacityReservation) : Store :=
  { s with next := s.next + 1, claims := s.claims.put r.name s.next r }

def removeClaim : Store :=
  { s with next := s.next + 1, claims := s.claims.remove name }

def list2 : List Vm × List (Versioned CapacityReservation) :=
  (s.vms.list.map fun e => e.2.val, s.claims.list.map fun e => e.2)

end Store

structure Fleet where
  capacity : String → Capacity
  overcommit : Overcommit
  sizeOf : String → Capacity

def Fleet.allowance (fleet : Fleet) (node : String) : Capacity :=
  fleet.overcommit.allowance (fleet.capacity node)

inductive Event where
  | createVm (vm : Vm)
  | writeVm (name : String) (vm : Vm)
  | deleteVm (name : String)
  | reserve (r : CapacityReservation)
  | reap (name : String)
  | place (name node : String)

inductive Task where
  | claim (vm : Versioned Vm) (node : String)
  | standing (vm : Versioned Vm) (node : String)
  | confirm (vm : Versioned Vm) (node : String) (mine : Versioned CapacityReservation)
  | bind (vm : Versioned Vm) (node : String) (mine : Versioned CapacityReservation)
  | release (mine : Versioned CapacityReservation)

section Model

variable (fleet : Fleet) (s : Store)

def claimHolds (mine : Versioned CapacityReservation) : Bool :=
  let (vms, held) := s.list2
  reservationHolds
    (freeOn mine.val.node (fleet.capacity mine.val.node) vms fleet.overcommit) mine held

def mayCreate (vm : Vm) : Bool :=
  (s.vms.cell vm.name).isNone && s.vms.list.all (fun e => e.2.val.uid != vm.uid) &&
    vm.spec.nodeName.isNone && Capacity.wantedBy vm = fleet.sizeOf vm.uid

def mayWrite (old new : Vm) : Bool :=
  new.name = old.name && new.uid = old.uid &&
    Capacity.wantedBy new = Capacity.wantedBy old &&
    (new.spec.nodeName = old.spec.nodeName || new.spec.nodeName.isNone)

def mayPlace (vm : Vm) : Bool :=
  !vm.isDeleting && vm.spec.nodeName.isNone && vm.status.nodeName.isNone

def boundTo (vm : Vm) (node : String) : Vm :=
  Vm.settle
    { vm with
      spec := { vm.spec with nodeName := some node }
      status := { vm.status with placement := none } }

def env : Event → Option (Store × List Task)
  | .createVm vm => if mayCreate fleet s vm then some (s.putVm vm.name vm.settle, []) else none
  | .writeVm name vm =>
    match s.vms.cell name with
    | some old => if mayWrite old.val vm then some (s.putVm name vm.settle, []) else none
    | none => none
  | .deleteVm name =>
    if (s.vms.cell name).isSome then some (s.removeVm name, []) else none
  | .reserve r =>
    if r.claimant = .migration && (s.claims.cell r.name).isNone then
      some (s.putClaim r, [])
    else none
  | .reap name =>
    if (s.claims.cell name).isSome then some (s.removeClaim name, []) else none
  | .place name node =>
    match s.vms.cell name with
    | some vm => if mayPlace vm.val then some (s, [.claim vm node]) else none
    | none => none

def task (t : Task) (_ : Unit) : Option (Store × List Task) :=
  match t with
  | .claim vm node =>
    let want := CapacityReservation.forPlacement vm.val node
    match s.claims.cell want.name with
    | none => some (s.putClaim want, [.confirm vm node ⟨s.next, want⟩])
    | some _ => some (s, [.standing vm node])
  | .standing vm node =>
    match s.claims.cell (CapacityReservation.placementName vm.val.uid) with
    | some mine =>
      if mine.val.isPlacementOf vm.val && mine.val.node = node then
        some (s, [.confirm vm node mine])
      else some (s, [])
    | none => some (s, [])
  | .confirm vm node mine =>
    if claimHolds fleet s mine then some (s, [.bind vm node mine])
    else some (s, [.release mine])
  | .bind vm node mine =>
    -- `update_if_standing`: both compares and the put are one transaction.
    if (s.vms.cell vm.val.name).standsAt vm.rev &&
        (s.claims.cell mine.val.name).standsAt mine.rev then
      some (s.putVm vm.val.name (boundTo vm.val node), [.release mine])
    else some (s, [.release mine])
  | .release mine =>
    if (s.claims.cell mine.val.name).standsAt mine.rev then
      some (s.removeClaim mine.val.name, [])
    else some (s, [])

def program : Program Store Task Event Unit where
  env := env fleet
  task := task fleet

end Model

end MeisterStack.ClusterController.Placement
