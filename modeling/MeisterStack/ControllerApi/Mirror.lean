import MeisterStack.ControllerApi.Vm

/-!
# What a peer reports about a VM

Both tiers read the reports of the tier below: a line is matched with the VM of its uid, and ignored
where the peer does not speak for the VM or says nothing new.
-/

namespace MeisterStack.ControllerApi

structure VmLine where
  phase : Option VmPhaseKind
  reason : VmReason
  message : Option String
  deriving DecidableEq

def observe (speaksFor : Vm → Bool) (listed : Vm) (line : VmLine) :
    Option (VmPhaseKind × VmReason × Option String) :=
  if !speaksFor listed then none
  else
    match line.phase with
    | none => none
    | some phase =>
      if listed.status.phase = Phase.new VmPhaseKind.resting phase line.reason line.message
      then none
      else some (phase, line.reason, line.message)

def isCurrent (deletion observed : Option Instant) (reportedAt : Instant) : Bool :=
  match deletion, observed with
  | none, none => true
  | some floor, none => floor ≤ reportedAt
  | none, some floor => floor ≤ reportedAt
  | some floor, some floor' => max floor floor' ≤ reportedAt

def stoppedEnough (strategy : RunStrategy) (phase : VmPhaseKind) : Bool :=
  strategy = .stopped && (phase = .stopped || phase = .failed || phase = .unknown)

def drainReschedules (vm : Vm) : Bool :=
  vm.status.evacuating.isNone && vm.spec.runStrategy = .stopped &&
    vm.status.phase.kind = .stopped

def guest : Vm where
  name := "guest"
  uid := "uid"
  deletionTimestamp := none
  spec := ⟨none, none, .stopped, ⟨none, none, []⟩⟩
  status := ⟨⟨.pending, none, none⟩, none, none, none, none, none, none, 0, [], none⟩

def stoppedLine : VmLine := ⟨some .stopped, .unrecorded, none⟩

end MeisterStack.ControllerApi
