import MeisterStack.ControllerApi.Phase
import MeisterStack.Foundation.Saturating

/-!
# The VM resource

The part of a stored VM that placement, teardown and report ingestion read and
write, and `settleVm`, the one function that derives its phase. Every write of
the store runs it, so the stored phase is always the settled one.
-/

namespace MeisterStack.ControllerApi

open Foundation Option Reported

def u32Max : Nat := UInt32.size - 1

def u64Max : Nat := UInt64.size - 1

inductive VmPhaseKind where
  | pending | provisioning | running | stopped | paused | failed | quarantined | unknown
  deriving DecidableEq

def VmPhaseKind.resting : VmPhaseKind → Bool
  | .running | .stopped | .paused => true
  | _ => false

def VmPhaseKind.asStr : VmPhaseKind → String
  | .pending => "Pending"
  | .provisioning => "Provisioning"
  | .running => "Running"
  | .stopped => "Stopped"
  | .paused => "Paused"
  | .failed => "Failed"
  | .quarantined => "Quarantined"
  | .unknown => "Unknown"

inductive VmReason where
  | unrecorded | awaitingNode | unplaced | notReady | volumeHeld | unbound | dispatched
  | refused | silent | working | backoff | awaitingGuest | guestLeft | receiveFailed
  | vmmGone | backendGone | resumeIneffective | stopping
  deriving DecidableEq

abbrev VmPhase := Phase VmPhaseKind VmReason

abbrev VmReported := Reported VmPhaseKind VmReason

inductive RunStrategy where
  | running | stopped | paused
  deriving DecidableEq

inductive EvacuationStep where
  | stopping | moving
  deriving DecidableEq

structure Evacuating where
  origin : String
  step : Option EvacuationStep
  deriving DecidableEq

structure VmSilence where
  holder : String
  lastHeard : Option Instant
  deriving DecidableEq

structure VmPlacement where
  reason : VmReason
  message : String
  deriving DecidableEq

structure Refusal where
  node : String
  message : String
  expires : Instant
  deriving DecidableEq

structure AgentSpec where
  vcpus : Option (Sat u64Max)
  memoryMib : Option (Sat u64Max)
  volumes : List String
  deriving DecidableEq

structure VmSpec where
  nodeName : Option String
  clusterName : Option String
  runStrategy : RunStrategy
  vm : AgentSpec
  deriving DecidableEq

structure VmStatus where
  phase : VmPhase
  reported : Option VmReported
  silence : Option VmSilence
  placement : Option VmPlacement
  nodeName : Option String
  clusterName : Option String
  observedAt : Option Instant
  reschedules : Nat
  refusedBy : List Refusal
  evacuating : Option Evacuating
  deriving DecidableEq

structure Vm where
  name : String
  uid : String
  deletionTimestamp : Option Instant
  spec : VmSpec
  status : VmStatus
  deriving DecidableEq

variable (vm : Vm)

def Vm.isDeleting : Bool := vm.deletionTimestamp.isSome

def heartbeatTimeoutSecs : Nat := 30

def silentMessage (silence : VmSilence) : String :=
  match silence.lastHeard with
  | some last =>
    s!"{silence.holder} last reported {last}, more than {heartbeatTimeoutSecs}s ago; " ++
      "what the guest is doing is not known here"
  | none =>
    s!"{silence.holder} has never reported, more than {heartbeatTimeoutSecs}s ago; " ++
      "what the guest is doing is not known here"

def staleHolder (spec : VmSpec) (word : VmReported) : Bool :=
  !word.node.isEmpty &&
    (spec.nodeName.any (· != word.node) || spec.clusterName.any (· != word.node))

def settleVm (spec : VmSpec) (status : VmStatus) : VmPhase :=
  let new := Phase.new VmPhaseKind.resting
  match status.silence with
  | some silence => new .unknown .silent (some (silentMessage silence))
  | none =>
    let scheduler := status.placement.map fun p => (p.reason, some p.message)
    let claimed := spec.nodeName.isSome || spec.clusterName.isSome ||
      status.nodeName.isSome || status.clusterName.isSome
    if !claimed then
      let (reason, message) :=
        (scheduler.or (status.reported.map fun r => (r.reason, r.message))).getD
          (.awaitingNode, some "not placed yet")
      new .pending reason message
    else
      let word := status.reported.filter fun r => !staleHolder spec r
      match word.bind (toPhase VmPhaseKind.resting) with
      | some phase => phase
      | none =>
        let holder := (((status.nodeName.or status.clusterName).or spec.nodeName).or
          spec.clusterName).getD "nobody"
        let (reason, message) :=
          scheduler.getD (.awaitingNode, some s!"{holder} has not reported yet")
        new .pending reason message

def Vm.settle : Vm :=
  { vm with status := { vm.status with phase := settleVm vm.spec vm.status } }

@[simp] theorem Vm.settle_spec : vm.settle.spec = vm.spec := rfl
@[simp] theorem Vm.settle_nodeName :
    vm.settle.status.nodeName = vm.status.nodeName := rfl

theorem settleVm_resting {spec status} (h : (settleVm spec status).kind.resting) :
    ∃ word, status.reported = some word ∧ word.node ≠ "" ∧
      staleHolder spec word = false ∧ word.phase = (settleVm spec status).kind := by
  unfold settleVm at h ⊢
  cases hsilence : status.silence with
  | some => simp [hsilence, VmPhaseKind.resting] at h
  | none =>
    simp only [hsilence] at h ⊢
    split at h
    · simp [VmPhaseKind.resting] at h
    · rename_i hclaimed
      simp only [hclaimed] at h ⊢
      cases hword : (status.reported.filter fun r => !staleHolder spec r).bind
          (toPhase VmPhaseKind.resting) with
      | none => simp [hword, VmPhaseKind.resting] at h
      | some phase =>
        simp only [hword] at h ⊢
        obtain ⟨word, hmem, hphase⟩ := bind_eq_some_iff.mp hword
        obtain ⟨hreported, hstale⟩ := filter_eq_some_iff.mp hmem
        have hkind := toPhase_kind hphase
        refine ⟨word, hreported, ?_, by simpa using hstale, hkind.symm⟩
        intro hnode
        rw [hkind] at h
        simp [toPhase, Word.toPhase, h, hnode] at hphase

end MeisterStack.ControllerApi
