import MeisterStack.ControllerApi.Mirror

/-!
# The volume resource

The part of a stored volume that says whose it is and which nodes have it open,
with the phase derived from the last word about its bytes. Every write of the
store runs `Volume.settle`, which drops a claim that no longer holds.
-/

namespace MeisterStack.ControllerApi

inductive VolumePhaseKind where
  | pending | provisioning | ready | releasing | failed
  deriving DecidableEq

def VolumePhaseKind.resting : VolumePhaseKind → Bool
  | .ready => true
  | _ => false

inductive VolumeReason where
  | unrecorded | awaitingNode | unplaced | following | dispatched | undeliverable
  | sourceMissing | heldBy | working | driverRefused | notOnBackend | deprovisioned
  deriving DecidableEq

abbrev VolumePhase := Phase VolumePhaseKind VolumeReason

abbrev VolumeReported := Reported VolumePhaseKind VolumeReason

structure VolumeStatus where
  reported : Option VolumeReported
  holder : Option String
  claimantGone : Bool
  backend : String
  node : Option String
  openOn : List String
  attachedTo : Option String
  attachedUid : Option String
  sizeGib : Nat
  observedAt : Option Instant
  deriving DecidableEq

namespace VolumeStatus

variable (s : VolumeStatus)

def claimedBy (uid : String) : Bool :=
  s.attachedTo.isSome && s.attachedUid = some uid

def heldBy (name uid : String) : Bool :=
  match s.attachedUid with
  | some held => held = uid
  | none => s.attachedTo = some name

variable (node : String)

def openHere : VolumeStatus :=
  { s with openOn := s.openOn.insert node }

def closedHere : VolumeStatus :=
  { s with openOn := s.openOn.filter fun n => n ≠ node }

def openElsewhere : Bool :=
  s.openOn.any fun n => n ≠ node

end VolumeStatus

def volumeClaimHolds (s : VolumeStatus) : Bool :=
  s.attachedTo.isNone || !s.claimantGone || !s.openOn.isEmpty

def VolumeStatus.settle (s : VolumeStatus) : VolumeStatus :=
  if volumeClaimHolds s then s
  else { s with attachedTo := none, attachedUid := none, claimantGone := false }

def settleVolume (deleting : Bool) (s : VolumeStatus) : VolumePhase :=
  if deleting then
    match s.holder with
    | some holder => Phase.new VolumePhaseKind.resting .releasing .heldBy (some holder)
    | none =>
      let gone := s.reported.any fun r => r.reason = .deprovisioned
      Phase.new VolumePhaseKind.resting .releasing (if gone then .deprovisioned else .dispatched)
        ((s.reported.bind fun r => r.message).or
          (some "waiting for the node to say the bytes are gone"))
  else
    match s.reported.bind (Reported.toPhase VolumePhaseKind.resting) with
    | some phase => phase
    | none =>
      Phase.new VolumePhaseKind.resting .pending .awaitingNode
        (some (match s.node with
          | some node => s!"{node} was chosen; the provision has not gone out yet"
          | none => "not placed yet"))

def volumeReleaseFinalizer : String := "meister.io/release"

structure Volume where
  name : String
  uid : String
  deletionTimestamp : Option Instant
  status : VolumeStatus

def Volume.phase (v : Volume) : VolumePhase := settleVolume v.deletionTimestamp.isSome v.status

def Volume.settle (v : Volume) : Volume := { v with status := v.status.settle }

theorem VolumeStatus.settle_of_holds {s : VolumeStatus}
    (h : s.claimantGone = false ∨ s.openOn ≠ []) : s.settle = s := by
  have hholds : volumeClaimHolds s := by
    rcases h with h | h <;> simp [volumeClaimHolds, h]
  simp [settle, hholds]

end MeisterStack.ControllerApi
