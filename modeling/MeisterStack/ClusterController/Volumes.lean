import MeisterStack.Foundation.Program
import MeisterStack.Foundation.Revision
import MeisterStack.ControllerApi.Volume

/-!
# Who uses a volume

One volume and everything that decides which VM may have it: the claim taken before a create is
sent, the two passes that note that a claimant is gone, and the volume reports of the nodes. No VM
is being migrated live.
-/

namespace MeisterStack.ClusterController.Volumes

open Foundation ControllerApi

structure VmObject where
  name : String
  uid : String
  refersTo : Bool
  deleting : Bool
  node : Option String

structure Create where
  uid : String
  node : String
  handled : Bool
  cleared : Bool

structure Word where
  gone : Bool
  phase : Option VolumePhaseKind
  reason : VolumeReason
  message : Option String
  backend : String
  sizeBytes : Nat

structure VolumeLine extends Word where
  node : String
  isOpen : Bool

structure State extends Slot Volume where
  vms : List VmObject
  creates : List Create
  openAt : List String
  reports : List VolumeLine

namespace State

variable (s : State)

def put (v : Volume) : State := { s with toSlot := s.toSlot.write v.settle }

def mutate (edit : Volume → Volume) : State :=
  { s with toSlot := s.toSlot.mutate fun v => (edit v).settle }

def remove : State := { s with toSlot := s.toSlot.remove }

def putVm (vm : VmObject) : State :=
  { s with vms := vm :: s.vms.filter fun o => o.uid ≠ vm.uid }

def send (uid node : String) : State :=
  { s with creates := s.creates ++ [⟨uid, node, false, false⟩] }

def handle (index : Nat) (refused opened : Bool) : Option State :=
  s.creates[index]?.map fun c =>
    { s with
      creates := s.creates.set index { c with handled := true, cleared := c.cleared || refused }
      openAt := if opened && !refused then s.openAt.insert c.node else s.openAt }

def close (node : String) : State :=
  { s with openAt := s.openAt.filter fun n => n ≠ node }

def report (node : String) (word : Word) : State :=
  let isOpen := s.openAt.contains node
  { s with
    reports := s.reports ++ [{ word with node, isOpen }]
    creates := s.creates.map fun c =>
      if c.node = node ∧ c.handled ∧ !isOpen then { c with cleared := true } else c }

end State

def mayCarry (status : VolumeStatus) (vm : VmObject) : Bool :=
  status.attachedTo.isNone || status.claimedBy vm.uid

variable (vm : VmObject) (node : String) (v : Volume)

def carryOpen : Volume :=
  if mayCarry v.status vm then { v with status := { v.status with node := some node } } else v

def followVm (now : Instant) (v : Volume) : Volume :=
  if mayCarry v.status vm then
    { v with
      status := { v.status with
        node := some node
        reported := some (.here .pending .following
          (some s!"following {vm.name} to {node}") now) } }
  else v

def attach : Volume :=
  { v with
    status := { v.status with
      attachedTo := some vm.name
      attachedUid := some vm.uid
      claimantGone := false } }

def release : Volume :=
  if v.status.heldBy vm.name vm.uid then
    { v with status := { v.status with claimantGone := true } }
  else v

structure ClaimantVerdict where
  gone : Bool
  bind : Option String

def claims : Bool := !vm.deleting && vm.refersTo

def claimantVerdict (volume : Volume) (vms : List VmObject) : ClaimantVerdict :=
  match volume.status.attachedUid with
  | some uid => ⟨!vms.any fun vm => claims vm && vm.uid = uid, none⟩
  | none =>
    if volume.status.claimantGone then ⟨true, none⟩
    else
      let named := vms.find? fun vm => claims vm && some vm.name = volume.status.attachedTo
      ⟨named.isNone, named.map fun vm => vm.uid⟩

def noteClaimant (listed : Volume) (verdict : ClaimantVerdict) (v : Volume) : Volume :=
  if v.status.attachedTo = listed.status.attachedTo &&
      v.status.attachedUid = listed.status.attachedUid then
    { v with
      status := { v.status with
        claimantGone := verdict.gone
        attachedUid := verdict.bind.or v.status.attachedUid } }
  else v

def speaksForVolume (node : String) : Bool :=
  v.status.node = some node || v.status.openOn.contains node

def volumeIsCurrent (now : Instant) : Bool :=
  isCurrent v.deletionTimestamp v.status.observedAt now

def noteOpen (status : VolumeStatus) (node : String) (isOpen : Bool) : VolumeStatus :=
  if isOpen then status.openHere node else status.closedHere node

def applyGone (line : VolumeLine) (now : Instant) (v : Volume) : Volume :=
  if !volumeIsCurrent v now then v
  else if v.status.node ≠ some line.node then
    if v.status.openOn.contains line.node then
      { v with status := noteOpen v.status line.node line.isOpen }
    else v
  else
    { v with
      status := { noteOpen v.status line.node line.isOpen with
        node := none
        backend := ""
        reported := some (.of line.node .pending .deprovisioned
          (some s!"{line.node} no longer has the bytes") now)
        observedAt := some now } }

def sizeGib (bytes : Nat) : Nat := (bytes + (2 ^ 30 - 1)) / 2 ^ 30

def sameWord (held said : VolumeReported) : Bool :=
  held.phase = said.phase && held.reason = said.reason && held.message = said.message &&
    held.node = said.node

def unchanged (listed : Volume) (line : VolumeLine) (said : VolumeReported) : Bool :=
  (listed.status.reported.any fun held => sameWord held said) &&
    listed.status.sizeGib = sizeGib line.sizeBytes &&
    listed.status.openOn.contains line.node = line.isOpen &&
    (line.backend = "" || listed.status.backend = line.backend)

def applyLine (line : VolumeLine) (said : VolumeReported) (now : Instant) (v : Volume) : Volume :=
  if !speaksForVolume v line.node || !volumeIsCurrent v now then v
  else
    { v with
      status := { noteOpen v.status line.node line.isOpen with
        reported := some said
        backend := if line.backend = "" then v.status.backend else line.backend
        sizeGib := if sizeGib line.sizeBytes > 0 then sizeGib line.sizeBytes else v.status.sizeGib
        observedAt := some now } }

inductive Event where
  | vm (vm : VmObject)
  | vmGone (uid : String)
  | pass (uid : String)
  | letGo (uid : String)
  | kick (uid : String)
  | placeVolumes
  | receive (index : Nat) (now : Instant)
  | delete (now : Instant)
  | write (v : Volume)
  | removed
  | handled (index : Nat) (refused opened : Bool)
  | closed (node : String)
  | made (node : String) (word : Word)

inductive Task where
  | hold (vm : VmObject) (node : String)
  | carry (vm : VmObject) (node : String)
  | follow (vm : VmObject) (node : String)
  | claim (vm : VmObject) (node : String) (read : Versioned Volume)
  | dispatch (vm : VmObject) (node : String)
  | release (vm : VmObject)
  | listVms (listed : Volume)
  | note (listed : Volume) (verdict : ClaimantVerdict)
  | ingest (line : VolumeLine) (now : Instant)
  | gone (line : VolumeLine) (now : Instant)
  | observed (line : VolumeLine) (said : VolumeReported) (now : Instant)

inductive Input where
  | go (now : Instant)
  | pool (travels : Bool)
  | sent
  | undeliverable

def decideHold (read : Versioned Volume) : List Task :=
  if read.val.phase.kind ≠ .ready then []
  else if read.val.status.claimedBy vm.uid then [.dispatch vm node]
  else if read.val.status.attachedTo.isSome then []
  else if read.val.status.openElsewhere node then []
  else [.claim vm node read]

def holdVolumes (read : Versioned Volume)
    (travels : Bool) : List Task :=
  if !mayCarry read.val.status vm then []
  else if read.val.status.node.any (fun home => home ≠ node) then
    if read.val.status.openOn.contains node then [.carry vm node]
    else if travels then [.follow vm node]
    else decideHold vm node read
  else decideHold vm node read

def ingestVolumes (listed : Volume) (line : VolumeLine) (now : Instant) : List Task :=
  if !speaksForVolume listed line.node || !volumeIsCurrent listed now then []
  else if line.gone then [.gone line now]
  else
    match line.phase with
    | none => []
    | some phase =>
      let said := Reported.of line.node phase line.reason line.message now
      if unchanged listed line said then [] else [.observed line said now]

def mayWrite (old new : Volume) : Bool :=
  new.uid = old.uid && new.status.attachedTo = old.status.attachedTo &&
    new.status.attachedUid = old.status.attachedUid &&
    new.status.claimantGone = old.status.claimantGone && new.status.openOn = old.status.openOn

def env (s : State) : Event → Option (State × List Task)
  | .vm vm => some (s.putVm vm, [])
  | .vmGone uid => some ({ s with vms := s.vms.filter fun vm => vm.uid ≠ uid }, [])
  | .pass uid =>
    match s.vms.find? fun vm => vm.uid = uid with
    | some vm =>
      if claims vm then vm.node.map fun node => (s, [.hold vm node]) else none
    | none => none
  -- an unbound VM, one that is torn down, or one whose spec dropped the volume
  | .letGo uid =>
    match s.vms.find? fun vm => vm.uid = uid with
    | some vm => if vm.node.isNone || !claims vm then some (s, [.release vm]) else none
    | none => none
  -- a failed VM is sent to its node again, and nothing is claimed for it
  | .kick uid =>
    (s.vms.find? fun vm => vm.uid = uid).bind fun vm =>
      vm.node.map fun node => (s, [.dispatch vm node])
  | .placeVolumes => s.cell.map fun v => (s, [.listVms v.val])
  | .receive index now => s.reports[index]?.map fun line => (s, [.ingest line now])
  | .delete now =>
    s.cell.map fun v =>
      (s.put { v.val with deletionTimestamp := v.val.deletionTimestamp.or (some now) }, [])
  | .write v' =>
    match s.cell with
    | some v => if mayWrite v.val v' then some (s.put v', []) else none
    | none => none
  | .removed => some (s.remove, [])
  | .handled index refused opened => (s.handle index refused opened).map fun s' => (s', [])
  | .closed node => some (s.close node, [])
  | .made node word => some (s.report node word, [])

def task (s : State) (t : Task) (input : Input) : Option (State × List Task) :=
  match t, input with
  | .hold vm node, .pool travels =>
    match s.cell with
    | none => some (s, [])
    | some read => some (s, holdVolumes vm node read travels)
  | .carry vm node, .go _ =>
    let s' := s.mutate (carryOpen vm node)
    match s.cell, s'.cell with
    | some read, some moved =>
      if mayCarry read.val.status vm then some (s', decideHold vm node moved)
      else some (s', [])
    | _, _ => some (s', [])
  | .follow vm node, .go now => some (s.mutate (followVm vm node now), [])
  | .claim vm node read, .go _ =>
    if s.cell.standsAt read.rev then some (s.put (attach vm read.val), [.dispatch vm node])
    else some (s, [])
  | .dispatch vm node, .sent => some (s.send vm.uid node, [])
  | .dispatch _ _, .undeliverable => some (s, [])
  | .release vm, .go _ => some (s.mutate (release vm), [])
  | .listVms listed, .go _ =>
    if listed.status.attachedTo.isNone then some (s, [])
    else
      let verdict := claimantVerdict listed s.vms
      if listed.status.claimantGone = verdict.gone && verdict.bind.isNone then some (s, [])
      else some (s, [.note listed verdict])
  | .note listed verdict, .go _ => some (s.mutate (noteClaimant listed verdict), [])
  | .ingest line now, .go _ =>
    some (s, (s.cell.map fun v => ingestVolumes v.val line now).getD [])
  | .gone line now, .go _ => some (s.mutate (applyGone line now), [])
  | .observed line said now, .go _ => some (s.mutate (applyLine line said now), [])
  | _, _ => none

def program : Program State Task Event Input := ⟨env, task⟩

end MeisterStack.ClusterController.Volumes
