import MeisterStack.ControllerApi.GuardedDeletion
import MeisterStack.ClusterController.Volumes

/-!
# The records of volumes, operation by operation

Every writer of a volume that touches its claim, its home, its open nodes or its existence: the
edits of `Volumes` inside the store's loops, on any number of volumes and against each other.
-/

namespace MeisterStack.ClusterController.VolumeLifecycle

open Foundation
open ControllerApi
open ControllerApi.Resource
open ClusterController.Volumes (VmObject VolumeLine mayCarry carryOpen followVm
  attach claimantVerdict applyGone applyLine speaksForVolume volumeIsCurrent unchanged)

abbrev VolumeObject := Object VolumeStatus

abbrev VolumeCall (ρ : Type) := Call String VolumeObject Fault ρ

def volumes : Resource VolumeStatus := ⟨"volumes", fun _ status => status.settle⟩

def asVolume (name : String) (obj : VolumeObject) : Volume :=
  ⟨name, obj.uid, obj.metadata.deletionTimestamp, obj.body⟩

def edited (edit : Volume → Volume) (name : String) (obj : VolumeObject) : VolumeObject :=
  { obj with body := (edit (asVolume name obj)).status }

inductive HoldError where
  | held (volume holder : String)
  | claimedMeanwhile (volume : String)
  | reopening (volume node : String)
  | notReady (volume : String) (phase : VolumePhaseKind) (node : String)
  | stillOpen (volume node : String)
  | changed (volume : String)
  | store (why : StoreError)

structure Hold where
  vm : VmObject
  node : String
  migrating : Bool
  travels : String → Except StoreError Bool
  now : Instant

namespace Hold

variable (h : Hold)

def carryRecord (name uid : String) (rePoint : Volume → Volume) :
    VolumeCall (Except HoldError (Versioned VolumeObject)) :=
  (volumes.mutateIf name uid fun obj =>
      (edited rePoint name obj, mayCarry obj.body h.vm)).bind fun
    | .error why => .ret (.error (.store why))
    | .ok (moved, true) => .ret (.ok moved)
    | .ok (_, false) => .ret (.error (.claimedMeanwhile name))

def homeElsewhere (status : VolumeStatus) : Bool := status.node.any fun home => home ≠ h.node

def openElsewhere (status : VolumeStatus) : Option String :=
  if h.migrating then none else status.openOn.find? fun n => n ≠ h.node

variable (name : String)

def claim (volume : Versioned VolumeObject) : VolumeCall (Except HoldError Unit) :=
  let phase := (asVolume name volume.val).phase.kind
  if phase ≠ .ready then .ret (.error (.notReady name phase h.node))
  else
    match volume.val.body.attachedTo with
    | some holder =>
      if volume.val.body.claimedBy h.vm.uid then .ret (.ok ())
      else .ret (.error (.held name holder))
    | none =>
      match h.openElsewhere volume.val.body with
      | some other => .ret (.error (.stillOpen name other))
      | none =>
        (volumes.update name volume.rev (edited (attach h.vm) name volume.val)).bind fun
          | .ok _ => .ret (.ok ())
          | .error (.conflict _) => .ret (.error (.changed name))
          | .error why => .ret (.error (.store why))

def followOrClaim (volume : Versioned VolumeObject) :
    VolumeCall (Except HoldError Unit) :=
  if h.homeElsewhere volume.val.body then
    match h.travels name with
    | .error why => .ret (.error (.store why))
    | .ok true =>
      (h.carryRecord name volume.val.uid (followVm h.vm h.node h.now)).bind fun
        | .error why => .ret (.error why)
        | .ok _ => .ret (.error (.reopening name h.node))
    | .ok false => h.claim name volume
  else h.claim name volume

def holdVolume : VolumeCall (Except HoldError Unit) :=
  (volumes.get name).bind fun
    | .error why => .ret (.error (.store why))
    | .ok volume =>
      if !mayCarry volume.val.body h.vm then
        .ret (.error (.held name (volume.val.body.attachedTo.getD "")))
      else if h.homeElsewhere volume.val.body && volume.val.body.openOn.contains h.node then
        (h.carryRecord name volume.val.uid (carryOpen h.vm h.node)).bind fun
          | .error why => .ret (.error why)
          | .ok moved => h.followOrClaim name moved
      else h.followOrClaim name volume

def holdVolumes : List String → VolumeCall (Except HoldError Unit)
  | [] => .ret (.ok ())
  | name :: names =>
    (h.holdVolume name).bind fun
      | .ok () => holdVolumes names
      | .error why => .ret (.error why)

end Hold

def each (write : String → VolumeCall (Except StoreError (Versioned VolumeObject × Unit))) :
    List String → VolumeCall Unit
  | [] => .ret ()
  | name :: names => (write name).bind fun _ => each write names

def releaseNamedVolumes (vm : VmObject) : List String → VolumeCall Unit :=
  each fun name => volumes.mutate name fun obj => (edited (Volumes.release vm) name obj, ())

def moveHome (vm : VmObject) (source target : String) (v : Volume) : Volume :=
  if v.status.node = some source && v.status.claimedBy vm.uid then
    { v with status := { v.status with node := some target } }
  else v

def moveVolumeHome (vm : VmObject) (source target : String) : List String → VolumeCall Unit :=
  each fun name =>
    volumes.mutate name fun obj => (edited (moveHome vm source target) name obj, ())

def finished {ρ : Type} (result : Except StoreError ρ) : Except StoreError Unit :=
  result.map fun _ => ()

def noteClaimant (name : String) (listed : Versioned VolumeObject) (vms : List VmObject) :
    VolumeCall (Except StoreError Unit) :=
  let volume := asVolume name listed.val
  let verdict := claimantVerdict volume vms
  if volume.status.attachedTo.isNone then .ret (.ok ())
  else if volume.status.claimantGone = verdict.gone && verdict.bind.isNone then .ret (.ok ())
  else
    (volumes.mutateIf name listed.val.uid fun obj =>
      (edited (Volumes.noteClaimant volume verdict) name obj, ())).map finished

def lineEdit (volume : Volume) (line : VolumeLine) (now : Instant) : Option (Volume → Volume) :=
  if !speaksForVolume volume line.node || !volumeIsCurrent volume now then none
  else if line.gone then some (applyGone line now)
  else
    match line.phase with
    | none => none
    | some phase =>
      let said := Reported.of line.node phase line.reason line.message now
      if unchanged volume line said then none else some (applyLine line said now)

def ingestLines (listed : List (String × Versioned VolumeObject)) (now : Instant) :
    List (String × VolumeLine) → VolumeCall Unit
  | [] => .ret ()
  | (uid, line) :: lines =>
    match listed.find? fun e => e.2.val.uid = uid with
    | none => ingestLines listed now lines
    | some (name, volume) =>
      match lineEdit (asVolume name volume.val) line now with
      | none => ingestLines listed now lines
      | some edit =>
        (volumes.mutateIf name uid fun obj => (edited edit name obj, ())).bind fun _ =>
          ingestLines listed now lines

def ingestVolumes (lines : List (String × VolumeLine)) (now : Instant) :
    VolumeCall (Except StoreError Unit) :=
  .list fun
    | .error why => .ret (.error (.fault why))
    | .ok listed => (ingestLines listed now lines).map .ok

inductive HeldBy where
  | vm (name : String)
  | snapshot (name : String)
  deriving DecidableEq

def HeldBy.sentence : HeldBy → String
  | .vm name => s!"held by {name}; delete the vm first, or wait"
  | .snapshot name => s!"held by snapshot {name}; delete the snapshot first, or wait"

inductive Release where
  | heldBy (holder : HeldBy)
  | waitingForNode (node : String)
  | drop
  deriving DecidableEq

def releaseAction (status : VolumeStatus) (snapshots : List String) : Release :=
  match status.attachedTo with
  | some vm => .heldBy (.vm vm)
  | none =>
    match snapshots.head? with
    | some snapshot => .heldBy (.snapshot snapshot)
    | none =>
      match status.node with
      | some node => .waitingForNode node
      | none => .drop

def drops (snapshots : List String) (obj : VolumeObject) : Bool :=
  obj.metadata.deletionTimestamp.isSome && releaseAction obj.body snapshots = .drop

def dropVolume (name : String) (listed : Versioned VolumeObject) (snapshots : List String) :
    VolumeCall (Except StoreError Unit) :=
  (volumes.takeFinalizer name listed volumeReleaseFinalizer (drops snapshots)).bind fun
    | .error why => .ret (.error why)
    | .ok none => .ret (.ok ())
    | .ok (some taken) =>
      (volumes.finishRelease name taken volumeReleaseFinalizer (drops snapshots)).map finished

def withHolder (reason : String) (v : Volume) : Volume :=
  { v with status := { v.status with holder := some reason } }

def noteVolumeReleasing (name : String) (listed : Versioned VolumeObject) (reason : String) :
    VolumeCall (Except StoreError Unit) :=
  if listed.val.body.holder = some reason then .ret (.ok ())
  else
    (volumes.mutateIf name listed.val.uid fun obj =>
      (edited (withHolder reason) name obj, ())).map finished

structure VolumePass where
  snapshots : List String
  reachable : List String
  decision : Except String String
  now : Instant

inductive Outcome where
  | held (result : Except HoldError Unit)
  | done (result : Except StoreError Unit)
  | deprovision (uid node : String)

def deprovisionVolume (name : String) (listed : Versioned VolumeObject) (node : String)
    (pass : VolumePass) : VolumeCall Outcome :=
  if pass.reachable.contains node then .ret (.deprovision listed.val.uid node)
  else
    (noteVolumeReleasing name listed
      s!"node {node} unreachable; the data is there until it returns").map .done

def release (name : String) (listed : Versioned VolumeObject) (pass : VolumePass) :
    VolumeCall Outcome :=
  match releaseAction listed.val.body pass.snapshots with
  | .heldBy holder => (noteVolumeReleasing name listed holder.sentence).map .done
  | .waitingForNode node => deprovisionVolume name listed node pass
  | .drop => (dropVolume name listed pass.snapshots).map .done

def placedOn (node : String) (v : Volume) : Volume :=
  { v with status := { v.status with node := some node, reported := none } }

def pendingFor (reason : String) (now : Instant) (v : Volume) : Volume :=
  { v with
    status := { v.status with
      reported := some (.here .pending .unplaced (some reason) now) } }

def placeVolume (name : String) (listed : Versioned VolumeObject) (pass : VolumePass) :
    VolumeCall (Except StoreError Unit) :=
  match pass.decision with
  | .error reason =>
    if (asVolume name listed.val).phase.message = some reason then .ret (.ok ())
    else
      (volumes.mutateIf name listed.val.uid fun obj =>
        (edited (pendingFor reason pass.now) name obj, ())).map finished
  | .ok node =>
    (volumes.update name listed.rev (edited (placedOn node) name listed.val)).bind fun
      | .ok _ => .ret (.ok ())
      | .error (.conflict _) => .ret (.ok ())
      | .error why => .ret (.error why)

def reconcileVolume (name : String) (listed : Versioned VolumeObject) (pass : VolumePass) :
    VolumeCall Outcome :=
  if listed.val.metadata.deletionTimestamp.isSome then release name listed pass
  else if listed.val.body.node.isNone then (placeVolume name listed pass).map .done
  else .ret (.done (.ok ()))

def deleteVolume (name : String) (now : Instant) : VolumeCall (Except StoreError Unit) :=
  (volumes.mutate name fun obj => (mark now obj, ())).map finished

inductive Request where
  | hold (hold : Hold) (names : List String)
  | release (vm : VmObject) (names : List String)
  | moveHome (vm : VmObject) (source target : String) (names : List String)
  | noteClaimant (name : String) (listed : Versioned VolumeObject) (vms : List VmObject)
  | ingest (lines : List (String × VolumeLine)) (now : Instant)
  | reconcile (name : String) (listed : Versioned VolumeObject) (pass : VolumePass)
  | noteReleasing (name : String) (listed : Versioned VolumeObject) (reason : String)
  | delete (name : String) (now : Instant)

namespace Request

def call : Request → VolumeCall Outcome
  | hold h names => (h.holdVolumes names).map .held
  | release vm names => (releaseNamedVolumes vm names).map fun _ => .done (.ok ())
  | moveHome vm source target names =>
    (moveVolumeHome vm source target names).map fun _ => .done (.ok ())
  | noteClaimant name listed vms =>
    (VolumeLifecycle.noteClaimant name listed vms).map .done
  | ingest lines now => (ingestVolumes lines now).map .done
  | reconcile name listed pass => reconcileVolume name listed pass
  | noteReleasing name listed reason => (noteVolumeReleasing name listed reason).map .done
  | delete name now => (deleteVolume name now).map .done

def listed : Request → Option (String × Versioned VolumeObject)
  | noteClaimant name obj _ | reconcile name obj _ | noteReleasing name obj _ => some (name, obj)
  | _ => none

end Request

abbrev VolumeStore := Store String VolumeObject

abbrev VolumeSite := Site Request String VolumeObject Outcome

structure SameHold (old new : VolumeStatus) : Prop where
  attachedTo : new.attachedTo = old.attachedTo
  attachedUid : new.attachedUid = old.attachedUid
  claimantGone : new.claimantGone = old.claimantGone
  openOn : new.openOn = old.openOn
  node : new.node = old.node

instance (old new : VolumeStatus) : Decidable (SameHold old new) :=
  decidable_of_iff (new.attachedTo = old.attachedTo ∧ new.attachedUid = old.attachedUid ∧
    new.claimantGone = old.claimantGone ∧ new.openOn = old.openOn ∧ new.node = old.node)
    ⟨fun h => ⟨h.1, h.2.1, h.2.2.1, h.2.2.2.1, h.2.2.2.2⟩,
      fun h => ⟨h.attachedTo, h.attachedUid, h.claimantGone, h.openOn, h.node⟩⟩

def unused : VolumeStatus where
  reported := none
  holder := none
  claimantGone := false
  backend := ""
  node := none
  openOn := []
  attachedTo := none
  attachedUid := none
  sizeGib := 0
  observedAt := none

def others (draw : Nat → String) (store : VolumeStore) (key : String) :
    Option VolumeObject → Bool
  | none => true
  | some new =>
    match store.cell key with
    | some old =>
      new.uid = old.val.uid &&
        (old.val.metadata.deletionTimestamp.isNone ||
          new.metadata.deletionTimestamp = old.val.metadata.deletionTimestamp) &&
        SameHold old.val.body new.body
    -- a mirrored volume has the cloud's uid, and is taken to be made once under it
    | none =>
      new.uid = draw store.next && new.metadata.deletionTimestamp.isNone && new.body = unused

def system (draw : Nat → String) : System Request String VolumeObject Fault Outcome where
  writes := others draw
  begins s request :=
    if request.listed.all fun e => (s.moments.filterMap (·.cell e.1)).contains e.2 then
      some request.call
    else none

end MeisterStack.ClusterController.VolumeLifecycle
