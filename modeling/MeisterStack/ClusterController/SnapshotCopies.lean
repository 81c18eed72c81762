import MeisterStack.Foundation.Program
import MeisterStack.ControllerApi.Deletion
import MeisterStack.ControllerApi.Mirror

/-!
# The copies of a snapshot on the nodes

A pass has a snapshot taken by the node its volume is on, written on the object before the command
goes out. A command that fails, or whose answer does not come, puts the snapshot back into the
queue.
-/

namespace MeisterStack.ClusterController.SnapshotCopies

open Foundation ControllerApi

inductive VolumeSnapshotPhaseKind where
  | pending | creating | ready | failed
  deriving DecidableEq

def VolumeSnapshotPhaseKind.resting : VolumeSnapshotPhaseKind → Bool
  | .ready => true
  | _ => false

inductive VolumeSnapshotReason where
  | unrecorded | awaitingNode | dispatched | requeued | sourceGone | undeliverable
  -- words of a node
  | working | driverRefused | dropped
  deriving DecidableEq

abbrev VolumeSnapshotPhase := Phase VolumeSnapshotPhaseKind VolumeSnapshotReason

abbrev VolumeSnapshotReported := Word VolumeSnapshotPhaseKind VolumeSnapshotReason

structure VolumeSnapshot where
  uid : String
  volume : String
  deletedAt : Option Instant
  finalizer : Bool
  node : Option String
  reported : Option VolumeSnapshotReported
  backend : String
  sizeGib : Nat
  observedAt : Option Instant
  requeueAttempts : Sat 4294967295
  lastRequeue : Option Instant

namespace VolumeSnapshot

section

variable (v : VolumeSnapshot)

def phase : VolumeSnapshotPhase :=
  match v.reported.bind (Word.toPhase VolumeSnapshotPhaseKind.resting) with
  | some phase => phase
  | none =>
    Phase.new VolumeSnapshotPhaseKind.resting .pending .awaitingNode
      (some "no node has been told to take it yet")

def new (uid volume : String) : VolumeSnapshot :=
  ⟨uid, volume, none, true, none, none, "", 0, none, Sat.zero, none⟩

def sentTo (node : String) : VolumeSnapshot :=
  { v with
    node := some node
    reported := some (.here .creating .dispatched (some (node ++ " was told"))) }

def failing (reason : VolumeSnapshotReason) (message : String) :
    VolumeSnapshot :=
  { v with reported := some (.here .failed reason (some message)) }

def requeued (now : Instant) : VolumeSnapshot :=
  let attempts := v.requeueAttempts.add (Sat.clamp 1)
  { v with
    reported := some (.here .pending .requeued
      (some ("attempt " ++ toString attempts.val ++ " after a failure")))
    requeueAttempts := attempts
    lastRequeue := some now }

end

end VolumeSnapshot

structure VolumeAt where
  uid : String
  node : Option String
  ready : Bool

inductive Op where
  | snapshotVolume (volume snapshot : String)
  | dropSnapshot (snapshot : String)

structure Command where
  seq : Nat
  node : String
  op : Op

inductive Said where
  | gone
  | phase (phase : VolumeSnapshotPhaseKind)
  | unknown
  deriving DecidableEq

structure SnapshotState where
  snapshot : String
  said : Said
  reason : VolumeSnapshotReason
  message : Option String
  backend : String
  sizeBytes : Nat

structure StatusReport where
  node : String
  made : Nat
  snapshots : List SnapshotState

def StatusReport.saysGone (r : StatusReport) (uid : String) : Bool :=
  r.snapshots.any fun e => e.snapshot = uid && e.said = .gone

structure State where
  next : Nat
  drawn : List String
  snapshots : Table String VolumeSnapshot
  volumes : Table String VolumeAt
  sent : Nat
  wire : List Command
  answers : List (Nat × Option String)
  time : Nat
  reports : List StatusReport

namespace State

def put (s : State) (name : String) (v : VolumeSnapshot) : State :=
  { s with next := s.next + 1, snapshots := s.snapshots.put name s.next v }

def mutate (s : State) (name uid : String) (edit : VolumeSnapshot → VolumeSnapshot) : State :=
  match s.snapshots.cell name with
  | some v => if v.val.uid = uid then s.put name (edit v.val) else s
  | none => s

def send (s : State) (node : String) (op : Op) : State :=
  { s with sent := s.sent + 1, wire := s.wire ++ [⟨s.sent, node, op⟩] }

end State

inductive Still where
  | unplaced
  | goneHere (node : String)

def Still.holds : Still → VolumeSnapshot → Bool
  | .unplaced, v => v.deletedAt.isSome && v.node.isNone
  | .goneHere node, v => v.deletedAt.isSome && v.node = some node

inductive Task where
  | findVolume (name : String) (v : Versioned VolumeSnapshot)
  | claim (name : String) (v : Versioned VolumeSnapshot) (volume node : String)
  | quiesce (name uid volume node : String)
  | send (name uid volume node : String)
  | awaitAnswer (name uid : String) (seq : Nat)
  | noteFailed (name uid : String) (reason : VolumeSnapshotReason) (message : String)
  | requeue (name uid : String) (now : Instant)
  | sendDrop (uid node : String)
  | takeFinalizer (name uid : String) (still : Still)
  | finish (name : String) (still : Still) (d : Deletion VolumeSnapshot)
  | ingest (r : StatusReport) (now : Instant)
  | tombstone (name uid : String) (r : StatusReport) (now : Instant)
  | observe (name uid : String) (said : VolumeSnapshotReported) (backend : String) (sizeGib : Nat)
      (now : Instant)

inductive Input where
  | go
  -- a read or a write that fails, a node without a session
  | fail (why : String)
  -- a command that went out and is not answered, a guest that is not paused
  | lost (why : String)

inductive Event where
  | createSnapshot (name uid volume : String)
  | deleteSnapshot (name : String) (now : Instant)
  | putVolume (name : String) (v : VolumeAt)
  | removeVolume (name : String)
  -- a pass that lists the snapshot, on a replica with these sessions and these connected nodes;
  -- `delay` is what the requeue policy answers
  | reconcile (name : String) (sessions connected : List String) (delay : Option Nat)
      (now : Instant)
  -- a node takes a command off the wire
  | handle (seq : Nat) (refusal : Option String)
  | report (node : String) (snapshots : List SnapshotState)
  | deliver (node : String) (now : Instant)

def mayReconcile (v : VolumeSnapshot) (sessions : List String) : Bool :=
  v.node.all fun node => sessions.contains node

def requeueDue (last : Option Instant) (delay : Option Nat) (now : Instant) : Bool :=
  match last, delay with
  | none, _ => true
  | some _, none => false
  | some since, some delay => since + delay ≤ now

def dropSnapshot (name : String) (v : VolumeSnapshot) (connected : List String) : List Task :=
  match v.node with
  | none => [.takeFinalizer name v.uid .unplaced]
  | some node => if connected.contains node then [.sendDrop v.uid node] else []

def reconcileSnapshot (name : String) (v : Versioned VolumeSnapshot) (connected : List String)
    (delay : Option Nat) (now : Instant) : List Task :=
  if v.val.deletedAt.isSome then dropSnapshot name v.val connected
  else
    match v.val.phase.kind with
    | .pending => [.findVolume name v]
    | .failed =>
      if requeueDue v.val.lastRequeue delay now then [.requeue name v.val.uid now] else []
    | .creating | .ready => []

variable (s : State)

def env : Event → Option (State × List Task)
  | .createSnapshot name uid volume =>
    if (s.snapshots.cell name).isSome || s.drawn.contains uid then none
    else some ({ s.put name (.new uid volume) with drawn := uid :: s.drawn }, [])
  | .deleteSnapshot name now => do
      let v ← s.snapshots.cell name
      return (s.put name { v.val with deletedAt := v.val.deletedAt.or (some now) }, [])
  | .putVolume name v =>
    some ({ s with next := s.next + 1, volumes := s.volumes.put name s.next v }, [])
  | .removeVolume name =>
    some ({ s with next := s.next + 1, volumes := s.volumes.remove name }, [])
  | .reconcile name sessions connected delay now => do
      let v ← s.snapshots.cell name
      if mayReconcile v.val sessions then return (s, reconcileSnapshot name v connected delay now)
      else none
  | .handle seq refusal =>
    if s.wire.any fun c => c.seq = seq then
      some ({ s with
        wire := s.wire.filter fun c => c.seq ≠ seq
        answers := (seq, refusal) :: s.answers
        time := s.time + 1 }, [])
    else none
  | .report node snapshots =>
    some ({ s with
      reports := s.reports ++ [⟨node, s.time, snapshots⟩]
      time := s.time + 1 }, [])
  | .deliver node now => do
      let r ← s.reports.find? fun r => r.node = node
      return ({ s with reports := s.reports.eraseP fun r => r.node = node }, [.ingest r now])

def findVolume (name : String) (v : Versioned VolumeSnapshot) : List Task :=
  match s.volumes.cell v.val.volume with
  | none =>
    [.noteFailed name v.val.uid .sourceGone
      ("volume " ++ v.val.volume ++ " does not exist here any more")]
  | some volume =>
    match volume.val.node, volume.val.ready with
    | some node, true => [.claim name v volume.val.uid node]
    | _, _ => []

def claim (name : String) (v : Versioned VolumeSnapshot) (volume node : String) :
    State × List Task :=
  if (s.snapshots.cell name).standsAt v.rev then
    (s.put name (v.val.sentTo node), [.quiesce name v.val.uid volume node])
  else (s, [])

def awaitAnswer (name uid : String) (seq : Nat) : Option (State × List Task) :=
  (s.answers.lookup seq).map fun refusal =>
    (s, refusal.toList.map fun why => .noteFailed name uid .undeliverable why)

def takeFinalizer (name uid : String) (still : Still) : State × List Task :=
  match s.snapshots.cell name with
  | some v =>
    if v.val.uid = uid then
      if still.holds v.val then
        let released := { v.val with finalizer := false }
        (s.put name released, [.finish name still (.of ⟨s.next, released⟩)])
      else (s.put name v.val, [])
    else (s, [])
  | none => (s, [])

def finish (name : String) (still : Still) (d : Deletion VolumeSnapshot) :
    State × List Task :=
  match finishDelete VolumeSnapshot.uid (fun v => still.holds v && !v.finalizer)
      (s.snapshots.cell name) d with
  | .removed => ({ s with next := s.next + 1, snapshots := s.snapshots.remove name }, [])
  | .ended => (s, [])
  | .again d => (s, [.finish name still d])

def SnapshotState.sizeGib (e : SnapshotState) : Nat := (e.sizeBytes + 1073741823) / 1073741824

def ingestOne (r : StatusReport) (now : Instant) (name : String) (v : VolumeSnapshot)
    (e : SnapshotState) : List Task :=
  if v.node ≠ some r.node then []
  else if !isCurrent v.deletedAt v.observedAt now then []
  else
    match e.said with
    | .gone =>
      if v.deletedAt.isSome then [.takeFinalizer name v.uid (.goneHere r.node)]
      else [.tombstone name v.uid r now]
    | .unknown => []
    | .phase phase =>
      let said : VolumeSnapshotReported := .of r.node phase e.reason e.message
      if v.reported = some said ∧ v.sizeGib = e.sizeGib ∧ (e.backend = "" ∨ v.backend = e.backend)
      then []
      else [.observe name v.uid said e.backend e.sizeGib now]

def ingest (r : StatusReport) (now : Instant) : List Task :=
  r.snapshots.flatMap fun e =>
    match s.snapshots.list.find? fun listed => listed.2.val.uid = e.snapshot with
    | none => []
    | some listed => ingestOne r now listed.1 listed.2.val e

def tombstone (r : StatusReport) (now : Instant) (v : VolumeSnapshot) : VolumeSnapshot :=
  if v.node ≠ some r.node ∨ v.deletedAt.isSome then v
  else
    { v with
      reported := some (.here .pending .sourceGone (some (r.node ++ " no longer has this copy")))
      node := none
      backend := ""
      observedAt := some now }

def observe (said : VolumeSnapshotReported) (backend : String) (sizeGib : Nat) (now : Instant)
    (v : VolumeSnapshot) : VolumeSnapshot :=
  if v.node ≠ some said.node || !isCurrent v.deletedAt v.observedAt now then v
  else
    { v with
      reported := some said
      backend := if backend = "" then v.backend else backend
      sizeGib := if sizeGib = 0 then v.sizeGib else sizeGib
      observedAt := some now }

def task : Task → Input → Option (State × List Task)
  | .findVolume name v, .go => some (s, findVolume s name v)
  | .claim name v volume node, .go => some (claim s name v volume node)
  | .quiesce name uid volume node, .go => some (s, [.send name uid volume node])
  | .quiesce name uid _ _, .lost why =>
    some (s, [.noteFailed name uid .undeliverable
      ("pausing the vm for a consistent copy failed: " ++ why)])
  | .send name uid volume node, .go =>
    some (s.send node (.snapshotVolume volume uid), [.awaitAnswer name uid s.sent])
  | .send name uid _ _, .fail why | .send name uid _ _, .lost why =>
    some (s, [.noteFailed name uid .undeliverable why])
  | .awaitAnswer name uid seq, .go => awaitAnswer s name uid seq
  | .awaitAnswer name uid _, .fail why | .awaitAnswer name uid _, .lost why =>
    some (s, [.noteFailed name uid .undeliverable why])
  | .noteFailed name uid reason message, .go =>
    some (s.mutate name uid fun v => v.failing reason message, [])
  | .requeue name uid now, .go => some (s.mutate name uid fun v => v.requeued now, [])
  | .sendDrop uid node, .go => some (s.send node (.dropSnapshot uid), [])
  | .takeFinalizer name uid still, .go => some (takeFinalizer s name uid still)
  | .finish name still d, .go => some (finish s name still d)
  | .ingest r now, .go => some (s, ingest s r now)
  | .tombstone name uid r now, .go => some (s.mutate name uid (tombstone r now), [])
  | .observe name uid said backend sizeGib now, .go =>
    some (s.mutate name uid (observe said backend sizeGib now), [])
  | _, _ => some (s, [])

def program : Program State Task Event Input := ⟨env, task⟩

end MeisterStack.ClusterController.SnapshotCopies
