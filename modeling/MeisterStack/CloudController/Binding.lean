import MeisterStack.Foundation.Program
import MeisterStack.ControllerApi.Deletion
import MeisterStack.ControllerApi.Mirror

/-!
# Who holds a VM at the cloud tier

The writers of the two cluster fields of a VM: `spec.clusterName` is the binding,
`status.clusterName` the cluster that answered for the VM. For the theorems only, `acker` is the
cluster that last acked a create, and a report says whether it came before that ack.
-/

namespace MeisterStack.CloudController.Binding

open Foundation ControllerApi

structure Report where
  cluster : String
  vmsComplete : Bool
  line : Option VmLine
  received : Instant
  deriving DecidableEq

structure Heard where
  cluster : String
  received : Instant
  named : Bool
  beforeAck : Bool

structure State extends Slot Vm where
  heard : List Heard
  acker : Option String

namespace State

variable (s : State)

def put (vm : Vm) : State := { s with toSlot := s.toSlot.write vm.settle }

def mutate (edit : Vm → Vm) : State :=
  { s with toSlot := s.toSlot.mutate fun v => (edit v).settle }

def remove : State := { s with toSlot := s.toSlot.remove }

def hear (r : Report) : State :=
  if r.vmsComplete then
    { s with heard := s.heard ++ [⟨r.cluster, r.received, r.line.isSome, false⟩] }
  else s

def ack (cluster : String) : State :=
  { s with
    acker := some cluster
    heard := s.heard.map fun r => { r with beforeAck := true } }

end State

def ours (cluster : String) (vm : Vm) : Bool := vm.spec.clusterName = some cluster

def leavingCluster (listed : Vm) (report : Report) : Bool :=
  report.vmsComplete && listed.spec.clusterName.isNone &&
    listed.status.clusterName = some report.cluster && report.line.isNone

def forgetUnbound (report : Report) (v : Vm) : Vm :=
  if v.spec.clusterName.isNone && v.status.clusterName = some report.cluster then
    { v with
      status := { v.status with
        clusterName := none
        nodeName := none
        reported := some (.here .pending .unbound
          (some s!"cluster {report.cluster} let go; waiting to be placed") report.received)
        silence := none
        reschedules := min (v.status.reschedules + 1) u32Max
        observedAt := some report.received } }
  else v

def ingestPhases (report : Report) (phase : VmPhaseKind) (reason : VmReason)
    (message : Option String) (v : Vm) : Vm :=
  if ours report.cluster v then
    { v with
      status := { v.status with
        reported := some (.of report.cluster phase reason message report.received)
        silence := none
        clusterName := v.spec.clusterName
        observedAt := some report.received } }
  else v

def recordAcked (cluster : String) (now : Instant) (v : Vm) : Vm :=
  { v with
    status := { v.status with
      observedAt := some now
      clusterName := v.spec.clusterName
      reported :=
        if v.status.phase.kind = .pending then
          some (.here .provisioning .dispatched (some s!"{cluster} was told") now)
        else v.status.reported } }

def recordRejected (message : String) (now : Instant) (v : Vm) : Vm :=
  { v with
    status := { v.status with
      reported := some (.here .failed .refused (some message) now)
      clusterName := v.spec.clusterName
      observedAt := some now } }

def recordDestroyed (now : Instant) (v : Vm) : Vm :=
  { v with status := { v.status with observedAt := some now } }

def releaseBinding (v : Vm) : Vm := { v with spec := { v.spec with clusterName := none } }

def evacuate (mark : Evacuating) (v : Vm) : Vm :=
  { releaseBinding v with
    status := { v.status with evacuating := some ⟨mark.origin, some .moving⟩ } }

def evacuates (vm : Vm) (cluster : String) : Option Evacuating :=
  vm.status.evacuating.filter fun mark =>
    mark.origin = cluster && mark.step = some .stopping && vm.status.phase.kind = .stopped

def bindTo (vm : Vm) (cluster : String) : Vm :=
  { vm with
    spec := { vm.spec with clusterName := some cluster }
    status := { vm.status with placement := none } }

def statusIsCurrent (vm : Vm) (reportedAt : Instant) : Bool :=
  isCurrent vm.deletionTimestamp vm.status.observedAt reportedAt

def currentReport (vm : Vm) (cluster : String) (report : Option Heard) : Bool :=
  report.any fun r => r.cluster = cluster && statusIsCurrent vm r.received

inductive Verdict where
  | neverPlaced
  | absent (cluster : String)

def Verdict.concluded : Verdict → Vm → Bool
  | .neverPlaced, v => v.isDeleting && v.spec.clusterName.isNone
  | .absent _, v => v.isDeleting

inductive Event where
  | status (r : Report)
  | pass
  | drain
  | release
  | delete (now : Instant)
  | write (vm : Vm)

inductive Task where
  | ingest (report : Report)
  | forget (listed : Vm) (report : Report)
  | phases (listed : Vm) (report : Report)
  | pass (vm : Versioned Vm)
  | sent (cluster : String)
  | acked (cluster : String)
  | rejected (message : String)
  | evacuating (mark : Evacuating)
  | draining
  | bind (vm : Versioned Vm) (cluster : String)
  | destroying
  | destroyed
  | finish (verdict : Verdict) (d : Deletion Vm)

inductive Input where
  | go (now : Instant)
  | place (cluster : String)
  | create (report : Nat)
  | evacuate (report : Nat)
  | report (kept : Option Nat)
  | acked
  | rejected (message : String)

def mayWrite (old new : Vm) : Bool :=
  new.uid = old.uid && new.name = old.name && new.spec.clusterName = old.spec.clusterName &&
    new.status.clusterName = old.status.clusterName &&
    new.status.observedAt = old.status.observedAt &&
    new.deletionTimestamp = old.deletionTimestamp

variable (s : State)

def env (event : Event) : Option (State × List Task) :=
  match event with
  | .status r => some (s.hear r, [.ingest r])
  | .pass => s.cell.map fun v => (s, [.pass v])
  | .drain =>
    match s.cell with
    | some v =>
      if v.val.spec.clusterName.isSome && !v.val.isDeleting && drainReschedules v.val then
        some (s, [.draining])
      else none
    | none => none
  | .release =>
    match s.cell with
    | some v =>
      if stoppedEnough v.val.spec.runStrategy v.val.status.phase.kind then
        some (s.put (releaseBinding v.val), [])
      else none
    | none => none
  | .delete now =>
    s.cell.map fun v =>
      (s.put { v.val with deletionTimestamp := v.val.deletionTimestamp.or (some now) }, [])
  | .write vm =>
    match s.cell with
    | some v => if mayWrite v.val vm then some (s.put vm, []) else none
    | none => none

def teardown (vm : Versioned Vm) (cluster : String) (kept : Option Nat) :
    Option (State × List Task) :=
  match kept.map fun i => s.heard[i]? with
  | none => some (s, [.destroying])
  | some none => none
  | some (some r) =>
    if r.cluster ≠ cluster then none
    else if r.named then some (s, [.destroying])
    else if statusIsCurrent vm.val r.received then
      some (s, [.finish (.absent cluster) (.of vm)])
    else some (s, [])

def pass (vm : Versioned Vm) (input : Input) : Option (State × List Task) :=
  if vm.val.isDeleting then
    match vm.val.spec.clusterName, input with
    | none, _ => some (s, [.finish .neverPlaced (.of vm)])
    | some cluster, .report kept => teardown s vm cluster kept
    | some _, _ => none
  else
    match vm.val.spec.clusterName, input with
    | none, .place cluster =>
      -- The old cluster is told first; that writes nothing.
      if vm.val.status.clusterName.isSome then some (s, [])
      else some (s, [.bind vm cluster])
    | some cluster, .create i =>
      if currentReport vm.val cluster s.heard[i]? && vm.val.status.phase.kind != .failed then
        some (s, [.sent cluster])
      else none
    | some cluster, .evacuate i =>
      if currentReport vm.val cluster s.heard[i]? && vm.val.status.phase.kind != .failed then
        match evacuates vm.val cluster with
        | some mark => some (s, [.evacuating mark])
        | none => none
      else none
    | _, _ => none

def task (t : Task) (input : Input) : Option (State × List Task) :=
  match t, input with
  | .ingest r, .go _ => some (s, (s.cell.map fun v => Task.forget v.val r).toList)
  | .forget listed r, .go _ =>
    if leavingCluster listed r then some (s.mutate (forgetUnbound r), [.phases listed r])
    else some (s, [.phases listed r])
  | .phases listed r, .go _ =>
    match r.line.bind (observe (ours r.cluster) listed) with
    | some (phase, reason, message) =>
      some (s.mutate (ingestPhases r phase reason message), [])
    | none => some (s, [])
  | .pass vm, input => pass s vm input
  | .sent cluster, .acked => some (s.ack cluster, [.acked cluster])
  | .sent _, .rejected message => some (s, [.rejected message])
  | .acked cluster, .go now => some (s.mutate (recordAcked cluster now), [])
  | .rejected message, .go now => some (s.mutate (recordRejected message now), [])
  | .evacuating mark, .go _ => some (s.mutate (evacuate mark), [])
  | .draining, .go _ => some (s.mutate releaseBinding, [])
  | .bind vm cluster, .go _ =>
    if s.cell.standsAt vm.rev then some (s.put (bindTo vm.val cluster), [])
    else some (s, [])
  | .destroying, .acked => some (s, [.destroyed])
  | .destroyed, .go now => some (s.mutate (recordDestroyed now), [])
  | .finish verdict d, .go _ =>
    match finishDelete Vm.uid verdict.concluded s.cell d with
    | .ended => some (s, [])
    | .removed => some (s.remove, [])
    | .again d' => some (s, [.finish verdict d'])
  | _, _ => none

def program : Program State Task Event Input := ⟨env, task⟩

end MeisterStack.CloudController.Binding
