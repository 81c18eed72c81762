import MeisterStack.ClusterController.Placement
import MeisterStack.ControllerApi.Deletion
import MeisterStack.ControllerApi.Mirror

/-!
# Who holds a VM at the cluster tier

One stored VM, the writers that move it between nodes, and what goes to and comes from the nodes.
`spec.nodeName` is the binding and `status.nodeName` the node that is known to hold an instance. The
log is a history variable, newest first.
-/

namespace MeisterStack.ClusterController.Holder

open Foundation ControllerApi
open ClusterController.Placement (boundTo mayPlace)

structure Report where
  node : String
  vmsComplete : Bool
  line : Option VmLine
  received : Instant

inductive Fact where
  | createSent (node : String)
  | cannotServe (node : String)
  | destroyAcked (node : String)
  | reported (node : String) (complete named : Bool)
  | bound (node : String)

structure State extends Slot Vm where
  log : List Fact

namespace State

variable (s : State)

def note (fact : Fact) : State := { s with log := fact :: s.log }

def put (vm : Vm) : State := { s with toSlot := s.toSlot.write vm.settle }

def mutate (edit : Vm → Vm) : State :=
  { s with toSlot := s.toSlot.mutate fun v => (edit v).settle }

def remove : State := { s with toSlot := s.toSlot.remove }

end State

def ours (node : String) (vm : Vm) : Bool := vm.spec.nodeName.all (· == node)

def lettingGo (listed : Vm) (report : Report) : Bool :=
  report.vmsComplete && listed.spec.nodeName.isNone &&
    listed.status.nodeName = some report.node && report.line.isNone

def forgetUnbound (report : Report) (v : Vm) : Vm :=
  if v.spec.nodeName.isNone && v.status.nodeName = some report.node then
    { v with
      status := { v.status with
        nodeName := none
        reported := some (.here .pending .unbound
          (some s!"node {report.node} let go; waiting to be placed") report.received)
        silence := none
        reschedules := min (v.status.reschedules + 1) u32Max
        observedAt := some report.received } }
  else v

def ingestPhases (report : Report) (phase : VmPhaseKind) (reason : VmReason)
    (message : Option String) (v : Vm) : Vm :=
  if ours report.node v then
    { v with
      status := { v.status with
        reported := some (.of report.node phase reason message report.received)
        silence := none
        nodeName := v.spec.nodeName
        observedAt := some report.received } }
  else v

def createAnswer (refusal : Option String) (current : VmPhaseKind) :
    Option (VmPhaseKind × Option String) :=
  match refusal with
  | none => if current = .pending then some (.provisioning, none) else none
  | some said => if current = .quarantined then none else some (.failed, some said)

def dispatchCreate (said : Option String) (now : Instant) (v : Vm) : Vm :=
  match createAnswer said v.status.phase.kind with
  | none => v
  | some (phase, message) =>
    let reason := match phase with
      | .failed => VmReason.refused
      | _ => VmReason.dispatched
    { v with
      status := { v.status with
        reported := some (.here phase reason message now)
        nodeName := v.spec.nodeName
        observedAt := some now } }

def kick (node : String) (now : Instant) (v : Vm) : Vm :=
  if v.status.phase.kind = .failed then
    { v with
      status := { v.status with
        reported := some (.here .provisioning .dispatched
          (some s!"{node} was told again") now) } }
  else v

def refusalTtl : Nat := 600

def unbindRefused (node said : String) (now : Instant) (v : Vm) : Vm :=
  { v with
    spec := { v.spec with nodeName := none }
    status := { v.status with
      reported := some (.here .pending .refused (some said) now)
      placement := none
      refusedBy := (v.status.refusedBy.filter fun r => r.node != node) ++
        [⟨node, said, now + refusalTtl⟩] } }

def clearBinding (v : Vm) : Vm := { v with spec := { v.spec with nodeName := none } }

def evacuate (mark : Evacuating) (v : Vm) : Vm :=
  { clearBinding v with
    status := { v.status with evacuating := some ⟨mark.origin, some .moving⟩ } }

def evacuates (vm : Vm) (node : String) : Option Evacuating :=
  vm.status.evacuating.filter fun mark =>
    mark.origin = node && mark.step = some .stopping && vm.status.phase.kind = .stopped

def destroyTarget (vm : Vm) : Option String :=
  vm.spec.nodeName.filter fun _ => vm.status.phase.kind != .pending

def judged (checked v : Vm) : Bool :=
  v.isDeleting && destroyTarget v = destroyTarget checked

def mayHotPlug (phase : VmPhaseKind) : Bool := phase = .running || phase = .stopped

inductive Event where
  | list
  | pass
  | drain
  | unbind
  | delete (now : Instant)
  | write (vm : Vm)

inductive Task where
  | index (listed : Vm)
  | forget (listed : Vm) (report : Report)
  | phases (listed : Vm) (report : Report)
  | pass (vm : Versioned Vm)
  | created (vm : Versioned Vm) (node : String)
  | answered (said : Option String)
  | refused (node said : String)
  | kicked (node : String)
  | kickAcked (node : String)
  | unbinding (old : String)
  | evacuating (mark : Evacuating)
  | draining
  | bind (vm : Versioned Vm) (node : String)
  | destroying (checked : Versioned Vm) (node : String)
  | finish (d : Deletion Vm)

inductive Input where
  | go (now : Instant)
  | report (r : Report)
  | place (node : String)
  | create
  | kick
  | evacuate
  | acked
  | cannotServe (said : String)
  | failed (said : String)

def mayWrite (old new : Vm) : Bool :=
  new.uid = old.uid && new.name = old.name && new.spec.nodeName = old.spec.nodeName &&
    new.spec.clusterName = old.spec.clusterName && new.status.nodeName = old.status.nodeName &&
    new.status.clusterName = old.status.clusterName &&
    new.status.reported = old.status.reported && new.deletionTimestamp = old.deletionTimestamp

variable (s : State)

def env (event : Event) : Option (State × List Task) :=
  match s.cell with
  | none => none
  | some v =>
    match event with
    | .list => some (s, [.index v.val])
    | .pass => some (s, [.pass v])
    | .drain =>
      if v.val.spec.nodeName.isSome && drainReschedules v.val then some (s, [.draining])
      else none
    | .unbind =>
      if stoppedEnough v.val.spec.runStrategy v.val.status.phase.kind then
        some (s.put (clearBinding v.val), [])
      else none
    | .delete now =>
      some (s.put { v.val with
        deletionTimestamp := v.val.deletionTimestamp.or (some now) }, [])
    | .write vm => if mayWrite v.val vm then some (s.put vm, []) else none

def pass (vm : Versioned Vm) (input : Input) : Option (State × List Task) :=
  if vm.val.isDeleting then
    match destroyTarget vm.val with
    | some node => some (s, [.destroying vm node])
    | none => some (s, [.finish (.of vm)])
  else
    match vm.val.spec.nodeName with
    | none =>
      match vm.val.status.nodeName with
      | some old => some (s, [.unbinding old])
      | none =>
        match input with
        | .place node => some (s, [.bind vm node])
        | _ => none
    | some node =>
      match input with
      | .create =>
        if vm.val.status.phase.kind = .pending || mayHotPlug vm.val.status.phase.kind then
          some (s.note (.createSent node), [.created vm node])
        else none
      | .failed said =>
        -- No session to send the create on: nothing was sent.
        if vm.val.status.phase.kind = .pending || mayHotPlug vm.val.status.phase.kind then
          some (s, [.answered (some said)])
        else none
      | .evacuate =>
        match evacuates vm.val node with
        | some mark => some (s, [.evacuating mark])
        | none => none
      | .kick =>
        if vm.val.status.phase.kind = .failed && vm.val.status.evacuating.isNone then
          some (s.note (.createSent node), [.kicked node])
        else none
      | _ => none

def task (t : Task) (input : Input) : Option (State × List Task) :=
  match t, input with
  | .index listed, .report r =>
    some (s.note (.reported r.node r.vmsComplete r.line.isSome),
      [.index listed, .forget listed r])
  | .forget listed r, .go _ =>
    if lettingGo listed r then some (s.mutate (forgetUnbound r), [.phases listed r])
    else some (s, [.phases listed r])
  | .phases listed r, .go _ =>
    match r.line.bind (observe (ours r.node) listed) with
    | some (phase, reason, message) =>
      some (s.mutate (ingestPhases r phase reason message), [])
    | none => some (s, [])
  | .pass vm, input => pass s vm input
  | .created _ _, .acked => some (s, [.answered none])
  | .created _ node, .cannotServe said =>
    some (s.note (.cannotServe node), [.refused node said])
  | .created _ _, .failed said => some (s, [.answered (some said)])
  | .answered said, .go now => some (s.mutate (dispatchCreate said now), [])
  | .refused node said, .go now => some (s.mutate (unbindRefused node said now), [])
  | .kicked node, .acked => some (s, [.kickAcked node])
  | .kicked node, .cannotServe _ => some (s.note (.cannotServe node), [])
  | .kickAcked node, .go now => some (s.mutate (kick node now), [])
  | .unbinding old, .acked => some (s.note (.destroyAcked old), [])
  | .evacuating mark, .go _ => some (s.mutate (evacuate mark), [])
  | .draining, .go _ => some (s.mutate clearBinding, [])
  | .bind vm node, .go _ =>
    if s.cell.standsAt vm.rev then some ((s.put (boundTo vm.val node)).note (.bound node), [])
    else some (s, [])
  | .destroying checked node, .acked =>
    some (s.note (.destroyAcked node), [.finish (.of checked)])
  | .finish d, .go _ =>
    match finishDelete Vm.uid (judged d.checked.val) s.cell d with
    | .ended => some (s, [])
    | .removed => some (s.remove, [])
    | .again d' => some (s, [.finish d'])
  | _, _ => none

def program : Program State Task Event Input := ⟨env, task⟩

def lastBound : List Fact → Option String
  | [] => none
  | .bound node :: _ => some node
  | _ :: earlier => lastBound earlier

def stillReports (node : String) : List Fact → Bool
  | [] => false
  | .reported n _ named :: earlier => if n = node then named else stillReports node earlier
  | _ :: earlier => stillReports node earlier

/--
A create was sent to the node, and since then it has neither refused to serve
the VM nor been seen without it in a complete report.
-/
def mayHold (node : String) : List Fact → Bool
  | [] => false
  | .createSent n :: earlier => n = node || mayHold node earlier
  | .cannotServe n :: earlier => n != node && mayHold node earlier
  | .reported n complete named :: earlier =>
    !(n = node && complete && !named) && mayHold node earlier
  | _ :: earlier => mayHold node earlier

def ackedDestroy (node : String) : List Fact → Bool
  | [] => false
  | .destroyAcked n :: earlier => n = node || ackedDestroy node earlier
  | .createSent n :: earlier => n != node && ackedDestroy node earlier
  | _ :: earlier => ackedDestroy node earlier

end MeisterStack.ClusterController.Holder
