import MeisterStack.Foundation.Program
import MeisterStack.Foundation.Revision
import MeisterStack.ControllerApi.Migration

/-!
# Live migrations

The migration records of a cluster, the VMs they name, and any number of replicas that step them. A
step of `reconcileMigrations` works on the record as it was listed and reads the VM afresh.
-/

namespace MeisterStack.ClusterController.Migration

open Foundation ControllerApi

inductive Fact where
  -- `MigrateOut` went to the source, and the source answered `CannotSend` to the one
  -- sent after the write of this revision
  | migrateOut (uid : String)
  | cannotSend (rev : Nat)
  -- `cancelling` was written over a record in this phase
  | cancelled (uid : String) (kind : VmMigrationPhaseKind)
  -- `CleanupMigration` with `source: false` went to the destination
  | cleanup (uid : String)
  -- `settle` wrote the binding of the VM
  | bound (uid : String)
  | ended (uid : String) (kind : VmMigrationPhaseKind)
  deriving DecidableEq

structure State where
  next : Nat
  records : Table String VmMigration
  vms : Table String Vm
  known : List (String × String × String)
  log : List Fact

namespace State

variable (s : State)

def note (fact : Fact) : State := { s with log := s.log ++ [fact] }

def putRecord (m : VmMigration) : State :=
  { s with next := s.next + 1, records := s.records.put m.name s.next m }

def removeRecord (name : String) : State :=
  { s with next := s.next + 1, records := s.records.remove name }

variable (name uid : String)

def create (spec : VmMigrationSpec) : State :=
  { s.putRecord (.declare name uid s.next spec) with
    known := (uid, name, spec.vm) :: s.known }

def putVm (key : String) (vm : Vm) : State :=
  { s with next := s.next + 1, vms := s.vms.put key s.next vm.settle }

def removeVm (key : String) : State :=
  { s with next := s.next + 1, vms := s.vms.remove key }

def find : Option VmMigration :=
  ((s.records.cell name).filter fun v => v.val.uid = uid).map Versioned.val

def mutateIf (edit : VmMigration → VmMigration) : State :=
  match s.find name uid with
  | some m => s.putRecord (edit m)
  | none => s

def stands (m : Versioned VmMigration) : Bool :=
  (s.records.cell m.val.name).standsAt m.rev

end State

def claim (vm : Vm) (source target : String) (now : Instant) (m : VmMigration) : VmMigration :=
  { m with
    status := { m.status with
      migrationId := some m.uid
      vmUid := some vm.uid
      sourceNode := some source
      targetNode := some target
      startedAt := some now
      reported := some (.here .preparing .dispatched (some s!"preparing {target}") now) } }

def notePeer (target peer : String) (now : Instant) (m : VmMigration) : VmMigration :=
  if m.status.cancelling || m.kind ≠ .preparing then m
  else
    { m with
      status := { m.status with
        peer := some peer
        reported := some (.here m.kind .dispatched
          (some s!"{target} is listening at {peer}") now) } }

def startSending (target peer : String) (now : Instant) (m : VmMigration) : VmMigration :=
  { m with
    status := { m.status with
      reported := some (.here .running .dispatched
        (some s!"sending to {target} at {peer}") now) } }

def cancel (m : VmMigration) : VmMigration :=
  { m with status := { m.status with cancelling := true } }

def unresolved (why : String) (now : Instant) (m : VmMigration) : VmMigration :=
  if m.kind.isFinal then m
  else
    { m with
      status := { m.status with
        recoveryRequired := true
        reported := some (.here m.kind .reported (some why) now) } }

def fail (why : String) (now : Instant) (m : VmMigration) : VmMigration :=
  { m with
    status := { m.status with
      recoveryRequired := false
      finishedAt := some now
      reported := some (.here .failed .abandoned (some why) now) } }

def succeed (vm target : String) (now : Instant) (m : VmMigration) : VmMigration :=
  { m with
    status := { m.status with
      recoveryRequired := false
      finishedAt := some now
      reported := some (.of target .succeeded .unrecorded (some s!"{vm} is on {target}") now) } }

def bindTo (target : String) (vm : Vm) : Vm :=
  { vm with spec := { vm.spec with nodeName := some target } }

inductive Task where
  | step (m : Versioned VmMigration)
  | prepare (m : Versioned VmMigration) (vm : Vm)
  | siblings (m : Versioned VmMigration) (vm : Vm) (source target : String)
  | reserve (m : Versioned VmMigration) (vm : Vm) (source target : String)
  | openAt (claimed : Versioned VmMigration) (target : String)
  | peer (name uid target peer : String)
  | send (m : Versioned VmMigration) (source target peer : String)
  | migrateOut (running : Versioned VmMigration) (source target : String)
  | answer (running : Versioned VmMigration) (source target : String)
  | abandon (m : Versioned VmMigration) (target why : String)
  | cleanup (m : Versioned VmMigration) (why : String)
  | cleaned (m : Versioned VmMigration) (why : String)
  | fail (m : Versioned VmMigration) (why : String)
  | unresolved (name uid why : String)
  | bind (m : Versioned VmMigration) (vm : Versioned Vm) (target : String)
  | succeed (name uid vm target : String)
  | ingest (vm : Vm) (node : String) (line : MigrationReport)
  | report (name uid : String) (vm : Vm) (node : String) (line : MigrationReport)
  | remove (name : String) (rev : Nat)

inductive Event where
  | create (name uid : String) (spec : VmMigrationSpec)
  | delete (name : String)
  | pass
  | report (vm node : String) (line : MigrationReport)
  | writeVm (vm : Vm)
  | removeVm (name : String)

inductive Input where
  | go (now : Instant)
  | refused (why : String)
  | chosen (target : String)
  | reserved (elsewhere : Option String) (now : Instant)
  | ready (peer : String)
  | ok
  | lost (e : String)
  | cannotSend (message : String)

def Task.unresolvedOf (m : Versioned VmMigration) (why : String) : Task :=
  .unresolved m.val.name m.val.uid why

section

variable (timeouts : Timeouts) (m : Versioned VmMigration)

def send (now : Instant) : List Task :=
  if m.val.status.cancelling || m.val.kind ≠ .preparing then []
  else
    match m.val.status.sourceNode, m.val.status.targetNode with
    | some source, some target =>
      match overdue m.val timeouts.prepare now, peerOf m.val with
      | some elapsed, some _ =>
        [.abandon m target s!"the destination was not ready after {elapsed}s"]
      | some elapsed, none =>
        [.abandon m target
          (s!"the destination's address never reached this record, and {target} was not " ++
            s!"ready after {elapsed}s")]
      | none, none => []
      | none, some peer => [.send m source target peer]
    | _, _ =>
      [.unresolvedOf m "migration endpoints are missing; ownership requires recovery"]

def settle (vm : Versioned Vm) (now : Instant) : List Task :=
  match m.val.status.sourceNode, m.val.status.targetNode with
  | some source, some target =>
    if m.val.arrived then [.bind m vm target]
    else
      match stillHere source target m.val.status with
      | some (.tearDownTheDestination why) => [.abandon m target why]
      | some (.touchNothing why) => [.unresolvedOf m why]
      | none =>
        match overdue m.val (timeouts.prepare + timeouts.transfer) now with
        | none => []
        | some elapsed =>
          match verdictOnTimeout source target elapsed m.val.status.sourceReported
              m.val.status.targetReported with
          | .tearDownTheDestination why => [.abandon m target why]
          | .touchNothing why => [.unresolvedOf m why]
  | _, _ => [.unresolvedOf m "migration endpoints are missing; ownership requires recovery"]

def owned (m : VmMigration) (vm : Vm) : Bool :=
  m.status.migrationId.isSome && m.status.vmUid = some vm.uid

def step (vm : Cell Vm) (now : Instant) : List Task :=
  match vm with
  | none =>
    let why := s!"vm {m.val.spec.vm} no longer exists; migration ownership requires recovery"
    if m.val.kind = .pending then [.fail m why] else [.unresolvedOf m why]
  | some vm =>
    if !m.val.kind.isFinal && m.val.kind ≠ .pending && !owned m.val vm.val then
      [.unresolvedOf m "legacy or replaced VM: migration ownership requires recovery"]
    else
      match m.val.status.cancelling && !m.val.kind.isFinal, m.val.status.targetNode with
      | true, some target => [.abandon m target "migration cancelled"]
      | _, _ =>
        match m.val.kind with
        | .pending => [.prepare m vm.val]
        | .preparing => send timeouts m now
        | .running => settle timeouts m vm now
        | .succeeded | .failed => []

def prepare (vm : Vm) (input : Input) : Option (List Task) :=
  match vm.spec.nodeName.or vm.status.nodeName with
  | none => some [.fail m s!"vm {vm.name} is not on a node; there is nothing to move"]
  | some source =>
    if vm.status.phase.kind ≠ .running then
      some [.fail m (s!"vm {vm.name} is {vm.status.phase.kind.asStr} and only a running vm " ++
        "can migrate live")]
    else
      match input with
      | .refused why => some [.fail m why]
      -- a node's name is not empty
      | .chosen target => if target = "" then none else some [.siblings m vm source target]
      | _ => none

variable (s : State)

def env : Event → Option (State × List Task)
  -- from the API, a drain or the cloud
  | .create name uid spec =>
    if (s.records.cell name).isSome ∨ uid ∈ s.known.map Prod.fst then none
    else some (s.create name uid spec, [])
  | .delete name =>
    (s.records.cell name).map fun v =>
      if v.val.kind.isFinal || v.val.kind = .pending then (s, [.remove name v.rev])
      else (s, [])
  | .pass =>
    some (s, (s.records.list.filter fun e => !e.2.val.kind.isFinal).map fun e => .step e.2)
  | .report name node line =>
    (s.vms.cell name).map fun vm => (s, [.ingest vm.val node line])
  -- every other writer of a VM
  | .writeVm vm => some (s.putVm vm.name vm, [])
  | .removeVm name => some (s.removeVm name, [])

def update (m : Versioned VmMigration) (edit : VmMigration → VmMigration)
    (after : State → Versioned VmMigration → State × List Task) : State × List Task :=
  if s.stands m then after (s.putRecord (edit m.val)) ⟨s.next, edit m.val⟩ else (s, [])

def task (t : Task) (input : Input) : Option (State × List Task) :=
  match t, input with
  | .step m, .go now => some (s, step timeouts m (s.vms.cell m.val.spec.vm) now)
  | .prepare m vm, input => (prepare m vm input).map fun next => (s, next)
  | .siblings m vm source target, .go _ =>
    if VmMigration.anotherAttemptInFlight (s.records.list.map fun e => e.2.val) m.val then
      some (s, [.fail m (s!"another migration record for vm {m.val.spec.vm} has not " ++
        "finished; one guest moves once, so this record ends here and the other one " ++
        "carries the move")])
    else some (s, [.reserve m vm source target])
  | .reserve m _ _ _, .refused why => some (s, [.fail m why])
  -- a reservation that stands already may name another machine than the one chosen
  | .reserve m vm source chosen, .reserved elsewhere now =>
    let target := elsewhere.getD chosen
    if target = "" then none
    else some (update s m (claim vm source target now) fun s' claimed =>
      (s', [.openAt claimed target]))
  | .openAt claimed target, .refused why => some (s, [.abandon claimed target why])
  | .openAt claimed target, .ready peer =>
    if peer = "" then
      some (s, [.abandon claimed target (s!"node {target} could not make itself ready: " ++
        "the destination named no address to send to")])
    else some (s, [.peer claimed.val.name claimed.val.uid target peer])
  | .peer name uid target peer, .go now => some (s.mutateIf name uid (notePeer target peer now), [])
  | .send m source target peer, .go now =>
    some (update s m (startSending target peer now) fun s' running =>
      (s', [.migrateOut running source target]))
  | .migrateOut running source target, .ok =>
    some (s.note (.migrateOut running.val.uid), [.answer running source target])
  | .migrateOut running _ _, .lost e =>
    some (s, [.unresolvedOf running s!"the source's answer did not come back: {e}"])
  | .answer _ _ _, .ok => some (s, [])
  | .answer running _ _, .lost e =>
    some (s, [.unresolvedOf running s!"the source's answer did not come back: {e}"])
  | .answer running source target, .cannotSend message =>
    some (s.note (.cannotSend running.rev), [.abandon running target
      (s!"{source} refused to send the guest and still runs it: {message}. {target} holds no " ++
        "guest and has been torn down")])
  | .abandon m _ why, .go _ =>
    if m.val.status.migrationId.isNone then
      some (s, [.unresolvedOf m "legacy migration requires recovery before cleanup"])
    else if m.val.status.cancelling then some (s, [.cleanup m why])
    else some (update s m cancel fun s' claimed =>
      (s'.note (.cancelled m.val.uid m.val.kind), [.cleanup claimed why]))
  | .cleanup m why, .ok => some (s.note (.cleanup m.val.uid), [.cleaned m why])
  | .cleanup m _, .lost e =>
    some (s, [.unresolvedOf m s!"cleanup has not been confirmed: {e}"])
  | .cleaned m why, .ok => some (s, [.fail m why])
  | .cleaned m _, .lost e =>
    some (s, [.unresolvedOf m s!"cleanup has not been confirmed: {e}"])
  | .fail m why, .go now =>
    some (update s m (fail why now) fun s' _ => (s'.note (.ended m.val.uid .failed), []))
  | .unresolved name uid why, .go now => some (s.mutateIf name uid (unresolved why now), [])
  | .bind m vm target, .go _ =>
    if (s.vms.cell m.val.spec.vm).standsAt vm.rev then
      some ((s.putVm m.val.spec.vm (bindTo target vm.val)).note (.bound m.val.uid),
        [.succeed m.val.name m.val.uid vm.val.name target])
    else some (s, [])
  | .succeed name uid vm target, .go now =>
    match s.find name uid with
    | some m => some ((s.putRecord (succeed vm target now m)).note (.ended uid .succeeded), [])
    | none => some (s, [])
  | .ingest vm node line, .go _ =>
    some (s, (s.records.list.filter fun e =>
      e.2.val.spec.vm = vm.name && applyReport vm node line e.2.val ≠ e.2.val).map fun e =>
        .report e.2.val.name e.2.val.uid vm node line)
  | .report name uid vm node line, .go _ =>
    some (s.mutateIf name uid (applyReport vm node line), [])
  | .remove name rev, .go _ =>
    if (s.records.cell name).standsAt rev then some (s.removeRecord name, []) else some (s, [])
  | _, _ => none

def program : Program State Task Event Input := ⟨env, task timeouts⟩

end

def initial : World State Task := ⟨⟨1, ∅, ∅, [], []⟩, []⟩

end MeisterStack.ClusterController.Migration
