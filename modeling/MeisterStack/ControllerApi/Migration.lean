import MeisterStack.ControllerApi.Vm

/-!
# The migration resource

A migration record carries one attempt to move a VM: its endpoints, the words of both nodes about
the transfer, and the phase derived from the last word recorded here.
-/

namespace MeisterStack.ControllerApi

open Reported

inductive VmMigrationPhaseKind where
  | pending | preparing | running | succeeded | failed
  deriving DecidableEq

namespace VmMigrationPhaseKind

def isFinal : VmMigrationPhaseKind → Bool
  | .succeeded | .failed => true
  | _ => false

def resting : VmMigrationPhaseKind → Bool
  | .succeeded => true
  | _ => false

def inFlight : VmMigrationPhaseKind → Bool
  | .preparing | .running => true
  | _ => false

theorem isFinal_of_inFlight {kind : VmMigrationPhaseKind} (h : kind.inFlight) :
    kind.isFinal = false := by
  cases kind <;> first | rfl | cases h

end VmMigrationPhaseKind

inductive VmMigrationReason where
  | unrecorded | awaitingTarget | dispatched | abandoned | reported
  deriving DecidableEq

abbrev VmMigrationPhase := Phase VmMigrationPhaseKind VmMigrationReason

abbrev VmMigrationReported := Reported VmMigrationPhaseKind VmMigrationReason

inductive SourceWord where
  | sending | unknown | gone | stillHere
  deriving DecidableEq

inductive TargetWord where
  | provisioning | running
  deriving DecidableEq

def TargetWord.asStr : TargetWord → String
  | .provisioning => "Provisioning"
  | .running => "Running"

structure VmMigrationSpec where
  vm : String
  targetNode : Option String
  deriving DecidableEq

structure VmMigrationStatus where
  migrationId : Option String
  vmUid : Option String
  recoveryRequired : Bool
  cancelling : Bool
  reported : Option VmMigrationReported
  sourceNode : Option String
  targetNode : Option String
  peer : Option String
  startedAt : Option Instant
  finishedAt : Option Instant
  targetReported : Option TargetWord
  sourceReported : Option SourceWord
  sourceMessage : Option String
  deriving DecidableEq

def VmMigrationStatus.default : VmMigrationStatus :=
  ⟨none, none, false, false, none, none, none, none, none, none, none, none, none⟩

structure VmMigration where
  name : String
  uid : String
  created : Nat
  spec : VmMigrationSpec
  status : VmMigrationStatus
  deriving DecidableEq

def settleVmMigration (status : VmMigrationStatus) : VmMigrationPhase :=
  match status.reported.bind (toPhase VmMigrationPhaseKind.resting) with
  | some phase => phase
  | none =>
    Phase.new VmMigrationPhaseKind.resting .pending .awaitingTarget
      (some "no target chosen yet")

namespace VmMigration

def phase (m : VmMigration) : VmMigrationPhase := settleVmMigration m.status

def kind (m : VmMigration) : VmMigrationPhaseKind := m.phase.kind

def declare (name uid : String) (created : Nat) (spec : VmMigrationSpec) : VmMigration :=
  ⟨name, uid, created, spec, .default⟩

variable {m : VmMigration}

theorem kind_of_here {kind reason message said}
    (h : m.status.reported = some (.here kind reason message said)) (hkind : kind.resting = false) :
    m.kind = kind := by
  simp [VmMigration.kind, phase, settleVmMigration, h, here_toPhase _ hkind]

theorem kind_of_named {node kind reason message said}
    (h : m.status.reported = some (.of node kind reason message said)) (hnode : node ≠ "") :
    m.kind = kind := by
  simp [VmMigration.kind, phase, settleVmMigration, h, toPhase, of,
    Word.toPhase, Word.of, hnode]

theorem kind_congr {m' : VmMigration} (h : m'.status.reported = m.status.reported) :
    m'.kind = m.kind := by
  simp [VmMigration.kind, phase, settleVmMigration, h]

def anotherAttemptInFlight (all : List VmMigration) (mine : VmMigration) : Bool :=
  all.any fun m => m.name ≠ mine.name && m.spec.vm = mine.spec.vm && !m.kind.isFinal

def arrived (m : VmMigration) : Bool :=
  m.status.targetReported = some .running && m.status.sourceReported = some .gone

end VmMigration

inductive MigrationOutcome where
  | sending | unknown | gone | stillHere | receiving | arrived | other

def MigrationOutcome.sourceWord : MigrationOutcome → Option SourceWord
  | .sending => some .sending
  | .unknown => some .unknown
  | .gone => some .gone
  | .stillHere => some .stillHere
  | _ => none

def MigrationOutcome.targetWord : MigrationOutcome → Option TargetWord
  | .receiving => some .provisioning
  | .arrived => some .running
  | _ => none

structure MigrationReport where
  migrationId : String
  vmId : String
  peer : String
  outcome : MigrationOutcome
  message : String

def SourceWord.terminal : SourceWord → Bool
  | .gone | .stillHere => true
  | _ => false

def concerns (line : MigrationReport) (vm : Vm) (m : VmMigration) : Bool :=
  !m.status.cancelling && m.kind.inFlight && line.migrationId ≠ "" &&
    m.status.migrationId = some line.migrationId && m.status.vmUid = some vm.uid &&
    line.vmId = vm.uid && m.spec.vm = vm.name

def applySource (node : String) (line : MigrationReport) (m : VmMigration) : VmMigration :=
  match line.outcome.sourceWord with
  | some word =>
    if m.status.sourceNode = some node ∧ m.kind = .running ∧
        m.status.peer = some line.peer ∧ !m.status.sourceReported.any SourceWord.terminal then
      { m with
        status := { m.status with
          sourceReported := some word
          sourceMessage := if line.message = "" then none else some line.message } }
    else m
  | none => m

def applyTarget (node : String) (line : MigrationReport) (m : VmMigration) : VmMigration :=
  match line.outcome.targetWord with
  | some word =>
    if m.status.targetNode = some node ∧ m.status.targetReported ≠ some .running then
      { m with status := { m.status with targetReported := some word } }
    else m
  | none => m

def applyReport (vm : Vm) (node : String) (line : MigrationReport) (m : VmMigration) :
    VmMigration :=
  if concerns line vm m then applyTarget node line (applySource node line m) else m

def afterLast (pattern : List Char) : List Char → Option (List Char)
  | [] => if pattern.isEmpty then some [] else none
  | c :: cs =>
    (afterLast pattern cs).or
      (if pattern.isPrefixOf (c :: cs) then some ((c :: cs).drop pattern.length) else none)

def peerOf (m : VmMigration) : Option String :=
  match m.status.peer.filter (· ≠ "") with
  | some peer => some peer
  | none =>
    ((m.phase.message.bind fun said =>
      afterLast " is listening at ".toList said.toList).map String.ofList).filter (· ≠ "")

structure Timeouts where
  prepare : Nat
  transfer : Nat

def overdue (m : VmMigration) (budget : Nat) (now : Instant) : Option Nat :=
  m.status.startedAt.bind fun started =>
    if now - started > budget then some (now - started) else none

inductive Verdict where
  | tearDownTheDestination (why : String)
  | touchNothing (why : String)

def lastSaid (word : Option TargetWord) : String :=
  (word.map TargetWord.asStr).getD "nothing at all"

def stillHere (source target : String) (status : VmMigrationStatus) : Option Verdict :=
  if status.sourceReported ≠ some .stillHere then none
  else
    let said := status.sourceMessage.getD s!"{source} says it still has the guest"
    match status.targetReported with
    | none | some .provisioning =>
      some (.tearDownTheDestination
        (s!"the transfer did not take and {source} is still running the vm: {said}. " ++
          s!"{target} holds no guest and has been torn down"))
    | some .running =>
      some (.touchNothing
        (s!"{source} says it still has the guest ({said}) while {target} last said " ++
          s!"{lastSaid status.targetReported} — two machines claim one vm, so nothing here " ++
          "has been torn down; look at both before deleting anything"))

def verdictOnTimeout (source target : String) (elapsed : Nat) (sourceReported : Option SourceWord)
    (targetReported : Option TargetWord) : Verdict :=
  let said := lastSaid targetReported
  if sourceReported = some .gone then
    .touchNothing
      (s!"the guest had not arrived on {target} after {elapsed}s, and {source} says it let the " ++
        s!"guest go; the destination last said {said}. {source} is not serving this vm any " ++
        s!"more, so {target} may hold the only copy and nothing here has been torn down — " ++
        "look at both before deleting anything")
  else
    .touchNothing
      (s!"the guest had not arrived on {target} after {elapsed}s; the destination last said " ++
        s!"{said}, so it may hold the guest and nothing here has been torn down — look at " ++
        s!"{source} and {target} before deleting anything")

theorem verdictOnTimeout_touchNothing (source target elapsed sourceReported targetReported) :
    ∃ why, verdictOnTimeout source target elapsed sourceReported targetReported =
      .touchNothing why := by
  unfold verdictOnTimeout
  split <;> exact ⟨_, rfl⟩

theorem stillHere_tearDown {source target why status}
    (h : stillHere source target status = some (.tearDownTheDestination why)) :
    status.sourceReported = some .stillHere ∧
      (status.targetReported = none ∨ status.targetReported = some .provisioning) := by
  unfold stillHere at h
  split at h
  · cases h
  · rename_i hsource
    refine ⟨not_not.mp hsource, ?_⟩
    cases htarget : status.targetReported with
    | none => exact .inl rfl
    | some word =>
      cases word with
      | provisioning => exact .inr rfl
      | running => simp [htarget] at h

end MeisterStack.ControllerApi
