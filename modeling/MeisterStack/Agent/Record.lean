import Mathlib.Data.List.Basic

/-!
# The agent's VM record and the planner

The record a node keeps of a VM, the reconciliation decision over it, and the other pure functions
that read or rewrite it.
-/

namespace MeisterStack.Agent

abbrev SystemTime := Nat

abbrev Pid := Nat

inductive Desired where
  | running
  | stopped
  | paused
  | absent
  | halted
  deriving DecidableEq

inductive Phase where
  | provisioning
  | volumesDone
  | networkDone
  | devicesDone
  | provisioned
  | receiving
  | migrated
  deriving DecidableEq

inductive Operation where
  | snapshotting (target : String)
  | restoring (source : String)
  | migratingOut (peer : String)
  | migratingIn (peer : String)

structure MigrationAttempt where
  id : String
  peer : String
  incoming : Bool
  accepted : Bool
  unknown : Option String
  deriving DecidableEq

structure VmRecord where
  migration : Option MigrationAttempt
  desired : Desired
  phase : Phase
  operation : Option Operation
  stopDeadline : Option SystemTime
  sendFailed : Option String
  unhealthy : Option String
  managedByController : Bool
  vmmPid : Option Pid

variable (desired : Desired)

def VmRecord.fresh (managedByController : Bool) : VmRecord :=
  { migration := none
    desired
    phase := .provisioning
    operation := none
    stopDeadline := none
    sendFailed := none
    unhealthy := none
    managedByController
    vmmPid := none }

def VmRecord.awaiting (attempt listen : String) (managedByController : Bool) : VmRecord :=
  { migration := some ⟨attempt, listen, true, false, none⟩
    desired := .running
    phase := .provisioning
    operation := some (.migratingIn listen)
    stopDeadline := none
    sendFailed := none
    unhealthy := none
    managedByController
    vmmPid := none }

variable (r : VmRecord)

def VmRecord.rebuilt : VmRecord :=
  { r with phase := .provisioning, vmmPid := none, unhealthy := none }

def VmRecord.stopped : VmRecord :=
  { r with vmmPid := none, stopDeadline := none, unhealthy := none }

inductive VmState where
  | defined
  | running
  | paused
  | stopped
  deriving DecidableEq

structure Observed where
  tracked : Bool
  vmmAlive : Bool
  socketResponsive : Bool
  guest : Option VmState
  receiveFailed : Bool
  deriving DecidableEq

inductive Action where
  | none
  | blocked
  | quarantined
  | adopt (vmmPid : Pid)
  | provision
  | start
  | signalShutdown
  | stop
  | pause
  | resume
  | teardown
  | arrived

variable (record : VmRecord) (obs : Observed)

def planStopped (now : SystemTime) : Action :=
  if !obs.vmmAlive then
    if record.phase = .provisioned && record.vmmPid.isSome then .stop else .none
  else
    match obs.guest with
    | some .defined | some .stopped | some .paused => .stop
    | _ =>
      match record.stopDeadline with
      | some deadline => if now < deadline then .signalShutdown else .stop
      | none => .stop

def planReceiving : Action :=
  if obs.guest = some .running then .arrived
  else if obs.receiveFailed then .teardown
  else .none

def planGuest (guest : VmState) : Action :=
  match desired, guest with
  | .running, .defined | .running, .stopped => .start
  | .running, .paused => .resume
  | .running, .running => .none
  | .paused, .running => .pause
  | .paused, .paused => .none
  | .paused, .defined | .paused, .stopped => .start
  | _, _ => .none

def planProvisioned : Action :=
  if !obs.vmmAlive || !obs.socketResponsive then .provision
  else if !obs.tracked then
    match record.vmmPid with
    | some pid => .adopt pid
    | none => .provision
  else
    match obs.guest with
    | none => .none
    | some guest => planGuest record.desired guest

def plan (now : SystemTime) : Action :=
  if record.operation.isSome then .blocked
  else if record.desired = .absent then .teardown
  else if record.desired = .stopped then planStopped record obs now
  else if record.unhealthy.isSome then .quarantined
  else if record.desired = .halted then .none
  else
    match record.phase with
    | .receiving => planReceiving obs
    | .migrated => .none
    | .provisioned => planProvisioned record obs
    | _ => .provision

theorem planStopped_cases (record obs now) :
    planStopped record obs now ∈ [Action.stop, .none, .signalShutdown] := by
  unfold planStopped
  repeat' split
  all_goals simp

theorem planReceiving_cases (obs) : planReceiving obs ∈ [Action.arrived, .teardown, .none] := by
  unfold planReceiving
  repeat' split
  all_goals simp

theorem planProvisioned_ne_arrived (record obs) : planProvisioned record obs ≠ .arrived := by
  unfold planProvisioned planGuest
  repeat' split
  all_goals simp

variable {record : VmRecord} {obs : Observed} {now : SystemTime}

theorem plan_by_phase {a} (h : plan record obs now = a)
    (ha : a ∈ [Action.provision, .start, .arrived]) :
    record.operation = none ∧
      a = match record.phase with
        | .receiving => planReceiving obs
        | .migrated => .none
        | .provisioned => planProvisioned record obs
        | _ => .provision := by
  have hstop := planStopped_cases record obs now
  unfold plan at h
  split_ifs at h with hop
  · simp [← h] at ha
  · simp [← h] at ha
  · rw [h] at hstop
    simp only [List.mem_cons, List.not_mem_nil, or_false] at ha hstop
    rcases ha with rfl | rfl | rfl <;> simp at hstop
  · simp [← h] at ha
  · simp [← h] at ha
  · exact ⟨by simpa using hop, h.symm⟩

theorem plan_start (h : plan record obs now = .start) :
    record.operation = none ∧ record.phase = .provisioned := by
  obtain ⟨hop, hbranch⟩ := plan_by_phase h (by simp)
  have hreceiving := planReceiving_cases obs
  refine ⟨hop, ?_⟩
  cases hphase : record.phase <;> simp only [hphase] at hbranch <;> try cases hbranch
  case provisioned => rfl
  case receiving => simp [← hbranch] at hreceiving

theorem plan_provision (h : plan record obs now = .provision) :
    record.operation = none ∧ record.phase ≠ .receiving := by
  obtain ⟨hop, hbranch⟩ := plan_by_phase h (by simp)
  have hreceiving := planReceiving_cases obs
  refine ⟨hop, fun hphase => ?_⟩
  simp only [hphase] at hbranch
  simp [← hbranch] at hreceiving

theorem plan_arrived (h : plan record obs now = .arrived) : record.phase = .receiving := by
  obtain ⟨-, hbranch⟩ := plan_by_phase h (by simp)
  cases hphase : record.phase <;> simp only [hphase] at hbranch <;> try cases hbranch
  case receiving => rfl
  case provisioned => exact absurd hbranch.symm (planProvisioned_ne_arrived record obs)

def nextStopDeadline (origin : Desired) (armed : Option SystemTime) (target : Desired)
    (proposed : Option SystemTime) : Option SystemTime :=
  if target = .stopped then if origin = .stopped then armed else proposed else none

def VmRecord.setDesired
    (deadline : Option SystemTime) : VmRecord :=
  { r with
    stopDeadline := nextStopDeadline r.desired r.stopDeadline desired deadline
    desired
    unhealthy := none }

def isOrphan (listed : Bool) : Bool :=
  r.managedByController && r.desired ≠ .absent && r.phase ≠ .receiving &&
    !(r.migration.any fun m => m.incoming) && !listed

def clearOrphanedOperation : VmRecord :=
  match r.operation with
  | some (.migratingOut _) => r
  | some (.migratingIn _) => if r.phase ≠ .receiving then r else { r with operation := none }
  | _ => { r with operation := none }

@[simp] theorem clearOrphanedOperation_phase (r) : (clearOrphanedOperation r).phase = r.phase := by
  unfold clearOrphanedOperation
  split
  · rfl
  · split <;> rfl
  · rfl

inductive Departure where
  | gone
  | stillHere (why : String)
  deriving DecidableEq

def observeSend (departure : Departure) : Option VmRecord :=
  match r.operation, r.migration with
  | some (.migratingOut _), some attempt =>
    if attempt.incoming then none
    else
      match departure with
      | .gone =>
        if r.vmmPid.isSome then
          some { r with
            operation := none, phase := .migrated, vmmPid := none, sendFailed := none
            migration := some { attempt with unknown := none } }
        else none
      | .stillHere why =>
        if attempt.accepted then
          some { r with
            operation := none, sendFailed := some why
            migration := some { attempt with unknown := none } }
        else none
  | _, _ => none

def ownsCleanup (attempt : String) (source : Bool)
    (guest : Option VmState) : Bool :=
  r.migration.any fun m =>
    m.id = attempt && m.incoming ≠ source &&
      if source then r.phase = .migrated && r.operation.isNone
      else r.phase ≠ .provisioned && guest ≠ some .running && guest ≠ some .paused

end MeisterStack.Agent
