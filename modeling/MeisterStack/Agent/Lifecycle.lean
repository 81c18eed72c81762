import MeisterStack.Foundation.Machine
import MeisterStack.Agent.Host

/-!
# One VM on one agent

What changes the record of a VM or its VMM processes runs under the operations lock, so at most one
operation is under way: its copy of the record and its stage. Each stage is one driver call or one
store write, and may fail. A crash drops the operation; the store and the processes stay.
-/

namespace MeisterStack.Agent

open Foundation Option

inductive Cause where
  | provision
  | resume
  | prepare
  deriving DecidableEq

inductive Stage where
  -- the first write of an operation
  | announce
  | rebuild
  -- the chain up to its end
  | volumes (cause : Cause)
  | nics (cause : Cause)
  | devices (cause : Cause)
  -- boot
  | spawn (cause : Cause)
  | attach (cause : Cause) (pid : Pid)
  | define (cause : Cause) (pid : Pid)
  | keepPid (cause : Cause)
  | start (cause : Cause)
  | finish (cause : Cause)
  -- receive
  | spawnReceiver
  | listen (pid : Pid)
  | attachReceiver (pid : Pid)
  | keepReceiving
  | answer
  -- the way out of a failed chain
  | abort
  -- teardown, with whether a step of it failed
  | killSlice
  | destroy (failed : Bool)
  | release (failed : Bool)
  | delete (failed : Bool)
  -- the other actions
  | killForResume
  | restart
  | adopt (pid : Pid)
  | stopDestroy
  | engage
  | submit
  | save
  deriving DecidableEq

structure Held where
  record : VmRecord
  stage : Stage

structure State where
  record : Option VmRecord
  receipts : List String
  host : Host
  held : Option Held
  starting : Bool
  awaited : Option String

inductive Outcome where
  | ok
  | fails
  | astray
  deriving DecidableEq

namespace State

variable (s : State) (r : VmRecord)

def put : State := { s with record := some r }

def goto (stage : Stage) : State :=
  { s with held := some ⟨r, stage⟩ }

def done : State := { s with held := none }

def on (host : Host) : State := { s with host }

def chainFails : Cause → State
  | .provision => s.goto r .abort
  | .resume => s.goto r .save
  | .prepare => s.goto { r with operation := none } .abort

def acquire (cause : Cause) (phase : Phase) (next : Stage) :
    Outcome → State
  | .ok => (s.put { r with phase }).goto { r with phase } next
  | .fails => s.chainFails r cause
  | .astray => s.chainFails { r with phase } cause

end State

def chainEnd : Cause → Stage
  | .prepare => .spawnReceiver
  | cause => .spawn cause

variable (s : State) (r : VmRecord)

open State in
def advance (stage : Stage) (o : Outcome) : State :=
  match stage with
  | .announce =>
    if o = .ok then
      { (s.put r).goto r (.volumes .prepare) with awaited := r.migration.map (·.id) }
    else s.done
  | .rebuild => if o = .ok then (s.put r).goto r (.volumes .resume) else s.done
  | .volumes cause => s.acquire r cause .volumesDone (.nics cause) o
  | .nics cause => s.acquire r cause .networkDone (.devices cause) o
  | .devices cause => s.acquire r cause .devicesDone (chainEnd cause) o
  | .spawn cause =>
    match o with
    | .ok => (s.on s.host.launch).goto r (.attach cause s.host.nextPid)
    | .fails => (s.on s.host.noLaunch).chainFails r cause
    | .astray => (s.on s.host.launch).chainFails r cause
  | .attach cause pid =>
    match o with
    | .ok => (s.on (s.host.attach pid)).goto r (.define cause pid)
    | .fails => (s.on (s.host.exit pid)).chainFails r cause
    | .astray => s.chainFails r cause
  | .define cause pid =>
    match o with
    | .ok => (s.on (s.host.track pid)).goto { r with vmmPid := some pid } (.keepPid cause)
    | .fails => (s.on (s.host.exit pid)).chainFails r cause
    | .astray => s.chainFails r cause
  | .keepPid cause =>
    if o = .ok then (s.put r).goto r (.start cause) else s.chainFails r cause
  | .start cause =>
    match o with
    | .ok => (s.on s.host.start).goto { r with phase := .provisioned } (.finish cause)
    | .fails => s.chainFails r cause
    | .astray => (s.on s.host.start).chainFails r cause
  | .finish cause => if o = .ok then (s.put r).done else s.chainFails r cause
  | .spawnReceiver =>
    match o with
    | .ok => (s.on s.host.launch).goto r (.listen s.host.nextPid)
    | .fails => (s.on s.host.noLaunch).chainFails r .prepare
    | .astray => (s.on s.host.launch).chainFails r .prepare
  | .listen pid =>
    let listening := s.on ((s.host.track pid).setGuest pid .listening)
    if o = .ok then listening.goto { r with vmmPid := some pid } (.attachReceiver pid)
    else listening.chainFails r .prepare
  | .attachReceiver pid =>
    match o with
    | .ok =>
      (s.on (s.host.attach pid)).goto { r with phase := .receiving } .keepReceiving
    | .fails => (s.on (s.host.destroy false)).chainFails { r with vmmPid := none } .prepare
    | .astray => (s.on (s.host.destroy true)).chainFails { r with vmmPid := none } .prepare
  | .keepReceiving =>
    if o = .ok then (s.put r).goto { r with operation := none } .answer
    else s.chainFails r .prepare
  | .answer => if o = .ok then (s.put r).done else s.done
  | .abort => (if o = .ok then s.put r else s).goto r .killSlice
  | .killSlice =>
    if o = .ok then (s.on s.host.emptySlice).goto r (.destroy false)
    else s.goto r (.destroy true)
  | .destroy failed =>
    match o with
    | .ok => (s.on (s.host.destroy false)).goto r (.release failed)
    | .fails => s.goto r (.release true)
    | .astray => (s.on (s.host.destroy true)).goto r (.release failed)
  | .release failed => s.goto r (.delete (failed || o ≠ .ok))
  | .delete failed =>
    if failed || o ≠ .ok then s.done else { s.done with record := none, awaited := none }
  | .killForResume =>
    if o = .ok then (s.on s.host.emptySlice).goto r.rebuilt .rebuild else s.done
  | .restart => if o = .fails then s.done else (s.on s.host.start).done
  | .adopt pid =>
    if o = .ok ∧ s.host.tracked = none ∧ ∃ v ∈ s.host.vmms, v.pid = pid then
      (s.on (s.host.track pid)).done
    else s.done
  | .stopDestroy =>
    match o with
    | .ok => (s.on (s.host.destroy false)).goto r.stopped .save
    | .fails => s.done
    | .astray => (s.on (s.host.destroy true)).goto r.stopped .save
  | .engage => if o = .ok then (s.put r).goto r .submit else s.done
  | .submit =>
    s.goto { r with
      migration := r.migration.map fun m =>
        if o = .ok then { m with accepted := true }
        else { m with unknown := some "send acceptance is unknown" } } .save
  | .save => if o = .ok then (s.put r).done else s.done

def execute : Action → State
  | .none | .blocked | .quarantined | .signalShutdown | .pause | .resume => s
  | .adopt pid => s.goto r (.adopt pid)
  | .provision => s.goto r .killForResume
  | .start => s.goto r .restart
  | .stop => s.goto r .stopDestroy
  | .teardown => s.goto r .killSlice
  | .arrived => { s.put { r with phase := .provisioned } with awaited := none }

inductive Event where
  | provision (desired : Desired) (managedByController : Bool)
  | claim
  | setDesired (desired : Desired) (deadline : Option SystemTime)
  | syncState (listed : Bool)
  | execute (obs : Observed) (now : SystemTime)
  | prepareMigration (attempt listen : String)
  | cleanupMigration (attempt : String) (source : Bool) (guest : Option VmState)
  | migrateOut (attempt peer : String) (refusal : Option String)
  | observeSend (departure : Departure)
  | sendOverdue
  | quarantine (reason : String)
  | startup (stored : Bool)
  | step (outcome : Outcome)
  | crash
  | exit (pid : Pid)
  | arrive (pid : Pid)
  deriving DecidableEq

def State.withRecord (f : VmRecord → Option State) : Option State :=
  if s.held.isSome || s.starting then none else s.record.bind f

def provision (desired : Desired) (managed : Bool) : State :=
  match s.record with
  | some existing => s.put { existing with desired }
  | none =>
    (s.put (.fresh desired managed)).goto (.fresh desired managed) (.volumes .provision)

def prepareMigration (attempt listen : String) : Option State :=
  if s.held.isSome || s.starting || s.record.isSome || attempt = "" ||
      attempt ∈ s.receipts then none
  else
    some ({ s with receipts := attempt :: s.receipts }.goto
      (.awaiting attempt listen true) .announce)

def cleanupMigration (attempt : String) (source : Bool)
    (guest : Option VmState) : Option State :=
  if s.held.isSome || s.starting || attempt = "" then none
  else
    match s.record with
    | none => some { s with receipts := attempt :: s.receipts }
    | some r =>
      if ownsCleanup r attempt source guest then
        some ({ s with receipts := attempt :: s.receipts }.goto r .killSlice)
      else none

def beginMigrateOut (attempt peer : String)
    (refusal : Option String) : Option State :=
  if r.phase ≠ .provisioned || r.vmmPid.isNone || r.operation.isSome || attempt = "" ||
      attempt ∈ s.receipts then none
  else
    let s := { s with receipts := attempt :: s.receipts }
    let r := { r with migration := some ⟨attempt, peer, false, false, none⟩, sendFailed := none }
    match refusal with
    | some why => some (s.goto { r with sendFailed := some why } .save)
    | none => some (s.goto { r with operation := some (.migratingOut peer) } .engage)

def noteOverdue : VmRecord :=
  if r.operation.isSome then
    { r with
      migration := r.migration.map fun m =>
        { m with unknown := some "send deadline elapsed; transfer outcome is unknown" } }
  else r

def step : Event → Option State
  | .provision desired managed =>
    if s.held.isSome || s.starting then none else some (provision s desired managed)
  | .claim => s.withRecord fun r => some (s.put { r with managedByController := true })
  | .setDesired desired deadline =>
    s.withRecord fun r => some (s.put (r.setDesired desired deadline))
  | .syncState listed =>
    s.withRecord fun r =>
      if isOrphan r listed then some (s.put (r.setDesired .absent none)) else none
  | .execute obs now => s.withRecord fun r => some (execute s r (plan r obs now))
  | .prepareMigration attempt listen => prepareMigration s attempt listen
  | .cleanupMigration attempt source guest => cleanupMigration s attempt source guest
  | .migrateOut attempt peer refusal =>
    s.withRecord fun r => beginMigrateOut s r attempt peer refusal
  | .observeSend departure => s.withRecord fun r => (observeSend r departure).map s.put
  | .sendOverdue => s.withRecord fun r => some (s.put (noteOverdue r))
  -- the one writer that does not take the lock; it changes the stored row in place
  | .quarantine reason => s.record.map fun r => s.put { r with unhealthy := some reason }
  | .startup stored =>
    if s.starting then
      some { s with
        record := if stored then s.record.map clearOrphanedOperation else s.record
        starting := false }
    else none
  | .step outcome => s.held.map fun h => advance { s with held := none } h.record h.stage outcome
  | .crash =>
    some { s with held := none, starting := true, host := { s.host with tracked := none } }
  | .exit pid => some (s.on (s.host.exit pid))
  -- the port is open from `listen` on, and whoever knows the address may send
  | .arrive pid =>
    if ∃ v ∈ s.host.vmms, v.pid = pid ∧ v.guest = .listening then
      some (s.on (s.host.receive pid))
    else none

def agent : Machine State Event := ⟨step⟩

def initial (record : Option VmRecord) (receipts : List String) : State :=
  { record, receipts, host := .idle, held := none, starting := true, awaited := none }

inductive Begins (r : VmRecord) : VmRecord → Stage → Prop
  | resume : r.operation = none → r.phase ≠ .receiving → Begins r r .killForResume
  | restart : r.operation = none → r.phase = .provisioned → Begins r r .restart
  | adopt (pid : Pid) : Begins r r (.adopt pid)
  | stop : Begins r r .stopDestroy
  | teardown : Begins r r .killSlice
  | refuse (r' : VmRecord) : r.operation = none → r.phase = .provisioned →
      r'.operation = none → r'.phase = .provisioned → Begins r r' .save
  | send (r' : VmRecord) (peer : String) : r.operation = none → r.phase = .provisioned →
      r'.operation = some (.migratingOut peer) → r'.phase = .provisioned → Begins r r' .engage

inductive Effect (s : State) : Event → State → Prop
  | edits (e : Event) (r r' : VmRecord) : s.record = some r → r'.phase = r.phase →
      r'.operation = r.operation → Effect s e (s.put r')
  | departs (e : Event) (r r' : VmRecord) (peer : String) : s.held = none →
      s.record = some r → r.operation = some (.migratingOut peer) →
      (r'.phase = r.phase ∨ r'.phase = .migrated) → Effect s e (s.put r')
  | begins (e : Event) (r r' : VmRecord) (receipts : List String) (stage : Stage) :
      s.held = none → s.record = some r → Begins r r' stage →
      Effect s e ({ s with receipts }.goto r' stage)
  | creates (e : Event) (desired : Desired) (managed : Bool) : s.held = none →
      s.record = none →
      Effect s e ((s.put (.fresh desired managed)).goto (.fresh desired managed)
        (.volumes .provision))
  | announces (e : Event) (attempt listen : String) : s.held = none → s.record = none →
      Effect s e ({ s with receipts := attempt :: s.receipts }.goto
        (.awaiting attempt listen true) .announce)
  | arrived (e : Event) (r : VmRecord) : s.held = none → s.record = some r →
      r.phase = .receiving →
      Effect s e { s.put { r with phase := .provisioned } with awaited := none }
  | idles (e : Event) (receipts : List String) : Effect s e { s with receipts }
  | starts (e : Event) : Effect s e { s with starting := false }
  | clears (e : Event) (r : VmRecord) : s.record = some r →
      Effect s e { s.put (clearOrphanedOperation r) with starting := false }
  | advances (h : Held) (o : Outcome) : s.held = some h →
      Effect s (.step o) (advance { s with held := none } h.record h.stage o)
  | crashes : Effect s .crash
      { s with held := none, starting := true, host := { s.host with tracked := none } }
  | exits (pid : Pid) : Effect s (.exit pid) (s.on (s.host.exit pid))
  | receives (pid : Pid) : Effect s (.arrive pid) (s.on (s.host.receive pid))

variable {s s' : State}

theorem withRecord_eq_some {f} (h : s.withRecord f = some s') :
    s.held = none ∧ ∃ r, s.record = some r ∧ f r = some s' := by
  unfold State.withRecord at h
  split at h
  · cases h
  · rename_i hlock
    simp only [Bool.or_eq_true, not_or, Bool.not_eq_true, isSome_eq_false_iff,
      isNone_iff_eq_none] at hlock
    exact ⟨hlock.1, bind_eq_some_iff.mp h⟩

variable {r : VmRecord}

theorem observeSend_eq_some {r' departure} (h : observeSend r departure = some r') :
    ∃ peer, r.operation = some (.migratingOut peer) ∧
      (r'.phase = r.phase ∨ r'.phase = .migrated) := by
  unfold observeSend at h
  split at h
  · rename_i peer attempt hop hmigration
    refine ⟨peer, hop, ?_⟩
    cases departure with
    | gone =>
      dsimp only at h
      split_ifs at h
      cases h
      exact .inr rfl
    | stillHere =>
      dsimp only at h
      split_ifs at h
      cases h
      exact .inl rfl
  · cases h

theorem execute_effect {obs now} (e : Event) (hheld : s.held = none) (hr : s.record = some r) :
    Effect s e (execute s r (plan r obs now)) := by
  cases hplan : plan r obs now with
  | none | blocked | quarantined | signalShutdown | pause | resume =>
    exact .idles e s.receipts
  | adopt pid => exact .begins e r r s.receipts _ hheld hr (.adopt pid)
  | provision =>
    obtain ⟨hop, hphase⟩ := plan_provision hplan
    exact .begins e r r s.receipts _ hheld hr (.resume hop hphase)
  | start =>
    obtain ⟨hop, hphase⟩ := plan_start hplan
    exact .begins e r r s.receipts _ hheld hr (.restart hop hphase)
  | stop => exact .begins e r r s.receipts _ hheld hr .stop
  | teardown => exact .begins e r r s.receipts _ hheld hr .teardown
  | arrived => exact .arrived e r hheld hr (plan_arrived hplan)

theorem beginMigrateOut_effect {attempt peer refusal} (e : Event) (hheld : s.held = none)
    (hr : s.record = some r) (h : beginMigrateOut s r attempt peer refusal = some s') :
    Effect s e s' := by
  unfold beginMigrateOut at h
  split at h
  · cases h
  · rename_i hchecks
    simp only [ne_eq, Bool.or_eq_true, decide_eq_true_eq, not_or, Bool.not_eq_true,
      isSome_eq_false_iff, isNone_iff_eq_none, not_not] at hchecks
    obtain ⟨⟨⟨⟨hphase, -⟩, hop⟩, -⟩, -⟩ := hchecks
    cases refusal with
    | none =>
      cases h
      exact .begins e r _ _ _ hheld hr (.send _ peer hop hphase rfl hphase)
    | some =>
      cases h
      exact .begins e r _ _ _ hheld hr (.refuse _ hop hphase hop hphase)

theorem step_effect {e} (h : agent.step s e = some s') : Effect s e s' := by
  cases e with
  | provision desired managed =>
    dsimp only [agent, step, provision] at h
    split_ifs at h with hlock
    simp only [Bool.or_eq_true, not_or, Bool.not_eq_true, isSome_eq_false_iff,
      isNone_iff_eq_none] at hlock
    cases hr : s.record with
    | none =>
      simp only [hr] at h
      cases h
      exact .creates _ desired managed hlock.1 hr
    | some r =>
      simp only [hr] at h
      cases h
      exact .edits _ r _ hr rfl rfl
  | claim | setDesired =>
    obtain ⟨-, r, hr, h⟩ := withRecord_eq_some h
    cases h
    exact .edits _ r _ hr rfl rfl
  | syncState =>
    obtain ⟨-, r, hr, h⟩ := withRecord_eq_some h
    split_ifs at h
    cases h
    exact .edits _ r _ hr rfl rfl
  | execute =>
    obtain ⟨hheld, r, hr, h⟩ := withRecord_eq_some h
    cases h
    exact execute_effect _ hheld hr
  | prepareMigration attempt listen =>
    dsimp only [agent, step, prepareMigration] at h
    split_ifs at h with hchecks
    cases h
    simp only [Bool.or_eq_true, decide_eq_true_eq, not_or, Bool.not_eq_true,
      isSome_eq_false_iff, isNone_iff_eq_none] at hchecks
    exact .announces _ attempt listen hchecks.1.1.1.1 hchecks.1.1.2
  | cleanupMigration =>
    dsimp only [agent, step, cleanupMigration] at h
    split_ifs at h with hchecks
    simp only [Bool.or_eq_true, decide_eq_true_eq, not_or, Bool.not_eq_true,
      isSome_eq_false_iff, isNone_iff_eq_none] at hchecks
    split at h
    · cases h
      exact .idles _ _
    · rename_i r hr
      split_ifs at h
      cases h
      exact .begins _ r r _ _ hchecks.1.1 hr .teardown
  | migrateOut =>
    obtain ⟨hheld, r, hr, h⟩ := withRecord_eq_some h
    exact beginMigrateOut_effect _ hheld hr h
  | observeSend =>
    obtain ⟨hheld, r, hr, h⟩ := withRecord_eq_some h
    obtain ⟨r', hr', rfl⟩ := map_eq_some_iff.mp h
    obtain ⟨peer, hop, hphase⟩ := observeSend_eq_some hr'
    exact .departs _ r r' peer hheld hr hop hphase
  | sendOverdue =>
    obtain ⟨-, r, hr, h⟩ := withRecord_eq_some h
    cases h
    refine .edits _ r _ hr ?_ ?_ <;> unfold noteOverdue <;> split <;> rfl
  | quarantine =>
    obtain ⟨r, hr, rfl⟩ := map_eq_some_iff.mp h
    exact .edits _ r _ hr rfl rfl
  | startup stored =>
    dsimp only [agent, step] at h
    split at h <;> cases h
    cases stored with
    | false => exact .starts _
    | true =>
      cases hr : s.record with
      | none =>
        have hstarts : Effect s _ _ := .starts (.startup true)
        simpa [hr] using hstarts
      | some r =>
        have hclears := Effect.clears (.startup true) r hr
        simpa [hr, State.put] using hclears
  | step outcome =>
    obtain ⟨held, hheld, rfl⟩ := map_eq_some_iff.mp h
    exact .advances held outcome hheld
  | crash =>
    cases h
    exact .crashes
  | exit pid =>
    cases h
    exact .exits pid
  | arrive pid =>
    dsimp only [agent, step] at h
    split_ifs at h
    cases h
    exact .receives pid

end MeisterStack.Agent
