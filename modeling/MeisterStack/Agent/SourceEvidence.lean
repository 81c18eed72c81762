import MeisterStack.Agent.Receipts

/-!
# Evidence about a guest that was sent

A watcher reads the record, asks the VMM without the lock, and lands what it found under the lock,
only where the record is still at the attempt it read, in the same words.
-/

namespace MeisterStack.Agent

open Foundation List VmRecord State Stage Machine

inductive DepartureOutcome where
  | sending
  | unknown
  | receiving
  | arrived
  | gone
  | stillHere
  deriving DecidableEq

structure DepartureReport where
  migrationId : String
  peer : String
  outcome : DepartureOutcome
  message : Option String

def Operation.sends : Operation → Bool
  | .migratingOut _ => true
  | _ => false

variable (r : VmRecord)

def VmRecord.sends : Bool := r.operation.any Operation.sends

def departureOutcome (record : VmRecord) (attempt : MigrationAttempt) : Option DepartureOutcome :=
  if attempt.incoming then
    if record.phase = .provisioned then some .arrived else some .receiving
  else if record.sends then
    if attempt.unknown.isSome || !attempt.accepted then some .unknown else some .sending
  else if record.sendFailed.isSome then some .stillHere
  else if record.phase = .migrated then some .gone
  else none

def departure (record : VmRecord) : Option DepartureReport :=
  record.migration.bind fun attempt =>
    (departureOutcome record attempt).map fun outcome =>
      { migrationId := attempt.id
        peer := attempt.peer
        outcome
        message := attempt.unknown.or record.sendFailed }

inductive WatchStage where
  | probing
  | checkingPid
  | judged (departure : Departure)
  deriving DecidableEq

structure SendWatch where
  snapshot : VmRecord
  attempt : MigrationAttempt
  stage : WatchStage

def look (record : Option VmRecord) (migrationId : String) : Option SendWatch :=
  record.bind fun r =>
    if r.sends then
      r.migration.bind fun attempt =>
        if attempt.id ≠ migrationId || attempt.incoming then none
        else some ⟨r, attempt, .probing⟩
    else none

def SendWatch.probe (w : SendWatch) (responds : Bool) (sendFailed : Option String) :
    Option SendWatch :=
  if responds then
    if w.attempt.accepted then
      sendFailed.map fun why => { w with stage := .judged (.stillHere why) }
    else none
  else some { w with stage := .checkingPid }

def SendWatch.checkPid (w : SendWatch) (host : Host) : Option SendWatch :=
  match w.snapshot.vmmPid with
  | some pid =>
    if ∃ v ∈ host.vmms, v.pid = pid then none
    else some { w with stage := .judged .gone }
  | none => none

def VmRecord.departed (departure : Departure) : VmRecord :=
  let r : VmRecord := { r with
    operation := none
    migration := r.migration.map fun m => { m with unknown := none } }
  match departure with
  | .gone => { r with phase := .migrated, vmmPid := none, sendFailed := none }
  | .stillHere why => { r with sendFailed := some why }

def SendWatch.land (w : SendWatch) (departure : Departure) (record : Option VmRecord) :
    Option VmRecord :=
  record.map fun r =>
    if r.migration = some w.attempt ∧ r.sends = true then r.departed departure else r

def overdue (migrationId peer : String) (record : Option VmRecord) : Option VmRecord :=
  record.map fun r =>
    if r.operation.isSome && (r.migration.any fun m => m.id = migrationId && m.peer = peer) then
      { r with
        migration := r.migration.map fun m =>
          { m with unknown := some "send deadline elapsed; transfer outcome is unknown" } }
    else r

structure Source where
  vm : State
  watches : List SendWatch

inductive SourceEvent where
  | vm (e : Event)
  | look (migrationId : String)
  | probe (watch : Nat) (responds : Bool) (sendFailed : Option String)
  | checkPid (watch : Nat)
  | land (watch : Nat) (stored : Bool)
  | overdue (migrationId peer : String) (stored : Bool)

def Event.unwatched : Event → Bool
  | .observeSend _ | .sendOverdue => false
  | _ => true

namespace Source

def start (record : Option VmRecord) (receipts : List String) : Source :=
  ⟨initial record receipts, []⟩

def free (s : Source) : Bool := s.vm.held.isNone && !s.vm.starting

def write (s : Source) (record : Option VmRecord) (stored : Bool) : Source :=
  if stored then { s with vm := { s.vm with record } } else s

def replace (s : Source) (i : Nat) : Option SendWatch → Source
  | some w => { s with watches := s.watches.set i w }
  | none => { s with watches := s.watches.eraseIdx i }

def step (s : Source) : SourceEvent → Option Source
  | .vm e =>
    if e.unwatched then
      (Agent.step s.vm e).map fun vm =>
        { vm, watches := if e = .crash then [] else s.watches }
    else none
  | .look migrationId =>
    (Agent.look s.vm.record migrationId).map fun w => { s with watches := s.watches ++ [w] }
  | .probe i responds sendFailed =>
    s.watches[i]?.bind fun w =>
      if w.stage = .probing then some (s.replace i (w.probe responds sendFailed)) else none
  | .checkPid i =>
    s.watches[i]?.bind fun w =>
      if w.stage = .checkingPid then some (s.replace i (w.checkPid s.vm.host)) else none
  | .land i stored =>
    s.watches[i]?.bind fun w =>
      match w.stage with
      | .judged departure =>
        if s.free then
          some ((s.replace i none).write (w.land departure s.vm.record) stored)
        else none
      | _ => none
  | .overdue migrationId peer stored =>
    if s.free then some (s.write (Agent.overdue migrationId peer s.vm.record) stored) else none

end Source

def source : Machine Source SourceEvent := ⟨Source.step⟩

def VmRecord.attemptId : Option String := r.migration.map (·.id)

def VmRecord.verdict : Option DepartureOutcome :=
  (r.migration.bind (departureOutcome r)).filter fun o => o = .gone || o = .stillHere

def SameVerdict (r r' : VmRecord) : Prop :=
  r'.attemptId = r.attemptId ∧ r'.verdict = r.verdict

@[refl]
theorem SameVerdict.refl (r) : SameVerdict r r := ⟨rfl, rfl⟩

theorem verdict_eq :
    r.verdict = r.migration.bind fun m =>
      if m.incoming || r.sends then none
      else if r.sendFailed.isSome then some .stillHere
      else if r.phase = .migrated then some .gone
      else none := by
  unfold verdict
  cases r.migration with
  | none => rfl
  | some =>
    simp only [Option.bind_some, departureOutcome]
    split_ifs <;> simp_all

variable {r r' : VmRecord}

theorem SameVerdict.of_fields (hmigration : r'.migration.map (fun m => (m.id, m.incoming)) =
      r.migration.map fun m => (m.id, m.incoming))
    (hsends : r'.sends = r.sends) (hfailed : r'.sendFailed = r.sendFailed)
    (hphase : r'.phase = .migrated ↔ r.phase = .migrated) : SameVerdict r r' := by
  unfold SameVerdict attemptId
  rw [verdict_eq, verdict_eq, hsends, hfailed]
  cases hr : r.migration with
  | none =>
    rw [hr, Option.map_none, Option.map_eq_none_iff] at hmigration
    simp [hmigration]
  | some =>
    rw [hr, Option.map_some, Option.map_eq_some_iff] at hmigration
    obtain ⟨m', hm', heq⟩ := hmigration
    simp only [Prod.mk.injEq] at heq
    simp [hm', heq.1, heq.2, hphase]

theorem SameVerdict.of_incoming (hmigration : r'.migration = r.migration)
    (hincoming : ∀ m ∈ r.migration, m.incoming) : SameVerdict r r' := by
  unfold SameVerdict attemptId
  rw [verdict_eq, verdict_eq, hmigration]
  cases hr : r.migration with
  | none => simp
  | some m => simp [hincoming m hr]

def State.Has (s : State) (r : VmRecord) : Prop :=
  s.record = some r ∨ ∃ stage, s.held = some ⟨r, stage⟩

def Stage.cause : Stage → Option Cause
  | .volumes cause | .nics cause | .devices cause | .spawn cause | .attach cause _
  | .define cause _ | .keepPid cause | .start cause | .finish cause => some cause
  | .announce | .spawnReceiver | .listen _ | .attachReceiver _ | .keepReceiving | .answer =>
    some .prepare
  | .rebuild | .killForResume => some .resume
  | _ => none

structure Held.Sound (h : Held) : Prop where
  here : h.stage.cause.isSome → h.record.phase ≠ .migrated
  incoming : h.stage.cause = some .prepare → ∀ m ∈ h.record.migration, m.incoming

variable {s : State} {q : VmRecord} {cause : Cause}

theorem chainFails_has (h : (s.chainFails r' cause).Has q)
    (hincoming : some cause = some Cause.prepare → ∀ m ∈ r.migration, m.incoming)
    (hmigration : r'.migration = r.migration) (hsame : SameVerdict r r') :
    s.record = some q ∨ SameVerdict r q := by
  cases cause with
  | prepare =>
    simp only [chainFails, Has, goto, Option.some.injEq, Held.mk.injEq] at h
    rcases h with h | ⟨stage, rfl, -⟩
    · exact .inl h
    · exact .inr (.of_incoming hmigration (hincoming rfl))
  | _ =>
    simp only [chainFails, Has, goto, Option.some.injEq, Held.mk.injEq] at h
    rcases h with h | ⟨stage, rfl, -⟩
    · exact .inl h
    · exact .inr hsame

theorem chainFails_sound {h} (hheld : (s.chainFails r cause).held = some h) : h.Sound := by
  cases cause <;>
  · cases hheld
    exact ⟨by simp [cause], by simp [cause]⟩

variable {stage : Stage}

@[simp]
theorem has_goto : (s.goto r stage).Has q ↔ s.record = some q ∨ r = q := by
  simp [Has, goto]

@[simp]
theorem has_done : s.done.Has q ↔ s.record = some q := by
  simp [Has, done]

@[simp]
theorem chainFails_on {host} :
    ((s.on host).chainFails r cause).Has q ↔ (s.chainFails r cause).Has q := by
  cases cause <;> rfl

@[simp]
theorem put_record (s : State) (r) : (s.put r).record = some r := rfl

@[simp]
theorem on_record (s : State) (host) : (s.on host).record = s.record := rfl

theorem SameVerdict.of_phase {phase} (hhere : r.phase ≠ .migrated) (hphase : phase ≠ .migrated) :
    SameVerdict r { r with phase } :=
  .of_fields rfl rfl rfl (by simp [hhere, hphase])

theorem SameVerdict.of_pid (r vmmPid) :
    SameVerdict r { r with vmmPid } := .of_fields rfl rfl rfl Iff.rfl

theorem advance_has {o} (hsound : Held.Sound ⟨r, stage⟩) (h : (advance s r stage o).Has q) :
    s.record = some q ∨ SameVerdict r q := by
  obtain ⟨hhere, hincoming⟩ := hsound
  have hkept : ∀ {r' : VmRecord}, s.record = some q ∨ r' = q → SameVerdict r r' →
      s.record = some q ∨ SameVerdict r q := by
    rintro r' (h | rfl) hsame
    · exact .inl h
    · exact .inr hsame
  cases stage <;> simp only [cause, Option.isSome_some, forall_const] at hhere
  case volumes cause | nics cause | devices cause =>
      cases o <;> simp only [advance, acquire, has_goto, put_record, Option.some.injEq] at h
      · rcases h with rfl | rfl <;> exact .inr (.of_phase hhere (by simp))
      · exact chainFails_has h hincoming rfl (.refl r)
      · exact chainFails_has h hincoming rfl (.of_phase hhere (by simp))
  case define cause pid | listen pid =>
      cases o <;> simp [advance] at h
      · exact hkept h (.of_pid r _)
      all_goals exact chainFails_has h hincoming rfl (.refl r)
  case start cause =>
      cases o <;> simp [advance] at h
      · exact hkept h (.of_phase hhere (by simp))
      all_goals exact chainFails_has h hincoming rfl (.refl r)
  case attachReceiver pid =>
      cases o <;> simp [advance] at h
      · exact hkept h (.of_phase hhere (by simp))
      all_goals exact chainFails_has h hincoming rfl (.of_pid r _)
  case keepReceiving =>
      cases o <;> simp [advance] at h
      · rcases h with rfl | rfl
        · exact .inr (.refl _)
        · exact .inr (.of_incoming rfl (hincoming rfl))
      all_goals exact chainFails_has h hincoming rfl (.refl r)
  case spawn cause | attach cause pid | keepPid cause | finish cause | spawnReceiver =>
      cases o <;> simp [advance] at h
      all_goals first
        | exact chainFails_has h hincoming rfl (.refl r)
        | exact hkept h (.refl r)
        | exact hkept (.inr h) (.refl r)
  case killForResume =>
      cases o <;> simp [advance] at h
      · exact hkept h (.of_fields rfl rfl rfl (by simp [rebuilt, hhere]))
      all_goals exact .inl h
  case stopDestroy =>
      cases o <;> simp [advance] at h
      · exact hkept h (.of_fields rfl rfl rfl Iff.rfl)
      · exact .inl h
      · exact hkept h (.of_fields rfl rfl rfl Iff.rfl)
  case submit =>
      simp only [advance, has_goto] at h
      refine hkept h (.of_fields ?_ rfl rfl Iff.rfl)
      cases r.migration with
      | none => rfl
      | some =>
        simp only [Option.map_some]
        split_ifs <;> rfl
  case announce =>
      cases o
      · have h : ((s.put r).goto r (.volumes .prepare)).Has q := h
        simp only [has_goto, put_record, Option.some.injEq, or_self] at h
        exact hkept (.inr h) (.refl r)
      all_goals exact .inl (has_done.mp h)
  case delete failed =>
      simp only [advance] at h
      split_ifs at h
      · exact .inl (has_done.mp h)
      · simp [Has, done] at h
  case adopt pid =>
      simp only [advance] at h
      split_ifs at h <;> exact .inl (by simpa using h)
  all_goals
    cases o <;> simp [advance] at h
    all_goals first
      | exact .inl h
      | exact hkept h (.refl r)
      | exact hkept (.inr h) (.refl r)

theorem Held.Sound.of_cause_none (h : stage.cause = none) : Held.Sound ⟨r, stage⟩ :=
  ⟨fun hsome => by simp [h] at hsome, fun hprepare => by simp [h] at hprepare⟩

theorem Held.Sound.next {next} (h : Held.Sound ⟨r, stage⟩) (hcause : next.cause = stage.cause)
    (hmigration : r'.migration = r.migration) (hphase : r'.phase = r.phase ∨ r'.phase ≠ .migrated) :
    Held.Sound ⟨r', next⟩ := by
  refine ⟨fun hsome => ?_, fun hprepare => ?_⟩
  · rcases hphase with hphase | hphase
    · exact fun hmigrated => h.here (hcause ▸ hsome) (hphase ▸ hmigrated)
    · exact hphase
  · change ∀ m ∈ r'.migration, m.incoming
    rw [hmigration]
    exact h.incoming (hcause ▸ hprepare)

theorem chainEnd_cause (cause) : (chainEnd cause).cause = some cause := by
  cases cause <;> rfl

theorem advance_sound {o h} (hfree : s.held = none) (hsound : Held.Sound ⟨r, stage⟩)
    (hheld : (advance s r stage o).held = some h) : h.Sound := by
  cases stage
  case volumes cause | nics cause | devices cause =>
      cases o <;> simp only [advance, acquire, goto, Option.some.injEq] at hheld
      · subst hheld
        exact hsound.next (by first | rfl | exact chainEnd_cause cause) rfl (.inr (by simp))
      all_goals exact chainFails_sound hheld
  case spawn cause | attach cause pid | define cause pid | keepPid cause | start cause |
      finish cause | spawnReceiver | listen pid | attachReceiver pid | keepReceiving |
      announce | rebuild | killForResume =>
      cases o <;> simp [advance, goto, done] at hheld
      all_goals first
        | exact chainFails_sound hheld
        | subst hheld
          exact hsound.next rfl rfl (.inl rfl)
        | subst hheld
          exact hsound.next rfl rfl (.inr (by simp [rebuilt]))
  -- the other stages lead to no stage of a chain
  all_goals
    simp only [advance, goto, done, on, put, hfree] at hheld
    repeat' split at hheld
    all_goals first
      | cases hheld
        done
      | cases hheld
        exact .of_cause_none rfl

inductive Derives (s s' : State) (r' : VmRecord) : Prop
  | old (r : VmRecord) : s.Has r → SameVerdict r r' → Derives s s' r'
  | unbound : r'.migration = none → Derives s s' r'
  | fresh (id : String) (stage : Stage) : r'.attemptId = some id → id ∉ s.receipts →
      id ∈ s'.receipts → s'.held = some ⟨r', stage⟩ → r'.verdict ≠ some .gone → Derives s s' r'

structure Follows (s s' : State) : Prop where
  receipts : ∀ id ∈ s.receipts, id ∈ s'.receipts
  sound : ∀ h, s'.held = some h → h.Sound
  derives : ∀ r', s'.Has r' → Derives s s' r'

section Follows

variable {s : State} {r r' : VmRecord}

theorem Follows.same (hsound : ∀ h, s.held = some h → h.Sound) {s'}
    (hreceipts : s'.receipts = s.receipts) (hrecord : s'.record = s.record)
    (hheld : s'.held = s.held) : Follows s s' := by
  refine ⟨fun id hid => hreceipts ▸ hid, fun h hh => hsound h (hheld ▸ hh), fun q hq => ?_⟩
  refine .old q ?_ (.refl q)
  unfold Has at hq ⊢
  rwa [hrecord, hheld] at hq

theorem Follows.edit (hsound : ∀ h, s.held = some h → h.Sound) (hr : s.record = some r) {s'}
    (hreceipts : s'.receipts = s.receipts) (hheld : s'.held = s.held)
    (hrecord : s'.record = some r') (hsame : SameVerdict r r') : Follows s s' := by
  refine ⟨fun id hid => hreceipts ▸ hid, fun h hh => hsound h (hheld ▸ hh), fun q hq => ?_⟩
  rcases hq with hq | hq
  · cases hrecord.symm.trans hq
    exact .old r (.inl hr) hsame
  · exact .old q (.inr (hheld ▸ hq)) (.refl q)

theorem Follows.begin (hr : s.record = some r) {stage} (hsound : Held.Sound ⟨r, stage⟩) (receipts)
    (hreceipts : ∀ id ∈ s.receipts, id ∈ receipts) :
    Follows s ({ s with receipts }.goto r stage) := by
  refine ⟨hreceipts, fun h hh => ?_, fun q hq => ?_⟩
  · cases hh
    exact hsound
  · rcases has_goto.mp hq with hq | rfl
    · exact .old q (.inl hq) (.refl q)
    · exact .old _ (.inl hr) (.refl _)

theorem Follows.attempt {id} (hid : r'.attemptId = some id) (hnew : id ∉ s.receipts) {stage}
    (hsound : Held.Sound ⟨r', stage⟩) (hgone : r'.verdict ≠ some .gone) :
    Follows s ({ s with receipts := id :: s.receipts }.goto r' stage) := by
  refine ⟨fun _ h => mem_cons_of_mem _ h, fun h hh => ?_, fun q hq => ?_⟩
  · cases hh
    exact hsound
  · rcases has_goto.mp hq with hq | rfl
    · exact .old q (.inl hq) (.refl q)
    · exact .fresh id stage hid hnew (mem_cons_self ..) rfl hgone

theorem execute_follows (hr : s.record = some r) (hheld : s.held = none) (obs now) :
    Follows s (execute s r (plan r obs now)) := by
  have hsound : ∀ h, s.held = some h → h.Sound := by simp [hheld]
  have hbegin : ∀ {stage : Stage}, Held.Sound ⟨r, stage⟩ → Follows s (s.goto r stage) :=
    fun h => Follows.begin hr h s.receipts fun _ hid => hid
  cases hplan : plan r obs now with
  | none | blocked | quarantined | signalShutdown | pause | resume =>
    exact .same hsound rfl rfl rfl
  | adopt | start | stop | teardown => exact hbegin (.of_cause_none rfl)
  | provision =>
    refine hbegin ⟨fun _ => ?_, by simp [cause]⟩
    obtain ⟨-, hbranch⟩ := plan_by_phase hplan (by simp)
    intro (hmigrated : r.phase = .migrated)
    simp only [hmigrated] at hbranch
    cases hbranch
  | arrived =>
    have hphase := plan_arrived hplan
    exact .edit hsound hr rfl rfl rfl (.of_phase (by simp [hphase]) (by simp))

theorem clearOrphanedOperation_same (r) : SameVerdict r (clearOrphanedOperation r) := by
  unfold clearOrphanedOperation
  split
  · exact .refl r
  · rename_i hop
    split_ifs
    · exact .refl r
    · exact .of_fields rfl (by simp [sends, hop, Operation.sends]) rfl Iff.rfl
  · rename_i hout _
    refine .of_fields rfl ?_ rfl Iff.rfl
    cases hop : r.operation with
    | none => simp [sends, hop]
    | some op => cases op <;> simp_all [sends, Operation.sends]

end Follows

theorem step_follows {s' e} (hunwatched : e.unwatched) (hsound : ∀ h, s.held = some h → h.Sound)
    (h : Agent.step s e = some s') : Follows s s' := by
  cases e with
  | observeSend | sendOverdue => cases hunwatched
  | provision =>
    simp only [Agent.step, provision] at h
    split_ifs at h
    cases hr : s.record with
    | none =>
      simp only [hr, Option.some.injEq] at h
      subst h
      refine ⟨fun id hid => hid, fun h hh => ?_, fun q hq => .unbound ?_⟩
      · cases hh
        exact ⟨by simp [fresh], by simp [fresh]⟩
      · rcases has_goto.mp hq with hq | rfl
        · cases hq
          rfl
        · rfl
    | some =>
      simp only [hr, Option.some.injEq] at h
      subst h
      exact .edit hsound hr rfl rfl rfl (.of_fields rfl rfl rfl Iff.rfl)
  | claim | setDesired =>
    obtain ⟨-, r, hr, h⟩ := withRecord_eq_some h
    cases h
    exact .edit hsound hr rfl rfl rfl (.of_fields rfl rfl rfl Iff.rfl)
  | syncState =>
    obtain ⟨-, r, hr, h⟩ := withRecord_eq_some h
    split_ifs at h
    cases h
    exact .edit hsound hr rfl rfl rfl (.of_fields rfl rfl rfl Iff.rfl)
  | execute obs now =>
    obtain ⟨hheld, r, hr, h⟩ := withRecord_eq_some h
    cases h
    exact execute_follows hr hheld obs now
  | prepareMigration attempt =>
    simp only [Agent.step, prepareMigration] at h
    split_ifs at h with hchecks
    cases h
    simp only [Bool.or_eq_true, decide_eq_true_eq, not_or] at hchecks
    exact .attempt rfl hchecks.2 ⟨by simp [awaiting], by simp [awaiting]⟩
      (by simp [verdict_eq, awaiting])
  | cleanupMigration =>
    simp only [Agent.step, cleanupMigration] at h
    split_ifs at h
    split at h
    · cases h
      refine ⟨fun id hid => mem_cons_of_mem _ hid, hsound, fun q hq => ?_⟩
      exact .old q hq (.refl q)
    · rename_i r hr
      split_ifs at h
      cases h
      exact .begin hr (.of_cause_none rfl) _ fun id hid => mem_cons_of_mem _ hid
  | migrateOut attempt peer refusal =>
    obtain ⟨-, r, hr, h⟩ := withRecord_eq_some h
    unfold beginMigrateOut at h
    split_ifs at h with hchecks
    simp only [Bool.or_eq_true, decide_eq_true_eq, not_or] at hchecks
    cases refusal <;>
    · cases h
      refine .attempt rfl hchecks.2 (.of_cause_none rfl) ?_
      simp [verdict_eq, sends, Operation.sends]
  | quarantine =>
    obtain ⟨r, hr, rfl⟩ := Option.map_eq_some_iff.mp h
    exact .edit hsound hr rfl rfl rfl (.of_fields rfl rfl rfl Iff.rfl)
  | startup stored =>
    simp only [Agent.step] at h
    split at h <;> cases h
    cases hr : s.record with
    | none => exact .same hsound rfl (by simp [hr]) rfl
    | some r =>
      cases stored with
      | false => exact .same hsound rfl (by simp [hr]) rfl
      | true => exact .edit hsound hr rfl rfl (by simp) (clearOrphanedOperation_same r)
  | step =>
    obtain ⟨held, hheld, rfl⟩ := Option.map_eq_some_iff.mp h
    have hs := hsound held hheld
    refine ⟨fun id hid => by rwa [advance_receipts], fun h' hh' => advance_sound rfl hs hh',
      fun q hq => ?_⟩
    rcases advance_has hs hq with hq | hq
    · exact .old q (.inl hq) (.refl q)
    · exact .old held.record (.inr ⟨held.stage, hheld⟩) hq
  | crash =>
    cases h
    refine ⟨fun id hid => hid, by simp, fun q hq => ?_⟩
    rcases hq with hq | ⟨_, hq⟩
    · exact .old q (.inl hq) (.refl q)
    · cases hq
  | exit =>
    cases h
    exact .same hsound rfl rfl rfl
  | arrive =>
    simp only [Agent.step] at h
    split_ifs at h
    cases h
    exact .same hsound rfl rfl rfl

section Departed

variable {r : VmRecord} {w : SendWatch} {d : Departure}

theorem departed_attemptId (r : VmRecord) (d) : (r.departed d).attemptId = r.attemptId := by
  cases d <;> cases hr : r.migration <;> simp [departed, attemptId, hr]

theorem verdict_of_failed (h : r.sendFailed.isSome) : r.verdict ≠ some .gone := by
  rw [verdict_eq]
  cases r.migration with
  | none => simp
  | some =>
    simp only [Option.bind_some, h, if_true]
    split_ifs <;> simp

theorem verdict_of_sends (h : r.sends) : r.verdict = none := by
  rw [verdict_eq]
  cases r.migration <;> simp [h]

theorem overdue_same (migrationId peer r) :
    ∃ r', overdue migrationId peer (some r) = some r' ∧ SameVerdict r r' := by
  refine ⟨_, rfl, ?_⟩
  dsimp only
  split_ifs
  · exact .of_fields (by cases r.migration <;> rfl) rfl rfl Iff.rfl
  · exact .refl r

end Departed

inductive SourceEffect (s s' : Source) : Prop
  | follows : Follows s.vm s'.vm → SourceEffect s s'
  | lands (w : SendWatch) (r : VmRecord) (d : Departure) : w ∈ s.watches → w.stage = .judged d →
      s.vm.held = none → s.vm.record = some r → r.migration = some w.attempt →
      r.sends → s'.vm = { s.vm with record := some (r.departed d) } → SourceEffect s s'

theorem Source.replace_vm (s : Source) (i w) : (s.replace i w).vm = s.vm := by
  cases w <;> rfl

variable {s' : Source} {e : SourceEvent}

theorem source_effect {s} (hsound : ∀ h, s.vm.held = some h → h.Sound)
    (h : source.step s e = some s') : SourceEffect s s' := by
  have hsame : ∀ {t : Source}, t.vm = s.vm → SourceEffect s t := fun ht =>
    .follows (.same hsound (by rw [ht]) (by rw [ht]) (by rw [ht]))
  cases e with
  | vm =>
    simp only [source, Source.step] at h
    split at h
    · rename_i hunwatched
      obtain ⟨vm, hvm, rfl⟩ := Option.map_eq_some_iff.mp h
      exact .follows (step_follows hunwatched hsound hvm)
    · cases h
  | look =>
    obtain ⟨w, -, rfl⟩ := Option.map_eq_some_iff.mp h
    exact hsame rfl
  | probe i | checkPid i =>
    obtain ⟨w, -, h⟩ := Option.bind_eq_some_iff.mp h
    split_ifs at h
    cases h
    exact hsame (s.replace_vm i _)
  | land i stored =>
    obtain ⟨w, hw, h⟩ := Option.bind_eq_some_iff.mp h
    split at h
    · rename_i d hstage
      split_ifs at h with hfree
      cases h
      have hheld : s.vm.held = none := by
        simp only [Source.free, Bool.and_eq_true, Option.isNone_iff_eq_none] at hfree
        exact hfree.1
      cases stored with
      | false => exact hsame (s.replace_vm i none)
      | true =>
        cases hr : s.vm.record with
        | none => exact .follows (.same hsound rfl (by simp [Source.write, SendWatch.land, hr]) rfl)
        | some r =>
          by_cases hmatch : r.migration = some w.attempt ∧ r.sends
          · refine .lands w r d (mem_of_getElem? hw) hstage hheld hr hmatch.1 hmatch.2 ?_
            simp [Source.write, Source.replace, SendWatch.land, hmatch]
          · refine .follows (.same hsound rfl ?_ rfl)
            simp [Source.write, SendWatch.land, hr, hmatch]
    · cases h
  | overdue migrationId peer stored =>
    simp only [source, Source.step] at h
    split_ifs at h
    cases h
    cases stored with
    | false => exact hsame rfl
    | true =>
      cases hr : s.vm.record with
      | none => exact .follows (.same hsound rfl (by simp [Source.write, overdue, hr]) rfl)
      | some r =>
        obtain ⟨r', hr', hverdict⟩ := overdue_same migrationId peer r
        exact .follows (.edit hsound hr rfl rfl (by simp [Source.write, hr']) hverdict)

structure Source.Sound (s : Source) : Prop where
  held : ∀ h, s.vm.held = some h → h.Sound
  known : ∀ r id, s.vm.Has r → r.attemptId = some id → id ∈ s.vm.receipts
  agree : ∀ r r' id, s.vm.Has r → s.vm.Has r' → r.attemptId = some id → r'.attemptId = some id →
    r.verdict = r'.verdict

structure Source.Settled (id : String) (verdict : DepartureOutcome) (s : Source) : Prop where
  spent : id ∈ s.vm.receipts
  told : ∀ r, s.vm.Has r → r.attemptId = some id → r.verdict = some verdict

theorem has_of_free (hheld : s.held = none) (h : s.Has r) : s.record = some r := by
  rcases h with h | ⟨stage, h⟩
  · exact h
  · cases hheld.symm.trans h

namespace Source

variable {s s' : Source} {id : String} {verdict : DepartureOutcome}

theorem Settled.step (h : s.Settled id verdict)
    (he : SourceEffect s s') : s'.Settled id verdict := by
  cases he with
  | follows hf =>
    refine ⟨hf.receipts id h.spent, fun r' hr' hid => ?_⟩
    cases hf.derives r' hr' with
    | old r hr hsame => rw [hsame.2, h.told r hr (hsame.1 ▸ hid)]
    | unbound hnone => simp [attemptId, hnone] at hid
    | fresh id' stage hid' hnew =>
      cases hid'.symm.trans hid
      exact absurd h.spent hnew
  | lands w r d _ _ hheld hr _ hsends hvm =>
    refine ⟨by rw [hvm]; exact h.spent, fun r' hr' hid => ?_⟩
    rw [hvm] at hr'
    have hr' := has_of_free (s := { s.vm with record := some (r.departed d) }) hheld hr'
    cases hr'
    rw [departed_attemptId] at hid
    -- a send that is under way has no verdict yet
    have hverdict := h.told r (.inl hr) hid
    rw [verdict_of_sends hsends] at hverdict
    cases hverdict

theorem Sound.step (h : s.Sound) (he : SourceEffect s s') : s'.Sound := by
  cases he with
  | follows hf =>
    refine ⟨hf.sound, fun r' id hr' hid => ?_, fun r1 r2 id h1 h2 hid1 hid2 => ?_⟩
    · cases hf.derives r' hr' with
      | old r hr hsame => exact hf.receipts id (h.known r id hr (hsame.1 ▸ hid))
      | unbound hnone => simp [attemptId, hnone] at hid
      | fresh id' stage hid' _ hin =>
        cases hid'.symm.trans hid
        exact hin
    · cases hf.derives r1 h1 with
      | unbound hnone => simp [attemptId, hnone] at hid1
      | old q1 hq1 hsame1 =>
        cases hf.derives r2 h2 with
        | unbound hnone => simp [attemptId, hnone] at hid2
        | old q2 hq2 hsame2 =>
          rw [hsame1.2, hsame2.2]
          exact h.agree q1 q2 id hq1 hq2 (hsame1.1 ▸ hid1) (hsame2.1 ▸ hid2)
        | fresh id' _ hid' hnew =>
          cases hid'.symm.trans hid2
          exact absurd (h.known q1 id hq1 (hsame1.1 ▸ hid1)) hnew
      | fresh id' _ hid' hnew _ hheld1 =>
        cases hid'.symm.trans hid1
        cases hf.derives r2 h2 with
        | unbound hnone => simp [attemptId, hnone] at hid2
        | old q2 hq2 hsame2 => exact absurd (h.known q2 id hq2 (hsame2.1 ▸ hid2)) hnew
        | fresh _ _ _ _ _ hheld2 =>
          cases hheld1.symm.trans hheld2
          rfl
  | lands w r d _ _ hheld hr _ hsends hvm =>
    have hhas : ∀ r', s'.vm.Has r' → r' = r.departed d := by
      intro r' hr'
      rw [hvm] at hr'
      exact (Option.some.inj
        (has_of_free (s := { s.vm with record := some (r.departed d) }) hheld hr')).symm
    refine ⟨by rw [hvm]; exact h.held, fun r' id hr' hid => ?_, fun r1 r2 id h1 h2 _ _ => ?_⟩
    · rw [hhas r' hr', departed_attemptId] at hid
      rw [hvm]
      exact h.known r id (.inl hr) hid
    · rw [hhas r1 h1, hhas r2 h2]

theorem sound_start {record receipts}
    (hknown : ∀ r ∈ record, ∀ id, r.attemptId = some id → id ∈ receipts) :
    (Source.start record receipts).Sound := by
  have hhas : ∀ r, (Source.start record receipts).vm.Has r → record = some r :=
    fun r hr => has_of_free rfl hr
  refine ⟨by simp [start, initial], fun r id hr hid => hknown r (hhas r hr) id hid, ?_⟩
  intro r r' id hr hr' _ _
  cases (hhas r hr).symm.trans (hhas r' hr')
  rfl

theorem Sound.run (h : s.Sound) {es} (hrun : source.run s es = some s') : s'.Sound :=
  always (fun h hstep => Sound.step h (source_effect h.held hstep)) h hrun

theorem Sound.settled (h : s.Sound) {es} (hrun : source.run s es = some s')
    (hset : s.Settled id verdict) : s'.Settled id verdict := by
  have hkeeps : ∀ {s e s'}, Source.Sound s ∧ s.Settled id verdict → source.step s e = some s' →
      Source.Sound s' ∧ s'.Settled id verdict := fun h hstep =>
    have he := source_effect h.1.held hstep
    ⟨h.1.step he, h.2.step he⟩
  exact (always hkeeps ⟨h, hset⟩ hrun).2

theorem Sound.settled_of_record (h : s.Sound) {r} (hr : s.vm.record = some r)
    (hid : r.attemptId = some id) (hverdict : r.verdict = some verdict) : s.Settled id verdict := by
  refine ⟨h.known r id (.inl hr) hid, fun r' hr' hid' => ?_⟩
  rw [h.agree r' r id hr' (.inl hr) hid' hid, hverdict]

end Source

def Unowned (start : Source) (es : List SourceEvent) (id : String) : Prop :=
  ∃ before after s i w pid, es = before ++ .checkPid i :: after ∧
    source.run start before = some s ∧ s.watches[i]? = some w ∧ w.stage = .checkingPid ∧
    w.attempt.id = id ∧ w.snapshot.vmmPid = some pid ∧ ∀ v ∈ s.vm.host.vmms, v.pid ≠ pid

variable {id : String}

theorem Unowned.concat {start es} (h : Unowned start es id) (e) : Unowned start (es ++ [e]) id := by
  obtain ⟨before, after, s, i, w, pid, rfl, hrest⟩ := h
  exact ⟨before, after ++ [e], s, i, w, pid, by simp, hrest⟩

structure Traced (start : Source) (es : List SourceEvent) (s : Source) : Prop where
  sound : s.Sound
  record : ∀ r id, s.vm.Has r → r.attemptId = some id → r.verdict = some .gone →
    (∃ r0, start.vm.record = some r0 ∧ r0.attemptId = some id ∧ r0.verdict = some .gone) ∨
      Unowned start es id
  watch : ∀ w ∈ s.watches, w.stage = .judged .gone → Unowned start es w.attempt.id

theorem mem_replace {s : Source} {i next w} (h : w ∈ (s.replace i next).watches) :
    w ∈ s.watches ∨ next = some w := by
  cases next with
  | none => exact .inl (mem_of_mem_eraseIdx h)
  | some =>
    rcases mem_or_eq_of_mem_set h with h | rfl
    · exact .inl h
    · exact .inr rfl

theorem source_watches {s} (h : source.step s e = some s') {w} (hw : w ∈ s'.watches)
    (hgone : w.stage = .judged .gone) :
    w ∈ s.watches ∨ ∃ i u pid, e = .checkPid i ∧ s.watches[i]? = some u ∧
      u.stage = .checkingPid ∧ u.attempt = w.attempt ∧ u.snapshot.vmmPid = some pid ∧
      ∀ v ∈ s.vm.host.vmms, v.pid ≠ pid := by
  cases e with
  | vm =>
    simp only [source, Source.step] at h
    split at h
    · obtain ⟨vm, -, rfl⟩ := Option.map_eq_some_iff.mp h
      dsimp only at hw
      split_ifs at hw
      · cases hw
      · exact .inl hw
    · cases h
  | look =>
    obtain ⟨u, hu, rfl⟩ := Option.map_eq_some_iff.mp h
    rcases mem_append.mp hw with hw | hw
    · exact .inl hw
    · cases mem_singleton.mp hw
      obtain ⟨r, -, hu⟩ := Option.bind_eq_some_iff.mp hu
      split_ifs at hu
      obtain ⟨m, -, hu⟩ := Option.bind_eq_some_iff.mp hu
      split_ifs at hu
      cases hu
      cases hgone
  | probe =>
    obtain ⟨u, hu, h⟩ := Option.bind_eq_some_iff.mp h
    split_ifs at h
    cases h
    rcases mem_replace hw with hw | hw
    · exact .inl hw
    · unfold SendWatch.probe at hw
      split_ifs at hw
      · obtain ⟨why, -, rfl⟩ := Option.map_eq_some_iff.mp hw
        cases hgone
      · cases hw
        cases hgone
  | checkPid i =>
    obtain ⟨u, hu, h⟩ := Option.bind_eq_some_iff.mp h
    split_ifs at h with hstage
    cases h
    rcases mem_replace hw with hw | hw
    · exact .inl hw
    · unfold SendWatch.checkPid at hw
      split at hw
      · rename_i pid hpid
        split_ifs at hw with hfound
        cases hw
        exact .inr ⟨i, u, pid, rfl, hu, hstage, rfl, hpid, fun v hv hvp => hfound ⟨v, hv, hvp⟩⟩
      · cases hw
  | land i stored =>
    obtain ⟨u, hu, h⟩ := Option.bind_eq_some_iff.mp h
    split at h
    · split_ifs at h
      cases h
      left
      cases stored <;> exact mem_of_mem_eraseIdx hw
    · cases h
  | overdue migrationId peer stored =>
    simp only [source, Source.step] at h
    split_ifs at h
    cases h
    cases stored <;> exact .inl hw

theorem Traced.step {start s es} (hrun : source.run start es = some s) (h : Traced start es s)
    (hstep : source.step s e = some s') : Traced start (es ++ [e]) s' := by
  have he := source_effect h.sound.held hstep
  refine ⟨h.sound.step he, fun r' id hr' hid hgone => ?_, fun w hw hgone => ?_⟩
  · cases he with
    | follows hf =>
      cases hf.derives r' hr' with
      | old r hr hsame =>
        exact (h.record r id hr (hsame.1 ▸ hid) (hsame.2 ▸ hgone)).imp_right (·.concat e)
      | unbound hnone => simp [attemptId, hnone] at hid
      | fresh _ _ _ _ _ _ hnot => exact absurd hgone hnot
    | lands w r d hw hstage hheld hr hattempt hsends hvm =>
      rw [hvm] at hr'
      cases has_of_free (s := { s.vm with record := some (r.departed d) }) hheld hr'
      rw [departed_attemptId] at hid
      have hid : w.attempt.id = id := by simpa [attemptId, hattempt] using hid
      cases d with
      | gone => exact .inr (hid ▸ (h.watch w hw hstage).concat e)
      | stillHere => exact absurd hgone (verdict_of_failed rfl)
  · rcases source_watches hstep hw hgone with
      hw | ⟨i, u, pid, rfl, hu, hstage, hattempt, hpid, hfree⟩
    · exact (h.watch w hw hgone).concat e
    · exact ⟨es, [], s, i, u, pid, rfl, hrun, hu, hstage, hattempt ▸ rfl, hpid, hfree⟩

theorem verdict_of_departure {d} (h : departure r = some d)
    (hfinal : d.outcome = .gone ∨ d.outcome = .stillHere) :
    r.attemptId = some d.migrationId ∧ r.verdict = some d.outcome := by
  obtain ⟨m, hm, h⟩ := Option.bind_eq_some_iff.mp h
  obtain ⟨o, ho, rfl⟩ := Option.map_eq_some_iff.mp h
  refine ⟨by simp [attemptId, hm], ?_⟩
  simp only [verdict, hm, Option.bind_some, ho]
  rcases hfinal with rfl | rfl <;> rfl

theorem departure_of_verdict {o} (hid : r.attemptId = some id) (h : r.verdict = some o) :
    ∃ d, departure r = some d ∧ d.outcome = o ∧ d.migrationId = id := by
  obtain ⟨m, hm, rfl⟩ := Option.map_eq_some_iff.mp hid
  have ho : departureOutcome r m = some o := by
    simp only [verdict, hm, Option.bind_some, Option.filter_eq_some_iff] at h
    exact h.1
  exact ⟨⟨m.id, m.peer, o, m.unknown.or r.sendFailed⟩, by simp [departure, hm, ho], rfl, rfl⟩

def SourceEvent.observes (s : Source) : SourceEvent → Option String
  | .vm _ => none
  | .look id | .overdue id _ _ => some id
  | .probe i _ _ | .checkPid i | .land i _ => s.watches[i]?.map (·.attempt.id)

theorem observed_other {s} (hstep : source.step s e = some s') (hobserves : e.observes s = some id)
    (hother : ∀ r ∈ s.vm.record, r.attemptId ≠ some id) : s'.vm.record = s.vm.record := by
  cases e with
  | vm => cases hobserves
  | look =>
    obtain ⟨w, -, rfl⟩ := Option.map_eq_some_iff.mp hstep
    rfl
  | probe | checkPid =>
    obtain ⟨w, -, h⟩ := Option.bind_eq_some_iff.mp hstep
    split_ifs at h
    cases h
    rw [s.replace_vm]
  | land i stored =>
    obtain ⟨w, hw, h⟩ := Option.bind_eq_some_iff.mp hstep
    have hid : w.attempt.id = id := by simpa [SourceEvent.observes, hw] using hobserves
    split at h
    · split_ifs at h
      cases h
      cases stored with
      | false => rw [Source.write, if_neg (by simp), s.replace_vm]
      | true =>
        cases hr : s.vm.record with
        | none => simp [Source.write, SendWatch.land]
        | some r =>
          have hne : r.migration ≠ some w.attempt := fun hm =>
            hother r hr (by simp [attemptId, hm, hid])
          simp [Source.write, SendWatch.land, hne]
    · cases h
  | overdue migrationId peer stored =>
    cases hobserves
    simp only [source, Source.step] at hstep
    split_ifs at hstep
    cases hstep
    cases stored with
    | false => rfl
    | true =>
      cases hr : s.vm.record with
      | none => simp [Source.write, overdue]
      | some r =>
        have hne := hother r hr
        cases hm : r.migration with
        | none => simp [Source.write, overdue, hm]
        | some m =>
          have hid : m.id ≠ id := by simpa [attemptId, hm] using hne
          simp [Source.write, overdue, hm, hid]

/-- Over any run, an attempt that was reported Gone is not reported StillHere and the other way
round; Gone goes back to a watcher of that attempt that found the recorded process absent; and
observing the send of an attempt leaves the record of another one as it is. -/
theorem source_evidence_exclusive {record : Option VmRecord} {receipts : List String}
    (hknown : ∀ r ∈ record, ∀ id, r.attemptId = some id → id ∈ receipts)
    {es es' : List SourceEvent} {s s' : Source}
    (hrun : source.run (.start record receipts) es = some s) (hrun' : source.run s es' = some s') :
    (∀ r r' d d', s.vm.record = some r → s'.vm.record = some r' → departure r = some d →
      departure r' = some d' → d.migrationId = d'.migrationId →
      ¬ (d.outcome = .gone ∧ d'.outcome = .stillHere) ∧
        ¬ (d.outcome = .stillHere ∧ d'.outcome = .gone)) ∧
    (∀ r d, s.vm.record = some r → departure r = some d → d.outcome = .gone →
      (∃ r0 d0, record = some r0 ∧ departure r0 = some d0 ∧ d0.outcome = .gone ∧
        d0.migrationId = d.migrationId) ∨
      Unowned (.start record receipts) es d.migrationId) ∧
    ∀ e id t, source.step s e = some t → e.observes s = some id →
      (∀ r ∈ s.vm.record, r.attemptId ≠ some id) → t.vm.record = s.vm.record := by
  have hstart := Source.sound_start hknown
  have hsound := hstart.run hrun
  have hfinal : ∀ r r' d d', s.vm.record = some r → s'.vm.record = some r' →
      departure r = some d → departure r' = some d' → d.migrationId = d'.migrationId →
      d.outcome = .gone ∨ d.outcome = .stillHere → d'.outcome = .gone ∨ d'.outcome = .stillHere →
      d.outcome = d'.outcome := by
    intro r r' d d' hr hr' hd hd' hsame hend hend'
    obtain ⟨hid, hverdict⟩ := verdict_of_departure hd hend
    obtain ⟨hid', hverdict'⟩ := verdict_of_departure hd' hend'
    have hset := hsound.settled hrun' (hsound.settled_of_record hr hid hverdict)
    exact Option.some.inj ((hset.told r' (.inl hr') (hsame ▸ hid')).symm.trans hverdict')
  refine ⟨fun r r' d d' hr hr' hd hd' hsame => ⟨?_, ?_⟩, fun r d hr hd hgone => ?_,
    fun e id t => observed_other⟩
  · rintro ⟨hgone, hhere⟩
    have heq := hfinal r r' d d' hr hr' hd hd' hsame (.inl hgone) (.inr hhere)
    simp [hgone, hhere] at heq
  · rintro ⟨hhere, hgone⟩
    have heq := hfinal r r' d d' hr hr' hd hd' hsame (.inr hhere) (.inl hgone)
    simp [hgone, hhere] at heq
  · obtain ⟨hid, hverdict⟩ := verdict_of_departure hd (.inl hgone)
    have hfirst : Traced (.start record receipts) [] (.start record receipts) :=
      ⟨hstart, fun r0 id hr0 hid0 hgone0 => .inl ⟨r0, has_of_free rfl hr0, hid0, hgone0⟩, by
        simp [Source.start]⟩
    have htraced : Traced (.start record receipts) es s :=
      traced hfirst (fun hrun h hstep => h.step hrun hstep) hrun
    rw [hgone] at hverdict
    rcases htraced.record r _ (.inl hr) hid hverdict with ⟨r0, hr0, hid0, hgone0⟩ | hunowned
    · obtain ⟨d0, hd0, hout, hsame⟩ := departure_of_verdict hid0 hgone0
      exact .inl ⟨r0, d0, hr0, hd0, hout, hsame⟩
    · exact .inr hunowned

def engagedRun : List SourceEvent :=
  [.vm (.startup true), .vm (.provision .running true)] ++
    List.replicate 9 (.vm (.step .ok)) ++
    [.vm (.migrateOut "m" "tcp:b:49000" none), .vm (.step .ok)]

def vmmLost : List SourceEvent :=
  [.vm .crash, .vm (.startup true), .vm (.exit 1), .look "m", .probe 0 false none, .checkPid 0,
    .land 0 true]

def handedBack : List SourceEvent :=
  [.vm (.step .ok), .vm (.step .ok), .look "m", .look "m", .probe 0 true (some "served here"),
    .land 0 true]

def lateWatcher : List SourceEvent :=
  [.probe 0 false none, .vm (.exit 1), .checkPid 0, .land 0 true]

/-- A send that was handed back stays one: the watcher that comes late does not say Gone. -/
theorem source_evidence_exclusive_handedBack : ∃ s s' r r' d d',
    source.run (.start none []) (engagedRun ++ handedBack) = some s ∧
      source.run s lateWatcher = some s' ∧ s.vm.record = some r ∧ s'.vm.record = some r' ∧
      departure r = some d ∧ departure r' = some d' ∧ d.outcome = .stillHere ∧
      d'.outcome ≠ .gone := by
  have hrun : ∃ s s' r r' d d',
      source.run (.start none []) (engagedRun ++ handedBack) = some s ∧
        source.run s lateWatcher = some s' ∧ s.vm.record = some r ∧ s'.vm.record = some r' ∧
        departure r = some d ∧ departure r' = some d' ∧ d.migrationId = d'.migrationId ∧
        d.outcome = .stillHere := ⟨_, _, _, _, _, _, rfl, rfl, rfl, rfl, rfl, rfl, rfl, rfl⟩
  obtain ⟨s, s', r, r', d, d', hrun, hrun', hr, hr', hd, hd', hsame, hhere⟩ := hrun
  refine ⟨s, s', r, r', d, d', hrun, hrun', hr, hr', hd, hd', hhere, fun hgone => ?_⟩
  have hevidence := source_evidence_exclusive (by simp) hrun hrun'
  exact (hevidence.1 r r' d d' hr hr' hd hd' hsame).2 ⟨hhere, hgone⟩

/-- Gone is reported of a send that was never submitted: the agent crashed before it, and the VMM
ended on its own. -/
theorem gone_without_send : ∃ s s' r d,
    source.run (.start none []) engagedRun = some s ∧
      s.vm.held.map (·.stage) = some .submit ∧
      source.run s vmmLost = some s' ∧ s'.vm.record = some r ∧ departure r = some d ∧
      d.migrationId = "m" ∧ d.outcome = .gone ∧ r.migration.map (·.accepted) = some false := by
  exact ⟨_, _, _, _, rfl, by decide, rfl, rfl, rfl, by decide⟩

end MeisterStack.Agent
