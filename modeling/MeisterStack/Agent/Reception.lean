import MeisterStack.Agent.Lifecycle

/-!
# A guest that is to arrive is not booted

`prepare_migration` makes a record for a guest that another node still runs. Its operation marker,
and then the phase `Receiving`, keep the planner away from it. A preparation that fails stores the
record without its marker and takes it apart; a teardown that does not complete leaves a record that
asks for a running VM.
-/

namespace MeisterStack.Agent

open Foundation List

def Cause.boots : Cause → Bool
  | .prepare => false
  | _ => true

def Stage.boots : Stage → Bool
  | .volumes cause | .nics cause | .devices cause => cause.boots
  | .killForResume | .rebuild | .spawn _ | .attach _ _ | .define _ _ | .keepPid _ | .start _
  | .finish _ | .restart => true
  | _ => false

def Marked (r : VmRecord) : Prop := ∃ peer, r.operation = some (.migratingIn peer)

def Barred (r : VmRecord) : Prop := Marked r ∨ (r.phase = .receiving ∧ r.operation = none)

instance (r) : Decidable (Marked r) :=
  match h : r.operation with
  | some (.migratingIn peer) => isTrue ⟨peer, h⟩
  | some (.migratingOut _) | some (.snapshotting _) | some (.restoring _) | none =>
    isFalse (by rintro ⟨peer, hp⟩; rw [h] at hp; cases hp)

instance (r) : Decidable (Barred r) := by unfold Barred; infer_instance

def State.Unbarred (s : State) : Prop := s.awaited ≠ none ∧ ∃ r ∈ s.record, ¬Barred r

deriving instance Decidable for State.Unbarred

def Stage.failsWith : Stage → Outcome → Bool
  | _, .ok => false
  | .destroy _, .astray => false
  | _, _ => true

def receptionGuard (s : State) : Event → Prop
  | .crash => ¬s.Unbarred
  | .step o => s.Unbarred → ∀ h ∈ s.held, h.stage.failsWith o = false
  | _ => True

instance (s e) : Decidable (receptionGuard s e) := by
  cases e <;> dsimp only [receptionGuard] <;> infer_instance

def Stage.cleans : Stage → Bool
  | .killSlice | .destroy false | .release false | .delete false => true
  | _ => false

def ChainOk (awaited : Option String) (r : VmRecord) : Cause → Prop
  | .prepare => Marked r
  | _ => awaited = none

def WaitsAt (awaited : Option String) (r : VmRecord) : Stage → Prop
  | .announce => awaited = none ∧ Marked r
  | .volumes cause | .nics cause | .devices cause => ChainOk awaited r cause
  | .spawnReceiver | .listen _ | .attachReceiver _ => Marked r
  | .keepReceiving => Marked r ∧ r.phase = .receiving
  | .answer => r.phase = .receiving ∧ r.operation = none
  | .abort | .killSlice | .destroy _ | .release _ | .delete _ | .adopt _ => True
  | .stopDestroy | .save => awaited = none ∨ Barred r
  | _ => awaited = none

structure Waits (s : State) : Prop where
  recorded : s.awaited ≠ none → s.record ≠ none
  barred : s.awaited ≠ none → ∀ r ∈ s.record,
    Barred r ∨ ∃ h ∈ s.held, h.stage.cleans
  held : ∀ h ∈ s.held, WaitsAt s.awaited h.record h.stage

variable {awaited : Option String} {stage : Stage}

theorem WaitsAt.of_boots {r} (h : WaitsAt awaited r stage) (hboots : stage.boots) :
    awaited = none := by
  cases stage with
  | volumes cause | nics cause | devices cause =>
    cases cause with
    | prepare => cases hboots
    | provision | resume => exact h
  | killForResume | rebuild | spawn | attach | define | keepPid | start | finish | restart =>
    exact h
  | _ => cases hboots

structure Kept (s : State) : Prop where
  recorded : s.awaited ≠ none → s.record ≠ none
  barred : s.awaited ≠ none → ∀ r ∈ s.record, Barred r

variable {s : State} {r : VmRecord}

theorem waits_done (h : Kept s) : Waits s.done :=
  ⟨h.recorded, fun ha r hr => .inl (h.barred ha r hr), by simp [State.done]⟩

theorem waits_goto (h : Kept s) (hat : WaitsAt s.awaited r stage) : Waits (s.goto r stage) :=
  ⟨h.recorded, fun ha r' hr => .inl (h.barred ha r' hr), by
    intro held hheld
    cases hheld
    exact hat⟩

theorem Kept.put (hr : s.awaited = none ∨ Barred r) : Kept (s.put r) := by
  refine ⟨fun _ => by simp [State.put], fun ha r' hr' => ?_⟩
  cases hr'
  exact hr.resolve_left ha

theorem Kept.on (h : Kept s) (host) : Kept (s.on host) := ⟨h.recorded, h.barred⟩

theorem kept_of_not_awaited (h : s.awaited = none) : Kept s :=
  ⟨fun ha => absurd h ha, fun ha => absurd h ha⟩

variable {cause : Cause}

theorem waits_chainFails (h : Kept s)
    (hc : cause = .resume → s.awaited = none) : Waits (s.chainFails r cause) := by
  cases cause with
  | provision | prepare => exact waits_goto h trivial
  | resume => exact waits_goto h (.inl (hc rfl))

theorem waits_prepareFails (h : Kept s) : Waits (s.chainFails r .prepare) :=
  waits_goto h trivial

theorem ChainOk.resume (h : ChainOk awaited r cause) (hc : cause = .resume) : awaited = none := by
  subst hc
  exact h

theorem ChainOk.storable (h : ChainOk awaited r cause) : awaited = none ∨ Barred r := by
  cases cause with
  | prepare => exact .inr (.inl h)
  | provision | resume => exact .inl h

theorem waits_acquire (h : Kept s) (hc : ChainOk s.awaited r cause) {phase next}
    (hnext : ChainOk s.awaited { r with phase } cause → WaitsAt s.awaited { r with phase } next)
    (o) : Waits (s.acquire r cause phase next o) := by
  have hc' : ChainOk s.awaited { r with phase } cause := by
    cases cause <;> exact hc
  cases o with
  | ok => exact waits_goto (Kept.put hc'.storable) (hnext hc')
  | fails | astray => exact waits_chainFails h hc.resume

theorem waits_ite {p : Prop} [Decidable p] {a b : State} (ha : Waits a) (hb : Waits b) :
    Waits (if p then a else b) := by
  split <;> assumption

theorem waits_advance (hk : Kept s) (hat : WaitsAt s.awaited r stage)
    (hcleans : stage.cleans = false) (o) : Waits (advance s r stage o) := by
  have hon := fun host => hk.on host
  cases stage with
  | announce =>
    dsimp only [advance]
    split_ifs
    · have hput : Kept (s.put r) := Kept.put (.inl hat.1)
      refine ⟨fun _ => by simp [State.goto, State.put], fun _ r' hr' => ?_, fun h hh => ?_⟩
      · cases hr'
        exact .inl (.inl hat.2)
      · cases hh
        exact hat.2
    · exact waits_done hk
  | volumes | nics => exact waits_acquire hk hat id o
  | devices cause =>
    refine waits_acquire hk hat ?_ o
    cases cause <;> exact id
  | rebuild | engage =>
    exact waits_ite (waits_goto (Kept.put (.inl hat)) hat) (waits_done hk)
  | spawn =>
    cases o with
    | ok => exact waits_goto (hon _) hat
    | fails | astray => exact waits_chainFails (hon _) fun _ => hat
  | attach | define =>
    cases o with
    | ok => exact waits_goto (hon _) hat
    | fails => exact waits_chainFails (hon _) fun _ => hat
    | astray => exact waits_chainFails hk fun _ => hat
  | keepPid =>
    exact waits_ite (waits_goto (Kept.put (.inl hat)) hat) (waits_chainFails hk fun _ => hat)
  | start =>
    cases o with
    | ok => exact waits_goto (hon _) hat
    | fails => exact waits_chainFails hk fun _ => hat
    | astray => exact waits_chainFails (hon _) fun _ => hat
  | finish =>
    exact waits_ite (waits_done (Kept.put (.inl hat))) (waits_chainFails hk fun _ => hat)
  | spawnReceiver =>
    cases o with
    | ok => exact waits_goto (hon _) hat
    | fails | astray => exact waits_prepareFails (hon _)
  | listen =>
    exact waits_ite (waits_goto (hon _) hat) (waits_prepareFails (hon _))
  | attachReceiver =>
    cases o with
    | ok => exact waits_goto (hon _) ⟨hat, rfl⟩
    | fails | astray => exact waits_prepareFails (hon _)
  | keepReceiving =>
    exact waits_ite (waits_goto (Kept.put (.inr (.inl hat.1))) ⟨hat.2, rfl⟩) (waits_prepareFails hk)
  | answer =>
    exact waits_ite (waits_done ((Kept.put (.inr (.inr hat))).on _)) (waits_done hk)
  | abort =>
    -- whatever is stored here is taken apart next
    refine ⟨?_, fun ha r' hr' => .inr ⟨_, rfl, rfl⟩, fun h hh => ?_⟩
    · dsimp only [advance]
      split_ifs
      · simp [State.goto, State.put]
      · exact hk.recorded
    · cases hh
      trivial
  | destroy failed =>
    cases failed with
    | false => cases hcleans
    | true =>
      cases o with
      | ok | astray => exact waits_goto (hon _) trivial
      | fails => exact waits_goto hk trivial
  | release => exact waits_goto hk trivial
  | delete failed =>
    cases failed with
    | false => cases hcleans
    | true => exact waits_done hk
  | killForResume =>
    exact waits_ite (waits_goto (hon _) hat) (waits_done hk)
  | restart =>
    exact waits_ite (waits_done hk) (waits_done (hon _))
  | adopt =>
    exact waits_ite (waits_done (hon _)) (waits_done hk)
  | stopDestroy =>
    have hstopped : s.awaited = none ∨ Barred r.stopped := hat
    cases o with
    | ok | astray => exact waits_goto (hon _) hstopped
    | fails => exact waits_done hk
  | submit => exact waits_goto hk (.inl hat)
  | save =>
    exact waits_ite (waits_done (Kept.put hat)) (waits_done hk)
  | killSlice => cases hcleans

theorem waits_cleaning (hrec : s.awaited ≠ none → s.record ≠ none) (hcleans : stage.cleans)
    (hat : WaitsAt s.awaited r stage) : Waits (s.goto r stage) :=
  ⟨hrec, fun _ _ _ => .inr ⟨_, rfl, hcleans⟩, by
    intro held hheld
    cases hheld
    exact hat⟩

theorem waits_cleans (hrec : s.awaited ≠ none → s.record ≠ none) (hcleans : stage.cleans) {o}
    (hok : stage.failsWith o → Kept s) : Waits (advance s r stage o) := by
  cases stage with
  | killSlice =>
    dsimp only [advance]
    split_ifs with ho
    · exact waits_cleaning (s := s.on s.host.emptySlice) hrec rfl trivial
    · exact waits_goto (hok (by cases o <;> simp_all [Stage.failsWith])) trivial
  | destroy failed =>
    cases failed with
    | true => cases hcleans
    | false =>
      cases o with
      | ok => exact waits_cleaning (s := s.on (s.host.destroy false)) hrec rfl trivial
      | fails => exact waits_goto (hok rfl) trivial
      | astray => exact waits_cleaning (s := s.on (s.host.destroy true)) hrec rfl trivial
  | release failed =>
    cases failed with
    | true => cases hcleans
    | false =>
      cases o with
      | ok => exact waits_cleaning hrec rfl trivial
      | fails | astray => exact waits_goto (hok rfl) trivial
  | delete failed =>
    cases failed with
    | true => cases hcleans
    | false =>
      cases o with
      | ok => exact ⟨by simp [advance], by simp [advance], by simp [advance, State.done]⟩
      | fails | astray => exact waits_done (hok rfl)
  | _ => cases hcleans

theorem Waits.kept (hw : Waits s) (hcleans : ∀ h ∈ s.held, h.stage.cleans = false) : Kept s := by
  refine ⟨hw.recorded, fun ha r hr => ?_⟩
  rcases hw.barred ha r hr with hbarred | ⟨h, hh, hstage⟩
  · exact hbarred
  · rw [hcleans h hh] at hstage
    cases hstage

theorem Waits.kept_of_not_unbarred (hw : Waits s) (hs : ¬s.Unbarred) : Kept s :=
  ⟨hw.recorded, fun ha r hr => by_contra fun hb => hs ⟨ha, r, hr, hb⟩⟩

theorem Kept.not_awaited (hk : Kept s) (hr : s.record = some r) (hop : r.operation = none)
    (hphase : r.phase ≠ .receiving) : s.awaited = none := by
  by_contra ha
  rcases hk.barred ha r hr with ⟨peer, hpeer⟩ | ⟨hreceiving, -⟩
  · rw [hop] at hpeer
    cases hpeer
  · exact hphase hreceiving

variable {r' : VmRecord}

theorem Begins.waitsAt (hb : Begins r r' stage)
    (hk : Kept s) (hr : s.record = some r) : WaitsAt s.awaited r' stage := by
  cases hb with
  | resume hop hphase => exact hk.not_awaited hr hop hphase
  | restart hop hphase | send _ _ hop hphase => exact hk.not_awaited hr hop (by simp [hphase])
  | adopt | teardown => trivial
  | stop => exact (em (s.awaited = none)).imp_right fun ha => hk.barred ha r hr
  | refuse _ hop hphase => exact .inl (hk.not_awaited hr hop (by simp [hphase]))

theorem Barred.congr {r} (h : Barred r) (hphase : r'.phase = r.phase)
    (hop : r'.operation = r.operation) : Barred r' := by
  unfold Barred Marked at *
  rwa [hphase, hop]

theorem Barred.clearOrphaned (h : Barred r) : Barred (clearOrphanedOperation r) := by
  rcases h with ⟨peer, hpeer⟩ | ⟨hphase, hop⟩
  · by_cases hphase : r.phase = .receiving
    · exact .inr ⟨by simpa using hphase, by simp [clearOrphanedOperation, hpeer, hphase]⟩
    · exact .inl ⟨peer, by simp [clearOrphanedOperation, hpeer, hphase]⟩
  · exact .inr ⟨by simpa using hphase, by simp [clearOrphanedOperation, hop]⟩

theorem waits_put (hw : Waits s) (hr : s.record = some r)
    (hbarred : Barred r → Barred r') : Waits (s.put r') := by
  refine ⟨fun _ => by simp [State.put], fun ha r'' hr'' => ?_, hw.held⟩
  cases hr''
  exact (hw.barred ha r hr).imp_left hbarred

theorem waits_step {s s' e} (hw : Waits s) (hguard : receptionGuard s e) (he : Effect s e s') :
    Waits s' := by
  have hkept : s.held = none → Kept s := fun hnone => hw.kept (by simp [hnone])
  cases he with
  | edits _ r r' hr hphase hop => exact waits_put hw hr fun hb => hb.congr hphase hop
  | departs _ r r' peer hnone hr hop _ =>
    -- a marked record is not being sent
    have ha : s.awaited = none := by
      by_contra ha
      rcases (hkept hnone).barred ha r hr with ⟨peer', hpeer⟩ | ⟨-, hopNone⟩
      · rw [hop] at hpeer
        cases hpeer
      · rw [hop] at hopNone
        cases hopNone
    have hk : Kept (s.put r') := Kept.put (.inl ha)
    exact ⟨hk.recorded, fun ha => absurd ‹_› ha, by simp [State.put, hnone]⟩
  | begins _ r r' receipts stage hnone hr hbegins =>
    have hk := hkept hnone
    have hat : WaitsAt s.awaited r' stage := hbegins.waitsAt hk hr
    exact waits_goto (s := { s with receipts }) ⟨hk.recorded, hk.barred⟩ hat
  | creates _ desired managed hnone hr =>
    have ha : s.awaited = none := by
      by_contra ha
      exact hw.recorded ha hr
    exact waits_goto (Kept.put (.inl ha)) ha
  | announces _ attempt listen hnone hr =>
    have ha : s.awaited = none := by
      by_contra ha
      exact hw.recorded ha hr
    exact waits_goto (s := { s with receipts := attempt :: s.receipts })
      (kept_of_not_awaited ha) ⟨ha, listen, rfl⟩
  | arrived _ r hnone => exact ⟨by simp, by simp, by simp [State.put, hnone]⟩
  | idles | starts | exits | receives => exact ⟨hw.recorded, hw.barred, hw.held⟩
  | clears _ r hr =>
    obtain ⟨hrec, hbar, hheld⟩ := waits_put hw hr Barred.clearOrphaned
    exact ⟨hrec, hbar, hheld⟩
  | advances h o hh =>
    have hat := hw.held h hh
    by_cases hcleans : h.stage.cleans
    · refine waits_cleans (s := { s with held := none }) hw.recorded hcleans fun hfails => ?_
      have hk : Kept s := hw.kept_of_not_unbarred fun hs => by
        rw [hguard hs h hh] at hfails
        cases hfails
      exact ⟨hk.recorded, hk.barred⟩
    · have hk : Kept s := hw.kept fun h' hh' => by
        rw [hh] at hh'
        cases hh'
        simpa using hcleans
      exact waits_advance (s := { s with held := none }) ⟨hk.recorded, hk.barred⟩ hat
        (by simpa using hcleans) o
  | crashes =>
    have hk := hw.kept_of_not_unbarred hguard
    exact ⟨hk.recorded, fun ha r hr => .inl (hk.barred ha r hr), by simp⟩

theorem waits_initial (record receipts) : Waits (initial record receipts) :=
  ⟨by simp [initial], by simp [initial], by simp [initial]⟩

/-- Nothing provisions, resumes or boots the VM while an attempt is awaited. -/
theorem awaited_guest_not_booted {record : Option VmRecord} {receipts : List String}
    {es : List Event} {s : State} (hm : agent.RunMeets receptionGuard (initial record receipts) es)
    (hrun : agent.run (initial record receipts) es = some s) :
    ∀ h ∈ s.held, h.stage.boots → s.awaited = none :=
  have hw : Waits s := Machine.invariant (fun hw hg h => waits_step hw hg (step_effect h))
    (waits_initial record receipts) hm hrun
  fun h hh hboots => (hw.held h hh).of_boots hboots

private def noVmm : Observed := ⟨false, false, false, none, false⟩

private def arrivedRun : List Event :=
  [Event.startup true, .prepareMigration "m1" "tcp:a", .step .ok, .step .fails] ++
    replicate 5 (Event.step .ok) ++ [Event.prepareMigration "m2" "tcp:b"] ++
    replicate 9 (Event.step .ok) ++
    [Event.arrive 1, .execute ⟨true, true, true, some .running, false⟩ 0, .exit 1, .execute noVmm 1]

private def arrivedState : State :=
  let r : VmRecord :=
    { VmRecord.awaiting "m2" "tcp:b" true with
      phase := .provisioned, operation := none, vmmPid := some 1 }
  { record := some r, receipts := ["m2", "m1"], host := ⟨[], 2, some 1, some 1⟩
    held := some ⟨r, .killForResume⟩, starting := false, awaited := none }

/-- A failed preparation that is taken apart, then one whose guest arrives, runs here and
is built again after its VMM died. -/
theorem awaited_guest_not_booted_arrived :
    agent.run (initial none []) arrivedRun = some arrivedState ∧ arrivedState.awaited = none :=
  have hrun : agent.run (initial none []) arrivedRun = some arrivedState := rfl
  have hm : agent.RunMeets receptionGuard (initial none []) arrivedRun := by decide
  ⟨hrun, awaited_guest_not_booted hm hrun _ rfl rfl⟩

private def bootedRun : List Event :=
  [Event.startup true, .prepareMigration "m" "tcp:a", .step .ok, .step .fails, .step .ok,
    .step .fails, .step .ok, .step .ok, .step .ok, .execute noVmm 0] ++
    replicate 10 (Event.step .ok)

/-- The chain of a preparation fails, the record is stored without its marker, and the
slice cannot be killed. The next pass boots the VM from its disks. -/
theorem awaited_guest_booted : ∃ s,
    agent.run (initial none []) bootedRun = some s ∧ s.awaited = some "m" ∧
    s.held.map Held.stage = some (.finish .resume) ∧
    s.host.vmms = [⟨1, true, .booted⟩] :=
  ⟨_, rfl, rfl, rfl, rfl⟩

end MeisterStack.Agent
