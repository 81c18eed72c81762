import MeisterStack.Agent.Lifecycle
import MeisterStack.Agent.ResourceLedger

/-!
# Hands off a guest that is being sent

While a record carries the marker of an outgoing migration, the guest is the sender's. Every
operation reads the marker or needs another phase, except the in-place update of the volumes by a
re-sent create. Once the guest has gone, the phase `Migrated` keeps the planner from building the VM
again.
-/

namespace MeisterStack.Agent

open Foundation Option List State VmRecord
open Provision (Resources VolumeWithId VolumeId)

inductive HypervisorCall where
  | create
  | receive
  | start
  | adopt (pid : Pid)
  | pause
  | resume
  | powerButton
  | kill
  | destroy
  | send
  | addDisk (v : VolumeId)
  | removeDisk (v : VolumeId)

def HypervisorCall.revives : HypervisorCall → Bool
  | .create | .receive | .start | .adopt _ | .resume => true
  | _ => false

def Stage.calls (o : Outcome) : Stage → List HypervisorCall
  | .spawn _ => [.create]
  | .start _ | .restart => [.start]
  | .spawnReceiver => [.receive]
  | .attachReceiver _ => if o = .ok then [] else [.destroy]
  | .killSlice | .killForResume => [.kill]
  | .destroy _ | .stopDestroy => [.destroy]
  | .adopt pid => [.adopt pid]
  | .submit => [.send]
  | _ => []

def Action.calls : Action → List HypervisorCall
  | .signalShutdown => [.powerButton]
  | .pause => [.pause]
  | .resume => [.resume]
  | _ => []

def State.calls (s : State) : Event → List HypervisorCall
  | .step o => s.held.elim [] fun h => h.stage.calls o
  | .execute obs now => s.record.elim [] fun r => (plan r obs now).calls
  | _ => []

def pluggedBy : Provision.Call → Option HypervisorCall
  | .vmm (.addDisk v) _ => some (.addDisk v)
  | .vmm (.removeDisk v) _ => some (.removeDisk v)
  | _ => none

structure Watch where
  state : State
  resources : Resources
  calls : List HypervisorCall
  departed : Bool

inductive WatchEvent where
  | lifecycle (e : Event) (left : Resources)
  | sync (wanted : List VolumeWithId) (hotplug : Bool) (answers : List Bool)

def Event.writesLists : Event → Bool
  | .step _ | .provision _ _ | .prepareMigration _ _ => true
  | _ => false

namespace Watch

def start (receipts : List String) : Watch :=
  ⟨initial none receipts, .fresh ⟨[], [], []⟩, [], false⟩

variable (w : Watch)

def live : Bool :=
  w.state.record.any (·.vmmPid.isSome) && w.state.host.tracked.isSome

def work : Provision.Work := ⟨some w.resources, w.resources, [], [], []⟩

def lifecycle (e : Event) (left : Resources) : Option Watch :=
  (agent.step w.state e).map fun s =>
    { state := s
      resources := if e.writesLists then left else w.resources
      calls := w.calls ++ w.state.calls e
      departed := s.record.any fun r => w.departed || r.phase = .migrated }

def sync (wanted : List VolumeWithId) (hotplug : Bool) (answers : List Bool) :
    Option Watch :=
  if w.state.held.isSome || w.state.starting || w.state.record.isNone then none
  else
    let after := (Provision.syncInPlace wanted w.live hotplug).final w.work answers
    some { w with
      resources := after.stored.getD w.resources
      calls := w.calls ++ after.log.filterMap pluggedBy }

def step : WatchEvent → Option Watch
  | .lifecycle e left => w.lifecycle e left
  | .sync wanted hotplug answers => w.sync wanted hotplug answers

end Watch

def watch : Machine Watch WatchEvent := ⟨Watch.step⟩

def Sent (r : VmRecord) : Prop := ∃ peer, r.operation = some (.migratingOut peer)

instance (r) : Decidable (Sent r) :=
  match h : r.operation with
  | some (.migratingOut peer) => isTrue ⟨peer, h⟩
  | some (.migratingIn _) | some (.snapshotting _) | some (.restoring _) | none =>
    isFalse (by rintro ⟨peer, hp⟩; rw [h] at hp; cases hp)

structure Leaving (r : VmRecord) : Prop where
  sent : Sent r
  here : r.phase = .provisioned

structure Plain (r : VmRecord) : Prop where
  idle : ¬Sent r
  here : r.phase ≠ .migrated

structure Dismantled (stored : Option VmRecord) (r : VmRecord) : Prop where
  idle : ¬Sent r
  stored : ∀ r0 ∈ stored, ¬Sent r0 ∧ (r0.phase = .migrated → r.phase = .migrated)

def FencedAt (stored : Option VmRecord) (r : VmRecord) : Stage → Prop
  | .engage => Leaving r ∧ ∀ r0 ∈ stored, Plain r0
  | .submit => Leaving r ∧ ∀ r0 ∈ stored, Leaving r0
  | .save => (Leaving r ∧ ∀ r0 ∈ stored, Leaving r0) ∨ Dismantled stored r
  | .stopDestroy | .killSlice | .destroy _ | .release _ | .delete _ => Dismantled stored r
  | _ => Plain r ∧ ∀ r0 ∈ stored, Plain r0

def SentHere (stored : Option VmRecord) : Prop := ∀ r ∈ stored, Sent r → r.phase = .provisioned

structure Fenced (s : State) : Prop where
  stored : SentHere s.record
  held : ∀ h ∈ s.held, FencedAt s.record h.record h.stage

section Advance

variable {s : State} {r : VmRecord}

theorem fenced_done (hs : SentHere s.record) : Fenced s.done :=
  ⟨hs, by simp [done]⟩

variable {stage : Stage}

theorem fenced_goto (hs : SentHere s.record) (hat : FencedAt s.record r stage) :
    Fenced (s.goto r stage) :=
  ⟨hs, by
    intro h hh
    cases hh
    exact hat⟩

theorem Plain.sentHere (h : Plain r) : SentHere (some r) := by
  intro r' hr'
  cases hr'
  exact fun hsent => absurd hsent h.idle

theorem sentHere_of_plain {stored} (h : ∀ r0 ∈ stored, Plain r0) : SentHere stored :=
  fun r0 hr0 hsent => absurd hsent (h r0 hr0).idle

variable (h : Plain r)

include h

theorem Plain.stored : ∀ r0 ∈ some r, Plain r0 := by
  intro r0 hr0
  cases hr0
  exact h

theorem Plain.dismantled {stored} (hstored : ∀ r0 ∈ stored, Plain r0) : Dismantled stored r :=
  ⟨h.idle, fun r0 hr0 =>
    ⟨(hstored r0 hr0).idle, fun hphase => absurd hphase (hstored r0 hr0).here⟩⟩

theorem Plain.with_phase {phase} (hphase : phase ≠ .migrated) : Plain { r with phase } :=
  ⟨h.idle, hphase⟩

theorem Plain.with_pid (vmmPid) : Plain { r with vmmPid } :=
  ⟨h.idle, h.here⟩

theorem Plain.without_operation : Plain { r with operation := none } :=
  ⟨(by rintro ⟨peer, hpeer⟩; cases hpeer), h.here⟩

theorem fenced_chainFails (hstored : ∀ r0 ∈ s.record, Plain r0) (cause) :
    Fenced (s.chainFails r cause) := by
  have hs := sentHere_of_plain hstored
  cases cause with
  | provision => exact fenced_goto hs ⟨h, hstored⟩
  | resume => exact fenced_goto hs (.inr (h.dismantled hstored))
  | prepare => exact fenced_goto hs ⟨h.without_operation, hstored⟩

theorem fenced_acquire (hstored : ∀ r0 ∈ s.record, Plain r0) {cause phase}
    (hphase : phase ≠ .migrated) {next} (hnext : ∀ r', Plain r' → FencedAt (some r') r' next) (o) :
    Fenced (s.acquire r cause phase next o) := by
  have h' := h.with_phase hphase
  cases o with
  | ok => exact fenced_goto h'.sentHere (hnext _ h')
  | fails => exact fenced_chainFails h hstored cause
  | astray => exact fenced_chainFails h' hstored cause

omit h

theorem fenced_advance (hs : SentHere s.record) (hat : FencedAt s.record r stage) (o) :
    Fenced (advance s r stage o) := by
  cases stage with
  | announce =>
    dsimp only [advance]
    split_ifs
    · have hgoto : Fenced ((s.put r).goto r (.volumes .prepare)) :=
        fenced_goto hat.1.sentHere ⟨hat.1, hat.1.stored⟩
      exact ⟨hgoto.stored, hgoto.held⟩
    · exact fenced_done hs
  | rebuild =>
    dsimp only [advance]
    split_ifs
    · exact fenced_goto hat.1.sentHere ⟨hat.1, hat.1.stored⟩
    · exact fenced_done hs
  | volumes | nics =>
    refine fenced_acquire hat.1 hat.2 (by simp) (fun r' h' => ?_) o
    exact ⟨h', h'.stored⟩
  | devices cause =>
    refine fenced_acquire hat.1 hat.2 (by simp) (fun r' h' => ?_) o
    cases cause <;> exact ⟨h', h'.stored⟩
  | spawn | spawnReceiver =>
    cases o with
    | ok => exact fenced_goto hs hat
    | fails | astray =>
      dsimp only [advance]
      refine fenced_chainFails hat.1 ?_ _
      exact hat.2
  | attach cause =>
    cases o with
    | ok => exact fenced_goto hs hat
    | fails =>
      refine fenced_chainFails hat.1 ?_ cause
      exact hat.2
    | astray => exact fenced_chainFails hat.1 hat.2 cause
  | define cause =>
    cases o with
    | ok => exact fenced_goto hs ⟨hat.1.with_pid _, hat.2⟩
    | fails =>
      refine fenced_chainFails hat.1 ?_ cause
      exact hat.2
    | astray => exact fenced_chainFails hat.1 hat.2 cause
  | keepPid cause =>
    dsimp only [advance]
    split_ifs
    · exact fenced_goto hat.1.sentHere ⟨hat.1, hat.1.stored⟩
    · exact fenced_chainFails hat.1 hat.2 cause
  | start cause =>
    cases o with
    | ok => exact fenced_goto hs ⟨hat.1.with_phase (by simp), hat.2⟩
    | fails => exact fenced_chainFails hat.1 hat.2 cause
    | astray =>
      refine fenced_chainFails hat.1 ?_ cause
      exact hat.2
  | finish cause =>
    dsimp only [advance]
    split_ifs
    · exact fenced_done hat.1.sentHere
    · exact fenced_chainFails hat.1 hat.2 cause
  | listen =>
    dsimp only [advance]
    split_ifs
    · exact fenced_goto hs ⟨hat.1.with_pid _, hat.2⟩
    · refine fenced_chainFails hat.1 ?_ .prepare
      exact hat.2
  | attachReceiver =>
    cases o with
    | ok => exact fenced_goto hs ⟨hat.1.with_phase (by simp), hat.2⟩
    | fails | astray =>
      refine fenced_chainFails (hat.1.with_pid none) ?_ .prepare
      exact hat.2
  | keepReceiving =>
    dsimp only [advance]
    split_ifs
    · exact fenced_goto hat.1.sentHere ⟨hat.1.without_operation, hat.1.stored⟩
    · exact fenced_chainFails hat.1 hat.2 .prepare
  | answer =>
    dsimp only [advance]
    split_ifs
    · exact fenced_done hat.1.sentHere
    · exact fenced_done hs
  | abort =>
    dsimp only [advance]
    split_ifs
    · exact fenced_goto hat.1.sentHere (hat.1.dismantled hat.1.stored)
    · exact fenced_goto hs (hat.1.dismantled hat.2)
  | killSlice =>
    dsimp only [advance]
    split_ifs <;> exact fenced_goto hs hat
  | destroy => cases o <;> exact fenced_goto hs hat
  | release => exact fenced_goto hs hat
  | delete =>
    dsimp only [advance]
    split_ifs
    · exact fenced_done hs
    · exact ⟨by simp [SentHere], by simp [done]⟩
  | killForResume =>
    dsimp only [advance]
    split_ifs
    · exact fenced_goto hs ⟨⟨hat.1.idle, by simp [rebuilt]⟩, hat.2⟩
    · exact fenced_done hs
  | restart | adopt =>
    dsimp only [advance]
    split_ifs <;> exact fenced_done hs
  | stopDestroy =>
    have hstopped : Dismantled s.record r.stopped := ⟨hat.idle, hat.stored⟩
    cases o with
    | ok | astray => exact fenced_goto hs (.inr hstopped)
    | fails => exact fenced_done hs
  | engage =>
    dsimp only [advance]
    split_ifs
    · refine fenced_goto (fun r' hr' _ => ?_) ⟨hat.1, fun r' hr' => ?_⟩
      all_goals cases hr'
      · exact hat.1.here
      · exact hat.1
    · exact fenced_done hs
  | submit =>
    have hleaving : Leaving r := hat.1
    exact fenced_goto hs (.inl ⟨⟨hleaving.sent, hleaving.here⟩, hat.2⟩)
  | save =>
    dsimp only [advance]
    split_ifs
    · refine fenced_done fun r' hr' hsent => ?_
      cases hr'
      rcases hat with hat | hat
      · exact hat.1.here
      · exact absurd hsent hat.idle
    · exact fenced_done hs

def Stage.dismantles : Stage → Bool
  | .save | .stopDestroy | .killSlice | .destroy _ | .release _ | .delete _ => true
  | _ => false

variable {r0 : VmRecord}

theorem FencedAt.of_migrated {stored} (hat : FencedAt stored r stage) (hr0 : r0 ∈ stored)
    (hphase : r0.phase = .migrated) : stage.dismantles ∧ Dismantled stored r := by
  have hleaving : ¬Leaving r0 := fun h => by simp [h.here] at hphase
  have hplain : ¬Plain r0 := fun h => h.here hphase
  cases stage with
  | save => exact ⟨rfl, hat.resolve_left fun h => hleaving (h.2 r0 hr0)⟩
  | stopDestroy | killSlice | destroy | release | delete => exact ⟨rfl, hat⟩
  | submit => exact absurd (hat.2 r0 hr0) hleaving
  | _ => exact absurd (hat.2 r0 hr0) hplain

theorem FencedAt.of_sent {stored} (hat : FencedAt stored r stage) (hr0 : r0 ∈ stored)
    (hsent : Sent r0) : stage = .submit ∨ stage = .save := by
  have hplain : ¬Plain r0 := fun h => h.idle hsent
  cases stage with
  | submit => exact .inl rfl
  | save => exact .inr rfl
  | stopDestroy | killSlice | destroy | release | delete =>
    exact absurd hsent (hat.stored r0 hr0).1
  | _ => exact absurd (hat.2 r0 hr0) hplain

theorem migrated_advance (hat : FencedAt s.record r stage) (o) (hr0 : s.record = some r0)
    (hphase : r0.phase = .migrated) :
    ∀ r' ∈ (advance s r stage o).record, r'.phase = .migrated := by
  obtain ⟨hdismantles, hd⟩ := hat.of_migrated hr0 hphase
  have hsame : ∀ r' ∈ s.record, r'.phase = .migrated := by
    intro r' hr'
    cases hr0.symm.trans hr'
    exact hphase
  cases stage with
  | save =>
    dsimp only [advance]
    split_ifs
    · intro r' hr'
      cases hr'
      exact (hd.stored r0 hr0).2 hphase
    · exact hsame
  | stopDestroy | destroy => cases o <;> exact hsame
  | killSlice =>
    dsimp only [advance]
    split_ifs <;> exact hsame
  | release => exact hsame
  | delete =>
    dsimp only [advance]
    split_ifs
    · exact hsame
    · simp
  | _ => cases hdismantles

end Advance

variable {r : VmRecord}

theorem plan_blocked (hsent : Sent r) (obs now) : plan r obs now = .blocked := by
  obtain ⟨peer, hpeer⟩ := hsent
  simp [plan, hpeer]

theorem plan_migrated (hphase : r.phase = .migrated) (obs now) :
    plan r obs now ∈ [Action.none, .blocked, .quarantined, .teardown, .stop, .signalShutdown] := by
  have hstop := planStopped_cases r obs now
  unfold plan
  split_ifs
  · simp
  · simp
  · simp only [mem_cons, not_mem_nil, or_false] at hstop ⊢
    tauto
  · simp
  · simp
  · simp [hphase]

theorem plan_plain {obs now a} (h : plan r obs now = a)
    (ha : a ∉ [Action.none, .blocked, .quarantined, .teardown, .stop, .signalShutdown]) :
    Plain r := by
  refine ⟨fun hsent => ha ?_, fun hphase => ha (h ▸ plan_migrated hphase obs now)⟩
  rw [← h, plan_blocked hsent]
  simp

theorem not_ownsCleanup (h : Leaving r) (attempt source guest) :
    ownsCleanup r attempt source guest = false := by
  obtain ⟨⟨peer, hpeer⟩, hhere⟩ := h
  unfold ownsCleanup
  cases r.migration with
  | none => rfl
  | some => cases source <;> simp [hpeer, hhere]

theorem FencedAt.congr {r0 r1 stage} (hsent : Sent r1 ↔ Sent r0) (hphase : r1.phase = r0.phase)
    (hat : FencedAt (some r0) r stage) : FencedAt (some r1) r stage := by
  have hplain : (∀ r' ∈ some r0, Plain r') → ∀ r' ∈ some r1, Plain r' := by
    rintro h r' ⟨⟩
    have hr0 := h r0 rfl
    exact ⟨fun hs => hr0.idle (hsent.mp hs), hphase ▸ hr0.here⟩
  have hleaving : (∀ r' ∈ some r0, Leaving r') → ∀ r' ∈ some r1, Leaving r' := by
    rintro h r' ⟨⟩
    have hr0 := h r0 rfl
    exact ⟨hsent.mpr hr0.sent, hphase.trans hr0.here⟩
  have hdismantled : Dismantled (some r0) r → Dismantled (some r1) r := by
    rintro ⟨hidle, hstored⟩
    refine ⟨hidle, ?_⟩
    rintro r' ⟨⟩
    obtain ⟨hidle0, hgone⟩ := hstored r0 rfl
    exact ⟨fun hs => hidle0 (hsent.mp hs), fun hr' => hgone (hphase ▸ hr')⟩
  cases stage with
  | submit => exact ⟨hat.1, hleaving hat.2⟩
  | save => exact hat.imp (fun h => ⟨h.1, hleaving h.2⟩) hdismantled
  | stopDestroy | killSlice | destroy | release | delete => exact hdismantled hat
  | _ => exact ⟨hat.1, hplain hat.2⟩

def StaysGone (s s' : State) : Prop :=
  ∀ r ∈ s.record, r.phase = .migrated → ∀ r' ∈ s'.record, r'.phase = .migrated

section Events

variable {s s' : State} {r r' : VmRecord}

theorem StaysGone.same (h : s'.record = s.record) : StaysGone s s' := by
  intro r hr hphase r' hr'
  cases (h ▸ hr').symm.trans hr
  exact hphase

theorem fenced_put (hs : Fenced s) (hr : s.record = some r) (hsent : Sent r' ↔ Sent r)
    (hphase : r'.phase = r.phase) : Fenced (s.put r') ∧ StaysGone s (s.put r') := by
  refine ⟨⟨?_, fun h hh => ?_⟩, ?_⟩
  · rintro r'' ⟨⟩ hs''
    rw [hphase]
    exact hs.stored r hr (hsent.mp hs'')
  · have hat := hs.held h hh
    rw [hr] at hat
    exact hat.congr hsent hphase
  · rintro r0 hr0 hgone r'' ⟨⟩
    cases hr.symm.trans hr0
    exact hphase.trans hgone

theorem fenced_execute (hs : Fenced s) (hheld : s.held = none) (hr : s.record = some r) (obs now) :
    Fenced (execute s r (plan r obs now)) ∧ StaysGone s (execute s r (plan r obs now)) := by
  have hidle : plan r obs now ≠ .blocked → ¬Sent r := fun h hsent => h (plan_blocked hsent obs now)
  have hdismantled : ¬Sent r → Dismantled s.record r := by
    refine fun h => ⟨h, fun r0 hr0 => ?_⟩
    cases hr.symm.trans hr0
    exact ⟨h, id⟩
  have hplain : Plain r → ∀ r0 ∈ s.record, Plain r0 := by
    intro h r0 hr0
    cases hr.symm.trans hr0
    exact h
  cases hplan : plan r obs now with
  | none | blocked | quarantined | signalShutdown | pause | resume => exact ⟨hs, .same rfl⟩
  | adopt | provision | start =>
    have h := plan_plain hplan (by simp)
    exact ⟨fenced_goto hs.stored ⟨h, hplain h⟩, .same rfl⟩
  | stop | teardown =>
    have h := hidle (by simp [hplan])
    exact ⟨fenced_goto hs.stored (hdismantled h), .same rfl⟩
  | arrived =>
    have h := plan_plain hplan (by simp)
    refine ⟨⟨?_, by simp [execute, put, hheld]⟩, ?_⟩
    · rintro r' ⟨⟩ _
      rfl
    · intro r0 hr0 hgone
      exact absurd hgone (hplain h r0 hr0).here

theorem fenced_beginMigrateOut (hs : Fenced s) (hr : s.record = some r) {attempt peer refusal}
    (h : beginMigrateOut s r attempt peer refusal = some s') : Fenced s' ∧ StaysGone s s' := by
  unfold beginMigrateOut at h
  split_ifs at h with hchecks
  simp only [ne_eq, Bool.or_eq_true, decide_eq_true_eq, not_or, Bool.not_eq_true,
    isSome_eq_false_iff, isNone_iff_eq_none, not_not] at hchecks
  obtain ⟨⟨⟨⟨hphase, -⟩, hop⟩, -⟩, -⟩ := hchecks
  have hidle : ∀ r' : VmRecord, r'.operation = none → ¬Sent r' := by
    rintro r' hnone ⟨peer, hpeer⟩
    cases hnone.symm.trans hpeer
  have hplain : ∀ r0 ∈ s.record, Plain r0 := by
    intro r0 hr0
    cases hr.symm.trans hr0
    exact ⟨hidle r hop, by simp [hphase]⟩
  cases refusal with
  | none =>
    cases h
    exact ⟨fenced_goto hs.stored ⟨⟨⟨peer, rfl⟩, hphase⟩, hplain⟩, .same rfl⟩
  | some why =>
    cases h
    have hrefused : Plain { r with
        migration := some ⟨attempt, peer, false, false, none⟩, sendFailed := some why } :=
      ⟨hidle _ hop, by simp [hphase]⟩
    exact ⟨fenced_goto hs.stored (.inr (hrefused.dismantled hplain)), .same rfl⟩

theorem fenced_observeSend (hs : Fenced s) (hheld : s.held = none) (hr : s.record = some r)
    {departure} (h : observeSend r departure = some r') :
    Fenced (s.put r') ∧ StaysGone s (s.put r') := by
  obtain ⟨peer, hop, -⟩ := observeSend_eq_some h
  have hnone : r'.operation = none := by
    unfold observeSend at h
    split at h
    · cases departure with
      | gone | stillHere =>
        dsimp only at h
        split_ifs at h
        cases h
        rfl
    · cases h
  refine ⟨⟨?_, by simp [put, hheld]⟩, ?_⟩
  · rintro r'' ⟨⟩ ⟨peer', hpeer'⟩
    cases hnone.symm.trans hpeer'
  · intro r0 hr0 hgone
    cases hr.symm.trans hr0
    simp [hs.stored r hr ⟨peer, hop⟩] at hgone

theorem sent_clearOrphaned : Sent (clearOrphanedOperation r) ↔ Sent r := by
  unfold Sent clearOrphanedOperation
  split
  · rfl
  · rename_i hop
    split <;> simp [hop]
  · rename_i hout _
    constructor
    · rintro ⟨peer, hpeer⟩
      cases hpeer
    · rintro ⟨peer, hpeer⟩
      exact (hout peer hpeer).elim

theorem fenced_step (hs : Fenced s) {e} (h : agent.step s e = some s') :
    Fenced s' ∧ StaysGone s s' := by
  cases e with
  | provision desired managed =>
    dsimp only [agent, step, provision] at h
    split_ifs at h
    cases hr : s.record with
    | none =>
      simp only [hr] at h
      cases h
      have hfresh : Plain (.fresh desired managed) :=
        ⟨(by rintro ⟨_, hpeer⟩; cases hpeer), by simp [fresh]⟩
      exact ⟨fenced_goto hfresh.sentHere ⟨hfresh, hfresh.stored⟩, by simp [StaysGone, hr]⟩
    | some =>
      simp only [hr] at h
      cases h
      exact fenced_put hs hr .rfl rfl
  | claim | setDesired =>
    obtain ⟨-, r, hr, h⟩ := withRecord_eq_some h
    cases h
    exact fenced_put hs hr .rfl rfl
  | syncState =>
    obtain ⟨-, r, hr, h⟩ := withRecord_eq_some h
    split_ifs at h
    cases h
    exact fenced_put hs hr .rfl rfl
  | execute obs now =>
    obtain ⟨hheld, r, hr, h⟩ := withRecord_eq_some h
    cases h
    exact fenced_execute hs hheld hr obs now
  | prepareMigration attempt listen =>
    dsimp only [agent, step, prepareMigration] at h
    split_ifs at h with hchecks
    cases h
    simp only [Bool.or_eq_true, decide_eq_true_eq, not_or, Bool.not_eq_true,
      isSome_eq_false_iff, isNone_iff_eq_none] at hchecks
    have hnone : s.record = none := hchecks.1.1.2
    have hawaiting : Plain (.awaiting attempt listen true) :=
      ⟨(by rintro ⟨_, hpeer⟩; cases hpeer), by simp [awaiting]⟩
    exact ⟨fenced_goto hs.stored ⟨hawaiting, by simp [hnone]⟩, .same rfl⟩
  | cleanupMigration =>
    dsimp only [agent, step, cleanupMigration] at h
    split_ifs at h
    split at h
    · cases h
      exact ⟨⟨hs.stored, hs.held⟩, .same rfl⟩
    · rename_i r hr
      split_ifs at h with howns
      cases h
      have hidle : ¬Sent r := by
        intro hsent
        rw [not_ownsCleanup ⟨hsent, hs.stored r hr hsent⟩] at howns
        cases howns
      refine ⟨fenced_goto hs.stored ⟨hidle, fun r0 hr0 => ?_⟩, .same rfl⟩
      cases hr.symm.trans hr0
      exact ⟨hidle, id⟩
  | migrateOut =>
    obtain ⟨-, r, hr, h⟩ := withRecord_eq_some h
    exact fenced_beginMigrateOut hs hr h
  | observeSend =>
    obtain ⟨hheld, r, hr, h⟩ := withRecord_eq_some h
    obtain ⟨r', hr', rfl⟩ := map_eq_some_iff.mp h
    exact fenced_observeSend hs hheld hr hr'
  | sendOverdue =>
    obtain ⟨-, r, hr, h⟩ := withRecord_eq_some h
    cases h
    refine fenced_put hs hr ?_ ?_
    all_goals
      unfold noteOverdue
      split <;> rfl
  | quarantine =>
    obtain ⟨r, hr, rfl⟩ := map_eq_some_iff.mp h
    exact fenced_put hs hr .rfl rfl
  | startup stored =>
    dsimp only [agent, step] at h
    split_ifs at h
    · cases h
      cases hr : s.record with
      | none =>
        refine ⟨⟨by simp [SentHere], ?_⟩, by simp [StaysGone, hr]⟩
        simpa [hr] using hs.held
      | some r =>
        obtain ⟨hput, hgone⟩ :=
          fenced_put hs hr sent_clearOrphaned (clearOrphanedOperation_phase r)
        exact ⟨⟨hput.stored, hput.held⟩, hgone⟩
    · cases h
      exact ⟨⟨hs.stored, hs.held⟩, .same rfl⟩
  | step outcome =>
    obtain ⟨held, hheld, rfl⟩ := map_eq_some_iff.mp h
    have hat := hs.held held hheld
    exact ⟨fenced_advance (s := { s with held := none }) hs.stored hat outcome,
      fun r hr hphase => migrated_advance (s := { s with held := none }) hat outcome hr hphase⟩
  | crash =>
    cases h
    exact ⟨⟨hs.stored, by simp⟩, .same rfl⟩
  | exit =>
    cases h
    exact ⟨⟨hs.stored, hs.held⟩, .same rfl⟩
  | arrive =>
    dsimp only [agent, step] at h
    split_ifs at h
    cases h
    exact ⟨⟨hs.stored, hs.held⟩, .same rfl⟩

theorem calls_of_sent (hs : Fenced s) (hr : s.record = some r) (hsent : Sent r) (e) :
    ∀ c ∈ s.calls e, c = .send := by
  cases e with
  | step =>
    cases hheld : s.held with
    | none => simp [calls, hheld]
    | some h =>
      rcases (hs.held h hheld).of_sent hr hsent with hstage | hstage
      all_goals simp [calls, hheld, hstage, Stage.calls]
  | execute => simp [calls, hr, plan_blocked hsent, Action.calls]
  | _ => simp [calls]

theorem calls_of_migrated (hs : Fenced s) (hr : s.record = some r) (hphase : r.phase = .migrated)
    (e) : ∀ c ∈ s.calls e, c.revives = false := by
  cases e with
  | step =>
    cases hheld : s.held with
    | none => simp [calls, hheld]
    | some h =>
      have hdismantles := ((hs.held h hheld).of_migrated hr hphase).1
      cases hstage : h.stage with
      | save | stopDestroy | killSlice | destroy | release | delete =>
        simp [calls, hheld, hstage, Stage.calls, HypervisorCall.revives]
      | _ => simp [hstage, Stage.dismantles] at hdismantles
  | execute obs now =>
    have hplan := plan_migrated hphase obs now
    simp only [mem_cons, not_mem_nil, or_false] at hplan
    rcases hplan with hplan | hplan | hplan | hplan | hplan | hplan
    all_goals simp [calls, hr, hplan, Action.calls, HypervisorCall.revives]
  | _ => simp [calls]

end Events

section Update

open Provision Procedure

def Unplugged (w w' : Work) : Prop :=
  ∃ calls, w'.log = w.log ++ calls ∧ calls.filterMap pluggedBy = []

instance : Std.Refl Unplugged := ⟨fun w => ⟨[], by simp, rfl⟩⟩

instance : IsTrans Work Unplugged where
  trans _ _ _ h12 h23 := by
    obtain ⟨calls2, hlog2, hnone2⟩ := h12
    obtain ⟨calls3, hlog3, hnone3⟩ := h23
    refine ⟨calls2 ++ calls3, by rw [hlog3, hlog2, append_assoc], ?_⟩
    rw [filterMap_append, hnone2, hnone3]
    rfl

theorem unplugged_must {c} (hc : ∀ ok, pluggedBy (c ok) = none) : Keeps Unplugged (must c) := by
  intro w answers
  rw [final, must_apply]
  exact ⟨[c (answers.headD true)], rfl, by simp [hc]⟩

theorem unplugged_change {f} (hf : ∀ w, (f w).log = w.log) : Keeps Unplugged (Procedure.change f) :=
  keeps_change fun w => ⟨[], by simp [hf], rfl⟩

theorem unplugged_detachVolume (v) : Keeps Unplugged (detachVolume false v) := by
  refine keeps_bind keeps_current fun w => ?_
  split_ifs
  · exact keeps_bind keeps_check fun _ => keeps_bind (keeps_pure ()) fun _ =>
      keeps_bind (unplugged_change fun _ => rfl) fun _ => unplugged_must fun _ => rfl
  · exact keeps_pure ()

theorem unplugged_plugVolume (v) : Keeps Unplugged (plugVolume false v) :=
  keeps_bind keeps_check fun _ => keeps_bind (unplugged_must fun _ => rfl) fun _ =>
    keeps_bind (keeps_pure ()) fun _ => unplugged_change fun _ => rfl

def plugs (r : Resources) (wanted : List VolumeWithId) (live hotplug : Bool) : Bool :=
  live && hotplug && volumeDiff r.spec.volumes wanted ≠ ([], []) &&
    (volumesKeepingFixed r.spec.volumes wanted).isSome

theorem unplugged_applyVolumeDiff {w wanted live hotplug}
    (h : plugs w.draft wanted live hotplug = false) (answers) :
    Unplugged w ((applyVolumeDiff wanted live hotplug).final w answers) := by
  rw [applyVolumeDiff, current_bind_final]
  dsimp only
  split
  · exact keeps_pure () w answers
  rename_i hdiff
  cases hkept : volumesKeepingFixed w.draft.spec.volumes wanted with
  | none => exact keeps_fail w answers
  | some volumes =>
    dsimp only
    split
    · exact keeps_fail w answers
    · rename_i hlive
      have hoff : live = false := by
        have hne : volumeDiff w.draft.spec.volumes wanted ≠ ([], []) :=
          fun he => hdiff ⟨by rw [he], by rw [he]⟩
        cases live <;> cases hotplug <;> simp_all [plugs]
      subst hoff
      have hkeeps : Keeps Unplugged (do
          each (detachVolume false) (volumeDiff w.draft.spec.volumes wanted).2
          each (plugVolume false) (volumeDiff w.draft.spec.volumes wanted).1
          edit fun r => { r with spec := { r.spec with volumes } } : Act Unit) :=
        keeps_bind (keeps_each fun v _ => unplugged_detachVolume v) fun _ =>
          keeps_bind (keeps_each fun v _ => unplugged_plugVolume v) fun _ =>
            unplugged_change fun _ => rfl
      exact hkeeps w answers

theorem unplugged_syncInPlace {w r} (hr : w.stored = some r) {wanted live hotplug}
    (h : plugs r wanted live hotplug = false) (answers) :
    Unplugged w ((syncInPlace wanted live hotplug).final w answers) := by
  rcases check_bind (fun _ => syncVolumes wanted live hotplug) w answers with
    ⟨-, hfinal⟩ | ⟨rest, -, hfinal⟩
  · rw [syncInPlace, hfinal]
    exact Std.Refl.refl w
  · rw [syncInPlace, hfinal, final, syncVolumes, withStored_some hr]
    let w1 : Work := { w with draft := r }
    change Unplugged w ((applyVolumeDiff wanted live hotplug >>= fun _ => put).final w1 rest)
    have happlied := unplugged_applyVolumeDiff (w := w1) h rest
    rcases bind_cases (applyVolumeDiff wanted live hotplug) (fun _ => put) w1 rest with
      ⟨-, -, hend⟩ | ⟨_, rest2, -, -, hend⟩
    · rw [hend]
      exact happlied
    · rw [hend]
      exact IsTrans.trans _ _ _ happlied (unplugged_change (fun _ => rfl) _ rest2)

end Update

namespace Watch

def outgoing (w : Watch) : Bool := w.state.record.any fun r => decide (Sent r)

def handsOff (w : Watch) : WatchEvent → Prop
  | .lifecycle _ _ => True
  | .sync wanted hotplug _ => w.outgoing → plugs w.resources wanted w.live hotplug = false

structure Safe (w : Watch) : Prop where
  fenced : Fenced w.state
  departed : w.departed → ∃ r, w.state.record = some r ∧ r.phase = .migrated

theorem safe_start (receipts) : (start receipts).Safe :=
  ⟨⟨by simp [start, initial, SentHere], by simp [start, initial]⟩, by simp [start]⟩

theorem safe_lifecycle {w w' : Watch} (hw : w.Safe) {e left} (h : w.lifecycle e left = some w') :
    w'.Safe := by
  obtain ⟨s', hs', rfl⟩ := map_eq_some_iff.mp h
  obtain ⟨hfenced, hgone⟩ := fenced_step hw.fenced hs'
  refine ⟨hfenced, fun hdeparted => ?_⟩
  obtain ⟨r', hr', hcases⟩ := (any_eq_true _ _).mp hdeparted
  refine ⟨r', hr', ?_⟩
  simp only [Bool.or_eq_true, decide_eq_true_eq] at hcases
  rcases hcases with hbefore | hphase
  · obtain ⟨r, hr, hphase⟩ := hw.departed hbefore
    exact hgone r hr hphase r' hr'
  · exact hphase

theorem safe_step {w w'} (hw : w.Safe) {e} (h : watch.step w e = some w') : w'.Safe := by
  cases e with
  | lifecycle => exact safe_lifecycle hw h
  | sync =>
    dsimp only [watch, step, sync] at h
    split_ifs at h
    cases h
    exact ⟨hw.fenced, hw.departed⟩

end Watch

theorem revives_pluggedBy {calls : List Provision.Call} :
    ∀ c ∈ calls.filterMap pluggedBy, c.revives = false := by
  intro c hc
  obtain ⟨call, -, hcall⟩ := mem_filterMap.mp hc
  unfold pluggedBy at hcall
  split at hcall
  · cases hcall
    rfl
  · cases hcall
    rfl
  · cases hcall

/-- No call at the hypervisor interferes with a guest that is being sent, and none brings a
guest up again that has left. -/
theorem migrating_guest_untouched {receipts : List String} {es : List WatchEvent} {w w' : Watch}
    {e : WatchEvent} (hrun : watch.run (.start receipts) es = some w) (hm : w.handsOff e)
    (hstep : watch.step w e = some w') :
    ∃ calls, w'.calls = w.calls ++ calls ∧
      (w.outgoing → ∀ c ∈ calls, c = .send) ∧
      (w.departed → ∀ c ∈ calls, c.revives = false) := by
  have hw : w.Safe :=
    Machine.always (fun hw h => Watch.safe_step hw h) (Watch.safe_start receipts) hrun
  cases e with
  | lifecycle e =>
    obtain ⟨s', hs', rfl⟩ := map_eq_some_iff.mp hstep
    refine ⟨w.state.calls e, rfl, fun hout => ?_, fun hdeparted => ?_⟩
    · obtain ⟨r, hr, hsent⟩ := (any_eq_true _ _).mp hout
      exact calls_of_sent hw.fenced hr (of_decide_eq_true hsent) e
    · obtain ⟨r, hr, hphase⟩ := hw.departed hdeparted
      exact calls_of_migrated hw.fenced hr hphase e
  | sync wanted hotplug answers =>
    dsimp only [watch, Watch.step, Watch.sync] at hstep
    split_ifs at hstep
    cases hstep
    let after := (Provision.syncInPlace wanted w.live hotplug).final w.work answers
    refine ⟨after.log.filterMap pluggedBy, rfl, fun hout => ?_, fun _ => revives_pluggedBy⟩
    obtain ⟨calls, hlog, hnone⟩ : Unplugged w.work after :=
      unplugged_syncInPlace rfl (hm hout) answers
    rw [hlog]
    simp [Watch.work, hnone]

private def guestLists : Resources :=
  ⟨⟨[⟨"root", false⟩, ⟨"data", true⟩], [], []⟩, [⟨"root", false⟩, ⟨"data", false⟩], [], [], [],
    false⟩

private def ofLifecycle (e : Event) : WatchEvent := .lifecycle e guestLists

private def sendingRun : List WatchEvent :=
  [ofLifecycle (.startup true), ofLifecycle (.provision .running true)] ++
    replicate 9 (ofLifecycle (.step .ok)) ++
    [ofLifecycle (.migrateOut "m" "tcp:b" none), ofLifecycle (.step .ok), ofLifecycle (.step .ok),
     ofLifecycle (.step .ok)]

private def sendingRecord : VmRecord :=
  { fresh .running true with
    migration := some ⟨"m", "tcp:b", false, true, none⟩
    phase := .provisioned
    operation := some (.migratingOut "tcp:b")
    vmmPid := some 1 }

private def watching (r : VmRecord) (departed : Bool) : Watch :=
  { state :=
      { record := some r, receipts := ["m"], host := ⟨[⟨1, true, .booted⟩], 2, some 1, some 1⟩
        held := none, starting := false, awaited := none }
    resources := guestLists
    calls := [.create, .start, .send]
    departed }

private def sending : Watch := watching sendingRecord false

private def sentRun : List WatchEvent :=
  sendingRun ++
    [.sync [⟨"root", false⟩, ⟨"data", true⟩] true [], ofLifecycle (.observeSend .gone)]

private def sent : Watch :=
  watching { sendingRecord with phase := .migrated, operation := none, vmmPid := none } true

private def seesPaused : WatchEvent :=
  ofLifecycle (.execute ⟨true, true, true, some .paused, false⟩ 0)

private def seesNothing : WatchEvent := ofLifecycle (.execute ⟨false, false, false, none, false⟩ 1)

/-- A pass that sees the guest paused on its way, and one that sees no VMM once the guest
has left. In between the VM is created again with the same volumes. -/
theorem migrating_guest_untouched_sent :
    (sending.outgoing ∧ ∃ calls, sending.calls = sending.calls ++ calls ∧
      ∀ c ∈ calls, c = .send) ∧
    (sent.departed ∧ ∃ calls, sent.calls = sent.calls ++ calls ∧
      ∀ c ∈ calls, c.revives = false) :=
  have hsending : watch.run (.start []) sendingRun = some sending := rfl
  have hsent : watch.run (.start []) sentRun = some sent := rfl
  have hstep1 : watch.step sending seesPaused = some sending := rfl
  have hstep2 : watch.step sent seesNothing = some sent := rfl
  have hm1 : sending.handsOff seesPaused := trivial
  have hm2 : sent.handsOff seesNothing := trivial
  have ⟨calls1, hcalls1, honly, _⟩ := migrating_guest_untouched hsending hm1 hstep1
  have ⟨calls2, hcalls2, _, hnone⟩ := migrating_guest_untouched hsent hm2 hstep2
  ⟨⟨rfl, calls1, hcalls1, honly rfl⟩, rfl, calls2, hcalls2, hnone rfl⟩

/-- A create that is sent again without a data volume, while the guest is on its way: the
disk is taken out of it. -/
theorem migrating_guest_loses_disk : ∃ w,
    watch.run (.start []) sendingRun = some sending ∧ sending.outgoing ∧
    watch.step sending (.sync [⟨"root", false⟩] true []) = some w ∧
    w.calls = sending.calls ++ [.removeDisk "data"] :=
  ⟨_, rfl, rfl, rfl, rfl⟩

end MeisterStack.Agent
