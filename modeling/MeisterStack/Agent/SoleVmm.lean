import MeisterStack.Agent.Lifecycle

/-!
# One guest per VM on a node

A guest is only ever in the process behind the VM's API socket, and that process is in the VM's
slice. A process is created only when the slice is empty: `kill_slice` has just succeeded, or there
is no record. But a receiver listens before it is put into the slice, and a guest that comes by then
is in no slice.
-/

namespace MeisterStack.Agent

open Foundation Host List Phase

def Phase.settled : Phase → Bool
  | .provisioned | .receiving => true
  | _ => false

def Storable (host : Host) (r : VmRecord) : Prop := r.phase.settled → host.SocketIn

structure Building (host : Host) (stored : Option VmRecord) (r : VmRecord) : Prop where
  empty : host.SliceEmpty
  draft : r.phase.settled = false
  stored : ∃ r', stored = some r' ∧ r'.phase.settled = false

def SoleAt (host : Host) (stored : Option VmRecord) (r : VmRecord) : Stage → Prop
  | .announce => host.SliceEmpty ∧ r.phase.settled = false
  | .rebuild => host.SliceEmpty ∧ r.phase.settled = false
  | .volumes _ | .nics _ | .devices _ | .spawn _ | .spawnReceiver => Building host stored r
  | .attach _ pid => Building host stored r ∧ host.socket = some pid ∧ host.Blank pid
  | .listen pid | .attachReceiver pid => Building host stored r ∧ host.socket = some pid
  | .define _ _ | .keepPid _ | .start _ => host.SocketIn ∧ host.NoGuest
  | .finish _ | .keepReceiving | .answer | .restart => host.SocketIn
  | .destroy failed | .release failed | .delete failed => failed = false → host.SliceEmpty
  | .abort | .stopDestroy | .engage | .submit | .save => Storable host r
  | .killSlice | .killForResume | .adopt _ => True

structure Base (host : Host) (stored : Option VmRecord) : Prop where
  sound : host.Sound
  unrecorded : stored = none → host.SliceEmpty
  settled : ∀ r ∈ stored, Storable host r

structure Sole (s : State) : Prop where
  base : Base s.host s.record
  held : ∀ h ∈ s.held, SoleAt s.host s.record h.record h.stage

section Base

variable {host host' : Host} {stored : Option VmRecord} {r : VmRecord} (hb : Base host stored)

include hb

theorem Base.put (hr : Storable host r) : Base host (some r) :=
  ⟨hb.sound, by simp, by simpa using hr⟩

theorem Base.on (hsound : host'.Sound)
    (hempty : host.SliceEmpty → host'.SliceEmpty)
    (hsocket : host.SocketIn → host'.SocketIn) : Base host' stored :=
  ⟨hsound, fun h => hempty (hb.unrecorded h), fun r hr h => hsocket (hb.settled r hr h)⟩

theorem Base.delete (he : host.SliceEmpty) : Base host none :=
  ⟨hb.sound, fun _ => he, by simp⟩

theorem Base.emptySlice : Base host.emptySlice stored :=
  hb.on hb.sound.emptySlice (fun _ => sliceEmpty_emptySlice) SocketIn.emptySlice

theorem Base.exit (pid) : Base (host.exit pid) stored :=
  hb.on hb.sound.exit SliceEmpty.exit SocketIn.exit

theorem Base.destroy (survives) : Base (host.destroy survives) stored :=
  hb.on hb.sound.destroy SliceEmpty.destroy SocketIn.destroy

theorem Base.track (tracked) : Base { host with tracked } stored :=
  ⟨⟨hb.sound.guest, hb.sound.slice, hb.sound.fresh⟩, hb.unrecorded, hb.settled⟩

theorem Base.start (hi : host.SocketIn) : Base host.start stored :=
  hb.on (hb.sound.start hi) SliceEmpty.start SocketIn.start

omit hb

theorem Building.base (hbuild : Building host stored r) (hsound : host'.Sound) :
    Base host' stored := by
  obtain ⟨r', rfl, hr'⟩ := hbuild.stored
  refine ⟨hsound, by simp, fun r'' h hsettled => ?_⟩
  cases h
  rw [hr'] at hsettled
  cases hsettled

theorem storable_of_unsettled (h : r.phase.settled = false) : Storable host r := by
  intro hsettled
  rw [h] at hsettled
  cases hsettled

end Base

variable {s : State} {r : VmRecord}

theorem sole_done (hb : Base s.host s.record) : Sole s.done :=
  ⟨hb, fun _ h => by simp [State.done] at h⟩

variable {stage : Stage}

theorem sole_goto (hb : Base s.host s.record)
    (h : SoleAt s.host s.record r stage) : Sole (s.goto r stage) :=
  ⟨hb, fun _ hheld => by cases hheld; exact h⟩

theorem sole_chainFails (hb : Base s.host s.record) (hr : Storable s.host r) (cause) :
    Sole (s.chainFails r cause) := by
  cases cause with
  | provision | resume => exact sole_goto hb hr
  | prepare => exact sole_goto (r := { r with operation := none }) hb hr

theorem sole_acquire (hb : Base s.host s.record) (hbuild : Building s.host s.record r) {phase}
    (hphase : phase.settled = false) {next}
    (hnext : ∀ {stored} {r}, Building s.host stored r →
      SoleAt s.host stored r next) (cause o) : Sole (s.acquire r cause phase next o) := by
  have hr : Storable s.host { r with phase } := storable_of_unsettled hphase
  cases o with
  | ok => exact sole_goto (hb.put hr) (hnext ⟨hbuild.empty, hphase, _, rfl, hphase⟩)
  | fails => exact sole_chainFails hb (storable_of_unsettled hbuild.draft) cause
  | astray => exact sole_chainFails hb hr cause

theorem sole_launch (hbuild : Building s.host s.record r) (hsound : s.host.Sound)
    (cause) (o : Outcome) {next : Pid → Stage}
    (hnext : ∀ {host} {stored} {pid : Pid},
      Building host stored r → host.socket = some pid → host.Blank pid →
        SoleAt host stored r (next pid)) :
    Sole (match o with
      | .ok => (s.on s.host.launch).goto r (next s.host.nextPid)
      | .fails => (s.on s.host.noLaunch).chainFails r cause
      | .astray => (s.on s.host.launch).chainFails r cause) := by
  have hlaunch : Base (s.on s.host.launch).host (s.on s.host.launch).record :=
    hbuild.base (hsound.launch hbuild.empty)
  have hr : ∀ host, Storable host r := fun _ => storable_of_unsettled hbuild.draft
  cases o with
  | ok =>
    have hbuild' : Building s.host.launch s.record r :=
      ⟨hbuild.empty.launch, hbuild.draft, hbuild.stored⟩
    exact sole_goto hlaunch (hnext hbuild' rfl hsound.blank_launch)
  | fails =>
    refine sole_chainFails ?_ (hr _) cause
    exact hbuild.base (hsound.noLaunch hbuild.empty)
  | astray => exact sole_chainFails hlaunch (hr _) cause

variable {host : Host} {stored : Option VmRecord}

theorem Building.attach {pid} (hbuild : Building host stored r) (hsound : host.Sound)
    (hsocket : host.socket = some pid) :
    Base (host.attach pid) stored ∧ (host.attach pid).SocketIn :=
  ⟨hbuild.base (hsound.attach hsocket), socketIn_attach hsocket⟩

theorem sole_advance (hb : Base s.host s.record) (h : SoleAt s.host s.record r stage) (o) :
    Sole (advance s r stage o) := by
  cases stage with
  | announce =>
    dsimp only [advance]
    split_ifs
    · have hgoto : Sole ((s.put r).goto r (.volumes .prepare)) :=
        sole_goto (hb.put (storable_of_unsettled h.2)) ⟨h.1, h.2, r, rfl, h.2⟩
      exact ⟨hgoto.base, hgoto.held⟩
    · exact sole_done hb
  | rebuild =>
    dsimp only [advance]
    split_ifs
    · exact sole_goto (hb.put (storable_of_unsettled h.2)) ⟨h.1, h.2, r, rfl, h.2⟩
    · exact sole_done hb
  | volumes cause | nics cause => exact sole_acquire hb h rfl id cause o
  | devices cause =>
    refine sole_acquire hb h rfl ?_ cause o
    cases cause <;> exact id
  | spawn =>
    exact sole_launch h hb.sound _ o fun hbuild hsocket hblank => ⟨hbuild, hsocket, hblank⟩
  | spawnReceiver =>
    exact sole_launch h hb.sound _ o fun hbuild hsocket _ => ⟨hbuild, hsocket⟩
  | attach cause pid =>
    obtain ⟨hbuild, hsocket, hblank⟩ := h
    have hr : Storable s.host r := storable_of_unsettled hbuild.draft
    cases o with
    | ok =>
      obtain ⟨hbase, hi⟩ := hbuild.attach hb.sound hsocket
      exact sole_goto hbase ⟨hi, hbuild.empty.attach hblank⟩
    | fails =>
      exact sole_chainFails (hb.exit pid) (storable_of_unsettled hbuild.draft) cause
    | astray => exact sole_chainFails hb hr cause
  | define cause pid =>
    obtain ⟨hi, hn⟩ := h
    cases o with
    | ok => exact sole_goto (hb.track _) ⟨hi, hn⟩
    | fails => exact sole_chainFails (hb.exit pid) (fun _ => hi.exit) cause
    | astray => exact sole_chainFails hb (fun _ => hi) cause
  | keepPid =>
    dsimp only [advance]
    split_ifs
    · exact sole_goto (hb.put fun _ => h.1) h
    · exact sole_chainFails hb (fun _ => h.1) _
  | keepReceiving =>
    dsimp only [advance]
    split_ifs
    · exact sole_goto (hb.put fun _ => h) h
    · exact sole_chainFails hb (fun _ => h) _
  | start cause =>
    obtain ⟨hi, -⟩ := h
    cases o with
    | ok => exact sole_goto (hb.start hi) hi.start
    | fails => exact sole_chainFails hb (fun _ => hi) cause
    | astray => exact sole_chainFails (hb.start hi) (fun _ => hi.start) cause
  | finish cause =>
    dsimp only [advance]
    split_ifs
    · exact sole_done (s := s.put r) (hb.put fun _ => h)
    · exact sole_chainFails hb (fun _ => h) cause
  | listen pid =>
    obtain ⟨hbuild, hsocket⟩ := h
    have hbase : Base ((s.host.track pid).setGuest pid .listening) s.record :=
      (hb.track (some pid)).on
        ((hb.track (some pid)).sound.setGuest fun v _ _ hg => by simp [Guest.present] at hg)
        SliceEmpty.setGuest SocketIn.setGuest
    dsimp only [advance]
    split_ifs
    · exact sole_goto hbase ⟨⟨hbuild.empty.setGuest, hbuild.draft, hbuild.stored⟩, hsocket⟩
    · exact sole_chainFails hbase (storable_of_unsettled hbuild.draft) .prepare
  | attachReceiver =>
    obtain ⟨hbuild, hsocket⟩ := h
    cases o with
    | ok =>
      obtain ⟨hbase, hi⟩ := hbuild.attach hb.sound hsocket
      exact sole_goto hbase hi
    | fails =>
      exact sole_chainFails (s := s.on (s.host.destroy false))
        (r := { r with vmmPid := none }) (hb.destroy false)
        (storable_of_unsettled hbuild.draft) .prepare
    | astray =>
      exact sole_chainFails (s := s.on (s.host.destroy true))
        (r := { r with vmmPid := none }) (hb.destroy true)
        (storable_of_unsettled hbuild.draft) .prepare
  | answer =>
    dsimp only [advance]
    split_ifs
    · exact sole_done (s := s.put r) (hb.put fun _ => h)
    · exact sole_done hb
  | abort =>
    dsimp only [advance]
    split_ifs
    · exact sole_goto (hb.put h) trivial
    · exact sole_goto hb trivial
  | killSlice =>
    dsimp only [advance]
    split_ifs
    · exact sole_goto hb.emptySlice fun _ => sliceEmpty_emptySlice
    · exact sole_goto hb (by simp [SoleAt])
  | destroy =>
    cases o with
    | ok => exact sole_goto (hb.destroy false) fun hf => (h hf).destroy
    | fails => exact sole_goto hb (by simp [SoleAt])
    | astray => exact sole_goto (hb.destroy true) fun hf => (h hf).destroy
  | release =>
    refine sole_goto hb fun hf => h ?_
    simpa using (Bool.or_eq_false_iff.mp hf).1
  | delete =>
    dsimp only [advance]
    split_ifs with hfailed
    · exact sole_done hb
    · simp only [Bool.or_eq_true, not_or, Bool.not_eq_true] at hfailed
      have hdone := sole_done (s := { s with record := none }) (hb.delete (h hfailed.1))
      exact ⟨hdone.base, hdone.held⟩
  | killForResume =>
    dsimp only [advance]
    split_ifs
    · exact sole_goto hb.emptySlice ⟨sliceEmpty_emptySlice, rfl⟩
    · exact sole_done hb
  | restart =>
    dsimp only [advance]
    split_ifs
    · exact sole_done hb
    · exact sole_done (s := s.on s.host.start) (hb.start h)
  | adopt pid =>
    dsimp only [advance]
    split_ifs
    · exact sole_done (s := s.on (s.host.track pid)) (hb.track _)
    · exact sole_done hb
  | stopDestroy =>
    have hstored : ∀ survives, Storable (s.host.destroy survives) r.stopped :=
      fun survives hr => (h hr).destroy
    cases o with
    | ok => exact sole_goto (hb.destroy false) (hstored false)
    | fails => exact sole_done hb
    | astray => exact sole_goto (hb.destroy true) (hstored true)
  | engage =>
    dsimp only [advance]
    split_ifs
    · exact sole_goto (hb.put h) h
    · exact sole_done hb
  | submit => exact sole_goto hb h
  | save =>
    dsimp only [advance]
    split_ifs
    · exact sole_done (s := s.put r) (hb.put h)
    · exact sole_done hb

theorem Begins.soleAt {r'} (hb : Begins r r' stage) (hr : Storable host r) :
    SoleAt host stored r' stage := by
  cases hb with
  | resume | adopt | teardown => trivial
  | restart _ hphase => exact hr (by simp [hphase, settled])
  | stop => exact hr
  | refuse _ _ hphase | send _ _ _ hphase =>
    exact fun _ => hr (by simp [hphase, settled])

theorem SoleAt.edit {r0 r1} (h : SoleAt host (some r0) r stage) (hphase : r1.phase = r0.phase) :
    SoleAt host (some r1) r stage := by
  have hbuild : Building host (some r0) r → Building host (some r1) r := by
    rintro ⟨hempty, hdraft, r', hr', hsettled⟩
    cases hr'
    exact ⟨hempty, hdraft, r1, rfl, hphase ▸ hsettled⟩
  cases stage with
  | volumes | nics | devices | spawn | spawnReceiver => exact hbuild h
  | attach | listen | attachReceiver => exact ⟨hbuild h.1, h.2⟩
  | _ => exact h

theorem SoleAt.on {host'} (h : SoleAt host stored r stage) (hsocket : host'.socket = host.socket)
    (hempty : host.SliceEmpty → host'.SliceEmpty) (hin : host.SocketIn → host'.SocketIn)
    (hguest : host.NoGuest → host'.NoGuest) (hblank : ∀ {pid}, host.Blank pid → host'.Blank pid) :
    SoleAt host' stored r stage := by
  have hbuild : Building host stored r → Building host' stored r :=
    fun hb => ⟨hempty hb.empty, hb.draft, hb.stored⟩
  cases stage with
  | announce | rebuild => exact ⟨hempty h.1, h.2⟩
  | volumes | nics | devices | spawn | spawnReceiver => exact hbuild h
  | attach => exact ⟨hbuild h.1, hsocket.trans h.2.1, hblank h.2.2⟩
  | listen | attachReceiver => exact ⟨hbuild h.1, hsocket.trans h.2⟩
  | define | keepPid | start => exact ⟨hin h.1, hguest h.2⟩
  | finish | keepReceiving | answer | restart => exact hin h
  | destroy | release | delete => exact fun hf => hempty (h hf)
  | abort | stopDestroy | engage | submit | save => exact fun hr => hin (h hr)
  | killSlice | killForResume | adopt => trivial

def arrivesInSlice (s : State) : Event → Prop
  | .arrive pid => ∀ v ∈ s.host.vmms, v.pid = pid → v.inSlice
  | _ => True

instance (s e) : Decidable (arrivesInSlice s e) := by
  induction e using Event.casesOn <;> dsimp only [arrivesInSlice] <;> infer_instance

theorem sole_step {s s' e} (hs : Sole s) (hg : arrivesInSlice s e) (he : Effect s e s') :
    Sole s' := by
  obtain ⟨hb, hheld⟩ := hs
  -- a record with the phase it had is as good as the one it replaces
  have hput : ∀ {r r' : VmRecord}, s.record = some r → r'.phase = r.phase → Sole (s.put r') := by
    intro r r' hr hphase
    have hstored : Storable s.host r' := by
      unfold Storable
      rw [hphase]
      exact hb.settled r hr
    exact ⟨hb.put hstored, fun h hh => SoleAt.edit (hr ▸ hheld h hh) hphase⟩
  cases he with
  | edits _ r r' hr hphase =>
    exact hput hr hphase
  | departs _ r r' peer hnone hr _ hphase =>
    rcases hphase with hphase | hphase
    · exact hput hr hphase
    · refine ⟨hb.put (storable_of_unsettled ?_), by simp [State.put, hnone]⟩
      simp [hphase, settled]
  | begins _ r r' receipts stage hnone hr hbegins =>
    exact sole_goto (s := { s with receipts }) hb (hbegins.soleAt (hb.settled r hr))
  | creates _ desired managed hnone hr =>
    exact sole_goto (hb.put (storable_of_unsettled rfl)) ⟨hb.unrecorded hr, rfl, _, rfl, rfl⟩
  | announces _ attempt listen hnone hr =>
    exact sole_goto (s := { s with receipts := attempt :: s.receipts }) hb ⟨hb.unrecorded hr, rfl⟩
  | arrived _ r hnone hr hphase =>
    refine ⟨hb.put fun _ => hb.settled r hr (by simp [hphase, settled]), ?_⟩
    simp [State.put, hnone]
  | idles | starts => exact ⟨hb, hheld⟩
  | clears _ r hr =>
    obtain ⟨hb', hheld'⟩ := hput hr (clearOrphanedOperation_phase r)
    exact ⟨hb', hheld'⟩
  | advances h o hh => exact sole_advance (s := { s with held := none }) hb (hheld h hh) o
  | crashes => exact ⟨hb.track none, by simp⟩
  | exits pid =>
    exact ⟨hb.exit pid, fun h hh => (hheld h hh).on rfl SliceEmpty.exit
      SocketIn.exit NoGuest.exit Blank.exit⟩
  | receives =>
    exact ⟨hb.on (hb.sound.receive hg) SliceEmpty.receive SocketIn.receive,
      fun h hh => (hheld h hh).on rfl SliceEmpty.receive SocketIn.receive
        NoGuest.receive Blank.receive⟩

theorem sole_initial (record receipts) : Sole (initial record receipts) :=
  ⟨⟨sound_idle, fun _ v hv => by simp [initial, idle] at hv,
    fun _ _ _ v hv => by simp [initial, idle] at hv⟩, by simp [initial]⟩

theorem sole_run {record receipts es s}
    (hm : agent.RunMeets arrivesInSlice (initial record receipts) es)
    (hrun : agent.run (initial record receipts) es = some s) : Sole s :=
  Machine.invariant (fun hs hg h => sole_step hs hg (step_effect h))
    (sole_initial record receipts) hm hrun

def Stage.bringsGuest : Stage → Bool
  | .start _ | .spawnReceiver => true
  | _ => false

theorem SoleAt.noGuest (h : SoleAt host stored r stage) (hstage : stage.bringsGuest) :
    host.NoGuest := by
  cases stage with
  | start => exact h.2
  | spawnReceiver => exact h.empty.noGuest
  | _ => cases hstage

/-- Where guests arrive only at receivers in the slice, at most one process has a guest, and none
has one when the lock holder's next call starts a new VMM or creates a receiving one. -/
theorem one_booted_vmm {record : Option VmRecord} {receipts : List String}
    {es : List Event} {s : State}
    (hm : agent.RunMeets arrivesInSlice (initial record receipts) es)
    (hrun : agent.run (initial record receipts) es = some s) :
    (∀ v ∈ s.host.vmms, ∀ w ∈ s.host.vmms,
      v.guest.present → w.guest.present → v.pid = w.pid) ∧
    ∀ h ∈ s.held, h.stage.bringsGuest →
      ∀ v ∈ s.host.vmms, v.guest.present = false := by
  obtain ⟨hb, hheld⟩ := sole_run hm hrun
  have hsocket : ∀ v ∈ s.host.vmms, v.guest.present → s.host.socket = some v.pid :=
    fun v hv hg => hb.sound.slice v hv (hb.sound.guest v hv hg)
  refine ⟨fun v hv w hw hgv hgw => ?_, fun h hh hstage => ?_⟩
  · exact Option.some.inj ((hsocket v hv hgv).symm.trans (hsocket w hw hgw))
  · exact ((hheld h hh).noGuest hstage).present hb.sound

private def died : Observed := ⟨false, false, false, none, false⟩

private def rebuiltRun : List Event :=
  [Event.startup true, .prepareMigration "m" "tcp:a"] ++ replicate 9 (Event.step .ok) ++
    [Event.arrive 1, .execute ⟨true, true, true, some .running, false⟩ 0, .crash, .startup true,
      .execute died 0] ++ replicate 9 (Event.step .ok)

private def rebuilding : State :=
  let r : VmRecord :=
    { VmRecord.awaiting "m" "tcp:a" true with
      phase := .devicesDone, operation := none, vmmPid := some 2 }
  { record := some r, receipts := ["m"], host := ⟨[⟨2, true, .empty⟩], 3, some 2, some 2⟩
    held := some ⟨r, .start .resume⟩, starting := false, awaited := none }

/-- The agent crashes over a VM whose guest arrived, sees no VMM and builds it again: when the new
VMM is to be started, the first one has ended. -/
theorem one_booted_vmm_rebuilt :
    agent.run (initial none []) rebuiltRun = some rebuilding ∧
    ∀ v ∈ rebuilding.host.vmms, v.guest.present = false :=
  have hrun : agent.run (initial none []) rebuiltRun = some rebuilding := rfl
  have hm : agent.RunMeets arrivesInSlice (initial none []) rebuiltRun := by decide
  ⟨hrun, (one_booted_vmm hm hrun).2 _ rfl rfl⟩

private def strayRun : List Event :=
  [Event.startup true, .prepareMigration "m" "tcp:a"] ++ replicate 6 (Event.step .ok) ++
    [Event.crash, .startup true, .cleanupMigration "m" false none] ++
    replicate 4 (Event.step .ok) ++ [Event.arrive 1, .provision .running true] ++
    replicate 7 (Event.step .ok)

/-- The agent crashes between the receiver's listening and its `attach_pid`. The cleanup of the
attempt empties the slice and drops the record; the receiver lives on and gets its guest. The VM is
provisioned here, and its new VMM is about to start. -/
theorem received_beside_start : ∃ s h,
    agent.run (initial none []) strayRun = some s ∧ s.held = some h ∧
    h.stage = .start .provision ∧ s.host.vmms = [⟨1, false, .received⟩, ⟨2, true, .empty⟩] :=
  ⟨_, _, rfl, rfl, rfl, rfl⟩

end MeisterStack.Agent
