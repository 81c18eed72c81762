import MeisterStack.ClusterController.MigrationSafety

/-!
# What migrations guarantee

About every run: a VM has one attempt in flight at most, a record only moves forward and its end is
true, a destination is torn down on evidence only, and a migration that ended leaves the binding of
its VM alone.
-/

namespace MeisterStack.ClusterController.Migration

open Foundation ControllerApi Option Program Task

private def guest (node : Option String) : Vm where
  name := "web"
  uid := "web-uid"
  deletionTimestamp := none
  spec := ⟨node, none, .running, ⟨none, none, []⟩⟩
  status :=
    { phase := .new VmPhaseKind.resting .running .unrecorded none
      reported := some (.of "a" .running .unrecorded none 0)
      silence := none, placement := none, nodeName := some "a", clusterName := none
      observedAt := none, reschedules := 0, refusedBy := [], evacuating := none }

private def budgets : Timeouts := ⟨30, 120⟩

private def claimed : List (Move Event Input) :=
  [.env (.writeVm (guest (some "a"))), .env (.create "web-1" "1" ⟨"web", none⟩), .env .pass,
    .task 0 (.go 0), .task 0 (.chosen "b"), .task 0 (.go 0), .task 0 (.reserved none 0)]

private def told (node : String) (outcome : MigrationOutcome) : List (Move Event Input) :=
  [.env (.report "web" node ⟨"1", "web-uid", "p", outcome, ""⟩), .task 0 (.go 0), .task 0 (.go 0)]

private def moved : List (Move Event Input) :=
  List.flatten
    [claimed,
      [.task 0 (.ready "p"), .task 0 (.go 0), .env .pass, .task 0 (.go 0), .task 0 (.go 0),
        .task 0 .ok, .task 0 .ok],
      told "a" .gone, told "b" .arrived,
      [.env .pass, .env .pass, .task 0 (.go 0), .task 0 (.go 0), .task 0 (.go 0)]]

private def claimedBeside : List (Move Event Input) :=
  claimed.concat (.env (.create "web-2" "2" ⟨"web", some "c"⟩))

private def refusedAtTarget : List (Move Event Input) :=
  List.append claimed [.task 0 (.refused "no such disk"), .task 0 (.go 0)]

private def endingAgain : List (Move Event Input) := moved.concat (.task 0 (.go 0))

private def endingUnbound : List (Move Event Input) :=
  List.append moved [.env (.writeVm (guest none)), .task 0 (.go 0)]

section Runs

variable {timeouts : Timeouts}

theorem inv_initial : Holds Inv TaskOk initial := by
  refine ⟨⟨?_, ?_, by simp [initial], by simp [initial], by simp [initial], ?_⟩, by simp [initial]⟩
  all_goals
    intro k v h
    cases h

variable {w : World State Task}

theorem inv_run {moves} (h : (program timeouts).run initial moves = some w) :
    Holds Inv TaskOk w :=
  outline.run inv_initial (runMeets_all _ _) h

theorem effect_of_step {w' m} (hw : Holds Inv TaskOk w)
    (h : (program timeouts).step w m = some w') : Effect w.shared w'.shared := by
  rcases (program timeouts).step_cases h with ⟨event, new, -, henv, -⟩ |
    ⟨index, input, t, next, -, ht, htask, -⟩ | ⟨index, -, hs, -⟩
  · exact (env_ok hw.1 henv).1
  · exact (task_ok hw.1 (hw.2 t (List.mem_of_getElem? ht)) htask).1
  · rw [hs]
    exact .none

def Task.fact : Task → Option Fact
  | .migrateOut m _ _ => some (.migrateOut m.val.uid)
  | .answer m _ _ => some (.cannotSend m.rev)
  | .abandon m _ _ => some (.cancelled m.val.uid m.val.kind)
  | .cleanup m _ => some (.cleanup m.val.uid)
  | .fail m _ => some (.ended m.val.uid .failed)
  | .bind m _ _ => some (.bound m.val.uid)
  | .succeed _ uid _ _ => some (.ended uid .succeeded)
  | _ => none

variable {s s' : State} {m : Versioned VmMigration} {next : List Task}

private theorem update_log {edit} (facts) (after : Versioned VmMigration → List Task)
    (h : update s m edit (fun s' new => (s'.notes facts, after new)) = (s', next)) :
    s'.log = s.log ∨ s'.log = s.log ++ facts := by
  unfold update at h
  split at h
  · cases h
    exact .inr (State.notes_log _ _)
  · cases h
    exact .inl rfl

private theorem mutateIf_log (s : State) (name uid) (edit : VmMigration → VmMigration) :
    (s.mutateIf name uid edit).log = s.log := by
  unfold State.mutateIf
  split <;> rfl

private theorem env_quiet {event new} (h : env s event = some (s', new)) :
    s'.log = s.log ∧ ∀ m vm target, .bind m vm target ∉ new := by
  cases event with
  | create =>
    simp only [env] at h
    split at h <;> cases h
    exact ⟨rfl, by simp⟩
  | delete =>
    obtain ⟨v, -, hv⟩ := map_eq_some_iff.mp h
    split at hv <;> cases hv <;> exact ⟨rfl, by simp⟩
  | report =>
    obtain ⟨vm, -, hv⟩ := map_eq_some_iff.mp h
    cases hv
    exact ⟨rfl, by simp⟩
  | pass | writeVm | removeVm =>
    cases h
    exact ⟨rfl, by simp⟩

variable {t : Task}

private theorem task_log {input} (h : task timeouts s t input = some (s', next)) :
    s'.log = s.log ∨ ∃ fact, t.fact = some fact ∧ s'.log = s.log ++ [fact] := by
  unfold task at h
  split at h
  -- the tasks whose step has one outcome for the store
  all_goals first
    | (cases h; exact .inl rfl)
    | (cases h; exact .inr ⟨_, rfl, rfl⟩)
    | (cases h; exact .inl (mutateIf_log _ _ _ _))
    | skip
  · -- prepare
    obtain ⟨_, -, hs⟩ := map_eq_some_iff.mp h
    cases hs
    exact .inl rfl
  · -- siblings
    split at h <;> cases h <;> exact .inl rfl
  · -- reserve
    dsimp only at h
    split at h
    · cases h
    · have hlog := update_log [] (fun new => [.openAt new _]) (some.inj h)
      exact .inl (by simpa using hlog)
  · -- openAt
    split at h <;> cases h <;> exact .inl rfl
  · -- send
    have hlog := update_log [] (fun new => [.migrateOut new _ _]) (some.inj h)
    exact .inl (by simpa using hlog)
  · -- abandon
    rename_i m target why now
    split at h
    · cases h
      exact .inl rfl
    · split at h
      · cases h
        exact .inl rfl
      · have hlog := update_log [.cancelled m.val.uid m.val.kind]
          (fun new => [.cleanup new why]) (some.inj h)
        exact hlog.imp_right fun hlog => ⟨_, rfl, hlog⟩
  · -- fail
    rename_i m why now
    have hlog := update_log [.ended m.val.uid .failed] (fun _ => []) (some.inj h)
    exact hlog.imp_right fun hlog => ⟨_, rfl, hlog⟩
  · -- bind
    split at h
    · cases h
      exact .inr ⟨_, rfl, rfl⟩
    · cases h
      exact .inl rfl
  · -- succeed
    split at h
    · cases h
      exact .inr ⟨_, rfl, rfl⟩
    · cases h
      exact .inl rfl
  · -- remove
    split at h <;> cases h <;> exact .inl rfl
  · cases h

theorem step_log {w' m fact} (h : (program timeouts).step w m = some w')
    (hlog : w'.shared.log = w.shared.log ++ [fact]) :
    ∃ t ∈ w.tasks, t.fact = some fact ∧ ∃ input next,
      task timeouts w.shared t input = some (w'.shared, next) := by
  have hne : w'.shared.log ≠ w.shared.log := by
    rw [hlog]
    simp
  rcases (program timeouts).step_cases h with ⟨event, new, -, henv, -⟩ |
    ⟨index, input, t, next, -, ht, htask, -⟩ | ⟨index, -, hs, -⟩
  · exact absurd (env_quiet henv).1 hne
  · rcases task_log htask with hsame | ⟨fact', hfact, hlog'⟩
    · exact absurd hsame hne
    · have heq : fact' = fact := by
        rw [hlog] at hlog'
        simpa using hlog'.symm
      exact ⟨t, List.mem_of_getElem? ht, heq ▸ hfact, input, next, htask⟩
  · exact absurd (congrArg State.log hs) hne

theorem one_migration_in_flight {moves : List (Move Event Input)} {w : World State Task}
    (hrun : (program timeouts).run initial moves = some w) {k k' : String}
    {v v' : Versioned VmMigration} (hv : w.shared.records.cell k = some v)
    (hv' : w.shared.records.cell k' = some v') (hvm : v.val.spec.vm = v'.val.spec.vm)
    (hflight : v.val.kind.inFlight) (hflight' : v'.val.kind.inFlight) : k = k' := by
  have inv := (inv_run hrun).1
  have hstored := inv.stored k v hv
  have hstored' := inv.stored k' v' hv'
  obtain ⟨listed, hcreated, -, hothers⟩ := hstored.alone hflight
  obtain ⟨listed', hcreated', -, hothers'⟩ := hstored'.alone hflight'
  by_contra hne
  -- each was created before it listed the others, and the other one after that
  have hle : listed ≤ v'.val.created :=
    hothers k' v' hv' (hstored.name ▸ Ne.symm hne) hvm.symm
      (VmMigrationPhaseKind.isFinal_of_inFlight hflight')
  have hle' : listed' ≤ v.val.created :=
    hothers' k v hv (hstored'.name ▸ hne) hvm
      (VmMigrationPhaseKind.isFinal_of_inFlight hflight)
  omega

theorem one_migration_in_flight_claimed :
    ∃ w v, (program budgets).run initial claimedBeside = some w ∧
      w.shared.records.cell "web-1" = some v ∧ v.val.kind.inFlight ∧
      ∀ k' v', w.shared.records.cell k' = some v' → v.val.spec.vm = v'.val.spec.vm →
        v'.val.kind.inFlight → "web-1" = k' := by
  refine ⟨_, _, rfl, rfl, rfl, fun k' v' hv' hvm hflight' => ?_⟩
  exact one_migration_in_flight (rfl : (program budgets).run initial claimedBeside = some _) rfl
    hv' hvm rfl hflight'

structure TeardownByEvidence (s s' : State) : Prop where
  cleanup : ∀ uid, s'.log = s.log ++ [.cleanup uid] → ∃ kind, .cancelled uid kind ∈ s.log
  commit : ∀ k v v', s.records.cell k = some v → s'.records.cell k = some v' →
    v'.val.uid = v.val.uid → v.val.status.cancelling = false →
    v'.val.status.cancelling →
      Authorized s.log v ∧ s'.log = s.log ++ [.cancelled v.val.uid v.val.kind]
  frozen : ∀ k v v', s.records.cell k = some v → s'.records.cell k = some v' →
    v'.val.uid = v.val.uid → v.val.status.cancelling →
      v'.val.status.cancelling ∧
      v'.val.status.sourceReported = v.val.status.sourceReported ∧
      v'.val.status.targetReported = v.val.status.targetReported ∧
      v'.val.status.peer = v.val.status.peer ∧
      (v'.val.kind = v.val.kind ∨ v'.val.kind = .failed) ∧ v'.val.kind ≠ .succeeded
  unsent : ∀ uid, s'.log = s.log ++ [.migrateOut uid] → .cancelled uid .preparing ∉ s.log

theorem teardown_by_evidence {moves : List (Move Event Input)} {w w' : World State Task}
    {m : Move Event Input} (hrun : (program timeouts).run initial moves = some w)
    (hstep : (program timeouts).step w m = some w') : TeardownByEvidence w.shared w'.shared := by
  have hw := inv_run hrun
  have heffect := effect_of_step hw hstep
  refine ⟨fun uid hlog => ?_, fun k v v' hv hv' huid hold hnew => ?_,
    fun k v v' hv hv' huid hold => ?_, fun uid hlog => ?_⟩
  · obtain ⟨t, ht, hfact, -⟩ := step_log hstep hlog
    cases t with
    | cleanup =>
      cases hfact
      exact (hw.2 _ ht).1.logged (hw.2 _ ht).2
    | _ => cases hfact
  · rcases heffect.origin hw.1 hv' with ⟨hsame, -⟩ | ⟨v0, facts, hv0, hchange, hlog⟩ |
      ⟨uid, spec, heq, hfresh, -⟩
    · rw [hv] at hsame
      cases hsame
      rw [hold] at hnew
      cases hnew
    · rw [hv] at hv0
      cases hv0
      obtain ⟨hauthorized, hfacts⟩ := hchange.cancelled_of_cancelling hold hnew
      exact ⟨hauthorized, hfacts ▸ hlog⟩
    · rw [heq] at hnew
      cases hnew
  · have hlater := (heffect.seen hw.1 (hw.1.seen hv)).later v'
      ((hw.1.stored k v hv).name.symm ▸ hv') huid
    obtain ⟨hc, hs, ht, hp, hkind⟩ := hlater.frozen hold
    have hsucceeded := ((hw.1.stored k v hv).sound.cancelling hold).2.1
    refine ⟨hc, hs, ht, hp, hkind, ?_⟩
    rcases hkind with hkind | hkind
    · rwa [hkind]
    · simp [hkind]
  · obtain ⟨t, ht, hfact, -⟩ := step_log hstep hlog
    cases t with
    | migrateOut =>
      cases hfact
      exact (hw.2 _ ht).2.2.2
    | _ => cases hfact

theorem teardown_by_evidence_refused :
    ∃ w w', (program budgets).run initial refusedAtTarget = some w ∧
      (program budgets).step w (.task 0 .ok) = some w' ∧
      w'.shared.log = [.cancelled "1" .preparing, .cleanup "1"] ∧
      TeardownByEvidence w.shared w'.shared := by
  refine ⟨_, _, rfl, rfl, ?_, teardown_by_evidence
    (rfl : (program budgets).run initial refusedAtTarget = _)
    (rfl : (program budgets).step _ (.task 0 .ok) = _)⟩
  decide

def Task.reading : Task → Option (Versioned VmMigration)
  | .step m => some m
  | _ => none

def settleGuard : Guard State Task Event Input where
  env _ _ := True
  task s t _ := ∀ m ∈ t.reading, ∀ vm ∈ s.vms.cell m.val.spec.vm, m.val.arrived →
    .bound m.val.uid ∈ s.log → vm.val.spec.nodeName = m.val.status.targetNode

instance (s event) : Decidable (settleGuard.env s event) := .isTrue trivial

instance (s t input) : Decidable (settleGuard.task s t input) :=
  inferInstanceAs (Decidable (∀ m ∈ t.reading, ∀ vm ∈ s.vms.cell m.val.spec.vm,
    m.val.arrived → .bound m.val.uid ∈ s.log →
      vm.val.spec.nodeName = m.val.status.targetNode))

def Unmoved (s : State) : Task → Prop
  | .bind m vm target => .bound m.val.uid ∈ s.log →
      vm.val.spec.nodeName = some target ∨
        (s.vms.cell m.val.spec.vm).standsAt vm.rev = false
  | _ => True

variable {vm : Versioned Vm} {target : String}

private theorem bind_mem_step {m' now}
    (h : .bind m' vm target ∈ step timeouts m (s.vms.cell m.val.spec.vm) now) :
    m' = m ∧ s.vms.cell m.val.spec.vm = some vm ∧ m.val.arrived ∧
      m.val.status.targetNode = some target := by
  unfold step at h
  split at h
  · split at h <;> simp [unresolvedOf] at h
  · rename_i vm' hvm
    split at h
    · simp [unresolvedOf] at h
    · split at h
      · simp at h
      · split at h
        · simp at h
        · unfold send at h
          repeat' split at h
          all_goals simp [unresolvedOf] at h
        · unfold settle at h
          split at h
          · rename_i source target' hsource htarget
            split at h
            · rename_i harrived
              cases List.mem_singleton.mp h
              exact ⟨rfl, hvm, harrived, htarget⟩
            · repeat' split at h
              all_goals simp [unresolvedOf] at h
          · simp [unresolvedOf] at h
        · cases h
        · cases h

private theorem bind_spawned {input} (h : task timeouts s t input = some (s', next))
    (hmem : .bind m vm target ∈ next) :
    t = .step m ∧ s' = s ∧ s.vms.cell m.val.spec.vm = some vm ∧ m.val.arrived ∧
      m.val.status.targetNode = some target := by
  unfold task update at h
  split at h
  · cases h
    obtain ⟨rfl, hrest⟩ := bind_mem_step hmem
    exact ⟨rfl, rfl, hrest⟩
  · obtain ⟨tasks, htasks, hs⟩ := map_eq_some_iff.mp h
    cases hs
    unfold prepare at htasks
    repeat' split at htasks
    all_goals
      cases htasks
      try simp at hmem
  -- no other task spawns one
  all_goals
    try dsimp only at h
    repeat' split at h
    all_goals
      cases h
      try simp [unresolvedOf] at hmem

private theorem Effect.standsVm (h : Effect s s') {k rev} (hrev : rev < s.next)
    (hstands : (s'.vms.cell k).standsAt rev) : (s.vms.cell k).standsAt rev := by
  obtain ⟨v, hcell, rfl⟩ := Cell.standsAt_iff.mp hstands
  refine Cell.standsAt_iff.mpr ⟨v, ?_, rfl⟩
  cases h with
  | write w new facts =>
    rwa [((s.putRecord new).notes_rest facts).2.2.1] at hcell
  | putVm | bind => exact (Table.cell_of_put hcell hrev).2
  | removeVm => exact (Table.cell_of_remove hcell).2
  | none | message | create | remove => exact hcell

private theorem Effect.unmoved (h : Effect s s') (inv : Inv s)
    (ht : TaskOk s t) (hu : Unmoved s t) : Unmoved s' t := by
  cases t with
  | bind m vm =>
    obtain ⟨hm, -, -, hvm⟩ := ht
    intro hbound
    by_cases hold : .bound m.val.uid ∈ s.log
    · refine (hu hold).imp_right fun hstands => ?_
      by_contra hnow
      rw [h.standsVm hvm.1 (by simpa using hnow)] at hstands
      cases hstands
    · -- another task has just bound the VM, for the same record
      right
      rcases h.noted hbound hold with hf | ⟨v, new, facts, hcell, hchange, hf⟩ |
        ⟨m', vm', target', hf, hm', -, -, rfl⟩
      · cases hf
      · rcases hchange.fact_cases hf with hf | hf | ⟨hf, -⟩ <;> cases hf
      · have huid : m.val.uid = m'.val.uid := Fact.bound.inj hf
        have hkey := (inv.known_uid hm.known hm'.known huid).2
        rw [hkey]
        have hne : s.next ≠ vm.rev := hvm.1.ne'
        simp [State.note, State.putVm, Cell.standsAt, hne]
  | _ => trivial

theorem settleOutline : (program timeouts).Outline settleGuard Inv
    (fun s t => TaskOk s t ∧ Unmoved s t) where
  env {s event s' new} inv _ h := by
    obtain ⟨heffect, hnew⟩ := env_ok inv h
    refine ⟨heffect.inv inv, fun t ht => ⟨hnew t ht, ?_⟩,
      fun t ht => ⟨heffect.taskOk inv ht.1, heffect.unmoved inv ht.1 ht.2⟩⟩
    cases t with
    | bind => exact absurd ht ((env_quiet h).2 _ _ _)
    | _ => trivial
  task {s t input s' next} inv ht hguard h := by
    obtain ⟨heffect, hnext⟩ := task_ok inv ht.1 h
    refine ⟨heffect.inv inv, fun u hu => ⟨hnext u hu, ?_⟩,
      fun u hu => ⟨heffect.taskOk inv hu.1, heffect.unmoved inv hu.1 hu.2⟩⟩
    cases u with
    | bind m vm =>
      obtain ⟨rfl, rfl, hvm, harrived, htarget⟩ := bind_spawned h hu
      intro hbound
      exact .inl ((hguard m rfl vm hvm harrived hbound).trans htarget)
    | _ => trivial

theorem ended_migration_keeps_binding {moves : List (Move Event Input)}
    {w w' : World State Task} {m : Move Event Input} {uid : String}
    {kind : VmMigrationPhaseKind} (hrun : (program timeouts).run initial moves = some w)
    (hmeets : (program timeouts).RunMeets settleGuard initial moves)
    (hstep : (program timeouts).step w m = some w')
    (hended : .ended uid kind ∈ w.shared.log)
    (hbound : w'.shared.log = w.shared.log ++ [.bound uid]) (k : String) :
    (w'.shared.vms.cell k).map (fun vm => vm.val.spec.nodeName) =
      (w.shared.vms.cell k).map fun vm => vm.val.spec.nodeName := by
  have hinitial : Holds Inv (fun s t => TaskOk s t ∧ Unmoved s t) initial :=
    ⟨inv_initial.1, by simp [initial]⟩
  obtain ⟨inv, htasks⟩ := settleOutline.run hinitial hmeets hrun
  obtain ⟨t, ht, hfact, input, next, htask⟩ := step_log hstep hbound
  cases t with
  | bind m vm target =>
    cases hfact
    obtain ⟨⟨hm, harrived, -, hvm⟩, hunmoved⟩ := htasks _ ht
    -- it did not fail, so it succeeded, after its binding had been moved
    have hwas : .bound m.val.uid ∈ w.shared.log := by
      rcases (inv.ended _ _ hended).2 with rfl | hwas
      · exact absurd hended (hm.unfailed harrived)
      · exact hwas
    cases input with
    | go =>
      simp only [task] at htask
      split at htask
      · rename_i hstands
        simp only [some.injEq, Prod.mk.injEq] at htask
        have hcell := hvm.eq_of_standsAt hstands
        have hnode : vm.val.spec.nodeName = some target := by
          rcases hunmoved hwas with hnode | hmoved
          · exact hnode
          · rw [hstands] at hmoved
            cases hmoved
        rw [← htask.1]
        by_cases hk : k = m.val.spec.vm
        · subst hk
          simp [State.note, State.putVm, hcell, bindTo, hnode]
        · simp [State.note, State.putVm, Table.cell_put_ne _ hk]
      · simp only [some.injEq, Prod.mk.injEq] at htask
        rw [← htask.1] at hbound
        simp at hbound
    | _ => cases htask
  | _ => cases hfact

/-- The second replica ends the record once more, and the VM stays where it is. -/
theorem ended_migration_keeps_binding_twice :
    ∃ w w', (program budgets).run initial endingAgain = some w ∧
      (program budgets).step w (.task 0 (.go 0)) = some w' ∧
      .ended "1" .succeeded ∈ w.shared.log ∧
      w'.shared.log = w.shared.log ++ [.bound "1"] ∧
      (w'.shared.vms.cell "web").map (fun vm => vm.val.spec.nodeName) =
        (w.shared.vms.cell "web").map fun vm => vm.val.spec.nodeName := by
  have hmeets : (program budgets).RunMeets settleGuard initial endingAgain := by decide
  refine ⟨_, _, rfl, rfl, ?_, ?_, ended_migration_keeps_binding rfl hmeets
    (rfl : (program budgets).step _ (.task 0 (.go 0)) = _)
    (?_ : Fact.ended "1" .succeeded ∈ _) ?_ "web"⟩ <;> decide

/-- The VM is unbound before the second replica reads it, and is bound again. -/
theorem ended_migration_rebinds :
    ∃ w w', (program budgets).run initial endingUnbound = some w ∧
      (program budgets).step w (.task 0 (.go 0)) = some w' ∧
      .ended "1" .succeeded ∈ w.shared.log ∧
      w'.shared.log = w.shared.log ++ [.bound "1"] ∧
      (w.shared.vms.cell "web").map (fun vm => vm.val.spec.nodeName) = some none ∧
      (w'.shared.vms.cell "web").map (fun vm => vm.val.spec.nodeName) = some (some "b") := by
  refine ⟨_, _, rfl, rfl, ?_⟩
  decide

theorem seen_run {w' m moves} (hw : Holds Inv TaskOk w) (hm : Seen w.shared m)
    (h : (program timeouts).run w moves = some w') :
    Holds Inv TaskOk w' ∧ Seen w'.shared m := by
  induction moves generalizing w with
  | nil =>
    cases h
    exact ⟨hw, hm⟩
  | cons move moves ih =>
    obtain ⟨w1, hstep, hrest⟩ := (program timeouts).run_cons h
    have hw1 := outline.step hw ((program timeouts).runMeets_all w [move]).1 hstep
    exact ih hw1 ((effect_of_step hw hstep).seen hw.1 hm) hrest

/-- Whatever runs in between, a record that is read again under its uid has its name and has
only moved forward. -/
theorem migration_moves_forward {moves moves' : List (Move Event Input)} {w' : World State Task}
    {k k' : String} {v v' : Versioned VmMigration}
    (hrun : (program timeouts).run initial moves = some w)
    (hrun' : (program timeouts).run w moves' = some w') (hv : w.shared.records.cell k = some v)
    (hv' : w'.shared.records.cell k' = some v') (huid : v'.val.uid = v.val.uid) :
    k' = k ∧ Later v.val v'.val := by
  have hw := inv_run hrun
  obtain ⟨hw', hseen⟩ := seen_run hw (hw.1.seen hv) hrun'
  have hstored := hw'.1.stored k' v' hv'
  have hname : v'.val.name = v.val.name := (hw'.1.known_uid hstored.known hseen.known huid).1
  have hk : k' = k := hstored.name.symm.trans (hname.trans (hw.1.stored k v hv).name)
  subst hk
  exact ⟨rfl, hseen.later v' (hname ▸ hstored.name ▸ hv') huid⟩

theorem migration_moves_forward_sent : ∃ w w' v v',
    (program budgets).run initial claimed = some w ∧
      (program budgets).run w (moved.drop 7) = some w' ∧
      w.shared.records.cell "web-1" = some v ∧ w'.shared.records.cell "web-1" = some v' ∧
      v.val.kind = .preparing ∧ v'.val.arrived ∧ Later v.val v'.val := by
  refine ⟨_, _, _, _, rfl, rfl, rfl, rfl, by decide, by decide, ?_⟩
  exact (@migration_moves_forward budgets _ claimed (moved.drop 7) _ "web-1" "web-1" _ _
    rfl rfl rfl rfl rfl).2

/-- A migration ends well only after it has written the binding, and one that was ended as failed
stays so, with no sign that the guest has arrived. -/
theorem migration_end_is_true {moves : List (Move Event Input)}
    (hrun : (program timeouts).run initial moves = some w) :
    (∀ uid kind, .ended uid kind ∈ w.shared.log → kind = .failed ∨ .bound uid ∈ w.shared.log) ∧
      ∀ k v, w.shared.records.cell k = some v → .ended v.val.uid .failed ∈ w.shared.log →
        v.val.kind = .failed ∧ v.val.arrived = false := by
  have inv := (inv_run hrun).1
  exact ⟨fun uid kind h => (inv.ended uid kind h).2, fun k v hv => (inv.stored k v hv).unfailed⟩

theorem migration_end_is_true_moved : ∃ w, (program budgets).run initial endingAgain = some w ∧
    .ended "1" .succeeded ∈ w.shared.log ∧ .bound "1" ∈ w.shared.log := by
  refine ⟨_, rfl, by decide, ?_⟩
  exact ((@migration_end_is_true budgets _ endingAgain rfl).1 "1" .succeeded
    (by decide)).resolve_left (by decide)

end Runs

end MeisterStack.ClusterController.Migration
