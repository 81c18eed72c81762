import MeisterStack.ClusterController.MigrationChanges

/-!
# The invariant of the migration program

`Effect` says everything a move of a task in order can do to the store; it keeps `Inv` and `TaskOk`.
A task is in order when what it captured is a state its record had (`Seen`) and what it is about to
write is covered by a `Change`.
-/

namespace MeisterStack.ClusterController.Migration

open Foundation ControllerApi List Option Table Nat Prod Task

def State.notes (s : State) (facts : List Fact) : State := facts.foldl State.note s

namespace State

variable (s : State) (facts : List Fact)

@[simp] theorem notes_log : (s.notes facts).log = s.log ++ facts := by
  induction facts generalizing s with
  | nil => simp [notes]
  | cons fact facts ih =>
    rw [show s.notes (fact :: facts) = (s.note fact).notes facts from rfl, ih]
    simp [note]

@[simp] theorem notes_rest : (s.notes facts).next = s.next ∧
    (s.notes facts).records = s.records ∧ (s.notes facts).vms = s.vms ∧
    (s.notes facts).known = s.known := by
  induction facts generalizing s with
  | nil => exact ⟨rfl, rfl, rfl, rfl⟩
  | cons fact facts ih => exact ih (s.note fact)

end State

structure Seen (s : State) (m : Versioned VmMigration) : Prop where
  saw : (s.records.cell m.val.name).Saw s.next m
  known : (m.val.uid, m.val.name, m.val.spec.vm) ∈ s.known
  created : m.val.created < s.next
  sound : Sound m.val
  logged : m.val.status.cancelling → ∃ kind, .cancelled m.val.uid kind ∈ s.log
  unfailed : m.val.arrived → .ended m.val.uid .failed ∉ s.log
  later : ∀ v, s.records.cell m.val.name = some v → v.val.uid = m.val.uid → Later m.val v.val

structure Stored (s : State) (k : String) (m : VmMigration) : Prop where
  name : m.name = k
  known : (m.uid, m.name, m.spec.vm) ∈ s.known
  created : m.created < s.next
  sound : Sound m
  logged : m.status.cancelling → ∃ kind, .cancelled m.uid kind ∈ s.log
  unsent : .cancelled m.uid .preparing ∈ s.log → m.status.cancelling ∧ m.kind ≠ .running
  unfailed : .ended m.uid .failed ∈ s.log → m.kind = .failed ∧ m.arrived = false
  alone : m.kind.inFlight → Alone s m

structure Inv (s : State) : Prop where
  below : s.records.Below s.next
  vms : s.vms.Below s.next
  known : ∀ uid r r', (uid, r) ∈ s.known → (uid, r') ∈ s.known → r = r'
  cancelled : ∀ uid kind, .cancelled uid kind ∈ s.log → uid ∈ s.known.map fst
  ended : ∀ uid kind, .ended uid kind ∈ s.log →
    uid ∈ s.known.map fst ∧ (kind = .failed ∨ .bound uid ∈ s.log)
  stored : ∀ k v, s.records.cell k = some v → Stored s k v.val

variable {s : State}

theorem Inv.known_uid (inv : Inv s) {m m' : VmMigration}
    (h : (m.uid, m.name, m.spec.vm) ∈ s.known) (h' : (m'.uid, m'.name, m'.spec.vm) ∈ s.known)
    (huid : m.uid = m'.uid) : m.name = m'.name ∧ m.spec.vm = m'.spec.vm := by
  rw [huid] at h
  have heq := inv.known _ _ _ h h'
  exact mk.inj heq

theorem Inv.seen (inv : Inv s) {k v} (hcell : s.records.cell k = some v) : Seen s v := by
  have hstored := inv.stored k v hcell
  have hname := hstored.name
  subst hname
  refine ⟨(inv.below _).saw hcell, hstored.known, hstored.created, hstored.sound,
    hstored.logged, fun harrived hended => ?_, fun w hw _ => ?_⟩
  · rw [(hstored.unfailed hended).2] at harrived
    cases harrived
  · rw [hcell] at hw
    cases hw
    exact .refl _

def Fact.isMessage : Fact → Bool
  | .migrateOut _ | .cannotSend _ | .cleanup _ => true
  | _ => false

inductive Effect (s : State) : State → Prop
  | none : Effect s s
  | message (fact : Fact) (hfact : fact.isMessage) : Effect s (s.note fact)
  | write (v : Versioned VmMigration) (new : VmMigration) (facts : List Fact)
      (hcell : s.records.cell v.val.name = some v) (hchange : Change s v new facts) :
      Effect s ((s.putRecord new).notes facts)
  | create (name uid : String) (spec : VmMigrationSpec)
      (hname : s.records.cell name = .none) (huid : uid ∉ s.known.map fst) :
      Effect s (s.create name uid spec)
  | remove (name : String) : Effect s (s.removeRecord name)
  | putVm (key : String) (vm : Vm) : Effect s (s.putVm key vm)
  | removeVm (key : String) : Effect s (s.removeVm key)
  | bind (m : Versioned VmMigration) (vm : Versioned Vm) (target : String)
      (hcell : s.vms.cell m.val.spec.vm = some vm) (hm : Seen s m)
      (harrived : m.val.arrived) :
      Effect s ((s.putVm m.val.spec.vm (bindTo target vm.val)).note (.bound m.val.uid))

namespace Effect

variable {s s' : State} (h : Effect s s')

include h

theorem next_le : s.next ≤ s'.next := by
  cases h with
  | write v new facts =>
    rw [((s.putRecord new).notes_rest facts).1]
    exact le_succ _
  | none | message => exact le_rfl
  | _ => exact le_succ _

theorem known_subset : s.known ⊆ s'.known := by
  cases h with
  | write v new facts =>
    rw [((s.putRecord new).notes_rest facts).2.2.2]
    exact fun _ => id
  | create => exact subset_cons_self _ _
  | _ => exact fun _ => id

theorem log_subset : s.log ⊆ s'.log := by
  cases h with
  | message | bind => exact subset_append_left _ _
  | write =>
    rw [State.notes_log]
    exact subset_append_left _ _
  | _ => exact fun _ => id

variable {k : String}

theorem saw {v} (hv : (s.records.cell k).Saw s.next v) : (s'.records.cell k).Saw s'.next v := by
  cases h with
  | none | message => exact hv
  | write w new facts =>
    obtain ⟨hnext, hrecords, -⟩ := (s.putRecord new).notes_rest facts
    rw [hnext, hrecords]
    exact saw_put hv _
  | create => exact saw_put hv _
  | remove => exact (saw_remove hv).mono (le_succ _)
  | putVm | removeVm | bind => exact hv.mono (le_succ _)

theorem sawVm {v} (hv : (s.vms.cell k).Saw s.next v) : (s'.vms.cell k).Saw s'.next v := by
  cases h with
  | none | message => exact hv
  | write w new facts =>
    obtain ⟨hnext, -, hvms, -⟩ := (s.putRecord new).notes_rest facts
    rw [hnext, hvms]
    exact hv.mono (le_succ _)
  | create | remove => exact hv.mono (le_succ _)
  | putVm | bind => exact saw_put hv _
  | removeVm => exact (saw_remove hv).mono (le_succ _)

theorem below (hb : s.records.Below s.next) : s'.records.Below s'.next := by
  cases h with
  | none | message => exact hb
  | write w new facts =>
    obtain ⟨hnext, hrecords, -⟩ := (s.putRecord new).notes_rest facts
    rw [hnext, hrecords]
    exact hb.put _ _
  | create => exact hb.put _ _
  | remove name => exact (hb.remove name).mono (le_succ _)
  | putVm | removeVm | bind => exact hb.mono (le_succ _)

theorem belowVms (hb : s.vms.Below s.next) : s'.vms.Below s'.next := by
  cases h with
  | none | message => exact hb
  | write w new facts =>
    obtain ⟨hnext, -, hvms, -⟩ := (s.putRecord new).notes_rest facts
    rw [hnext, hvms]
    exact hb.mono (le_succ _)
  | create | remove => exact hb.mono (le_succ _)
  | putVm | bind => exact hb.put _ _
  | removeVm key => exact (hb.remove key).mono (le_succ _)

theorem origin (inv : Inv s) {v'} (hcell' : s'.records.cell k = some v') :
    (s.records.cell k = some v' ∧
      (∀ kind, .cancelled v'.val.uid kind ∈ s'.log → .cancelled v'.val.uid kind ∈ s.log) ∧
      ∀ kind, .ended v'.val.uid kind ∈ s'.log → .ended v'.val.uid kind ∈ s.log) ∨
    (∃ v facts, s.records.cell k = some v ∧ Change s v v'.val facts ∧
      s'.log = s.log ++ facts) ∨
    ∃ uid spec, v'.val = .declare k uid s.next spec ∧ uid ∉ s.known.map fst ∧
      s'.known = (uid, k, spec.vm) :: s.known ∧ s'.log = s.log ∧ s.next < s'.next := by
  cases h with
  | message fact hfact =>
    refine .inl ⟨hcell', fun kind hk => ?_, fun kind hk => ?_⟩
    all_goals
      rcases mem_append.mp hk with hk | hk
      · exact hk
      · rw [← mem_singleton.mp hk] at hfact
        cases hfact
  | write v new facts hcell hchange =>
    rw [((s.putRecord new).notes_rest facts).2.1] at hcell'
    simp only [State.putRecord, hchange.identity.1] at hcell'
    by_cases hk : k = v.val.name
    · subst hk
      rw [cell_put_self] at hcell'
      cases hcell'
      exact .inr (.inl ⟨v, facts, hcell, hchange, State.notes_log _ _⟩)
    · rw [cell_put_ne _ hk] at hcell'
      -- the facts noted are about the record written, and that one has another uid
      have hne : v'.val.uid ≠ v.val.uid := by
        intro huid
        have hstored := inv.stored k v' hcell'
        have hname := (inv.known_uid hstored.known (inv.stored _ v hcell).known huid).1
        exact hk (hstored.name.symm.trans hname)
      refine .inl ⟨hcell', fun kind hmem => ?_, fun kind hmem => ?_⟩
      all_goals
        rw [State.notes_log] at hmem
        rcases mem_append.mp hmem with hmem | hmem
        · exact hmem
        · rcases hchange.fact_cases hmem with hf | hf | ⟨hf, -⟩
          all_goals simp [hne] at hf
  | create name uid spec hname huid =>
    by_cases hk : k = name
    · subst hk
      simp only [State.create, State.putRecord, VmMigration.declare, cell_put_self] at hcell'
      cases hcell'
      exact .inr (.inr ⟨uid, spec, rfl, huid, rfl, rfl, lt_succ_self _⟩)
    · simp only [State.create, State.putRecord, VmMigration.declare,
        cell_put_ne _ hk] at hcell'
      exact .inl ⟨hcell', fun _ => id, fun _ => id⟩
  | remove =>
    exact .inl ⟨(cell_of_remove hcell').2, fun _ => id, fun _ => id⟩
  | bind =>
    refine .inl ⟨hcell', fun kind hk => ?_, fun kind hk => ?_⟩
    all_goals
      rcases mem_append.mp hk with hk | hk
      · exact hk
      · cases mem_singleton.mp hk
  | none | putVm | removeVm => exact .inl ⟨hcell', fun _ => id, fun _ => id⟩

theorem noted {fact} (hmem : fact ∈ s'.log) (hnew : fact ∉ s.log) :
    fact.isMessage ∨
    (∃ v new facts, s.records.cell v.val.name = some v ∧ Change s v new facts ∧
      fact ∈ facts) ∨
    ∃ m vm target, fact = .bound m.val.uid ∧ Seen s m ∧ m.val.arrived ∧
      s.vms.cell m.val.spec.vm = some vm ∧
      s' = (s.putVm m.val.spec.vm (bindTo target vm.val)).note (.bound m.val.uid) := by
  cases h with
  | message f hfact =>
    rcases mem_append.mp hmem with hmem | hmem
    · exact absurd hmem hnew
    · rw [mem_singleton.mp hmem]
      exact .inl hfact
  | write v new facts hcell hchange =>
    rw [State.notes_log] at hmem
    rcases mem_append.mp hmem with hmem | hmem
    · exact absurd hmem hnew
    · exact .inr (.inl ⟨v, new, facts, hcell, hchange, hmem⟩)
  | bind m vm target hvm hm harrived =>
    rcases mem_append.mp hmem with hmem | hmem
    · exact absurd hmem hnew
    · exact .inr (.inr ⟨m, vm, target, mem_singleton.mp hmem, hm, harrived, hvm, rfl⟩)
  | none | create | remove | putVm | removeVm => exact absurd hmem hnew

theorem alone (inv : Inv s) {m} (hm : Alone s m) : Alone s' m := by
  obtain ⟨listed, hcreated, hle, hothers⟩ := hm
  refine ⟨listed, hcreated, hle.trans h.next_le, fun k v hcell hne hvm hfinal => ?_⟩
  rcases h.origin inv hcell with ⟨hold, -⟩ | ⟨w, facts, hold, hchange, -⟩ |
    ⟨uid, spec, hv, -⟩
  · exact hothers k v hold hne hvm hfinal
  · obtain ⟨-, -, hcreated', hspec⟩ := hchange.identity
    rw [hcreated']
    refine hothers k w hold hne (hspec ▸ hvm) ?_
    cases hw : w.val.kind.isFinal with
    | false => rfl
    | true =>
      rw [(hchange.later (inv.stored k w hold).sound).final hw] at hfinal
      cases hfinal
  · rw [hv]
    exact hle

theorem seen (inv : Inv s) {m} (hm : Seen s m) :
    Seen s' m where
  saw := h.saw hm.saw
  known := h.known_subset hm.known
  created := hm.created.trans_le h.next_le
  sound := hm.sound
  logged hc := (hm.logged hc).imp fun _ hk => h.log_subset hk
  unfailed harrived hended := by
    rcases h.noted hended (hm.unfailed harrived) with hf | ⟨v, new, facts, hcell, hchange, hf⟩ |
      ⟨_, _, _, hf, -⟩
    · cases hf
    · have hstored := inv.stored _ v hcell
      obtain ⟨huid, -, hnot, -⟩ := hchange.failed_mem hstored.sound hf
      have hname := (inv.known_uid hm.known hstored.known huid).1
      rw [(hm.later v (hname ▸ hcell) huid.symm).arrived harrived] at hnot
      cases hnot
    · cases hf
  later v hcell huid := by
    rcases h.origin inv hcell with ⟨hold, -⟩ | ⟨w, facts, hold, hchange, -⟩ |
      ⟨uid, spec, hv, hfresh, -⟩
    · exact hm.later v hold huid
    · have hsame : w.val.uid = m.val.uid := hchange.identity.2.1.symm.trans huid
      exact (hm.later w hold hsame).trans (hchange.later (inv.stored _ w hold).sound)
    · rw [hv] at huid
      have hsame : uid = m.val.uid := huid
      exact absurd (mem_map_of_mem hm.known) (hsame ▸ hfresh)

theorem stored (inv : Inv s) {v'} (hcell' : s'.records.cell k = some v') : Stored s' k v'.val := by
  rcases h.origin inv hcell' with ⟨hcell, hcancelled, hended⟩ |
    ⟨v, facts, hcell, hchange, hlog⟩ | ⟨uid, spec, hv, hfresh, hknown, hlog, hnext⟩
  · have hold := inv.stored k v' hcell
    exact
      { name := hold.name
        known := h.known_subset hold.known
        created := hold.created.trans_le h.next_le
        sound := hold.sound
        logged := fun hc => (hold.logged hc).imp fun _ hk => h.log_subset hk
        unsent := fun hc => hold.unsent (hcancelled _ hc)
        unfailed := fun he => hold.unfailed (hended _ he)
        alone := fun hf => h.alone inv (hold.alone hf) }
  · have hold := inv.stored k v hcell
    have hlater := hchange.later hold.sound
    obtain ⟨hname, huid, hcreated, hspec⟩ := hchange.identity
    refine ⟨hname.trans hold.name, ?_, ?_, hchange.sound hold.sound, fun hc => ?_,
      fun hc => ?_, fun he => ?_, fun hf => ?_⟩
    · rw [hname, huid, hspec]
      exact h.known_subset hold.known
    · rw [hcreated]
      exact hold.created.trans_le h.next_le
    · rw [huid]
      cases hwas : v.val.status.cancelling with
      | true => exact (hold.logged hwas).imp fun _ hk => h.log_subset hk
      | false =>
        refine ⟨v.val.kind, ?_⟩
        rw [hlog, (hchange.cancelled_of_cancelling hwas hc).2]
        exact mem_append_right _ (mem_singleton.mpr rfl)
    · rw [huid, hlog] at hc
      rcases mem_append.mp hc with hc | hc
      · obtain ⟨hcancelling, hkind⟩ := hold.unsent hc
        obtain ⟨hkept, -, -, -, hkind'⟩ := hlater.frozen hcancelling
        refine ⟨hkept, ?_⟩
        rcases hkind' with hkind' | hkind'
        · rwa [hkind']
        · simp [hkind']
      · obtain ⟨-, hkind, hcancelling, hsame⟩ := hchange.cancelled_mem hc
        exact ⟨hcancelling, by simp [hsame, ← hkind]⟩
    · rw [huid, hlog] at he
      rcases mem_append.mp he with he | he
      · exact hchange.stays_failed (hold.unfailed he).1 (hold.unfailed he).2
      · exact (hchange.failed_mem hold.sound he).2.imp_right And.right
    · have halone : Alone s v.val := (hchange.alone_of_inFlight hf).elim hold.alone id
      exact (h.alone inv halone).congr hname hcreated hspec
  · rw [hv]
    have hunknown : ∀ kind, .cancelled uid kind ∉ s.log ∧ .ended uid kind ∉ s.log := fun kind =>
      ⟨fun hc => hfresh (inv.cancelled _ _ hc), fun he => hfresh (inv.ended _ _ he).1⟩
    refine ⟨rfl, ?_, hnext, declare_sound _ _ _ _, by rintro ⟨⟩, fun hc => ?_, fun he => ?_,
      by rintro ⟨⟩⟩
    · rw [hknown]
      exact mem_cons_self
    · rw [hlog] at hc
      exact absurd hc (hunknown _).1
    · rw [hlog] at he
      exact absurd he (hunknown _).2

theorem known_cases : s'.known = s.known ∨
    ∃ uid r, uid ∉ s.known.map fst ∧ s'.known = (uid, r) :: s.known := by
  cases h with
  | write v new facts => exact .inl ((s.putRecord new).notes_rest facts).2.2.2
  | create name uid spec hname huid => exact .inr ⟨uid, _, huid, rfl⟩
  | _ => exact .inl rfl

theorem inv (inv : Inv s) : Inv s' where
  below := h.below inv.below
  vms := h.belowVms inv.vms
  known uid r r' hr hr' := by
    rcases h.known_cases with heq | ⟨new, x, hfresh, heq⟩
    · rw [heq] at hr hr'
      exact inv.known uid r r' hr hr'
    · rw [heq] at hr hr'
      rcases mem_cons.mp hr with ⟨⟨⟩⟩ | hold
      · rcases mem_cons.mp hr' with ⟨⟨⟩⟩ | hold'
        · rfl
        · exact absurd (mem_map_of_mem hold') hfresh
      · rcases mem_cons.mp hr' with ⟨⟨⟩⟩ | hold'
        · exact absurd (mem_map_of_mem hold) hfresh
        · exact inv.known uid r r' hold hold'
  cancelled uid kind hmem := by
    refine map_subset _ h.known_subset ?_
    by_cases hold : .cancelled uid kind ∈ s.log
    · exact inv.cancelled uid kind hold
    · rcases h.noted hmem hold with hf | ⟨v, new, facts, hcell, hchange, hf⟩ | ⟨_, _, _, hf, -⟩
      · cases hf
      · rw [(hchange.cancelled_mem hf).1]
        exact mem_map_of_mem (inv.stored _ v hcell).known
      · cases hf
  ended uid kind hmem := by
    by_cases hold : .ended uid kind ∈ s.log
    · obtain ⟨hknown, hkind⟩ := inv.ended uid kind hold
      exact ⟨map_subset _ h.known_subset hknown, hkind.imp_right fun hb => h.log_subset hb⟩
    · rcases h.noted hmem hold with hf | ⟨v, new, facts, hcell, hchange, hf⟩ | ⟨_, _, _, hf, -⟩
      · cases hf
      · have hknown := mem_map_of_mem (f := fst)
          (h.known_subset (inv.stored _ v hcell).known)
        rcases hchange.fact_cases hf with hf | hf | ⟨hf, hbound⟩
        · cases hf
        · cases hf
          exact ⟨hknown, .inl rfl⟩
        · cases hf
          exact ⟨hknown, .inr (h.log_subset hbound)⟩
      · cases hf
  stored k v hcell := h.stored inv hcell

end Effect

def TaskOk (s : State) : Task → Prop
  | .step m => Seen s m ∧ m.val.kind.isFinal = false
  | .prepare m _ | .siblings m _ _ _ => Seen s m ∧ m.val.kind = .pending
  | .reserve m _ _ _ => Seen s m ∧ m.val.kind = .pending ∧ Alone s m.val
  | .openAt m _ => Seen s m ∧ m.val.kind = .preparing
  | .send m _ _ _ => Seen s m ∧ m.val.kind = .preparing ∧ m.val.status.cancelling = false
  | .migrateOut m _ _ | .answer m _ _ =>
    Seen s m ∧ m.val.kind = .running ∧ m.val.status.sourceReported ≠ some .gone ∧
      .cancelled m.val.uid .preparing ∉ s.log
  | .abandon m _ _ =>
    Seen s m ∧ (m.val.status.cancelling = false →
      Authorized s.log m ∧ m.val.status.sourceReported ≠ some .gone)
  | .cleanup m _ | .cleaned m _ => Seen s m ∧ m.val.status.cancelling
  | .fail m _ => Seen s m ∧ (m.val.kind = .pending ∨ m.val.status.cancelling)
  | .bind m vm target =>
    Seen s m ∧ m.val.arrived ∧ m.val.status.targetNode = some target ∧
      (s.vms.cell m.val.spec.vm).Saw s.next vm
  | .succeed name uid _ target =>
    target ≠ "" ∧ .bound uid ∈ s.log ∧
      ∃ m, Seen s m ∧ m.val.name = name ∧ m.val.uid = uid ∧ m.val.arrived
  | .peer _ _ _ _ | .unresolved _ _ _ | .ingest _ _ _ | .report _ _ _ _ _ | .remove _ _ => True

theorem Effect.unsent {s'} (h : Effect s s') (inv : Inv s) {m} (hm : Seen s m)
    (hkind : m.val.kind = .running) (hnot : .cancelled m.val.uid .preparing ∉ s.log) :
    .cancelled m.val.uid .preparing ∉ s'.log := by
  intro hmem
  rcases h.noted hmem hnot with hf | ⟨v, new, facts, hcell, hchange, hf⟩ | ⟨_, _, _, hf, -⟩
  · cases hf
  · obtain ⟨huid, hpreparing, -⟩ := hchange.cancelled_mem hf
    have hname := (inv.known_uid hm.known (inv.stored _ v hcell).known huid).1
    have hlater := hm.later v (hname ▸ hcell) huid.symm
    exact (hlater.started (by simp [hkind]) (by simp [hkind])).2 hpreparing.symm
  · cases hf

theorem Effect.taskOk {s'} (h : Effect s s') (inv : Inv s) {t} (ht : TaskOk s t) : TaskOk s' t := by
  cases t with
  | reserve => exact ⟨h.seen inv ht.1, ht.2.1, h.alone inv ht.2.2⟩
  | migrateOut | answer =>
    obtain ⟨hm, hkind, hsource, hnot⟩ := ht
    exact ⟨h.seen inv hm, hkind, hsource, h.unsent inv hm hkind hnot⟩
  | abandon =>
    refine ⟨h.seen inv ht.1, fun hc => ?_⟩
    exact ⟨(ht.2 hc).1.mono h.log_subset, (ht.2 hc).2⟩
  | bind =>
    obtain ⟨hm, harrived, htarget, hvm⟩ := ht
    exact ⟨h.seen inv hm, harrived, htarget, h.sawVm hvm⟩
  | succeed =>
    obtain ⟨htarget, hbound, m, hm, hrest⟩ := ht
    exact ⟨htarget, h.log_subset hbound, m, h.seen inv hm, hrest⟩
  | peer | unresolved | ingest | report | remove => trivial
  | _ => exact ⟨h.seen inv ht.1, ht.2⟩

section Steps

variable {timeouts : Timeouts} {s : State} {m : Versioned VmMigration}

private theorem send_ok (hm : Seen s m) (hkind : m.val.kind = .preparing) (now) :
    ∀ t ∈ send timeouts m now, TaskOk s t := by
  have habandon : ∀ target why, TaskOk s (.abandon m target why) := fun _ _ =>
    ⟨hm, fun _ => ⟨.inl hkind, by simp [hm.sound.unsent (.inr hkind)]⟩⟩
  intro t ht
  unfold send at ht
  split at ht
  · cases ht
  · rename_i hcancelling
    simp only [hkind, ne_eq, not_true_eq_false, decide_false, Bool.or_false,
      Bool.not_eq_true] at hcancelling
    split at ht
    · split at ht
      · cases mem_singleton.mp ht
        exact habandon _ _
      · cases mem_singleton.mp ht
        exact habandon _ _
      · cases ht
      · cases mem_singleton.mp ht
        exact ⟨hm, hkind, hcancelling⟩
    · cases mem_singleton.mp ht
      trivial

private theorem settle_ok (hm : Seen s m) (hkind : m.val.kind = .running) {vm}
    (hvm : (s.vms.cell m.val.spec.vm).Saw s.next vm) (now) :
    ∀ t ∈ settle timeouts m vm now, TaskOk s t := by
  intro t ht
  unfold settle at ht
  split at ht
  · rename_i source target hsource htarget
    split at ht
    · rename_i harrived
      cases mem_singleton.mp ht
      exact ⟨hm, harrived, htarget, hvm⟩
    · split at ht
      · rename_i why hverdict
        obtain ⟨hstill, hseen⟩ := stillHere_tearDown hverdict
        cases mem_singleton.mp ht
        exact ⟨hm, fun _ => ⟨.inr (.inl ⟨hkind, hstill, hseen⟩), by simp [hstill]⟩⟩
      · cases mem_singleton.mp ht
        trivial
      · split at ht
        · cases ht
        · rename_i elapsed _
          obtain ⟨why, hwhy⟩ := verdictOnTimeout_touchNothing source target elapsed
            m.val.status.sourceReported m.val.status.targetReported
          rw [hwhy] at ht
          cases mem_singleton.mp ht
          trivial
  · cases mem_singleton.mp ht
    trivial

private theorem step_ok (inv : Inv s) (hm : Seen s m) (now) :
    ∀ t ∈ step timeouts m (s.vms.cell m.val.spec.vm) now, TaskOk s t := by
  intro t ht
  unfold step at ht
  split at ht
  · split at ht
    · rename_i hkind
      cases mem_singleton.mp ht
      exact ⟨hm, .inl hkind⟩
    · cases mem_singleton.mp ht
      trivial
  · rename_i vm hvm
    split at ht
    · cases mem_singleton.mp ht
      trivial
    · split at ht
      · rename_i target hcancelling _
        rw [Bool.and_eq_true] at hcancelling
        cases mem_singleton.mp ht
        refine ⟨hm, fun hc => ?_⟩
        rw [hcancelling.1] at hc
        cases hc
      · split at ht
        · rename_i hkind
          cases mem_singleton.mp ht
          exact ⟨hm, hkind⟩
        · rename_i hkind
          exact send_ok hm hkind now t ht
        · rename_i hkind
          exact settle_ok hm hkind ((inv.vms _).saw hvm) now t ht
        · cases ht
        · cases ht

theorem Seen.cell_of_stands (hm : Seen s m) (h : s.stands m) : s.records.cell m.val.name = some m :=
  hm.saw.eq_of_standsAt h

variable {s' : State} {next : List Task}

private theorem update_ok (inv : Inv s) (hm : Seen s m) {edit} (facts)
    (after : Versioned VmMigration → List Task)
    (hchange : s.records.cell m.val.name = some m → Change s m (edit m.val) facts)
    (hafter : ∀ s' new, s.records.cell m.val.name = some m →
      s' = (s.putRecord (edit m.val)).notes facts → Seen s' new → new.val = edit m.val →
      ∀ t ∈ after new, TaskOk s' t)
    (h : update s m edit (fun s' new => (s'.notes facts, after new)) = (s', next)) :
    Effect s s' ∧ ∀ t ∈ next, TaskOk s' t := by
  unfold update at h
  split at h
  · rename_i hstands
    cases h
    have hcell := hm.cell_of_stands hstands
    have heffect := Effect.write m _ facts hcell (hchange hcell)
    have inv' := heffect.inv inv
    refine ⟨heffect, hafter _ _ hcell rfl ?_ rfl⟩
    refine inv'.seen (k := (edit m.val).name) ?_
    rw [((s.putRecord (edit m.val)).notes_rest facts).2.1]
    exact Table.cell_put_self _ _ _ _
  · cases h
    exact ⟨.none, by simp⟩

theorem State.find_eq {name uid m} (h : s.find name uid = some m) :
    ∃ v, s.records.cell name = some v ∧ v.val.uid = uid ∧ v.val = m := by
  obtain ⟨v, hv, hm⟩ := map_eq_some_iff.mp h
  obtain ⟨hcell, huid⟩ := filter_eq_some_iff.mp hv
  exact ⟨v, hcell, by simpa using huid, hm⟩

private theorem mutateIf_effect (inv : Inv s) (name uid) {edit}
    (h : ∀ v, s.records.cell name = some v → Change s v (edit v.val) []) :
    Effect s (s.mutateIf name uid edit) := by
  unfold State.mutateIf
  split
  · rename_i m hfind
    obtain ⟨v, hcell, -, rfl⟩ := State.find_eq hfind
    have hname := (inv.stored name v hcell).name
    exact .write v _ [] (hname ▸ hcell) (h v hcell)
  · exact .none

theorem env_ok {event new} (inv : Inv s) (h : env s event = some (s', new)) :
    Effect s s' ∧ ∀ t ∈ new, TaskOk s' t := by
  cases event with
  | create name uid spec =>
    simp only [env] at h
    split at h <;> cases h
    rename_i hcreate
    simp only [not_or, Bool.not_eq_true, isSome_eq_false_iff,
      isNone_iff_eq_none] at hcreate
    exact ⟨.create name uid spec hcreate.1 hcreate.2, by simp⟩
  | delete =>
    obtain ⟨v, hcell, hv⟩ := map_eq_some_iff.mp h
    split at hv
    · cases hv
      exact ⟨.none, by simp [TaskOk]⟩
    · cases hv
      exact ⟨.none, by simp⟩
  | pass =>
    simp only [env, some.injEq, mk.injEq] at h
    obtain ⟨rfl, rfl⟩ := h
    refine ⟨.none, fun t ht => ?_⟩
    obtain ⟨⟨k, v⟩, hmem, rfl⟩ := mem_map.mp ht
    obtain ⟨hlist, hfinal⟩ := mem_filter.mp hmem
    exact ⟨inv.seen (mem_list.mp hlist), by simpa using hfinal⟩
  | report =>
    obtain ⟨vm, hcell, hv⟩ := map_eq_some_iff.mp h
    cases hv
    exact ⟨.none, by simp [TaskOk]⟩
  | writeVm =>
    simp only [env, some.injEq, mk.injEq] at h
    obtain ⟨rfl, rfl⟩ := h
    exact ⟨.putVm _ _, by simp⟩
  | removeVm =>
    simp only [env, some.injEq, mk.injEq] at h
    obtain ⟨rfl, rfl⟩ := h
    exact ⟨.removeVm _, by simp⟩

private theorem siblings_alone (inv : Inv s) (hm : Seen s m)
    (h : VmMigration.anotherAttemptInFlight (s.records.list.map fun e => e.2.val) m.val = false) :
    Alone s m.val := by
  refine ⟨s.next, hm.created, le_rfl, fun k v hcell hne hvm hfinal => ?_⟩
  have hmem : v.val ∈ s.records.list.map fun e => e.2.val :=
    mem_map.mpr ⟨(k, v), Table.mem_list.mpr hcell, rfl⟩
  have hnone := any_eq_false.mp h _ hmem
  rw [(inv.stored k v hcell).name] at hnone
  simp [hne, hvm, hfinal] at hnone

private theorem prepare_ok (hm : Seen s m) (hkind : m.val.kind = .pending) {vm input}
    (h : prepare m vm input = some next) : ∀ t ∈ next, TaskOk s t := by
  have hfail : ∀ why, TaskOk s (.fail m why) := fun _ => ⟨hm, .inl hkind⟩
  intro t ht
  unfold prepare at h
  split at h
  · cases h
    cases mem_singleton.mp ht
    exact hfail _
  · split at h
    · cases h
      cases mem_singleton.mp ht
      exact hfail _
    · split at h
      · cases h
        cases mem_singleton.mp ht
        exact hfail _
      · split at h <;> cases h
        cases mem_singleton.mp ht
        exact ⟨hm, hkind⟩
      · cases h

variable {source : String} {now : Instant} (timeouts) in
private theorem task_reserve {vm chosen elsewhere} (inv : Inv s)
    (ht : TaskOk s (.reserve m vm source chosen))
    (h : task timeouts s (.reserve m vm source chosen) (.reserved elsewhere now) =
      some (s', next)) : Effect s s' ∧ ∀ u ∈ next, TaskOk s' u := by
  simp only [task] at h
  obtain ⟨hm, hkind, halone⟩ := ht
  split at h
  · cases h
  · rename_i htarget
    refine update_ok inv hm [] (fun new => [.openAt new (elsewhere.getD chosen)])
      (fun _ => .claim vm source _ now hkind htarget halone) ?_ (some.inj h)
    intro s' new _ _ hseen hnew u hu
    cases mem_singleton.mp hu
    exact ⟨hseen, by rw [hnew, claim_kind]⟩

variable {target : String} (timeouts) in
private theorem task_send {peer} (inv : Inv s) (ht : TaskOk s (.send m source target peer))
    (h : task timeouts s (.send m source target peer) (.go now) = some (s', next)) :
    Effect s s' ∧ ∀ u ∈ next, TaskOk s' u := by
  simp only [task] at h
  obtain ⟨hm, hkind, hcancelling⟩ := ht
  refine update_ok inv hm [] (fun new => [.migrateOut new source target])
    (fun _ => .startSending target peer now hkind hcancelling) ?_ (some.inj h)
  intro s' new hcell hs' hseen hnew u hu
  cases mem_singleton.mp hu
  refine ⟨hseen, by rw [hnew, startSending_kind], ?_, ?_⟩
  · rw [hnew]
    simp [startSending, hm.sound.unsent (.inr hkind)]
  · rw [hnew, hs']
    intro hlogged
    have hcancelled := ((inv.stored _ m hcell).unsent
      (by simpa [State.putRecord, startSending] using hlogged)).1
    rw [hcancelling] at hcancelled
    cases hcancelled

variable (timeouts) in
private theorem task_answer {running message} (inv : Inv s)
    (ht : TaskOk s (.answer running source target))
    (h : task timeouts s (.answer running source target) (.cannotSend message) = some (s', next)) :
    Effect s s' ∧ ∀ u ∈ next, TaskOk s' u := by
  simp only [task] at h
  cases h
  have heffect : Effect s _ := .message (.cannotSend running.rev) rfl
  refine ⟨heffect, fun u hu => ?_⟩
  cases mem_singleton.mp hu
  obtain ⟨hm, hkind, hsource, -⟩ := ht
  refine ⟨heffect.seen inv hm, fun _ => ⟨.inr (.inr ⟨hkind, ?_⟩), hsource⟩⟩
  exact mem_append_right _ (mem_singleton.mpr rfl)

variable (timeouts) in
private theorem task_abandon (now) {why} (inv : Inv s) (ht : TaskOk s (.abandon m target why))
    (h : task timeouts s (.abandon m target why) (.go now) = some (s', next)) :
    Effect s s' ∧ ∀ u ∈ next, TaskOk s' u := by
  simp only [task] at h
  obtain ⟨hm, hauthorized⟩ := ht
  split at h
  · cases h
    exact ⟨.none, by simp [TaskOk, unresolvedOf]⟩
  · split at h
    · rename_i hcancelling
      cases h
      exact ⟨.none, forall_mem_singleton.mpr ⟨hm, hcancelling⟩⟩
    · rename_i hcancelling
      have hnot : m.val.status.cancelling = false := by simpa using hcancelling
      refine update_ok inv hm [.cancelled m.val.uid m.val.kind] (fun new => [.cleanup new why])
        (fun _ => .cancel hnot (hauthorized hnot).1 (hauthorized hnot).2) ?_ (some.inj h)
      intro s' new _ _ hseen hnew u hu
      cases mem_singleton.mp hu
      exact ⟨hseen, by rw [hnew]; rfl⟩

variable (timeouts) in
private theorem task_bind (now) {vm} (inv : Inv s) (ht : TaskOk s (.bind m vm target))
    (h : task timeouts s (.bind m vm target) (.go now) = some (s', next)) :
    Effect s s' ∧ ∀ u ∈ next, TaskOk s' u := by
  simp only [task] at h
  obtain ⟨hm, harrived, htarget, hvm⟩ := ht
  split at h
  · rename_i hstands
    cases h
    have hcell := hvm.eq_of_standsAt hstands
    have heffect := Effect.bind m vm target hcell hm harrived
    refine ⟨heffect, fun u hu => ?_⟩
    cases mem_singleton.mp hu
    refine ⟨?_, mem_append_right _ (mem_singleton.mpr rfl), m,
      heffect.seen inv hm, rfl, rfl, harrived⟩
    rintro rfl
    exact hm.sound.target htarget
  · cases h
    exact ⟨.none, by simp⟩

variable (timeouts) in
private theorem task_succeed {name uid vm} (inv : Inv s)
    (ht : TaskOk s (.succeed name uid vm target))
    (h : task timeouts s (.succeed name uid vm target) (.go now) = some (s', next)) :
    Effect s s' ∧ ∀ u ∈ next, TaskOk s' u := by
  simp only [task] at h
  obtain ⟨htarget, hbound, m, hm, hname, huid, harrived⟩ := ht
  split at h
  · rename_i found hfind
    cases h
    obtain ⟨v, hcell, hv, rfl⟩ := State.find_eq hfind
    have hstored := inv.stored name v hcell
    have hlater := hm.later v (hname ▸ hcell) (hv.trans huid.symm)
    have hchange := Change.succeed (s := s) (v := v) vm target now htarget
      (hlater.arrived harrived) (hv ▸ hbound)
    refine ⟨?_, by simp⟩
    rw [← hv]
    exact .write v _ _ (hstored.name ▸ hcell) hchange
  · cases h
    exact ⟨.none, by simp⟩

theorem task_ok {t input} (inv : Inv s) (ht : TaskOk s t)
    (h : task timeouts s t input = some (s', next)) : Effect s s' ∧ ∀ u ∈ next, TaskOk s' u := by
  unfold task at h
  split at h
  · -- step
    cases h
    exact ⟨.none, step_ok inv ht.1 _⟩
  · -- prepare
    obtain ⟨tasks, htasks, hs⟩ := map_eq_some_iff.mp h
    cases hs
    exact ⟨.none, prepare_ok ht.1 ht.2 htasks⟩
  · -- siblings
    split at h
    · cases h
      exact ⟨.none, forall_mem_singleton.mpr ⟨ht.1, .inl ht.2⟩⟩
    · rename_i hnone
      cases h
      exact ⟨.none, forall_mem_singleton.mpr
        ⟨ht.1, ht.2, siblings_alone inv ht.1 (by simpa using hnone)⟩⟩
  · -- reserve, refused
    cases h
    exact ⟨.none, forall_mem_singleton.mpr ⟨ht.1, .inl ht.2.1⟩⟩
  · -- reserve, granted
    exact task_reserve timeouts inv ht h
  · -- openAt, refused
    cases h
    exact ⟨.none, forall_mem_singleton.mpr
      ⟨ht.1, fun _ => ⟨.inl ht.2, by simp [ht.1.sound.unsent (.inr ht.2)]⟩⟩⟩
  · -- openAt, answered
    split at h
    · cases h
      exact ⟨.none, forall_mem_singleton.mpr
        ⟨ht.1, fun _ => ⟨.inl ht.2, by simp [ht.1.sound.unsent (.inr ht.2)]⟩⟩⟩
    · cases h
      exact ⟨.none, by simp [TaskOk]⟩
  · -- peer
    cases h
    exact ⟨mutateIf_effect inv _ _ fun _ _ => .peer _ _ _, by simp⟩
  · -- send
    exact task_send timeouts inv ht h
  · -- migrateOut, sent
    rename_i running source target
    cases h
    have heffect : Effect s _ := .message (.migrateOut running.val.uid) rfl
    exact ⟨heffect, forall_mem_singleton.mpr (heffect.taskOk inv ht)⟩
  · -- migrateOut, lost
    cases h
    exact ⟨.none, by simp [TaskOk, unresolvedOf]⟩
  · -- answer
    cases h
    exact ⟨.none, by simp⟩
  · -- answer, lost
    cases h
    exact ⟨.none, by simp [TaskOk, unresolvedOf]⟩
  · -- answer, cannotSend
    exact task_answer timeouts inv ht h
  · -- abandon
    rename_i now
    exact task_abandon timeouts now inv ht h
  · -- cleanup, sent
    rename_i m why
    cases h
    have heffect : Effect s _ := .message (.cleanup m.val.uid) rfl
    exact ⟨heffect, forall_mem_singleton.mpr (heffect.taskOk inv ht)⟩
  · -- cleanup, lost
    cases h
    exact ⟨.none, by simp [TaskOk, unresolvedOf]⟩
  · -- cleaned
    cases h
    exact ⟨.none, forall_mem_singleton.mpr ⟨ht.1, .inr ht.2⟩⟩
  · -- cleaned, lost
    cases h
    exact ⟨.none, by simp [TaskOk, unresolvedOf]⟩
  · -- fail
    rename_i m why now
    refine update_ok inv ht.1 [.ended m.val.uid .failed] (fun _ => [])
      (fun _ => .fail why now ht.2) (by simp) (some.inj h)
  · -- unresolved
    cases h
    exact ⟨mutateIf_effect inv _ _ fun _ _ => .unresolved _ _, by simp⟩
  · -- bind
    rename_i now
    exact task_bind timeouts now inv ht h
  · -- succeed
    exact task_succeed timeouts inv ht h
  · -- ingest
    cases h
    refine ⟨.none, fun u hu => ?_⟩
    obtain ⟨e, -, rfl⟩ := mem_map.mp hu
    trivial
  · -- report
    cases h
    exact ⟨mutateIf_effect inv _ _ fun _ _ => .report _ _ _, by simp⟩
  · -- remove
    split at h
    · cases h
      exact ⟨.remove _, by simp⟩
    · cases h
      exact ⟨.none, by simp⟩
  · cases h

theorem outline : (program timeouts).Outline (Guard.all _ _ _ _) Inv TaskOk where
  env inv _ h := by
    obtain ⟨heffect, hnew⟩ := env_ok inv h
    exact ⟨heffect.inv inv, hnew, fun _ => heffect.taskOk inv⟩
  task inv ht _ h := by
    obtain ⟨heffect, hnew⟩ := task_ok inv ht h
    exact ⟨heffect.inv inv, hnew, fun _ => heffect.taskOk inv⟩

end Steps

end MeisterStack.ClusterController.Migration
