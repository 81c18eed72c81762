import MeisterStack.Foundation.History
import MeisterStack.Foundation.Registry
import MeisterStack.CloudController.VolumeRecords

/-!
# Whose report removes a snapshot

A snapshot is dispatched to the cluster that the pool of its volume names, and removed on the report
of the cluster that its volume's record is at. The two agree while the record has not moved.
`origin` is where the route led when the snapshot was made.
-/

namespace MeisterStack.CloudController.VolumeRecords

open Foundation ControllerApi List Option Table Program State Deletion

def route (s : State) (volume : String) : Option String :=
  let cluster := (s.volumes.cell volume).bind fun v =>
    (s.pools.cell v.val.pool).map fun p => p.val.cluster
  cluster.filter (· ≠ "")

structure Dispatches where
  sent : List (String × String)
  origin : List (String × Option String)

def Dispatches.originOf (l : Dispatches) (uid : String) : Option String :=
  (l.origin.lookup uid).join

def Dispatches.last (l : Dispatches) (uid : String) : Option String := l.sent.lookup uid

def Event.snapshot : Event → Option (String × String)
  | .createSnapshot _ uid volume => some (uid, volume)
  | _ => none

def dispatches : Observer State Task Event Input Dispatches where
  env s event l :=
    match event.snapshot with
    | some (uid, volume) => { l with origin := (uid, route s volume) :: l.origin }
    | none => l
  task _ t input l :=
    match t, input with
    | .sendSnapshot _ uid cluster, .go | .sendSnapshot _ uid cluster, .refused
    | .sendSnapshot _ uid cluster, .lost => { l with sent := (uid, cluster) :: l.sent }
    | _, _ => l

def dispatched : Program (State × Dispatches) Task Event Input := program.observed dispatches

def unmoved : Guard (State × Dispatches) Task Event Input where
  env s event :=
    match event with
    | .createVolume name _ _ => ∀ e ∈ s.1.snapshots.list, e.2.val.volume ≠ name
    | .createPool name _ => ∀ e ∈ s.1.volumes.list, e.2.val.pool ≠ name
    | _ => True
  task s t _ :=
    match t with
    | .ourSnapshots cluster _ records => ∀ e ∈ s.1.snapshots.list,
        records.lookup e.2.val.volume = some cluster → route s.1 e.2.val.volume = some cluster
    | _ => True

instance (s event) : Decidable (unmoved.env s event) := by
  cases event <;> dsimp only [unmoved] <;> infer_instance

instance (s t input) : Decidable (unmoved.task s t input) := by
  cases t <;> dsimp only [unmoved] <;> infer_instance

inductive Effect (s : State) : Option (String × String) → State → Prop
  | same : Effect s none s
  | madePool {name : String} {spec : StoragePoolSpec} :
      (∀ volume v, s.volumes.cell volume = some v → v.val.pool ≠ name) →
      Effect s none (s.putPool name spec)
  | keptPool {name : String} {v : Versioned StoragePoolSpec} {spec : StoragePoolSpec} :
      s.pools.cell name = some v → spec.cluster = v.val.cluster →
      Effect s none (s.putPool name spec)
  | removedPool {name : String} :
      Effect s none { s with next := s.next + 1, pools := s.pools.remove name }
  | madeVolume {name uid pool : String} :
      (∀ k v, s.snapshots.cell k = some v → v.val.volume ≠ name) →
      Effect s none
        { s.putVolume name ⟨uid, pool, 1, none, none, none, 0⟩ with drawn := uid :: s.drawn }
  | keptVolume {name : String} {v : Versioned Volume} {x : Volume} :
      s.volumes.cell name = some v → x.pool = v.val.pool → Effect s none (s.putVolume name x)
  | removedVolume {name : String} :
      Effect s none { s with next := s.next + 1, volumes := s.volumes.remove name }
  | madeSnapshot {name uid volume : String} : s.snapshots.cell name = none → uid ∉ s.drawn →
      Effect s (some (uid, volume))
        { s.putSnapshot name ⟨uid, volume, none, none⟩ with drawn := uid :: s.drawn }
  | keptSnapshot {name : String} {v : Versioned VolumeSnapshot} {x : VolumeSnapshot} :
      s.snapshots.cell name = some v → x.uid = v.val.uid → x.volume = v.val.volume →
      Effect s none (s.putSnapshot name x)
  | removedSnapshot {name : String} :
      Effect s none { s with next := s.next + 1, snapshots := s.snapshots.remove name }

variable {s : State} {name uid : String}

theorem mutateVolume_effect {edit} (hpool : ∀ v, (edit v).pool = v.pool) :
    Effect s none (s.mutateVolume name uid edit) := by
  unfold mutateVolume
  split
  · rename_i v hv
    split
    · exact .keptVolume hv (hpool v.val)
    · exact .same
  · exact .same

variable {edit : VolumeSnapshot → VolumeSnapshot}

theorem mutateSnapshot_effect
    (huid : ∀ v, (edit v).uid = v.uid) (hvolume : ∀ v, (edit v).volume = v.volume) :
    Effect s none (s.mutateSnapshot name uid edit) := by
  unfold mutateSnapshot
  split
  · rename_i v hv
    split
    · exact .keptSnapshot hv (huid v.val) (hvolume v.val)
    · exact .same
  · exact .same

variable {s' : State}

theorem task_effect {t input next} (h : task s t input = some (s', next)) : Effect s none s' := by
  cases input with
  | refused | fail | lost =>
    cases t <;> cases h <;> exact .same
  | go =>
    cases t with
    | noteDispatched | move =>
      cases h
      exact mutateVolume_effect fun _ => rfl
    | observeVolume =>
      cases h
      refine mutateVolume_effect fun v => ?_
      split <;> rfl
    | finishVolume | finishSnapshot =>
      simp only [task, finishVolume, finishSnapshot, some.injEq] at h
      split at h <;> cases h
      · first | exact .removedVolume | exact .removedSnapshot
      · exact .same
      · exact .same
    | observeSnapshot =>
      cases h
      refine mutateSnapshot_effect (fun v => ?_) fun v => ?_ <;> split <;> rfl
    | _ =>
      cases h
      exact .same

theorem env_effect {l event new} (hguard : unmoved.env (s, l) event)
    (h : env s event = some (s', new)) : Effect s event.snapshot s' := by
  cases event with
  | createPool | createVolume =>
    simp only [env] at h
    split at h <;> cases h
    first
    | exact .madePool fun k v hv => hguard (k, v) (mem_list.mpr hv)
    | exact .madeVolume fun k v hv => hguard (k, v) (mem_list.mpr hv)
  | updatePool =>
    obtain ⟨v, hv, heq⟩ := bind_eq_some_iff.mp h
    split at heq <;> cases heq
    rename_i hcluster
    exact .keptPool hv (not_not.mp hcluster)
  | removePool =>
    obtain ⟨v, hv, ⟨⟩⟩ := bind_eq_some_iff.mp h
    exact .removedPool
  | createSnapshot =>
    simp only [env] at h
    split at h <;> cases h
    rename_i hfree
    simp only [Bool.or_eq_true, not_or, Bool.not_eq_true, isSome_eq_false_iff,
      isNone_iff_eq_none, contains_eq_mem, decide_eq_false_iff_not] at hfree
    exact .madeSnapshot hfree.1 hfree.2
  | editVolume | deleteVolume =>
    obtain ⟨v, hv, ⟨⟩⟩ := bind_eq_some_iff.mp h
    exact .keptVolume hv rfl
  | deleteSnapshot =>
    obtain ⟨v, hv, ⟨⟩⟩ := bind_eq_some_iff.mp h
    exact .keptSnapshot hv rfl rfl
  | dispatchVolume | dispatchSnapshot | moveVolume =>
    obtain ⟨v, hv, ⟨⟩⟩ := bind_eq_some_iff.mp h
    exact .same
  | ingest =>
    cases h
    exact .same

def identity : Identity VolumeSnapshot String where
  uid := VolumeSnapshot.uid
  Keeps v v' := v'.uid = v.uid ∧ v'.volume = v.volume
  refl _ := ⟨rfl, rfl⟩
  trans h h' := ⟨h'.1.trans h.1, h'.2.trans h.2⟩
  uid_eq h := h.1

def State.registry (s : State) : Registry String VolumeSnapshot String := ⟨s.snapshots, s.drawn⟩

abbrev Ok (s : State) : Prop := Registry.Sound identity s.registry s.next

section Effects

variable {s s' : State} {made : Option (String × String)}

theorem Effect.commit (h : Effect s made s') :
    Registry.Commit identity s.registry s.next s'.registry s'.next := by
  cases h with
  | same => exact .same le_rfl
  | madePool | keptPool | removedPool | keptVolume | removedVolume => exact .same (Nat.le_succ _)
  | madeVolume => exact .drew (Nat.le_succ _)
  | @madeSnapshot name uid volume habsent hfresh =>
    exact .made (x := (⟨uid, volume, none, none⟩ : VolumeSnapshot)) habsent hfresh
  | keptSnapshot hv huid hvolume => exact .edited hv ⟨huid, hvolume⟩
  | removedSnapshot => exact .removed

theorem Effect.change (h : Effect s made s') : Registry.Change identity s.registry s'.registry :=
  h.commit.change

theorem Effect.volume (h : Effect s made s') {name v'} (hv' : s'.volumes.cell name = some v')
    (hnamed : ∃ k x, s.snapshots.cell k = some x ∧ x.val.volume = name) :
    ∃ v, s.volumes.cell name = some v ∧ v'.val.pool = v.val.pool := by
  cases h with
  | same | madePool | keptPool | removedPool | madeSnapshot | keptSnapshot | removedSnapshot =>
    exact ⟨v', hv', rfl⟩
  | madeVolume hfree =>
    rcases cell_put_cases hv' with ⟨rfl, -⟩ | ⟨-, hv'⟩
    · obtain ⟨k, x, hx, hvolume⟩ := hnamed
      exact absurd hvolume (hfree k x hx)
    · exact ⟨v', hv', rfl⟩
  | keptVolume hv hpool =>
    rcases cell_put_cases hv' with ⟨rfl, rfl⟩ | ⟨-, hv'⟩
    · exact ⟨_, hv, hpool⟩
    · exact ⟨v', hv', rfl⟩
  | removedVolume => exact ⟨v', (cell_of_remove hv').2, rfl⟩

variable {volume : String}

theorem route_iff {cluster} :
    route s volume = some cluster ↔ cluster ≠ "" ∧ ∃ v p, s.volumes.cell volume = some v ∧
      s.pools.cell v.val.pool = some p ∧ p.val.cluster = cluster := by
  simp only [route, filter_eq_some_iff, bind_eq_some_iff, map_eq_some_iff,
    decide_eq_true_eq]
  tauto

theorem Effect.pool (h : Effect s made s') {v} (hv : s.volumes.cell volume = some v) {p'}
    (hp' : s'.pools.cell v.val.pool = some p') :
    ∃ p, s.pools.cell v.val.pool = some p ∧ p'.val.cluster = p.val.cluster := by
  cases h with
  | same | madeVolume | keptVolume | removedVolume | madeSnapshot | keptSnapshot
  | removedSnapshot => exact ⟨p', hp', rfl⟩
  | madePool hfree =>
    rcases cell_put_cases hp' with ⟨hname, -⟩ | ⟨-, hp'⟩
    · exact absurd hname (hfree volume v hv)
    · exact ⟨p', hp', rfl⟩
  | keptPool hp hcluster =>
    rcases cell_put_cases hp' with ⟨hname, rfl⟩ | ⟨-, hp'⟩
    · rw [hname]
      exact ⟨_, hp, hcluster⟩
    · exact ⟨p', hp', rfl⟩
  | removedPool => exact ⟨p', (cell_of_remove hp').2, rfl⟩

theorem Effect.route (h : Effect s made s') {cluster}
    (hnamed : ∃ k x, s.snapshots.cell k = some x ∧ x.val.volume = volume)
    (hroute : route s' volume = some cluster) : route s volume = some cluster := by
  obtain ⟨hne, v', p', hv', hp', rfl⟩ := route_iff.mp hroute
  obtain ⟨v, hv, hpool⟩ := h.volume hv' hnamed
  rw [hpool] at hp'
  obtain ⟨p, hp, hcluster⟩ := h.pool hv hp'
  exact route_iff.mpr ⟨hne, v, p, hv, hp, hcluster.symm⟩

theorem Effect.drawn_of_none (h : Effect s none s') (hs : Ok s) {name v}
    (hv : s'.snapshots.cell name = some v) : v.val.uid ∈ s.drawn := by
  cases h with
  | same | madePool | keptPool | removedPool | madeVolume | keptVolume | removedVolume =>
    exact hs.drawn name v hv
  | keptSnapshot hw huid =>
    rcases cell_put_cases hv with ⟨rfl, rfl⟩ | ⟨-, hv⟩
    · rw [huid]
      exact hs.drawn _ _ hw
    · exact hs.drawn name v hv
  | removedSnapshot => exact hs.drawn name v (cell_of_remove hv).2

theorem Effect.of_some {uid} (h : Effect s (some (uid, volume)) s') :
    uid ∉ s.drawn ∧ s'.volumes = s.volumes ∧ s'.pools = s.pools ∧
      ∀ name v, s'.snapshots.cell name = some v →
        s.snapshots.cell name = some v ∨ v.val.uid = uid ∧ v.val.volume = volume := by
  cases h with
  | madeSnapshot habsent hfresh =>
    refine ⟨hfresh, rfl, rfl, fun name v hv => ?_⟩
    rcases cell_put_cases hv with ⟨rfl, rfl⟩ | ⟨-, hv⟩
    · exact .inr ⟨rfl, rfl⟩
    · exact .inl hv

end Effects

abbrev Stored (s : State) (uid : String) : Prop := Registry.Stored identity s.registry uid

abbrev Is (s : State) (name : String) (v : VolumeSnapshot) : Prop :=
  Registry.Is identity s.registry name v

structure Agreed (s : State × Dispatches) : Prop where
  ok : Ok s.1
  routes : ∀ name v, s.1.snapshots.cell name = some v → ∀ cluster,
    route s.1 v.val.volume = some cluster → s.2.originOf v.val.uid = some cluster
  sent : ∀ uid cluster, (uid, cluster) ∈ s.2.sent → uid ∈ s.1.drawn ∧
    (Stored s.1 uid → s.2.originOf uid = some cluster)

def RouteOk (s : State × Dispatches) : Task → Prop
  | .listPools name v _ => Is s.1 name v
  | .listVolumes name v _ pools => Is s.1 name v ∧ (Stored s.1 v.uid →
      ∀ w, s.1.volumes.cell v.volume = some w → ∀ cluster,
        pools.lookup w.val.pool = some cluster → cluster ≠ "" →
          s.2.originOf v.uid = some cluster)
  | .sendSnapshot _ uid cluster =>
    uid ∈ s.1.drawn ∧ (Stored s.1 uid → s.2.originOf uid = some cluster)
  | .finishSnapshot name cluster r d =>
    d.checked.val.uid ∈ s.1.drawn ∧ d.checked.val.uid ∉ r.snapshots ∧
      (Stored s.1 d.checked.val.uid → s.2.originOf d.checked.val.uid = some cluster) ∧
      d.Judges VolumeSnapshot.uid (s.1.snapshots.cell name) s.1.next
  | _ => True

structure Later (s : State × Dispatches) (made : Option (String × String))
    (s' : State × Dispatches) : Prop where
  effect : Effect s.1 made s'.1
  origin : ∀ uid ∈ s.1.drawn, s'.2.originOf uid = s.2.originOf uid

section Steps

variable {s s' : State × Dispatches} {made : Option (String × String)}

theorem Later.origin_of_stored (h : Later s made s') {uid cluster} (huid : uid ∈ s.1.drawn)
    (hold : Stored s.1 uid → s.2.originOf uid = some cluster) (hstored : Stored s'.1 uid) :
    s'.2.originOf uid = some cluster := by
  rw [h.origin uid huid]
  exact hold (h.effect.change.stored huid hstored)

theorem RouteOk.keep (h : Later s made s') {t} (ht : RouteOk s t) : RouteOk s' t := by
  cases t with
  | listPools => exact h.effect.change.is ht
  | listVolumes name v =>
    obtain ⟨his, hroute⟩ := ht
    refine ⟨h.effect.change.is his, fun hstored w' hw' cluster hlookup hne => ?_⟩
    have hbefore := h.effect.change.stored his.1 hstored
    -- the snapshot is still the one that was listed, so no other volume came under its name
    have hnamed : ∃ k x, s.1.snapshots.cell k = some x ∧ x.val.volume = v.volume := by
      obtain ⟨k, x, hx, huid⟩ := hbefore
      exact ⟨k, x, hx, (his.2 k x hx huid).2.2⟩
    obtain ⟨w, hw, hpool⟩ := h.effect.volume hw' hnamed
    rw [hpool] at hlookup
    rw [h.origin v.uid his.1]
    exact hroute hbefore w hw cluster hlookup hne
  | sendSnapshot =>
    exact ⟨h.effect.change.drawn_subset ht.1, h.origin_of_stored ht.1 ht.2⟩
  | finishSnapshot =>
    obtain ⟨hdrawn, hunnamed, horigin, hjudges⟩ := ht
    refine ⟨h.effect.change.drawn_subset hdrawn, hunnamed, h.origin_of_stored hdrawn horigin, ?_⟩
    exact hjudges.keep fun v => h.effect.commit.saw
  | _ => trivial

theorem Agreed.keep (hs : Agreed s) (h : Later s made s')
    (hmade : ∀ name v, s'.1.snapshots.cell name = some v → v.val.uid ∉ s.1.drawn →
      s'.2.originOf v.val.uid = route s'.1 v.val.volume)
    (hsent : ∀ uid cluster, (uid, cluster) ∈ s'.2.sent → (uid, cluster) ∈ s.2.sent ∨
      uid ∈ s.1.drawn ∧ (Stored s.1 uid → s.2.originOf uid = some cluster)) : Agreed s' := by
  refine ⟨h.effect.commit.sound hs.ok, fun name v hv cluster hroute => ?_,
    fun uid cluster hmem => ?_⟩
  · rcases h.effect.change.cell hv with ⟨v0, hv0, huid, hvolume⟩ | ⟨-, hfresh, -⟩
    · have hdrawn : v0.val.uid ∈ s.1.drawn := hs.ok.drawn name v0 hv0
      rw [hvolume] at hroute
      rw [huid, h.origin _ hdrawn]
      exact hs.routes name v0 hv0 cluster (h.effect.route ⟨name, v0, hv0, rfl⟩ hroute)
    · rw [hmade name v hv hfresh]
      exact hroute
  · have hbefore : uid ∈ s.1.drawn ∧ (Stored s.1 uid → s.2.originOf uid = some cluster) :=
      (hsent uid cluster hmem).elim (hs.sent uid cluster) id
    exact ⟨h.effect.change.drawn_subset hbefore.1, h.origin_of_stored hbefore.1 hbefore.2⟩

theorem Agreed.origin_of_route (hs : Agreed s) {name cluster v} (his : Is s.1 name v)
    (hroute : route s.1 v.volume = some cluster) (hstored : Stored s.1 v.uid) :
    s.2.originOf v.uid = some cluster := by
  obtain ⟨k, x, hx, huid⟩ := hstored
  obtain ⟨-, hkeeps⟩ := his.2 k x hx huid
  have huid : x.val.uid = v.uid := huid
  rw [← huid]
  apply hs.routes k x hx cluster
  rw [hkeeps.2]
  exact hroute

end Steps

section Step

variable {s s' : State × Dispatches} {event : Event} {new : List Task}

theorem env_later (hguard : unmoved.env s event)
    (h : dispatched.env s event = some (s', new)) : Later s event.snapshot s' := by
  obtain ⟨hstep, hledger⟩ := observed_env h
  have heffect : Effect s.1 event.snapshot s'.1 := env_effect (l := s.2) hguard hstep
  refine ⟨heffect, fun uid huid => ?_⟩
  simp only [dispatches] at hledger
  split at hledger
  · rename_i fresh volume hmade
    rw [hmade] at heffect
    have hne : uid ≠ fresh := fun heq => heffect.of_some.1 (heq ▸ huid)
    rw [hledger]
    simp only [Dispatches.originOf, lookup_cons, beq_false_of_ne hne]
  · rw [hledger]

theorem env_agreed (hs : Agreed s)
    (hguard : unmoved.env s event) (h : dispatched.env s event = some (s', new)) : Agreed s' := by
  have hlater := env_later hguard h
  have hledger := (observed_env h).2
  simp only [dispatches] at hledger
  split at hledger
  · rename_i uid volume hmade
    rw [hmade] at hlater
    obtain ⟨-, hvolumes, hpools, hcells⟩ := hlater.effect.of_some
    refine hs.keep hlater (fun name v hv hfresh => ?_) fun uid cluster hmem => ?_
    · rcases hcells name v hv with hold | ⟨huid, hvolume⟩
      · exact absurd (hs.ok.drawn name v hold) hfresh
      · rw [hledger, huid, hvolume]
        simp [Dispatches.originOf, route, hvolumes, hpools]
    · rw [hledger] at hmem
      exact .inl hmem
  · rename_i hmade
    rw [hmade] at hlater
    refine hs.keep hlater (fun name v hv hfresh => ?_) fun uid cluster hmem => ?_
    · exact absurd (hlater.effect.drawn_of_none hs.ok hv) hfresh
    · rw [hledger] at hmem
      exact .inl hmem

theorem env_routeOk (hs : Agreed s)
    (h : dispatched.env s event = some (s', new)) : ∀ t ∈ new, RouteOk s' t := by
  intro t ht
  obtain ⟨s', l'⟩ := s'
  have hstep := (observed_env h).1
  cases event with
  | createPool | createVolume | createSnapshot =>
    simp only [program, env] at hstep
    split at hstep <;> cases hstep
    cases ht
  | updatePool =>
    obtain ⟨v, hv, heq⟩ := bind_eq_some_iff.mp hstep
    split at heq <;> cases heq
    cases ht
  | ingest =>
    cases hstep
    simp only [mem_cons, not_mem_nil, or_false] at ht
    rcases ht with rfl | rfl <;> trivial
  | dispatchSnapshot =>
    obtain ⟨v, hv, ⟨⟩⟩ := bind_eq_some_iff.mp hstep
    cases mem_singleton.mp ht
    exact hs.ok.is hv
  | dispatchVolume | moveVolume =>
    obtain ⟨v, hv, ⟨⟩⟩ := bind_eq_some_iff.mp hstep
    cases mem_singleton.mp ht
    trivial
  | removePool | editVolume | deleteVolume | deleteSnapshot =>
    obtain ⟨v, hv, ⟨⟩⟩ := bind_eq_some_iff.mp hstep
    cases ht

variable {t : Task} {input : Input} {next : List Task}

theorem task_later (h : dispatched.task s t input = some (s', next)) : Later s none s' := by
  obtain ⟨hstep, hledger⟩ := observed_task h
  refine ⟨task_effect hstep, fun uid _ => ?_⟩
  rw [hledger]
  simp only [dispatches]
  split <;> rfl

theorem task_agreed (hs : Agreed s)
    (ht : RouteOk s t) (h : dispatched.task s t input = some (s', next)) : Agreed s' := by
  have hlater := task_later h
  have hledger := (observed_task h).2
  refine hs.keep hlater (fun name v hv hfresh => ?_) fun uid cluster hmem => ?_
  · exact absurd (hlater.effect.drawn_of_none hs.ok hv) hfresh
  · rw [hledger] at hmem
    simp only [dispatches] at hmem
    split at hmem
    case h_4 => exact .inl hmem
    all_goals
      rcases mem_cons.mp hmem with heq | hmem
      · cases heq
        exact .inr ht
      · exact .inl hmem

theorem finish_routeOk {name cluster r d state} (hs : Agreed s)
    (ht : RouteOk s (.finishSnapshot name cluster r d))
    (h : finishSnapshot s.1 name cluster r d = (state, next)) :
    ∀ u ∈ next, RouteOk (state, s.2) u := by
  intro u hu
  unfold finishSnapshot at h
  split at h <;> cases h
  · cases hu
  · cases hu
  · rename_i d' hagain
    cases mem_singleton.mp hu
    obtain ⟨hdrawn, hunnamed, horigin, -⟩ := ht
    simp only [RouteOk, (finishDelete_again hagain).1]
    exact ⟨hdrawn, hunnamed, horigin, judges_again (hs.ok.below name) hagain⟩

theorem task_routeOk (hs : Agreed s) (ht : RouteOk s t) (hguard : unmoved.task s t input)
    (h : dispatched.task s t input = some (s', next)) : ∀ u ∈ next, RouteOk s' u := by
  intro u hu
  obtain ⟨s', l'⟩ := s'
  obtain ⟨hstep, hledger⟩ := observed_task h
  cases input with
  | fail | lost => cases t <;> cases hstep <;> cases hu
  | refused =>
    cases t with
    | sendCreate | sendRelease =>
      cases hstep
      cases mem_singleton.mp hu
      trivial
    | _ =>
      cases hstep
      cases hu
  | go =>
    cases t with
    | listPools =>
      cases hstep
      cases hledger
      cases mem_singleton.mp hu
      refine ⟨ht, fun hstored w hw cluster hlookup hne => ?_⟩
      obtain ⟨p, hp, hcluster⟩ := lookup_map_list (f := StoragePoolSpec.cluster) hlookup
      exact hs.origin_of_route ht (route_iff.mpr ⟨hne, w, p, hw, hp, hcluster⟩) hstored
    | listVolumes =>
      cases hstep
      cases hledger
      obtain ⟨w, cluster, rfl, hw, hlookup, hne⟩ := mem_dispatchSnapshot hu
      exact ⟨ht.1.1, fun hstored => ht.2 hstored w hw cluster hlookup hne⟩
    | ourSnapshots =>
      cases hstep
      cases hledger
      obtain ⟨e, he, heq⟩ := mem_map.mp hu
      obtain ⟨he, hrecord⟩ := mem_filter.mp he
      have hcell := mem_list.mp he
      split at heq
      · cases heq
        trivial
      · rename_i hunnamed
        cases heq
        have his := hs.ok.is hcell
        have hroute := hguard e he (of_decide_eq_true hrecord)
        refine ⟨his.1, ?_, hs.origin_of_route his hroute, ?_⟩
        · simpa [of] using hunnamed
        · exact judges_of (hs.ok.saw hcell)
    | finishSnapshot =>
      cases hledger
      exact finish_routeOk hs ht (some.inj hstep) u hu
    | listHomes =>
      cases hstep
      obtain ⟨cluster, rfl⟩ := mem_dispatchVolume hu
      trivial
    | readPool =>
      cases hstep
      rcases mem_readPool hu with rfl | ⟨here, rfl⟩ <;> trivial
    | ourVolumes =>
      cases hstep
      obtain ⟨e, he, heq⟩ := mem_map.mp hu
      split at heq <;> cases heq <;> trivial
    | finishVolume =>
      simp only [program, task, finishVolume, some.injEq] at hstep
      split at hstep <;> cases hstep
      · cases hu
      · cases hu
      · cases mem_singleton.mp hu
        trivial
    | sendCreate | sendRelease | volumeHomes | snapshotHomes | snapshotVolumes =>
      cases hstep
      cases mem_singleton.mp hu
      trivial
    | noteDispatched | move | observeVolume | observeSnapshot | sendSnapshot =>
      cases hstep
      cases hu

end Step

theorem routesOutline : dispatched.Outline unmoved Agreed RouteOk where
  env hs hguard h :=
    ⟨env_agreed hs hguard h, env_routeOk hs h, fun _ ht => ht.keep (env_later hguard h)⟩
  task hs ht hguard h :=
    ⟨task_agreed hs ht h, task_routeOk hs ht hguard h, fun _ hu => hu.keep (task_later h)⟩

theorem env_keeps_snapshot {event new} (h : env s event = some (s', new))
    (hgone : s'.snapshots.cell name = none) : s.snapshots.cell name = none := by
  cases event with
  | createPool | createVolume =>
    simp only [env] at h
    split at h <;> cases h
    exact hgone
  | createSnapshot =>
    simp only [env] at h
    split at h <;> cases h
    exact cell_of_put_none hgone
  | updatePool =>
    obtain ⟨w, hw, heq⟩ := bind_eq_some_iff.mp h
    split at heq <;> cases heq
    exact hgone
  | deleteSnapshot =>
    obtain ⟨w, hw, ⟨⟩⟩ := bind_eq_some_iff.mp h
    exact cell_of_put_none hgone
  | ingest =>
    cases h
    exact hgone
  | _ =>
    obtain ⟨w, hw, ⟨⟩⟩ := bind_eq_some_iff.mp h
    exact hgone

theorem mutateVolume_snapshots {edit} : (s.mutateVolume name uid edit).snapshots = s.snapshots := by
  unfold mutateVolume
  split
  · split <;> rfl
  · rfl

theorem mutateSnapshot_keeps {k}
    (hgone : (s.mutateSnapshot name uid edit).snapshots.cell k = none) :
    s.snapshots.cell k = none := by
  unfold mutateSnapshot at hgone
  split at hgone
  · split at hgone
    · exact cell_of_put_none hgone
    · exact hgone
  · exact hgone

theorem task_removes_snapshot {t input next} (h : task s t input = some (s', next))
    (hgone : s'.snapshots.cell name = none) : s.snapshots.cell name = none ∨
      ∃ cluster r d, t = .finishSnapshot name cluster r d ∧ input = .go ∧
        finishDelete VolumeSnapshot.uid
          (fun v => v.volume = d.checked.val.volume && snapshotGone v r) (s.snapshots.cell name) d =
            .removed := by
  cases input with
  | refused | fail | lost => cases t <;> cases h <;> exact .inl hgone
  | go =>
    cases t with
    | finishSnapshot k cluster r d =>
      simp only [task, finishSnapshot, some.injEq] at h
      split at h <;> cases h
      · rename_i hremoved
        by_cases hname : name = k
        · subst hname
          exact .inr ⟨cluster, r, d, rfl, rfl, hremoved⟩
        · rw [cell_remove_ne _ hname] at hgone
          exact .inl hgone
      · exact .inl hgone
      · exact .inl hgone
    | observeSnapshot =>
      cases h
      exact .inl (mutateSnapshot_keeps hgone)
    | finishVolume =>
      simp only [task, finishVolume, some.injEq] at h
      split at h <;> cases h <;> exact .inl hgone
    | noteDispatched | move | observeVolume =>
      cases h
      rw [← mutateVolume_snapshots]
      exact .inl hgone
    | _ =>
      cases h
      exact .inl hgone

def empty : World (State × Dispatches) Task := ⟨(⟨0, [], ∅, ∅, ∅⟩, ⟨[], []⟩), []⟩

theorem empty_holds : Holds Agreed RouteOk empty := by
  refine ⟨⟨⟨?_, ?_, ?_⟩, ?_, ?_⟩, by simp [empty]⟩
  · rintro k v ⟨⟩
  · rintro k v ⟨⟩
  · rintro k k' v v' ⟨⟩
  · rintro name v ⟨⟩
  · intro uid cluster hmem
    cases hmem

/-- In every run: a snapshot leaves the store only on a complete report that does not name it, and
only on one of the cluster its creation was last sent to, if it was sent. Provided no volume comes
under a name that a snapshot has and no pool under one that a volume has, and every report is
ingested while the volumes it is ingested for have a pool that names the cluster. -/
theorem snapshot_removed_by_holder {ms : List (Move Event Input)} {m : Move Event Input}
    {w w' : World (State × Dispatches) Task} (hmeets : dispatched.RunMeets unmoved empty ms)
    (hrun : dispatched.run empty ms = some w) (hstep : dispatched.step w m = some w')
    {name : String} {v : Versioned VolumeSnapshot} (hv : w.shared.1.snapshots.cell name = some v)
    (hgone : w'.shared.1.snapshots.cell name = none) :
    ∃ index cluster r d, m = .task index .go ∧
      w.tasks[index]? = some (.finishSnapshot name cluster r d) ∧ r.snapshotsComplete ∧
      v.val.uid ∉ r.snapshots ∧ ∀ c, w.shared.2.last v.val.uid = some c → c = cluster := by
  rcases dispatched.step_cases hstep with ⟨event, new, rfl, henv, -⟩ |
    ⟨index, input, t, next, rfl, ht, htask, -⟩ | ⟨index, rfl, hshared, -⟩
  · rw [env_keeps_snapshot (observed_env henv).1 hgone] at hv
    cases hv
  · rcases task_removes_snapshot (observed_task htask).1 hgone with
      habsent | ⟨cluster, r, d, rfl, rfl, hremoved⟩
    · rw [habsent] at hv
      cases hv
    obtain ⟨hs, htasks⟩ := routesOutline.run empty_holds hmeets hrun
    obtain ⟨-, hunnamed, horigin, hjudges⟩ := htasks _ (mem_of_getElem? ht)
    obtain ⟨huid, hconcluded⟩ := hjudges.removed hremoved hv
    simp only [snapshotGone, Bool.and_eq_true, decide_eq_true_eq] at hconcluded
    refine ⟨index, cluster, r, d, rfl, ht, hconcluded.2.1.2, huid ▸ hunnamed, fun c hc => ?_⟩
    have hstored : Stored w.shared.1 v.val.uid := ⟨name, v, hv, rfl⟩
    have hsent := (hs.sent v.val.uid c (mem_of_lookup_eq_some hc)).2 hstored
    rw [huid] at hsent hstored
    exact some.inj (hsent.symm.trans (horigin hstored))
  · rw [hshared, hv] at hgone
    cases hgone

def onTwoClusters : StoragePoolSpec := ⟨"nfs", [], false, "c", ["d"]⟩

def takenAtC : List (Move Event Input) :=
  [.env (.createPool "p" onTwoClusters), .env (.createVolume "v" "u" "p"),
    .env (.createSnapshot "x" "ux" "v"), .env (.dispatchSnapshot "x" ["c"]), .task 0 .go,
    .task 0 .go, .task 0 .go]

def reportedGone (cluster : String) : List (Move Event Input) :=
  [.env (.deleteSnapshot "x" 1), .env (.ingest cluster ⟨[], false, [], true, 2⟩), .task 1 .go,
    .task 1 .go, .task 1 .go]

def movedToD : List (Move Event Input) :=
  [.env (.moveVolume "v" "d"), .task 0 .go, .task 0 .go, .task 0 .go]

theorem snapshot_removed_by_holder_unmoved :
    ∃ w w' v, dispatched.run empty (takenAtC ++ reportedGone "c") = some w ∧
      dispatched.step w (.task 1 .go) = some w' ∧ w.shared.1.snapshots.cell "x" = some v ∧
      w'.shared.1.snapshots.cell "x" = none ∧ w.shared.2.last v.val.uid = some "c" ∧
      ∃ r d, w.tasks[1]? = some (.finishSnapshot "x" "c" r d) ∧ r.snapshotsComplete ∧
        v.val.uid ∉ r.snapshots := by
  have hmeets : dispatched.RunMeets unmoved empty (takenAtC ++ reportedGone "c") := by decide
  obtain ⟨w, hrun, hv, hlast⟩ : ∃ w,
      dispatched.run empty (takenAtC ++ reportedGone "c") = some w ∧
      w.shared.1.snapshots.cell "x" = some ⟨3, ⟨"ux", "v", some 1, none⟩⟩ ∧
      w.shared.2.last "ux" = some "c" := ⟨_, rfl, rfl, rfl⟩
  obtain ⟨w', hstep, hgone⟩ : ∃ w', dispatched.step w (.task 1 .go) = some w' ∧
      w'.shared.1.snapshots.cell "x" = none := by
    cases hrun
    exact ⟨_, rfl, rfl⟩
  obtain ⟨index, cluster, r, d, hm, ht, hcomplete, hunnamed, hholder⟩ :=
    snapshot_removed_by_holder hmeets hrun hstep hv hgone
  cases hm
  obtain rfl := hholder "c" hlast
  exact ⟨w, w', _, hrun, hstep, hv, hgone, hlast, r, d, ht, hcomplete, hunnamed⟩

theorem snapshot_removed_by_other_cluster :
    ∃ w w' v, dispatched.run empty (takenAtC ++ movedToD ++ reportedGone "d") = some w ∧
      dispatched.step w (.task 1 .go) = some w' ∧ w.shared.1.snapshots.cell "x" = some v ∧
      v.val.uid = "ux" ∧ w'.shared.1.snapshots.cell "x" = none ∧
      w.shared.2.last "ux" = some "c" ∧
      ∃ r d, w.tasks[1]? = some (.finishSnapshot "x" "d" r d) :=
  ⟨_, _, _, rfl, rfl, rfl, rfl, rfl, rfl, _, _, rfl⟩

end MeisterStack.CloudController.VolumeRecords
