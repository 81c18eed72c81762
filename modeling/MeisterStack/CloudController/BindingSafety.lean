import MeisterStack.CloudController.Binding

/-!
# The cloud lets a VM go on the word of its last cluster

The last cluster that acked a create holds the VM until it sends a complete report without it. Until
then it has to stay in sight of the teardown: as the binding, or as the recorded cluster of an
unbound VM. The teardown looks at the binding only, and an ack records whatever the binding is by
then.
-/

namespace MeisterStack.CloudController.Binding

open Foundation ControllerApi List Option Bool

variable (s : State)

def LetGo : Prop :=
  ∀ c ∈ s.acker, ∃ r ∈ s.heard, r.cluster = c ∧ r.named = false ∧ r.beforeAck = false

def Departed : Prop :=
  ∃ v ∈ s.cell, v.val.spec.clusterName = none ∧ v.val.status.clusterName.isSome

def BoundTo (cluster : String) : Prop :=
  ∀ v ∈ s.cell, v.val.spec.clusterName = some cluster

def AckRecorded : Prop :=
  ∀ v ∈ s.cell, ∀ c ∈ s.acker, v.val.spec.clusterName = some c → ¬LetGo s →
    v.val.status.clusterName = some c

def PastLastAck (checked : Vm) : Prop :=
  ∀ r ∈ s.heard, s.acker = some r.cluster → r.beforeAck →
    statusIsCurrent checked r.received = false

deriving instance Decidable for LetGo, Departed, BoundTo, AckRecorded, PastLastAck

def MayRemove (d : Deletion Vm) : Verdict → Prop
  | .neverPlaced => ¬Departed s
  | .absent _ => PastLastAck s d.checked.val

instance (s d verdict) : Decidable (MayRemove s d verdict) := by
  cases verdict <;> dsimp only [MayRemove] <;> infer_instance

def AckedWhileBound (cluster : String) : Input → Prop
  | .acked => BoundTo s cluster
  | _ => True

instance (s cluster x) : Decidable (AckedWhileBound s cluster x) := by
  cases x <;> dsimp only [AckedWhileBound] <;> infer_instance

/-- The moves that keep the last acking cluster in sight of the teardown. A create is acked while
the VM is bound to the acking cluster, an answer is not recorded on an unbound VM some cluster
holds, a binding falls only once its ack is recorded, `forget_unbound` acts on a report from after
the last ack, and the object is removed neither as never placed while a cluster is recorded, nor on
a report from before the last ack. -/
def bindingGuard : Guard State Task Event Input where
  env s event :=
    match event with
    | .release => AckRecorded s
    | _ => True
  task s t input :=
    match t with
    | .sent cluster => AckedWhileBound s cluster input
    | .acked _ => ¬Departed s
    | .rejected _ => ¬Departed s
    | .evacuating _ => AckRecorded s
    | .draining => AckRecorded s
    | .forget listed r =>
      leavingCluster listed r → Departed s → s.acker = some r.cluster → LetGo s
    | .finish verdict d =>
      ∀ v ∈ d.current, verdict.concluded v.val → s.cell.standsAt v.rev →
        MayRemove s d verdict
    | _ => True

instance (s event) : Decidable (bindingGuard.env s event) := by
  cases event <;> dsimp only [bindingGuard] <;> infer_instance

instance (s t x) : Decidable (bindingGuard.task s t x) := by
  cases t <;> dsimp only [bindingGuard] <;> infer_instance

variable {s : State} {v : Versioned Vm}

theorem mutate_of_some (h : s.cell = some v) (edit : Vm → Vm) :
    s.mutate edit = s.put (edit v.val) := by
  rw [State.mutate, Slot.mutate_of_some h]
  rfl

theorem mutate_rule {P : State → Prop} {edit} (h : P s)
    (hput : ∀ v, s.cell = some v → P (s.put (edit v.val))) : P (s.mutate edit) := by
  cases hv : s.cell with
  | none =>
    rw [State.mutate, Slot.mutate_of_none hv]
    exact h
  | some v =>
    rw [mutate_of_some hv]
    exact hput v hv

structure Restates (edit : Vm → Vm) : Prop where
  spec : ∀ v, (edit v).spec.clusterName = v.spec.clusterName
  deletion : ∀ v, (edit v).deletionTimestamp = v.deletionTimestamp

structure Releases (edit : Vm → Vm) : Prop where
  spec : ∀ v, (edit v).spec.clusterName = none
  status : ∀ v, (edit v).status.clusterName = v.status.clusterName
  deletion : ∀ v, (edit v).deletionTimestamp = v.deletionTimestamp

def Task.records : Task → Bool
  | .acked _ | .rejected _ => true
  | _ => false

def Task.releases : Task → Bool
  | .evacuating _ | .draining => true
  | _ => false

inductive Effect (s : State) : Task → Input → State → Prop
  | idle (t x) : Effect s t x s
  | acks (cluster) : Effect s (.sent cluster) .acked (s.ack cluster)
  | forgot (listed r now) : leavingCluster listed r →
      Effect s (.forget listed r) (.go now) (s.mutate (forgetUnbound r))
  | ingested (listed r now phase reason message) :
      Effect s (.phases listed r) (.go now) (s.mutate (ingestPhases r phase reason message))
  | recorded (t now edit) : t.records → Restates edit →
      Effect s t (.go now) (s.mutate edit)
  | released (t now edit) : t.releases → Releases edit →
      Effect s t (.go now) (s.mutate edit)
  | stamped (now) : Effect s .destroyed (.go now) (s.mutate (recordDestroyed now))
  | bound (vm cluster now) : s.cell.standsAt vm.rev →
      Effect s (.bind vm cluster) (.go now) (s.put (bindTo vm.val cluster))
  | removed (verdict d current now) : d.current = some current →
      verdict.concluded current.val → s.cell.standsAt current.rev →
      Effect s (.finish verdict d) (.go now) s.remove

variable {s' : State} {cluster : String} {next : List Task}

/-- The tasks that carry nothing an earlier turn has read. -/
def Task.plain : Task → Bool
  | .pass _ | .bind .. | .evacuating _ | .finish .. => false
  | _ => true

inductive Spawned (s : State) : Task → Task → Prop
  | plain (t u) : u.plain → Spawned s t u
  | bind (vm cluster) : vm.val.isDeleting = false → vm.val.spec.clusterName = none →
      vm.val.status.clusterName = none → Spawned s (.pass vm) (.bind vm cluster)
  | evacuating (vm cluster mark) : vm.val.spec.clusterName = some cluster →
      evacuates vm.val cluster = some mark → Spawned s (.pass vm) (.evacuating mark)
  | neverPlaced (vm) : Spawned s (.pass vm) (.finish .neverPlaced (.of vm))
  | absent (vm cluster) : vm.val.isDeleting → vm.val.spec.clusterName = some cluster →
      (∃ r ∈ s.heard, r.cluster = cluster ∧ r.named = false ∧
        statusIsCurrent vm.val r.received) →
      Spawned s (.pass vm) (.finish (.absent cluster) (.of vm))
  | again (verdict d d') : finishDelete Vm.uid verdict.concluded s.cell d = .again d' →
      Spawned s (.finish verdict d) (.finish verdict d')

theorem spawned_plain {t u} (hu : u.plain) : ∀ w ∈ [u], Spawned s t w :=
  forall_mem_singleton.mpr (.plain t u hu)

theorem teardown_step {vm kept} (hdeleting : vm.val.isDeleting)
    (hspec : vm.val.spec.clusterName = some cluster)
    (h : teardown s vm cluster kept = some (s', next)) :
    s' = s ∧ ∀ u ∈ next, Spawned s (.pass vm) u := by
  unfold teardown at h
  split at h
  · cases h
    exact ⟨rfl, spawned_plain rfl⟩
  · cases h
  · rename_i r hkept
    obtain ⟨i, -, hi⟩ := map_eq_some_iff.mp hkept
    split_ifs at h with hcluster hnamed hcurrent <;> cases h
    · exact ⟨rfl, spawned_plain rfl⟩
    · refine ⟨rfl, forall_mem_singleton.mpr (.absent vm cluster hdeleting hspec ?_)⟩
      exact ⟨r, mem_of_getElem? hi, not_not.mp hcluster, by simpa using hnamed, hcurrent⟩
    · simp

variable {x : Input}

theorem pass_step {vm} (h : pass s vm x = some (s', next)) :
    s' = s ∧ ∀ u ∈ next, Spawned s (.pass vm) u := by
  unfold pass at h
  split at h
  · rename_i hdeleting
    split at h
    · cases h
      exact ⟨rfl, forall_mem_singleton.mpr (.neverPlaced vm)⟩
    · rename_i hspec
      exact teardown_step hdeleting hspec h
    · cases h
  · rename_i hstays
    split at h
    · rename_i hspec
      split at h <;> cases h
      · simp
      · rename_i hstatus
        exact ⟨rfl, forall_mem_singleton.mpr (.bind vm _ (by simpa using hstays) hspec
          (by simpa using hstatus))⟩
    · split at h <;> cases h
      exact ⟨rfl, spawned_plain rfl⟩
    · rename_i hspec
      split at h
      · split at h <;> cases h
        rename_i hmark
        exact ⟨rfl, forall_mem_singleton.mpr (.evacuating vm _ _ hspec hmark)⟩
      · cases h
    · cases h

variable {t : Task}

theorem task_step (h : task s t x = some (s', next)) :
    Effect s t x s' ∧ ∀ u ∈ next, Spawned s t u := by
  have hnil : ∀ u ∈ ([] : List Task), Spawned s t u := by simp
  unfold task at h
  split at h
  · cases h
    cases s.cell
    · exact ⟨.idle _ _, hnil⟩
    · exact ⟨.idle _ _, spawned_plain rfl⟩
  · split at h <;> cases h
    · exact ⟨.forgot _ _ _ (by assumption), spawned_plain rfl⟩
    · exact ⟨.idle _ _, spawned_plain rfl⟩
  · split at h <;> cases h
    · exact ⟨.ingested _ _ _ _ _ _, hnil⟩
    · exact ⟨.idle _ _, hnil⟩
  · obtain ⟨rfl, hspawned⟩ := pass_step h
    exact ⟨.idle _ _, hspawned⟩
  · cases h
    exact ⟨.acks _, spawned_plain rfl⟩
  · cases h
    exact ⟨.idle _ _, spawned_plain rfl⟩
  · cases h
    exact ⟨.recorded _ _ _ rfl ⟨fun _ => rfl, fun _ => rfl⟩, hnil⟩
  · cases h
    exact ⟨.recorded _ _ _ rfl ⟨fun _ => rfl, fun _ => rfl⟩, hnil⟩
  · cases h
    exact ⟨.released _ _ _ rfl ⟨fun _ => rfl, fun _ => rfl, fun _ => rfl⟩, hnil⟩
  · cases h
    exact ⟨.released _ _ _ rfl ⟨fun _ => rfl, fun _ => rfl, fun _ => rfl⟩, hnil⟩
  · split at h <;> cases h
    · exact ⟨.bound _ _ _ (by assumption), hnil⟩
    · exact ⟨.idle _ _, hnil⟩
  · cases h
    exact ⟨.idle _ _, spawned_plain rfl⟩
  · cases h
    exact ⟨.stamped _, hnil⟩
  · split at h <;> cases h
    · exact ⟨.idle _ _, hnil⟩
    · rename_i hremoved
      obtain ⟨current, hcurrent, hconcluded, hstands⟩ := finishDelete_removed hremoved
      exact ⟨.removed _ _ current _ hcurrent hconcluded hstands, hnil⟩
    · rename_i hagain
      exact ⟨.idle _ _, forall_mem_singleton.mpr (.again _ _ _ hagain)⟩
  · cases h

theorem env_effect {e new} (h : env s e = some (s', new)) :
    (∃ r, s' = s.hear r ∧ new = [.ingest r]) ∨
    ∃ v, s.cell = some v ∧
      ((s' = s ∧ (new = [.pass v] ∨ new = [.draining])) ∨
        (e = .release ∧ s' = s.put (releaseBinding v.val) ∧ new = []) ∨
        ∃ vm, s' = s.put vm ∧ vm.spec.clusterName = v.val.spec.clusterName ∧
          vm.status.clusterName = v.val.status.clusterName ∧
          (v.val.isDeleting → vm.isDeleting) ∧ new = []) := by
  unfold env at h
  split at h
  · cases h
    exact .inl ⟨_, rfl, rfl⟩
  · obtain ⟨v, hv, ⟨⟩⟩ := map_eq_some_iff.mp h
    exact .inr ⟨v, hv, .inl ⟨rfl, .inl rfl⟩⟩
  · split at h
    · rename_i v hv
      split at h <;> cases h
      exact .inr ⟨v, hv, .inl ⟨rfl, .inr rfl⟩⟩
    · cases h
  · split at h
    · rename_i v hv
      split at h <;> cases h
      exact .inr ⟨v, hv, .inr (.inl ⟨rfl, rfl, rfl⟩)⟩
    · cases h
  · obtain ⟨v, hv, ⟨⟩⟩ := map_eq_some_iff.mp h
    refine .inr ⟨v, hv, .inr (.inr ⟨_, rfl, rfl, rfl, fun hd => ?_, rfl⟩)⟩
    obtain ⟨stamp, hstamp⟩ := isSome_iff_exists.mp hd
    simp [Vm.isDeleting, hstamp]
  · split at h
    · rename_i v hv
      split at h <;> cases h
      rename_i hmay
      simp only [mayWrite, and_eq_true, decide_eq_true_eq] at hmay
      refine .inr ⟨v, hv, .inr (.inr ⟨_, rfl, hmay.1.1.1.2, hmay.1.1.2, fun hd => ?_, rfl⟩)⟩
      rwa [Vm.isDeleting, hmay.2]
    · cases h

structure Tracked (s : State) : Prop where
  below : s.cell.Below s.next
  sight : ∀ v c, s.cell = some v → s.acker = some c → ¬LetGo s →
    v.val.spec.clusterName = some c ∨
      v.val.spec.clusterName = none ∧ v.val.status.clusterName = some c

structure Matches (s : State) (checked : Vm) : Prop where
  deleting : ∀ v, s.cell = some v → v.val.isDeleting
  binding : ∀ v, s.cell = some v → v.val.spec.clusterName = checked.spec.clusterName ∨
    v.val.spec.clusterName = none
  acker : ∀ v c c', s.cell = some v → s.acker = some c → ¬LetGo s →
    checked.spec.clusterName = some c' → c' = c

def Evidence (s : State) (checked : Vm) (cluster : String) : Prop :=
  ∃ r ∈ s.heard, r.cluster = cluster ∧ r.named = false ∧
    statusIsCurrent checked r.received

def VerdictOk (s : State) (checked : Vm) : Verdict → Prop
  | .neverPlaced => True
  | .absent cluster => Matches s checked ∧ checked.spec.clusterName = some cluster ∧
      Evidence s checked cluster

def BindingOk (s : State) : Task → Prop
  | .pass vm => s.cell.Saw s.next vm ∧ (vm.val.isDeleting → Matches s vm.val)
  | .bind vm _ => s.cell.Saw s.next vm ∧ vm.val.isDeleting = false ∧
      vm.val.spec.clusterName = none ∧ vm.val.status.clusterName = none
  | .finish verdict d => (∀ v, d.current = some v → s.cell.Saw s.next v) ∧
      VerdictOk s d.checked.val verdict
  | _ => True

theorem letGo_hear (h : LetGo s) (r) : LetGo (s.hear r) := by
  unfold State.hear
  split
  · intro c hc
    obtain ⟨x, hx, hword⟩ := h c hc
    exact ⟨x, mem_append_left _ hx, hword⟩
  · exact h

theorem Evidence.hear {checked} (h : Evidence s checked cluster) (r) :
    Evidence (s.hear r) checked cluster := by
  unfold State.hear
  split
  · obtain ⟨x, hx, hword⟩ := h
    exact ⟨x, mem_append_left _ hx, hword⟩
  · exact h

theorem Evidence.ack {checked} (h : Evidence s checked cluster) (acker) :
    Evidence (s.ack acker) checked cluster := by
  obtain ⟨x, hx, hword⟩ := h
  exact ⟨{ x with beforeAck := true }, List.mem_map.mpr ⟨x, hx, rfl⟩, hword⟩

@[simp] theorem hear_toSlot (s : State) (r) : (s.hear r).toSlot = s.toSlot := by
  unfold State.hear
  split <;> rfl

@[simp] theorem hear_acker (s : State) (r) : (s.hear r).acker = s.acker := by
  unfold State.hear
  split <;> rfl

structure Keeps (s s' : State) : Prop where
  follows : s.toSlot.Follows s'.toSlot
  still : ∀ checked, Matches s checked → Matches s' checked
  kept : ∀ checked cluster, Evidence s checked cluster → Evidence s' checked cluster

theorem Keeps.bindingOk (h : Keeps s s') (ht : BindingOk s t) : BindingOk s' t := by
  cases t with
  | pass vm => exact ⟨h.follows.2 vm ht.1, fun hd => h.still _ (ht.2 hd)⟩
  | bind vm => exact ⟨h.follows.2 vm ht.1, ht.2⟩
  | finish verdict =>
    refine ⟨fun v hv => h.follows.2 v (ht.1 v hv), ?_⟩
    cases verdict with
    | neverPlaced => trivial
    | absent =>
      obtain ⟨hmatches, hspec, hevidence⟩ := ht.2
      exact ⟨h.still _ hmatches, hspec, h.kept _ _ hevidence⟩
  | _ => trivial

theorem Keeps.refl (s) : Keeps s s := ⟨Slot.Follows.refl _, fun _ => id, fun _ _ => id⟩

variable {vm : Vm}

theorem keeps_put (hv : s.cell = some v)
    (hdeleting : v.val.isDeleting → vm.isDeleting)
    (hspec : v.val.isDeleting → vm.spec.clusterName = v.val.spec.clusterName ∨
      vm.spec.clusterName = none) : Keeps s (s.put vm) where
  follows := Slot.follows_write _ _
  still checked h := by
    have hgoing := h.deleting v hv
    refine ⟨?_, ?_, ?_⟩
    · rintro u ⟨⟩
      exact hdeleting hgoing
    · rintro u ⟨⟩
      rcases hspec hgoing with hsame | hnone
      · rcases h.binding v hv with hb | hb
        · exact .inl (hsame.trans hb)
        · exact .inr (hsame.trans hb)
      · exact .inr hnone
    · rintro u c c' ⟨⟩
      exact h.acker v c c' hv
  kept _ _ := id

theorem keeps_hear (s : State) (r) : Keeps s (s.hear r) where
  follows := by
    rw [hear_toSlot]
    exact Slot.Follows.refl _
  still checked h := by
    refine ⟨?_, ?_, ?_⟩ <;> rw [hear_toSlot]
    · exact h.deleting
    · exact h.binding
    · rw [hear_acker]
      exact fun v c c' hv hc hgo => h.acker v c c' hv hc fun hletgo => hgo (letGo_hear hletgo r)
  kept _ _ h := h.hear r

theorem keeps_ack (hbound : BoundTo s cluster) : Keeps s (s.ack cluster) where
  follows := Slot.Follows.refl _
  still checked h := by
    refine ⟨h.deleting, h.binding, ?_⟩
    rintro v c c' hv ⟨⟩ - hspec
    have hv : s.cell = some v := hv
    rcases h.binding v hv with hb | hb
    · rw [hbound v hv, hspec] at hb
      exact (some.inj hb).symm
    · rw [hbound v hv] at hb
      cases hb
  kept _ _ h := h.ack cluster

theorem keeps_remove (s) : Keeps s s.remove where
  follows := Slot.follows_remove _
  still checked h := by
    refine ⟨?_, ?_, ?_⟩
    · rintro v ⟨⟩
    · rintro v ⟨⟩
    · rintro v c c' ⟨⟩
  kept _ _ := id

theorem forgetUnbound_spec (r v) :
    (forgetUnbound r v).spec = v.spec ∧
      (forgetUnbound r v).deletionTimestamp = v.deletionTimestamp := by
  unfold forgetUnbound
  split <;> exact ⟨rfl, rfl⟩

theorem ingestPhases_spec (r phase reason message v) :
    (ingestPhases r phase reason message v).spec = v.spec ∧
      (ingestPhases r phase reason message v).deletionTimestamp = v.deletionTimestamp := by
  unfold ingestPhases
  split <;> exact ⟨rfl, rfl⟩

theorem Effect.keeps (h : Effect s t x s')
    (ht : BindingOk s t) (hg : bindingGuard.task s t x) : Keeps s s' := by
  -- A mutation that leaves binding and deletion as they are.
  have hsame : ∀ {edit : Vm → Vm}, (∀ v, (edit v).spec.clusterName = v.spec.clusterName) →
      (∀ v, (edit v).deletionTimestamp = v.deletionTimestamp) → Keeps s (s.mutate edit) := by
    intro edit hspec hdeletion
    refine mutate_rule (Keeps.refl s) fun v hv =>
      keeps_put hv (fun hd => ?_) fun _ => .inl (hspec _)
    rwa [Vm.isDeleting, hdeletion]
  cases h with
  | idle => exact Keeps.refl s
  | acks => exact keeps_ack hg
  | forgot listed r =>
    exact hsame (fun v => by rw [(forgetUnbound_spec r v).1]) fun v => (forgetUnbound_spec r v).2
  | ingested listed r now phase reason message =>
    exact hsame (fun v => by rw [(ingestPhases_spec r phase reason message v).1])
      fun v => (ingestPhases_spec r phase reason message v).2
  | recorded _ now edit hrecords hedit => exact hsame hedit.spec hedit.deletion
  | released _ now edit hreleases hedit =>
    refine mutate_rule (Keeps.refl s) fun v hv =>
      keeps_put hv (fun hd => ?_) fun _ => .inr (hedit.spec _)
    rwa [Vm.isDeleting, hedit.deletion]
  | stamped => exact hsame (fun _ => rfl) fun _ => rfl
  | bound vm cluster now hstands =>
    -- The placement read a VM that stays, so nobody is deleting it.
    have hvm := ht.1.eq_of_standsAt hstands
    refine keeps_put hvm id fun hd => ?_
    rw [ht.2.1] at hd
    cases hd
  | removed => exact keeps_remove s

theorem Tracked.put (hsight : ∀ c, s.acker = some c → ¬LetGo s → vm.spec.clusterName = some c ∨
      vm.spec.clusterName = none ∧ vm.status.clusterName = some c) : Tracked (s.put vm) where
  below := Cell.below_some (Nat.lt_succ_self _)
  sight := by
    rintro v c ⟨⟩
    exact hsight c

variable (h : Tracked s)

include h

theorem Tracked.put_same
    (hv : s.cell = some v) (hspec : vm.spec.clusterName = v.val.spec.clusterName)
    (hstatus : vm.status.clusterName = v.val.status.clusterName) : Tracked (s.put vm) := by
  refine .put fun c hc hgo => ?_
  rw [hspec, hstatus]
  exact h.sight v c hv hc hgo

theorem Tracked.put_copy (hv : s.cell = some v) (hbound : ¬Departed s)
    (hspec : vm.spec.clusterName = v.val.spec.clusterName) : Tracked (s.put vm) := by
  refine .put fun c hc hgo => ?_
  rcases h.sight v c hv hc hgo with hon | ⟨hnone, hheld⟩
  · exact .inl (hspec.trans hon)
  · exact absurd ⟨v, hv, hnone, by simp [hheld]⟩ hbound

theorem Tracked.put_release (hv : s.cell = some v) (hrecorded : AckRecorded s)
    (hspec : vm.spec.clusterName = none)
    (hstatus : vm.status.clusterName = v.val.status.clusterName) : Tracked (s.put vm) := by
  refine .put fun c hc hgo => .inr ⟨hspec, ?_⟩
  rw [hstatus]
  rcases h.sight v c hv hc hgo with hon | ⟨-, hheld⟩
  · exact hrecorded v hv c hc hon hgo
  · exact hheld

theorem Tracked.put_forget (hv : s.cell = some v) {r}
    (hgone : Departed s → s.acker = some r.cluster → LetGo s) :
    Tracked (s.put (forgetUnbound r v.val)) := by
  by_cases hgo : (v.val.spec.clusterName.isNone && v.val.status.clusterName = some r.cluster)
  · simp only [forgetUnbound, if_pos hgo]
    simp only [and_eq_true, isNone_iff_eq_none, decide_eq_true_eq] at hgo
    refine .put fun c hc hletgo => ?_
    rcases h.sight v c hv hc hletgo with hon | ⟨-, hheld⟩
    · exact .inl hon
    · have hcluster : c = r.cluster := some.inj (hheld.symm.trans hgo.2)
      exact absurd (hgone ⟨v, hv, hgo.1, by simp [hgo.2]⟩ (hcluster ▸ hc)) hletgo
  · simp only [forgetUnbound, if_neg hgo]
    exact h.put_same hv rfl rfl

theorem Tracked.hear (r : Report) : Tracked (s.hear r) where
  below := by
    rw [hear_toSlot]
    exact h.below
  sight := by
    rw [hear_toSlot, hear_acker]
    exact fun v c hv hc hgo => h.sight v c hv hc fun hletgo => hgo (letGo_hear hletgo r)

omit h

theorem Tracked.effect (hs : Tracked s)
    (ht : BindingOk s t) (hg : bindingGuard.task s t x) (h : Effect s t x s') : Tracked s' := by
  cases h with
  | idle => exact hs
  | acks =>
    refine ⟨hs.below, ?_⟩
    rintro v c hv ⟨⟩ -
    exact .inl (hg v hv)
  | forgot listed r now hleaving =>
    exact mutate_rule hs fun v hv => hs.put_forget hv (hg hleaving)
  | ingested =>
    refine mutate_rule hs fun v hv => ?_
    unfold ingestPhases
    split
    · -- Only the bound cluster is listened to, so the copy names it.
      rename_i hours
      simp only [ours, decide_eq_true_eq] at hours
      refine .put fun c hc hgo => ?_
      rcases hs.sight v c hv hc hgo with hon | ⟨hnone, -⟩
      · exact .inl hon
      · rw [hours] at hnone
        cases hnone
    · exact hs.put_same hv rfl rfl
  | recorded _ now edit hrecords hedit =>
    refine mutate_rule hs fun v hv => hs.put_copy hv ?_ (hedit.spec _)
    cases t with
    | acked | rejected => exact hg
    | _ => cases hrecords
  | released _ now edit hreleases hedit =>
    refine mutate_rule hs fun v hv => hs.put_release hv ?_ (hedit.spec _) (hedit.status _)
    cases t with
    | evacuating | draining => exact hg
    | _ => cases hreleases
  | stamped => exact mutate_rule hs fun v hv => hs.put_same hv rfl rfl
  | bound vm cluster now hstands =>
    -- Nobody is bound and nobody recorded, so the last acking cluster let go.
    obtain ⟨hsaw, -, hspec, hstatus⟩ := ht
    refine .put fun c hc hgo => ?_
    rcases hs.sight vm c (hsaw.eq_of_standsAt hstands) hc hgo with hon | ⟨-, hheld⟩
    · cases hspec.symm.trans hon
    · cases hstatus.symm.trans hheld
  | removed => exact ⟨Cell.below_none _, by rintro v c ⟨⟩⟩

theorem Spawned.bindingOk {u} (h : Spawned s t u) (hbelow : s.cell.Below s.next)
    (ht : BindingOk s t) : BindingOk s u := by
  cases h with
  | plain _ _ hplain =>
    cases u with
    | pass | bind | finish => cases hplain
    | _ => trivial
  | bind vm _ hstays hspec hstatus => exact ⟨ht.1, hstays, hspec, hstatus⟩
  | evacuating => trivial
  | neverPlaced vm =>
    refine ⟨?_, trivial⟩
    rintro v ⟨⟩
    exact ht.1
  | absent vm _ hdeleting hspec hsilent =>
    refine ⟨?_, ht.2 hdeleting, hspec, hsilent⟩
    rintro v ⟨⟩
    exact ht.1
  | again verdict d d' hagain =>
    obtain ⟨hchecked, hfresh⟩ := finishDelete_again hagain
    exact ⟨fun v hv => hbelow.saw (hfresh v hv), hchecked ▸ ht.2⟩

theorem bindingOutline : program.Outline bindingGuard Tracked BindingOk where
  env := by
    intro s event s' new hs hg h
    obtain ⟨r, rfl, rfl⟩ | ⟨v, hv, heffect⟩ := env_effect h
    · exact ⟨hs.hear r, by simp [BindingOk], fun t ht => (keeps_hear s r).bindingOk ht⟩
    · rcases heffect with ⟨rfl, hnew⟩ | ⟨rfl, rfl, rfl⟩ |
        ⟨vm, rfl, hspec, hstatus, hstays, rfl⟩
      · refine ⟨hs, fun t ht => ?_, fun t ht => ht⟩
        rcases hnew with rfl | rfl
        · rw [mem_singleton.mp ht]
          refine ⟨hs.below.saw hv, fun hd => ⟨?_, ?_, ?_⟩⟩
          · rintro u hu
            rwa [← some.inj (hv.symm.trans hu)]
          · rintro u hu
            exact .inl (by rw [← some.inj (hv.symm.trans hu)])
          · rintro u c c' hu hc hgo hspec
            rcases hs.sight v c hv hc hgo with hon | ⟨hnone, -⟩
            · exact some.inj (hspec.symm.trans hon)
            · cases hnone.symm.trans hspec
        · rw [mem_singleton.mp ht]
          trivial
      · have hkeeps : Keeps s (s.put (releaseBinding v.val)) :=
          keeps_put hv (fun hd => hd) fun _ => .inr rfl
        exact ⟨hs.put_release hv hg rfl rfl, by simp, fun t ht => hkeeps.bindingOk ht⟩
      · exact ⟨hs.put_same hv hspec hstatus, by simp,
          fun t ht => (keeps_put hv hstays fun _ => .inl hspec).bindingOk ht⟩
  task := by
    intro s t x s' next hs ht hg h
    obtain ⟨heffect, hspawned⟩ := task_step h
    have hkeeps := heffect.keeps ht hg
    refine ⟨hs.effect ht hg heffect, fun u hu => ?_, fun u hu => hkeeps.bindingOk hu⟩
    exact hkeeps.bindingOk ((hspawned u hu).bindingOk hs.below ht)

def RemovedAfterLetGo (w w' : World State Task) : Prop :=
  w.shared.cell.isSome → w'.shared.cell = none → LetGo w.shared

theorem Effect.letGo_of_removed (h : Effect s t x s') (hs : Tracked s) (ht : BindingOk s t)
    (hg : bindingGuard.task s t x) (hvm : s.cell.isSome) (hgone : s'.cell = none) : LetGo s := by
  obtain ⟨v, hv⟩ := isSome_iff_exists.mp hvm
  have hwrites : ∀ edit, (s.mutate edit).cell ≠ none := by
    intro edit
    rw [mutate_of_some hv]
    exact some_ne_none _
  cases h with
  | idle | acks => exact absurd (hv.symm.trans hgone) (by simp)
  | forgot | ingested | recorded | released | stamped => exact absurd hgone (hwrites _)
  | bound => exact absurd hgone (some_ne_none _)
  | removed verdict d current now hread hconcluded hstands =>
    have hcurrent := (ht.1 current hread).eq_of_standsAt hstands
    have hmay := hg current hread hconcluded hstands
    by_contra hletgo
    have hack : ∃ c, s.acker = some c := by
      by_contra hnone
      exact hletgo fun c hc => absurd ⟨c, hc⟩ hnone
    obtain ⟨c, hc⟩ := hack
    cases verdict with
    | neverPlaced =>
      simp only [Verdict.concluded, and_eq_true, isNone_iff_eq_none] at hconcluded
      rcases hs.sight current c hcurrent hc hletgo with hon | ⟨hnone, hheld⟩
      · cases hconcluded.2.symm.trans hon
      · exact hmay ⟨current, hcurrent, hnone, by simp [hheld]⟩
    | absent cluster =>
      obtain ⟨hmatches, hspec, r, hr, hcluster, hnamed, hfresh⟩ := ht.2
      have hsame : cluster = c := hmatches.acker current c cluster hcurrent hc hletgo hspec
      subst hsame
      -- The report is current for the judged revision, so it is younger than the ack.
      have hafter : r.beforeAck = false := by
        refine eq_false_iff.mpr fun hbefore => ?_
        rw [hmay r hr (hcluster ▸ hc) hbefore] at hfresh
        cases hfresh
      refine hletgo fun c' hc' => ⟨r, hr, ?_, hnamed, hafter⟩
      exact hcluster.trans (some.inj (hc.symm.trans hc'))

def start (next rev : Nat) (vm : Vm) : World State Task :=
  ⟨⟨⟨next, some ⟨rev, vm⟩⟩, [], none⟩, []⟩

theorem tracked_start {next rev} (hrev : rev < next) :
    Program.Holds Tracked BindingOk (start next rev vm) :=
  ⟨⟨Cell.below_some hrev, fun _ _ _ hc => by cases hc⟩, by simp [start]⟩

/--
In every run that meets the guard, the cloud removes a VM only when the last
cluster that acked a create for it has since sent a complete report without it.
-/
theorem removed_after_let_go {next rev : Nat} {vm : Vm} (hrev : rev < next)
    {ms : List (Move Event Input)} {w w' : World State Task} {m : Move Event Input}
    (hmeets : program.RunMeets bindingGuard (start next rev vm) ms)
    (hrun : program.run (start next rev vm) ms = some w) (hm : bindingGuard.Meets w m)
    (hstep : program.step w m = some w') : RemovedAfterLetGo w w' := by
  obtain ⟨hshared, htasks⟩ := bindingOutline.run (tracked_start hrev) hmeets hrun
  intro hvm hgone
  rcases program.step_cases hstep with ⟨event, new, rfl, henv, -⟩ |
    ⟨i, x, t, tnext, rfl, ht, htask, -⟩ | ⟨i, rfl, hs, -⟩
  · obtain ⟨v, hv⟩ := isSome_iff_exists.mp hvm
    obtain ⟨r, hs, -⟩ | ⟨u, -, heffect⟩ := env_effect henv
    · rw [hs, hear_toSlot, hv] at hgone
      cases hgone
    · rcases heffect with ⟨hs, -⟩ | ⟨-, hs, -⟩ | ⟨vm', hs, -⟩ <;> rw [hs] at hgone
      · rw [hv] at hgone
        cases hgone
      · cases hgone
      · cases hgone
  · exact (task_step htask).1.letGo_of_removed hshared (htasks t (mem_of_getElem? ht))
      (hm t ht) hvm hgone
  · rw [hs] at hgone
    rw [hgone] at hvm
    cases hvm

def handedDown : List (Move Event Input) :=
  [.env .pass, .task 0 (.place "c"), .task 0 (.go 1),
    .env (.status ⟨"c", true, none, 1⟩), .crash 0,
    .env .pass, .task 0 (.create 0), .task 0 .acked, .task 0 (.go 2),
    .env (.status ⟨"c", true, some stoppedLine, 3⟩), .task 0 (.go 3), .task 0 (.go 3),
    .task 0 (.go 3)]

def deletedWhileBound : List (Move Event Input) :=
  handedDown ++ [.env (.delete 4), .env (.status ⟨"c", true, none, 5⟩), .crash 0,
    .env .pass, .task 0 (.report (some 2))]

theorem removed_after_let_go_bound :
    ∃ w w', program.run (start 1 0 guest) deletedWhileBound = some w ∧
      program.step w (.task 0 (.go 6)) = some w' ∧ w'.shared.cell = none ∧
      w.shared.acker = some "c" ∧ RemovedAfterLetGo w w' := by
  refine ⟨_, _, rfl, rfl, rfl, rfl, ?_⟩
  exact removed_after_let_go (m := .task 0 (.go 6)) Nat.zero_lt_one
    (by decide : program.RunMeets bindingGuard (start 1 0 guest) deletedWhileBound)
    rfl (by decide) rfl

def deletedAfterRelease : List (Move Event Input) :=
  handedDown ++ [.env .release, .env (.delete 4), .env .pass, .task 0 (.go 5)]

/-- The teardown takes a released VM for one that was never placed. -/
theorem removed_while_the_cluster_holds_it :
    ∃ w w', program.run (start 1 0 guest) deletedAfterRelease = some w ∧
      program.step w (.task 0 (.go 6)) = some w' ∧ w.shared.acker = some "c" ∧
      ¬RemovedAfterLetGo w w' := by
  refine ⟨_, _, rfl, rfl, rfl, fun h => ?_⟩
  exact absurd (h rfl rfl) (by decide)

end MeisterStack.CloudController.Binding
