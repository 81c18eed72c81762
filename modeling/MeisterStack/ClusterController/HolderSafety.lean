import MeisterStack.ClusterController.Holder

/-!
# When the record of a VM's holder can be trusted

The record of the node that holds a VM is cleared only by that node's own complete report, and the
object is removed only after every node that may hold an instance acked its destruction. Each
theorem has a condition on the single moves, and beside it stands a run that breaks it.
-/

namespace MeisterStack.ClusterController.Holder

open Foundation ControllerApi Option Bool List Nat Slot.Follows Vm Cell
open ClusterController.Placement (boundTo mayPlace)

variable {s : State} {v : Versioned Vm}

theorem mutate_of_some (h : s.cell = some v) (edit : Vm → Vm) :
    s.mutate edit = s.put (edit v.val) := by
  rw [State.mutate, Slot.mutate_of_some h]
  rfl

theorem mutate_of_none (h : s.cell = none) (edit : Vm → Vm) : s.mutate edit = s := by
  rw [State.mutate, Slot.mutate_of_none h]

theorem mutate_rule {P : State → Prop} {edit} (h : P s)
    (hput : ∀ v, s.cell = some v → P (s.put (edit v.val))) : P (s.mutate edit) := by
  cases hv : s.cell with
  | none =>
    rw [mutate_of_none hv]
    exact h
  | some v =>
    rw [mutate_of_some hv]
    exact hput v hv

structure Unbinds (edit : Vm → Vm) : Prop where
  spec : ∀ v, (edit v).spec.nodeName = none
  holder : ∀ v, (edit v).status.nodeName = v.status.nodeName
  deletion : ∀ v, (edit v).deletionTimestamp = v.deletionTimestamp

theorem unbinds_clearBinding : Unbinds clearBinding := ⟨fun _ => rfl, fun _ => rfl, fun _ => rfl⟩

theorem unbinds_evacuate (mark) : Unbinds (evacuate mark) :=
  ⟨fun _ => rfl, fun _ => rfl, fun _ => rfl⟩

theorem unbinds_unbindRefused (node said now) : Unbinds (unbindRefused node said now) :=
  ⟨fun _ => rfl, fun _ => rfl, fun _ => rfl⟩

def Task.unbinds : Task → Bool
  | .refused _ _ => true
  | .evacuating _ => true
  | .draining => true
  | _ => false

inductive Effect (s : State) : Task → Input → State → Prop
  | idle (t x) : Effect s t x s
  | heard (listed r) : Effect s (.index listed) (.report r)
      (s.note (.reported r.node r.vmsComplete r.line.isSome))
  | forgot (listed r now) : lettingGo listed r →
      Effect s (.forget listed r) (.go now) (s.mutate (forgetUnbound r))
  | ingested (listed r now phase reason message) :
      r.line.bind (observe (ours r.node) listed) = some (phase, reason, message) →
      Effect s (.phases listed r) (.go now) (s.mutate (ingestPhases r phase reason message))
  | sent (vm node x) : vm.val.isDeleting = false → vm.val.spec.nodeName = some node →
      (x = .create ∨ x = .kick) → Effect s (.pass vm) x (s.note (.createSent node))
  | refused (t x node) : Effect s t x (s.note (.cannotServe node))
  | destroyed (t x node) : Effect s t x (s.note (.destroyAcked node))
  | answered (said now) :
      Effect s (.answered said) (.go now) (s.mutate (dispatchCreate said now))
  | unbound (t now edit) : t.unbinds → Unbinds edit →
      Effect s t (.go now) (s.mutate edit)
  | kicked (node now) : Effect s (.kickAcked node) (.go now) (s.mutate (kick node now))
  | bound (vm node now) : s.cell.standsAt vm.rev →
      Effect s (.bind vm node) (.go now)
        ((s.put (boundTo vm.val node)).note (.bound node))
  | removed (d current now) : d.current = some current →
      judged d.checked.val current.val → s.cell.standsAt current.rev →
      Effect s (.finish d) (.go now) s.remove

variable {s' : State} {x : Input} {next : List Task}

def Task.plain : Task → Bool
  | .pass _ | .bind _ _ | .destroying _ _ | .finish _ => false
  | _ => true

inductive Spawned (s s' : State) : Task → Task → Prop
  | plain (t u) : u.plain → Spawned s s' t u
  | places (vm node) : vm.val.spec.nodeName = none → vm.val.status.nodeName = none →
      Spawned s s' (.pass vm) (.bind vm node)
  | destroys (vm node) : vm.val.isDeleting → destroyTarget vm.val = some node →
      Spawned s s' (.pass vm) (.destroying vm node)
  | finishes (vm) : vm.val.isDeleting → destroyTarget vm.val = none →
      Spawned s s' (.pass vm) (.finish (.of vm))
  | acked (vm node) : s' = s.note (.destroyAcked node) →
      Spawned s s' (.destroying vm node) (.finish (.of vm))
  | retries (d d') : d'.checked = d.checked → (∀ v, d'.current = some v → s.cell = some v) →
      s' = s → Spawned s s' (.finish d) (.finish d')

theorem spawned_plain {t u} (hu : u.plain) : ∀ w ∈ [u], Spawned s s' t w :=
  forall_mem_singleton.mpr (.plain t u hu)

theorem pass_step {vm} (h : pass s vm x = some (s', next)) :
    Effect s (.pass vm) x s' ∧ ∀ u ∈ next, Spawned s s' (.pass vm) u := by
  unfold pass at h
  split at h
  · rename_i hdeleting
    split at h <;> cases h <;> refine ⟨.idle _ _, forall_mem_singleton.mpr ?_⟩
    · exact .destroys _ _ hdeleting (by assumption)
    · exact .finishes _ hdeleting (by assumption)
  · rename_i hdeleting
    simp only [not_eq_true] at hdeleting
    split at h
    · split at h
      · cases h
        exact ⟨.idle _ _, spawned_plain rfl⟩
      · split at h <;> cases h
        exact ⟨.idle _ _, by simpa using .places _ _ (by assumption) (by assumption)⟩
    · rename_i node hnode
      split at h
      · split at h <;> cases h
        exact ⟨.sent vm node _ hdeleting hnode (.inl rfl), spawned_plain rfl⟩
      · split at h <;> cases h
        exact ⟨.idle _ _, spawned_plain rfl⟩
      · split at h <;> cases h
        exact ⟨.idle _ _, spawned_plain rfl⟩
      · split at h <;> cases h
        exact ⟨.sent vm node _ hdeleting hnode (.inr rfl), spawned_plain rfl⟩
      · cases h

variable {t : Task}

theorem task_step (h : task s t x = some (s', next)) :
    Effect s t x s' ∧ ∀ u ∈ next, Spawned s s' t u := by
  have hnil : ∀ u ∈ ([] : List Task), Spawned s s' t u := by simp
  unfold task at h
  split at h
  · cases h
    refine ⟨.heard _ _, fun u hu => .plain _ _ ?_⟩
    rcases mem_pair.mp hu with rfl | rfl <;> rfl
  · split at h <;> cases h
    · exact ⟨.forgot _ _ _ (by assumption), spawned_plain rfl⟩
    · exact ⟨.idle _ _, spawned_plain rfl⟩
  · split at h <;> cases h
    · exact ⟨.ingested _ _ _ _ _ _ (by assumption), hnil⟩
    · exact ⟨.idle _ _, hnil⟩
  · exact pass_step h
  · cases h
    exact ⟨.idle _ _, spawned_plain rfl⟩
  · cases h
    exact ⟨.refused _ _ _, spawned_plain rfl⟩
  · cases h
    exact ⟨.idle _ _, spawned_plain rfl⟩
  · cases h
    exact ⟨.answered _ _, hnil⟩
  · cases h
    exact ⟨.unbound _ _ _ rfl (unbinds_unbindRefused _ _ _), hnil⟩
  · cases h
    exact ⟨.idle _ _, spawned_plain rfl⟩
  · cases h
    exact ⟨.refused _ _ _, hnil⟩
  · cases h
    exact ⟨.kicked _ _, hnil⟩
  · cases h
    exact ⟨.destroyed _ _ _, hnil⟩
  · cases h
    exact ⟨.unbound _ _ _ rfl (unbinds_evacuate _), hnil⟩
  · cases h
    exact ⟨.unbound _ _ _ rfl unbinds_clearBinding, hnil⟩
  · split at h <;> cases h
    · exact ⟨.bound _ _ _ (by assumption), hnil⟩
    · exact ⟨.idle _ _, hnil⟩
  · cases h
    exact ⟨.destroyed _ _ _, by simpa using .acked _ _ rfl⟩
  · rename_i d now
    split at h <;> cases h
    · exact ⟨.idle _ _, hnil⟩
    · rename_i hremoved
      obtain ⟨current, hcurrent, hjudged, hstands⟩ := finishDelete_removed hremoved
      exact ⟨.removed d current now hcurrent hjudged hstands, hnil⟩
    · rename_i hagain
      obtain ⟨hchecked, hfresh⟩ := finishDelete_again hagain
      exact ⟨.idle _ _, by simpa using .retries _ _ hchecked hfresh rfl⟩
  · cases h

theorem env_effect {e new} (h : env s e = some (s', new)) :
    ∃ v, s.cell = some v ∧
      (s' = s ∨
        (e = .unbind ∧ s' = s.put (clearBinding v.val)) ∨
        ∃ vm, s' = s.put vm ∧ vm.spec.nodeName = v.val.spec.nodeName ∧
          vm.status.nodeName = v.val.status.nodeName ∧
          (v.val.isDeleting → vm.isDeleting)) ∧
      ∀ t ∈ new, t = .index v.val ∨ t = .pass v ∨ t = .draining := by
  unfold env at h
  split at h
  · cases h
  · rename_i v hv
    refine ⟨v, hv, ?_⟩
    split at h
    · cases h
      exact ⟨.inl rfl, by simp⟩
    · cases h
      exact ⟨.inl rfl, by simp⟩
    · split at h <;> cases h
      exact ⟨.inl rfl, by simp⟩
    · split at h <;> cases h
      exact ⟨.inr (.inl ⟨rfl, rfl⟩), by simp⟩
    · cases h
      refine ⟨.inr (.inr ⟨_, rfl, rfl, rfl, fun hd => ?_⟩), by simp⟩
      obtain ⟨stamp, hstamp⟩ := isSome_iff_exists.mp hd
      simp [isDeleting, hstamp]
    · split at h <;> cases h
      rename_i vm hmay
      simp only [mayWrite, and_eq_true, decide_eq_true_eq] at hmay
      refine ⟨.inr (.inr ⟨vm, rfl, ?_, ?_, fun hd => ?_⟩), by simp⟩
      · exact hmay.1.1.1.1.1.2
      · exact hmay.1.1.1.2
      · rwa [isDeleting, hmay.2]

def Follows (s s' : State) : Prop := s.toSlot.Follows s'.toSlot

theorem follows_put (s vm) : Follows s (s.put vm) := Slot.follows_write _ _

theorem follows_mutate (s) (edit : Vm → Vm) : Follows s (s.mutate edit) :=
  mutate_rule (refl _) fun _ _ => follows_put s _

theorem Effect.follows (h : Effect s t x s') : Follows s s' := by
  cases h with
  | idle | heard | sent | refused | destroyed => exact refl _
  | forgot | ingested | answered | unbound | kicked => exact follows_mutate s _
  | bound vm node => exact follows_put s (boundTo vm.val node)
  | removed => exact Slot.follows_remove _

theorem env_follows {e new} (h : env s e = some (s', new)) : Follows s s' := by
  obtain ⟨v, -, rfl | ⟨-, rfl⟩ | ⟨vm, rfl, -⟩, -⟩ := env_effect h
  · exact refl _
  all_goals exact follows_put _ _

def Departed (s : State) : Prop :=
  ∃ v ∈ s.cell, v.val.spec.nodeName = none ∧ v.val.status.nodeName.isSome

def Placeable (s : State) : Prop :=
  ∃ v ∈ s.cell, v.val.spec.nodeName = none ∧ v.val.status.nodeName = none

def HolderKnown (s : State) : Prop :=
  ∀ v ∈ s.cell, ∀ node ∈ v.val.spec.nodeName,
    v.val.status.nodeName = some node ∨ stillReports node s.log = false

def StaysAway (s : State) : Input → Prop
  | .report r => r.line.isSome → Placeable s → lastBound s.log ≠ some r.node
  | _ => True

deriving instance Decidable for Departed, Placeable, HolderKnown

instance (s x) : Decidable (StaysAway s x) := by
  cases x <;> dsimp only [StaysAway] <;> infer_instance

/-- The moves that cannot lose the record of the holder. A phase line or the answer to a create is
written only while the VM is bound or nobody holds it, a binding falls only once its node's reports
are recorded, a node's word that it let go is its last word when it is written, and the node the VM
left does not report it again before it is placed. -/
def holderGuard : Guard State Task Event Input where
  env s event :=
    match event with
    | .unbind => HolderKnown s
    | _ => True
  task s t input :=
    match t with
    | .index _ => StaysAway s input
    | .forget listed r =>
      lettingGo listed r → Departed s → stillReports r.node s.log = false
    | .phases listed r => (r.line.bind (observe (ours r.node) listed)).isSome → ¬Departed s
    | .answered said =>
      ∀ v ∈ s.cell, (createAnswer said v.val.status.phase.kind).isSome → ¬Departed s
    | .refused _ _ => HolderKnown s
    | .evacuating _ => HolderKnown s
    | .draining => HolderKnown s
    | _ => True

instance (s event) : Decidable (holderGuard.env s event) := by
  cases event <;> dsimp only [holderGuard] <;> infer_instance

instance (s t x) : Decidable (holderGuard.task s t x) := by
  cases t <;> dsimp only [holderGuard] <;> infer_instance

structure Recorded (s : State) : Prop where
  below : s.cell.Below s.next
  binding : ∀ v node, s.cell = some v → v.val.spec.nodeName = some node →
    lastBound s.log = some node
  holder : ∀ v node, s.cell = some v → v.val.status.nodeName = some node →
    lastBound s.log = some node
  letGo : Placeable s → ∀ node, lastBound s.log = some node → stillReports node s.log = false

def PlacementOk (s : State) : Task → Prop
  | .pass vm => s.cell.Saw s.next vm
  | .bind vm _ => s.cell.Saw s.next vm ∧ vm.val.spec.nodeName = none ∧
      vm.val.status.nodeName = none
  | _ => True

theorem placementOk_follows (h : Follows s s') (ht : PlacementOk s t) : PlacementOk s' t := by
  cases t with
  | pass vm => exact h.2 vm ht
  | bind vm => exact ⟨h.2 vm ht.1, ht.2⟩
  | _ => trivial

variable {vm : Vm}

theorem Recorded.put (hbinding : ∀ node, vm.spec.nodeName = some node → lastBound s.log = some node)
    (hholder : ∀ node, vm.status.nodeName = some node → lastBound s.log = some node)
    (hgo : vm.spec.nodeName = none → vm.status.nodeName = none →
      ∀ node, lastBound s.log = some node → stillReports node s.log = false) :
    Recorded (s.put vm) where
  below := below_some (lt_succ_self _)
  binding := by
    rintro v node ⟨⟩
    exact hbinding node
  holder := by
    rintro v node ⟨⟩
    exact hholder node
  letGo := by
    rintro ⟨v, ⟨⟩, hspec, hstatus⟩
    exact hgo hspec hstatus

variable (h : Recorded s)

include h

theorem Recorded.put_same
    (hv : s.cell = some v) (hspec : vm.spec.nodeName = v.val.spec.nodeName)
    (hstatus : vm.status.nodeName = v.val.status.nodeName) : Recorded (s.put vm) :=
  .put (fun node hn => h.binding v node hv (hspec ▸ hn))
    (fun node hn => h.holder v node hv (hstatus ▸ hn))
    (fun hs ht => h.letGo ⟨v, hv, hspec ▸ hs, hstatus ▸ ht⟩)

theorem Recorded.put_copy (hv : s.cell = some v) (hbound : ¬Departed s)
    (hspec : vm.spec.nodeName = v.val.spec.nodeName)
    (hstatus : vm.status.nodeName = v.val.spec.nodeName) : Recorded (s.put vm) := by
  refine .put (fun node hn => h.binding v node hv (hspec ▸ hn))
    (fun node hn => h.binding v node hv (hstatus ▸ hn)) fun hs _ => ?_
  have hnone : v.val.spec.nodeName = none := hspec ▸ hs
  refine h.letGo ⟨v, hv, hnone, ?_⟩
  cases hheld : v.val.status.nodeName with
  | none => rfl
  | some => exact absurd ⟨v, hv, hnone, by simp [hheld]⟩ hbound

theorem Recorded.put_unbind (hv : s.cell = some v) (hknown : HolderKnown s)
    (hspec : vm.spec.nodeName = none)
    (hstatus : vm.status.nodeName = v.val.status.nodeName) : Recorded (s.put vm) := by
  refine .put (fun node hn => ?_) (fun node hn => h.holder v node hv (hstatus ▸ hn))
    fun _ ht node hnode => ?_
  · rw [hspec] at hn
    cases hn
  · have hnone : v.val.status.nodeName = none := hstatus ▸ ht
    cases hbound : v.val.spec.nodeName with
    | none => exact h.letGo ⟨v, hv, hbound, hnone⟩ node hnode
    | some old =>
      have hold : lastBound s.log = some old := h.binding v old hv hbound
      have hsame : old = node := some.inj (hold.symm.trans hnode)
      subst hsame
      rcases hknown v hv old hbound with hheld | hquiet
      · rw [hnone] at hheld
        cases hheld
      · exact hquiet

theorem Recorded.put_forget (hv : s.cell = some v) {r}
    (hquiet : Departed s → stillReports r.node s.log = false) :
    Recorded (s.put (forgetUnbound r v.val)) := by
  by_cases hgo : (v.val.spec.nodeName.isNone && v.val.status.nodeName = some r.node)
  · simp only [forgetUnbound, if_pos hgo]
    simp only [and_eq_true, isNone_iff_eq_none, decide_eq_true_eq] at hgo
    refine .put (fun node hn => h.binding v node hv hn) (by simp) fun _ _ node hnode => ?_
    have hlast := h.holder v r.node hv hgo.2
    rw [hlast] at hnode
    cases hnode
    exact hquiet ⟨v, hv, hgo.1, by simp [hgo.2]⟩
  · simp only [forgetUnbound, if_neg hgo]
    exact h.put_same hv rfl rfl

theorem Recorded.note {fact} (hlast : lastBound (fact :: s.log) = lastBound s.log)
    (hquiet : Placeable s → ∀ node, lastBound s.log = some node →
      stillReports node s.log = false → stillReports node (fact :: s.log) = false) :
    Recorded (s.note fact) where
  below := h.below
  binding v node hv hn := hlast.trans (h.binding v node hv hn)
  holder v node hv hn := hlast.trans (h.holder v node hv hn)
  letGo hp node hnode :=
    hquiet hp node (hlast ▸ hnode) (h.letGo hp node (hlast ▸ hnode))

omit h

theorem Recorded.effect (hs : Recorded s) (ht : PlacementOk s t) (hg : holderGuard.task s t x)
    (h : Effect s t x s') : Recorded s' := by
  cases h with
  | idle => exact hs
  | heard =>
    refine hs.note rfl fun hp node hnode hquiet => ?_
    simp only [stillReports]
    split
    · rename_i hsame
      subst hsame
      exact eq_false_iff.mpr fun hnamed => hg hnamed hp hnode
    · exact hquiet
  | forgot listed r now hletting =>
    exact mutate_rule hs fun v hv => hs.put_forget hv (hg hletting)
  | ingested listed r now phase reason message hchanged =>
    refine mutate_rule hs fun v hv => ?_
    unfold ingestPhases
    split
    · exact hs.put_copy hv (hg (by simp [hchanged])) rfl rfl
    · exact hs.put_same hv rfl rfl
  | sent | refused | destroyed => exact hs.note rfl fun _ _ _ hquiet => hquiet
  | answered =>
    refine mutate_rule hs fun v hv => ?_
    unfold dispatchCreate
    split
    · exact hs.put_same hv rfl rfl
    · rename_i hanswer
      exact hs.put_copy hv (hg v hv (by simp [hanswer])) rfl rfl
  | unbound _ now edit hunbinds hedit =>
    refine mutate_rule hs fun v hv => ?_
    have hknown : HolderKnown s := by
      cases t with
      | refused | evacuating | draining => exact hg
      | _ => simp [Task.unbinds] at hunbinds
    exact hs.put_unbind hv hknown (hedit.spec _) (hedit.holder _)
  | kicked =>
    refine mutate_rule hs fun v hv => ?_
    unfold kick
    split <;> exact hs.put_same hv rfl rfl
  | bound =>
    obtain ⟨hsaw, hspec, hstatus⟩ := ht
    refine ⟨below_some (lt_succ_self _), ?_, ?_, ?_⟩
    · rintro v node' ⟨⟩ hnode
      exact hnode
    · rintro v node' ⟨⟩ hnode
      exact absurd (hstatus.symm.trans hnode) (by simp)
    · rintro ⟨v, ⟨⟩, hnode, -⟩
      cases hnode
  | removed =>
    refine ⟨below_none _, ?_, ?_, ?_⟩
    · rintro v node ⟨⟩
    · rintro v node ⟨⟩
    · rintro ⟨v, ⟨⟩, -⟩

theorem Spawned.placementOk {u} (h : Spawned s s' t u) (ht : PlacementOk s' t) :
    PlacementOk s' u := by
  cases h with
  | plain _ _ hplain =>
    cases u with
    | pass | bind => cases hplain
    | _ => trivial
  | places vm node hspec hstatus => exact ⟨ht, hspec, hstatus⟩
  | _ => trivial

theorem holderOutline : program.Outline holderGuard Recorded PlacementOk where
  env := by
    intro s event s' new hs hg h
    have hfollows := env_follows h
    obtain ⟨v, hv, heffect, hnew⟩ := env_effect h
    refine ⟨?_, fun t ht => ?_, fun t ht => placementOk_follows hfollows ht⟩
    · rcases heffect with rfl | ⟨rfl, rfl⟩ | ⟨vm, rfl, hspec, hstatus, -⟩
      · exact hs
      · exact hs.put_unbind hv hg rfl rfl
      · exact hs.put_same hv hspec hstatus
    · rcases hnew t ht with rfl | rfl | rfl
      · trivial
      · exact hfollows.2 v (hs.below.saw hv)
      · trivial
  task := by
    intro s t x s' next hs ht hg h
    obtain ⟨heffect, hspawned⟩ := task_step h
    have hkeep : ∀ u, PlacementOk s u → PlacementOk s' u :=
      fun u hu => placementOk_follows heffect.follows hu
    exact ⟨hs.effect ht hg heffect, fun u hu => (hspawned u hu).placementOk (hkeep t ht),
      hkeep⟩

def ClearedOnItsWord (w : World State Task) (m : Move Event Input) (w' : World State Task) :
    Prop :=
  ∀ v v' node, w.shared.cell = some v → w'.shared.cell = some v' →
    v.val.status.nodeName = some node → v'.val.status.nodeName = none →
    ∃ i x listed r, m = .task i x ∧ w.tasks[i]? = some (.forget listed r) ∧
      r.node = node ∧ r.vmsComplete ∧ r.line = none

def PlacedAfterLetGo (w w' : World State Task) : Prop :=
  ∀ v v' target, w.shared.cell = some v → w'.shared.cell = some v' →
    v.val.spec.nodeName = none → v'.val.spec.nodeName = some target →
    ∀ old, lastBound w.shared.log = some old → stillReports old w.shared.log = false

theorem Effect.cleared {v' node} (h : Effect s t x s') (hg : holderGuard.task s t x)
    (hv : s.cell = some v) (hv' : s'.cell = some v') (hheld : v.val.status.nodeName = some node)
    (hnone : v'.val.status.nodeName = none) (ht : PlacementOk s t) :
    ∃ listed r, t = .forget listed r ∧ r.node = node ∧ r.vmsComplete ∧ r.line = none := by
  -- A step that leaves the holder alone cannot have cleared it.
  have hsame : v'.val.status.nodeName ≠ v.val.status.nodeName := by
    rw [hheld, hnone]
    simp
  have hcopy : ¬Departed s → v'.val.status.nodeName ≠ v.val.spec.nodeName := by
    intro hdeparted hspec
    exact hdeparted ⟨v, hv, hspec.symm.trans hnone, by simp [hheld]⟩
  cases h with
  | forgot listed r now hletting =>
    rw [mutate_of_some hv] at hv'
    cases hv'
    simp only [settle_nodeName, forgetUnbound] at hsame
    split at hsame
    · rename_i hgo
      simp only [and_eq_true, decide_eq_true_eq] at hgo
      simp only [lettingGo, and_eq_true, isNone_iff_eq_none] at hletting
      exact ⟨listed, r, rfl, some.inj (hgo.2.symm.trans hheld), hletting.1.1.1, hletting.2⟩
    · exact absurd rfl hsame
  | ingested listed r now phase reason message hchanged =>
    rw [mutate_of_some hv] at hv'
    cases hv'
    have hcopied := hcopy (hg (by simp [hchanged]))
    simp only [settle_nodeName, ingestPhases] at hsame hcopied
    split at hsame
    · rename_i hours
      simp [hours] at hcopied
    · exact absurd rfl hsame
  | answered =>
    rw [mutate_of_some hv] at hv'
    cases hv'
    simp only [settle_nodeName, dispatchCreate] at hsame
    split at hsame
    · exact absurd rfl hsame
    · rename_i hanswer
      have hcopied := hcopy (hg v hv (by simp [hanswer]))
      simp [dispatchCreate, hanswer] at hcopied
  | unbound _ now edit hunbinds hedit =>
    rw [mutate_of_some hv] at hv'
    cases hv'
    exact absurd (hedit.holder v.val) hsame
  | kicked =>
    rw [mutate_of_some hv] at hv'
    cases hv'
    simp only [settle_nodeName, kick] at hsame
    split at hsame <;> exact absurd rfl hsame
  | bound vm target now hstands =>
    cases hv'
    have hsaw := ht.1.eq_of_standsAt hstands
    have hread : v = vm := some.inj (hv.symm.trans hsaw)
    rw [hread, ht.2.2] at hheld
    cases hheld
  | removed => cases hv'
  | _ =>
    have hstays : v' = v := some.inj (hv'.symm.trans hv)
    exact absurd (by rw [hstays]) hsame

theorem Effect.placed {v' target} (h : Effect s t x s') (ht : PlacementOk s t)
    (hv : s.cell = some v) (hv' : s'.cell = some v') (hspec : v.val.spec.nodeName = none)
    (htarget : v'.val.spec.nodeName = some target) : Placeable s := by
  have hsame : v'.val.spec.nodeName ≠ v.val.spec.nodeName := by
    rw [hspec, htarget]
    simp
  cases h with
  | forgot | ingested | answered | kicked =>
    rw [mutate_of_some hv] at hv'
    cases hv'
    simp only [settle_spec, forgetUnbound, ingestPhases, dispatchCreate, kick] at hsame
    split at hsame <;> exact absurd rfl hsame
  | unbound _ now edit hunbinds hedit =>
    rw [mutate_of_some hv] at hv'
    cases hv'
    have hnone := hedit.spec v.val
    rw [settle_spec, hnone] at htarget
    cases htarget
  | bound vm node now hstands =>
    exact ⟨vm, ht.1.eq_of_standsAt hstands, ht.2⟩
  | removed => cases hv'
  | _ =>
    have hstays : v' = v := some.inj (hv'.symm.trans hv)
    exact absurd (by rw [hstays]) hsame

def start (next rev : Nat) (vm : Vm) : World State Task := ⟨⟨⟨next, some ⟨rev, vm⟩⟩, []⟩, []⟩

theorem recorded_start {next rev} (hrev : rev < next) (hspec : vm.spec.nodeName = none)
    (hstatus : vm.status.nodeName = none) :
    Program.Holds Recorded PlacementOk (start next rev vm) := by
  refine ⟨⟨below_some hrev, ?_, ?_, ?_⟩, by simp [start]⟩
  · rintro v node ⟨⟩ hn
    rw [hspec] at hn
    cases hn
  · rintro v node ⟨⟩ hn
    rw [hstatus] at hn
    cases hn
  · rintro - node ⟨⟩

/--
In every run that meets the guard, the record of a VM's holder is cleared only
by `forget_unbound` on a complete report of that node without the VM, and the VM
is bound again only when the node it left does not report it.
-/
theorem holder_forgotten_on_its_word {next rev : Nat} {vm : Vm} (hrev : rev < next)
    (hspec : vm.spec.nodeName = none) (hstatus : vm.status.nodeName = none)
    {ms : List (Move Event Input)} {w w' : World State Task} {m : Move Event Input}
    (hmeets : program.RunMeets holderGuard (start next rev vm) ms)
    (hrun : program.run (start next rev vm) ms = some w) (hm : holderGuard.Meets w m)
    (hstep : program.step w m = some w') : ClearedOnItsWord w m w' ∧ PlacedAfterLetGo w w' := by
  obtain ⟨hshared, htasks⟩ :=
    holderOutline.run (recorded_start hrev hspec hstatus) hmeets hrun
  rcases program.step_cases hstep with ⟨event, new, rfl, henv, -⟩ |
    ⟨i, x, t, tnext, rfl, ht, htask, -⟩ | ⟨i, rfl, hs, -⟩
  · obtain ⟨u, hu, heffect, -⟩ := env_effect henv
    constructor
    · intro v v' node hv hv' hheld hnone
      cases hu.symm.trans hv
      rcases heffect with hs | ⟨-, hs⟩ | ⟨vm', hs, -, hstays, -⟩ <;> rw [hs] at hv'
      · cases hu.symm.trans hv'
        exact absurd (hheld.symm.trans hnone) (by simp)
      · cases hv'
        exact absurd (hheld.symm.trans hnone) (by simp)
      · cases hv'
        exact absurd (hheld.symm.trans (hstays.symm.trans hnone)) (by simp)
    · intro v v' target hv hv' hunbound htarget
      cases hu.symm.trans hv
      rcases heffect with hs | ⟨-, hs⟩ | ⟨vm', hs, hstays, -⟩ <;> rw [hs] at hv'
      · cases hu.symm.trans hv'
        exact absurd (hunbound.symm.trans htarget) (by simp)
      · cases hv'
        cases htarget
      · cases hv'
        exact absurd (hunbound.symm.trans (hstays.symm.trans htarget)) (by simp)
  · have heffect := (task_step htask).1
    have htOk := htasks t (mem_of_getElem? ht)
    constructor
    · intro v v' node hv hv' hheld hnone
      obtain ⟨listed, r, rfl, hword⟩ := heffect.cleared (hm t ht) hv hv' hheld hnone htOk
      exact ⟨i, x, listed, r, rfl, ht, hword⟩
    · intro v v' target hv hv' hunbound htarget
      exact hshared.letGo (heffect.placed htOk hv hv' hunbound htarget)
  · constructor
    · intro v v' node hv hv' hheld hnone
      rw [hs] at hv'
      cases hv.symm.trans hv'
      exact absurd (hheld.symm.trans hnone) (by simp)
    · intro v v' target hv hv' hunbound htarget
      rw [hs] at hv'
      cases hv.symm.trans hv'
      exact absurd (hunbound.symm.trans htarget) (by simp)

def stoppingLine : VmLine := ⟨some .provisioning, .stopping, some "still being taken apart"⟩

variable (node : String)

def bootedOn : List (Move Event Input) :=
  [.env .pass, .task 0 (.place node), .task 0 (.go 1),
    .env .pass, .task 0 .create, .task 0 .acked, .task 0 (.go 2),
    .env .list, .task 0 (.report ⟨node, true, some stoppedLine, 3⟩),
    .task 1 (.go 3), .task 1 (.go 3), .crash 0]

def leaving : List (Move Event Input) :=
  [.env .unbind, .env .list, .task 0 (.report ⟨node, true, some stoppingLine, 4⟩),
    .task 1 (.go 4)]

/--
The report a node makes while it destroys an unbound VM clears the record that
it holds the VM, and the VM is bound to a second node.
-/
theorem holder_lost_to_a_stopping_report :
    ∃ w1 w2 w3 w4, program.run (start 1 0 guest) (bootedOn "a" ++ leaving "a") = some w1 ∧
      program.step w1 (.task 1 (.go 4)) = some w2 ∧
      ¬ClearedOnItsWord w1 (.task 1 (.go 4)) w2 ∧
      program.run w2 [.env .pass, .task 1 (.place "b")] = some w3 ∧
      program.step w3 (.task 1 (.go 5)) = some w4 ∧ ¬PlacedAfterLetGo w3 w4 := by
  refine ⟨_, _, _, _, rfl, rfl, ?_, rfl, rfl, ?_⟩
  · intro h
    obtain ⟨i, x, listed, r, hmove, htask, -⟩ := h _ _ "a" rfl rfl rfl rfl
    cases hmove
    cases htask
  · intro h
    exact absurd (h _ _ "b" rfl rfl rfl rfl "a" rfl) (by decide)

def letGoBy : List (Move Event Input) :=
  [.env .unbind, .env .list, .task 0 (.report ⟨node, true, none, 4⟩), .task 1 (.go 4),
    .task 1 (.go 4), .env .pass, .task 1 (.place "b")]

theorem holder_forgotten_on_its_word_rebound :
    ∃ w w', program.run (start 1 0 guest) (bootedOn "a" ++ letGoBy "a") = some w ∧
      program.step w (.task 1 (.go 5)) = some w' ∧
      (ClearedOnItsWord w (.task 1 (.go 5)) w' ∧ PlacedAfterLetGo w w') := by
  refine ⟨_, _, rfl, rfl, ?_⟩
  exact holder_forgotten_on_its_word (zero_lt_one) rfl rfl
    (by decide : program.RunMeets holderGuard (start 1 0 guest) (bootedOn "a" ++ letGoBy "a"))
    rfl (by decide) rfl

end MeisterStack.ClusterController.Holder
