import MeisterStack.ClusterController.Volumes

/-!
# One consumer per volume

A create that a node has not cleared keeps the claim of its VM on the volume, as long as the
claimant is not written off or the node is known to have the volume open. The report of a node that
has just opened the volume comes after the create; a run without `volumeGuard` gives the volume
away.
-/

namespace MeisterStack.ClusterController.Volumes

open Foundation ControllerApi List Option Slot VolumeStatus Bool

def KnownOpen (s : State) (v : Volume) : Prop :=
  ∀ c ∈ s.creates, c.cleared = false → c.node ∈ v.status.openOn

def ClearedAt (s : State) (node : String) : Prop :=
  ∀ c ∈ s.creates, c.node = node → c.cleared

deriving instance Decidable for KnownOpen
deriving instance Decidable for ClearedAt

def volumeGuard : Guard State Task Event Input where
  env _ _ := True
  task s t _ :=
    match t with
    | .release vm => ∀ v ∈ s.cell, v.val.status.heldBy vm.name vm.uid →
        KnownOpen s v.val
    | .note listed verdict => verdict.gone →
        ∀ v ∈ s.cell, v.val.status.attachedTo = listed.status.attachedTo ∧
          v.val.status.attachedUid = listed.status.attachedUid → KnownOpen s v.val
    | .dispatch vm _ => ∃ v ∈ s.cell, v.val.status.claimedBy vm.uid ∧
        v.val.status.claimantGone = false
    | .gone line _ | .observed line _ _ => line.isOpen = false →
        ∀ v ∈ s.cell, v.val.status.claimantGone = false ∨ ClearedAt s line.node
    | _ => True

instance (s event) : Decidable (volumeGuard.env s event) := .isTrue trivial

instance (s t input) : Decidable (volumeGuard.task s t input) := by
  cases t <;> dsimp only [volumeGuard] <;> infer_instance

def Held (c : Create) (s : VolumeStatus) : Prop :=
  s.claimedBy c.uid ∧ (s.claimantGone = false ∨ c.node ∈ s.openOn)

variable {c : Create}

theorem Held.settle {s} (h : Held c s) : Held c s.settle := by
  rw [settle_of_holds]
  · exact h
  · exact h.2.imp_right ne_nil_of_mem

theorem Held.attached {s} (h : Held c s) : s.attachedTo ≠ none ∧ s.attachedUid = some c.uid := by
  obtain ⟨hclaim, -⟩ := h
  simp only [claimedBy, and_eq_true, decide_eq_true_eq] at hclaim
  exact ⟨isSome_iff_ne_none.mp hclaim.1, hclaim.2⟩

theorem Held.congr {s s'} (h : Held c s) (hto : s'.attachedTo = s.attachedTo)
    (huid : s'.attachedUid = s.attachedUid) (hgone : s'.claimantGone = s.claimantGone)
    (hopen : s'.openOn = s.openOn) : Held c s' := by
  unfold Held claimedBy at *
  rwa [hto, huid, hgone, hopen]

structure Safe (s : State) : Prop where
  below : s.cell.Below s.next
  held : ∀ c ∈ s.creates, c.cleared = false → ∀ v ∈ s.cell, Held c v.val.status

def TaskOk (s : State) : Task → Prop
  | .claim _ _ read => s.cell.Saw s.next read ∧ read.val.status.attachedTo = none
  | .note listed verdict => listed.status.attachedUid ≠ none → verdict.bind = none
  | _ => True

variable {s : State}

theorem Safe.put {v'} (h : Safe s) (hheld : ∀ c ∈ s.creates, c.cleared = false → Held c v'.status) :
    Safe (s.put v') := by
  refine ⟨(follows_write s.toSlot v'.settle).1 h.below, fun c hc hcleared v hv => ?_⟩
  cases hv
  exact (hheld c hc hcleared).settle

theorem Safe.mutate {edit} (h : Safe s)
    (hedit : ∀ v ∈ s.cell, ∀ c ∈ s.creates, c.cleared = false → Held c v.val.status →
      Held c (edit v.val).status) : Safe (s.mutate edit) := by
  cases hv : s.cell with
  | none =>
    rw [State.mutate, mutate_of_none hv]
    exact h
  | some v =>
    rw [State.mutate, mutate_of_some hv]
    exact h.put fun c hc hcleared => hedit v hv c hc hcleared (h.held c hc hcleared v hv)

variable {s' : State}

theorem TaskOk.follows {t} (h : TaskOk s t) (hf : Slot.Follows s.toSlot s'.toSlot) :
    TaskOk s' t := by
  cases t with
  | claim vm node read => exact ⟨hf.2 read h.1, h.2⟩
  | note => exact h
  | _ => trivial

theorem follows_mutate (s : State) (edit : Volume → Volume) :
    Slot.Follows s.toSlot (s.mutate edit).toSlot := by
  cases hv : s.cell with
  | none =>
    rw [State.mutate, mutate_of_none hv]
    exact .refl _
  | some =>
    rw [State.mutate, mutate_of_some hv]
    exact follows_write _ _

variable {v : Volume}

theorem held_carryOpen (vm node) (h : Held c v.status) : Held c (carryOpen vm node v).status := by
  unfold carryOpen
  split
  · exact h.congr rfl rfl rfl rfl
  · exact h

theorem held_followVm (vm node now) (h : Held c v.status) :
    Held c (followVm vm node now v).status := by
  unfold followVm
  split
  · exact h.congr rfl rfl rfl rfl
  · exact h

variable {vm : VmObject}

theorem held_release (h : Held c v.status)
    (hopen : v.status.heldBy vm.name vm.uid → c.node ∈ v.status.openOn) :
    Held c (release vm v).status := by
  unfold release
  split
  · exact ⟨h.1, .inr (hopen ‹_›)⟩
  · exact h

variable {listed : Volume}

theorem held_noteClaimant {verdict} (h : Held c v.status)
    (hbind : listed.status.attachedUid ≠ none → verdict.bind = none)
    (hopen : verdict.gone → v.status.attachedTo = listed.status.attachedTo ∧
      v.status.attachedUid = listed.status.attachedUid → c.node ∈ v.status.openOn) :
    Held c (noteClaimant listed verdict v).status := by
  unfold noteClaimant
  split
  · rename_i hsame
    simp only [and_eq_true, decide_eq_true_eq] at hsame
    have huid := h.attached.2
    have hnone : verdict.bind = none := hbind (by rw [← hsame.2, huid]; simp)
    refine ⟨?_, ?_⟩
    · simpa [claimedBy, hnone] using h.1
    · cases hgone : verdict.gone with
      | false => exact .inl rfl
      | true => exact .inr (hopen hgone hsame)
  · exact h

theorem claimantVerdict_bind (vms) (h : listed.status.attachedUid ≠ none) :
    (claimantVerdict listed vms).bind = none := by
  unfold claimantVerdict
  split
  · rfl
  · rename_i hnone
    exact absurd hnone h

variable {node : String}

theorem held_noteOpen {status isOpen} (h : Held c status)
    (hclosed : isOpen = false → status.claimantGone = false ∨ c.node ≠ node) :
    Held c (noteOpen status node isOpen) := by
  unfold noteOpen
  split
  · refine ⟨h.1, h.2.imp_right fun hmem => ?_⟩
    exact mem_insert_of_mem hmem
  · rename_i hisOpen
    rcases hclosed (by simpa using hisOpen) with hgone | hne
    · exact ⟨h.1, .inl hgone⟩
    · refine ⟨h.1, h.2.imp_right fun hmem => ?_⟩
      simpa [closedHere] using ⟨hmem, hne⟩

variable {line : VolumeLine}

theorem held_applyGone (now) (h : Held c v.status)
    (hclosed : line.isOpen = false → v.status.claimantGone = false ∨ c.node ≠ line.node) :
    Held c (applyGone line now v).status := by
  have hnote := held_noteOpen h hclosed
  unfold applyGone
  split_ifs
  · exact h
  · exact hnote
  · exact h
  · exact hnote.congr rfl rfl rfl rfl

theorem held_applyLine (said now) (h : Held c v.status)
    (hclosed : line.isOpen = false → v.status.claimantGone = false ∨ c.node ≠ line.node) :
    Held c (applyLine line said now v).status := by
  unfold applyLine
  split_ifs
  · exact h
  all_goals exact (held_noteOpen h hclosed).congr rfl rfl rfl rfl

theorem Safe.creates {creates vms openAt reports} (h : Safe s)
    (hcreates : ∀ c ∈ creates, c.cleared = false →
      (∃ c0 ∈ s.creates, c0.cleared = false ∧ c.uid = c0.uid ∧ c.node = c0.node) ∨
      ∀ v ∈ s.cell, Held c v.val.status) : Safe { s with creates, vms, openAt, reports } := by
  refine ⟨h.below, fun c hc hcleared v hv => ?_⟩
  rcases hcreates c hc hcleared with ⟨c0, hc0, hcleared0, huid, hnode⟩ | hheld
  · have hheld := h.held c0 hc0 hcleared0 v hv
    unfold Held at hheld ⊢
    rwa [huid, hnode]
  · exact hheld v hv

theorem safe_handle {index refused opened} (h : Safe s)
    (hs : s.handle index refused opened = some s') : Safe s' := by
  obtain ⟨c, hc, rfl⟩ := map_eq_some_iff.mp hs
  refine h.creates fun c' hc' hcleared => .inl ?_
  rcases mem_or_eq_of_mem_set hc' with hmem | rfl
  · exact ⟨c', hmem, hcleared, rfl, rfl⟩
  · exact ⟨c, mem_of_getElem? hc, by simp_all, rfl, rfl⟩

theorem safe_report (h : Safe s) (node word) : Safe (s.report node word) := by
  refine h.creates fun c' hc' hcleared => .inl ?_
  obtain ⟨c, hc, rfl⟩ := mem_map.mp hc'
  split_ifs at hcleared with hhandled
  rw [if_neg hhandled]
  exact ⟨c, hc, hcleared, rfl, rfl⟩

variable {read : Versioned Volume}

theorem taskOk_decideHold
    (hread : s.cell.Saw s.next read) : ∀ t ∈ decideHold vm node read, TaskOk s t := by
  intro t ht
  unfold decideHold at ht
  split_ifs at ht with _ _ hattached
  all_goals simp only [not_mem_nil, mem_singleton] at ht
  · subst ht
    trivial
  · subst ht
    exact ⟨hread, by simpa using hattached⟩

theorem taskOk_holdVolumes {travels} (hread : s.cell.Saw s.next read) :
    ∀ t ∈ holdVolumes vm node read travels, TaskOk s t := by
  intro t ht
  unfold holdVolumes at ht
  split_ifs at ht
  · cases ht
  · cases mem_singleton.mp ht
    trivial
  · cases mem_singleton.mp ht
    trivial
  all_goals exact taskOk_decideHold hread t ht

theorem taskOk_ingestVolumes {now} : ∀ t ∈ ingestVolumes listed line now, TaskOk s t := by
  intro t ht
  unfold ingestVolumes at ht
  split_ifs at ht
  · cases ht
  · cases mem_singleton.mp ht
    trivial
  · split at ht
    · cases ht
    · dsimp only at ht
      split_ifs at ht
      · cases ht
      · cases mem_singleton.mp ht
        trivial

variable (hsafe : Safe s)

include hsafe

theorem outline_env {event new} (henv : program.env s event = some (s', new)) :
    Safe s' ∧ (∀ t ∈ new, TaskOk s' t) ∧ ∀ t, TaskOk s t → TaskOk s' t := by
  -- most events touch neither the volume nor the creates
  have hsame : ∀ {vms openAt}, Safe { s with vms, openAt } := hsafe.creates
    fun c hc hcleared => .inl ⟨c, hc, hcleared, rfl, rfl⟩
  have hkeep : ∀ {creates vms openAt reports} (t : Task), TaskOk s t →
      TaskOk { s with creates, vms, openAt, reports } t := fun t ht => ht.follows (.refl _)
  cases event with
  | vm | vmGone | closed =>
    cases henv
    exact ⟨hsame, by simp, hkeep⟩
  | pass =>
    dsimp only [program, env] at henv
    split at henv
    · split_ifs at henv
      obtain ⟨node, -, hpair⟩ := map_eq_some_iff.mp henv
      cases hpair
      exact ⟨hsafe, by simp [TaskOk], fun t ht => ht⟩
    · cases henv
  | kick =>
    obtain ⟨vm, -, henv⟩ := bind_eq_some_iff.mp henv
    obtain ⟨node, -, hpair⟩ := map_eq_some_iff.mp henv
    cases hpair
    exact ⟨hsafe, by simp [TaskOk], fun t ht => ht⟩
  | letGo =>
    dsimp only [program, env] at henv
    split at henv
    · split_ifs at henv
      cases henv
      exact ⟨hsafe, by simp [TaskOk], fun t ht => ht⟩
    · cases henv
  | placeVolumes | receive =>
    obtain ⟨_, -, hpair⟩ := map_eq_some_iff.mp henv
    cases hpair
    exact ⟨hsafe, by simp [TaskOk], fun t ht => ht⟩
  | delete =>
    obtain ⟨v, hv, hpair⟩ := map_eq_some_iff.mp henv
    cases hpair
    refine ⟨hsafe.put fun c hc hcleared => ?_, by simp, fun t ht => ?_⟩
    · exact (hsafe.held c hc hcleared v hv).congr rfl rfl rfl rfl
    · exact ht.follows (follows_write _ _)
  | write =>
    dsimp only [program, env] at henv
    split at henv
    · rename_i v hv
      split_ifs at henv with hwrite
      cases henv
      simp only [mayWrite, and_eq_true, decide_eq_true_eq] at hwrite
      obtain ⟨⟨⟨⟨-, hto⟩, huid⟩, hgone⟩, hopen⟩ := hwrite
      refine ⟨hsafe.put fun c hc hcleared => ?_, by simp, fun t ht => ?_⟩
      · exact (hsafe.held c hc hcleared v hv).congr hto huid hgone hopen
      · exact ht.follows (follows_write _ _)
    · cases henv
  | removed =>
    cases henv
    refine ⟨⟨(follows_remove s.toSlot).1 hsafe.below, ?_⟩, by simp, fun t ht => ?_⟩
    · intro c _ _ v hv
      cases hv
    · exact ht.follows (follows_remove _)
  | handled =>
    obtain ⟨s1, hs1, hpair⟩ := map_eq_some_iff.mp henv
    cases hpair
    refine ⟨safe_handle hsafe hs1, by simp, fun t ht => ?_⟩
    obtain ⟨c, -, rfl⟩ := map_eq_some_iff.mp hs1
    exact hkeep t ht
  | made node word =>
    cases henv
    exact ⟨safe_report hsafe node word, by simp, hkeep⟩

theorem mutate_ok {edit}
    (hedit : ∀ v ∈ s.cell, ∀ c ∈ s.creates, c.cleared = false → Held c v.val.status →
      Held c (edit v.val).status) :
    Safe (s.mutate edit) ∧ (∀ u ∈ ([] : List Task), TaskOk (s.mutate edit) u) ∧
      ∀ u, TaskOk s u → TaskOk (s.mutate edit) u :=
  ⟨hsafe.mutate hedit, by simp, fun _ hu => hu.follows (follows_mutate s _)⟩

variable {input : Input} {next : List Task}

/-- A step leaves a safe state, good tasks to go on with, and the other tasks as good as before. -/
abbrev Sustains (s s' : State) (next : List Task) : Prop :=
  Safe s' ∧ (∀ u ∈ next, TaskOk s' u) ∧ ∀ u, TaskOk s u → TaskOk s' u

theorem task_hold
    (htask : program.task s (.hold vm node) input = some (s', next)) :
    Sustains s s' next := by
  cases input <;> try cases htask
  dsimp only [program, task] at htask
  split at htask
  · cases htask
    exact ⟨hsafe, by simp, fun _ hu => hu⟩
  · rename_i read hread
    cases htask
    exact ⟨hsafe, taskOk_holdVolumes (hsafe.below.saw hread), fun _ hu => hu⟩

theorem task_carry
    (htask : program.task s (.carry vm node) input = some (s', next)) : Sustains s s' next := by
  obtain ⟨hsafe', -, hkeep⟩ := mutate_ok hsafe
    (fun v _ c _ _ h => held_carryOpen vm node h : ∀ v ∈ s.cell, ∀ c ∈ s.creates,
      c.cleared = false → Held c v.val.status → Held c (carryOpen vm node v.val).status)
  cases input <;> try cases htask
  dsimp only [program, task] at htask
  split at htask
  · rename_i read moved _ hmoved
    split_ifs at htask
    · cases htask
      exact ⟨hsafe', taskOk_decideHold (hsafe'.below.saw hmoved), hkeep⟩
    · cases htask
      exact ⟨hsafe', by simp, hkeep⟩
  · cases htask
    exact ⟨hsafe', by simp, hkeep⟩

theorem task_claim (hok : TaskOk s (.claim vm node read))
    (htask : program.task s (.claim vm node read) input = some (s', next)) :
    Sustains s s' next := by
  cases input <;> try cases htask
  dsimp only [program, task] at htask
  split_ifs at htask with hstands
  · cases htask
    obtain ⟨hsaw, hnone⟩ := hok
    have hcell := hsaw.eq_of_standsAt hstands
    refine ⟨hsafe.put fun c hc hcleared => ?_, by simp [TaskOk], fun u hu => ?_⟩
    · exact absurd hnone (hsafe.held c hc hcleared read hcell).attached.1
    · exact hu.follows (follows_write _ _)
  · cases htask
    exact ⟨hsafe, by simp, fun _ hu => hu⟩

theorem task_dispatch (hguard : volumeGuard.task s (.dispatch vm node) input)
    (htask : program.task s (.dispatch vm node) input = some (s', next)) : Sustains s s' next := by
  cases input with
  | sent =>
    cases htask
    refine ⟨hsafe.creates fun c hc hcleared => ?_, by simp, fun u hu => hu.follows (.refl _)⟩
    rcases mem_append.mp hc with hc | hc
    · exact .inl ⟨c, hc, hcleared, rfl, rfl⟩
    · obtain ⟨v0, hv0, hclaim, hgone⟩ := hguard
      refine .inr fun v hv => ?_
      cases mem_singleton.mp hc
      cases hv0.symm.trans hv
      exact ⟨hclaim, .inl hgone⟩
  | undeliverable =>
    cases htask
    exact ⟨hsafe, by simp, fun _ hu => hu⟩
  | _ => cases htask

theorem task_listVms
    (htask : program.task s (.listVms listed) input = some (s', next)) : Sustains s s' next := by
  cases input <;> try cases htask
  dsimp only [program, task] at htask
  split_ifs at htask
  · cases htask
    exact ⟨hsafe, by simp, fun _ hu => hu⟩
  · cases htask
    exact ⟨hsafe, by simp, fun _ hu => hu⟩
  · cases htask
    refine ⟨hsafe, fun u hu => ?_, fun _ hu => hu⟩
    cases mem_singleton.mp hu
    exact claimantVerdict_bind s.vms

omit hsafe

theorem outline : program.Outline volumeGuard Safe TaskOk where
  env hsafe _ henv := outline_env hsafe henv
  task := by
    intro s t input s' next hsafe hok hguard htask
    cases t with
    | hold => exact task_hold hsafe htask
    | carry => exact task_carry hsafe htask
    | follow vm node =>
      cases input <;> try cases htask
      exact mutate_ok hsafe fun v _ c _ _ h => held_followVm vm node _ h
    | claim => exact task_claim hsafe hok htask
    | dispatch => exact task_dispatch hsafe hguard htask
    | release =>
      cases input <;> try cases htask
      exact mutate_ok hsafe fun v hv c hc hcleared h =>
        held_release h fun hheld => hguard v hv hheld c hc hcleared
    | listVms => exact task_listVms hsafe htask
    | note =>
      cases input <;> try cases htask
      exact mutate_ok hsafe fun v hv c hc hcleared h =>
        held_noteClaimant h hok fun hgone hsame => hguard hgone v hv hsame c hc hcleared
    | ingest =>
      cases input <;> try cases htask
      refine ⟨hsafe, fun u hu => ?_, fun _ hu => hu⟩
      cases hv : s.cell with
      | none => simp [hv] at hu
      | some =>
        rw [hv] at hu
        exact taskOk_ingestVolumes u hu
    | gone line now =>
      cases input <;> try cases htask
      refine mutate_ok hsafe fun v hv c hc hcleared h => held_applyGone now h fun hclosed => ?_
      exact (hguard hclosed v hv).imp_right fun hat hnode => by simp [hat c hc hnode] at hcleared
    | observed line said now =>
      cases input <;> try cases htask
      refine mutate_ok hsafe fun v hv c hc hcleared h =>
        held_applyLine said now h fun hclosed => ?_
      exact (hguard hclosed v hv).imp_right fun hat hnode => by simp [hat c hc hnode] at hcleared

theorem env_creates {event new} (h : program.env s event = some (s', new)) :
    s'.creates.length = s.creates.length := by
  cases event with
  | vm | vmGone | removed | closed =>
    cases h
    rfl
  | pass | letGo =>
    dsimp only [program, env] at h
    split at h
    · split_ifs at h
      first
        | cases h
          rfl
        | obtain ⟨node, -, hpair⟩ := map_eq_some_iff.mp h
          cases hpair
          rfl
    · cases h
  | kick =>
    obtain ⟨vm, -, h⟩ := bind_eq_some_iff.mp h
    obtain ⟨node, -, hpair⟩ := map_eq_some_iff.mp h
    cases hpair
    rfl
  | placeVolumes | receive | delete =>
    obtain ⟨_, -, hpair⟩ := map_eq_some_iff.mp h
    cases hpair
    rfl
  | write =>
    dsimp only [program, env] at h
    split at h
    · split_ifs at h
      cases h
      rfl
    · cases h
  | handled =>
    obtain ⟨s1, hs1, hpair⟩ := map_eq_some_iff.mp h
    cases hpair
    obtain ⟨c, -, rfl⟩ := map_eq_some_iff.mp hs1
    simp
  | made =>
    cases h
    simp [State.report]

theorem task_creates {t} (h : program.task s t input = some (s', next)) :
    s'.creates = s.creates ∨
      ∃ vm node, t = .dispatch vm node ∧
        s'.creates = s.creates ++ [⟨vm.uid, node, false, false⟩] := by
  cases t with
  | dispatch vm node =>
    cases input with
    | sent =>
      cases h
      exact .inr ⟨vm, node, rfl, rfl⟩
    | undeliverable =>
      cases h
      exact .inl rfl
    | _ => cases h
  | hold | claim | listVms | carry =>
    left
    cases input <;> try cases h
    dsimp only [program, task] at h
    repeat' split at h
    all_goals
      cases h
      rfl
  | _ =>
    left
    cases input <;> cases h
    rfl

/-- When a create that names the volume is sent, every node that was sent a create of
another VM has refused it, or has reported the volume not open since it handled it. -/
theorem one_consumer_per_volume {s : State} (hbelow : s.cell.Below s.next)
    (hcreates : s.creates = []) {ms : List (Move Event Input)} {w w' : World State Task}
    {m : Move Event Input} {sent : Create} (hm : program.RunMeets volumeGuard ⟨s, []⟩ ms)
    (hrun : program.run ⟨s, []⟩ ms = some w) (hlast : volumeGuard.Meets w m)
    (hstep : program.step w m = some w') (hsent : w'.shared.creates = w.shared.creates ++ [sent]) :
    ∀ c ∈ w.shared.creates, c.uid ≠ sent.uid → c.cleared := by
  have hinit : Program.Holds Safe TaskOk ⟨s, []⟩ :=
    ⟨⟨hbelow, by simp [hcreates]⟩, by simp⟩
  obtain ⟨hsafe, -⟩ := outline.run hinit hm hrun
  rcases program.step_cases hstep with ⟨event, new, rfl, henv, -⟩ |
    ⟨index, input, t, next, rfl, ht, htask, -⟩ | ⟨index, rfl, hshared, -⟩
  · have hlength := env_creates henv
    simp [hsent] at hlength
  · rcases task_creates htask with hsame | ⟨vm, node, rfl, happend⟩
    · simp [hsent] at hsame
    · rw [hsent] at happend
      cases append_cancel_left happend
      obtain ⟨v, hv, hclaim, -⟩ := hlast _ ht
      intro c hc huid
      by_contra hcleared
      have hheld := hsafe.held c hc (by simpa using hcleared) v hv
      have hsame := hheld.attached.2
      simp only [claimedBy, and_eq_true, decide_eq_true_eq] at hclaim
      exact huid (some.inj (hsame.symm.trans hclaim.2))
  · rw [hshared] at hsent
    simp at hsent

def disk : Volume where
  name := "disk"
  uid := "disk-uid"
  deletionTimestamp := none
  status :=
    { reported := some (.of "n" .ready .unrecorded none 0), holder := none
      claimantGone := false, backend := "lv", node := some "n", openOn := []
      attachedTo := none, attachedUid := none, sizeGib := 1, observedAt := some 0 }

def start : State := ⟨⟨1, some ⟨0, disk⟩⟩, [], [], [], []⟩

def consumer (uid : String) (deleting : Bool) : VmObject := ⟨uid, uid, true, deleting, some "n"⟩

def readyWord : Word := ⟨false, some .ready, .unrecorded, none, "lv", 2 ^ 30⟩

def takesVolume (uid : String) : List (Move Event Input) :=
  [.env (.vm (consumer uid false)), .env (.pass uid), .task 0 (.pool false), .task 0 (.go 0)]

def writtenOff : List (Move Event Input) :=
  [.env (.vm (consumer "a" true)), .env .placeVolumes, .task 0 (.go 0), .task 0 (.go 0)]

def reports (index : Nat) (now : Instant) : List (Move Event Input) :=
  [.env (.made "n" readyWord), .env (.receive index now), .task 0 (.go now), .task 0 (.go now)]

def handedOver : List (Move Event Input) :=
  takesVolume "a" ++ [.task 0 .sent, .env (.handled 0 false true)] ++ reports 0 1 ++
    writtenOff ++ [.env (.closed "n")] ++ reports 1 2 ++ takesVolume "b"

theorem one_consumer_per_volume_handed_over :
    ∃ w w', program.run ⟨start, []⟩ handedOver = some w ∧
      program.step w (.task 0 .sent) = some w' ∧
      w'.shared.creates = w.shared.creates ++ [⟨"b", "n", false, false⟩] ∧
      w.shared.creates ≠ [] ∧ ∀ c ∈ w.shared.creates, c.uid ≠ "b" → c.cleared := by
  refine ⟨_, _, rfl, rfl, rfl, by decide, ?_⟩
  exact one_consumer_per_volume (m := .task 0 .sent) (Cell.below_some Nat.zero_lt_one) rfl
    (by decide : program.RunMeets volumeGuard ⟨start, []⟩ handedOver) rfl (by decide) rfl rfl

def givenAway : List (Move Event Input) :=
  takesVolume "a" ++ [.task 0 .sent, .env (.handled 0 false true)] ++ writtenOff ++
    takesVolume "b"

/-- The claim falls although the node has the volume open for the first VM, and the
create of the second one goes out. -/
theorem two_consumers_of_one_volume :
    ∃ w w', program.run ⟨start, []⟩ givenAway = some w ∧
      program.step w (.task 0 .sent) = some w' ∧
      w'.shared.creates = w.shared.creates ++ [⟨"b", "n", false, false⟩] ∧
      "n" ∈ w.shared.openAt ∧ ¬∀ c ∈ w.shared.creates, c.uid ≠ "b" → c.cleared := by
  refine ⟨_, _, rfl, rfl, rfl, by decide, by decide⟩

end MeisterStack.ClusterController.Volumes
