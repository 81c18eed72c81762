import MeisterStack.ClusterController.HolderSafety

/-!
# A VM is removed after its instances are destroyed

`tear_down` derives the node it tells from the binding and the phase. An instance that may exist is
on the bound node, or on the node an unbound VM is recorded to be held by, if creates go to the
bound node and bindings fall only after the create was recorded. In two stored states the target
misses such a node.
-/

namespace MeisterStack.ClusterController.Holder

open Foundation ControllerApi Option Bool
open ClusterController.Placement (boundTo)

def outstanding (node : String) (log : List Fact) : Bool :=
  mayHold node log && !ackedDestroy node log

theorem outstanding_cons {node fact log} (hfact : fact ≠ .createSent node)
    (h : outstanding node (fact :: log)) : outstanding node log := by
  cases fact <;> simp_all [outstanding, mayHold, ackedDestroy]

theorem not_outstanding_destroyAcked (node log) :
    outstanding node (.destroyAcked node :: log) = false := by
  simp [outstanding, ackedDestroy]

variable (s : State)

def BoundTo (node : String) : Prop :=
  ∃ v ∈ s.cell, v.val.spec.nodeName = some node ∧ v.val.isDeleting = false

def CreateRecorded : Prop :=
  ∀ v ∈ s.cell, ∀ node ∈ v.val.spec.nodeName, outstanding node s.log →
    v.val.status.nodeName = some node

def Overlooked : Prop :=
  ∃ v ∈ s.cell, (v.val.spec.nodeName = none ∧ v.val.status.nodeName.isSome) ∨
    ∃ node ∈ v.val.spec.nodeName, v.val.status.phase.kind = .pending ∧
      outstanding node s.log

def SentToBound (vm : Vm) : Input → Prop
  | .create | .kick => ∀ node ∈ vm.spec.nodeName, BoundTo s node
  | _ => True

deriving instance Decidable for BoundTo, CreateRecorded, Overlooked

instance (s vm x) : Decidable (SentToBound s vm x) := by
  induction x using Input.casesOn <;> dsimp only [SentToBound] <;> infer_instance

/--
The moves that keep every instance in sight of the teardown. Creates go to the
node the stored VM is bound to, a binding falls only after the create was
recorded, the record is neither overwritten on an unbound VM nor cleared by a
report older than the last create, and the object is not removed in a state the
teardown misreads.
-/
def teardownGuard : Guard State Task Event Input where
  env s event :=
    match event with
    | .unbind => CreateRecorded s
    | _ => True
  task s t input :=
    match t with
    | .pass vm => SentToBound s vm.val input
    | .forget listed r =>
      lettingGo listed r → Departed s → outstanding r.node s.log = false
    | .phases listed r => (r.line.bind (observe (ours r.node) listed)).isSome → ¬Departed s
    | .answered said =>
      ∀ v ∈ s.cell, (createAnswer said v.val.status.phase.kind).isSome → ¬Departed s
    | .refused _ _ => CreateRecorded s
    | .evacuating _ => CreateRecorded s
    | .draining => CreateRecorded s
    | .finish d =>
      ∀ v ∈ d.current, judged d.checked.val v.val → s.cell.standsAt v.rev →
        ¬Overlooked s
    | _ => True

instance (s event) : Decidable (teardownGuard.env s event) := by
  induction event using Event.casesOn <;> dsimp only [teardownGuard] <;> infer_instance

instance (s t x) : Decidable (teardownGuard.task s t x) := by
  induction t using Task.casesOn <;> dsimp only [teardownGuard] <;> infer_instance

structure InSight (s : State) : Prop where
  below : s.cell.Below s.next
  seen : ∀ v, s.cell = some v → ∀ node, outstanding node s.log →
    v.val.spec.nodeName = some node ∨
      v.val.spec.nodeName = none ∧ v.val.status.nodeName = some node

def Deleting : Prop := ∀ v, s.cell = some v → v.val.isDeleting

def Destroyed (checked : Vm) : Prop :=
  ∀ node, destroyTarget checked = some node → outstanding node s.log = false

def TeardownOk : Task → Prop
  | .pass vm => s.cell.Saw s.next vm ∧ (vm.val.isDeleting → Deleting s)
  | .bind vm _ => s.cell.Saw s.next vm ∧ vm.val.spec.nodeName = none ∧
      vm.val.status.nodeName = none
  | .destroying checked node => s.cell.Saw s.next checked ∧ Deleting s ∧
      destroyTarget checked.val = some node
  | .finish d => (∀ v, d.current = some v → s.cell.Saw s.next v) ∧ Deleting s ∧
      Destroyed s d.checked.val
  | _ => True

variable {s : State} {vm : Vm}

theorem InSight.put (hseen : ∀ node, outstanding node s.log →
      vm.spec.nodeName = some node ∨
        vm.spec.nodeName = none ∧ vm.status.nodeName = some node) : InSight (s.put vm) where
  below := Cell.below_some (Nat.lt_succ_self _)
  seen := by
    rintro v ⟨⟩
    exact hseen

variable {v : Versioned Vm} (h : InSight s)

include h

theorem InSight.put_same
    (hv : s.cell = some v) (hspec : vm.spec.nodeName = v.val.spec.nodeName)
    (hstatus : vm.status.nodeName = v.val.status.nodeName) : InSight (s.put vm) := by
  refine .put fun node hout => ?_
  rw [hspec, hstatus]
  exact h.seen v hv node hout

theorem InSight.put_copy (hv : s.cell = some v) (hbound : ¬Departed s)
    (hspec : vm.spec.nodeName = v.val.spec.nodeName) : InSight (s.put vm) := by
  refine .put fun node hout => ?_
  rcases h.seen v hv node hout with hon | ⟨hnone, hheld⟩
  · exact .inl (hspec.trans hon)
  · exact absurd ⟨v, hv, hnone, by simp [hheld]⟩ hbound

theorem InSight.put_unbind (hv : s.cell = some v) (hrecorded : CreateRecorded s)
    (hspec : vm.spec.nodeName = none)
    (hstatus : vm.status.nodeName = v.val.status.nodeName) : InSight (s.put vm) := by
  refine .put fun node hout => .inr ⟨hspec, ?_⟩
  rw [hstatus]
  rcases h.seen v hv node hout with hon | ⟨-, hheld⟩
  · exact hrecorded v hv node hon hout
  · exact hheld

theorem InSight.put_forget (hv : s.cell = some v) {r}
    (hgone : Departed s → outstanding r.node s.log = false) :
    InSight (s.put (forgetUnbound r v.val)) := by
  by_cases hgo : (v.val.spec.nodeName.isNone && v.val.status.nodeName = some r.node)
  · simp only [forgetUnbound, if_pos hgo]
    simp only [and_eq_true, isNone_iff_eq_none, decide_eq_true_eq] at hgo
    refine .put fun node hout => ?_
    rcases h.seen v hv node hout with hon | ⟨-, hheld⟩
    · exact .inl hon
    · have hnode : r.node = node := some.inj (hgo.2.symm.trans hheld)
      have hfalse := hgone ⟨v, hv, hgo.1, by simp [hgo.2]⟩
      rw [hnode, hout] at hfalse
      cases hfalse
  · simp only [forgetUnbound, if_neg hgo]
    exact h.put_same hv rfl rfl

theorem InSight.note {fact} (hfact : ∀ node, fact ≠ .createSent node) : InSight (s.note fact) where
  below := h.below
  seen v hv node hout := h.seen v hv node (outstanding_cons (hfact node) hout)

omit h

variable {s' : State} {t : Task} {x : Input}

theorem InSight.effect (hs : InSight s) (ht : TeardownOk s t) (hg : teardownGuard.task s t x)
    (h : Effect s t x s') : InSight s' := by
  cases h with
  | idle => exact hs
  | heard | refused | destroyed => exact hs.note (by simp)
  | forgot listed r now hletting =>
    exact mutate_rule hs fun v hv => hs.put_forget hv (hg hletting)
  | ingested listed r now phase reason message hchanged =>
    refine mutate_rule hs fun v hv => ?_
    unfold ingestPhases
    split
    · exact hs.put_copy hv (hg (by simp [hchanged])) rfl
    · exact hs.put_same hv rfl rfl
  | sent vm node x hstays hspec hx =>
    have hbound : BoundTo s node := by
      rcases hx with rfl | rfl <;> exact hg node hspec
    obtain ⟨u, hu, huspec, -⟩ := hbound
    refine ⟨hs.below, fun v hv n hout => ?_⟩
    have hv : s.cell = some v := hv
    by_cases hn : node = n
    · rw [← hn, ← huspec, some.inj (hu.symm.trans hv)]
      exact .inl rfl
    · exact hs.seen v hv n (outstanding_cons (by simpa using hn) hout)
  | answered =>
    refine mutate_rule hs fun v hv => ?_
    unfold dispatchCreate
    split
    · exact hs.put_same hv rfl rfl
    · rename_i hanswer
      exact hs.put_copy hv (hg v hv (by simp [hanswer])) rfl
  | unbound _ now edit hunbinds hedit =>
    refine mutate_rule hs fun v hv => ?_
    have hrecorded : CreateRecorded s := by
      cases t with
      | refused | evacuating | draining => exact hg
      | _ => cases hunbinds
    exact hs.put_unbind hv hrecorded (hedit.spec _) (hedit.holder _)
  | kicked =>
    refine mutate_rule hs fun v hv => ?_
    unfold kick
    split <;> exact hs.put_same hv rfl rfl
  | bound vm node now hstands =>
    obtain ⟨hsaw, hspec, hstatus⟩ := ht
    have hfree : InSight (s.put (boundTo vm.val node)) := by
      -- Nobody is bound and nobody holds the VM, so nothing is outstanding.
      refine .put fun n hout => ?_
      rcases hs.seen vm (hsaw.eq_of_standsAt hstands) n hout with hon | ⟨-, hheld⟩
      · rw [hspec] at hon
        cases hon
      · rw [hstatus] at hheld
        cases hheld
    exact hfree.note (by simp)
  | removed => exact ⟨Cell.below_none _, by rintro v ⟨⟩⟩

theorem deleting_put (h : Deleting s) (hv : s.cell = some v)
    (hstays : v.val.isDeleting → vm.isDeleting) : Deleting (s.put vm) := by
  rintro u ⟨⟩
  exact hstays (h v hv)

theorem Effect.deleting (h : Effect s t x s')
    (ht : TeardownOk s t) (hs : Deleting s) : Deleting s' := by
  cases h with
  | forgot | ingested | answered | kicked =>
    refine mutate_rule hs fun v hv => deleting_put hs hv fun hd => ?_
    simp only [forgetUnbound, ingestPhases, dispatchCreate, kick]
    split <;> exact hd
  | unbound _ now edit hunbinds hedit =>
    refine mutate_rule hs fun v hv => deleting_put hs hv fun hd => ?_
    rwa [Vm.isDeleting, hedit.deletion]
  | bound vm node now hstands =>
    have hvm := hs vm (ht.1.eq_of_standsAt hstands)
    rintro u ⟨⟩
    exact hvm
  | removed => rintro v ⟨⟩
  | _ => exact hs

theorem Effect.not_outstanding (h : Effect s t x s') (hg : teardownGuard.task s t x)
    (hs : Deleting s)
    {node} (hnode : outstanding node s.log = false) : outstanding node s'.log = false := by
  have hlog : ∀ fact, fact ≠ .createSent node → outstanding node (fact :: s.log) = false := by
    intro fact hfact
    refine eq_false_iff.mpr fun hout => ?_
    rw [outstanding_cons hfact hout] at hnode
    cases hnode
  cases h with
  | heard | refused | destroyed | bound => exact hlog _ (by simp)
  | sent vm target x hstays hspec hx =>
    have hbound : BoundTo s target := by
      rcases hx with rfl | rfl <;> exact hg target hspec
    obtain ⟨v, hv, -, hkept⟩ := hbound
    rw [hs v hv] at hkept
    cases hkept
  | _ => exact hnode

theorem teardownOk_keep (hfollows : Follows s s') (hdeleting : Deleting s → Deleting s')
    (hquiet : Deleting s → ∀ node, outstanding node s.log = false → outstanding node s'.log = false)
    (ht : TeardownOk s t) : TeardownOk s' t := by
  have hdestroyed : ∀ checked, Deleting s → Destroyed s checked → Destroyed s' checked :=
    fun checked hd h node hnode => hquiet hd node (h node hnode)
  cases t with
  | pass => exact ⟨hfollows.2 _ ht.1, fun hd => hdeleting (ht.2 hd)⟩
  | bind => exact ⟨hfollows.2 _ ht.1, ht.2⟩
  | destroying => exact ⟨hfollows.2 _ ht.1, hdeleting ht.2.1, ht.2.2⟩
  | finish =>
    exact ⟨fun v hv => hfollows.2 v (ht.1 v hv), hdeleting ht.2.1, hdestroyed _ ht.2.1 ht.2.2⟩
  | _ => trivial

theorem Spawned.teardownOk {u} (h : Spawned s s' t u) (hbelow : s'.cell.Below s'.next)
    (ht : TeardownOk s' t) : TeardownOk s' u := by
  cases h with
  | plain _ _ hplain =>
    cases u with
    | pass | bind | destroying | finish => cases hplain
    | _ => trivial
  | places vm node hspec hstatus => exact ⟨ht.1, hspec, hstatus⟩
  | destroys vm node hd htarget => exact ⟨ht.1, ht.2 hd, htarget⟩
  | finishes vm hd htarget =>
    refine ⟨fun v hv => ?_, ht.2 hd, fun node hnode => ?_⟩
    · cases hv
      exact ht.1
    · cases htarget.symm.trans hnode
  | acked vm node hs' =>
    refine ⟨fun v hv => ?_, ht.2.1, fun n hn => ?_⟩
    · cases hv
      exact ht.1
    · have hsame : n = node := some.inj (hn.symm.trans ht.2.2)
      rw [hs', hsame]
      exact not_outstanding_destroyAcked node s.log
  | retries d d' hchecked hfresh hs' =>
    subst hs'
    exact ⟨fun v hv => hbelow.saw (hfresh v hv), ht.2.1, hchecked ▸ ht.2.2⟩

theorem teardownOutline : program.Outline teardownGuard InSight TeardownOk where
  env := by
    intro s event s' new hs hg h
    have hfollows := env_follows h
    obtain ⟨v, hv, heffect, hnew⟩ := env_effect h
    have hlog : s'.log = s.log := by
      rcases heffect with rfl | ⟨-, rfl⟩ | ⟨vm, rfl, -⟩ <;> rfl
    refine ⟨?_, fun t ht => ?_, fun t ht => teardownOk_keep hfollows ?_ ?_ ht⟩
    · rcases heffect with rfl | ⟨rfl, rfl⟩ | ⟨vm, rfl, hspec, hstatus, -⟩
      · exact hs
      · exact hs.put_unbind hv hg rfl rfl
      · exact hs.put_same hv hspec hstatus
    · rcases hnew t ht with rfl | rfl | rfl
      · trivial
      · refine ⟨hfollows.2 v (hs.below.saw hv), fun hd => ?_⟩
        rcases heffect with rfl | ⟨-, rfl⟩ | ⟨vm, rfl, -, -, hstays⟩
        · intro u hu
          rw [← some.inj (hv.symm.trans hu)]
          exact hd
        · rintro u ⟨⟩
          exact hd
        · rintro u ⟨⟩
          exact hstays hd
      · trivial
    · intro hd
      rcases heffect with rfl | ⟨-, rfl⟩ | ⟨vm, rfl, -, -, hstays⟩
      · exact hd
      · exact deleting_put hd hv id
      · exact deleting_put hd hv hstays
    · intro _ node hnode
      rwa [hlog]
  task := by
    intro s t x s' next hs ht hg h
    obtain ⟨heffect, hspawned⟩ := task_step h
    have hs' := hs.effect ht hg heffect
    have hkeep : ∀ u, TeardownOk s u → TeardownOk s' u := fun u hu =>
      teardownOk_keep heffect.follows (heffect.deleting ht)
        (fun hd node hnode => heffect.not_outstanding hg hd hnode) hu
    exact ⟨hs', fun u hu => (hspawned u hu).teardownOk hs'.below (hkeep t ht), hkeep⟩

def RemovedAfterDestroy (w w' : World State Task) : Prop :=
  w.shared.cell.isSome → w'.shared.cell = none → ∀ node, mayHold node w.shared.log →
    ackedDestroy node w.shared.log

theorem Effect.nothing_outstanding (h : Effect s t x s') (hs : InSight s) (ht : TeardownOk s t)
    (hg : teardownGuard.task s t x) (hvm : s.cell.isSome) (hgone : s'.cell = none) (node) :
    outstanding node s.log = false := by
  obtain ⟨v, hv⟩ := isSome_iff_exists.mp hvm
  have hwrites : ∀ vm, (s.put vm).cell ≠ none := fun vm => some_ne_none _
  cases h with
  | forgot | ingested | answered | unbound | kicked =>
    rw [mutate_of_some hv] at hgone
    exact absurd hgone (hwrites _)
  | bound => exact absurd hgone (hwrites _)
  | removed d current now hread hjudged hstands =>
    obtain ⟨hsaw, -, hdestroyed⟩ := ht
    have hcurrent := (hsaw current hread).eq_of_standsAt hstands
    have hclear := hg current hread hjudged hstands
    simp only [judged, and_eq_true, decide_eq_true_eq] at hjudged
    refine eq_false_iff.mpr fun hout => ?_
    rcases hs.seen current hcurrent node hout with hon | ⟨hnone, hheld⟩
    · by_cases hpending : current.val.status.phase.kind = .pending
      · exact hclear ⟨current, hcurrent, .inr ⟨node, hon, hpending, hout⟩⟩
      · have htarget : destroyTarget current.val = some node := by
          simp [destroyTarget, hon, hpending]
        rw [hdestroyed node (hjudged.2.symm.trans htarget)] at hout
        cases hout
    · exact hclear ⟨current, hcurrent, .inl ⟨hnone, by simp [hheld]⟩⟩
  | _ =>
    have hnone : s.cell = none := hgone
    simp [hnone] at hv

theorem inSight_start {next rev} (hrev : rev < next) :
    Program.Holds InSight TeardownOk (start next rev vm) :=
  ⟨⟨Cell.below_some hrev, fun _ _ _ hout => by cases hout⟩, by simp [start]⟩

/--
In every run that meets the guard, `tear_down` removes the VM only when every
node that may hold an instance of it has acked a destroy since its create.
-/
theorem removed_after_destroy {next rev : Nat} {vm : Vm} (hrev : rev < next)
    {ms : List (Move Event Input)} {w w' : World State Task} {m : Move Event Input}
    (hmeets : program.RunMeets teardownGuard (start next rev vm) ms)
    (hrun : program.run (start next rev vm) ms = some w) (hm : teardownGuard.Meets w m)
    (hstep : program.step w m = some w') : RemovedAfterDestroy w w' := by
  obtain ⟨hshared, htasks⟩ := teardownOutline.run (inSight_start hrev) hmeets hrun
  intro hvm hgone node hmay
  rcases program.step_cases hstep with ⟨event, new, rfl, henv, -⟩ |
    ⟨i, x, t, tnext, rfl, ht, htask, -⟩ | ⟨i, rfl, hs, -⟩
  · obtain ⟨v, hv, heffect, -⟩ := env_effect henv
    rcases heffect with hs | ⟨-, hs⟩ | ⟨vm', hs, -⟩ <;> rw [hs] at hgone
    · rw [hgone] at hv
      cases hv
    · cases hgone
    · cases hgone
  · have hquiet := (task_step htask).1.nothing_outstanding hshared
      (htasks t (List.mem_of_getElem? ht)) (hm t ht) hvm hgone node
    simpa [outstanding, hmay] using hquiet
  · rw [← hs, hgone] at hvm
    cases hvm

def deletedWhileBound : List (Move Event Input) :=
  bootedOn "a" ++ [.env (.delete 5), .env .pass, .task 0 (.go 5), .task 0 .acked]

theorem removed_after_destroy_bound :
    ∃ w w', program.run (start 1 0 guest) deletedWhileBound = some w ∧
      program.step w (.task 0 (.go 6)) = some w' ∧ w'.shared.cell = none ∧
      mayHold "a" w.shared.log ∧ RemovedAfterDestroy w w' := by
  refine ⟨_, _, rfl, rfl, rfl, by decide, ?_⟩
  exact removed_after_destroy (m := .task 0 (.go 6)) Nat.zero_lt_one
    (by decide : program.RunMeets teardownGuard (start 1 0 guest) deletedWhileBound)
    rfl (by decide) rfl

def deletedAfterUnbind : List (Move Event Input) :=
  bootedOn "a" ++ [.env .unbind, .env (.delete 5), .env .pass, .task 0 (.go 5)]

def deletedAfterLostAnswer : List (Move Event Input) :=
  [.env .pass, .task 0 (.place "a"), .task 0 (.go 1), .env .pass, .task 0 .create, .crash 0,
    .env (.delete 5), .env .pass, .task 0 (.go 5)]

/--
The two states `destroy_target` overlooks: an unbound VM its old node still
holds, and a bound VM that is Pending although its create was sent.
-/
theorem removed_without_destroy :
    (∃ w w', program.run (start 1 0 guest) deletedAfterUnbind = some w ∧
      program.step w (.task 0 (.go 6)) = some w' ∧ ¬RemovedAfterDestroy w w') ∧
    ∃ w w', program.run (start 1 0 guest) deletedAfterLostAnswer = some w ∧
      program.step w (.task 0 (.go 6)) = some w' ∧ ¬RemovedAfterDestroy w w' := by
  refine ⟨⟨_, _, rfl, rfl, fun h => ?_⟩, ⟨_, _, rfl, rfl, fun h => ?_⟩⟩
  all_goals exact absurd (h rfl rfl "a" (by decide)) (by decide)

end MeisterStack.ClusterController.Holder
