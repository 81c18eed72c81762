import MeisterStack.CloudController.BindingSafety
import MeisterStack.Foundation.History

/-!
# One holder per VM at the cloud tier

A cluster that acked a create holds the VM until `forget_unbound` acts on a complete report of that
cluster, received after the ack, that does not name it. While there is a holder, it has to be the
binding or, where the binding is gone, the recorded cluster: only then does the next placement wait
for it.
-/

namespace MeisterStack.CloudController.Binding

open Foundation ControllerApi List Slot Option Program

structure Holding where
  cluster : String
  since : List Report

abbrev Holders := List Holding

namespace Holders

def ack (hs : Holders) (cluster : String) : Holders :=
  ⟨cluster, []⟩ :: hs.filter fun h => h.cluster ≠ cluster

def hear (hs : Holders) (r : Report) : Holders :=
  hs.map fun h =>
    if h.cluster = r.cluster ∧ r.vmsComplete ∧ r.line = none then
      { h with since := r :: h.since }
    else h

def forget (hs : Holders) (r : Report) : Holders :=
  hs.filter fun h => ¬(h.cluster = r.cluster ∧ r ∈ h.since)

end Holders

variable (s : State)

def forgets (listed : Vm) (r : Report) : Bool :=
  leavingCluster listed r && s.cell.any fun v =>
    v.val.spec.clusterName.isNone && v.val.status.clusterName = some r.cluster

def holding : Observer State Task Event Input Holders where
  env _ event hs :=
    match event with
    | .status r => hs.hear r
    | _ => hs
  task s t input hs :=
    match t, input with
    | .sent cluster, .acked => hs.ack cluster
    | .forget listed r, .go _ => if forgets s listed r then hs.forget r else hs
    | _, _ => hs

def held : Program (State × Holders) Task Event Input := program.observed holding

def InSight (cluster : String) : Prop :=
  ∀ v ∈ s.cell, v.val.spec.clusterName = some cluster ∨
    v.val.spec.clusterName = none ∧ v.val.status.clusterName = some cluster

def Unbound : Prop := ∃ v ∈ s.cell, v.val.spec.clusterName = none

def Recorded (s : State × Holders) : Prop :=
  ∀ v ∈ s.1.cell, ∀ h ∈ s.2, v.val.status.clusterName = some h.cluster

deriving instance Decidable for InSight, Unbound, Recorded

def AckedInSight (cluster : String) : Input → Prop
  | .acked => InSight s cluster
  | _ => True

instance (s cluster x) : Decidable (AckedInSight s cluster x) := by
  induction x using Input.casesOn <;> dsimp only [AckedInSight] <;> infer_instance

/-- The moves that keep every holder in sight of the placement. A create is acked while the acking
cluster is in sight, an answer is not recorded on an unbound VM that is held, a binding falls only
when the holder is recorded, and `forget_unbound` acts on a report from after the ack. -/
def holderGuard : Guard (State × Holders) Task Event Input where
  env s event :=
    match event with
    | .release => Recorded s
    | _ => True
  task s t input :=
    match t with
    | .sent cluster => AckedInSight s.1 cluster input
    | .acked _ | .rejected _ => Unbound s.1 → s.2 = []
    | .evacuating _ | .draining => Recorded s
    | .forget listed r => forgets s.1 listed r → ∀ h ∈ s.2, r ∈ h.since
    | _ => True

instance (s event) : Decidable (holderGuard.env s event) := by
  induction event using Event.casesOn <;> dsimp only [holderGuard] <;> infer_instance

instance (s t x) : Decidable (holderGuard.task s t x) := by
  induction t using Task.casesOn <;> dsimp only [holderGuard] <;> infer_instance

structure Watched (s : State × Holders) : Prop where
  below : s.1.cell.Below s.1.next
  sight : ∀ h ∈ s.2, InSight s.1 h.cluster

def PlacementOk (s : State × Holders) : Task → Prop
  | .pass vm => s.1.cell.Saw s.1.next vm
  | .bind vm _ => s.1.cell.Saw s.1.next vm ∧ vm.val.spec.clusterName = none ∧
      vm.val.status.clusterName = none
  | _ => True

variable {s : State} {t : Task} {x : Input} {hs : Holders}

theorem mem_holding_task {h} (hh : h ∈ holding.task s t x hs) :
    (∃ h0 ∈ hs, h0.cluster = h.cluster) ∨ t = .sent h.cluster ∧ x = .acked := by
  dsimp only [holding] at hh
  split at hh
  · rcases mem_cons.mp hh with rfl | hh
    · exact .inr ⟨rfl, rfl⟩
    · exact .inl ⟨h, (mem_filter.mp hh).1, rfl⟩
  · split at hh
    · exact .inl ⟨h, (mem_filter.mp hh).1, rfl⟩
    · exact .inl ⟨h, hh, rfl⟩
  · exact .inl ⟨h, hh, rfl⟩

theorem mem_holding_env {event h} (hh : h ∈ holding.env s event hs) :
    ∃ h0 ∈ hs, h0.cluster = h.cluster := by
  dsimp only [holding] at hh
  split at hh
  · obtain ⟨h0, hh0, rfl⟩ := List.mem_map.mp hh
    refine ⟨h0, hh0, ?_⟩
    split <;> rfl
  · exact ⟨h, hh, rfl⟩

section Watched

variable {s : State} {hs : Holders} {vm : Vm}

theorem Watched.put (hsight : ∀ h ∈ hs, vm.spec.clusterName = some h.cluster ∨
      vm.spec.clusterName = none ∧ vm.status.clusterName = some h.cluster) :
    Watched (s.put vm, hs) where
  below := Cell.below_some (Nat.lt_succ_self _)
  sight := by
    rintro h hh v ⟨⟩
    exact hsight h hh

theorem Watched.mono (hw : Watched (s, hs)) {hs'}
    (h : ∀ h ∈ hs', ∃ h0 ∈ hs, h0.cluster = h.cluster) :
    Watched (s, hs') where
  below := hw.below
  sight := by
    intro x hx
    obtain ⟨x0, hx0, hcluster⟩ := h x hx
    exact hcluster ▸ hw.sight x0 hx0

variable {v : Versioned Vm}

theorem Watched.put_same (hw : Watched (s, hs)) (hv : s.cell = some v)
    (hspec : vm.spec.clusterName = v.val.spec.clusterName)
    (hstatus : vm.status.clusterName = v.val.status.clusterName) : Watched (s.put vm, hs) := by
  refine .put fun h hh => ?_
  rw [hspec, hstatus]
  exact hw.sight h hh v hv

theorem Watched.put_copy (hw : Watched (s, hs)) (hv : s.cell = some v) (hheld : Unbound s → hs = [])
    (hspec : vm.spec.clusterName = v.val.spec.clusterName) : Watched (s.put vm, hs) := by
  refine .put fun h hh => ?_
  rcases hw.sight h hh v hv with hon | ⟨hnone, -⟩
  · exact .inl (hspec.trans hon)
  · rw [hheld ⟨v, hv, hnone⟩] at hh
    cases hh

theorem Watched.put_release (hv : s.cell = some v)
    (hrecorded : Recorded (s, hs)) (hspec : vm.spec.clusterName = none)
    (hstatus : vm.status.clusterName = v.val.status.clusterName) : Watched (s.put vm, hs) :=
  .put fun h hh => .inr ⟨hspec, hstatus.trans (hrecorded v hv h hh)⟩

theorem Watched.put_forget (hw : Watched (s, hs)) (hv : s.cell = some v) {listed r}
    (hleaving : leavingCluster listed r) (hsince : forgets s listed r → ∀ h ∈ hs, r ∈ h.since) :
    Watched (s.put (forgetUnbound r v.val),
      if forgets s listed r then hs.forget r else hs) := by
  by_cases hgo : (v.val.spec.clusterName.isNone && v.val.status.clusterName = some r.cluster)
  · have hforgets : forgets s listed r := by simp [forgets, hleaving, hv, hgo]
    rw [if_pos hforgets]
    simp only [Bool.and_eq_true, isNone_iff_eq_none, decide_eq_true_eq] at hgo
    refine .put fun h hh => ?_
    obtain ⟨hh, hkept⟩ := mem_filter.mp hh
    rcases hw.sight h hh v hv with hon | ⟨-, hheld⟩
    · cases hgo.1.symm.trans hon
    · have hcluster : h.cluster = r.cluster := some.inj (hheld.symm.trans hgo.2)
      exact absurd ⟨hcluster, hsince hforgets h hh⟩ (of_decide_eq_true hkept)
  · have hforgets : forgets s listed r = false := by
      simpa [forgets, hleaving, hv] using hgo
    rw [if_neg (by simp [hforgets])]
    simp only [forgetUnbound, if_neg hgo]
    exact hw.put_same hv rfl rfl

theorem Watched.task {s' t x} (hw : Watched (s, hs)) (ht : PlacementOk (s, hs) t)
    (hg : holderGuard.task (s, hs) t x) (he : Effect s t x s') :
    Watched (s', holding.task s t x hs) := by
  have hsame : ∀ h ∈ holding.task s t x hs, InSight s h.cluster := by
    intro h hh
    rcases mem_holding_task hh with ⟨h0, hh0, hcluster⟩ | ⟨rfl, rfl⟩
    · exact hcluster ▸ hw.sight h0 hh0
    · exact hg
  cases he with
  | idle | acks => exact ⟨hw.below, hsame⟩
  | forgot listed r now hleaving =>
    cases hv : s.cell with
    | none =>
      rw [State.mutate, mutate_of_none hv]
      exact ⟨hw.below, hsame⟩
    | some =>
      rw [mutate_of_some hv]
      exact hw.put_forget hv hleaving hg
  | ingested =>
    refine mutate_rule (P := fun s' => Watched (s', hs)) hw fun v hv => ?_
    unfold ingestPhases
    split
    · -- Only the bound cluster is listened to, so the copy names it.
      rename_i hours
      simp only [ours, decide_eq_true_eq] at hours
      refine .put fun h hh => ?_
      rcases hw.sight h hh v hv with hon | ⟨hnone, -⟩
      · exact .inl hon
      · cases hnone.symm.trans hours
    · exact hw.put_same hv rfl rfl
  | recorded _ now edit hrecords hedit =>
    cases t with
    | acked | rejected =>
      exact mutate_rule (P := fun s' => Watched (s', hs)) hw
        fun v hv => hw.put_copy hv hg (hedit.spec _)
    | _ => cases hrecords
  | released _ now edit hreleases hedit =>
    cases t with
    | evacuating | draining =>
      exact mutate_rule (P := fun s' => Watched (s', hs)) hw
        fun v hv => .put_release hv hg (hedit.spec _) (hedit.status _)
    | _ => cases hreleases
  | stamped =>
    exact mutate_rule (P := fun s' => Watched (s', hs)) hw fun v hv => hw.put_same hv rfl rfl
  | bound vm cluster now hstands =>
    -- Nobody is bound and nobody recorded, so nobody holds the VM.
    obtain ⟨hsaw, hspec, hstatus⟩ := ht
    refine .put fun h hh => ?_
    rcases hw.sight h hh vm (hsaw.eq_of_standsAt hstands) with hon | ⟨-, hheld⟩
    · cases hspec.symm.trans hon
    · cases hstatus.symm.trans hheld
  | removed => exact ⟨Cell.below_none _, by rintro h - v ⟨⟩⟩

end Watched

variable {s' : State}

theorem Effect.follows (h : Effect s t x s') : Slot.Follows s.toSlot s'.toSlot := by
  have hmutate : ∀ edit, Slot.Follows s.toSlot (s.mutate edit).toSlot := fun edit =>
    mutate_rule (P := fun s' => Slot.Follows s.toSlot s'.toSlot) (.refl _)
      fun _ _ => follows_write _ _
  cases h with
  | idle | acks => exact .refl _
  | forgot | ingested | recorded | released | stamped => exact hmutate _
  | bound => exact follows_write _ _
  | removed => exact follows_remove _

theorem PlacementOk.follows {hs'} (h : Slot.Follows s.toSlot s'.toSlot)
    (ht : PlacementOk (s, hs) t) :
    PlacementOk (s', hs') t := by
  cases t with
  | pass vm => exact h.2 vm ht
  | bind vm => exact ⟨h.2 vm ht.1, ht.2⟩
  | _ => trivial

variable {next : List Task}

theorem PlacementOk.spawned {u} (ht : PlacementOk (s, hs) t) (h : Spawned s t u) :
    PlacementOk (s, hs) u := by
  cases h with
  | plain _ _ hplain =>
    cases u with
    | pass | bind => cases hplain
    | _ => trivial
  | bind vm _ _ hspec hstatus => exact ⟨ht, hspec, hstatus⟩
  | _ => trivial

theorem holdersOutline : held.Outline holderGuard Watched PlacementOk where
  env := by
    rintro ⟨s, hs⟩ event ⟨s', hs'⟩ new hw hg h
    obtain ⟨henv, rfl⟩ := observed_env h
    replace henv : env s event = some (s', new) := henv
    have hheld := fun h (hh : h ∈ holding.env s event hs) => mem_holding_env hh
    obtain ⟨r, hheard, rfl⟩ | ⟨v, hv, heffect⟩ := env_effect henv
    · have hslot : s'.toSlot = s.toSlot := by rw [hheard, hear_toSlot]
      have hw' : Watched (s', hs) :=
        ⟨hslot ▸ hw.below, fun h hh v hv => hw.sight h hh v (hslot ▸ hv)⟩
      refine ⟨hw'.mono hheld, by simp [PlacementOk], fun t ht => ht.follows ?_⟩
      rw [hslot]
      exact .refl _
    · rcases heffect with ⟨rfl, hnew⟩ | ⟨rfl, rfl, rfl⟩ | ⟨vm, rfl, hspec, hstatus, -, rfl⟩
      · refine ⟨hw.mono hheld, fun t ht => ?_, fun t ht => ht.follows (.refl _)⟩
        rcases hnew with rfl | rfl
        · rw [mem_singleton.mp ht]
          exact hw.below.saw hv
        · rw [mem_singleton.mp ht]
          trivial
      · have hw' : Watched (s.put (releaseBinding v.val), hs) := .put_release hv hg rfl rfl
        exact ⟨hw'.mono hheld, by simp, fun t ht => ht.follows (follows_write _ _)⟩
      · exact ⟨(hw.put_same hv hspec hstatus).mono hheld, by simp,
          fun t ht => ht.follows (follows_write _ _)⟩
  task := by
    rintro ⟨s, hs⟩ t x ⟨s', hs'⟩ next hw ht hg h
    obtain ⟨htask, rfl⟩ := observed_task h
    obtain ⟨heffect, hspawned⟩ := task_step htask
    refine ⟨hw.task ht hg heffect, fun u hu => ?_, fun u hu => hu.follows heffect.follows⟩
    exact (ht.spawned (hspawned u hu)).follows heffect.follows

def unheld (next rev : Nat) (vm : Vm) : World (State × Holders) Task :=
  ⟨((start next rev vm).shared, []), []⟩

def SoleHolder (s : State × Holders) : Prop :=
  ∀ v ∈ s.1.cell, ∀ cluster, v.val.spec.clusterName = some cluster →
    ∀ h ∈ s.2, h.cluster = cluster

/--
In every run that meets the guard, a VM that some cluster has acked is bound to no other
cluster before `forget_unbound` has acted on a report of the former.
-/
theorem one_cluster_per_vm {next rev : Nat} {vm : Vm} (hrev : rev < next)
    {ms : List (Move Event Input)} {w : World (State × Holders) Task}
    (hmeets : held.RunMeets holderGuard (unheld next rev vm) ms)
    (hrun : held.run (unheld next rev vm) ms = some w) : SoleHolder w.shared := by
  have hstart : Holds Watched PlacementOk (unheld next rev vm) :=
    ⟨⟨Cell.below_some hrev, by simp [unheld]⟩, by simp [unheld]⟩
  intro v hv cluster hbound h hh
  rcases (holdersOutline.run hstart hmeets hrun).1.sight h hh v hv with hon | ⟨hnone, -⟩
  · exact some.inj (hon.symm.trans hbound)
  · cases hnone.symm.trans hbound

private def movedOn : List (Move Event Input) :=
  handedDown ++ [.env .release, .env (.status ⟨"c", true, none, 5⟩), .task 0 (.go 5),
    .task 0 (.go 5), .task 0 (.go 5), .env .pass, .task 0 (.place "d"), .task 0 (.go 6)]

theorem one_cluster_per_vm_moved : ∃ w, held.run (unheld 1 0 guest) movedOn = some w ∧
    (∃ v ∈ w.shared.1.cell, v.val.spec.clusterName = some "d") ∧ SoleHolder w.shared :=
  have hmeets : held.RunMeets holderGuard (unheld 1 0 guest) movedOn := by decide
  ⟨_, rfl, ⟨_, rfl, rfl⟩, one_cluster_per_vm Nat.zero_lt_one hmeets rfl⟩

private def releasedUnderWay : List (Move Event Input) :=
  handedDown ++ [.env .pass, .task 0 (.create 1), .task 0 .acked, .env .release, .task 0 (.go 4),
    .env .pass, .task 0 (.place "d"), .task 0 (.go 5)]

/-- The record of the ack copies the binding that is gone, and with it the holder: the VM
is bound to `d` while `c` has it. -/
theorem two_clusters_hold_vm : ∃ w, held.run (unheld 1 0 guest) releasedUnderWay = some w ∧
    (∃ v ∈ w.shared.1.cell, v.val.spec.clusterName = some "d") ∧
    w.shared.2 = [⟨"c", []⟩] ∧ ¬SoleHolder w.shared :=
  ⟨_, rfl, ⟨_, rfl, rfl⟩, rfl, fun h =>
    absurd (h _ rfl "d" rfl ⟨"c", []⟩ (mem_singleton.mpr rfl)) (by decide)⟩

end MeisterStack.CloudController.Binding
