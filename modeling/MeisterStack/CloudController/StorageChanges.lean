import MeisterStack.Foundation.Registry
import MeisterStack.CloudController.StoragePools

/-!
# What the steps of storage pools and volumes do

A pool keeps its uid from its create to its removal, and only a create, an update and a removal
change it. `Went` says everything a step of a call can do.
-/

namespace MeisterStack.CloudController.StoragePools

open Foundation ControllerApi Option

inductive Effect (s : State) : State → Prop
  | same : Effect s s
  | declared {name : String} {pool : StoragePool} : s.pools.cell name = none →
      pool.uid ∉ s.drawn → Effect s (s.declare name pool)
  | rewritten {name : String} {v : Versioned StoragePool} {pool : StoragePool} :
      s.pools.cell name = some v → pool.uid = v.val.uid → Effect s (s.putPool name pool)
  | removed {name : String} : Effect s (s.removePool name)
  | putVolume {name : String} {volume : Volume} : Effect s (s.putVolume name volume)
  | removedVolume {name : String} : Effect s (s.removeVolume name)

def identity : Identity StoragePool String where
  uid := StoragePool.uid
  Keeps pool pool' := pool'.uid = pool.uid
  refl _ := rfl
  trans h h' := h'.trans h
  uid_eq h := h

def State.registry (s : State) : Registry String StoragePool String := ⟨s.pools, s.drawn⟩

variable {s s' : State}

theorem Effect.commit (h : Effect s s') :
    Registry.Commit identity s.registry s.next s'.registry s'.next := by
  cases h with
  | same => exact .same le_rfl
  | putVolume | removedVolume => exact .same (Nat.le_succ _)
  | declared habsent hfresh => exact .made habsent hfresh
  | rewritten hv huid => exact .edited hv huid
  | removed => exact .removed

theorem Effect.change (h : Effect s s') : Registry.Change identity s.registry s'.registry :=
  h.commit.change

def Update.Pinned (s : State) (u : Update) : Prop :=
  (s.pools.cell u.name).Pinned s.next u.resourceVersion u.current

structure Ok (s : State) : Prop where
  below : s.pools.Below s.next
  drawn : Registry.Drawn identity s.registry

theorem Effect.ok (h : Effect s s') (hs : Ok s) : Ok s' :=
  ⟨h.commit.below hs.below, h.change.drawn hs.drawn⟩

theorem Effect.pinned (h : Effect s s') {u : Update} (hu : u.Pinned s) : u.Pinned s' :=
  Cell.Pinned.keep hu h.commit.next_le fun _ hv hrev => h.commit.stood hv hrev

def Task.owns : Task → Option String
  | .recheck _ created => some created.val.uid
  | .takeBack _ d => some d.checked.val.uid
  | .isGone _ created => some created.uid
  | _ => none

def SoleDefault (s : State) (name : String) : Prop := othersDefault s.poolList (some name) = []

instance (s name) : Decidable (SoleDefault s name) :=
  inferInstanceAs (Decidable (_ = []))

variable {name : String}

theorem SoleDefault.eq {other} (h : SoleDefault s name) {v} (hv : s.pools.cell other = some v)
    (hdefault : v.val.spec.default) : other = name := by
  by_contra hne
  have hmem : other ∈ othersDefault s.poolList (some name) := by
    simp only [othersDefault, List.mem_filter, List.mem_map, Prod.exists, decide_eq_true_eq]
    refine ⟨⟨other, v.val.spec, ⟨mem_poolList.mpr ⟨v, hv, rfl⟩, hdefault⟩, rfl⟩, ?_⟩
    simp [hne]
  rw [h] at hmem
  cases hmem

def TakenBack (s : State) : Task → Input → Prop
  | .takeBack _ _, .fail | .takeBack _ _, .lost _ => False
  | .isGone name created, .go _ => s.gone name created
  | .isGone _ _, .fail | .isGone _ _, .lost _ => False
  | _, _ => True

instance (s t input) : Decidable (TakenBack s t input) := by
  cases t <;> cases input <;> dsimp only [TakenBack] <;> infer_instance

inductive Went (s : State) : Task → Input → State → List Task → Prop
  | ended {t : Task} {input : Input} : (TakenBack s t input → t.owns = none) →
      Went s t input s []
  | checked {name : String} {spec : StoragePoolSpec} {input : Input} :
      Went s (.check name spec) input s [.create name spec]
  | checkedUpdate {u : Update} {input : Input} :
      Went s (.checkUpdate u) input s [.listStranded u]
  | noneStranded {u : Update} {input : Input} :
      Went s (.listStranded u) input s [.listOrphaned u]
  | noneOrphaned {u : Update} {input : Input} : Went s (.listOrphaned u) input s [.update u]
  | unheld {name : String} {rev : Nat} {input : Input} : s.volumesOf name = [] →
      Went s (.listHeld name rev) input s [.deletePool name rev]
  | created {name : String} {spec : StoragePoolSpec} {uid : String} {input : Input}
      {next : List Task} : s.pools.cell name = none → uid ∉ s.drawn →
      (input = .go uid ∧ (spec.default → next ≠ []) ∨ input = .lost uid) →
      (∀ u ∈ next, u = .recheck name ⟨s.next, uid, spec⟩ ∧ spec.default) →
      Went s (.create name spec) input (s.declare name ⟨uid, spec⟩) next
  | kept {name : String} {created : Versioned StoragePool} {input : Input} :
      (created.val.spec.default → SoleDefault s name) →
      Went s (.recheck name created) input s []
  | yields {name : String} {created : Versioned StoragePool} {input : Input} :
      Went s (.recheck name created) input s [.takeBack name (.of created)]
  | retried {name : String} {d d' : Deletion StoragePool} {input : Input} :
      d'.checked = d.checked → Went s (.takeBack name d) input s [.takeBack name d']
  | removed {name : String} {d : Deletion StoragePool} {input : Input} : input ≠ .fail →
      Went s (.takeBack name d) input (s.removePool name) []
  | asked {name : String} {d : Deletion StoragePool} {input : Input} :
      Went s (.takeBack name d) input s [.isGone name d.checked.val]
  | gone {name : String} {created : StoragePool} {input : Input} :
      s.gone name created → Went s (.isGone name created) input s []
  | updated {u : Update} {input : Input} : input ≠ .fail →
      (s.pools.cell u.name).standsAt u.resourceVersion →
      Went s (.update u) input (s.putPool u.name ⟨u.current.val.uid, u.body⟩) []
  | deleted {name : String} {rev : Nat} {input : Input} : input ≠ .fail →
      (s.pools.cell name).standsAt rev →
      Went s (.deletePool name rev) input (s.removePool name) []
  | volume {name pool : String} {input : Input} : input ≠ .fail → s.volumes.cell name = none →
      Went s (.createVolume name pool) input (s.putVolume name ⟨pool, none, none⟩) []

variable {input : Input} {next : List Task}

theorem create_went {uid} {spec} {answered : Bool}
    (hinput : input = .go uid ∧ answered ∨ input = .lost uid)
    (h : create s name spec uid answered = some (s', next)) :
    Went s (.create name spec) input s' next := by
  unfold create at h
  split at h
  · cases h
    exact .ended fun _ => rfl
  · rename_i habsent
    split at h <;> cases h
    rename_i hfresh
    refine .created (by simpa using habsent) hfresh ?_ ?_
    · rcases hinput with hgo | hlost
      · refine .inl ⟨hgo.1, fun hdefault => ?_⟩
        simp [hgo.2, hdefault]
      · exact .inr hlost
    · intro u hu
      split at hu
      · rename_i hmarked
        simp only [Bool.and_eq_true] at hmarked
        exact ⟨List.mem_singleton.mp hu, hmarked.2⟩
      · cases hu

theorem recheck_went (s name created input) :
    Went s (.recheck name created) input s (recheck s name created) := by
  unfold recheck
  split
  · rename_i hok
    apply Went.kept
    intro hdefault
    unfold checkStoragePool at hok
    split at hok
    · cases hok
    · split at hok
      · cases hok
      · rw [if_neg (by simp [hdefault])] at hok
        split at hok
        · assumption
        · cases hok
  · exact .yields

theorem takeBack_went {d} (hlands : input ≠ .fail) (h : takeBack s name d = (s', next)) :
    Went s (.takeBack name d) input s' next := by
  unfold takeBack at h
  split at h
  · cases h
    exact .removed hlands
  · cases h
    exact .asked
  · rename_i hagain
    cases h
    exact .retried (finishDelete_again hagain).1

theorem task_went {t} (h : task s t input = some (s', next)) : Went s t input s' next := by
  cases t with
  | check | checkUpdate | listStranded | listOrphaned | listHeld =>
    cases input with
    | go =>
      simp only [task, check, Update.check, some.injEq] at h
      split at h <;> cases h
      · first
        | exact .checked
        | exact .checkedUpdate
        | exact .noneStranded
        | exact .noneOrphaned
        | exact .unheld (by assumption)
      · exact .ended fun _ => rfl
    | fail | lost =>
      cases h
      exact .ended fun _ => rfl
  | create =>
    cases input with
    | go => exact create_went (.inl ⟨rfl, rfl⟩) h
    | lost => exact create_went (.inr rfl) h
    | fail =>
      cases h
      exact .ended fun _ => rfl
  | recheck name created =>
    cases input with
    | go =>
      cases h
      exact recheck_went s name created _
    | fail | lost =>
      cases h
      exact .yields
  | takeBack =>
    cases input with
    | go => exact takeBack_went (by simp) (some.inj h)
    | fail | lost =>
      cases h
      exact .ended False.elim
  | isGone name created =>
    cases input with
    | go =>
      cases h
      by_cases hgone : s.gone name created
      · exact .gone hgone
      · exact .ended fun htaken => absurd htaken hgone
    | fail | lost =>
      cases h
      exact .ended False.elim
  | update | deletePool =>
    cases input with
    | go | lost =>
      simp only [task, Update.write, deletePoolAt, some.injEq] at h
      split at h <;> cases h
      · first | exact .updated (by simp) (by assumption) | exact .deleted (by simp) (by assumption)
      · exact .ended fun _ => rfl
    | fail =>
      cases h
      exact .ended fun _ => rfl
  | createVolume =>
    cases input with
    | go | lost =>
      simp only [task, createVolume, some.injEq] at h
      split at h <;> cases h
      · exact .ended fun _ => rfl
      · exact .volume (by simp) (by simp_all)
    | fail =>
      cases h
      exact .ended fun _ => rfl

def Task.updating : Task → Option Update
  | .checkUpdate u | .listStranded u | .listOrphaned u | .update u => some u
  | _ => none

theorem Went.effect {t} (h : Went s t input s' next)
    (hpinned : ∀ u, t.updating = some u → u.Pinned s) : Effect s s' := by
  cases h with
  | created habsent hfresh => exact .declared habsent hfresh
  | removed | deleted => exact .removed
  | updated _ hstands => exact .rewritten ((hpinned _ rfl).2 hstands) rfl
  | volume => exact .putVolume
  | _ => exact .same

theorem env_effect {event new} (h : env s event = some (s', new)) : Effect s s' := by
  cases event with
  | createPool =>
    simp only [env] at h
    split at h <;> cases h
    exact .same
  | updatePool =>
    obtain ⟨v, hv, heq⟩ := bind_eq_some_iff.mp h
    split at heq <;> cases heq
    exact .same
  | deletePool =>
    obtain ⟨v, hv, ⟨⟩⟩ := bind_eq_some_iff.mp h
    exact .same
  | touchPool =>
    obtain ⟨v, hv, ⟨⟩⟩ := bind_eq_some_iff.mp h
    exact .rewritten hv rfl
  | createVolume =>
    simp only [env] at h
    split at h
    · cases h
    · split at h <;> cases h
      exact .same
  | placeVolume =>
    obtain ⟨v, hv, ⟨⟩⟩ := bind_eq_some_iff.mp h
    exact .putVolume
  | removeVolume =>
    obtain ⟨v, hv, ⟨⟩⟩ := bind_eq_some_iff.mp h
    exact .removedVolume

end MeisterStack.CloudController.StoragePools
