import MeisterStack.Foundation.History
import MeisterStack.CloudController.VolumeRecords

/-!
# A volume's record leaves a cluster after a release

The dispatcher writes the cluster it chose before its command, and a move its target after the
answer to its release, both blindly. As long as the record is where they left it and the release was
not refused, only a move takes it away from a cluster, and only from the one that acked the release.
-/

namespace MeisterStack.CloudController.VolumeRecords

open Foundation ControllerApi Option List Program Table

variable {s : State} {name : String} {v v' : Versioned Volume}

theorem mutateVolume_cell {uid edit k} (hv : s.volumes.cell k = some v)
    (hv' : (s.mutateVolume name uid edit).volumes.cell k = some v') :
    v' = v ∨ k = name ∧ v.val.uid = uid ∧ v'.val = edit v.val := by
  have hsame : s.volumes.cell k = some v' → v' = v := by
    intro h
    rw [hv] at h
    exact (some.inj h).symm
  unfold State.mutateVolume at hv'
  split at hv'
  · rename_i w hw
    split at hv'
    · rename_i huid
      rcases cell_put_cases hv' with ⟨rfl, rfl⟩ | ⟨-, hv'⟩
      · rw [hw] at hv
        cases hv
        exact .inr ⟨rfl, huid, rfl⟩
      · exact .inl (hsame hv')
    · exact .inl (hsame hv')
  · exact .inl (hsame hv')

inductive Recorded (name : String) (v : Volume) : Task → Option String → Prop
  | kept {t : Task} : Recorded name v t v.cluster
  | dispatched {w : Volume} {cluster : String} : w.uid = v.uid →
      Recorded name v (.noteDispatched name w cluster) (some cluster)
  | moved {m : Handover} : m.name = name → m.uid = v.uid →
      Recorded name v (.move m) (some m.target)

variable {s' : State} {t : Task} {input : Input}

theorem task_recorded {next} (h : task s t input = some (s', next))
    (hv : s.volumes.cell name = some v) (hv' : s'.volumes.cell name = some v') :
    Recorded name v.val t v'.val.cluster := by
  have hsame : s'.volumes = s.volumes → Recorded name v.val t v'.val.cluster := by
    intro heq
    rw [heq, hv] at hv'
    cases hv'
    exact .kept
  cases input with
  | refused | fail | lost =>
    cases t <;> cases h <;> exact hsame rfl
  | go =>
    cases t with
    | noteDispatched =>
      cases h
      rcases mutateVolume_cell hv hv' with rfl | ⟨rfl, huid, heq⟩
      · exact .kept
      · rw [heq]
        exact .dispatched huid.symm
    | move =>
      cases h
      rcases mutateVolume_cell hv hv' with rfl | ⟨hname, huid, heq⟩
      · exact .kept
      · rw [heq]
        exact .moved hname.symm huid.symm
    | observeVolume =>
      cases h
      rcases mutateVolume_cell hv hv' with rfl | ⟨rfl, huid, heq⟩
      · exact .kept
      · rw [heq]
        split <;> exact .kept
    | finishVolume =>
      simp only [task, finishVolume, some.injEq] at h
      split at h <;> cases h
      · rw [(cell_of_remove hv').2] at hv
        cases hv
        exact .kept
      · exact hsame rfl
      · exact hsame rfl
    | observeSnapshot =>
      cases h
      apply hsame
      unfold State.mutateSnapshot
      split
      · split <;> rfl
      · rfl
    | finishSnapshot =>
      simp only [task, finishSnapshot, some.injEq] at h
      split at h <;> cases h <;> exact hsame rfl
    | _ =>
      cases h
      exact hsame rfl

theorem env_recorded {event new} (h : env s event = some (s', new))
    (hv : s.volumes.cell name = some v) (hv' : s'.volumes.cell name = some v') :
    v'.val.cluster = v.val.cluster := by
  have hsame : s'.volumes = s.volumes → v'.val.cluster = v.val.cluster := by
    intro heq
    rw [heq, hv] at hv'
    cases hv'
    rfl
  have hput : ∀ {k : String} {w : Versioned Volume} {x : Volume}, s.volumes.cell k = some w →
      s'.volumes = s.volumes.put k s.next x → x.cluster = w.val.cluster →
      v'.val.cluster = v.val.cluster := by
    intro k w x hw heq hcluster
    rw [heq] at hv'
    rcases cell_put_cases hv' with ⟨rfl, rfl⟩ | ⟨-, hv'⟩
    · rw [hw] at hv
      cases hv
      exact hcluster
    · rw [hv'] at hv
      cases hv
      rfl
  cases event with
  | createPool | createSnapshot =>
    simp only [env] at h
    split at h <;> cases h
    exact hsame rfl
  | updatePool =>
    obtain ⟨w, hw, heq⟩ := bind_eq_some_iff.mp h
    split at heq <;> cases heq
    exact hsame rfl
  | createVolume =>
    simp only [env] at h
    split at h <;> cases h
    rename_i hfree
    simp only [Bool.or_eq_true, not_or, Bool.not_eq_true, isSome_eq_false_iff,
      isNone_iff_eq_none] at hfree
    rcases cell_put_cases hv' with ⟨rfl, rfl⟩ | ⟨-, hv'⟩
    · rw [hfree.1] at hv
      cases hv
    · rw [hv'] at hv
      cases hv
      rfl
  | editVolume | deleteVolume =>
    obtain ⟨w, hw, ⟨⟩⟩ := bind_eq_some_iff.mp h
    exact hput hw rfl rfl
  | removePool k | deleteSnapshot k time | dispatchVolume k sessions | dispatchSnapshot k sessions
  | moveVolume =>
    obtain ⟨w, hw, ⟨⟩⟩ := bind_eq_some_iff.mp h
    exact hsame rfl
  | ingest =>
    cases h
    exact hsame rfl

def releases : Observer State Task Event Input (List (String × String)) where
  env _ _ acked := acked
  task _ t input acked :=
    match t, input with
    | .sendRelease _ v old _, .go => (v.uid, old) :: acked
    | _, _ => acked

def recorded : Program (State × List (String × String)) Task Event Input :=
  program.observed releases

theorem mem_releases {acked ack} (h : ack ∈ acked) : ack ∈ releases.task s t input acked := by
  simp only [releases]
  split
  · exact mem_cons_of_mem _ h
  · exact h

theorem env_no_move {event new} (h : env s event = some (s', new)) (m) : .move m ∉ new := by
  intro hm
  cases event with
  | createPool | createVolume | createSnapshot =>
    simp only [env] at h
    split at h <;> cases h
    cases hm
  | updatePool =>
    obtain ⟨w, hw, heq⟩ := bind_eq_some_iff.mp h
    split at heq <;> cases heq
    cases hm
  | ingest =>
    cases h
    simp at hm
  | _ =>
    obtain ⟨w, hw, ⟨⟩⟩ := bind_eq_some_iff.mp h
    simp at hm

theorem task_move {next} (h : task s t input = some (s', next)) {m} (hm : .move m ∈ next) :
    m.released = none ∨ ∃ v old, t = .sendRelease m.name v old m.target ∧ input = .go ∧
      m.uid = v.uid ∧ m.released = some old := by
  cases input with
  | fail | lost => cases t <;> cases h <;> cases hm
  | refused =>
    cases t with
    | sendCreate =>
      cases h
      simp at hm
    | sendRelease =>
      cases h
      cases mem_singleton.mp hm
      exact .inl rfl
    | _ =>
      cases h
      cases hm
  | go =>
    cases t with
    | listHomes =>
      cases h
      obtain ⟨cluster, ⟨⟩⟩ := mem_dispatchVolume hm
    | readPool =>
      cases h
      rcases mem_readPool hm with heq | ⟨here, heq⟩ <;> cases heq
      exact .inl rfl
    | sendRelease name v old =>
      cases h
      cases mem_singleton.mp hm
      exact .inr ⟨v, old, rfl, rfl, rfl, rfl⟩
    | ourVolumes | ourSnapshots =>
      cases h
      obtain ⟨e, -, he⟩ := mem_map.mp hm
      split at he <;> cases he
    | listVolumes =>
      cases h
      obtain ⟨w, cluster, heq, -⟩ := mem_dispatchSnapshot hm
      cases heq
    | finishVolume | finishSnapshot =>
      simp only [task, finishVolume, finishSnapshot, some.injEq] at h
      split at h <;> cases h <;> simp at hm
    | _ =>
      cases h
      simp at hm

def ReleaseAcked (s : State × List (String × String)) (t : Task) : Prop :=
  ∀ m cluster, t = .move m → m.released = some cluster → (m.uid, cluster) ∈ s.2

theorem releasesOutline : recorded.Outline (.all _ _ _ _) (fun _ => True) ReleaseAcked where
  env := fun {s event s' new} _ _ h => by
    obtain ⟨hstep, hacks⟩ := observed_env h
    have hsame : s'.2 = s.2 := hacks
    refine ⟨trivial, fun t ht m cluster heq => ?_, fun t ht m cluster heq hreleased => ?_⟩
    · subst heq
      exact absurd ht (env_no_move hstep m)
    · rw [hsame]
      exact ht m cluster heq hreleased
  task := fun {s t input s' next} _ _ _ h => by
    obtain ⟨hstep, hacks⟩ := observed_task h
    refine ⟨trivial, fun u hu m cluster heq hreleased => ?_, fun u hu m cluster heq hreleased => ?_⟩
    · subst heq
      rw [hacks]
      rcases task_move hstep hu with hnone | ⟨v, old, rfl, rfl, huid, hold⟩
      · rw [hnone] at hreleased
        cases hreleased
      · rw [hold] at hreleased
        cases hreleased
        rw [huid]
        exact mem_cons_self
    · rw [hacks]
      exact mem_releases (hu m cluster heq hreleased)

def asRead : Guard (State × List (String × String)) Task Event Input where
  env _ _ := True
  task s t _ :=
    match t with
    | .noteDispatched name v cluster => (s.1.volumes.cell name).all (fun w =>
      w.val.uid ≠ v.uid || w.val.cluster = none || w.val.cluster = some cluster)
    | .move m => (s.1.volumes.cell m.name).all (fun w =>
      w.val.uid ≠ m.uid || w.val.cluster = none || w.val.cluster = m.released ||
        w.val.cluster = some m.target)
    | _ => True

instance (s event) : Decidable (asRead.env s event) := .isTrue trivial

instance (s t input) : Decidable (asRead.task s t input) := by
  induction t using Task.casesOn <;> dsimp only [asRead] <;> infer_instance

/--
Whatever ran before, on any replicas: a step that takes the record of a volume from a cluster
elsewhere is the write of a move, and that cluster acked the release of the volume to it. Provided
the record is where the dispatch or the move whose write the step is had found or put it.
-/
theorem record_leaves_after_release {s : State} {ms : List (Move Event Input)}
    {m : Move Event Input} {w w' : World (State × List (String × String)) Task}
    (hrun : recorded.run ⟨(s, []), []⟩ ms = some w) (hm : asRead.Meets w m)
    (hstep : recorded.step w m = some w') {name cluster : String} {v v' : Versioned Volume}
    (hv : w.shared.1.volumes.cell name = some v) (hv' : w'.shared.1.volumes.cell name = some v')
    (hat : v.val.cluster = some cluster) (hleft : v'.val.cluster ≠ some cluster) :
    ∃ index input h, m = .task index input ∧ w.tasks[index]? = some (.move h) ∧ h.name = name ∧
      h.uid = v.val.uid ∧ v'.val.cluster = some h.target ∧ h.released = some cluster ∧
      (v.val.uid, cluster) ∈ w.shared.2 := by
  rcases recorded.step_cases hstep with ⟨event, new, rfl, henv, -⟩ |
    ⟨index, input, t, next, rfl, ht, htask, -⟩ | ⟨index, rfl, hshared, -⟩
  · have hkept := env_recorded (observed_env henv).1 hv hv'
    exact absurd (hkept.trans hat) hleft
  · have hguard := hm t ht
    have hholds := releasesOutline.run ⟨trivial, by simp⟩
      (recorded.runMeets_all ⟨(s, []), []⟩ ms) hrun
    have hacked := hholds.2 t (mem_of_getElem? ht)
    generalize hcluster : v'.val.cluster = after at hleft
    have hrecorded := task_recorded (observed_task htask).1 hv hv'
    rw [hcluster] at hrecorded
    cases hrecorded with
    | kept => exact absurd hat hleft
    | @dispatched u c huid =>
      simp only [asRead, hv, all_some, huid, hat, ne_eq, not_true_eq_false, decide_false,
        Bool.false_or, reduceCtorEq, decide_eq_true_eq] at hguard
      exact absurd hguard.symm hleft
    | @moved h hname huid =>
      simp only [asRead, hname, hv, all_some, huid, hat, ne_eq, not_true_eq_false,
        decide_false, Bool.false_or, reduceCtorEq, Bool.or_eq_true, decide_eq_true_eq] at hguard
      rcases hguard with hreleased | htarget
      · refine ⟨index, input, h, rfl, ht, hname, huid, rfl, hreleased.symm, ?_⟩
        rw [← huid]
        exact hacked h cluster rfl hreleased.symm
      · exact absurd htarget.symm hleft
  · rw [hshared, hv] at hv'
    cases hv'
    exact absurd hat hleft

def sharedPool : StoragePoolSpec := ⟨"nfs", [], false, "c", ["d", "e"]⟩

def atC : State :=
  ⟨2, ["u"], (∅ : Table String StoragePoolSpec).put "p" 0 sharedPool,
    (∅ : Table String Volume).put "v" 1 ⟨"u", "p", 1, none, some "c", none, 1⟩, ∅⟩

def moving : List (Move Event Input) := [.env (.moveVolume "v" "d"), .task 0 .go, .task 0 .go]

theorem record_leaves_after_release_moved :
    ∃ w w' v v', recorded.run ⟨(atC, []), []⟩ moving = some w ∧
      recorded.step w (.task 0 .go) = some w' ∧ w.shared.1.volumes.cell "v" = some v ∧
      w'.shared.1.volumes.cell "v" = some v' ∧ v.val.cluster = some "c" ∧
      v'.val.cluster = some "d" ∧ ("u", "c") ∈ w.shared.2 := by
  have hrun : recorded.run ⟨(atC, []), []⟩ moving = some ⟨(atC, [("u", "c")]),
    [.move ⟨"v", "u", some "c", "d"⟩]⟩ := rfl
  have hv : atC.volumes.cell "v" = some ⟨1, ⟨"u", "p", 1, none, some "c", none, 1⟩⟩ := rfl
  have hleft : (⟨2, ⟨"u", "p", 1, none, some "d", none, 0⟩⟩ : Versioned Volume).val.cluster ≠
    some "c" := by decide
  obtain ⟨index, input, h, -, -, -, -, -, -, hacked⟩ :=
    record_leaves_after_release hrun (m := .task 0 .go) (by decide) rfl hv rfl rfl hleft
  exact ⟨_, _, _, _, hrun, rfl, hv, rfl, rfl, rfl, hacked⟩

def dispatchedLate : List (Move Event Input) :=
  [.env (.dispatchVolume "v" ["c"]), .task 0 .go, .task 0 .go, .env (.moveVolume "v" "d"),
    .task 1 .go, .task 1 .go, .task 1 .go]

def movedTwice : List (Move Event Input) :=
  [.env (.moveVolume "v" "d"), .env (.moveVolume "v" "e"), .task 0 .go, .task 1 .go, .task 0 .go,
    .task 1 .go, .task 0 .go]

def movedRefused : List (Move Event Input) :=
  [.env (.moveVolume "v" "d"), .task 0 .go, .task 0 .refused]

/-- The record is at a cluster that acked no release, and the next step takes it to another one: a
dispatch that writes `c` back, a second move that writes `e`, and a move that `c` refused. -/
theorem record_leaves_without_release :
    (∃ w w' v v', recorded.run ⟨(atC, []), []⟩ dispatchedLate = some w ∧
      recorded.step w (.task 0 .go) = some w' ∧ w.shared.1.volumes.cell "v" = some v ∧
      w'.shared.1.volumes.cell "v" = some v' ∧ v.val.cluster = some "d" ∧
      v'.val.cluster = some "c" ∧ w.shared.2 = [("u", "c")] ∧
      w.tasks = [.noteDispatched "v" ⟨"u", "p", 1, none, some "c", none, 1⟩ "c"]) ∧
    (∃ w w' v v', recorded.run ⟨(atC, []), []⟩ movedTwice = some w ∧
      recorded.step w (.task 0 .go) = some w' ∧ w.shared.1.volumes.cell "v" = some v ∧
      w'.shared.1.volumes.cell "v" = some v' ∧ v.val.cluster = some "d" ∧
      v'.val.cluster = some "e" ∧ w.shared.2 = [("u", "c"), ("u", "c")]) ∧
    ∃ w w' v v', recorded.run ⟨(atC, []), []⟩ movedRefused = some w ∧
      recorded.step w (.task 0 .go) = some w' ∧ w.shared.1.volumes.cell "v" = some v ∧
      w'.shared.1.volumes.cell "v" = some v' ∧ v.val.cluster = some "c" ∧
      v'.val.cluster = some "d" ∧ w.shared.2 = [] :=
  ⟨⟨_, _, _, _, rfl, rfl, rfl, rfl, rfl, rfl, rfl, rfl⟩,
    ⟨_, _, _, _, rfl, rfl, rfl, rfl, rfl, rfl, rfl⟩,
    ⟨_, _, _, _, rfl, rfl, rfl, rfl, rfl, rfl, rfl⟩⟩

end MeisterStack.CloudController.VolumeRecords
