import MeisterStack.Foundation.Debt
import MeisterStack.CloudController.StorageChanges

/-!
# At most one default pool

Two creates that both mark their pool default see each other: the later of them asks again with both
pools in the store and takes its own back. An update does not ask again, and two of them may each
mark a pool.
-/

namespace MeisterStack.CloudController.StoragePools

open Foundation ControllerApi List Registry Table

def Marked (s : State) (mark : String × String) : Prop :=
  ∃ v, s.pools.cell mark.1 = some v ∧ v.val.uid = mark.2 ∧ v.val.spec.default

def Clash (s : State) (d : (String × String) × (String × String)) : Prop :=
  Marked s d.1 ∧ Marked s d.2 ∧ d.1.1 ≠ d.2.1

def Covers (t : Task) (d : (String × String) × (String × String)) : Prop :=
  t.owns = some d.1.2 ∨ t.owns = some d.2.2

variable {s : State} {name : String} {mark : String × String}

theorem SoleDefault.marked (h : SoleDefault s name) (hmark : Marked s mark) : mark.1 = name := by
  obtain ⟨v, hv, -, hdefault⟩ := hmark
  exact h.eq hv hdefault

variable {pool : StoragePool}

theorem marked_putPool (h : Marked (s.putPool name pool) mark) :
    mark = (name, pool.uid) ∧ pool.spec.default ∨ mark.1 ≠ name ∧ Marked s mark := by
  obtain ⟨v, hv, huid, hdefault⟩ := h
  rcases cell_put_cases hv with ⟨hname, rfl⟩ | ⟨hne, hv⟩
  · exact .inl ⟨Prod.ext hname huid.symm, hdefault⟩
  · exact .inr ⟨hne, v, hv, huid, hdefault⟩

theorem marked_removePool
    (h : Marked (s.removePool name) mark) : mark.1 ≠ name ∧ Marked s mark := by
  obtain ⟨v, hv, huid, hdefault⟩ := h
  obtain ⟨hne, hv⟩ := cell_of_remove hv
  exact ⟨hne, v, hv, huid, hdefault⟩

variable {s' : State} {d : (String × String) × (String × String)}

theorem Clash.of_marked
    (h : Clash s' d) (hkeep : ∀ mark, Marked s' mark → Marked s mark) : Clash s d :=
  ⟨hkeep _ h.1, hkeep _ h.2.1, h.2.2⟩

def soleMark : Guard State Task Event Input where
  env _ _ := True
  task s t input :=
    match t, input with
    | .update u, input => input ≠ .fail →
        (s.pools.cell u.name).standsAt u.resourceVersion → u.body.default →
          u.current.val.spec.default ∨ SoleDefault s u.name
    | .create name spec, .lost _ => s.pools.cell name = none → spec.default →
        SoleDefault s name
    | t, input => TakenBack s t input

instance (s event) : Decidable (soleMark.env s event) := .isTrue trivial

instance (s t input) : Decidable (soleMark.task s t input) := by
  induction t using Task.casesOn <;> induction input using Input.casesOn <;>
    dsimp only [soleMark] <;> infer_instance

def TaskOk (s : State) : Task → Prop
  | .recheck name created =>
    Is identity s.registry name created.val ∧ created.val.spec.default
  | .takeBack name d => Is identity s.registry name d.checked.val
  | .isGone name created => Is identity s.registry name created
  | .checkUpdate u | .listStranded u | .listOrphaned u | .update u => u.Pinned s
  | _ => True

variable {t : Task}

theorem TaskOk.pinned (h : TaskOk s t) {u} (hu : t.updating = some u) : u.Pinned s := by
  cases t <;> cases hu <;> exact h

theorem TaskOk.keep (he : Effect s s') (h : TaskOk s t) : TaskOk s' t := by
  cases t with
  | recheck => exact ⟨he.change.is h.1, h.2⟩
  | takeBack | isGone => exact he.change.is h
  | checkUpdate | listStranded | listOrphaned | update => exact he.pinned h
  | check | create | listHeld | deletePool | createVolume => trivial

theorem env_taskOk {event new} (h : env s event = some (s', new)) : ∀ t ∈ new, TaskOk s' t := by
  intro t ht
  cases event with
  | createPool =>
    simp only [env] at h
    split at h <;> cases h
    rw [mem_singleton.mp ht]
    trivial
  | updatePool =>
    obtain ⟨v, hv, heq⟩ := Option.bind_eq_some_iff.mp h
    split at heq <;> cases heq
    rename_i hfits
    simp only [Bool.or_eq_true, decide_eq_true_eq, not_or, not_le] at hfits
    rw [mem_singleton.mp ht]
    exact ⟨hfits.2, fun _ => hv⟩
  | deletePool =>
    obtain ⟨v, hv, ⟨⟩⟩ := Option.bind_eq_some_iff.mp h
    rw [mem_singleton.mp ht]
    trivial
  | createVolume =>
    simp only [env] at h
    split at h
    · cases h
    · split at h <;> cases h
      rw [mem_singleton.mp ht]
      trivial
  | touchPool | placeVolume | removeVolume =>
    obtain ⟨v, hv, ⟨⟩⟩ := Option.bind_eq_some_iff.mp h
    cases ht

variable {input : Input}

theorem Went.taskOk {next} (hs : Ok s) (ht : TaskOk s t) (h : Went s t input s' next) :
    ∀ u ∈ next, TaskOk s' u := by
  intro u hu
  cases h with
  | ended | kept | removed | gone | updated | deleted | volume => cases hu
  | checked | unheld =>
    rw [mem_singleton.mp hu]
    trivial
  | checkedUpdate | noneStranded | noneOrphaned | asked =>
    rw [mem_singleton.mp hu]
    exact ht
  | @created name spec uid _ _ habsent hfresh _ hnext =>
    obtain ⟨rfl, hdefault⟩ := hnext u hu
    exact ⟨is_made (x := (⟨uid, spec⟩ : StoragePool)) hs.drawn hfresh, hdefault⟩
  | yields =>
    rw [mem_singleton.mp hu]
    exact ht.1
  | retried hchecked =>
    rw [mem_singleton.mp hu]
    simp only [TaskOk, hchecked]
    exact ht

theorem outline : program.Outline soleMark Ok TaskOk where
  env hs _ h := by
    have he := env_effect h
    exact ⟨he.ok hs, env_taskOk h, fun t ht => TaskOk.keep he ht⟩
  task hs ht _ h := by
    have hwent := task_went h
    have he := hwent.effect fun u => ht.pinned
    exact ⟨he.ok hs, hwent.taskOk hs ht, fun u hu => TaskOk.keep he hu⟩

theorem carriedOver (hclash : Clash s d) (hfree : ¬Covers t d) :
    Program.CarriedOver TaskOk Clash Covers (· = t) s d := by
  refine ⟨d, hclash, ?_, fun _ _ hcovers => hcovers⟩
  rintro _ rfl
  exact hfree

theorem not_covers (h : t.owns = none) (d) : ¬Covers t d := by
  simp [Covers, h]

theorem Clash.owned (h : Clash s d) (his : Is identity s.registry name pool)
    (howns : t.owns = some pool.uid) (hcovers : Covers t d) :
    Marked s (name, pool.uid) ∧ ∃ mark, Marked s mark ∧ mark.1 ≠ name := by
  obtain ⟨hfirst, hsecond, hne⟩ := h
  rw [Covers, howns] at hcovers
  rcases hcovers with heq | heq
  · obtain ⟨v, hv, huid, hdefault⟩ := hfirst
    rw [← Option.some.inj heq] at huid
    obtain ⟨hname, -⟩ := his.2 d.1.1 v hv huid
    rw [← hname]
    exact ⟨⟨v, hv, huid, hdefault⟩, d.2, hsecond, fun heq' => hne heq'.symm⟩
  · obtain ⟨v, hv, huid, hdefault⟩ := hsecond
    rw [← Option.some.inj heq] at huid
    obtain ⟨hname, -⟩ := his.2 d.2.1 v hv huid
    rw [← hname]
    exact ⟨⟨v, hv, huid, hdefault⟩, d.1, hfirst, hne⟩

theorem env_marked {event new} (h : env s event = some (s', new)) (hmark : Marked s' mark) :
    Marked s mark := by
  cases event with
  | touchPool =>
    obtain ⟨v, hv, ⟨⟩⟩ := Option.bind_eq_some_iff.mp h
    rcases marked_putPool hmark with ⟨rfl, hdefault⟩ | ⟨-, hmark⟩
    · exact ⟨v, hv, rfl, hdefault⟩
    · exact hmark
  | createPool =>
    simp only [env] at h
    split at h <;> cases h
    exact hmark
  | updatePool =>
    obtain ⟨v, hv, heq⟩ := Option.bind_eq_some_iff.mp h
    split at heq <;> cases heq
    exact hmark
  | createVolume =>
    simp only [env] at h
    split at h
    · cases h
    · split at h <;> cases h
      exact hmark
  | deletePool | placeVolume | removeVolume =>
    obtain ⟨v, hv, ⟨⟩⟩ := Option.bind_eq_some_iff.mp h
    exact hmark

theorem Clash.of_putPool (h : Clash (s.putPool name pool) d)
    (hsole : pool.spec.default → Marked s (name, pool.uid) ∨ SoleDefault s name) : Clash s d := by
  obtain ⟨hfirst, hsecond, hne⟩ := h
  rcases marked_putPool hfirst with ⟨hnew, hdefault⟩ | ⟨hfirstNe, hfirst⟩
  · rcases marked_putPool hsecond with ⟨hnew', -⟩ | ⟨hsecondNe, hsecond⟩
    · exact absurd ((congrArg Prod.fst hnew).trans (congrArg Prod.fst hnew').symm) hne
    · rcases hsole hdefault with hmarked | hsole
      · rw [← hnew] at hmarked
        exact ⟨hmarked, hsecond, hne⟩
      · exact absurd (hsole.marked hsecond) hsecondNe
  · rcases marked_putPool hsecond with ⟨hnew, hdefault⟩ | ⟨-, hsecond⟩
    · rcases hsole hdefault with hmarked | hsole
      · rw [← hnew] at hmarked
        exact ⟨hfirst, hmarked, hne⟩
      · exact absurd (hsole.marked hfirst) hfirstNe
    · exact ⟨hfirst, hsecond, hne⟩

theorem Clash.of_declare {uid spec} (h : Clash (s.declare name ⟨uid, spec⟩) d) :
    spec.default ∧ (d.1.2 = uid ∨ d.2.2 = uid) ∨ Clash s d := by
  obtain ⟨hfirst, hsecond, hne⟩ := h
  rcases marked_putPool hfirst with ⟨hnew, hdefault⟩ | ⟨-, hfirst⟩
  · exact .inl ⟨hdefault, .inl (congrArg Prod.snd hnew)⟩
  · rcases marked_putPool hsecond with ⟨hnew, hdefault⟩ | ⟨-, hsecond⟩
    · exact .inl ⟨hdefault, .inr (congrArg Prod.snd hnew)⟩
    · exact .inr ⟨hfirst, hsecond, hne⟩

theorem takenBack_of_soleMark (h : soleMark.task s t input) : TakenBack s t input := by
  cases t with
  | takeBack | isGone => cases input <;> exact h
  | _ => trivial

theorem Went.clash {next} (ht : TaskOk s t) (hguard : soleMark.task s t input)
    (h : Went s t input s' next) (hclash : Clash s' d) :
    (∃ u ∈ next, Covers u d) ∨ Clash s d ∧ ¬Covers t d := by
  cases h with
  | ended hnone =>
    exact .inr ⟨hclash, not_covers (hnone (takenBack_of_soleMark hguard)) d⟩
  | checked | checkedUpdate | noneStranded | noneOrphaned | unheld =>
    exact .inr ⟨hclash, not_covers rfl d⟩
  | @created name spec uid _ _ habsent hfresh hinput hnext =>
    rcases hinput with ⟨-, hasked⟩ | rfl
    · rcases hclash.of_declare with ⟨hdefault, hown⟩ | hclash
      · left
        obtain ⟨u, hu⟩ := exists_mem_of_ne_nil next (hasked hdefault)
        refine ⟨u, hu, ?_⟩
        rw [(hnext u hu).1]
        exact hown.imp (fun h => by rw [← h]; rfl) fun h => by rw [← h]; rfl
      · exact .inr ⟨hclash, not_covers rfl d⟩
    · exact .inr ⟨hclash.of_putPool fun hdefault => .inr (hguard habsent hdefault),
        not_covers rfl d⟩
  | kept hsole =>
    refine .inr ⟨hclash, fun hcovers => ?_⟩
    obtain ⟨-, mark, hmark, hne⟩ := hclash.owned ht.1 rfl hcovers
    exact hne ((hsole ht.2).marked hmark)
  | yields | asked =>
    refine or_iff_not_imp_right.mpr fun hnot => ⟨_, mem_singleton.mpr rfl, ?_⟩
    exact by_contra fun hcovers => hnot ⟨hclash, hcovers⟩
  | @retried name d0 _ _ hchecked =>
    by_cases hcovers : Covers (.takeBack name d0) d
    · refine .inl ⟨_, mem_singleton.mpr rfl, ?_⟩
      simp only [Covers, Task.owns, hchecked]
      exact hcovers
    · exact .inr ⟨hclash, hcovers⟩
  | @removed name d0 _ _ =>
    refine .inr ⟨hclash.of_marked fun mark hmark => (marked_removePool hmark).2, ?_⟩
    intro hcovers
    obtain ⟨hmarked, -⟩ := hclash.owned (Effect.removed.change.is ht) rfl hcovers
    exact (marked_removePool hmarked).1 rfl
  | @gone name created _ hgone =>
    refine .inr ⟨hclash, fun hcovers => ?_⟩
    obtain ⟨⟨v, hv, huid, -⟩, -⟩ := hclash.owned ht rfl hcovers
    simp [State.gone, hv, huid] at hgone
  | @updated u _ hlands hstands =>
    refine .inr ⟨hclash.of_putPool fun hdefault => ?_, not_covers rfl d⟩
    exact (hguard hlands hstands hdefault).imp_left fun halready =>
      ⟨u.current, ht.2 hstands, rfl, halready⟩
  | deleted =>
    exact .inr ⟨hclash.of_marked fun mark hmark => (marked_removePool hmark).2, not_covers rfl d⟩
  | volume => exact .inr ⟨hclash, not_covers rfl d⟩

theorem marksOutline : program.DebtOutline soleMark Ok TaskOk Clash Covers where
  outline := outline
  env := fun {s event s' new} hs _ h d hclash =>
    ⟨d, hclash.of_marked fun mark hmark => env_marked h hmark, by simp, fun _ _ hcovers => hcovers⟩
  task := fun {s t input s' next} hs ht hguard h d hclash => by
    exact ((task_went h).clash ht hguard hclash).imp_right fun ⟨hbefore, hfree⟩ =>
      carriedOver hbefore hfree

def OneDefault (s : State) : Prop :=
  ∀ a b v v', s.pools.cell a = some v → s.pools.cell b = some v' →
    v.val.spec.default → v'.val.spec.default → a = b

theorem OneDefault.no_clash (h : OneDefault s) (d) : ¬Clash s d := by
  rintro ⟨⟨v, hv, -, hdefault⟩, ⟨v', hv', -, hdefault'⟩, hne⟩
  exact hne (h _ _ v v' hv hv' hdefault hdefault')

theorem oneDefault_of_no_clash (h : ∀ d, ¬Clash s d) : OneDefault s := by
  intro a b v v' hv hv' hdefault hdefault'
  by_contra hne
  exact h ((a, v.val.uid), (b, v'.val.uid)) ⟨⟨v, hv, rfl, hdefault⟩, ⟨v', hv', rfl, hdefault'⟩, hne⟩

theorem nodup_poolList (s : State) : (s.poolList.map Prod.fst).Nodup := by
  rw [State.poolList, map_map]
  exact s.pools.nodup_list

/-- Creates, updates and deletes of storage pools run side by side, beside the writes of reports and
volumes, from a store with at most one default pool. Once no call is under way at most one pool is
marked default, and a volume that names no pool is not refused for there being many: provided an
update that marks a pool finds no other marked when it is written, and so does a create whose answer
is lost, and every take-back succeeds. -/
theorem one_default_pool {s : State} {ms : List (Move Event Input)} {w : World State Task}
    (hok : Ok s) (hone : OneDefault s) (hmeets : program.RunMeets soleMark ⟨s, []⟩ ms)
    (hcrash : ∀ index, .crash index ∉ ms) (hrun : program.run ⟨s, []⟩ ms = some w)
    (hdone : w.tasks = []) :
    OneDefault w.shared ∧ ∀ names, pickStoragePool w.shared.poolList none ≠
      .error (.manyDefaults names) := by
  have hafter : OneDefault w.shared :=
    oneDefault_of_no_clash (marksOutline.settled hok hone.no_clash hmeets hcrash hrun hdone)
  refine ⟨hafter, fun names => pickStoragePool_unambiguous (nodup_poolList _) ?_⟩
  rintro ⟨a, spec⟩ ha ⟨b, spec'⟩ hb hdefault hdefault'
  obtain ⟨v, hv, rfl⟩ := mem_poolList.mp ha
  obtain ⟨v', hv', rfl⟩ := mem_poolList.mp hb
  exact hafter a b v v' hv hv' hdefault hdefault'

def onCluster (default : Bool) : StoragePoolSpec := ⟨"lvm-thin", [], default, "c", []⟩

def bothCreateDefault : List (Move Event Input) :=
  [.env (.createPool "a" (onCluster true)), .env (.createPool "b" (onCluster true)),
    .task 0 (.go ""), .task 1 (.go ""), .task 0 (.go "ua"), .task 1 (.go "ub"),
    .task 1 (.go ""), .task 1 (.go ""), .task 0 (.go "")]

theorem one_default_pool_raced : ∃ w, program.run ⟨⟨0, [], ∅, ∅⟩, []⟩ bothCreateDefault = some w ∧
    w.tasks = [] ∧ w.shared.poolList = [("a", onCluster true)] ∧ OneDefault w.shared := by
  have hmeets : program.RunMeets soleMark ⟨⟨0, [], ∅, ∅⟩, []⟩ bothCreateDefault := by decide
  refine ⟨_, rfl, rfl, rfl, ?_⟩
  refine (one_default_pool ⟨?_, ?_⟩ ?_ hmeets (by simp [bothCreateDefault]) rfl rfl).1
  · rintro name v ⟨⟩
  · rintro name v ⟨⟩
  · rintro a b v v' ⟨⟩

def twoPools : State :=
  ⟨2, ["ua", "ub"], ((∅ : Table String StoragePool).put "a" 0 ⟨"ua", onCluster false⟩).put "b" 1
    ⟨"ub", onCluster false⟩, ∅⟩

def bothMark : List (Move Event Input) :=
  [.env (.updatePool "a" (onCluster true) 0), .env (.updatePool "b" (onCluster true) 1),
    .task 0 (.go ""), .task 1 (.go ""), .task 0 (.go ""), .task 1 (.go ""), .task 0 (.go ""),
    .task 1 (.go ""), .task 0 (.go ""), .task 0 (.go "")]

theorem twoPools_oneDefault : OneDefault twoPools := by
  intro a b v v' hv _ hdefault
  rcases cell_put_cases hv with ⟨-, rfl⟩ | ⟨-, hv⟩
  · cases hdefault
  · rcases cell_put_cases hv with ⟨-, rfl⟩ | ⟨-, hv⟩
    · cases hdefault
    · cases hv

theorem updates_mark_two_defaults : OneDefault twoPools ∧
    ∃ w, program.run ⟨twoPools, []⟩ bothMark = some w ∧ w.tasks = [] ∧ ¬OneDefault w.shared ∧
      pickStoragePool w.shared.poolList none = .error (.manyDefaults ["b", "a"]) := by
  refine ⟨twoPools_oneDefault, _, rfl, rfl, fun hone => ?_, rfl⟩
  have hname := hone "a" "b" _ _ rfl rfl rfl rfl
  exact absurd hname (by decide)

end MeisterStack.CloudController.StoragePools
