import MeisterStack.Foundation.History
import MeisterStack.Foundation.Registry
import MeisterStack.CloudController.Routers

/-!
# A router on one cluster at a time

A cluster may hold a router from its ack of a `CreateRouter` until a complete list of its routers
does not name it. The router stands on one cluster as long as the binding is not taken from a
cluster that may hold it, a create is sent and acked under the binding, and the list that a removal
rests on came after the ack.
-/

namespace MeisterStack.CloudController.Routers

open Foundation ControllerApi List Option Table Program Prod Deletion Router Placing
open ControllerApi.Gateway (RouterPhaseKind RouterReason)

abbrev Holdings := List (String × String)

def holdings : Observer State Task Event Input Holdings where
  env _ event l :=
    match event with
    | .status _ cluster (some routers) =>
      l.filter fun h => h.2 ≠ cluster || routers.contains h.1
    | _ => l
  task _ t input l :=
    match t, input with
    | .awaitAck p cluster, .go => (p.router.uid, cluster) :: l
    | _, _ => l

def handed : Program (State × Holdings) Task Event Input := program.observed holdings

def underBinding : Guard (State × Holdings) Task Event Input where
  env _ _ := True
  task s t input :=
    match t, input with
    | .bind p d, .go => ∀ h ∈ s.2, h.1 = p.router.uid → d.cluster = some h.2
    | .send p cluster, .go => ∃ e ∈ s.1.routers.list, e.2.val.uid = p.router.uid ∧
        e.2.val.cluster = some cluster
    | .awaitAck p cluster, .go => ∃ e ∈ s.1.routers.list, e.2.val.uid = p.router.uid ∧
        e.2.val.cluster = some cluster ∧ e.2.val.deletedAt = none
    | .teardown l, .go => ∀ cluster ∈ l.router.val.cluster,
        ∀ routers ∈ s.1.heard.lookup (l.replica, cluster),
          routers.contains l.router.val.uid = false → (l.router.val.uid, cluster) ∉ s.2
    | _, _ => True

instance (s event) : Decidable (underBinding.env s event) := .isTrue trivial

instance (s t input) : Decidable (underBinding.task s t input) := by
  cases t <;> cases input <;> dsimp only [underBinding] <;> infer_instance

inductive Wrote (s : State) : Task → Input → State → Prop
  | nothing {t : Task} {input : Input} : Wrote s t input s
  | kept {t : Task} {input : Input} {name : String} {v : Versioned Router} {x : Router} :
      s.routers.cell name = some v → x.uid = v.val.uid → x.cluster = v.val.cluster →
      (v.val.deletedAt.isSome → x.deletedAt.isSome) →
      Wrote s t input (s.put name x)
  | bound {p : Placing} {d : Decision} {v : Versioned Router} :
      s.routers.cell p.name = some v → v.val.uid = p.router.uid →
      Wrote s (.bind p d) .go (s.put p.name (p.written d v.val))
  | finished {name : String} {verdict : Verdict} {d : Deletion Router} :
      finishDelete uid verdict.concluded (s.routers.cell name) d = .removed →
      Wrote s (.finish name verdict d) .go (s.remove name)
  | takenBack {name : String} {d : Deletion Router} {now : Instant} :
      finishDelete uid Verdict.unplaced.concluded (s.routers.cell name) d = .removed →
      Wrote s (.takeBack name d now) .go (s.remove name)
  | deleted {name : String} {v : Versioned Router} :
      (s.routers.cell name).standsAt v.rev →
      Wrote s (.deleteAt name v) .go (s.remove name)

variable {s s' : State} {name : String} {edit : Router → Router}

theorem mutate_cases {uid r} (h : s.mutate name uid edit = some (s', r)) :
    ∃ v, s.routers.cell name = some v ∧ v.val.uid = uid ∧ s' = s.put name (edit v.val) := by
  unfold State.mutate at h
  split at h
  · rename_i v hv
    split at h <;> cases h
    exact ⟨v, hv, by assumption, rfl⟩
  · cases h

structure Restates (edit : Router → Router) : Prop where
  uid : ∀ r, (edit r).uid = r.uid
  cluster : ∀ r, (edit r).cluster = r.cluster
  deletedAt : ∀ r, r.deletedAt.isSome → (edit r).deletedAt.isSome

theorem amend_cases (s : State) (name uid) (edit : Router → Router) :
    s.amend name uid edit = s ∨
      ∃ v, s.routers.cell name = some v ∧ s.amend name uid edit = s.put name (edit v.val) := by
  unfold State.amend
  cases hmutate : s.mutate name uid edit with
  | none => exact .inl rfl
  | some written =>
    obtain ⟨state, r⟩ := written
    obtain ⟨v, hv, -, rfl⟩ := mutate_cases hmutate
    exact .inr ⟨v, hv, rfl⟩

variable {t : Task} {input : Input}

theorem amend_wrote {uid} (hedit : Restates edit) : Wrote s t input (s.amend name uid edit) := by
  rcases amend_cases s name uid edit with heq | ⟨v, hv, heq⟩ <;> rw [heq]
  · exact .nothing
  · exact .kept hv (hedit.uid v.val) (hedit.cluster v.val) (hedit.deletedAt v.val)

theorem rewrite_wrote {p next new}
    (hedit : ∀ v, s.routers.cell p.name = some v → v.val.uid = p.router.uid →
      Wrote s t input (s.put p.name (edit v.val))) (h : rewrite s p edit next = (s', new)) :
    Wrote s t input s' := by
  unfold rewrite at h
  split at h
  · rename_i written r hmutate
    obtain ⟨v, hv, huid, rfl⟩ := mutate_cases hmutate
    cases h
    exact hedit v hv huid
  · cases h
    exact .nothing

variable {next : List Task}

theorem finish_wrote {verdict d} (h : finish s name verdict d = (s', next)) :
    Wrote s (.finish name verdict d) .go s' := by
  unfold finish at h
  split at h <;> cases h
  · exact .finished (by assumption)
  · exact .nothing
  · exact .nothing

theorem takeBack_wrote {d now} (h : takeBack s name d now = (s', next)) :
    Wrote s (.takeBack name d now) .go s' := by
  unfold takeBack at h
  split at h <;> cases h
  · exact .takenBack (by assumption)
  · exact .nothing
  · exact .nothing

theorem task_wrote (h : task s t input = some (s', next)) : Wrote s t input s' := by
  cases input with
  | fail | lost | refused => cases t <;> cases h <;> exact .nothing
  | go =>
    cases t with
    | listHeld =>
      simp only [task] at h
      split at h <;> cases h <;> exact .nothing
    | finish => exact finish_wrote (some.inj h)
    | writeVni | writeAddress =>
      exact rewrite_wrote (fun v hv _ => .kept hv rfl rfl id) (some.inj h)
    | bind => exact rewrite_wrote (fun v hv huid => .bound hv huid) (some.inj h)
    | note =>
      cases h
      exact amend_wrote ⟨fun _ => rfl, fun _ => rfl, fun _ => id⟩
    | deleteAt =>
      simp only [task] at h
      split at h <;> cases h
      · exact .deleted (by assumption)
      · exact .nothing
    | takeBack => exact takeBack_wrote (some.inj h)
    | mark =>
      cases h
      exact amend_wrote ⟨fun _ => rfl, fun _ => rfl, fun _ _ => by simp⟩
    | listNetworks | listClusters | listTenants | teardown | sendDelete | settleAddress | send
    | awaitAck =>
      cases h
      exact .nothing

def identity : Identity Router String where
  uid := uid
  Keeps r r' := r'.uid = r.uid ∧ (r.deletedAt.isSome → r'.deletedAt.isSome)
  refl _ := ⟨rfl, id⟩
  trans h h' := ⟨h'.1.trans h.1, fun hdeleting => h'.2 (h.2 hdeleting)⟩
  uid_eq h := h.1

def State.registry (s : State) : Registry String Router String := ⟨s.routers, s.drawn⟩

abbrev Commit (s s' : State) : Prop :=
  Registry.Commit identity s.registry s.next s'.registry s'.next

theorem Wrote.commit (h : Wrote s t input s') : Commit s s' := by
  cases h with
  | nothing => exact .same le_rfl
  | kept hv huid _ hdeleted => exact .edited hv ⟨huid, hdeleted⟩
  | bound hv => exact .edited hv ⟨rfl, id⟩
  | finished | takenBack | deleted => exact .removed

theorem mirror_restates (said nodes) :
    Restates fun r =>
      if r.cluster = some said.node then { r with reported := some said, nodes } else r := by
  constructor <;> intro r
  · split <;> rfl
  · split <;> rfl
  · split <;> exact id

inductive Happened (s : State) : State → Prop
  | nothing {s' : State} : s'.routers = s.routers → s'.drawn = s.drawn → s'.next = s.next →
      Happened s s'
  | made {name : String} {r : Router} : s.routers.cell name = none → r.uid ∉ s.drawn →
      Happened s { s.put name r with drawn := r.uid :: s.drawn }
  | kept {name : String} {v : Versioned Router} {x : Router} :
      s.routers.cell name = some v → x.uid = v.val.uid → x.cluster = v.val.cluster →
      (v.val.deletedAt.isSome → x.deletedAt.isSome) → Happened s (s.put name x)

theorem env_happened {event new} (h : env s event = some (s', new)) : Happened s s' := by
  cases event with
  | createRouter name uid tenant providerNetwork =>
    simp only [env] at h
    split at h <;> cases h
    rename_i hfree
    simp only [Bool.or_eq_true, not_or, Bool.not_eq_true, isSome_eq_false_iff,
      isNone_iff_eq_none, contains_eq_mem, decide_eq_false_iff_not] at hfree
    exact .made (r := declare uid tenant providerNetwork) hfree.1 hfree.2
  | updateRouter =>
    obtain ⟨v, hv, ⟨⟩⟩ := bind_eq_some_iff.mp h
    exact .kept hv rfl rfl id
  | mirror name uid said nodes =>
    cases h
    have hedit := mirror_restates said nodes
    rcases amend_cases s name uid _ with heq | ⟨v, hv, heq⟩ <;> rw [heq]
    · exact .nothing rfl rfl rfl
    · exact .kept hv (hedit.uid v.val) (hedit.cluster v.val) (hedit.deletedAt v.val)
  | deleteRouter | takeBackRouter | reconcile =>
    obtain ⟨v, hv, ⟨⟩⟩ := bind_eq_some_iff.mp h
    exact .nothing rfl rfl rfl
  | setNetworks | setClusters | setTenants | status =>
    cases h
    exact .nothing rfl rfl rfl

theorem Happened.commit (h : Happened s s') : Commit s s' := by
  cases h with
  | nothing hrouters hdrawn hnext =>
    have hregistry : s'.registry = s.registry := by simp [State.registry, hrouters, hdrawn]
    rw [Commit, hregistry]
    exact .same hnext.ge
  | made habsent hfresh => exact .made habsent hfresh
  | kept hv huid _ hdeleted => exact .edited hv ⟨huid, hdeleted⟩

theorem Happened.keeps (h : Happened s s')
    (hgone : s'.routers.cell name = none) : s.routers.cell name = none := by
  cases h with
  | nothing hrouters =>
    rw [← hrouters]
    exact hgone
  | made | kept => exact cell_of_put_none hgone

def HeldByBound (l : Holdings) (r : Router) : Prop :=
  ∀ h ∈ l, h.1 = r.uid → r.cluster = some h.2

structure Bound (s : State × Holdings) : Prop where
  sound : Registry.Sound identity s.1.registry s.1.next
  known : ∀ h ∈ s.2, h.1 ∈ s.1.drawn
  held : ∀ name v, s.1.routers.cell name = some v → HeldByBound s.2 v.val

def Vacated (s : State × Holdings) (uid : String) : Prop :=
  uid ∈ s.1.drawn ∧ ∀ name v, s.1.routers.cell name = some v → v.val.uid = uid →
    v.val.deletedAt.isSome ∧ ∀ h ∈ s.2, h.1 ≠ uid

structure Listed.Seen (s : State × Holdings) (l : Listed) : Prop where
  listed : Registry.Is identity s.1.registry l.name l.router.val
  saw : (s.1.routers.cell l.name).Saw s.1.next l.router
  held : l.router.val.deletedAt.isSome → HeldByBound s.2 l.router.val

def TaskOk (s : State × Holdings) : Task → Prop
  | .listNetworks l | .listClusters l | .listTenants l | .listHeld l => l.Seen s
  | .teardown l => l.Seen s ∧ l.router.val.deletedAt.isSome
  | .finish name verdict d => d.Judges uid (s.1.routers.cell name) s.1.next ∧
      (verdict = .absent → Vacated s d.checked.val.uid)
  | .takeBack name d _ => d.Judges uid (s.1.routers.cell name) s.1.next
  | .deleteAt name v => (s.1.routers.cell name).Saw s.1.next v ∧ v.val.cluster = none
  | _ => True

structure Later (s s' : State × Holdings) : Prop where
  commit : Commit s.1 s'.1
  holdings : ∀ h ∈ s'.2, h ∈ s.2 ∨ ∃ name v, s'.1.routers.cell name = some v ∧
    v.val.uid = h.1 ∧ v.val.cluster = some h.2 ∧ v.val.deletedAt = none

section Steps

variable {s s' : State × Holdings}

theorem Vacated.keep (h : Later s s') {uid} (hv : Vacated s uid) : Vacated s' uid := by
  have hbefore : ∀ name v, s'.1.routers.cell name = some v → v.val.uid = uid →
      v.val.deletedAt.isSome ∧ ∀ h ∈ s.2, h.1 ≠ uid := by
    intro name v hcell huid
    obtain ⟨v0, hv0, huid0, hkeeps⟩ := h.commit.change.before hcell hv.1 huid
    obtain ⟨hdeleting, hnone⟩ := hv.2 name v0 hv0 (huid0.symm.trans huid)
    exact ⟨hkeeps hdeleting, hnone⟩
  refine ⟨h.commit.change.drawn_subset hv.1, fun name v hcell huid => ?_⟩
  obtain ⟨hdeleting, hnone⟩ := hbefore name v hcell huid
  refine ⟨hdeleting, fun held hheld heq => ?_⟩
  rcases h.holdings held hheld with hold | ⟨k, w, hw, hwuid, -, hstanding⟩
  · exact hnone held hold heq
  · have hdeleting := (hbefore k w hw (hwuid.trans heq)).1
    rw [hstanding] at hdeleting
    cases hdeleting

theorem Listed.Seen.keep (h : Later s s') {l : Listed} (hl : l.Seen s) : l.Seen s' := by
  have his := h.commit.change.is hl.listed
  refine ⟨his, h.commit.saw hl.saw, fun hdeleting held hheld huid => ?_⟩
  rcases h.holdings held hheld with hold | ⟨k, w, hw, hwuid, -, hstanding⟩
  · exact hl.held hdeleting held hold huid
  · have hstill := (his.2 k w hw (hwuid.trans huid)).2.2 hdeleting
    rw [hstanding] at hstill
    cases hstill

theorem TaskOk.keep (h : Later s s') {t} (ht : TaskOk s t) : TaskOk s' t := by
  cases t with
  | listNetworks | listClusters | listTenants | listHeld => exact Listed.Seen.keep h ht
  | teardown => exact ⟨ht.1.keep h, ht.2⟩
  | finish =>
    exact ⟨ht.1.keep fun v => h.commit.saw, fun heq => (ht.2 heq).keep h⟩
  | takeBack => exact Judges.keep ht fun v => h.commit.saw
  | deleteAt => exact ⟨h.commit.saw ht.1, ht.2⟩
  | _ => trivial

theorem Bound.keep (hs : Bound s) (h : Later s s')
    (hplaced : ∀ name v, s'.1.routers.cell name = some v → HeldByBound s.2 v.val) : Bound s' := by
  have hsound := h.commit.sound hs.sound
  refine ⟨hsound, fun held hheld => ?_, fun name v hv held hheld huid => ?_⟩
  · rcases h.holdings held hheld with hold | ⟨k, w, hw, hwuid, -⟩
    · exact h.commit.change.drawn_subset (hs.known held hold)
    · rw [← hwuid]
      exact hsound.drawn k w hw
  · rcases h.holdings held hheld with hold | ⟨k, w, hw, hwuid, hcluster, -⟩
    · exact hplaced name v hv held hold huid
    · -- the router that was acked is the one stored here
      obtain ⟨rfl, -⟩ := (hsound.is hv).2 k w hw (hwuid.trans huid)
      rw [hv] at hw
      cases hw
      exact hcluster

end Steps

section Step

variable {s s' : State × Holdings} {event : Event} {new : List Task}

theorem env_later (h : handed.env s event = some (s', new)) : Later s s' := by
  obtain ⟨hstep, hledger⟩ := observed_env h
  refine ⟨(env_happened hstep).commit, fun held hheld => .inl ?_⟩
  rw [hledger] at hheld
  simp only [holdings] at hheld
  split at hheld
  · exact mem_of_mem_filter hheld
  · exact hheld

theorem env_bound (hs : Bound s) (h : handed.env s event = some (s', new)) : Bound s' := by
  have hlater := env_later h
  obtain ⟨s', l'⟩ := s'
  refine hs.keep hlater fun name v hv => ?_
  cases env_happened (observed_env h).1 with
  | nothing hrouters =>
    rw [hrouters] at hv
    exact hs.held name v hv
  | made habsent hfresh =>
    rcases cell_put_cases hv with ⟨rfl, rfl⟩ | ⟨-, hv⟩
    · intro held hheld huid
      have hdrawn := hs.known held hheld
      rw [huid] at hdrawn
      exact absurd hdrawn hfresh
    · exact hs.held name v hv
  | kept hw huid hcluster =>
    rcases cell_put_cases hv with ⟨rfl, rfl⟩ | ⟨-, hv⟩
    · intro held hheld heq
      rw [huid] at heq
      exact hcluster.trans (hs.held name _ hw held hheld heq)
    · exact hs.held name v hv

theorem env_taskOk (hs' : Bound s')
    (h : handed.env s event = some (s', new)) : ∀ t ∈ new, TaskOk s' t := by
  obtain ⟨s', l'⟩ := s'
  have hstep := (observed_env h).1
  intro t ht
  cases event with
  | createRouter =>
    simp only [program, env] at hstep
    split at hstep <;> cases hstep
    cases ht
  | updateRouter =>
    obtain ⟨v, hv, ⟨⟩⟩ := bind_eq_some_iff.mp hstep
    cases ht
  | deleteRouter =>
    obtain ⟨v, hv, ⟨⟩⟩ := bind_eq_some_iff.mp hstep
    split at ht
    · rename_i hnone
      cases mem_singleton.mp ht
      exact ⟨hs'.sound.saw hv, isNone_iff_eq_none.mp hnone⟩
    · cases mem_singleton.mp ht
      trivial
  | takeBackRouter =>
    obtain ⟨v, hv, ⟨⟩⟩ := bind_eq_some_iff.mp hstep
    cases mem_singleton.mp ht
    exact judges_of (hs'.sound.saw hv)
  | reconcile replica sessions rules name =>
    obtain ⟨v, hv, ⟨⟩⟩ := bind_eq_some_iff.mp hstep
    cases mem_singleton.mp ht
    exact ⟨hs'.sound.is hv, hs'.sound.saw hv, fun _ => hs'.held name v hv⟩
  | setNetworks | setClusters | setTenants | status | mirror =>
    cases hstep
    cases ht

variable {t : Task} {input : Input} {next : List Task}

theorem task_later (hguard : underBinding.task s t input)
    (h : handed.task s t input = some (s', next)) : Later s s' := by
  obtain ⟨hstep, hledger⟩ := observed_task h
  refine ⟨(task_wrote hstep).commit, fun held hheld => ?_⟩
  rw [hledger] at hheld
  simp only [holdings] at hheld
  split at hheld
  · rename_i p cluster
    rcases mem_cons.mp hheld with rfl | hold
    · obtain ⟨⟨k, w⟩, hw, huid, hcluster, hstanding⟩ := hguard
      have hsame : some (s.1, acked p cluster) = some (s'.1, next) := hstep
      refine .inr ⟨k, w, ?_, huid, hcluster, hstanding⟩
      rw [← congrArg fst (some.inj hsame)]
      exact mem_list.mp hw
    · exact .inl hold
  · exact .inl hheld

theorem task_bound (hs : Bound s) (hguard : underBinding.task s t input)
    (h : handed.task s t input = some (s', next)) : Bound s' := by
  have hlater := task_later hguard h
  obtain ⟨s', l'⟩ := s'
  refine hs.keep hlater fun name v hv => ?_
  cases task_wrote (observed_task h).1 with
  | nothing => exact hs.held name v hv
  | kept hw huid hcluster =>
    rcases cell_put_cases hv with ⟨rfl, rfl⟩ | ⟨-, hv⟩
    · intro held hheld heq
      rw [huid] at heq
      exact hcluster.trans (hs.held name _ hw held hheld heq)
    · exact hs.held name v hv
  | @bound p d w hw huid =>
    rcases cell_put_cases hv with ⟨rfl, rfl⟩ | ⟨-, hv⟩
    · intro held hheld heq
      have heq : held.1 = w.val.uid := heq
      exact hguard held hheld (heq.trans huid)
    · exact hs.held name v hv
  | finished | takenBack | deleted => exact hs.held name v (cell_of_remove hv).2

theorem teardown_taskOk {l} (ht : TaskOk s (.teardown l))
    (hguard : underBinding.task s (.teardown l) .go) : ∀ u ∈ teardown s.1 l, TaskOk s u := by
  obtain ⟨hseen, hdeleting⟩ := ht
  have hjudges : (of l.router).Judges uid (s.1.routers.cell l.name) s.1.next :=
    judges_of hseen.saw
  intro u hu
  unfold teardown at hu
  split at hu
  · cases mem_singleton.mp hu
    exact ⟨hjudges, nofun⟩
  · rename_i cluster hcluster
    split at hu
    · cases mem_singleton.mp hu
      trivial
    · rename_i routers hheard
      split at hu
      · cases mem_singleton.mp hu
        trivial
      · rename_i hunnamed
        cases mem_singleton.mp hu
        refine ⟨hjudges, fun _ => ⟨hseen.listed.1, fun k v hv huid => ⟨?_, ?_⟩⟩⟩
        · exact (hseen.listed.2 k v hv huid).2.2 hdeleting
        · intro held hheld heq
          have hat := hseen.held hdeleting held hheld heq
          rw [hcluster] at hat
          cases hat
          have habsent := hguard held.2 hcluster routers hheard (by simpa using hunnamed)
          apply habsent
          rw [← show held.1 = l.router.val.uid from heq]
          exact hheld

theorem finish_taskOk {name verdict d} (hs' : Bound s') (ht : TaskOk s' (.finish name verdict d))
    (h : finish s.1 name verdict d = (s'.1, next)) : ∀ u ∈ next, TaskOk s' u := by
  obtain ⟨s', l'⟩ := s'
  intro u hu
  unfold finish at h
  split at h <;> cases h
  · cases hu
  · cases hu
  · rename_i d' hagain
    cases mem_singleton.mp hu
    refine ⟨judges_again (hs'.sound.below name) hagain, fun heq => ?_⟩
    rw [(finishDelete_again hagain).1]
    exact ht.2 heq

theorem takeBack_taskOk {name d now} (hs' : Bound s') (h : takeBack s.1 name d now = (s'.1, next)) :
    ∀ u ∈ next, TaskOk s' u := by
  obtain ⟨s', l'⟩ := s'
  intro u hu
  unfold takeBack at h
  split at h <;> cases h
  · cases hu
  · cases mem_singleton.mp hu
    trivial
  · rename_i d' hagain
    cases mem_singleton.mp hu
    exact judges_again (hs'.sound.below name) hagain

/-! A pass that places a router goes on with writes and commands, which nothing is asserted of. -/

variable {p : Placing}

theorem note_taskOk {phase reason message} : ∀ u ∈ p.note phase reason message, TaskOk s u := by
  intro u hu
  unfold note at hu
  split at hu
  · cases hu
  · cases mem_singleton.mp hu
    trivial

theorem handDown_taskOk {d} : ∀ u ∈ p.handDown d, TaskOk s u := by
  intro u hu
  cases d with
  | walled => exact note_taskOk u hu
  | placed =>
    simp only [handDown] at hu
    split at hu
    · cases mem_singleton.mp hu
      trivial
    · cases hu

theorem place_taskOk : ∀ u ∈ p.place, TaskOk s u := by
  intro u hu
  unfold place at hu
  split at hu
  · cases mem_singleton.mp hu
    trivial
  · exact handDown_taskOk u hu

theorem claimAddress_taskOk {rounds routers} : ∀ u ∈ p.claimAddress rounds routers, TaskOk s u := by
  intro u hu
  unfold claimAddress at hu
  split at hu
  · exact place_taskOk u hu
  all_goals
    cases mem_singleton.mp hu
    trivial

theorem addressed_taskOk {address rounds} : ∀ u ∈ p.addressed address rounds, TaskOk s u := by
  intro u hu
  unfold addressed at hu
  split at hu
  · cases mem_singleton.mp hu
    trivial
  · exact place_taskOk u hu

theorem reconcileRouter_taskOk {l held} : ∀ u ∈ reconcileRouter l held, TaskOk s u := by
  intro u hu
  unfold reconcileRouter at hu
  dsimp only at hu
  split at hu
  · exact note_taskOk u hu
  · split at hu
    · split at hu
      all_goals
        cases mem_singleton.mp hu
        trivial
    · cases mem_singleton.mp hu
      trivial

theorem acked_taskOk {cluster} : ∀ u ∈ acked p cluster, TaskOk s u := by
  intro u hu
  unfold acked at hu
  split at hu
  · cases mem_singleton.mp hu
    trivial
  · cases hu

theorem rewrite_taskOk {state edit following} (hok : ∀ p, ∀ u ∈ following p, TaskOk s u)
    (h : (rewrite state p edit following).2 = next) : ∀ u ∈ next, TaskOk s u := by
  intro u hu
  unfold rewrite at h
  split at h <;> subst h
  · exact hok _ u hu
  · cases hu

theorem go_taskOk (hs' : Bound s') (ht : TaskOk s t) (hguard : underBinding.task s t .go)
    (h : handed.task s t .go = some (s', next)) : ∀ u ∈ next, TaskOk s' u := by
  have hlater := task_later hguard h
  have ht' := ht.keep hlater
  obtain ⟨s', l'⟩ := s'
  have hstep := (observed_task h).1
  intro u hu
  cases t with
  | listNetworks | listClusters | listTenants =>
    cases hstep
    cases mem_singleton.mp hu
    exact ⟨ht'.listed, ht'.saw, ht'.held⟩
  | listHeld =>
    simp only [program, task] at hstep
    split at hstep <;> cases hstep
    · cases mem_singleton.mp hu
      exact ⟨ht', by assumption⟩
    · exact reconcileRouter_taskOk u hu
  | teardown =>
    cases hstep
    exact (teardown_taskOk ht hguard u hu).keep hlater
  | finish => exact finish_taskOk hs' ht' (some.inj hstep) u hu
  | takeBack => exact takeBack_taskOk hs' (some.inj hstep) u hu
  | writeVni =>
    refine rewrite_taskOk (fun _ u hu => ?_) (congrArg snd (some.inj hstep)) u hu
    cases mem_singleton.mp hu
    trivial
  | writeAddress =>
    exact rewrite_taskOk (fun _ => addressed_taskOk) (congrArg snd (some.inj hstep))
      u hu
  | bind =>
    exact rewrite_taskOk (fun _ => handDown_taskOk) (congrArg snd (some.inj hstep)) u hu
  | settleAddress =>
    cases hstep
    exact claimAddress_taskOk u hu
  | send =>
    cases hstep
    cases mem_singleton.mp hu
    trivial
  | awaitAck =>
    cases hstep
    exact acked_taskOk u hu
  | deleteAt =>
    simp only [program, task] at hstep
    split at hstep <;> cases hstep <;> cases hu
  | sendDelete | note | mark =>
    cases hstep
    cases hu

theorem task_taskOk (hs : Bound s) (ht : TaskOk s t) (hguard : underBinding.task s t input)
    (h : handed.task s t input = some (s', next)) : ∀ u ∈ next, TaskOk s' u := by
  cases input with
  | go => exact go_taskOk (task_bound hs hguard h) ht hguard h
  | fail | lost =>
    obtain ⟨s', l'⟩ := s'
    have hstep := (observed_task h).1
    intro u hu
    cases t <;> cases hstep <;> cases hu
  | refused =>
    obtain ⟨s', l'⟩ := s'
    have hstep := (observed_task h).1
    intro u hu
    cases t with
    | awaitAck =>
      cases hstep
      exact note_taskOk u hu
    | _ =>
      cases hstep
      cases hu

end Step

theorem bindingOutline : handed.Outline underBinding Bound TaskOk where
  env hs _ h :=
    ⟨env_bound hs h, env_taskOk (env_bound hs h) h, fun _ ht => ht.keep (env_later h)⟩
  task hs ht hguard h :=
    ⟨task_bound hs hguard h, task_taskOk hs ht hguard h,
      fun _ hu => hu.keep (task_later hguard h)⟩

theorem Wrote.vacant {s s' : State × Holdings} (h : Wrote s.1 t input s'.1) (hs : Bound s)
    (ht : TaskOk s t) {v} (hv : s.1.routers.cell name = some v)
    (hgone : s'.1.routers.cell name = none) : ∀ h ∈ s.2, h.1 ≠ v.val.uid := by
  obtain ⟨s', l'⟩ := s'
  have hunbound : v.val.cluster = none → ∀ h ∈ s.2, h.1 ≠ v.val.uid := by
    intro hnone held hheld huid
    have hat := hs.held name v hv held hheld huid
    rw [hnone] at hat
    cases hat
  have hname : ∀ {k : String}, (s.1.remove k).routers.cell name = none → name = k := by
    intro k hgone
    by_contra hne
    rw [State.remove, cell_remove_ne _ hne, hv] at hgone
    cases hgone
  have hkept : ∀ {k : String} {x : Router}, (s.1.put k x).routers.cell name ≠ none := by
    intro k x hgone
    rw [cell_of_put_none hgone] at hv
    cases hv
  cases h with
  | nothing =>
    rw [hv] at hgone
    cases hgone
  | kept | bound => exact absurd hgone hkept
  | @finished k verdict d hremoved =>
    obtain rfl := hname hgone
    obtain ⟨huid, hconcluded⟩ := ht.1.removed hremoved hv
    cases verdict with
    | neverPlaced =>
      simp only [Verdict.concluded, Bool.and_eq_true, isNone_iff_eq_none] at hconcluded
      exact hunbound hconcluded.2
    | unplaced => exact hunbound (isNone_iff_eq_none.mp hconcluded)
    | absent =>
      have hvacated := ((ht.2 rfl).2 name v hv huid).2
      rwa [← huid] at hvacated
  | @takenBack k d now hremoved =>
    obtain rfl := hname hgone
    have hconcluded := (Judges.removed ht hremoved hv).2
    exact hunbound (isNone_iff_eq_none.mp hconcluded)
  | @deleted k w hstands =>
    obtain rfl := hname hgone
    have hcell := ht.1.eq_of_standsAt hstands
    rw [hv] at hcell
    cases hcell
    exact hunbound ht.2

def empty : World (State × Holdings) Task := ⟨(⟨0, [], ∅, [], [], [], []⟩, []), []⟩

theorem empty_holds : Holds Bound TaskOk empty := by
  refine ⟨⟨⟨?_, ?_, ?_⟩, by simp [empty], ?_⟩, by simp [empty]⟩
  · rintro k v ⟨⟩
  · rintro k v ⟨⟩
  · rintro k k' v v' ⟨⟩
  · rintro name v ⟨⟩

/-- In every run of passes, whatever becomes of the clusters, the networks and the tenants: a router
is sent to a cluster only while no other cluster may hold it, and leaves the store only when no
cluster may. Provided bindings are written, creates are sent and acked, and absence is judged as
`underBinding` says. -/
theorem router_on_one_cluster {ms : List (Move Event Input)} {m : Move Event Input}
    {w w' : World (State × Holdings) Task} (hmeets : handed.RunMeets underBinding empty ms)
    (hrun : handed.run empty ms = some w) (hm : underBinding.Meets w m)
    (hstep : handed.step w m = some w') :
    (∀ index p cluster, m = .task index .go → w.tasks[index]? = some (.send p cluster) →
      ∀ c, (p.router.uid, c) ∈ w.shared.2 → c = cluster) ∧
    ∀ name v, w.shared.1.routers.cell name = some v → w'.shared.1.routers.cell name = none →
      ∀ c, (v.val.uid, c) ∉ w.shared.2 := by
  obtain ⟨hs, htasks⟩ := bindingOutline.run empty_holds hmeets hrun
  constructor
  · rintro index p cluster rfl ht c hc
    obtain ⟨⟨k, v⟩, hv, huid, hcluster⟩ := hm _ ht
    have hat := hs.held k v (mem_list.mp hv) (p.router.uid, c) hc huid.symm
    exact some.inj (hat.symm.trans hcluster)
  · intro name v hv hgone c hc
    rcases handed.step_cases hstep with ⟨event, new, rfl, henv, -⟩ |
      ⟨index, input, t, next, rfl, ht, htask, -⟩ | ⟨index, rfl, hshared, -⟩
    · rw [(env_happened (observed_env henv).1).keeps hgone] at hv
      cases hv
    · have hwrote := task_wrote (observed_task htask).1
      exact hwrote.vacant hs (htasks t (mem_of_getElem? ht)) hv hgone _ hc rfl
    · rw [hshared, hv] at hgone
      cases hgone

def external : ProviderNetwork := ⟨"ext", [⟨10, 20, false, by decide, by decide⟩]⟩

def listed : List (Move Event Input) :=
  [.env (.reconcile "cloud" ["c", "d"] "" "r"), .task 0 .go, .task 0 .go, .task 0 .go, .task 0 .go]

def ackedByC : List (Move Event Input) :=
  flatten
    [[.env (.setNetworks [("ext", external)]), .env (.setClusters [("c", ⟨true, false, ["ext"]⟩)]),
      .env (.setTenants [("lab", some 7)]), .env (.createRouter "r" "ur" "lab" "ext")],
      listed, replicate 8 (.task 0 .go)]

def sentAgain : List (Move Event Input) := flatten [ackedByC, listed, [.task 0 .go]]

def takenDown : List (Move Event Input) :=
  flatten
    [ackedByC, [.env (.status "cloud" "c" (some [])), .env (.deleteRouter "r" 1), .task 0 .go],
      listed, [.task 0 .go]]

def drained : List (Move Event Input) :=
  flatten
    [ackedByC,
      [.env (.setClusters [("c", ⟨true, true, ["ext"]⟩), ("d", ⟨true, false, ["ext"]⟩)])],
      listed, [.task 0 .go, .task 0 .go]]

def unbound : List (Move Event Input) :=
  flatten
    [ackedByC, [.env (.setTenants [("lab", none)])], listed, [.task 0 .go, .task 0 .go],
      [.env (.deleteRouter "r" 1)]]

theorem router_on_one_cluster_kept :
    (∃ w p, handed.run empty sentAgain = some w ∧ w.tasks[0]? = some (.send p "c") ∧
      p.router.uid = "ur" ∧ ("ur", "c") ∈ w.shared.2 ∧
      ∀ c, (p.router.uid, c) ∈ w.shared.2 → c = "c") ∧
    ∃ w w' v, handed.run empty takenDown = some w ∧ handed.step w (.task 0 .go) = some w' ∧
      w.shared.1.routers.cell "r" = some v ∧ w'.shared.1.routers.cell "r" = none ∧
      ∀ c, (v.val.uid, c) ∉ w.shared.2 := by
  constructor
  · have hmeets : handed.RunMeets underBinding empty sentAgain := by decide
    refine ⟨_, _, rfl, rfl, rfl, by decide, ?_⟩
    exact (router_on_one_cluster hmeets rfl (m := .task 0 .go) (by decide) rfl).1 0 _ "c" rfl rfl
  · have hmeets : handed.RunMeets underBinding empty takenDown := by decide
    refine ⟨_, _, _, rfl, rfl, rfl, rfl, ?_⟩
    exact (router_on_one_cluster hmeets rfl (m := .task 0 .go) (by decide) rfl).2 "r" _ rfl rfl

theorem router_on_two_clusters :
    (∃ w p, handed.run empty drained = some w ∧ w.tasks[0]? = some (.send p "d") ∧
      p.router.uid = "ur" ∧ ("ur", "c") ∈ w.shared.2) ∧
    ∃ w w' v, handed.run empty unbound = some w ∧ handed.step w (.task 1 .go) = some w' ∧
      w.shared.1.routers.cell "r" = some v ∧ v.val.uid = "ur" ∧
      w'.shared.1.routers.cell "r" = none ∧ ("ur", "c") ∈ w.shared.2 := by
  constructor
  · exact ⟨_, _, rfl, rfl, rfl, by decide⟩
  · exact ⟨_, _, _, rfl, rfl, rfl, rfl, rfl, by decide⟩

end MeisterStack.CloudController.Routers
