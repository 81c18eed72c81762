import MeisterStack.Foundation.Debt
import MeisterStack.Foundation.History
import MeisterStack.CloudController.FloatingChanges

/-!
# Reservations within the quota

A reservation whose call has not returned yet is pending: it may still be taken back. The others
number at most the tenant's quota, since a call keeps its reservation only after it counted all of
them, its own included. A call that fails after its create leaves its reservation behind.
-/

namespace MeisterStack.CloudController.FloatingIps

open Outcome

open Foundation ControllerApi Common List Option Stage Bool Program Registry Ipv4Ranges Table
open ControllerApi.Floating

theorem heldBy_eq_count (s : State) (tenant pool) :
    heldBy s.reservations tenant pool =
      s.registry.count fun ip => ip.tenant = tenant && ip.pool = pool :=
  s.registry.length_filter_list _

structure Ledger where
  pending : List String
  errors : List (List String)

def Ledger.after (l : Ledger) (stage : Stage) (o : Outcome) : Ledger :=
  let rest := l.pending.filter fun uid => some uid ≠ stage.owns
  match o with
  | .goesOn _ stage' => ⟨stage'.owns.toList ++ rest, l.errors⟩
  | .returned _ => ⟨rest, l.errors⟩
  | .failed c _ => ⟨rest, c.made :: l.errors⟩

def ledger : Observer State Task Event Input Ledger where
  env _ _ l := l
  task s t input l :=
    match t with
    | .allocating c stage => (allocate s c stage input).elim l fun r => l.after stage r.2
    | _ => l

def recorded : Program (State × Ledger) Task Event Input := program.observed ledger

def SameRoom (a b : FloatingPoolSpec) : Prop := a = { b with default := a.default }

instance (a b) : Decidable (SameRoom a b) :=
  inferInstanceAs (Decidable (a = _))

theorem SameRoom.cidrs {a b} (h : SameRoom a b) : a.cidrs = b.cidrs := by
  rw [h]

theorem SameRoom.quotaFor {a b} (h : SameRoom a b) (tenant) :
    a.quotaFor tenant = b.quotaFor tenant := by
  rw [h]
  rfl

section Room

variable (pool : String) (spec : FloatingPoolSpec)

def answered : Guard (State × Ledger) Task Event Input where
  env _ event :=
    match event with
    | .updatePool name body _ => name = pool → SameRoom body spec
    | _ => True
  task s t input :=
    match t with
    | .allocating _ stage => Answered s.1 stage input
    | _ => True

instance (s event) : Decidable ((answered pool spec).env s event) := by
  cases event <;> dsimp only [answered] <;> infer_instance

instance (s t input) : Decidable ((answered pool spec).task s t input) := by
  cases t <;> dsimp only [answered] <;> infer_instance

def settled (l : Ledger) (tenant : String) (ip : FloatingIp) : Bool :=
  (ip.tenant = tenant && ip.pool = pool) && !l.pending.contains ip.uid

structure Sound (s : State × Ledger) : Prop where
  ok : Ok s.1
  room : ∀ v, s.1.pools.cell pool = some v → SameRoom v.val spec
  handedOut : ∀ address v, s.1.ips.cell address = some v → v.val.pool = pool →
    isAllocatable spec.cidrs address
  quota : ∀ tenant, s.1.registry.count (settled pool s.2 tenant) ≤ spec.quotaFor tenant
  errors : ∀ made ∈ s.2.errors, ∀ uid ∈ made, uid ∈ s.1.drawn ∧ ¬Stored s.1 uid

def StageOk (s : State) (c : Call) : Stage → Prop
  | .list => True
  | .create address => isAllocatable c.spec.cidrs address
  | .recheck created => Is s created.val ∧ created.val.tenant = c.tenant ∧ created.val.pool = c.pool
  | .takeBack d => Is s d.checked.val
  | .isGone created => Is s created

structure CallOk (s : State) (c : Call) (stage : Stage) : Prop where
  room : c.pool = pool → SameRoom c.spec spec
  made : ∀ uid ∈ c.made, uid ∈ s.drawn
  stored : ∀ uid ∈ c.made, Stored s uid → stage.owns = some uid
  stage : StageOk s c stage

def TaskOk (s : State × Ledger) : Task → Prop
  | .allocating c stage => CallOk pool spec s.1 c stage
  | .checkPool u | .listPool u | .writePool u | .settlePool u _ | .putBack u _ =>
    u.name = pool → SameRoom u.body spec ∧ SameRoom u.current.val spec
  | .listHeld _ _ | .deletePool _ _ => True

variable {pool spec} {s' : State} {c : Call} {stage : Stage}

theorem StageOk.keep {s} (h : StageOk s c stage) (he : Effect s s') : StageOk s' c stage := by
  cases stage with
  | list => trivial
  | create => exact h
  | recheck => exact ⟨he.change.is h.1, h.2⟩
  | takeBack | isGone => exact he.change.is h

variable {s : State × Ledger} {t : Task}

theorem TaskOk.keep {s'} (h : TaskOk pool spec s t) (he : Effect s.1 s'.1) :
    TaskOk pool spec s' t := by
  cases t with
  | allocating c stage =>
    refine ⟨h.room, fun uid huid => he.change.drawn_subset (h.made uid huid), ?_, h.stage.keep he⟩
    intro uid huid hstored
    exact h.stored uid huid (he.change.stored (h.made uid huid) hstored)
  | _ => exact h

variable {l : Ledger}

theorem Sound.quota_after (hs : Sound pool spec s) (he : Effect s.1 s')
    (hpending : ∀ address v, s'.ips.cell address = some v → v.val.uid ∈ s.2.pending →
      v.val.uid ∈ l.pending)
    (hnew : ∀ address v, s'.ips.cell address = some v → v.val.uid ∉ s.1.drawn →
      v.val.uid ∈ l.pending) (tenant) :
    s'.registry.count (settled pool l tenant) ≤ spec.quotaFor tenant := by
  refine le_trans (he.change.count_le ?_ ?_) (hs.quota tenant)
  · rintro address v v0 hv hv0 ⟨pointing, heq⟩ hq
    simp only [settled, and_eq_true, not_eq_true', contains_eq_mem,
      decide_eq_false_iff_not] at hq ⊢
    refine ⟨by simpa [heq] using hq.1, fun hin => hq.2 (hpending address v hv ?_)⟩
    rw [heq]
    exact hin
  · intro address v hv hfresh
    simp [settled, hnew address v hv hfresh]

theorem Sound.after (hs : Sound pool spec s)
    (he : Effect s.1 s') (hroom : ∀ v, s'.pools.cell pool = some v → SameRoom v.val spec)
    (hnew : ∀ address v, s'.ips.cell address = some v → v.val.uid ∉ s.1.drawn →
      v.val.pool = pool → isAllocatable spec.cidrs address)
    (hquota : ∀ tenant, s'.registry.count (settled pool l tenant) ≤ spec.quotaFor tenant)
    (herrors : ∀ made ∈ l.errors, made ∈ s.2.errors ∨
      ∀ uid ∈ made, uid ∈ s'.drawn ∧ ¬Stored s' uid) : Sound pool spec (s', l) := by
  constructor
  · exact he.ok hs.ok
  · exact hroom
  · intro address v hv hpool
    rcases he.change.cell hv with ⟨v0, hv0, pointing, heq⟩ | ⟨-, hfresh, -⟩
    · apply hs.handedOut address v0 hv0
      rw [heq] at hpool
      exact hpool
    · exact hnew address v hv hfresh hpool
  · exact hquota
  · intro made hmade
    rcases herrors made hmade with hmade | hmade
    · intro uid huid
      obtain ⟨hdrawn, hgone⟩ := hs.errors made hmade uid huid
      exact ⟨he.change.drawn_subset hdrawn, fun hstored => hgone (he.change.stored hdrawn hstored)⟩
    · exact hmade

variable {uid : String}

theorem mem_after_pending {o} (huid : uid ∈ l.pending) (hne : some uid ≠ stage.owns) :
    uid ∈ (l.after stage o).pending := by
  have hrest : uid ∈ l.pending.filter fun uid => some uid ≠ stage.owns := by simp [huid, hne]
  cases o with
  | goesOn => exact mem_append_right _ hrest
  | returned | failed => exact hrest

theorem not_stored_of_gone {s ip} (h : Is s ip) (hgone : s.gone ip) : ¬Stored s ip.uid := by
  apply h.not_stored
  intro v hv
  have hv : s.ips.cell ip.address = some v := hv
  simpa [State.gone, hv] using hgone

theorem CallOk.next {s c' stage'} (he : Effect s s') (h : CallOk pool spec s c stage)
    (hpool : c'.pool = c.pool) (hspec : c'.spec = c.spec) (hmade : c'.made = c.made)
    (hstage : StageOk s' c' stage')
    (howns : ∀ uid, stage.owns = some uid → Stored s' uid → stage'.owns = some uid) :
    CallOk pool spec s' c' stage' := by
  constructor
  · rw [hpool, hspec]
    exact h.room
  · rw [hmade]
    exact fun uid huid => he.change.drawn_subset (h.made uid huid)
  · rw [hmade]
    intro uid huid hstored
    exact howns uid (h.stored uid huid (he.change.stored (h.made uid huid) hstored)) hstored
  · exact hstage

theorem Sound.goesOn {stage'} (hs : Sound pool spec s) (he : Effect s.1 s')
    (hpools : s'.pools = s.1.pools) (hdrawn : s'.drawn = s.1.drawn)
    (howns : ∀ uid, stage.owns = some uid → Stored s' uid → stage'.owns = some uid) :
    Sound pool spec (s', s.2.after stage (.goesOn c stage')) := by
  have hold : ∀ address v, s'.ips.cell address = some v → v.val.uid ∈ s.1.drawn := by
    intro address v hv
    rw [← hdrawn]
    exact (he.ok hs.ok).drawn address v hv
  apply hs.after he
  · rw [hpools]
    exact hs.room
  · exact fun address v hv hfresh => absurd (hold address v hv) hfresh
  · apply hs.quota_after he
    · intro address v hv huid
      by_cases howned : some v.val.uid = stage.owns
      · apply mem_append_left
        rw [howns _ howned.symm ⟨address, v, hv, rfl⟩]
        exact mem_singleton.mpr rfl
      · exact mem_after_pending huid howned
    · exact fun address v hv hfresh => absurd (hold address v hv) hfresh
  · exact fun made hmade => .inl hmade

theorem Sound.created {address} (hs : Sound pool spec s)
    (hc : CallOk pool spec s.1 c (.create address)) (habsent : s.1.ips.cell address = none)
    (hfresh : uid ∉ s.1.drawn) {c'} (howns : stage.owns = some uid) :
    Sound pool spec (s.1.reserve address (c.declare uid address),
      s.2.after (.create address) (.goesOn c' stage)) := by
  have he : Effect s.1 (s.1.reserve address (c.declare uid address)) :=
    .reserved habsent hfresh rfl
  apply hs.after he
  · exact hs.room
  · intro a v hv hnew hpool
    rcases cell_put_cases hv with ⟨rfl, rfl⟩ | ⟨-, hv⟩
    · rw [← (hc.room hpool).cidrs]
      exact hc.stage
    · exact absurd (hs.ok.drawn a v hv) hnew
  · apply hs.quota_after he
    · intro a v hv huid
      exact mem_after_pending huid (by simp [owns])
    · intro a v hv hnew
      rcases cell_put_cases hv with ⟨rfl, rfl⟩ | ⟨-, hv⟩
      · apply mem_append_left
        rw [howns]
        exact mem_singleton.mpr rfl
      · exact absurd (hs.ok.drawn a v hv) hnew
  · exact fun made hmade => .inl hmade

theorem CallOk.created {s address} (hs : Ok s) (hc : CallOk pool spec s c (.create address))
    (habsent : s.ips.cell address = none) (hfresh : uid ∉ s.drawn) :
    CallOk pool spec (s.reserve address (c.declare uid address))
      { c with made := uid :: c.made } (.recheck ⟨s.next, c.declare uid address⟩) := by
  have he : Effect s (s.reserve address (c.declare uid address)) := .reserved habsent hfresh rfl
  constructor
  · exact hc.room
  · intro u hu
    rcases mem_cons.mp hu with rfl | hu
    · exact mem_cons_self
    · exact mem_cons_of_mem _ (hc.made u hu)
  · intro u hu hstored
    rcases mem_cons.mp hu with rfl | hu
    · rfl
    · have := hc.stored u hu (he.change.stored (hc.made u hu) hstored)
      cases this
  · exact ⟨is_made (x := c.declare uid address) hs.drawn hfresh, rfl, rfl⟩

variable (hs : Sound pool spec s)

include hs

theorem Sound.kept {created} (hc : CallOk pool spec s.1 c (.recheck created))
    (hheld : heldBy s.1.reservations c.tenant c.pool ≤ c.quota) {ip} :
    Sound pool spec (s.1, s.2.after (.recheck created) (.returned ip)) := by
  apply hs.after .same hs.room
  · exact fun address v hv hfresh => absurd (hs.ok.drawn address v hv) hfresh
  · intro tenant
    by_cases hmine : c.pool = pool ∧ c.tenant = tenant
    · obtain ⟨hpool, rfl⟩ := hmine
      rw [← (hc.room hpool).quotaFor, ← hpool]
      refine le_trans (count_le_count ?_) ((heldBy_eq_count _ _ _).symm.le.trans hheld)
      intro address v hv hq
      simp only [settled, and_eq_true] at hq ⊢
      exact hq.1
    · refine le_trans (count_le_count ?_) (hs.quota tenant)
      intro address v hv hq
      simp only [settled, and_eq_true, not_eq_true', contains_eq_mem,
        decide_eq_false_iff_not, decide_eq_true_eq] at hq ⊢
      refine ⟨hq.1, fun hin => hq.2 (mem_after_pending hin fun howned => ?_)⟩
      -- what is let go of is the call's own, so it does not count for anybody else
      obtain ⟨-, pointing, heq⟩ := hc.stage.1.2 address v hv (some.inj howned)
      rw [heq] at hq
      exact hmine ⟨hc.stage.2.2.symm.trans hq.1.2, hc.stage.2.1.symm.trans hq.1.1⟩
  · exact fun made hmade => .inl hmade

variable {input : Input}

theorem Sound.allocating {o} (hc : CallOk pool spec s.1 c stage) (hans : Answered s.1 stage input)
    (h : Went s.1 c stage input s' o) :
    Sound pool spec (s', s.2.after stage o) ∧
      ∀ t ∈ o.tasks, TaskOk pool spec (s', s.2.after stage o) t := by
  have hdrawn := hs.ok.drawn
  cases h with
  | failed hnone =>
    have hnone := hnone hans
    refine ⟨hs.after .same hs.room (fun a v hv hfresh => absurd (hdrawn a v hv) hfresh) ?_ ?_,
      by simp [tasks]⟩
    · apply hs.quota_after .same
      · exact fun a v hv huid => mem_after_pending huid (by simp [hnone])
      · exact fun a v hv hfresh => absurd (hdrawn a v hv) hfresh
    · intro made hmade
      rcases mem_cons.mp hmade with rfl | hmade
      · refine .inr fun uid huid => ⟨hc.made uid huid, fun hstored => ?_⟩
        rw [hc.stored uid huid hstored] at hnone
        cases hnone
      · exact .inl hmade
  | preview =>
    refine ⟨hs.after .same hs.room (fun a v hv hfresh => absurd (hdrawn a v hv) hfresh) ?_
      fun made hmade => .inl hmade, by simp [tasks]⟩
    apply hs.quota_after .same
    · exact fun a v hv huid => mem_after_pending huid (by simp [owns])
    · exact fun a v hv hfresh => absurd (hdrawn a v hv) hfresh
  | picked halloc =>
    refine ⟨hs.goesOn .same rfl rfl (by simp [owns]), ?_⟩
    rintro t ht
    rw [mem_singleton.mp ht]
    exact hc.next .same rfl rfl rfl halloc (by simp [owns])
  | raced =>
    refine ⟨hs.goesOn .same rfl rfl (by simp [owns]), ?_⟩
    rintro t ht
    rw [mem_singleton.mp ht]
    exact hc.next .same rfl rfl rfl trivial (by simp [owns])
  | created habsent hfresh =>
    refine ⟨hs.created hc habsent hfresh rfl, ?_⟩
    rintro t ht
    rw [mem_singleton.mp ht]
    exact hc.created hs.ok habsent hfresh
  | unanswered habsent => simp [Answered, habsent] at hans
  | kept hheld => exact ⟨hs.kept hc hheld, by simp [tasks]⟩
  | excess =>
    refine ⟨hs.goesOn .same rfl rfl fun uid howns _ => howns, ?_⟩
    rintro t ht
    rw [mem_singleton.mp ht]
    exact hc.next .same rfl rfl rfl hc.stage.1 fun uid howns _ => howns
  | @retried d d' _ hchecked =>
    have howns : (takeBack d').owns = (takeBack d).owns := by
      simp [owns, hchecked]
    refine ⟨hs.goesOn .same rfl rfl fun uid huid _ => howns.trans huid, ?_⟩
    rintro t ht
    rw [mem_singleton.mp ht]
    refine hc.next .same rfl rfl rfl ?_ fun uid huid _ => howns.trans huid
    change Is s.1 d'.checked.val
    rw [hchecked]
    exact hc.stage
  | @removed d =>
    have hgone : ∀ uid, (takeBack d).owns = some uid →
        Stored (s.1.removeIp d.checked.val.address) uid → list.owns = some uid := by
      rintro uid ⟨⟩ hstored
      exact absurd hstored (Is.not_stored_remove hc.stage)
    refine ⟨hs.goesOn .released rfl rfl hgone, ?_⟩
    rintro t ht
    rw [mem_singleton.mp ht]
    exact hc.next .released rfl rfl rfl trivial hgone
  | asked =>
    refine ⟨hs.goesOn .same rfl rfl fun uid howns _ => howns, ?_⟩
    rintro t ht
    rw [mem_singleton.mp ht]
    exact hc.next .same rfl rfl rfl hc.stage fun uid howns _ => howns
  | @gone created _ hgone =>
    have hgone : ∀ uid, (isGone created).owns = some uid → Stored s.1 uid →
        list.owns = some uid := by
      rintro uid ⟨⟩ hstored
      exact absurd hstored (not_stored_of_gone hc.stage hgone)
    refine ⟨hs.goesOn .same rfl rfl hgone, ?_⟩
    rintro t ht
    rw [mem_singleton.mp ht]
    exact hc.next .same rfl rfl rfl trivial hgone

theorem Sound.pools (he : Effect s.1 s') (hips : s'.ips = s.1.ips)
    (hroom : ∀ v, s'.pools.cell pool = some v → SameRoom v.val spec) :
    Sound pool spec (s', s.2) := by
  have hold : ∀ address v, s'.ips.cell address = some v → v.val.uid ∈ s.1.drawn := by
    rw [hips]
    exact hs.ok.drawn
  apply hs.after he hroom
  · exact fun address v hv hfresh => absurd (hold address v hv) hfresh
  · exact hs.quota_after he (fun _ _ _ huid => huid)
      fun address v hv hfresh => absurd (hold address v hv) hfresh
  · exact fun made hmade => .inl hmade

theorem env_sound {s' event new} (hguard : (answered pool spec).env s event)
    (h : recorded.env s event = some (s', new)) :
    Sound pool spec s' ∧ ∀ t ∈ new, TaskOk pool spec s' t := by
  obtain ⟨hstep, hledger⟩ := observed_env h
  obtain ⟨state, l⟩ := s'
  change l = s.2 at hledger
  subst hledger
  have he : Effect s.1 state := env_effect hstep
  cases event with
  | createIp =>
    simp only [program, env] at hstep
    split at hstep <;> cases hstep
    rename_i name read hpick
    refine ⟨hs, fun t ht => ?_⟩
    rw [mem_singleton.mp ht]
    refine ⟨?_, by simp, by simp, trivial⟩
    rintro rfl
    obtain ⟨⟨name', v⟩, hmem, heq⟩ := mem_map.mp (pickPool_mem hpick)
    cases heq
    exact hs.room v (mem_list.mp hmem)
  | updateIp | deleteIp =>
    obtain ⟨v, hv, ⟨⟩⟩ := bind_eq_some_iff.mp hstep
    have hold := (he.ok hs.ok).drawn
    refine ⟨hs.after he hs.room ?_ (hs.quota_after he (fun _ _ _ huid => huid) ?_)
      fun made hmade => .inl hmade, by simp⟩
    all_goals exact fun a w hw hfresh => absurd (hold a w hw) hfresh
  | updatePool =>
    obtain ⟨v, hv, heq⟩ := bind_eq_some_iff.mp hstep
    split at heq <;> cases heq
    refine ⟨hs, fun t ht => ?_⟩
    rw [mem_singleton.mp ht]
    rintro rfl
    exact ⟨hguard rfl, hs.room v hv⟩
  | deletePool =>
    obtain ⟨v, hv, ⟨⟩⟩ := bind_eq_some_iff.mp hstep
    refine ⟨hs, fun t ht => ?_⟩
    rw [mem_singleton.mp ht]
    trivial

omit hs

theorem PoolWent.taskOk {s u next} (h : PoolWent s t input s' next) (ht : TaskOk pool spec (s, l) t)
    (hu : u ∈ next) : TaskOk pool spec (s', l) u := by
  cases h with
  | ended | restored | deleted => cases hu
  | checked | lost | listed =>
    rw [mem_singleton.mp hu]
    exact ht
  | written _ hstands hnext =>
    rw [hnext u hu]
    exact ht
  | unheld =>
    rw [mem_singleton.mp hu]
    trivial

theorem task_sound {s' next} (hs : Sound pool spec s) (ht : TaskOk pool spec s t)
    (hguard : (answered pool spec).task s t input) (h : recorded.task s t input = some (s', next)) :
    Sound pool spec s' ∧ ∀ u ∈ next, TaskOk pool spec s' u := by
  obtain ⟨hstep, hledger⟩ := observed_task h
  obtain ⟨state, l⟩ := s'
  dsimp only at hstep hledger
  by_cases hcall : ∃ c stage, t = .allocating c stage
  · obtain ⟨c, stage, rfl⟩ := hcall
    obtain ⟨⟨state', o⟩, halloc, heq⟩ := map_eq_some_iff.mp hstep
    cases heq
    simp only [ledger, halloc, elim_some] at hledger
    subst hledger
    exact hs.allocating ht hguard (allocate_went halloc)
  · have hnot : ∀ c stage, t ≠ .allocating c stage := fun c stage heq => hcall ⟨c, stage, heq⟩
    have hsame : l = s.2 := by
      rw [hledger]
      cases t with
      | allocating c stage => exact absurd rfl (hnot c stage)
      | _ => rfl
    subst hsame
    have hwent : PoolWent s.1 t input state next := pool_went hnot hstep
    refine ⟨hs.pools hwent.effect hwent.ips fun v hv => ?_, fun u hu => hwent.taskOk ht hu⟩
    rcases hwent.pools hv with hv | ⟨u, rfl, hname, heq⟩ | ⟨u, rev, rfl, hname, heq⟩
    · exact hs.room v hv
    · rw [heq]
      exact (ht hname).1
    · rw [heq]
      exact (ht hname).2

def Task.owns : Task → Option String
  | .allocating _ stage => stage.owns
  | _ => none

theorem pendingOutline : recorded.DebtOutline (answered pool spec) (Sound pool spec)
    (TaskOk pool spec) (fun s uid => uid ∈ s.2.pending) (fun t uid => t.owns = some uid) where
  outline := {
    env := fun {s event s' new} hs hguard h => by
      obtain ⟨hsound, hnew⟩ := env_sound hs hguard h
      have he : Effect s.1 s'.1 := env_effect (observed_env h).1
      exact ⟨hsound, hnew, fun t ht => ht.keep he⟩
    task := fun {s t input s' next} hs ht hguard h => by
      obtain ⟨hsound, hnext⟩ := task_sound hs ht hguard h
      have he : Effect s.1 s'.1 := task_effect (observed_task h).1
      exact ⟨hsound, hnext, fun u hu => hu.keep he⟩ }
  env := fun {s event s' new} hs hguard h uid huid => by
    have hledger : s'.2 = s.2 := (observed_env h).2
    rw [hledger] at huid
    exact ⟨uid, huid, by simp, fun u _ hu => hu⟩
  task := fun {s t input s' next} hs ht hguard h uid huid => by
    obtain ⟨hstep, hledger⟩ := observed_task h
    rw [hledger] at huid
    cases t with
    | allocating c stage =>
      obtain ⟨⟨state', o⟩, halloc, heq⟩ := map_eq_some_iff.mp hstep
      simp only [ledger, halloc, elim_some] at huid
      have hcarried : uid ∈ s.2.pending.filter (fun u => some u ≠ stage.owns) →
          CarriedOver (TaskOk pool spec) (fun s uid => uid ∈ s.2.pending)
            (fun t uid => t.owns = some uid) (· = .allocating c stage) s uid := by
        intro hrest
        simp only [mem_filter, decide_eq_true_eq] at hrest
        refine ⟨uid, hrest.1, ?_, fun u _ hu => hu⟩
        rintro u rfl howns
        exact hrest.2 howns.symm
      cases o with
      | goesOn c' stage' =>
        rcases mem_append.mp huid with howned | hrest
        · left
          have hnext : next = [.allocating c' stage'] := (congrArg Prod.snd heq).symm
          rw [hnext]
          exact ⟨_, mem_singleton.mpr rfl, mem_toList.mp howned⟩
        · exact .inr (hcarried hrest)
      | returned | failed => exact .inr (hcarried huid)
    | checkPool u | listPool u | writePool u | settlePool u rev | putBack u rev | listHeld name rev
    | deletePool =>
      refine .inr ⟨uid, huid, ?_, fun u _ hu => hu⟩
      rintro u rfl howns
      cases howns

end Room

structure Start (pool : String) (spec : FloatingPoolSpec) (s : State) : Prop where
  ok : Ok s
  room : ∀ v, s.pools.cell pool = some v → SameRoom v.val spec
  handedOut : ∀ address v, s.ips.cell address = some v → v.val.pool = pool →
    isAllocatable spec.cidrs address
  quota : ∀ tenant, heldBy s.reservations tenant pool ≤ spec.quotaFor tenant

theorem Start.sound {pool spec s} (h : Start pool spec s) : Sound pool spec (s, ⟨[], []⟩) := by
  refine ⟨h.ok, h.room, h.handedOut, fun tenant => ?_, by simp⟩
  refine le_trans (count_le_count ?_) ((heldBy_eq_count _ _ _).ge.trans (h.quota tenant))
  intro address v _ hq
  simp only [settled, and_eq_true] at hq ⊢
  exact hq.1

/-- Any number of calls of `allocate` run side by side, beside edits and releases of reservations
and updates of pools. Once no call is under way, no two reservations hold one address, every
reservation of the pool is one it hands out, no tenant holds more than its quota, and nothing is
left of a create whose call returned an error: provided the room of the pool does not change, every
take-back succeeds, the count after each create is answered and no create goes through
unanswered. -/
theorem allocation_within_quota {pool : String} {spec : FloatingPoolSpec} {s : State}
    {ms : List (Move Event Input)} {w : World (State × Ledger) Task} (hs : Start pool spec s)
    (hmeets : recorded.RunMeets (answered pool spec) ⟨(s, ⟨[], []⟩), []⟩ ms)
    (hcrash : ∀ index, .crash index ∉ ms)
    (hrun : recorded.run ⟨(s, ⟨[], []⟩), []⟩ ms = some w) (hdone : w.tasks = []) :
    (∀ a b v v', w.shared.1.ips.cell a = some v → w.shared.1.ips.cell b = some v' →
      v.val.address = v'.val.address → a = b) ∧
    (∀ a v, w.shared.1.ips.cell a = some v → v.val.pool = pool →
      isAllocatable spec.cidrs v.val.address) ∧
    (∀ tenant, heldBy w.shared.1.reservations tenant pool ≤ spec.quotaFor tenant) ∧
    ∀ made ∈ w.shared.2.errors, ∀ uid ∈ made, ¬Stored w.shared.1 uid := by
  have hw := pendingOutline.outline.run ⟨hs.sound, by simp⟩ hmeets hrun
  have hpending : w.shared.2.pending = [] := by
    apply eq_nil_iff_forall_not_mem.mpr
    exact pendingOutline.settled hs.sound (by simp) hmeets hcrash hrun hdone
  have hnamed := hw.1.ok.named
  refine ⟨?_, ?_, ?_, fun made hmade uid huid => (hw.1.errors made hmade uid huid).2⟩
  · intro a b v v' hv hv' haddress
    rw [← hnamed a v hv, ← hnamed b v' hv', haddress]
  · intro a v hv hpool
    rw [hnamed a v hv]
    exact hw.1.handedOut a v hv hpool
  · intro tenant
    rw [heldBy_eq_count]
    refine le_trans (count_le_count ?_) (hw.1.quota tenant)
    intro address v _ hq
    simpa [settled, hpending] using hq


def addresses (start last : Nat) (h : start ≤ last ∧ last < 2 ^ 32) : Ipv4Range :=
  ⟨start, last, false, h.1, h.2⟩

def oneEach : FloatingPoolSpec := ⟨[addresses 4 5 (by decide)], false, true, [("t", 1)]⟩

def onePool : State := ⟨1, [], (∅ : Table String FloatingPoolSpec).put "p" 0 oneEach, ∅⟩

theorem onePool_start : Start "p" oneEach onePool where
  ok := {
    belowPools := by
      intro name v hv
      by_cases hname : name = "p"
      · subst hname
        cases hv
        exact Nat.zero_lt_one
      · cases (cell_put_ne _ hname _ _).symm.trans hv
    named := by rintro address v ⟨⟩
    drawn := by rintro address v ⟨⟩ }
  room := by
    rintro v ⟨⟩
    rfl
  handedOut := by rintro address v ⟨⟩
  quota := fun tenant => Nat.zero_le _

def nowhere : Pointing := ⟨none, "", ""⟩

def bothCreate : List (Move Event Input) :=
  [.env (.createIp none "t" (some 4) nowhere false),
    .env (.createIp none "t" (some 5) nowhere false), .task 0 (.go ""), .task 1 (.go ""),
    .task 0 (.go "a"), .task 1 (.go "b")]

def firstYields : List (Move Event Input) :=
  bothCreate ++ [.task 0 (.go ""), .task 0 (.go ""), .task 1 (.go ""), .task 0 (.go "")]

theorem allocation_within_quota_raced : ∃ w,
    recorded.run ⟨(onePool, ⟨[], []⟩), []⟩ firstYields = some w ∧ w.tasks = [] ∧
      Stored w.shared.1 "b" ∧ w.shared.2.errors = [["a"]] ∧ ¬Stored w.shared.1 "a" ∧
      heldBy w.shared.1.reservations "t" "p" ≤ 1 := by
  have hmeets : recorded.RunMeets (answered "p" oneEach) ⟨(onePool, ⟨[], []⟩), []⟩ firstYields := by
    decide
  have hcrash : ∀ index, Move.crash index ∉ firstYields := by simp [firstYields, bothCreate]
  refine ⟨_, rfl, rfl, ⟨5, _, rfl, rfl⟩, rfl, ?_, ?_⟩
  · exact (allocation_within_quota onePool_start hmeets hcrash rfl rfl).2.2.2 ["a"]
      (mem_singleton.mpr rfl) "a" (mem_singleton.mpr rfl)
  · exact (allocation_within_quota onePool_start hmeets hcrash rfl rfl).2.2.1 "t"

def bothFail : List (Move Event Input) := bothCreate ++ [.task 0 .fail, .task 0 .fail]

def createdUnanswered : List (Move Event Input) :=
  [.env (.createIp none "t" (some 4) nowhere false), .task 0 (.go ""), .task 0 (.lost "a")]

/-- What two calls had created that returned an error is still reserved, and is one more than the
quota; no take-back was attempted. The same after a create whose answer was lost. -/
theorem failed_calls_leave_reservations :
    (∃ w, recorded.run ⟨(onePool, ⟨[], []⟩), []⟩ bothFail = some w ∧ w.tasks = [] ∧
      w.shared.2.errors = [["b"], ["a"]] ∧ Stored w.shared.1 "a" ∧ Stored w.shared.1 "b" ∧
      heldBy w.shared.1.reservations "t" "p" = 2 ∧ oneEach.quotaFor "t" = 1) ∧
    ∃ w, recorded.run ⟨(onePool, ⟨[], []⟩), []⟩ createdUnanswered = some w ∧ w.tasks = [] ∧
      w.shared.2.errors = [["a"]] ∧ Stored w.shared.1 "a" :=
  ⟨⟨_, rfl, rfl, rfl, ⟨4, _, rfl, rfl⟩, ⟨5, _, rfl, rfl⟩, rfl, rfl⟩,
    ⟨_, rfl, rfl, rfl, ⟨4, _, rfl, rfl⟩⟩⟩

end MeisterStack.CloudController.FloatingIps
