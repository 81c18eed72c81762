import MeisterStack.CloudController.FloatingQuota
import MeisterStack.CloudController.DefaultPool

/-!
# References to pools

The side that uses a pool reads it and then creates its object; the side that narrows or deletes the
pool lists its users and then writes. No reference dangles as long as what was read still holds at
the write.
-/

namespace MeisterStack.CloudController.FloatingIps

open Foundation ControllerApi Common
open ControllerApi.Floating

variable (s : State)

def References : Prop :=
  ∀ address v, s.ips.cell address = some v → ∃ pool, s.pools.cell v.val.pool = some pool ∧
    Ipv4Ranges.contains pool.val.cidrs v.val.address

def State.OnlyListed (pool : String) (listed : List Nat) : Prop :=
  ∀ ip ∈ ofPool s pool, ip.address ∈ listed

instance (s : State) (pool listed) : Decidable (s.OnlyListed pool listed) :=
  inferInstanceAs (Decidable (∀ ip ∈ ofPool s pool, ip.address ∈ listed))

def State.HasRanges (pool : String) (cidrs : List Ipv4Range) : Prop :=
  (s.pools.cell pool).any (fun v => v.val.cidrs = cidrs) = true

instance (s : State) (pool cidrs) : Decidable (s.HasRanges pool cidrs) :=
  inferInstanceAs (Decidable (_ = true))

def readsHold : Guard State Task Event Input where
  env _ _ := True
  task s t input :=
    match t with
    | .allocating c (.create _) => input ≠ .fail → s.HasRanges c.pool c.spec.cidrs
    | .writePool u | .putBack u _ => input ≠ .fail → s.OnlyListed u.name u.listed
    | .deletePool name _ => input ≠ .fail → s.OnlyListed name []
    | _ => True

instance (s event) : Decidable (readsHold.env s event) := .isTrue trivial

instance (s t input) : Decidable (readsHold.task s t input) := by
  induction t using Task.casesOn with
  | allocating c stage =>
    induction stage using Stage.casesOn <;> dsimp only [readsHold] <;> infer_instance
  | _ =>
    dsimp only [readsHold]
    infer_instance

structure Referring (s : State) : Prop where
  ok : Ok s
  references : References s

def PoolUpdate.Pinned (u : PoolUpdate) : Prop :=
  (s.pools.cell u.name).Pinned s.next u.resourceVersion u.current

def Inside (listed : List Nat) (cidrs : List Ipv4Range) : Prop :=
  ∀ address ∈ listed, Ipv4Ranges.contains cidrs address

def ReadOk : Task → Prop
  | .allocating c (.create address) => Ipv4Ranges.contains c.spec.cidrs address
  | .allocating _ _ => True
  | .checkPool u | .listPool u => u.Pinned s
  | .writePool u => u.Pinned s ∧ Inside u.listed u.body.cidrs ∧
      -- a pool that did not change since it was read contained what was listed
      ((s.pools.cell u.name).standsAt u.resourceVersion →
        Inside u.listed u.current.val.cidrs)
  | .settlePool u _ | .putBack u _ => Inside u.listed u.current.val.cidrs
  | .listHeld _ _ | .deletePool _ _ => True

variable {s s' : State}

theorem Effect.next_le (h : Effect s s') : s.next ≤ s'.next := by
  cases h with
  | same => exact le_rfl
  | _ => exact Nat.le_succ _

variable {name : String}

theorem Effect.stood (h : Effect s s') {v} (hv : s'.pools.cell name = some v)
    (hrev : v.rev < s.next) : s.pools.cell name = some v := by
  cases h with
  | same | reserved | pointed | released => exact hv
  | putPool => exact (Table.cell_of_put hv hrev).2
  | removedPool => exact (Table.cell_of_remove hv).2

theorem Effect.pinned (h : Effect s s') {u : PoolUpdate} (hu : u.Pinned s) : u.Pinned s' :=
  Cell.Pinned.keep hu h.next_le fun _ hv hrev => h.stood hv hrev

theorem ReadOk.keep (he : Effect s s') {t} (h : ReadOk s t) : ReadOk s' t := by
  cases t with
  | allocating c stage =>
    cases stage with
    | create => exact h
    | list | recheck | takeBack | isGone => trivial
  | checkPool | listPool => exact he.pinned h
  | writePool =>
    obtain ⟨hpinned, hbody, hcurrent⟩ := h
    refine ⟨he.pinned hpinned, hbody, fun hstands => hcurrent ?_⟩
    exact (Cell.standsAt_of_stood hpinned.1 (fun _ hv hrev => he.stood hv hrev) hstands).1
  | settlePool | putBack => exact h
  | listHeld | deletePool => trivial

theorem mem_ofPool {pool ip} :
    ip ∈ ofPool s pool ↔
      ip.pool = pool ∧ ∃ address v, s.ips.cell address = some v ∧ v.val = ip := by
  simp only [ofPool, State.reservations, List.mem_filter, List.mem_map, decide_eq_true_eq,
    Prod.exists, Table.mem_list]
  exact And.comm

variable (hs : Referring s)

include hs

theorem Referring.putPool {spec listed} (hlisted : s.OnlyListed name listed)
    (hinside : Inside listed spec.cidrs) : Referring (s.putPool name spec) := by
  refine ⟨Effect.putPool.ok hs.ok, fun address v hv => ?_⟩
  have hv : s.ips.cell address = some v := hv
  by_cases hname : v.val.pool = name
  · refine ⟨⟨s.next, spec⟩, ?_, ?_⟩
    · rw [hname]
      exact Table.cell_put_self _ _ _ _
    · exact hinside _ (hlisted v.val (mem_ofPool.mpr ⟨hname, address, v, hv, rfl⟩))
  · obtain ⟨pool, hpool, hcontains⟩ := hs.references address v hv
    exact ⟨pool, (Table.cell_put_ne _ hname _ _).trans hpool, hcontains⟩

theorem Referring.removePool
    (hfree : s.OnlyListed name []) : Referring (s.removePool name) := by
  refine ⟨Effect.removedPool.ok hs.ok, fun address v hv => ?_⟩
  have hv : s.ips.cell address = some v := hv
  obtain ⟨pool, hpool, hcontains⟩ := hs.references address v hv
  have hne : v.val.pool ≠ name := by
    intro hname
    cases hfree v.val (mem_ofPool.mpr ⟨hname, address, v, hv, rfl⟩)
  exact ⟨pool, (Table.cell_remove_ne _ hne).trans hpool, hcontains⟩

theorem Referring.ips (he : Effect s s') (hpools : s'.pools = s.pools)
    (hnew : ∀ address v, s'.ips.cell address = some v → v.val.uid ∉ s.drawn →
      ∃ pool, s.pools.cell v.val.pool = some pool ∧
        Ipv4Ranges.contains pool.val.cidrs v.val.address) : Referring s' := by
  refine ⟨he.ok hs.ok, fun address v hv => ?_⟩
  rw [hpools]
  rcases he.change.cell hv with ⟨v0, hv0, pointing, heq⟩ | ⟨-, hfresh, -⟩
  · rw [heq]
    exact hs.references address v0 hv0
  · exact hnew address v hv hfresh

variable {c : Call}

theorem Referring.reserve {address uid} (habsent : s.ips.cell address = none)
    (hfresh : uid ∉ s.drawn) (hranges : s.HasRanges c.pool c.spec.cidrs)
    (hcontains : Ipv4Ranges.contains c.spec.cidrs address) :
    Referring (s.reserve address (c.declare uid address)) := by
  refine hs.ips (.reserved habsent hfresh rfl) rfl fun a v hv hnew => ?_
  rcases Table.cell_put_cases hv with ⟨rfl, rfl⟩ | ⟨-, hv⟩
  · obtain ⟨pool, hpool, hcidrs⟩ := (Option.any_eq_true _ _).mp hranges
    simp only [decide_eq_true_eq] at hcidrs
    refine ⟨pool, hpool, ?_⟩
    rw [hcidrs]
    exact hcontains
  · exact absurd (hs.ok.drawn a v hv) hnew

variable {input : Input}

theorem Referring.went {stage o} (ht : ReadOk s (.allocating c stage))
    (hguard : readsHold.task s (.allocating c stage) input) (h : Went s c stage input s' o) :
    Referring s' := by
  cases h with
  | created habsent hfresh | unanswered habsent hfresh =>
    exact hs.reserve habsent hfresh (hguard nofun) ht
  | removed =>
    refine hs.ips .released rfl fun a v hv hnew => ?_
    exact absurd (hs.ok.drawn a v (Table.cell_of_remove hv).2) hnew
  | _ => exact hs

omit hs

theorem Went.readOk {stage o} (h : Went s c stage input s' o) : ∀ t ∈ o.tasks, ReadOk s' t := by
  intro t ht
  cases h with
  | picked halloc =>
    rw [List.mem_singleton.mp ht]
    exact Ipv4Ranges.contains_of_isAllocatable halloc
  | failed | preview | unanswered | kept => cases ht
  | raced | created | excess | retried | removed | asked | gone =>
    rw [List.mem_singleton.mp ht]
    trivial

theorem inside_listed {pool cidrs}
    (h : ∀ ip ∈ ofPool s pool, Ipv4Ranges.contains cidrs ip.address) :
    Inside ((ofPool s pool).map FloatingIp.address) cidrs := by
  intro address haddress
  obtain ⟨ip, hip, rfl⟩ := List.mem_map.mp haddress
  exact h ip hip

theorem Referring.poolWent {t next} (hs : Referring s) (ht : ReadOk s t)
    (hguard : readsHold.task s t input) (h : PoolWent s t input s' next) :
    Referring s' ∧ ∀ u ∈ next, ReadOk s' u := by
  cases h with
  | ended => exact ⟨hs, by simp⟩
  | checked | lost | unheld =>
    refine ⟨hs, fun u hu => ?_⟩
    rw [List.mem_singleton.mp hu]
    exact ht
  | @listed u _ hall =>
    refine ⟨hs, fun t ht' => ?_⟩
    rw [List.mem_singleton.mp ht']
    refine ⟨ht, inside_listed hall, fun hstands => inside_listed fun ip hip => ?_⟩
    obtain ⟨hname, address, v, hv, rfl⟩ := mem_ofPool.mp hip
    obtain ⟨pool, hpool, hcontains⟩ := hs.references address v hv
    rw [hname, ht.2 hstands] at hpool
    cases hpool
    exact hcontains
  | @written u _ _ hlands hstands hnext =>
    refine ⟨hs.putPool (hguard hlands) ht.2.1, fun t ht' => ?_⟩
    rw [hnext t ht']
    exact ht.2.2 hstands
  | restored hlands => exact ⟨hs.putPool (hguard hlands) ht, by simp⟩
  | deleted hlands => exact ⟨hs.removePool (hguard hlands), by simp⟩

theorem env_referring {event new} (hs : Referring s) (h : env s event = some (s', new)) :
    Referring s' ∧ ∀ t ∈ new, ReadOk s' t := by
  have he := env_effect h
  cases event with
  | createIp =>
    simp only [env] at h
    split at h <;> cases h
    refine ⟨hs, fun t ht => ?_⟩
    rw [List.mem_singleton.mp ht]
    trivial
  | updateIp | deleteIp =>
    obtain ⟨v, hv, ⟨⟩⟩ := Option.bind_eq_some_iff.mp h
    refine ⟨hs.ips he rfl fun a w hw hnew => ?_, by simp⟩
    exact absurd ((he.ok hs.ok).drawn a w hw) hnew
  | updatePool =>
    obtain ⟨v, hv, heq⟩ := Option.bind_eq_some_iff.mp h
    split at heq <;> cases heq
    rename_i hfits
    simp only [Bool.or_eq_true, decide_eq_true_eq, not_or, not_le] at hfits
    refine ⟨hs, fun t ht => ?_⟩
    rw [List.mem_singleton.mp ht]
    exact ⟨hfits.2, fun _ => hv⟩
  | deletePool =>
    obtain ⟨v, hv, ⟨⟩⟩ := Option.bind_eq_some_iff.mp h
    refine ⟨hs, fun t ht => ?_⟩
    rw [List.mem_singleton.mp ht]
    trivial

theorem referringOutline : program.Outline readsHold Referring ReadOk where
  env hs _ h := by
    obtain ⟨hs', hnew⟩ := env_referring hs h
    exact ⟨hs', hnew, fun t ht => ht.keep (env_effect h)⟩
  task := fun {s t input s' next} hs ht hguard h => by
    have hkeep : ∀ u, ReadOk s u → ReadOk s' u := fun u hu => hu.keep (task_effect h)
    by_cases hcall : ∃ c stage, t = .allocating c stage
    · obtain ⟨c, stage, rfl⟩ := hcall
      obtain ⟨⟨state, o⟩, halloc, heq⟩ := Option.map_eq_some_iff.mp h
      cases heq
      have hwent := allocate_went halloc
      exact ⟨hs.went ht hguard hwent, hwent.readOk, hkeep⟩
    · have hwent := pool_went (fun c stage heq => hcall ⟨c, stage, heq⟩) h
      obtain ⟨hs', hnext⟩ := hs.poolWent ht hguard hwent
      exact ⟨hs', hnext, hkeep⟩

end MeisterStack.CloudController.FloatingIps

namespace MeisterStack.CloudController.StoragePools

open Foundation ControllerApi

def References (s : State) : Prop :=
  ∀ name v, s.volumes.cell name = some v → (s.pools.cell v.val.pool).isSome

def readsHold : Guard State Task Event Input where
  env _ _ := True
  task s t input :=
    match t with
    | .createVolume _ pool => input ≠ .fail → (s.pools.cell pool).isSome
    | .deletePool name _ | .takeBack name _ => input ≠ .fail → s.volumesOf name = []
    | _ => True

instance (s event) : Decidable (readsHold.env s event) := .isTrue trivial

instance (s t input) : Decidable (readsHold.task s t input) := by
  induction t using Task.casesOn <;> dsimp only [readsHold] <;> infer_instance

variable {s : State}

theorem References.putPool (h : References s) (name pool) : References (s.putPool name pool) := by
  intro volume v hv
  by_cases hname : v.val.pool = name
  · rw [hname]
    exact congrArg Option.isSome (Table.cell_put_self s.pools name s.next pool)
  · exact (congrArg Option.isSome (Table.cell_put_ne s.pools hname s.next pool)).trans
      (h volume v hv)

theorem References.removePool {name} (h : References s) (hfree : s.volumesOf name = []) :
    References (s.removePool name) := by
  intro volume v hv
  have hv : s.volumes.cell volume = some v := hv
  have hne : v.val.pool ≠ name := by
    intro hname
    have hmem : (volume, v.val) ∈ s.volumesOf name := by
      simp only [State.volumesOf, List.mem_filter, List.mem_map, decide_eq_true_eq]
      exact ⟨⟨(volume, v), Table.mem_list.mpr hv, rfl⟩, hname⟩
    rw [hfree] at hmem
    cases hmem
  exact (congrArg Option.isSome (Table.cell_remove_ne s.pools hne)).trans (h volume v hv)

theorem References.putVolume {name volume} (h : References s)
    (hpool : (s.pools.cell volume.pool).isSome) : References (s.putVolume name volume) := by
  intro other v hv
  rcases Table.cell_put_cases hv with ⟨-, rfl⟩ | ⟨-, hv⟩
  · exact hpool
  · exact h other v hv

theorem References.went {s' t input next} (hs : References s) (hguard : readsHold.task s t input)
    (h : Went s t input s' next) : References s' := by
  cases h with
  | created | updated => exact hs.putPool _ _
  | removed hlands | deleted hlands => exact hs.removePool (hguard hlands)
  | volume hlands => exact hs.putVolume (hguard hlands)
  | _ => exact hs

theorem env_references {s' event new} (hs : References s) (h : env s event = some (s', new)) :
    References s' := by
  cases event with
  | createPool =>
    simp only [env] at h
    split at h <;> cases h
    exact hs
  | updatePool =>
    obtain ⟨v, hv, heq⟩ := Option.bind_eq_some_iff.mp h
    split at heq <;> cases heq
    exact hs
  | deletePool =>
    obtain ⟨v, hv, ⟨⟩⟩ := Option.bind_eq_some_iff.mp h
    exact hs
  | touchPool =>
    obtain ⟨v, hv, ⟨⟩⟩ := Option.bind_eq_some_iff.mp h
    exact hs.putPool _ _
  | createVolume =>
    simp only [env] at h
    split at h
    · cases h
    · split at h <;> cases h
      exact hs
  | placeVolume name =>
    obtain ⟨v, hv, ⟨⟩⟩ := Option.bind_eq_some_iff.mp h
    exact hs.putVolume (hs name v hv)
  | removeVolume =>
    obtain ⟨v, hv, ⟨⟩⟩ := Option.bind_eq_some_iff.mp h
    exact fun other w hw => hs other w (Table.cell_of_remove hw).2

theorem referencesOutline : program.Outline readsHold References fun _ _ => True where
  env hs _ h := ⟨env_references hs h, fun _ _ => trivial, fun _ _ => trivial⟩
  task hs _ hguard h := ⟨hs.went hguard (task_went h), fun _ _ => trivial, fun _ _ => trivial⟩

end MeisterStack.CloudController.StoragePools

namespace MeisterStack.CloudController

open Foundation ControllerApi Common

/-- Reservations of addresses run beside updates and deletes of floating pools, and creates of
volumes beside creates, updates and deletes of storage pools. In every state the pool of each
reservation exists and has its address, and the pool of each volume exists: provided a reservation
or a volume is created while the pool is as it was read, and a pool is narrowed, put back or removed
while it has no user but those it was listed with. -/
theorem no_dangling_pool {f : FloatingIps.State} {g : StoragePools.State}
    {fs : List (Move FloatingIps.Event FloatingIps.Input)}
    {gs : List (Move StoragePools.Event StoragePools.Input)}
    {fw : World FloatingIps.State FloatingIps.Task}
    {gw : World StoragePools.State StoragePools.Task} (hf : FloatingIps.Referring f)
    (hg : StoragePools.References g)
    (hfmeets : FloatingIps.program.RunMeets FloatingIps.readsHold ⟨f, []⟩ fs)
    (hgmeets : StoragePools.program.RunMeets StoragePools.readsHold ⟨g, []⟩ gs)
    (hfrun : FloatingIps.program.run ⟨f, []⟩ fs = some fw)
    (hgrun : StoragePools.program.run ⟨g, []⟩ gs = some gw) :
    (∀ address v, fw.shared.ips.cell address = some v →
      ∃ pool, fw.shared.pools.cell v.val.pool = some pool ∧
        Ipv4Ranges.contains pool.val.cidrs v.val.address) ∧
    ∀ name v, gw.shared.volumes.cell name = some v →
      (gw.shared.pools.cell v.val.pool).isSome :=
  ⟨(FloatingIps.referringOutline.run ⟨hf, by simp⟩ hfmeets hfrun).1.references,
    (StoragePools.referencesOutline.run ⟨hg, by simp⟩ hgmeets hgrun).1⟩

def reservedThenDeleted : List (Move FloatingIps.Event FloatingIps.Input) :=
  [.env (.createIp none "t" (some 4) FloatingIps.nowhere false), .task 0 (.go ""),
    .task 0 (.go "a"), .task 0 (.go ""), .env (.deletePool "p"), .task 0 (.go "")]

def volumeThenDeleted : List (Move StoragePools.Event StoragePools.Input) :=
  [.env (.createVolume "v" "a"), .task 0 (.go ""), .env (.deletePool "a"), .task 0 (.go "")]

theorem no_dangling_pool_refused :
    ∃ fw gw, FloatingIps.program.run ⟨FloatingIps.onePool, []⟩ reservedThenDeleted = some fw ∧
      StoragePools.program.run ⟨StoragePools.twoPools, []⟩ volumeThenDeleted = some gw ∧
      fw.tasks = [] ∧ gw.tasks = [] ∧ (fw.shared.ips.cell 4).isSome ∧
      (gw.shared.volumes.cell "v").isSome ∧ (gw.shared.pools.cell "a").isSome := by
  have hf : FloatingIps.Referring FloatingIps.onePool :=
    ⟨FloatingIps.onePool_start.ok, by rintro address v ⟨⟩⟩
  have hg : StoragePools.References StoragePools.twoPools := by rintro name v ⟨⟩
  have hfmeets : FloatingIps.program.RunMeets FloatingIps.readsHold ⟨FloatingIps.onePool, []⟩
      reservedThenDeleted := by decide
  have hgmeets : StoragePools.program.RunMeets StoragePools.readsHold ⟨StoragePools.twoPools, []⟩
      volumeThenDeleted := by decide
  refine ⟨_, _, rfl, rfl, rfl, rfl, rfl, rfl, ?_⟩
  exact (no_dangling_pool hf hg hfmeets hgmeets rfl rfl).2 "v" ⟨2, "a", none, none⟩ rfl

def deletedUnderneath : List (Move FloatingIps.Event FloatingIps.Input) :=
  [.env (.createIp none "t" (some 4) FloatingIps.nowhere false), .task 0 (.go ""),
    .env (.deletePool "p"), .task 1 (.go ""), .task 1 (.go ""), .task 0 (.go "a"),
    .task 0 (.go "")]

def narrowed : FloatingPoolSpec :=
  { FloatingIps.oneEach with cidrs := [FloatingIps.addresses 4 4 (by decide)] }

def narrowedUnderneath : List (Move FloatingIps.Event FloatingIps.Input) :=
  [.env (.createIp none "t" (some 5) FloatingIps.nowhere false), .task 0 (.go ""),
    .env (.updatePool "p" narrowed 0), .task 1 (.go ""), .task 1 (.go ""), .task 1 (.go ""),
    .task 1 (.go ""), .task 0 (.go "a"), .task 0 (.go "")]

def volumeUnderneath : List (Move StoragePools.Event StoragePools.Input) :=
  [.env (.createVolume "v" "a"), .env (.deletePool "a"), .task 1 (.go ""), .task 1 (.go ""),
    .task 0 (.go "")]

/-- Every call has returned: a reservation of a pool that is gone, a reservation outside the
ranges of its pool, and a volume of a pool that is gone. -/
theorem references_dangle :
    (∃ w ip, FloatingIps.program.run ⟨FloatingIps.onePool, []⟩ deletedUnderneath = some w ∧
      w.tasks = [] ∧ w.shared.ips.cell 4 = some ip ∧ ip.val.pool = "p" ∧
      w.shared.pools.cell "p" = none) ∧
    (∃ w ip pool, FloatingIps.program.run ⟨FloatingIps.onePool, []⟩ narrowedUnderneath = some w ∧
      w.tasks = [] ∧ w.shared.ips.cell 5 = some ip ∧ ip.val.pool = "p" ∧
      w.shared.pools.cell "p" = some pool ∧ Ipv4Ranges.contains pool.val.cidrs 5 = false) ∧
    ∃ w volume, StoragePools.program.run ⟨StoragePools.twoPools, []⟩ volumeUnderneath = some w ∧
      w.tasks = [] ∧ w.shared.volumes.cell "v" = some volume ∧ volume.val.pool = "a" ∧
      w.shared.pools.cell "a" = none :=
  ⟨⟨_, _, rfl, rfl, rfl, rfl, rfl⟩, ⟨_, _, _, rfl, rfl, rfl, rfl, rfl, rfl⟩,
    ⟨_, _, rfl, rfl, rfl, rfl, rfl⟩⟩

end MeisterStack.CloudController
