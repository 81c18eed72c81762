import MeisterStack.Foundation.Debt
import MeisterStack.CloudController.RangeClaims

/-!
# Which of two claims yields

Two stored claims that may not stand together are a debt, covered by a write that will find the
other one when it asks, or that has found it and is being undone. A write that is asked about covers
what it ran into, but not what it replaced. So claims end up apart as long as a claim is only dated
anew, or put back, where no rival has come.
-/

namespace MeisterStack.CloudController.RangeClaims

open Foundation ControllerApi Common List Table Object Nat Prod

def forbidden (name : String) (o : Object) (name' : String) (o' : Object) : Bool :=
  match o, o' with
  | .pool p, .pool q =>
    name != name' && (overlapping p.cidrs q.cidrs || p.default && q.default)
  | .pool p, .subnet q => overlapping p.cidrs [q.cidr]
  | .subnet p, .pool q => overlapping [p.cidr] q.cidrs
  | .subnet p, .subnet q => name != name' && overlapping [p.cidr] [q.cidr]
  | .pool p, .tenant q => overlapping p.cidrs q.networkPrefixes
  | .tenant p, .pool q => overlapping p.networkPrefixes q.cidrs
  | .subnet p, .tenant q => p.tenant != name' && overlapping [p.cidr] q.networkPrefixes
  | .tenant p, .subnet q => q.tenant != name && overlapping p.networkPrefixes [q.cidr]
  | .tenant _, .tenant _ => false

theorem forbidden_comm (name o name' o') :
    forbidden name o name' o' = forbidden name' o' name o := by
  cases o <;> cases o' <;> simp [forbidden, overlapping_comm, bne_comm, Bool.and_comm]

theorem forbidden_self (name o) : forbidden name o name o = false := by
  cases o <;> simp [forbidden]

structure Claim where
  name : String
  object : Object
  rev : Nat

def Claim.key (a : Claim) : Key := a.object.key a.name

variable (s : State)

def Stands (a : Claim) : Prop := s.cell a.key = some ⟨a.rev, a.object⟩

def Clash (a b : Claim) : Prop := forbidden a.name a.object b.name b.object

variable {a b : Claim}

theorem Clash.symm (h : Clash a b) : Clash b a := by
  rw [Clash, forbidden_comm]
  exact h

theorem cell_put (name) (o : Object) (k) :
    (s.put name o).cell k = if k = o.key name then some ⟨s.next, o⟩ else s.cell k := by
  obtain ⟨kind, name'⟩ := k
  by_cases hname : name' = name
  · subst hname
    cases o <;> cases kind <;> simp [State.put, State.cell, key, kind]
  · cases o <;> cases kind <;>
      simp [State.put, State.cell, key, kind, hname, cell_put_ne]

theorem cell_remove (k k') :
    (s.remove k).cell k' = if k' = k then none else s.cell k' := by
  obtain ⟨kind, name⟩ := k
  obtain ⟨kind', name'⟩ := k'
  by_cases hname : name' = name
  · subst hname
    cases kind <;> cases kind' <;> simp [State.remove, State.cell]
  · cases kind <;> cases kind' <;> simp [State.remove, State.cell, hname, cell_remove_ne]

theorem next_put (name o) : (s.put name o).next = s.next + 1 := by
  cases o <;> rfl

theorem next_remove (k) : (s.remove k).next = s.next + 1 := by
  obtain ⟨kind, name⟩ := k
  cases kind <;> rfl

variable {rev : Nat}

theorem map_cell_iff {α β : Type*} {f : α → β} (hf : Function.Injective f) {c : Cell α} {x : α} :
    (c.map fun v => Versioned.mk v.rev (f v.val)) = some ⟨rev, f x⟩ ↔ c = some ⟨rev, x⟩ := by
  cases c with
  | none => simp
  | some v =>
    obtain ⟨r, y⟩ := v
    simp [hf.eq_iff]

section Stored

variable {s : State} {name : String} {rev : Nat}

theorem stands_pool {p} : Stands s ⟨name, .pool p, rev⟩ ↔ s.pools.cell name = some ⟨rev, p⟩ :=
  map_cell_iff fun _ _ h => pool.inj h

theorem stands_subnet {n} : Stands s ⟨name, .subnet n, rev⟩ ↔ s.subnets.cell name = some ⟨rev, n⟩ :=
  map_cell_iff fun _ _ h => subnet.inj h

theorem stands_tenant {t} : Stands s ⟨name, .tenant t, rev⟩ ↔ s.tenants.cell name = some ⟨rev, t⟩ :=
  map_cell_iff fun _ _ h => tenant.inj h

end Stored

variable {s : State} {name : String} {o : Object}

theorem stands_put (h : Stands (s.put name o) a) :
    a = ⟨name, o, s.next⟩ ∨ a.key ≠ o.key name ∧ Stands s a := by
  rw [Stands, cell_put] at h
  split at h
  · rename_i hkey
    left
    obtain ⟨aname, aobject, arev⟩ := a
    cases h
    obtain rfl : aname = name := congrArg Key.name hkey
    rfl
  · rename_i hkey
    exact .inr ⟨hkey, h⟩

theorem stands_remove {k} (h : Stands (s.remove k) a) : a.key ≠ k ∧ Stands s a := by
  rw [Stands, cell_remove] at h
  split at h
  · cases h
  · rename_i hkey
    exact ⟨hkey, h⟩

def dated (o : Object) (rev : Nat) : Option Nat :=
  match o with
  | .tenant _ => none
  | _ => some rev

def Finds (look : Look) (name : String) (o : Object) (b : Claim) : Prop :=
  ∀ s : State, ∀ rev, Stands s { b with rev := rev } →
    ∃ hit ∈ s.collisions look name o, hit.revision = dated b.object rev

theorem mem_hits {α : Type*} {t : Table String α} {x} (h : t.cell name = some ⟨rev, x⟩) {found}
    (hfound : found (name, ⟨rev, x⟩)) (what : String × Versioned α → String) :
    ∃ hit ∈ (t.list.filter found).map fun e => Collision.mk (what e) (some e.2.rev),
      hit.revision = some rev :=
  ⟨_, mem_map.mpr ⟨_, mem_filter.mpr ⟨mem_list.mpr h, hfound⟩, rfl⟩, rfl⟩

variable {name' : String}

theorem finds_defaults {p q} (hname : name' ≠ name) (hq : q.default) :
    Finds .defaults name (.pool p) ⟨name', .pool q, rev⟩ :=
  fun _ _ hs => mem_hits (stands_pool.mp hs) (by simp [hq, hname]) _

theorem finds_pools {q} (hmine : (o.claimant name).isPool name' = false)
    (hover : overlapping o.ranges q.cidrs) : Finds .pools name o ⟨name', .pool q, rev⟩ :=
  fun _ _ hs => mem_hits (stands_pool.mp hs)
    (by simp [hmine, overlapping_comm q.cidrs, hover]) _

theorem finds_subnets {q} (hmine : (o.claimant name).mayHold name' q = false)
    (hover : overlapping o.ranges [q.cidr]) : Finds .subnets name o ⟨name', .subnet q, rev⟩ :=
  fun _ _ hs => mem_hits (stands_subnet.mp hs)
    (by simp [hmine, overlapping_comm [q.cidr], hover]) _

theorem finds_networks {q} (hmine : (o.claimant name).avoids name')
    (hover : overlapping o.ranges q.networkPrefixes) :
    Finds .networks name o ⟨name', .tenant q, rev⟩ := by
  intro s rev hs
  rw [overlapping_comm] at hover
  obtain ⟨r, hr, c, hc, hrc⟩ := overlapping_iff.mp hover
  refine ⟨⟨networkNamed name', none⟩, ?_, rfl⟩
  simp only [State.collisions, mem_flatMap, mem_map, mem_filter]
  refine ⟨_, ⟨mem_list.mpr (stands_tenant.mp hs), hmine⟩, r, ⟨hr, ?_⟩, rfl⟩
  exact overlapping_iff.mpr ⟨r, mem_singleton.mpr rfl, c, hc, hrc⟩

theorem exists_look (h : Clash a b) : ∃ look ∈ a.object.looks, Finds look a.name a.object b := by
  obtain ⟨name, o, rev⟩ := a
  obtain ⟨name', o', rev'⟩ := b
  simp only [Clash] at h
  cases o with
  | pool =>
    cases o' with
    | pool =>
      simp only [forbidden, Bool.and_eq_true, bne_iff_ne, Bool.or_eq_true] at h
      obtain ⟨hname, hover | ⟨hp, hq⟩⟩ := h
      · exact ⟨.pools, by simp [looks], finds_pools
          (by simpa [claimant, Claimant.isPool] using hname) hover⟩
      · exact ⟨.defaults, by simp [looks, hp], finds_defaults hname.symm hq⟩
    | subnet => exact ⟨.subnets, by simp [looks], finds_subnets rfl h⟩
    | tenant => exact ⟨.networks, by simp [looks], finds_networks rfl h⟩
  | subnet =>
    cases o' with
    | pool => exact ⟨.pools, by simp [looks], finds_pools rfl h⟩
    | subnet =>
      simp only [forbidden, Bool.and_eq_true, bne_iff_ne] at h
      exact ⟨.subnets, by simp [looks], finds_subnets
        (by simpa [claimant, Claimant.mayHold] using h.1) h.2⟩
    | tenant =>
      simp only [forbidden, Bool.and_eq_true, bne_iff_ne] at h
      exact ⟨.networks, by simp [looks], finds_networks
        (by simpa [claimant, Claimant.avoids] using h.1.symm) h.2⟩
  | tenant =>
    cases o' with
    | pool => exact ⟨.pools, by simp [looks], finds_pools rfl h⟩
    | subnet =>
      simp only [forbidden, Bool.and_eq_true, bne_iff_ne] at h
      exact ⟨.subnets, by simp [looks], finds_subnets
        (by simpa [claimant, Claimant.mayHold] using h.1.symm) h.2⟩
    | tenant => cases h

def Owes (s : State) (d : Claim × Claim) : Prop := Stands s d.1 ∧ Stands s d.2 ∧ Clash d.1 d.2

def Claimed.claims (c : Claimed) (a : Claim) : Prop := c.name = a.name ∧ c.object = a.object

variable {c : Claimed}

theorem Claimed.claims.key (h : c.claims a) : c.key = a.key := by
  rw [Claimed.key, Claim.key, h.1, h.2]

def Yields (t : Task) (a b : Claim) : Prop :=
  match t with
  | .look c rest hits => c.claims a ∧ ((lostTo c.rev hits).isSome ∨
      arrivedAfter c.rev (dated b.object b.rev) ∧
        ∃ look ∈ rest, Finds look a.name a.object b)
  | .undo c _ => c.claims a
  | .takeBack c _ _ => c.claims a
  | .isGone c _ => c.claims a
  | _ => False

def Covers (t : Task) (d : Claim × Claim) : Prop := Yields t d.1 d.2 ∨ Yields t d.2 d.1

variable {t : Task} {d : Claim × Claim}

theorem Covers.swap (h : Covers t d) : Covers t d.swap := h.symm

def Request.kind (r : Request) : Kind :=
  match r.body with
  | .object o => o.kind
  | .cut _ _ _ => .subnet

def Request.Ok (r : Request) : Prop :=
  ∀ before rev, r.write = .update before rev → before.kind = r.kind

structure ClaimedOk (s : State) (c : Claimed) : Prop where
  below : c.rev < s.next
  le : ∀ v, s.cell c.key = some v → c.rev ≤ v.rev
  kind : ∀ before rev, c.write = .update before rev → before.kind = c.object.kind
  again : ∀ r ∈ c.again, r.Ok

def TaskOk (s : State) : Task → Prop
  | .check r _ _ => r.Ok
  | .write _ o how _ again =>
    (∀ before rev, how = .update before rev → before.kind = o.kind) ∧ ∀ r ∈ again, r.Ok
  | .look c _ _ => ClaimedOk s c
  | .undo c _ => ClaimedOk s c
  | .takeBack c _ _ => ClaimedOk s c
  | .isGone c _ => ClaimedOk s c

def Ok (s : State) : Prop := ∀ k v, s.cell k = some v → v.rev < s.next

inductive Effect (s : State) : State → Prop
  | same : Effect s s
  | put (name : String) (o : Object) : Effect s (s.put name o)
  | remove (k : Key) : Effect s (s.remove k)

variable {s' : State}

theorem Effect.ok (heffect : Effect s s') (h : Ok s) : Ok s' := by
  cases heffect with
  | same => exact h
  | put =>
    intro k v hv
    rw [next_put]
    rw [cell_put] at hv
    split at hv
    · cases hv
      exact lt_succ_self _
    · exact (h k v hv).trans (lt_succ_self _)
  | remove =>
    intro k v hv
    rw [next_remove]
    rw [cell_remove] at hv
    split at hv
    · cases hv
    · exact (h k v hv).trans (lt_succ_self _)

theorem ClaimedOk.keep (h : ClaimedOk s c) (heffect : Effect s s') : ClaimedOk s' c := by
  cases heffect with
  | same => exact h
  | put =>
    refine ⟨?_, fun v hv => ?_, h.kind, h.again⟩
    · rw [next_put]
      exact h.below.trans (lt_succ_self _)
    · rw [cell_put] at hv
      split at hv
      · cases hv
        exact h.below.le
      · exact h.le v hv
  | remove =>
    refine ⟨?_, fun v hv => ?_, h.kind, h.again⟩
    · rw [next_remove]
      exact h.below.trans (lt_succ_self _)
    · rw [cell_remove] at hv
      split at hv
      · cases hv
      · exact h.le v hv

theorem TaskOk.keep (h : TaskOk s t) (heffect : Effect s s') : TaskOk s' t := by
  cases t with
  | check | write => exact h
  | look | undo | takeBack | isGone => exact ClaimedOk.keep h heffect

theorem tenantTask_ok (s name body current how)
    (h : ∀ before rev, how = .update before rev → before.kind = .tenant) :
    TaskOk s (tenantTask name body current how) := by
  rw [tenantTask]
  split
  · exact h
  · exact ⟨h, by simp⟩

theorem env_cases {event new} (h : env s event = some (s', new)) :
    (s' = s ∧ ∀ t ∈ new, TaskOk s t) ∨ ∃ k, s' = s.remove k ∧ new = [] := by
  cases event with
  | createPool | createSubnet | cutSubnet =>
    simp only [env] at h
    split at h <;> cases h
    left
    simp [TaskOk, Request.Ok]
  | updatePool =>
    obtain ⟨current, -, h⟩ := Option.bind_eq_some_iff.mp h
    split at h <;> cases h
    left
    simp [TaskOk, Request.Ok, Request.kind, kind]
  | updateSubnet =>
    obtain ⟨current, -, h⟩ := Option.bind_eq_some_iff.mp h
    cases h
    left
    simp [TaskOk, kind]
  | stampAddresses =>
    obtain ⟨current, -, h⟩ := Option.bind_eq_some_iff.mp h
    split at h <;> cases h
    left
    simp [TaskOk, kind]
  | createTenant name =>
    cases h
    left
    simpa using tenantTask_ok s name _ _ .create (by simp)
  | updateTenant name =>
    obtain ⟨current, -, h⟩ := Option.bind_eq_some_iff.mp h
    cases h
    left
    simpa using tenantTask_ok s name _ _ _ (by simp [kind])
  | remove k =>
    cases h
    exact .inr ⟨k, rfl, rfl⟩

variable {routedPools : List Ipv4Range}

theorem conclude_ok (s) {r} (h : r.Ok) (taken uid) :
    ∀ t ∈ conclude routedPools r taken uid, TaskOk s t := by
  obtain ⟨name, body, how⟩ := r
  cases body with
  | object o =>
    have hkind : ∀ before rev, how = .update before rev → before.kind = o.kind := h
    cases o <;> simp only [conclude] <;> split <;> simp_all [TaskOk, kind]
  | cut tenant prefixLen left =>
    have hkind : ∀ before rev, how = .update before rev → before.kind = .subnet := h
    simp only [conclude]
    split
    · simp
    · cases left <;> simp_all [TaskOk, kind, Request.Ok, Request.kind]

theorem ClaimedOk.retry (h : ClaimedOk s c) (s' why) : ∀ t ∈ c.retry why, TaskOk s' t := by
  cases why with
  | claimed =>
    cases hagain : c.again with
    | none => simp [Claimed.retry, hagain]
    | some r => simpa [Claimed.retry, hagain, TaskOk] using h.again r hagain
  | markedDefault | unanswered => simp [Claimed.retry]

variable {hits : List Collision}

theorem mem_ask {rest} (h : t ∈ ask s c rest hits) :
    (∃ rest hits, t = .look c rest hits) ∨ ∃ why, t = .undo c why := by
  unfold ask at h
  split at h
  · split at h
    · exact .inr ⟨_, mem_singleton.mp h⟩
    · cases h
  · split at h
    · exact .inr ⟨_, mem_singleton.mp h⟩
    · exact .inl ⟨_, _, mem_singleton.mp h⟩
  · exact .inl ⟨_, _, mem_singleton.mp h⟩

theorem write_ok {how asked again} (h : TaskOk s (.write name o how asked again)) :
    Effect s (write s name o how asked again).1 ∧
      ∀ t ∈ (write s name o how asked again).2, TaskOk (write s name o how asked again).1 t := by
  rw [write]
  split
  · refine ⟨.put name o, fun t ht => ?_⟩
    dsimp only at ht ⊢
    split at ht
    · obtain rfl := mem_singleton.mp ht
      refine ⟨?_, fun v hv => ?_, h.1, h.2⟩
      · rw [next_put]
        exact lt_succ_self _
      · rw [Claimed.key, cell_put, if_pos rfl] at hv
        cases hv
        exact le_refl _
    · cases ht
  · exact ⟨.same, by simp⟩

theorem takeBack_ok (h : ClaimedOk s c) (why d) :
    Effect s (takeBack s c why d).1 ∧
      ∀ t ∈ (takeBack s c why d).2, TaskOk (takeBack s c why d).1 t := by
  rw [takeBack]
  split
  · exact ⟨.remove _, h.retry _ why⟩
  all_goals exact ⟨.same, by simpa [TaskOk] using h⟩

variable {next : List Task}

theorem task_ok {input} (hok : TaskOk s t) (h : task routedPools s t input = some (s', next)) :
    Effect s s' ∧ ∀ u ∈ next, TaskOk s' u := by
  cases input with
  | fail =>
    cases t with
    | look =>
      cases h
      exact ⟨.same, by simpa [TaskOk] using hok⟩
    | check r rest =>
      cases rest <;> cases h <;> exact ⟨.same, by simp⟩
    | _ =>
      cases h
      exact ⟨.same, by simp⟩
  | go uid =>
    cases t with
    | check r rest taken =>
      cases rest with
      | nil =>
        cases h
        exact ⟨.same, conclude_ok s hok taken uid⟩
      | cons =>
        simp only [task] at h
        split at h <;> cases h
        · exact ⟨.same, by simp⟩
        · exact ⟨.same, by simpa [TaskOk] using hok⟩
    | write name o how asked again =>
      have hw : write s name o how asked again = (s', next) := Option.some.inj h
      simpa only [hw] using write_ok hok
    | look c rest hits =>
      cases h
      refine ⟨.same, fun u hu => ?_⟩
      rcases mem_ask hu with ⟨rest, hits, rfl⟩ | ⟨why, rfl⟩ <;> exact hok
    | undo =>
      simp only [task] at h
      split at h
      · cases h
        exact ⟨.same, by simpa [TaskOk] using hok⟩
      · rename_i before rev hwrite
        cases h
        refine ⟨?_, by simp⟩
        rw [putBack]
        split
        · exact .put _ _
        · exact .same
    | takeBack c why d =>
      have hd : takeBack s c why d = (s', next) := Option.some.inj h
      simpa only [hd] using takeBack_ok hok why d
    | isGone c why =>
      cases h
      refine ⟨.same, ?_⟩
      split
      · exact ClaimedOk.retry hok s why
      · simp

theorem outline (routedPools guard) :
    (program routedPools).Outline guard Ok TaskOk where
  env {s event s' new} hs _ h := by
    rcases env_cases h with ⟨rfl, hnew⟩ | ⟨k, rfl, rfl⟩
    · exact ⟨hs, hnew, fun _ ht => ht⟩
    · exact ⟨Effect.ok (.remove k) hs, by simp, fun _ ht => ht.keep (.remove k)⟩
  task hs hok _ h := by
    obtain ⟨heffect, hnext⟩ := task_ok hok h
    exact ⟨heffect.ok hs, hnext, fun _ hu => hu.keep heffect⟩

def State.claims (s : State) : List Claim :=
  (s.pools.list.map fun e => ⟨e.1, .pool e.2.val, e.2.rev⟩) ++
    (s.subnets.list.map fun e => ⟨e.1, .subnet e.2.val, e.2.rev⟩) ++
    s.tenants.list.map fun e => ⟨e.1, .tenant e.2.val, e.2.rev⟩

theorem mem_claims (h : Stands s a) : a ∈ s.claims := by
  obtain ⟨name, o, rev⟩ := a
  simp only [State.claims, mem_append, mem_map]
  cases o with
  | pool => exact .inl (.inl ⟨_, mem_list.mpr (stands_pool.mp h), rfl⟩)
  | subnet => exact .inl (.inr ⟨_, mem_list.mpr (stands_subnet.mp h), rfl⟩)
  | tenant => exact .inr ⟨_, mem_list.mpr (stands_tenant.mp h), rfl⟩

def State.rivals (s : State) (name : String) (o : Object) : List Claim :=
  s.claims.filter fun b => forbidden name o b.name b.object

theorem mem_rivals (hb : Stands s b) (h : Clash ⟨name, o, rev⟩ b) : b ∈ s.rivals name o :=
  mem_filter.mpr ⟨mem_claims hb, h⟩

def undone (s : State) : Task → Input → Bool
  | .undo c _, input =>
    match c.write with
    | .create => input != .fail
    | .update _ _ => input != .fail && (s.cell c.key).standsAt c.rev
  | .takeBack _ _ _, input => input != .fail
  | .isGone c _, input => input != .fail && s.gone c
  | _, _ => true

def State.oldest (s : State) (name : String) (o : Object) : Bool :=
  (s.rivals name o).all fun b =>
    (s.cell (o.key name)).any fun old =>
      old.val = o && (o.kind = .tenant || b.rev < old.rev)

def undisputed (s : State) : Task → Bool
  | .write name o how false _ => !s.writable (o.key name) how || s.oldest name o
  | .undo c _ =>
    match c.write with
    | .create => true
    | .update before _ => (s.rivals c.name before).isEmpty
  | _ => true

def settling : Guard State Task Event Input where
  env _ _ := True
  task s t input := undone s t input ∧ undisputed s t

instance (s event) : Decidable (settling.env s event) := .isTrue trivial

instance (s t input) : Decidable (settling.task s t input) :=
  inferInstanceAs (Decidable (_ ∧ _))

abbrev Carried (t : Task) (s : State) (d : Claim × Claim) : Prop :=
  Program.CarriedOver TaskOk Owes Covers (· = t) s d

theorem Carried.same (h : Owes s d) (hfree : ¬Covers t d) : Carried t s d :=
  ⟨d, h, by rintro _ rfl; exact hfree, fun _ _ hu => hu⟩

theorem Carried.swap (h : Carried t s d.swap) : Carried t s d := by
  obtain ⟨d0, hd0, hfree, hkeep⟩ := h
  exact ⟨d0, hd0, hfree, fun u hu hc => (hkeep u hu hc).symm⟩

theorem owes_put (h : Owes (s.put name o) d) :
    (d.1.key ≠ o.key name ∧ d.2.key ≠ o.key name ∧ Owes s d) ∨
      (∃ b, d = (⟨name, o, s.next⟩, b) ∧ Stands s b ∧ Clash ⟨name, o, s.next⟩ b) ∨
      ∃ b, d.swap = (⟨name, o, s.next⟩, b) ∧ Stands s b ∧ Clash ⟨name, o, s.next⟩ b := by
  obtain ⟨a, b⟩ := d
  obtain ⟨ha, hb, hclash⟩ := h
  rcases stands_put ha with rfl | ⟨hkeya, ha⟩ <;> rcases stands_put hb with rfl | ⟨hkeyb, hb⟩
  · rw [Clash, forbidden_self] at hclash
    cases hclash
  · exact .inr (.inl ⟨b, rfl, hb, hclash⟩)
  · exact .inr (.inr ⟨a, rfl, ha, hclash.symm⟩)
  · exact .inl ⟨hkeya, hkeyb, ha, hb, hclash⟩

theorem arrivedAfter_of_lt {mine theirs} (h : theirs < mine) (o) :
    arrivedAfter mine (dated o theirs) := by
  cases o <;> simp [dated, arrivedAfter, h]

theorem yields_look (hs : Ok s) (hb : Stands s b) (hclash : Clash ⟨name, o, s.next⟩ b) (how again) :
    Yields (.look ⟨name, o, s.next, how, again⟩ o.looks []) ⟨name, o, s.next⟩ b :=
  ⟨⟨rfl, rfl⟩, .inr ⟨arrivedAfter_of_lt (hs _ _ hb) _, exists_look hclash⟩⟩

theorem carried_of_oldest (ht : ∀ d, ¬Covers t d) (holdest : s.oldest name o) (hb : Stands s b)
    (hclash : Clash ⟨name, o, s.next⟩ b) : Carried t s (⟨name, o, s.next⟩, b) := by
  have hold := all_eq_true.mp holdest b (mem_rivals hb hclash)
  cases hcell : s.cell (o.key name) with
  | none => simp [hcell] at hold
  | some old =>
    obtain ⟨rev, val⟩ := old
    simp only [hcell, Option.any_some, Bool.and_eq_true, decide_eq_true_eq, Bool.or_eq_true] at hold
    obtain ⟨rfl, hdate⟩ := hold
    refine ⟨(⟨name, val, rev⟩, b), ⟨hcell, hb, hclash⟩, ?_, fun u hu hc => ?_⟩
    · rintro _ rfl
      exact ht _
    · rcases hc with hmine | htheirs
      · left
        cases u <;> exact hmine
      · right
        cases u with
        | look c =>
          obtain ⟨hclaims, hlost | ⟨hafter, hfinds⟩⟩ := htheirs
          · exact ⟨hclaims, .inl hlost⟩
          · refine ⟨hclaims, .inr ⟨?_, hfinds⟩⟩
            have hle : c.rev ≤ b.rev := by
              refine (hu : ClaimedOk s c).le ⟨b.rev, b.object⟩ ?_
              rw [hclaims.key]
              exact hb
            cases val with
            | tenant => rfl
            | _ =>
              simp only [dated, arrivedAfter, decide_eq_true_eq] at hafter
              rcases hdate with htenant | hdate
              · cases htenant
              · omega
        | _ => exact htheirs

theorem lostTo_isSome_iff {mine} :
    (lostTo mine hits).isSome ↔ ∃ c ∈ hits, arrivedAfter mine c.revision := by
  simp [lostTo]

theorem ask_yields {rest} (hb : Stands s b) (h : Yields (.look c rest hits) a b) :
    ∃ u ∈ ask s c rest hits, Yields u a b := by
  obtain ⟨hclaims, hwhy⟩ := h
  -- a look that finds the rival finds it at a revision the claim yields to
  have hfound : ∀ look, arrivedAfter c.rev (dated b.object b.rev) →
      Finds look a.name a.object b →
      (lostTo c.rev (s.collisions look c.name c.object)).isSome := by
    intro look hafter hfinds
    obtain ⟨hit, hmem, hrev⟩ := hfinds s b.rev hb
    rw [lostTo_isSome_iff, hclaims.1, hclaims.2]
    exact ⟨hit, hmem, hrev ▸ hafter⟩
  cases rest with
  | nil =>
    rcases hwhy with hlost | ⟨-, look, hlook, -⟩
    · obtain ⟨won, hwon⟩ := Option.isSome_iff_exists.mp hlost
      exact ⟨.undo c (.claimed won.what), by simp [ask, hwon], hclaims⟩
    · cases hlook
  | cons look rest =>
    by_cases hdefaults : look = .defaults
    · subst hdefaults
      cases hwon : lostTo c.rev (s.collisions .defaults c.name c.object) with
      | some won => exact ⟨.undo c (.markedDefault won.what), by simp [ask, hwon], hclaims⟩
      | none =>
        refine ⟨.look c rest hits, by simp [ask, hwon], hclaims, ?_⟩
        rcases hwhy with hlost | ⟨hafter, look, hlook, hfinds⟩
        · exact .inl hlost
        · rcases mem_cons.mp hlook with rfl | hlook
          · have hsome := hfound .defaults hafter hfinds
            rw [hwon] at hsome
            cases hsome
          · exact .inr ⟨hafter, look, hlook, hfinds⟩
    · refine ⟨.look c rest (hits ++ s.collisions look c.name c.object), ?_, hclaims, ?_⟩
      · cases look <;> first | exact absurd rfl hdefaults | exact mem_singleton.mpr rfl
      · rcases hwhy with hlost | ⟨hafter, look', hlook, hfinds⟩
        · obtain ⟨hit, hmem, hhit⟩ := lostTo_isSome_iff.mp hlost
          exact .inl (lostTo_isSome_iff.mpr ⟨hit, mem_append_left _ hmem, hhit⟩)
        · rcases mem_cons.mp hlook with rfl | hlook
          · obtain ⟨hit, hmem, hhit⟩ := lostTo_isSome_iff.mp (hfound _ hafter hfinds)
            exact .inl (lostTo_isSome_iff.mpr ⟨hit, mem_append_right _ hmem, hhit⟩)
          · exact .inr ⟨hafter, look', hlook, hfinds⟩

theorem covers_next (hnext : ∀ a b, Stands s b → Yields t a b → ∃ u ∈ next, Yields u a b)
    (hd : Owes s d) : (∃ u ∈ next, Covers u d) ∨ Carried t s d := by
  by_cases hcovers : Covers t d
  · left
    rcases hcovers with h | h
    · obtain ⟨u, hu, hy⟩ := hnext _ _ hd.2.1 h
      exact ⟨u, hu, .inl hy⟩
    · obtain ⟨u, hu, hy⟩ := hnext _ _ hd.1 h
      exact ⟨u, hu, .inr hy⟩
  · exact .inr (.same hd hcovers)

theorem write_debts (hs : Ok s) {how asked again}
    (hguard : undisputed s (.write name o how asked again))
    (hd : Owes (write s name o how asked again).1 d) :
    (∃ u ∈ (write s name o how asked again).2, Covers u d) ∨
      Carried (.write name o how asked again) s d := by
  have hfree : ∀ d, ¬Covers (.write name o how asked again) d := by
    rintro d (h | h) <;> exact h
  rw [write] at hd ⊢
  split at hd
  · rename_i hwritable
    rw [if_pos hwritable]
    -- the pair with the new claim in front, and the same pair the other way round
    have hnew : ∀ b, Stands s b → Clash ⟨name, o, s.next⟩ b →
        (∃ u ∈ (if asked then [Task.look ⟨name, o, s.next, how, again⟩ o.looks []] else []),
          Yields u ⟨name, o, s.next⟩ b) ∨
        Carried (.write name o how asked again) s (⟨name, o, s.next⟩, b) := by
      intro b hb hclash
      cases asked with
      | true => exact .inl ⟨_, mem_singleton.mpr rfl, yields_look hs hb hclash how again⟩
      | false =>
        have holdest : s.oldest name o := by simpa [undisputed, hwritable] using hguard
        exact .inr (carried_of_oldest hfree holdest hb hclash)
    rcases owes_put hd with ⟨-, -, hbefore⟩ | ⟨b, rfl, hb, hclash⟩ | ⟨b, hswap, hb, hclash⟩
    · exact .inr (.same hbefore (hfree d))
    · rcases hnew b hb hclash with ⟨u, hu, hy⟩ | hcarried
      · exact .inl ⟨u, hu, .inl hy⟩
      · exact .inr hcarried
    · rcases hnew b hb hclash with ⟨u, hu, hy⟩ | hcarried
      · refine .inl ⟨u, hu, Covers.swap (d := d.swap) ?_⟩
        rw [hswap]
        exact .inl hy
      · exact .inr (Carried.swap (hswap ▸ hcarried))
  · exact .inr (.same hd (hfree d))

theorem not_covers_of_key (ht : ∀ a b, Yields t a b → c.claims a)
    (h1 : d.1.key ≠ c.key) (h2 : d.2.key ≠ c.key) : ¬Covers t d := by
  rintro (h | h)
  · exact h1 (ht _ _ h).key.symm
  · exact h2 (ht _ _ h).key.symm

theorem putBack_debts {why before} (hok : ClaimedOk s c) (hwrite : c.write = .update before rev)
    (hstands : (s.cell c.key).standsAt c.rev) (halone : s.rivals c.name before = [])
    (hd : Owes (putBack s c before) d) : Carried (.undo c why) s d := by
  have hkey : before.key c.name = c.key := by
    rw [Claimed.key, key, key, hok.kind before rev hwrite]
  have hnew : ∀ b, Stands s b → ¬Clash ⟨c.name, before, s.next⟩ b := by
    intro b hb hclash
    have hmem := mem_rivals hb hclash
    rw [halone] at hmem
    cases hmem
  rw [putBack, if_pos hstands] at hd
  rcases owes_put hd with ⟨h1, h2, hbefore⟩ | ⟨b, -, hb, hclash⟩ | ⟨b, -, hb, hclash⟩
  · rw [hkey] at h1 h2
    exact .same hbefore (not_covers_of_key (t := .undo c why) (c := c) (fun _ _ h => h) h1 h2)
  all_goals exact absurd hclash (hnew b hb)

theorem takeBack_debts (c why del) (hd : Owes (takeBack s c why del).1 d) :
    (∃ u ∈ (takeBack s c why del).2, Covers u d) ∨ Carried (.takeBack c why del) s d := by
  rw [takeBack] at hd ⊢
  split at hd
  · obtain ⟨h1, hs1⟩ := stands_remove hd.1
    obtain ⟨h2, hs2⟩ := stands_remove hd.2.1
    exact .inr (.same ⟨hs1, hs2, hd.2.2⟩
      (not_covers_of_key (t := .takeBack c why del) (c := c) (fun _ _ h => h) h1 h2))
  all_goals exact covers_next (fun _ _ _ h => ⟨_, mem_singleton.mpr rfl, h⟩) hd

theorem not_claims_of_gone (h : s.gone c) (ha : Stands s a) : ¬c.claims a := by
  intro hclaims
  have hcell : s.cell c.key = some ⟨a.rev, c.object⟩ := by
    rw [hclaims.key, hclaims.2]
    exact ha
  simp [State.gone, hcell] at h

theorem task_debts {input} (hs : Ok s) (hok : TaskOk s t) (hguard : settling.task s t input)
    (h : task routedPools s t input = some (s', next)) (hd : Owes s' d) :
    (∃ u ∈ next, Covers u d) ∨ Carried t s d := by
  cases t with
  | check r rest =>
    have hsame : s' = s := by
      cases rest with
      | nil => cases input <;> cases h <;> rfl
      | cons =>
        cases input with
        | fail =>
          cases h
          rfl
        | go =>
          simp only [task] at h
          split at h <;> cases h <;> rfl
    subst hsame
    exact .inr (.same hd (by rintro (h | h) <;> exact h))
  | write name o how asked again =>
    cases input with
    | fail =>
      cases h
      exact .inr (.same hd (by rintro (h | h) <;> exact h))
    | go =>
      have hw : write s name o how asked again = (s', next) := Option.some.inj h
      have hdebts := write_debts hs hguard.2 (d := d)
      rw [hw] at hdebts
      exact hdebts hd
  | look =>
    cases input with
    | fail =>
      cases h
      exact covers_next (fun _ _ _ h => ⟨_, mem_singleton.mpr rfl, h.1⟩) hd
    | go =>
      cases h
      exact covers_next (fun _ _ hb h => ask_yields hb h) hd
  | undo c =>
    obtain ⟨hundone, halone⟩ := hguard
    cases input with
    | fail => cases hwrite : c.write <;> simp [undone, hwrite] at hundone
    | go =>
      cases hwrite : c.write with
      | create =>
        simp only [task, hwrite, Option.some.injEq, mk.injEq] at h
        obtain ⟨rfl, rfl⟩ := h
        exact covers_next (fun _ _ _ h => ⟨_, mem_singleton.mpr rfl, h⟩) hd
      | update =>
        simp only [task, hwrite, Option.some.injEq, mk.injEq] at h
        obtain ⟨rfl, rfl⟩ := h
        exact .inr (putBack_debts hok hwrite (by simpa [undone, hwrite] using hundone)
          (by simpa [undisputed, hwrite] using halone) hd)
  | takeBack c why del =>
    cases input with
    | fail => simp [settling, undone] at hguard
    | go =>
      have htake : takeBack s c why del = (s', next) := Option.some.inj h
      have hdebts := takeBack_debts (s := s) c why del (d := d)
      rw [htake] at hdebts
      exact hdebts hd
  | isGone c =>
    cases input with
    | fail => simp [settling, undone] at hguard
    | go =>
      cases h
      have hgone : s.gone c := by simpa [undone] using hguard.1
      refine .inr (.same hd ?_)
      rintro (hy | hy)
      · exact not_claims_of_gone hgone hd.1 hy
      · exact not_claims_of_gone hgone hd.2.1 hy

theorem debtOutline (routedPools) :
    (program routedPools).DebtOutline settling Ok TaskOk Owes Covers where
  outline := outline routedPools settling
  env {s event s' new} _ _ h d hd := by
    have hbefore : Owes s d := by
      rcases env_cases h with ⟨rfl, -⟩ | ⟨k, rfl, -⟩
      · exact hd
      · exact ⟨(stands_remove hd.1).2, (stands_remove hd.2.1).2, hd.2.2⟩
    exact ⟨d, hbefore, fun _ hfalse => hfalse.elim, fun _ _ hu => hu⟩
  task hs hok hguard h _ hd := task_debts hs hok hguard h hd

def unclaimed : State where
  next := 1
  pools := ∅
  subnets := ∅
  tenants := (∅ : Table String Tenant).put "t" 0 ⟨"u0", []⟩

def block : Ipv4Range := ⟨167772160, 167772415, true, by decide, by decide⟩

def steps (index count : Nat) : List (Move Event Input) :=
  List.replicate count (.task index (.go ""))

theorem unclaimed_stands (h : Stands unclaimed a) : a = ⟨"t", .tenant ⟨"u0", []⟩, 0⟩ := by
  have hmem := mem_claims h
  simpa [State.claims, unclaimed, Table.list, Table.put] using hmem

theorem unclaimed_ok : Ok unclaimed := by
  rintro ⟨kind, name⟩ v hv
  cases kind with
  | pool | subnet => cases hv
  | tenant =>
    obtain ⟨t, ht, rfl⟩ := Option.map_eq_some_iff.mp hv
    have hempty : (∅ : Table String Tenant).Below 0 := fun _ => Cell.below_none 0
    exact hempty.put "t" _ name t ht

theorem unclaimed_apart (a b) (ha : Stands unclaimed a) (hb : Stands unclaimed b) : ¬Clash a b := by
  rw [unclaimed_stands ha, unclaimed_stands hb]
  simp [Clash, forbidden]

def raced : List (Move Event Input) :=
  [.env (.createPool "p" "u1" [block] true), .env (.createPool "q" "u2" [block] true)] ++
    steps 0 4 ++ steps 1 4 ++ steps 0 1 ++ steps 1 4 ++ steps 0 5

def undoing : Guard State Task Event Input where
  env _ _ := True
  task s t input := undone s t input

instance (s event) : Decidable (undoing.env s event) := .isTrue trivial

instance (s t input) : Decidable (undoing.task s t input) :=
  inferInstanceAs (Decidable (_ = _))

def redated (redate : Event) : List (Move Event Input) :=
  [.env (.createPool "p" "u1" [block] false), .env (.createSubnet "n" "u2" "t" block)] ++
    steps 0 4 ++ steps 1 9 ++ steps 0 1 ++ [.env redate] ++ steps 1 1 ++ steps 0 4

def restored : List (Move Event Input) :=
  [.env (.createPool "p" "u1" [block] false), .env (.createPool "q" "u2" [block] false)] ++
    steps 0 4 ++ steps 1 4 ++ steps 0 5 ++ [.env (.updatePool "p" [block] false 1)] ++
    steps 1 4 ++ steps 0 1 ++ steps 1 1 ++ steps 0 4 ++ steps 0 5

end MeisterStack.CloudController.RangeClaims
