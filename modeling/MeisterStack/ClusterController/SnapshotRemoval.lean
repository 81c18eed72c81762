import MeisterStack.Foundation.History
import MeisterStack.Foundation.Registry
import MeisterStack.ClusterController.SnapshotCopies

/-!
# What a removed snapshot leaves on the nodes

An order to take a snapshot is settled when the node refused it, or reported the copy gone after it
had handled the order. The object names one node, so the nodes it named before have to be settled
when it turns to another one, and a `Gone` has to be younger than every order.
-/

namespace MeisterStack.ClusterController.SnapshotCopies

open Foundation ControllerApi List Option Table Program

inductive Fate where
  | onWire
  | refused
  | accepted (time : Nat)
  deriving DecidableEq

structure Order where
  seq : Nat
  uid : String
  node : String
  fate : Fate
  deriving DecidableEq

structure Absence where
  uid : String
  node : String
  time : Nat

structure Ledger where
  orders : List Order
  gone : List Absence

def Order.handle (o : Order) (seq : Nat) (accepted : Bool) (time : Nat) : Order :=
  if o.seq = seq ∧ o.fate = .onWire then
    { o with fate := if accepted then .accepted time else .refused }
  else o

def ledger : Observer State Task Event Input Ledger where
  env s event l :=
    match event with
    | .handle seq refusal =>
      { l with orders := l.orders.map fun o => o.handle seq refusal.isNone s.time }
    | .report node snapshots =>
      let gone := snapshots.filter fun e => e.said = .gone
      { l with gone := (gone.map fun e => ⟨e.snapshot, node, s.time⟩) ++ l.gone }
    | _ => l
  task s t input l :=
    match t, input with
    | .send _ uid _ node, .go => { l with orders := ⟨s.sent, uid, node, .onWire⟩ :: l.orders }
    | _, _ => l

def ordered : Program (State × Ledger) Task Event Input := program.observed ledger

def Fate.Handled (p : Nat → Prop) : Fate → Prop
  | .onWire => False
  | .refused => True
  | .accepted time => p time

instance (p : Nat → Prop) [DecidablePred p] (fate : Fate) : Decidable (fate.Handled p) := by
  cases fate <;> dsimp only [Fate.Handled] <;> infer_instance

theorem Fate.Handled.imp {p q : Nat → Prop} {fate : Fate} (h : fate.Handled p)
    (hpq : ∀ time, p time → q time) : fate.Handled q := by
  cases fate with
  | onWire => exact h
  | refused => trivial
  | accepted time => exact hpq time h

variable (l : Ledger)

def Ledger.Settled (o : Order) : Prop :=
  o.fate.Handled fun time => ∃ g ∈ l.gone, g.uid = o.uid ∧ g.node = o.node ∧ time < g.time

instance (l : Ledger) (o) : Decidable (l.Settled o) :=
  inferInstanceAs (Decidable
    (o.fate.Handled fun time => ∃ g ∈ l.gone, g.uid = o.uid ∧ g.node = o.node ∧ time < g.time))

def Ledger.Fresh (uid : String) (r : StatusReport) : Prop :=
  ∀ o ∈ l.orders, o.uid = uid → o.node = r.node → o.fate.Handled (· < r.made)

instance (l : Ledger) (uid r) : Decidable (l.Fresh uid r) :=
  inferInstanceAs (Decidable
    (∀ o ∈ l.orders, o.uid = uid → o.node = r.node → o.fate.Handled (· < r.made)))

def oneCopy : Guard (State × Ledger) Task Event Input where
  env _ _ := True
  task s t _ :=
    match t with
    | .claim name v _ node => (s.1.snapshots.cell name).standsAt v.rev →
        ∀ o ∈ s.2.orders, o.uid = v.val.uid → o.node ≠ node → s.2.Settled o
    | .send _ uid _ node => ∀ e ∈ s.1.snapshots.list, e.2.val.uid = uid →
        e.2.val.deletedAt = none ∧ e.2.val.node = some node
    | .ingest r _ => ∀ e ∈ s.1.snapshots.list, r.saysGone e.2.val.uid →
        e.2.val.deletedAt.isSome → e.2.val.node = some r.node → s.2.Fresh e.2.val.uid r
    | .tombstone _ uid r _ => ∀ e ∈ s.1.snapshots.list, e.2.val.uid = uid →
        e.2.val.deletedAt = none → e.2.val.node = some r.node → s.2.Fresh uid r
    | _ => True

instance (s event) : Decidable (oneCopy.env s event) := .isTrue trivial

instance (s t input) : Decidable (oneCopy.task s t input) := by
  cases t <;> dsimp only [oneCopy] <;> infer_instance

inductive Wrote (s : State) : Task → State → Prop
  | nothing {t : Task} {s' : State} : s'.snapshots = s.snapshots → s'.drawn = s.drawn →
      s'.next = s.next → s'.reports = s.reports → Wrote s t s'
  | kept {t : Task} {name : String} {v : Versioned VolumeSnapshot} {x : VolumeSnapshot} :
      s.snapshots.cell name = some v → x.uid = v.val.uid → x.deletedAt = v.val.deletedAt →
      x.node = v.val.node → Wrote s t (s.put name x)
  | claimed {name volume node : String} {v : Versioned VolumeSnapshot} :
      (s.snapshots.cell name).standsAt v.rev →
      Wrote s (.claim name v volume node) (s.put name (v.val.sentTo node))
  | cleared {name : String} {r : StatusReport} {now : Instant} {v : Versioned VolumeSnapshot}
      {x : VolumeSnapshot} : s.snapshots.cell name = some v → v.val.deletedAt = none →
      v.val.node = some r.node → x.uid = v.val.uid → x.deletedAt = v.val.deletedAt →
      x.node = none → Wrote s (.tombstone name v.val.uid r now) (s.put name x)
  | removed {name : String} {still : Still} {d : Deletion VolumeSnapshot} :
      finishDelete VolumeSnapshot.uid (fun v => still.holds v && !v.finalizer)
        (s.snapshots.cell name) d = .removed →
      Wrote s (.finish name still d)
        { s with next := s.next + 1, snapshots := s.snapshots.remove name }

inductive Came (s : State) : Event → State → List Task → Prop
  | made {name uid volume : String} : s.snapshots.cell name = none → uid ∉ s.drawn →
      Came s (.createSnapshot name uid volume)
        { s.put name (.new uid volume) with drawn := uid :: s.drawn } []
  | deleting {e : Event} {name : String} {v : Versioned VolumeSnapshot} {x : VolumeSnapshot} :
      s.snapshots.cell name = some v → x.uid = v.val.uid → x.deletedAt.isSome →
      x.node = v.val.node → Came s e (s.put name x) []
  | reconciled {e : Event} {name : String} {v : Versioned VolumeSnapshot}
      {connected : List String} {delay : Option Nat} {now : Instant} :
      s.snapshots.cell name = some v →
      Came s e s (reconcileSnapshot name v connected delay now)
  | reported {node : String} {snapshots : List SnapshotState} :
      Came s (.report node snapshots)
        { s with reports := s.reports ++ [⟨node, s.time, snapshots⟩], time := s.time + 1 } []
  | delivered {e : Event} {r : StatusReport} {p : StatusReport → Bool} {now : Instant} :
      r ∈ s.reports → Came s e { s with reports := s.reports.eraseP p } [.ingest r now]
  | aside {e : Event} {s' : State} : s'.snapshots = s.snapshots → s'.drawn = s.drawn →
      s.next ≤ s'.next → s'.reports = s.reports → Came s e s' []

variable {s : State} {t : Task} {name uid : String}

theorem env_came {event s' new} (h : env s event = some (s', new)) : Came s event s' new := by
  cases event with
  | createSnapshot =>
    simp only [env] at h
    split at h <;> cases h
    rename_i hfree
    simp only [Bool.or_eq_true, not_or, Bool.not_eq_true, isSome_eq_false_iff,
      isNone_iff_eq_none, contains_eq_mem, decide_eq_false_iff_not] at hfree
    exact .made hfree.1 hfree.2
  | deleteSnapshot =>
    obtain ⟨v, hv, ⟨⟩⟩ := bind_eq_some_iff.mp h
    exact .deleting hv rfl (by simp) rfl
  | putVolume | removeVolume =>
    cases h
    exact .aside rfl rfl (Nat.le_succ _) rfl
  | reconcile =>
    obtain ⟨v, hv, heq⟩ := bind_eq_some_iff.mp h
    split at heq <;> cases heq
    exact .reconciled hv
  | handle =>
    simp only [env] at h
    split at h <;> cases h
    exact .aside rfl rfl le_rfl rfl
  | report =>
    cases h
    exact .reported
  | deliver =>
    obtain ⟨r, hr, ⟨⟩⟩ := bind_eq_some_iff.mp h
    exact .delivered (mem_of_find?_eq_some hr)

theorem mutate_wrote {edit} (hedit : ∀ v, s.snapshots.cell name = some v → v.val.uid = uid →
      Wrote s t (s.put name (edit v.val))) : Wrote s t (s.mutate name uid edit) := by
  unfold State.mutate
  split
  · rename_i v hv
    split
    · exact hedit v hv (by assumption)
    · exact .nothing rfl rfl rfl rfl
  · exact .nothing rfl rfl rfl rfl

theorem tombstone_wrote {r now} :
    Wrote s (.tombstone name uid r now) (s.mutate name uid (tombstone r now)) := by
  apply mutate_wrote
  rintro v hv rfl
  unfold tombstone
  split
  · exact .kept hv rfl rfl rfl
  · rename_i happlies
    simp only [ne_eq, not_or, not_not, Bool.not_eq_true, isSome_eq_false_iff,
      isNone_iff_eq_none] at happlies
    exact .cleared hv happlies.2 happlies.1 rfl rfl rfl

variable {s' : State}

theorem takeFinalizer_wrote {still next} (h : takeFinalizer s name uid still = (s', next)) :
    Wrote s (.takeFinalizer name uid still) s' := by
  unfold takeFinalizer at h
  split at h
  · rename_i v hv
    split at h
    · split at h <;> cases h <;> exact .kept hv rfl rfl rfl
    · cases h
      exact .nothing rfl rfl rfl rfl
  · cases h
    exact .nothing rfl rfl rfl rfl

theorem task_wrote {input next} (h : task s t input = some (s', next)) : Wrote s t s' := by
  cases input with
  | fail | lost => cases t <;> cases h <;> exact .nothing rfl rfl rfl rfl
  | go =>
    cases t with
    | claim =>
      simp only [task, claim, some.injEq] at h
      split at h <;> cases h
      · exact .claimed (by assumption)
      · exact .nothing rfl rfl rfl rfl
    | awaitAnswer =>
      obtain ⟨refusal, -, ⟨⟩⟩ := map_eq_some_iff.mp h
      exact .nothing rfl rfl rfl rfl
    | noteFailed | requeue =>
      cases h
      exact mutate_wrote fun v hv _ => .kept hv rfl rfl rfl
    | takeFinalizer => exact takeFinalizer_wrote (some.inj h)
    | finish =>
      simp only [task, finish, some.injEq] at h
      split at h <;> cases h
      · exact .removed (by assumption)
      all_goals exact .nothing rfl rfl rfl rfl
    | tombstone =>
      cases h
      exact tombstone_wrote
    | observe =>
      cases h
      refine mutate_wrote fun v hv _ => ?_
      unfold observe
      split <;> exact .kept hv rfl rfl rfl
    | findVolume | quiesce | send | sendDrop | ingest =>
      cases h
      exact .nothing rfl rfl rfl rfl

def identity : Identity VolumeSnapshot String where
  uid := VolumeSnapshot.uid
  Keeps v v' := v'.uid = v.uid ∧ (v.deletedAt.isSome → v'.deletedAt.isSome)
  refl _ := ⟨rfl, id⟩
  trans h h' := ⟨h'.1.trans h.1, fun hdeleting => h'.2 (h.2 hdeleting)⟩
  uid_eq h := h.1

def State.registry (s : State) : Registry String VolumeSnapshot String := ⟨s.snapshots, s.drawn⟩

abbrev Commit (s s' : State) : Prop :=
  Registry.Commit identity s.registry s.next s'.registry s'.next

def Task.Read (s : State) : Task → Prop
  | .claim name v _ _ => (s.snapshots.cell name).Saw s.next v
  | _ => True

theorem commit_same (hsnapshots : s'.snapshots = s.snapshots) (hdrawn : s'.drawn = s.drawn)
    (hnext : s.next ≤ s'.next) : Commit s s' := by
  have hregistry : s'.registry = s.registry := by simp [State.registry, hsnapshots, hdrawn]
  rw [Commit, hregistry]
  exact .same hnext

theorem Wrote.commit (h : Wrote s t s') (ht : t.Read s) : Commit s s' := by
  cases h with
  | nothing hsnapshots hdrawn hnext => exact commit_same hsnapshots hdrawn hnext.ge
  | kept hv huid hdeleted | cleared hv _ _ huid hdeleted =>
    exact .edited hv ⟨huid, fun h => hdeleted ▸ h⟩
  | claimed hstands => exact .edited (ht.eq_of_standsAt hstands) ⟨rfl, id⟩
  | removed => exact .removed

theorem Wrote.reports (h : Wrote s t s') : s'.reports = s.reports := by
  cases h with
  | nothing _ _ _ hreports => exact hreports
  | kept | claimed | cleared | removed => rfl

variable {event : Event} {new : List Task}

theorem Came.commit (h : Came s event s' new) : Commit s s' := by
  cases h with
  | @made name uid volume habsent hfresh =>
    exact .made (x := VolumeSnapshot.new uid volume) habsent hfresh
  | deleting hv huid hdeleted => exact .edited hv ⟨huid, fun _ => hdeleted⟩
  | reconciled | reported | delivered => exact .same le_rfl
  | aside hsnapshots hdrawn hnext => exact commit_same hsnapshots hdrawn hnext

def Ledger.Elsewhere (v : VolumeSnapshot) : Prop :=
  ∀ o ∈ l.orders, o.uid = v.uid → v.node ≠ some o.node → l.Settled o

def Ledger.Backs (r : StatusReport) : Prop :=
  ∀ uid, r.saysGone uid → ⟨uid, r.node, r.made⟩ ∈ l.gone

structure Accounted (s : State × Ledger) : Prop where
  sound : Registry.Sound identity s.1.registry s.1.next
  known : ∀ o ∈ s.2.orders, o.uid ∈ s.1.drawn
  elsewhere : ∀ name v, s.1.snapshots.cell name = some v → s.2.Elsewhere v.val
  reports : ∀ r ∈ s.1.reports, s.2.Backs r

def Released (s : State × Ledger) (uid node : String) : Prop :=
  uid ∈ s.1.drawn ∧ ∀ name v, s.1.snapshots.cell name = some v → v.val.uid = uid →
    v.val.deletedAt.isSome ∧ ∀ o ∈ s.2.orders, o.uid = uid → o.node = node → s.2.Settled o

def TaskOk (s : State × Ledger) : Task → Prop
  | .findVolume name v | .claim name v _ _ =>
    v.val.uid ∈ s.1.drawn ∧ (s.1.snapshots.cell name).Saw s.1.next v
  | .quiesce _ uid _ _ | .send _ uid _ _ => uid ∈ s.1.drawn
  | .takeFinalizer _ uid still => ∀ node, still = .goneHere node → Released s uid node
  | .finish name still d =>
    d.Judges VolumeSnapshot.uid (s.1.snapshots.cell name) s.1.next ∧
    ∀ node, still = .goneHere node → Released s d.checked.val.uid node
  | .ingest r _ => s.2.Backs r
  | .tombstone _ uid r _ => ⟨uid, r.node, r.made⟩ ∈ s.2.gone
  | .awaitAnswer _ _ _ | .noteFailed _ _ _ _ | .requeue _ _ _ | .sendDrop _ _
  | .observe _ _ _ _ _ _ => True

theorem TaskOk.read {s} (h : TaskOk s t) : t.Read s.1 := by
  cases t with
  | claim => exact h.2
  | _ => trivial

structure Later (s s' : State × Ledger) : Prop where
  commit : Commit s.1 s'.1
  gone : ∀ g ∈ s.2.gone, g ∈ s'.2.gone
  orders : ∀ o' ∈ s'.2.orders,
    (∃ o ∈ s.2.orders, o'.uid = o.uid ∧ o'.node = o.node ∧ (s.2.Settled o → s'.2.Settled o')) ∨
    o'.uid ∈ s.1.drawn ∧ ∀ name v, s'.1.snapshots.cell name = some v → v.val.uid = o'.uid →
      v.val.deletedAt = none ∧ v.val.node = some o'.node

section Steps

variable {s s' : State × Ledger}

theorem Released.keep (h : Later s s') {uid node} (hr : Released s uid node) :
    Released s' uid node := by
  refine ⟨h.commit.change.drawn_subset hr.1, fun name v hv huid => ?_⟩
  have hdeleting : v.val.deletedAt.isSome ∧
      ∀ o ∈ s.2.orders, o.uid = uid → o.node = node → s.2.Settled o := by
    obtain ⟨v0, hv0, huid0, hkeeps⟩ := h.commit.change.before hv hr.1 huid
    obtain ⟨hdeleting, hsettled⟩ := hr.2 name v0 hv0 (huid0.symm.trans huid)
    exact ⟨hkeeps hdeleting, hsettled⟩
  refine ⟨hdeleting.1, fun o' ho' houid honode => ?_⟩
  rcases h.orders o' ho' with ⟨o, ho, huid', hnode', hkeep⟩ | ⟨-, hsent⟩
  · exact hkeep (hdeleting.2 o ho (huid'.symm.trans houid) (hnode'.symm.trans honode))
  · obtain ⟨hstands, -⟩ := hsent name v hv (huid.trans houid.symm)
    rw [hstands] at hdeleting
    cases hdeleting.1

theorem Ledger.Backs.keep (h : Later s s') {r} (hr : s.2.Backs r) : s'.2.Backs r :=
  fun uid hgone => h.gone _ (hr uid hgone)

theorem TaskOk.keep (h : Later s s') {t} (ht : TaskOk s t) : TaskOk s' t := by
  have hdrawn : ∀ {uid : String}, uid ∈ s.1.drawn → uid ∈ s'.1.drawn := fun huid =>
    h.commit.change.drawn_subset huid
  cases t with
  | findVolume | claim => exact ⟨hdrawn ht.1, h.commit.saw ht.2⟩
  | quiesce | send => exact hdrawn ht
  | takeFinalizer => exact fun node heq => (ht node heq).keep h
  | finish =>
    exact ⟨ht.1.keep fun v => h.commit.saw, fun node heq => (ht.2 node heq).keep h⟩
  | ingest => exact Ledger.Backs.keep h ht
  | tombstone => exact h.gone _ ht
  | awaitAnswer | noteFailed | requeue | sendDrop | observe => trivial

theorem Accounted.keep (hs : Accounted s) (h : Later s s')
    (hplaced : ∀ name v, s'.1.snapshots.cell name = some v → s.2.Elsewhere v.val)
    (hreports : ∀ r ∈ s'.1.reports, s'.2.Backs r) : Accounted s' := by
  refine ⟨h.commit.sound hs.sound, fun o' ho' => ?_, fun name v hv o' ho' huid hnode => ?_,
    hreports⟩
  · apply h.commit.change.drawn_subset
    rcases h.orders o' ho' with ⟨o, ho, huid, -⟩ | ⟨hdrawn, -⟩
    · rw [huid]
      exact hs.known o ho
    · exact hdrawn
  · rcases h.orders o' ho' with ⟨o, ho, huid', hnode', hkeep⟩ | ⟨-, hsent⟩
    · rw [hnode'] at hnode
      exact hkeep (hplaced name v hv o ho (huid'.symm.trans huid) hnode)
    · exact absurd (hsent name v hv huid.symm).2 hnode

end Steps

theorem Order.handle_eq (o : Order) (seq accepted time) :
    (o.handle seq accepted time).uid = o.uid ∧ (o.handle seq accepted time).node = o.node ∧
      (o.fate ≠ .onWire → o.handle seq accepted time = o) := by
  unfold Order.handle
  split
  · rename_i h
    exact ⟨rfl, rfl, fun hne => absurd h.2 hne⟩
  · exact ⟨rfl, rfl, fun _ => rfl⟩

theorem Ledger.Settled.mono {l l' : Ledger} {o} (h : l.Settled o)
    (hgone : ∀ g ∈ l.gone, g ∈ l'.gone) : l'.Settled o := by
  refine Fate.Handled.imp h fun time ⟨g, hg, hrest⟩ => ?_
  exact ⟨g, hgone g hg, hrest⟩

theorem Ledger.Settled.handle {l l' : Ledger} {o} (h : l.Settled o)
    (hgone : ∀ g ∈ l.gone, g ∈ l'.gone) (seq accepted time) :
    l'.Settled (o.handle seq accepted time) := by
  have hfate : o.fate ≠ .onWire := by
    intro heq
    simp [Ledger.Settled, heq, Fate.Handled] at h
  rw [(o.handle_eq seq accepted time).2.2 hfate]
  exact h.mono hgone

section Step

variable {s s' : State × Ledger}

theorem Later.of_same_orders (hcommit : Commit s.1 s'.1) (horders : s'.2.orders = s.2.orders)
    (hgone : ∀ g ∈ s.2.gone, g ∈ s'.2.gone) : Later s s' := by
  refine ⟨hcommit, hgone, fun o ho => .inl ⟨o, ?_, rfl, rfl, fun h => h.mono hgone⟩⟩
  rwa [horders] at ho

theorem env_later (h : ordered.env s event = some (s', new)) : Later s s' := by
  obtain ⟨hstep, hledger⟩ := observed_env h
  have hcommit := (env_came hstep).commit
  have hsame : s'.2 = s.2 → Later s s' := by
    intro heq
    exact .of_same_orders hcommit (by rw [heq]) fun g hg => heq ▸ hg
  cases event with
  | handle seq refusal =>
    have hgone : ∀ g ∈ s.2.gone, g ∈ s'.2.gone := fun g hg => hledger ▸ hg
    refine ⟨hcommit, hgone, fun o' ho' => ?_⟩
    rw [hledger] at ho'
    obtain ⟨o, ho, rfl⟩ := mem_map.mp ho'
    obtain ⟨huid, hnode, -⟩ := o.handle_eq seq refusal.isNone s.1.time
    exact .inl ⟨o, ho, huid, hnode, fun hsettled => hsettled.handle hgone _ _ _⟩
  | report =>
    refine .of_same_orders hcommit (by rw [hledger]; rfl) fun g hg => ?_
    rw [hledger]
    exact mem_append_right _ hg
  | _ => exact hsame hledger

variable {name : String} {v : Versioned VolumeSnapshot} (hs : Accounted s)

include hs

theorem Accounted.put {k x} (hx : s.2.Elsewhere x)
    (hv : (s.1.put k x).snapshots.cell name = some v) :
    s.2.Elsewhere v.val := by
  rcases cell_put_cases hv with ⟨-, rfl⟩ | ⟨-, hv⟩
  · exact hx
  · exact hs.elsewhere name v hv

theorem env_elsewhere (h : env s.1 event = some (s'.1, new))
    (hv : s'.1.snapshots.cell name = some v) : s.2.Elsewhere v.val := by
  obtain ⟨s', l'⟩ := s'
  cases env_came h with
  | @made k uid volume habsent hfresh =>
    refine hs.put (x := .new uid volume) (fun o ho huid => ?_) hv
    have hdrawn := hs.known o ho
    rw [huid] at hdrawn
    exact absurd hdrawn hfresh
  | deleting hw huid _ hnode =>
    refine hs.put (fun o ho houid hne => ?_) hv
    rw [huid] at houid
    rw [hnode] at hne
    exact hs.elsewhere _ _ hw o ho houid hne
  | reconciled | reported | delivered => exact hs.elsewhere name v hv
  | aside hsnapshots =>
    rw [hsnapshots] at hv
    exact hs.elsewhere name v hv

theorem env_reports
    (h : ordered.env s event = some (s', new)) : ∀ r ∈ s'.1.reports, s'.2.Backs r := by
  have hlater := env_later h
  have hkeep : ∀ r ∈ s.1.reports, s'.2.Backs r := fun r hr => (hs.reports r hr).keep hlater
  obtain ⟨s', l'⟩ := s'
  obtain ⟨hstep, hledger⟩ := observed_env h
  intro r hr
  cases env_came hstep with
  | made | deleting | reconciled => exact hkeep r hr
  | aside _ _ _ hreports =>
    rw [hreports] at hr
    exact hkeep r hr
  | @reported node snapshots =>
    rcases mem_append.mp hr with hr | hr
    · exact hkeep r hr
    · cases mem_singleton.mp hr
      intro uid hgone
      obtain ⟨e, he, hsaid⟩ := any_eq_true.mp hgone
      simp only [Bool.and_eq_true, decide_eq_true_eq] at hsaid
      have hl : l' = (ledger.env s.1 (.report node snapshots) s.2) := hledger
      rw [hl]
      apply mem_append_left
      refine mem_map.mpr ⟨e, mem_filter.mpr ⟨he, by simp [hsaid.2]⟩, ?_⟩
      rw [hsaid.1]
  | delivered => exact hkeep r (mem_of_mem_eraseP hr)

theorem env_accounted
    (h : ordered.env s event = some (s', new)) : Accounted s' := by
  refine hs.keep (env_later h) (fun name v hv => ?_) (env_reports hs h)
  exact env_elsewhere hs (observed_env h).1 hv

theorem reconcile_taskOk {connected delay now} (hv : s.1.snapshots.cell name = some v) :
    ∀ t ∈ reconcileSnapshot name v connected delay now, TaskOk s t := by
  intro t ht
  unfold reconcileSnapshot dropSnapshot at ht
  split at ht
  · split at ht
    · cases mem_singleton.mp ht
      rintro node ⟨⟩
    · split at ht
      · cases mem_singleton.mp ht
        trivial
      · cases ht
  · split at ht
    · cases mem_singleton.mp ht
      exact ⟨hs.sound.drawn name v hv, hs.sound.saw hv⟩
    · split at ht
      · cases mem_singleton.mp ht
        trivial
      · cases ht
    · cases ht
    · cases ht

theorem env_taskOk
    (h : ordered.env s event = some (s', new)) : ∀ t ∈ new, TaskOk s' t := by
  have hlater := env_later h
  obtain ⟨s', l'⟩ := s'
  intro t ht
  cases env_came (observed_env h).1 with
  | reconciled hv => exact (reconcile_taskOk hs hv t ht).keep hlater
  | delivered hr =>
    cases mem_singleton.mp ht
    exact (hs.reports _ hr).keep hlater
  | made | deleting | reported | aside => cases ht

omit hs

theorem Ledger.Fresh.settled {l : Ledger} {uid} {r} (h : l.Fresh uid r)
    (hgone : ⟨uid, r.node, r.made⟩ ∈ l.gone) {o} (ho : o ∈ l.orders) (huid : o.uid = uid)
    (hnode : o.node = r.node) : l.Settled o :=
  (h o ho huid hnode).imp fun _ hbefore => ⟨_, hgone, huid.symm, hnode.symm, hbefore⟩

variable {t : Task} {input : Input} {next : List Task}

theorem task_later (ht : TaskOk s t) (hguard : oneCopy.task s t input)
    (h : ordered.task s t input = some (s', next)) : Later s s' := by
  obtain ⟨hstep, hledger⟩ := observed_task h
  have hcommit := (task_wrote hstep).commit ht.read
  simp only [ledger] at hledger
  split at hledger
  · rename_i name uid volume node
    refine ⟨hcommit, fun g hg => hledger ▸ hg, fun o' ho' => ?_⟩
    rw [hledger] at ho'
    rcases mem_cons.mp ho' with rfl | ho
    · refine .inr ⟨ht, fun k v hv huid => ?_⟩
      have hsnapshots : s'.1.snapshots = s.1.snapshots := by
        have heq := congrArg (fun r => r.map fun r => r.1.snapshots) hstep
        exact (some.inj heq).symm
      rw [hsnapshots] at hv
      exact hguard (k, v) (mem_list.mpr hv) huid
    · refine .inl ⟨o', ho, rfl, rfl, fun hsettled => hsettled.mono fun g hg => hledger ▸ hg⟩
  · exact .of_same_orders hcommit (by rw [hledger]) fun g hg => hledger ▸ hg

theorem task_elsewhere (hs : Accounted s) (ht : TaskOk s t) (hguard : oneCopy.task s t input)
    (h : task s.1 t input = some (s'.1, next))
    (hv : s'.1.snapshots.cell name = some v) : s.2.Elsewhere v.val := by
  obtain ⟨s', l'⟩ := s'
  cases task_wrote h with
  | nothing hsnapshots =>
    rw [hsnapshots] at hv
    exact hs.elsewhere name v hv
  | kept hw huid hdeleted hnode =>
    refine hs.put (fun o ho houid hne => ?_) hv
    rw [huid] at houid
    rw [hnode] at hne
    exact hs.elsewhere _ _ hw o ho houid hne
  | @claimed k volume node w hstands =>
    refine hs.put (x := w.val.sentTo node) (fun o ho houid hne => ?_) hv
    exact hguard hstands o ho houid fun heq => hne (congrArg some heq.symm)
  | @cleared k r now w x hw hstanding hat huid hdeleted hnode =>
    refine hs.put (fun o ho houid hne => ?_) hv
    rw [huid] at houid
    by_cases hhere : o.node = r.node
    · have hfresh := hguard (k, w) (mem_list.mpr hw) rfl hstanding hat
      exact hfresh.settled ht ho houid hhere
    · refine hs.elsewhere k w hw o ho houid fun heq => hhere ?_
      rw [hat] at heq
      exact (some.inj heq).symm
  | removed => exact hs.elsewhere name v (cell_of_remove hv).2

theorem findVolume_taskOk
    (ht : TaskOk s (.findVolume name v)) : ∀ u ∈ findVolume s.1 name v, TaskOk s u := by
  intro u hu
  unfold findVolume at hu
  split at hu
  · cases mem_singleton.mp hu
    trivial
  · split at hu
    · cases mem_singleton.mp hu
      exact ht
    · cases hu

theorem ingest_taskOk {r now} (hs : Accounted s) (ht : TaskOk s (.ingest r now))
    (hguard : oneCopy.task s (.ingest r now) input) : ∀ u ∈ ingest s.1 r now, TaskOk s u := by
  intro u hu
  obtain ⟨e, he, hu⟩ := mem_flatMap.mp hu
  split at hu
  · cases hu
  · rename_i listed hfind
    have hcell := mem_list.mp (mem_of_find?_eq_some hfind)
    have huid : listed.2.val.uid = e.snapshot := by simpa using find?_some hfind
    unfold ingestOne at hu
    split at hu
    · cases hu
    · rename_i hnode
      split at hu
      · cases hu
      · split at hu
        · rename_i hsaid
          have hgone : r.saysGone listed.2.val.uid :=
            any_eq_true.mpr ⟨e, he, by simp [huid, hsaid]⟩
          split at hu
          · rename_i hdeleting
            cases mem_singleton.mp hu
            rintro node ⟨⟩
            have his := hs.sound.is hcell
            refine ⟨his.1, fun k v hv hsame => ⟨(his.2 k v hv hsame).2.2 hdeleting, ?_⟩⟩
            have hfresh := hguard listed (mem_list.mpr hcell) hgone hdeleting
              (not_not.mp hnode)
            exact fun o ho houid honode => hfresh.settled (ht _ hgone) ho houid honode
          · cases mem_singleton.mp hu
            exact ht _ hgone
        · cases hu
        · dsimp only at hu
          split at hu
          · cases hu
          · cases mem_singleton.mp hu
            trivial

theorem takeFinalizer_taskOk {uid still} (hs' : Accounted s')
    (ht : TaskOk s' (.takeFinalizer name uid still))
    (h : takeFinalizer s.1 name uid still = (s'.1, next)) : ∀ u ∈ next, TaskOk s' u := by
  obtain ⟨s', l'⟩ := s'
  intro u hu
  unfold takeFinalizer at h
  split at h
  · rename_i v hv
    split at h
    · rename_i huid
      split at h <;> cases h
      · cases mem_singleton.mp hu
        refine ⟨?_, fun node heq => ?_⟩
        · exact Deletion.judges_of (hs'.sound.saw (cell_put_self _ _ _ _))
        · rw [← huid] at ht
          exact ht node heq
      · cases hu
    · cases h
      cases hu
  · cases h
    cases hu

theorem finish_taskOk {still d} (hs' : Accounted s') (ht : TaskOk s' (.finish name still d))
    (h : finish s.1 name still d = (s'.1, next)) : ∀ u ∈ next, TaskOk s' u := by
  obtain ⟨s', l'⟩ := s'
  intro u hu
  unfold finish at h
  split at h <;> cases h
  · cases hu
  · cases hu
  · rename_i d' hagain
    cases mem_singleton.mp hu
    refine ⟨Deletion.judges_again (hs'.sound.below name) hagain, fun node heq => ?_⟩
    rw [(finishDelete_again hagain).1]
    exact ht.2 node heq

theorem task_accounted (hs : Accounted s) (ht : TaskOk s t) (hguard : oneCopy.task s t input)
    (h : ordered.task s t input = some (s', next)) : Accounted s' := by
  have hlater := task_later ht hguard h
  have hstep := (observed_task h).1
  refine hs.keep hlater (fun name v hv => task_elsewhere hs ht hguard hstep hv) fun r hr => ?_
  rw [(task_wrote hstep).reports] at hr
  exact (hs.reports r hr).keep hlater

theorem task_taskOk (hs : Accounted s) (ht : TaskOk s t) (hguard : oneCopy.task s t input)
    (h : ordered.task s t input = some (s', next)) : ∀ u ∈ next, TaskOk s' u := by
  have hlater := task_later ht hguard h
  have hs' := task_accounted hs ht hguard h
  have ht' := ht.keep hlater
  obtain ⟨s', l'⟩ := s'
  have hstep := (observed_task h).1
  intro u hu
  cases t with
  | findVolume =>
    cases input <;> cases hstep
    · exact (findVolume_taskOk ht u hu).keep hlater
    · cases hu
    · cases hu
  | claim =>
    cases input with
    | go =>
      simp only [program, task, claim, some.injEq] at hstep
      split at hstep <;> cases hstep
      · cases mem_singleton.mp hu
        exact ht'.1
      · cases hu
    | fail | lost =>
      cases hstep
      cases hu
  | quiesce =>
    cases input with
    | go =>
      cases hstep
      cases mem_singleton.mp hu
      exact ht'
    | fail =>
      cases hstep
      cases hu
    | lost =>
      cases hstep
      cases mem_singleton.mp hu
      trivial
  | send =>
    cases input <;> cases hstep <;> cases mem_singleton.mp hu <;> trivial
  | awaitAnswer =>
    cases input with
    | go =>
      obtain ⟨refusal, -, ⟨⟩⟩ := map_eq_some_iff.mp hstep
      obtain ⟨why, -, rfl⟩ := mem_map.mp hu
      trivial
    | fail | lost =>
      cases hstep
      cases mem_singleton.mp hu
      trivial
  | takeFinalizer =>
    cases input with
    | go => exact takeFinalizer_taskOk hs' ht' (some.inj hstep) u hu
    | fail | lost =>
      cases hstep
      cases hu
  | finish =>
    cases input with
    | go => exact finish_taskOk hs' ht' (some.inj hstep) u hu
    | fail | lost =>
      cases hstep
      cases hu
  | ingest =>
    cases input with
    | go =>
      cases hstep
      exact (ingest_taskOk hs ht hguard u hu).keep hlater
    | fail | lost =>
      cases hstep
      cases hu
  | noteFailed | requeue | sendDrop | tombstone | observe =>
    cases input <;> cases hstep <;> cases hu

end Step

theorem copiesOutline : ordered.Outline oneCopy Accounted TaskOk where
  env hs _ h := ⟨env_accounted hs h, env_taskOk hs h, fun _ ht => ht.keep (env_later h)⟩
  task hs ht hguard h :=
    ⟨task_accounted hs ht hguard h, task_taskOk hs ht hguard h,
      fun _ hu => hu.keep (task_later ht hguard h)⟩

theorem Came.keeps_snapshot (h : Came s event s' new)
    (hgone : s'.snapshots.cell name = none) : s.snapshots.cell name = none := by
  cases h with
  | made | deleting => exact cell_of_put_none hgone
  | reconciled | reported | delivered => exact hgone
  | aside hsnapshots => rwa [← hsnapshots]

theorem Wrote.removes (h : Wrote s t s')
    (hgone : s'.snapshots.cell name = none) : s.snapshots.cell name = none ∨
      ∃ still d, t = .finish name still d ∧
        finishDelete VolumeSnapshot.uid (fun v => still.holds v && !v.finalizer)
          (s.snapshots.cell name) d = .removed := by
  cases h with
  | nothing hsnapshots =>
    rw [← hsnapshots]
    exact .inl hgone
  | kept | claimed | cleared => exact .inl (cell_of_put_none hgone)
  | @removed k still d hremoved =>
    by_cases hname : name = k
    · subst hname
      exact .inr ⟨still, d, rfl, hremoved⟩
    · rw [cell_remove_ne _ hname] at hgone
      exact .inl hgone

theorem removed_settled {s still d v} (hs : Accounted s) (ht : TaskOk s (.finish name still d))
    (hv : s.1.snapshots.cell name = some v)
    (hremoved : finishDelete VolumeSnapshot.uid (fun v => still.holds v && !v.finalizer)
      (s.1.snapshots.cell name) d = .removed) :
    ∀ o ∈ s.2.orders, o.uid = v.val.uid → s.2.Settled o := by
  obtain ⟨huid, hconcluded⟩ := ht.1.removed hremoved hv
  simp only [Bool.and_eq_true] at hconcluded
  intro o ho houid
  by_cases hnode : v.val.node = some o.node
  · cases still with
    | unplaced =>
      simp only [Still.holds, Bool.and_eq_true, isNone_iff_eq_none] at hconcluded
      rw [hconcluded.1.2] at hnode
      cases hnode
    | goneHere node =>
      simp only [Still.holds, Bool.and_eq_true, decide_eq_true_eq] at hconcluded
      rw [hconcluded.1.2] at hnode
      cases hnode
      obtain ⟨-, hreleased⟩ := ht.2 o.node rfl
      exact (hreleased name v hv huid).2 o ho (houid.trans huid) rfl
  · exact hs.elsewhere name v hv o ho houid hnode

def empty : World (State × Ledger) Task := ⟨(⟨0, [], ∅, ∅, 0, [], [], 0, []⟩, ⟨[], []⟩), []⟩

theorem empty_holds : Holds Accounted TaskOk empty := by
  refine ⟨⟨⟨?_, ?_, ?_⟩, by simp [empty], ?_, by simp [empty]⟩, by simp [empty]⟩
  · rintro k v ⟨⟩
  · rintro k v ⟨⟩
  · rintro k k' v v' ⟨⟩
  · rintro name v ⟨⟩

/-- In every run, with the commands and the reports of the nodes delayed and lost in any way: when a
snapshot leaves the store, each node that was sent an order for it refused it, or handled it and
then reported that the copy is gone. Provided the snapshot turns to its nodes, is sent to them and
is judged by their reports as `oneCopy` says. -/
theorem removed_snapshot_has_no_copies {ms : List (Move Event Input)} {m : Move Event Input}
    {w w' : World (State × Ledger) Task} (hmeets : ordered.RunMeets oneCopy empty ms)
    (hrun : ordered.run empty ms = some w) (hstep : ordered.step w m = some w') {name : String}
    {v : Versioned VolumeSnapshot} (hv : w.shared.1.snapshots.cell name = some v)
    (hgone : w'.shared.1.snapshots.cell name = none) {o : Order} (ho : o ∈ w.shared.2.orders)
    (huid : o.uid = v.val.uid) (hkept : o.fate ≠ .refused) :
    ∃ handled g, o.fate = .accepted handled ∧ g ∈ w.shared.2.gone ∧ g.uid = v.val.uid ∧
      g.node = o.node ∧ handled < g.time := by
  rcases ordered.step_cases hstep with ⟨event, new, rfl, henv, -⟩ |
    ⟨index, input, t, next, rfl, ht, htask, -⟩ | ⟨index, rfl, hshared, -⟩
  · rw [(env_came (observed_env henv).1).keeps_snapshot hgone] at hv
    cases hv
  · obtain ⟨hs, htasks⟩ := copiesOutline.run empty_holds hmeets hrun
    rcases (task_wrote (observed_task htask).1).removes hgone with
      habsent | ⟨still, d, rfl, hremoved⟩
    · rw [habsent] at hv
      cases hv
    · have hsettled := removed_settled hs (htasks _ (mem_of_getElem? ht)) hv hremoved o ho huid
      unfold Ledger.Settled at hsettled
      cases hfate : o.fate with
      | onWire =>
        rw [hfate] at hsettled
        exact hsettled.elim
      | refused => exact absurd hfate hkept
      | accepted handled =>
        rw [hfate] at hsettled
        obtain ⟨g, hg, hguid, hgnode, htime⟩ := hsettled
        exact ⟨handled, g, rfl, hg, hguid.trans huid, hgnode, htime⟩
  · rw [hshared, hv] at hgone
    cases hgone

def orderedAtA : List (Move Event Input) :=
  [.env (.putVolume "v" ⟨"uv", some "a", true⟩), .env (.createSnapshot "x" "ux" "v"),
    .env (.reconcile "x" [] [] none 0), .task 0 .go, .task 0 .go, .task 0 .go, .task 0 .go,
    .env (.handle 0 none)]

def droppedBy (node : String) (seq : Nat) : List (Move Event Input) :=
  [.env (.deleteSnapshot "x" 2), .env (.reconcile "x" [node] [node] none 2), .task 0 .go,
    .env (.handle seq none), .env (.report node [⟨"ux", .gone, .dropped, none, "", 0⟩]),
    .env (.deliver node 3), .task 0 .go, .task 0 .go]

def orderedAgainAtB : List (Move Event Input) :=
  [.task 0 (.lost "timeout"), .task 0 .go, .env (.reconcile "x" ["a"] [] none 1), .task 0 .go,
    .env (.putVolume "v" ⟨"uv", some "b", true⟩), .env (.reconcile "x" ["a"] [] none 1),
    .task 0 .go, .task 0 .go, .task 0 .go, .task 0 .go, .env (.handle 1 none), .task 0 .go]

theorem removed_snapshot_has_no_copies_dropped :
    ∃ w w' v o, ordered.run empty (orderedAtA ++ [.task 0 .go] ++ droppedBy "a" 1) = some w ∧
      ordered.step w (.task 0 .go) = some w' ∧ w.shared.1.snapshots.cell "x" = some v ∧
      w'.shared.1.snapshots.cell "x" = none ∧ w.shared.2.orders = [o] ∧ o.uid = v.val.uid ∧
      o.node = "a" ∧ o.fate = .accepted 0 ∧
      ∃ g ∈ w.shared.2.gone, g.uid = "ux" ∧ g.node = "a" ∧ 0 < g.time := by
  have hmeets :
      ordered.RunMeets oneCopy empty (orderedAtA ++ [.task 0 .go] ++ droppedBy "a" 1) := by decide
  obtain ⟨w, hrun, hv, horders⟩ : ∃ w,
      ordered.run empty (orderedAtA ++ [.task 0 .go] ++ droppedBy "a" 1) = some w ∧
      w.shared.1.snapshots.cell "x" = some ⟨4, ⟨"ux", "v", some 2, false, some "a",
        some (.here .creating .dispatched (some ("a" ++ " was told"))), "", 0, none, Sat.zero,
        none⟩⟩ ∧
      w.shared.2.orders = [⟨0, "ux", "a", .accepted 0⟩] := ⟨_, rfl, rfl, rfl⟩
  obtain ⟨w', hstep, hgone⟩ : ∃ w', ordered.step w (.task 0 .go) = some w' ∧
      w'.shared.1.snapshots.cell "x" = none := by
    cases hrun
    exact ⟨_, rfl, rfl⟩
  obtain ⟨handled, g, hfate, hg, huid, hnode, htime⟩ :=
    removed_snapshot_has_no_copies hmeets hrun hstep hv hgone (o := ⟨0, "ux", "a", .accepted 0⟩)
      (by simp [horders]) rfl (by decide)
  cases hfate
  exact ⟨w, w', _, _, hrun, hstep, hv, hgone, horders, rfl, rfl, rfl, g, hg, huid, hnode, htime⟩

theorem removed_snapshot_leaves_copy :
    ∃ w w' v, ordered.run empty (orderedAtA ++ orderedAgainAtB ++ droppedBy "b" 2) = some w ∧
      ordered.step w (.task 0 .go) = some w' ∧ w.shared.1.snapshots.cell "x" = some v ∧
      v.val.uid = "ux" ∧ w'.shared.1.snapshots.cell "x" = none ∧
      ⟨0, "ux", "a", .accepted 0⟩ ∈ w.shared.2.orders ∧ ∀ g ∈ w.shared.2.gone, g.node = "b" := by
  refine ⟨_, _, _, rfl, rfl, rfl, rfl, rfl, ?_, ?_⟩ <;> decide

end MeisterStack.ClusterController.SnapshotCopies
