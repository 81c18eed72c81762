import MeisterStack.ControllerApi.VmUpdates

/-!
# The shape of a VM for life

Whatever stands under a uid has the shape its VM was created with, in every interleaving of creates,
updates at one tier, hand-downs to a cluster and other writers. Only the cloud's hand-downs change
the address lists of NICs, and only on the VMs it manages.
-/

namespace MeisterStack.ControllerApi.VmShape

open Foundation List Except Option Call.Safe Resource Site

inductive Tier where
  | cluster
  | cloud
  deriving DecidableEq

inductive Request where
  | create (name : String) (vm : StoredVm)
  | clusterPut (checks : ClusterChecks) (name : String) (dry : Bool) (body : Manifest)
  | clusterPatch (checks : Nat → ClusterChecks) (name : String) (dry : Bool) (patch : Json)
  | cloudPut (checks : CloudChecks) (name : String) (dry : Bool) (body : Manifest)
  | cloudPatch (checks : Nat → CloudChecks) (name : String) (dry : Bool) (patch : Json)
  | handDown (command : CreateVm)

def Request.servedAt : Request → Tier → Bool
  | .create .., _ => true
  | .clusterPut .., tier | .clusterPatch .., tier | .handDown _, tier => tier = .cluster
  | .cloudPut .., tier | .cloudPatch .., tier => tier = .cloud

inductive Answer where
  | api (result : Except ApiError StoredVm)
  | session (result : Except String Unit)

section Sites

variable (T : Resource VmBody) (serde : Serde)

def createVm (name : String) (vm : StoredVm) : ApiCall :=
  (T.create name vm).bind fun
    | .error why => .ret (.error (ofStore why))
    | .ok written => .ret (.ok written.val)

def Request.call : Request → Call String StoredVm Fault Answer
  | .create name vm => (createVm T name vm).map .api
  | .clusterPut checks name dry body => (updateVm T (clusterEdge checks) name dry body).map .api
  | .clusterPatch checks name dry patch =>
    (patchVm T serde (fun attempt => clusterEdge (checks attempt)) name dry patch).map .api
  | .cloudPut checks name dry body => (updateVm T (cloudEdge checks) name dry body).map .api
  | .cloudPatch checks name dry patch =>
    (patchVm T serde (fun attempt => cloudEdge (checks attempt)) name dry patch).map .api
  | .handDown command => (handleCreate T command).map .session

def others (store : Store String StoredVm) (name : String) : Option StoredVm → Bool
  | none => true
  | some vm =>
    (store.cell name).any fun found =>
      found.val.uid = vm.uid && found.val.cloudUid = vm.cloudUid &&
        found.val.body.spec.vm = vm.body.spec.vm

def site (tier : Tier) : System Request String StoredVm Fault Answer where
  writes := others
  begins _ request := if request.servedAt tier then some (request.call T serde) else none

end Sites

abbrev VmSite := Site Request String StoredVm Answer

section Shapes

variable (tier : Tier) (born : String → Json)

structure AsBorn (vm : StoredVm) : Prop where
  shape : shape vm.body.spec.vm = withoutNicLists (born vm.uid)
  whole : tier = .cloud ∨ vm.cloudUid = none → frozenVmShape vm.body.spec.vm = born vm.uid

def Legal (_ : Store String StoredVm) (_ : Option Request) (_ : String) (new : Option StoredVm) :
    Prop :=
  ∀ vm ∈ new, AsBorn tier born vm

def Request.creates : Request → Bool
  | .create _ _ | .handDown _ => true
  | _ => false

def CreatedAsBorn (store : Store String StoredVm) (who : Request) (name : String) (expect : Nat)
    (new : Option StoredVm) : Prop :=
  who.creates → expect = 0 → (store.cell name).revision = 0 →
    ∀ vm ∈ new, frozenVmShape vm.body.spec.vm = born vm.uid

structure AllBorn (s : VmSite) : Prop where
  sound : s.store.Sound
  stored : ∀ name v, s.store.cell name = some v → AsBorn tier born v.val

variable {tier born}

theorem AsBorn.of_frozen {vm} (h : frozenVmShape vm.body.spec.vm = born vm.uid) :
    AsBorn tier born vm :=
  ⟨by rw [shape_eq, h], fun _ => h⟩

theorem AllBorn.next {s s'} (h : AllBorn tier born s) (hnext : Next (Legal tier born) s s') :
    AllBorn tier born s' := by
  cases hnext with
  | answer => exact ⟨h.sound, h.stored⟩
  | commit who name new hlegal =>
    refine ⟨h.sound.commit name new, fun name' v hv => ?_⟩
    rw [commit_store] at hv
    by_cases hname : name' = name
    · subst hname
      rw [Store.cell_commit_self] at hv
      cases new with
      | none => cases hv
      | some vm =>
        cases hv
        exact hlegal vm rfl
    · rw [Store.cell_commit_ne s.store hname] at hv
      exact h.stored name' v hv

theorem AllBorn.later {s s'} (h : AllBorn tier born s) (hl : Later (Legal tier born) s s') :
    AllBorn tier born s' :=
  hl.keep (AllBorn tier born) h fun hnext hs => hs.next hnext

theorem then_ok {ε β : Type} {first} {rest : Except ε β} {b}
    (h : (first >>= fun _ => rest) = .ok b) : first = .ok () ∧ rest = .ok b := by
  cases first with
  | error => cases h
  | ok => exact ⟨rfl, h⟩

structure Edge.Keeps (tier : Tier) (edge : Edge) : Prop where
  uid : ∀ {current body next}, edge.judge current body = .ok next → next.uid = current.val.uid
  owner : ∀ {current body next}, edge.judge current body = .ok next →
    tier = .cloud ∨ next.cloudUid = none → tier = .cloud ∨ current.val.cloudUid = none
  spec : ∀ {current body next}, edge.judge current body = .ok next → next.body.spec = body.spec
  owned : ∀ {current body next}, edge.judge current body = .ok next →
    ∀ row ∈ edge.owned, row.allows (storedDocument current) body.document
  frozen : Owned.structural "spec.vm" frozenBecause vmShapeUnchanged ∈ edge.owned

variable {edge : Edge} {current : Versioned StoredVm} {body : Manifest} {next : StoredVm}

theorem Edge.Keeps.unchanged (h : edge.Keeps tier) (hok : edge.judge current body = .ok next) :
    vmShapeUnchanged current.val.body.spec.vm next.body.spec.vm := by
  rw [h.spec hok]
  exact frozen_of_allows h.frozen (h.owned hok)

theorem Edge.Keeps.asBorn (h : edge.Keeps tier) (hok : edge.judge current body = .ok next)
    (hborn : AsBorn tier born current.val) : AsBorn tier born next := by
  refine ⟨?_, fun howner => ?_⟩
  · rw [h.uid hok, shape_of_vmShapeUnchanged (h.unchanged hok)]
    exact hborn.shape
  · rw [h.uid hok, ← of_decide_eq_true (h.unchanged hok)]
    exact hborn.whole (h.owner hok howner)

theorem clusterJudge_ok {checks} (h : clusterJudge checks current body = .ok next) :
    refuseIfCloudOwned current.val = .ok () ∧
      checkOwned (storedDocument current) body.document clusterVmOwned = .ok () ∧
      next = carried current.val body current.val.body.status := by
  obtain ⟨hlocal, h⟩ := then_ok h
  obtain ⟨-, h⟩ := then_ok h
  obtain ⟨-, h⟩ := then_ok h
  obtain ⟨howned, h⟩ := then_ok h
  obtain ⟨-, h⟩ := then_ok h
  obtain ⟨-, h⟩ := then_ok h
  obtain ⟨-, h⟩ := then_ok h
  exact ⟨hlocal, howned, (ok.inj h).symm⟩

theorem cloudJudge_ok {checks} (h : cloudJudge checks current body = .ok next) :
    checkOwned (storedDocument current) body.document cloudVmOwned = .ok () ∧
      next = carried current.val body
        (releaseBinding current.val.body.spec body.spec current.val.body.status) := by
  obtain ⟨-, h⟩ := then_ok h
  obtain ⟨howned, h⟩ := then_ok h
  obtain ⟨-, h⟩ := then_ok h
  obtain ⟨-, h⟩ := then_ok h
  obtain ⟨-, h⟩ := then_ok h
  exact ⟨howned, (ok.inj h).symm⟩

theorem clusterEdge_keeps (checks) : (clusterEdge checks).Keeps .cluster where
  uid h := by
    rw [(clusterJudge_ok h).2.2]
    rfl
  owner h _ := by
    have hlocal := (clusterJudge_ok h).1
    unfold refuseIfCloudOwned at hlocal
    split at hlocal
    · cases hlocal
    · rename_i hnone
      exact .inr (not_isSome_iff_eq_none.mp hnone)
  spec h := by
    rw [(clusterJudge_ok h).2.2]
    rfl
  owned h := checkOwned_ok (clusterJudge_ok h).2.1
  frozen := mem_cons_self

theorem cloudEdge_keeps (checks) : (cloudEdge checks).Keeps .cloud where
  uid h := by
    rw [(cloudJudge_ok h).2]
    rfl
  owner _ _ := .inl rfl
  spec h := by
    rw [(cloudJudge_ok h).2]
    rfl
  owned h := checkOwned_ok (cloudJudge_ok h).1
  frozen := mem_cons_self

def Edge.OnlyUnbinds (edge : Edge) : Prop :=
  ∀ current body prepared next, edge.prepare body = .ok prepared →
    edge.judge current prepared = .ok next →
    body.spec = edge.unbound current.val.body.spec →
    next.body.spec = edge.unbound current.val.body.spec ∧
      ∀ row ∈ edge.owned, row.path ≠ edge.binding → ∀ rev,
        (storedDocument ⟨rev, next⟩).atPath row.path = (storedDocument current).atPath row.path

theorem onlyUnbinds_of (hspec : ∀ current body prepared next, edge.prepare body = .ok prepared →
      edge.judge current prepared = .ok next → body.spec = edge.unbound current.val.body.spec →
      next.body.spec = edge.unbound current.val.body.spec)
    (hpaths : ∀ row ∈ edge.owned, row.path ≠ edge.binding → ∃ field,
      Json.segments row.path = ["spec", field] ∧
        ∀ spec, (edge.unbound spec).members.lookup field = spec.members.lookup field) :
    edge.OnlyUnbinds := by
  intro current body prepared next hprepare hjudge honly
  have hnext := hspec current body prepared next hprepare hjudge honly
  refine ⟨hnext, fun row hrow hpath rev => ?_⟩
  obtain ⟨field, hsegments, hlookup⟩ := hpaths row hrow hpath
  rw [storedDocument, storedDocument, atPath_spec _ _ _ hsegments, atPath_spec _ _ _ hsegments,
    hnext, hlookup]

theorem clusterEdge_onlyUnbinds (checks) : (clusterEdge checks).OnlyUnbinds := by
  apply onlyUnbinds_of
  · intro current body prepared next hprepare hjudge honly
    cases hprepare
    rw [(clusterEdge_keeps checks).spec hjudge, honly]
  · intro row hrow hpath
    simp only [clusterEdge, clusterVmOwned, mem_cons, not_mem_nil, or_false] at hrow
    rcases hrow with rfl | rfl | rfl | rfl
    · exact ⟨"vm", by decide, fun spec => lookup_unbound_node spec (by decide)⟩
    · exact ⟨"nodeSelector", by decide, fun spec => lookup_unbound_node spec (by decide)⟩
    · exact absurd rfl hpath
    · exact ⟨"clusterName", by decide, fun spec => lookup_unbound_node spec (by decide)⟩

theorem cloudPrepare_ok {checks prepared} (h : cloudPrepare checks body = .ok prepared) :
    malformedVolumeReference body.spec.vm = none ∧
      prepared = { body with spec.vm := resolveBaseImages checks.sources body.spec.vm } := by
  obtain ⟨-, h⟩ := then_ok h
  obtain ⟨-, h⟩ := then_ok h
  obtain ⟨hshape, h⟩ := then_ok h
  obtain ⟨-, h⟩ := then_ok h
  refine ⟨?_, (ok.inj h).symm⟩
  unfold checkVmShape at hshape
  split at hshape
  · cases hshape
  · assumption

theorem cloudEdge_onlyUnbinds (checks) : (cloudEdge checks).OnlyUnbinds := by
  apply onlyUnbinds_of
  · intro current body prepared next hprepare hjudge honly
    obtain ⟨hwell, rfl⟩ := cloudPrepare_ok hprepare
    have hunchanged := (cloudEdge_keeps checks).unchanged hjudge
    rw [(cloudEdge_keeps checks).spec hjudge] at hunchanged ⊢
    -- the images are resolved again, which the comparison would have shown
    have hvm : body.spec.vm = current.val.body.spec.vm := by rw [honly]; rfl
    dsimp only at hunchanged ⊢
    rw [← hvm] at hunchanged
    rw [resolveBaseImages_eq_self hwell hunchanged]
    exact honly
  · intro row hrow hpath
    simp only [cloudEdge, cloudVmOwned, mem_cons, not_mem_nil, or_false] at hrow
    rcases hrow with rfl | rfl | rfl | rfl
    · exact ⟨"vm", by decide, fun spec => lookup_unbound_cluster spec (by decide)⟩
    · exact ⟨"clusterSelector", by decide, fun spec => lookup_unbound_cluster spec (by decide)⟩
    · exact ⟨"tenant", by decide, fun spec => lookup_unbound_cluster spec (by decide)⟩
    · exact absurd rfl hpath

section Calls

variable {settle : VmSpec → VmStatus → VmStatus} {serde : Serde} {who : Request}
  {own : List (Commit Request String StoredVm)} {s : VmSite}

abbrev Lawful {ρ : Type} (tier : Tier) (born : String → Json) (who : Request)
    (own : List (Commit Request String StoredVm)) (s : VmSite)
    (call : Call String StoredVm Fault ρ) : Prop :=
  call.Safe (Legal tier born) (CreatedAsBorn born) who (fun _ _ _ => True) own s

theorem AsBorn.encode {vm} (h : AsBorn tier born vm) :
    AsBorn tier born ((vms settle).encode vm) := ⟨h.shape, h.whole⟩

theorem lawful_ret {ρ : Type} (answer : ρ) : Lawful tier born who own s (.ret answer) :=
  fun _ _ => trivial

theorem lawful_get {ρ : Type} {name}
    {f : Except StoreError (Versioned StoredVm) → Call String StoredVm Fault ρ}
    (hs : AllBorn tier born s)
    (herror : ∀ s' why, AllBorn tier born s' → Lawful tier born who own s' (f (.error why)))
    (hok : ∀ s' current, AllBorn tier born s' → AsBorn tier born current.val →
      Lawful tier born who own s' (f (.ok current))) :
    Lawful tier born who own s (((vms settle).get name).bind f) := by
  refine .bind (get_safe (stable _) ?_ ?_ ?_)
  · exact fun s' why hl => herror s' _ (hs.later hl)
  · exact fun s' hl _ => herror s' _ (hs.later hl)
  · exact fun s' current hl hcell =>
      hok s' current (hs.later hl) ((hs.later hl).stored name current hcell)

theorem updateVm_lawful {edge} (hkeeps : edge.Keeps tier) (hs : AllBorn tier born s)
    (name dry body) :
    Lawful tier born who own s (updateVm (vms settle) edge name dry body) := by
  unfold updateVm
  split
  · exact lawful_ret _
  split
  · exact lawful_ret _
  rename_i prepared _
  refine lawful_get hs (fun s' why _ => lawful_ret _) fun s' current hs' hborn => ?_
  dsimp only
  split
  · exact lawful_ret _
  rename_i next hjudge
  split
  · exact lawful_ret _
  unfold writeUnder
  split
  · exact lawful_ret _
  refine .bind (update_safe (stable _) ?_ ?_)
  · intro s'' own answer _
    cases answer <;> exact lawful_ret _
  · rintro s'' - - - vm ⟨⟩
    exact (hkeeps.asBorn hjudge hborn).encode

theorem patchVm_lawful {edges} (hkeeps : ∀ attempt, (edges attempt).Keeps tier)
    (hs : AllBorn tier born s) (name dry patch) :
    Lawful tier born who own s (patchVm (vms settle) serde edges name dry patch) := by
  have honce : ∀ (s' : VmSite) own attempt, AllBorn tier born s' →
      Lawful tier born who own s'
        (patchOnce (vms settle) serde (edges attempt) name dry patch) := by
    intro s' own attempt hs'
    refine lawful_get hs' (fun s'' why _ => lawful_ret _) fun s'' current hs'' _ => ?_
    dsimp only
    split
    · exact lawful_ret _
    · exact updateVm_lawful (hkeeps attempt) hs'' name dry _
  suffices hloop : ∀ left (s' : VmSite) own, AllBorn tier born s' →
      Lawful tier born who own s' (patchLoop (vms settle) serde edges name dry patch left) from
    hloop _ s own hs
  intro left
  induction left with
  | zero => exact fun s' own hs' => honce s' own 0 hs'
  | succ left ih =>
    intro s' own hs'
    refine .bind ((honce s' own (left + 1) hs').mono fun s'' own answer hl _ => ?_)
    cases answer with
    | ok => exact lawful_ret _
    | error =>
      dsimp only
      split
      · exact ih s'' own (hs'.later hl)
      · exact lawful_ret _

theorem createVm_lawful {name vm} :
    Lawful tier born (.create name vm) own s (createVm (vms settle) name vm) := by
  refine .bind (create_safe (stable _) ?_ ?_)
  · intro s' own answer _
    cases answer <;> exact lawful_ret _
  · exact fun s' _ hguard hnone vm hvm => .of_frozen (hguard rfl rfl hnone vm hvm)

variable {c : CreateVm}

theorem shape_of_takes {ownWire current moved} (h : c.takes ownWire current = .ok moved) :
    shape c.bound.vm = shape current.body.spec.vm := by
  obtain ⟨-, h⟩ := then_ok h
  obtain ⟨-, h⟩ := then_ok h
  have hshape : ∃ moved, c.shapeMoved current = .ok moved := by
    cases hmoved : c.shapeMoved current with
    | ok moved => exact ⟨moved, rfl⟩
    | error =>
      rw [hmoved] at h
      cases h
  obtain ⟨moved, hmoved⟩ := hshape
  simp only [CreateVm.shapeMoved] at hmoved
  split at hmoved
  · cases hmoved
  · rename_i hfixed
    by_cases hsame : current.body.spec.vm = c.bound.vm
    · rw [hsame]
    · simp only [ne_eq, hsame, not_false_eq_true, decide_true, Bool.true_and, Bool.not_eq_true',
        Bool.not_eq_false] at hfixed
      exact (of_decide_eq_true hfixed).symm

theorem drift_asBorn {v uid} (huid : v.uid = uid)
    (hshape : shape c.bound.vm = withoutNicLists (born uid)) :
    AsBorn .cluster born (c.drift v) := by
  subst huid
  exact ⟨hshape, by simp [CreateVm.drift, Object.cloudUid]⟩

theorem writeDrift_lawful {current} (hs : AllBorn .cluster born s)
    (hshape : shape c.bound.vm = withoutNicLists (born current.uid)) :
    Lawful .cluster born who own s (writeDrift (vms settle) c current) := by
  refine .bind (mutateLoop_safe (stable _) _
    { sound := hs.sound
      fault := fun _ _ _ => lawful_ret _
      missing := fun _ _ _ => lawful_ret _
      other := fun _ _ _ _ _ => lawful_ret _
      spent := fun _ _ => lawful_ret _
      permitted := ?_
      lost := fun _ _ _ _ _ _ _ => lawful_ret _
      written := fun _ _ _ _ _ _ => lawful_ret _ })
  rintro s' v - - hours - vm ⟨⟩
  exact (drift_asBorn (of_decide_eq_true hours) hshape).encode

theorem handDownAgain_lawful {ownWire} (hs : AllBorn .cluster born s) :
    Lawful .cluster born who own s (handDownAgain (vms settle) c ownWire) := by
  refine lawful_get hs (fun s' why _ => ?_) fun s' current hs' hborn => ?_
  · cases why <;> exact lawful_ret _
  · dsimp only
    split
    · exact lawful_ret _
    · exact lawful_ret _
    · rename_i htakes
      exact writeDrift_lawful hs' ((shape_of_takes htakes).trans hborn.shape)

theorem handleCreate_lawful (hs : AllBorn .cluster born s) :
    Lawful .cluster born (.handDown c) own s (handleCreate (vms settle) c) := by
  unfold handleCreate
  split
  · exact lawful_ret _
  split
  · exact lawful_ret _
  split
  · exact handDownAgain_lawful hs
  refine .bind (create_safe (stable _) ?_ ?_)
  · intro s' own answer hl
    cases answer with
    | ok => exact lawful_ret _
    | error why =>
      cases why with
      | alreadyExists => exact handDownAgain_lawful (hs.later hl)
      | _ => exact lawful_ret _
  · exact fun s' _ hguard hnone vm hvm => .of_frozen (hguard rfl rfl hnone vm hvm)

end Calls

end Shapes

section Runs

variable {settle : VmSpec → VmStatus → VmStatus} {serde : Serde} {born : String → Json}

theorem others_legal {s name new} (hs : AllBorn tier born s) (h : others s.store name new) :
    Legal tier born s.store none name new := by
  rintro vm ⟨⟩
  cases hcell : s.store.cell name with
  | none => simp [others, hcell] at h
  | some found =>
    obtain ⟨hshape, hwhole⟩ := hs.stored name found hcell
    simp only [others, hcell, any_some, Bool.and_eq_true, decide_eq_true_eq] at h
    obtain ⟨⟨huid, howner⟩, hvm⟩ := h
    rw [huid, hvm] at hshape hwhole
    exact ⟨hshape, howner ▸ hwhole⟩

theorem call_lawful {s} (hs : AllBorn tier born s) {request} (hserved : request.servedAt tier) :
    Lawful tier born request [] s (request.call (vms settle) serde) := by
  have hmap : ∀ {ρ : Type} {call : Call String StoredVm Fault ρ} (f : ρ → Answer),
      Lawful tier born request [] s call → Lawful tier born request [] s (call.map f) :=
    fun f h => .map (fun _ _ _ _ _ => id) h
  cases request with
  | create => exact hmap _ createVm_lawful
  | clusterPut checks name dry body =>
    cases of_decide_eq_true hserved
    exact hmap _ (updateVm_lawful (clusterEdge_keeps checks) hs name dry body)
  | clusterPatch checks name dry patch =>
    cases of_decide_eq_true hserved
    exact hmap _ (patchVm_lawful (fun attempt => clusterEdge_keeps (checks attempt)) hs name dry
      patch)
  | cloudPut checks name dry body =>
    cases of_decide_eq_true hserved
    exact hmap _ (updateVm_lawful (cloudEdge_keeps checks) hs name dry body)
  | cloudPatch checks name dry patch =>
    cases of_decide_eq_true hserved
    exact hmap _ (patchVm_lawful (fun attempt => cloudEdge_keeps (checks attempt)) hs name dry
      patch)
  | handDown =>
    cases of_decide_eq_true hserved
    exact hmap _ (handleCreate_lawful hs)

theorem site_verified : (site (vms settle) serde tier).Verified (Legal tier born)
    (CreatedAsBorn born) (AllBorn tier born) (fun _ _ _ _ _ => True) where
  keeps hs hnext := hs.next hnext
  writes hs hwrites := others_legal hs hwrites
  begins hs hbegins := by
    simp only [site] at hbegins
    split at hbegins <;> cases hbegins
    rename_i hserved
    exact call_lawful hs hserved

/--
In every interleaving, a VM that is written or stored has the shape its uid was created
with, with the address lists of its NICs wherever no hand-down injects them; and at both tiers an
update that only lets the binding go leaves every other owned field as it was.
-/
theorem shape_for_life {tier : Tier} {store : Store String StoredVm}
    {moves : List (Move (SiteEvent Request String StoredVm) (Heard Fault))}
    {w : World VmSite (Pending Request String StoredVm Fault Answer)}
    (hstore : AllBorn tier born (of store))
    (hmeets : (site (vms settle) serde tier).program.RunMeets (System.guarded (CreatedAsBorn born))
      ⟨of store, []⟩ moves)
    (hrun : (site (vms settle) serde tier).program.run ⟨of store, []⟩ moves = some w) :
    (∀ c ∈ w.shared.commits, ∀ vm ∈ c.new, AsBorn tier born vm) ∧
    (∀ name v, w.shared.store.cell name = some v → AsBorn tier born v.val) ∧
    (∀ checks, (clusterEdge checks).OnlyUnbinds) ∧ ∀ checks, (cloudEdge checks).OnlyUnbinds := by
  have hkept := site_verified.run hstore hmeets hrun
  exact ⟨hkept.commits, hkept.invariant.stored, clusterEdge_onlyUnbinds, cloudEdge_onlyUnbinds⟩

instance (born : String → Json) (store who name expect new) :
    Decidable (CreatedAsBorn born store who name expect new) :=
  inferInstanceAs (Decidable (who.creates → expect = 0 → _ → ∀ vm ∈ new, _))

def web (volumes : List Json) (floatingIps : List String) : CreateVm where
  name := "web"
  uid := "cloud-1"
  spec :=
    { nodeName := none
      clusterName := none
      runStrategy := .running
      evacuation := .never
      tenant := some "blue"
      vmClass := ""
      clusterSelector := []
      nodeSelector := []
      antiAffinity := []
      vm := .obj [("nics", .arr [.obj []]), ("vcpus", .num 2), ("volumes", .arr volumes)] }
  vni := some 10007
  floatingIps := floatingIps
  routedSubnets := []
  labels := []
  traceparent := ""
  drawn := "uid-1"
  now := 0

def bootDisk : Json := .obj [("size_bytes", .num 4096)]

def dataDisk : Json := .obj [("volume", .str "data")]

def plugged : List (Move (SiteEvent Request String StoredVm) (Heard Fault)) :=
  [.env (.ask (.handDown (web [bootDisk] ["10.0.0.7"]))), .task 0 .answer, .task 0 .answer,
    .env (.ask (.handDown (web [bootDisk, dataDisk] ["10.0.0.8"]))), .task 0 .answer,
    .task 0 .answer, .task 0 .answer, .task 0 .answer, .task 0 .answer]

def asSent : System Request String StoredVm Fault Answer :=
  site (vms fun _ status => status) ⟨fun _ => .error "", fun _ => ""⟩ .cluster

/-- The disk and the new address reach the copy, and its shape is the first one. -/
theorem shape_for_life_plugged :
    ∃ w v, asSent.program.run ⟨of ⟨1, ∅⟩, []⟩ plugged = some w ∧
      w.shared.store.cell "web" = some v ∧
      referencedVolumes v.val.body.spec.vm = ["data"] ∧
      shape v.val.body.spec.vm = shape (web [bootDisk] ["10.0.0.7"]).bound.vm := by
  refine ⟨_, _, rfl, rfl, by decide, ?_⟩
  have hempty : AllBorn .cluster (fun _ => frozenVmShape (web [bootDisk] ["10.0.0.7"]).bound.vm)
      (of ⟨1, ∅⟩) :=
    ⟨⟨Nat.one_pos, fun h => by cases h⟩, fun _ _ h => by cases h⟩
  rw [shape_eq (web [bootDisk] ["10.0.0.7"]).bound.vm]
  exact ((@shape_for_life _ _ _ _ _ plugged _ hempty (by decide) rfl).2.1 "web" _ rfl).shape

end Runs

end MeisterStack.ControllerApi.VmShape
