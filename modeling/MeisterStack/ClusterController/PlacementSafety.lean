import MeisterStack.ClusterController.Placement

/-!
# A node is never overbooked by placement

The argument is about one node and one dimension. The *load* up to a place in the queue is what the
bound VMs ask for together with the claims up to that place, no VM counted twice. A confirmed claim
that still stands as it was read has a load within the allowance, and every other step keeps it.
-/

namespace MeisterStack.ClusterController.Placement

open Foundation ControllerApi List Table Nat Store
open CapacityReservation (forPlacement placementName)

variable (d : Dimension) (s : Store) (node : String)

def booked : Nat :=
  d.bound node s.list2.1

def WithinAllowance (fleet : Fleet) (s : Store) (node : String) : Prop :=
  booked .vcpus s node ≤ (fleet.allowance node).vcpus.val ∧
    booked .memMib s node ≤ (fleet.allowance node).memMib.val

structure WellFormed (fleet : Fleet) (s : Store) : Prop where
  vmsBelow : s.vms.Below s.next
  claimsBelow : s.claims.Below s.next
  vmName : ∀ {k v}, s.vms.cell k = some v → v.val.name = k
  vmSize : ∀ {k v}, s.vms.cell k = some v → Capacity.wantedBy v.val = fleet.sizeOf v.val.uid
  uidUnique : ∀ {k k' v v'}, s.vms.cell k = some v → s.vms.cell k' = some v' →
    v.val.uid = v'.val.uid → k = k'
  claimName : ∀ {k r}, s.claims.cell k = some r → r.val.name = k
  placementName : ∀ {k r}, s.claims.cell k = some r → r.val.claimant = .placement →
    r.val.name = placementName r.val.vmUid
  placementSize : ∀ {k r}, s.claims.cell k = some r → r.val.claimant = .placement →
    r.val.size = fleet.sizeOf r.val.vmUid

def BoundHere (uid node : String) : Prop :=
  ∃ k v, s.vms.cell k = some v ∧ v.val.uid = uid ∧ v.val.spec.nodeName = some node

open Classical in
noncomputable def weight
    (place : ℕ ×ₗ String) (r : Versioned CapacityReservation) : Nat :=
  if r.val.node = node ∧ madeAt r ≤ place ∧
      ¬(r.val.claimant = .placement ∧ BoundHere s r.val.vmUid node)
  then d.of r.val.size else 0

noncomputable def load
    (place : ℕ ×ₗ String) : Nat :=
  booked d s node + s.claims.total fun _ r => weight d s node place r

private theorem sum_filter_map {α : Type*} (p : α → Bool) (f : α → Nat) (l : List α) :
    ((l.filter p).map f).sum = (l.map fun x => if p x then f x else 0).sum := by
  induction l with
  | nil => rfl
  | cons x l ih =>
    by_cases hx : p x
    · simp [hx, ih]
    · simp [hx, ih]

def share (v : Versioned Vm) : Nat :=
  if v.val.spec.nodeName = some node then d.of (Capacity.wantedBy v.val) else 0

theorem booked_eq_total (d s node) : booked d s node = s.vms.total fun _ v => share d node v := by
  simp only [booked, Dimension.bound, list2, sum_filter_map, Table.total, share, map_map]
  simp [Function.comp_def]

/--
One VM goes from the binding `old` to the binding `new` (`none` for unbound or
absent) and no claim changes. `size` is what the VM asks for.
-/
structure Rebinds (d : Dimension) (s s' : Store) (uid : String)
    (old new : Option String) (size : Nat) : Prop where
  claims : s'.claims = s.claims
  other : ∀ {u} node, u ≠ uid → (BoundHere s' u node ↔ BoundHere s u node)
  before : ∀ node, BoundHere s uid node ↔ old = some node
  after : ∀ node, BoundHere s' uid node ↔ new = some node
  booked : ∀ node, booked d s' node + (if old = some node then size else 0) =
    booked d s node + (if new = some node then size else 0)

variable {fleet : Fleet} {d : Dimension} {s s' : Store}

def sizeIn (d : Dimension) (fleet : Fleet) (uid : String) : Nat :=
  d.of (fleet.sizeOf uid)

def bindingOf (c : Cell Vm) : Option String := c.bind fun v => v.val.spec.nodeName

variable {v : Versioned Vm}

theorem share_eq (hsize : Capacity.wantedBy v.val = fleet.sizeOf v.val.uid) (node) :
    share d node v = if bindingOf (some v) = some node then sizeIn d fleet v.val.uid else 0 := by
  simp only [share, sizeIn, hsize]
  rfl

variable {k : String}

theorem boundHere_iff {uid} (node) (hk : ∀ v, s.vms.cell k = some v → v.val.uid = uid)
    (hoff : ∀ k' v, k' ≠ k → s.vms.cell k' = some v → v.val.uid ≠ uid) :
    BoundHere s uid node ↔ bindingOf (s.vms.cell k) = some node := by
  rw [bindingOf, Option.bind_eq_some_iff]
  constructor
  · rintro ⟨k', v, hv, huid, hnode⟩
    by_cases hkk : k' = k
    · subst hkk
      exact ⟨v, hv, hnode⟩
    · exact absurd huid (hoff k' v hkk hv)
  · rintro ⟨v, hv, hnode⟩
    exact ⟨k, v, hv, hk v hv, hnode⟩

private theorem boundHere_of_cells {s1 s2 u uid node} (hu : u ≠ uid)
    (hk : ∀ v, s1.vms.cell k = some v → v.val.uid = uid)
    (hsame : ∀ k', k' ≠ k → s2.vms.cell k' = s1.vms.cell k') (h : BoundHere s1 u node) :
    BoundHere s2 u node := by
  obtain ⟨k', v, hv, huid, hnode⟩ := h
  have hkk : k' ≠ k := by
    rintro rfl
    exact hu (huid.symm.trans (hk v hv))
  exact ⟨k', v, (hsame k' hkk).trans hv, huid, hnode⟩

theorem rebinds_of_cells {uid size c c'} (hclaims : s'.claims = s.claims)
    (hsame : ∀ k', k' ≠ k → s'.vms.cell k' = s.vms.cell k') (hc : s.vms.cell k = c)
    (hc' : s'.vms.cell k = c') (hold : ∀ v, c = some v → v.val.uid = uid)
    (hnew : ∀ v, c' = some v → v.val.uid = uid)
    (hoff : ∀ k' v, k' ≠ k → s.vms.cell k' = some v → v.val.uid ≠ uid)
    (hbooked : ∀ node, booked d s' node + (if bindingOf c = some node then size else 0) =
      booked d s node + (if bindingOf c' = some node then size else 0)) :
    Rebinds d s s' uid (bindingOf c) (bindingOf c') size := by
  subst hc hc'
  exact {
    claims := hclaims
    other := fun _ hu => ⟨boundHere_of_cells hu hnew fun k' hk => (hsame k' hk).symm,
      boundHere_of_cells hu hold hsame⟩
    before := fun node => boundHere_iff node hold hoff
    after := fun node => boundHere_iff node hnew fun k' v hk hv => hoff k' v hk (hsame k' hk ▸ hv)
    booked := hbooked }

theorem WellFormed.uid_ne (hwf : WellFormed fleet s) {k' v'} (hv : s.vms.cell k = some v)
    (hk : k' ≠ k) (hv' : s.vms.cell k' = some v') : v'.val.uid ≠ v.val.uid :=
  fun huid => hk (hwf.uidUnique hv' hv huid)

variable {vm : Vm}

theorem rebinds_putVm (hwf : WellFormed fleet s) (hv : s.vms.cell k = some v)
    (huid : vm.uid = v.val.uid) (hspec : Capacity.wantedBy vm = Capacity.wantedBy v.val) :
    Rebinds d s (s.putVm k vm) v.val.uid v.val.spec.nodeName vm.spec.nodeName
      (sizeIn d fleet v.val.uid) := by
  have hsize : Capacity.wantedBy vm = fleet.sizeOf vm.uid := by
    rw [hspec, huid]
    exact hwf.vmSize hv
  change Rebinds d s _ _ (bindingOf (some v)) (bindingOf (some ⟨s.next, vm⟩)) _
  refine rebinds_of_cells rfl (fun k' hk => cell_put_ne _ hk _ _) hv
    (cell_put_self _ _ _ _) (by rintro w ⟨⟩; rfl) (by rintro w ⟨⟩; exact huid)
    (fun k' w hk hw => hwf.uid_ne hv hk hw) fun node => ?_
  rw [booked_eq_total, booked_eq_total, putVm, total_put,
    total_remove _ hv, share_eq (hwf.vmSize hv), share_eq hsize, huid]
  omega

theorem rebinds_createVm (hk : s.vms.cell k = none) (hnode : vm.spec.nodeName = none)
    (hfresh : ∀ k v, s.vms.cell k = some v → v.val.uid ≠ vm.uid) :
    Rebinds d s (s.putVm k vm) vm.uid none none (sizeIn d fleet vm.uid) := by
  have hmain : Rebinds d s (s.putVm k vm) vm.uid (bindingOf none) (bindingOf (some ⟨s.next, vm⟩))
      (sizeIn d fleet vm.uid) := by
    refine rebinds_of_cells rfl (fun k' hkk => cell_put_ne _ hkk _ _) hk
      (cell_put_self _ _ _ _) (by rintro w ⟨⟩) (by rintro w ⟨⟩; rfl)
      (fun k' w _ hw => hfresh k' w hw) fun node => ?_
    rw [booked_eq_total, booked_eq_total, putVm, total_put_of_none _ hk]
    simp [share, hnode, bindingOf]
  simpa [bindingOf, hnode] using hmain

theorem rebinds_removeVm (hwf : WellFormed fleet s) (hv : s.vms.cell k = some v) :
    Rebinds d s (s.removeVm k) v.val.uid v.val.spec.nodeName none (sizeIn d fleet v.val.uid) := by
  change Rebinds d s _ _ (bindingOf (some v)) (bindingOf none) _
  refine rebinds_of_cells rfl (fun k' hk => cell_remove_ne _ hk) hv
    (cell_remove_self _ _) (by rintro w ⟨⟩; rfl) (by rintro w ⟨⟩)
    (fun k' w hk hw => hwf.uid_ne hv hk hw) fun node => ?_
  rw [booked_eq_total, booked_eq_total, removeVm,
    total_remove (fun _ v => share d node v) hv, share_eq (hwf.vmSize hv)]
  simp only [bindingOf, Option.bind_none, reduceCtorEq, if_false]
  omega

variable {uid node : String} {old new : Option String} {size : Nat} {place : ℕ ×ₗ String}

theorem weight_le (r) : weight d s node place r ≤ d.of r.val.size := by
  unfold weight
  split_ifs
  · exact le_rfl
  · exact zero_le _

theorem weight_mono {place'} (h : place ≤ place') (r) :
    weight d s node place r ≤ weight d s node place' r := by
  unfold weight
  by_cases hr : r.val.node = node ∧ madeAt r ≤ place ∧
      ¬(r.val.claimant = .placement ∧ BoundHere s r.val.vmUid node)
  · rw [if_pos hr, if_pos ⟨hr.1, hr.2.1.trans h, hr.2.2⟩]
  · rw [if_neg hr]
    exact zero_le _

theorem Rebinds.weight_eq (hr : Rebinds d s s' uid old new size) {r}
    (hother : r.val.claimant = .placement → r.val.vmUid ≠ uid) :
    weight d s' node place r = weight d s node place r := by
  have hbound : (r.val.claimant = .placement ∧ BoundHere s' r.val.vmUid node) ↔
      (r.val.claimant = .placement ∧ BoundHere s r.val.vmUid node) :=
    and_congr_right fun hplacement => hr.other node (hother hplacement)
  classical
  exact if_congr (by rw [hbound]) rfl rfl

noncomputable def ownWeight (d : Dimension) (s : Store) (uid node : String)
    (place : ℕ ×ₗ String) : Nat :=
  (s.claims.cell (placementName uid)).elim 0 (weight d s node place)

noncomputable def restLoad (d : Dimension) (s : Store) (uid node : String)
    (place : ℕ ×ₗ String) : Nat :=
  (s.claims.remove (placementName uid)).total fun _ r =>
    weight d s node place r

theorem load_split (d s uid node) (place : ℕ ×ₗ String) :
    load d s node place =
      booked d s node + ownWeight d s uid node place + restLoad d s uid node place := by
  rw [load, total_split _ _ (placementName uid), ← add_assoc]
  rfl

theorem restLoad_mono {place'} (h : place ≤ place') :
    restLoad d s uid node place ≤ restLoad d s uid node place' :=
  total_le_total fun _ r _ => weight_mono h r

theorem Rebinds.restLoad_eq (hwf : WellFormed fleet s) (hr : Rebinds d s s' uid old new size) :
    restLoad d s' uid node place = restLoad d s uid node place := by
  rw [restLoad, restLoad, hr.claims]
  refine total_congr fun k r hcell => ?_
  obtain ⟨hk, hcell⟩ := cell_of_remove hcell
  refine hr.weight_eq fun hplacement huid => hk ?_
  rw [← hwf.claimName hcell, hwf.placementName hcell hplacement, huid]

theorem Rebinds.ownWeight_le (hwf : WellFormed fleet s)
    (hr : Rebinds d s s' uid old none (sizeIn d fleet uid)) :
    ownWeight d s' uid node place ≤
      ownWeight d s uid node place + (if old = some node then sizeIn d fleet uid else 0) := by
  unfold ownWeight
  rw [hr.claims]
  cases hcell : s.claims.cell (placementName uid) with
  | none => simp
  | some c =>
    simp only [Option.elim_some]
    by_cases hc : c.val.claimant = .placement ∧ c.val.vmUid = uid
    · obtain ⟨hplacement, huid⟩ := hc
      have hsize : d.of c.val.size = sizeIn d fleet uid := by
        rw [hwf.placementSize hcell hplacement, huid]
        rfl
      by_cases hold : old = some node
      · rw [if_pos hold, ← hsize]
        exact (weight_le c).trans (le_add_left _ _)
      · have hbefore : ¬BoundHere s uid node := fun h => hold ((hr.before node).mp h)
        have hafter : ¬BoundHere s' uid node := fun h => by
          cases (hr.after node).mp h
        simp [weight, huid, hbefore, hafter]
    · rw [hr.weight_eq fun hplacement huid => hc ⟨hplacement, huid⟩]
      exact le_add_right _ _

theorem Rebinds.load_le (hwf : WellFormed fleet s)
    (hr : Rebinds d s s' uid old none (sizeIn d fleet uid)) :
    load d s' node place ≤ load d s node place := by
  have hbooked := hr.booked node
  have hown : ownWeight d s' uid node place ≤ _ := hr.ownWeight_le hwf
  rw [load_split d s' uid, load_split d s uid, hr.restLoad_eq hwf]
  simp only [reduceCtorEq, if_false] at hbooked
  omega

theorem Rebinds.load_eq (hr : Rebinds d s s' uid old old size) :
    load d s' node place = load d s node place := by
  have hbooked := hr.booked node
  have hbound : ∀ u, BoundHere s' u node ↔ BoundHere s u node := by
    intro u
    by_cases hu : u = uid
    · subst hu
      exact (hr.after node).trans (hr.before node).symm
    · exact hr.other node hu
  have hweight : ∀ r, weight d s' node place r = weight d s node place r := by
    intro r
    classical
    exact if_congr (by rw [hbound]) rfl rfl
  simp only [load, hr.claims, hweight]
  omega

structure StandsOn (fleet : Fleet) (s : Store) (uid node : String)
    (c : Versioned CapacityReservation) : Prop where
  cell : s.claims.cell (placementName uid) = some c
  claimant : c.val.claimant = .placement
  vmUid : c.val.vmUid = uid
  node : c.val.node = node
  size : c.val.size = fleet.sizeOf uid

variable {c : Versioned CapacityReservation}

/-- A claim is not counted once its VM is bound. -/
theorem Rebinds.ownWeight_bound (hr : Rebinds d s s' uid none (some node) size)
    (hc : StandsOn fleet s uid node c) : ownWeight d s' uid node place = 0 := by
  have hafter : BoundHere s' uid node := (hr.after node).mpr rfl
  simp [ownWeight, hr.claims, hc.cell, weight, hc.claimant, hc.vmUid, hafter]

/--
Binding a VM under its claim: the load up to any place is afterwards at most
what it was up to the later of that place and the claim's own.
-/
theorem Rebinds.load_le_max (hwf : WellFormed fleet s)
    (hr : Rebinds d s s' uid none (some node) (sizeIn d fleet uid))
    (hc : StandsOn fleet s uid node c) :
    load d s' node place ≤ load d s node (max place (madeAt c)) := by
  have hbooked := hr.booked node
  have hbefore : ¬BoundHere s uid node := fun h => by cases (hr.before node).mp h
  have hown : ownWeight d s uid node (max place (madeAt c)) = sizeIn d fleet uid := by
    simp [ownWeight, hc.cell, weight, hc.node, hc.vmUid, hbefore, hc.size, sizeIn]
  have hrest : restLoad d s uid node place ≤ restLoad d s uid node (max place (madeAt c)) :=
    restLoad_mono (le_max_left _ _)
  rw [load_split d s' uid, load_split d s uid, hr.restLoad_eq hwf, hr.ownWeight_bound hc, hown]
  simp only [reduceCtorEq, if_false, if_true] at hbooked
  omega

theorem Rebinds.load_le_add (hwf : WellFormed fleet s)
    (hr : Rebinds d s s' uid none (some node) (sizeIn d fleet uid))
    (hc : StandsOn fleet s uid node c) :
    load d s' node place ≤ load d s node place + sizeIn d fleet uid := by
  have hbooked := hr.booked node
  rw [load_split d s' uid, load_split d s uid, hr.restLoad_eq hwf, hr.ownWeight_bound hc]
  simp only [reduceCtorEq, if_false, if_true] at hbooked
  omega

variable {there : String}

theorem Rebinds.load_eq_of_ne (hwf : WellFormed fleet s)
    (hr : Rebinds d s s' uid none (some there) (sizeIn d fleet uid)) (hne : there ≠ node)
    (hc : StandsOn fleet s uid there c) : load d s' node place = load d s node place := by
  have hbooked := hr.booked node
  have hcnode : ¬c.val.node = node := fun h => hne (hc.node.symm.trans h)
  have hown (t : Store) (ht : t.claims = s.claims) : ownWeight d t uid node place = 0 := by
    simp [ownWeight, ht, hc.cell, weight, hcnode]
  rw [load_split d s' uid, load_split d s uid, hr.restLoad_eq hwf, hown s' hr.claims, hown s rfl]
  simp only [reduceCtorEq, if_false, Option.some.injEq, hne] at hbooked
  omega

theorem booked_congr_vms (hvms : s'.vms = s.vms) : booked d s' node = booked d s node := by
  rw [booked_eq_total, booked_eq_total, hvms]

variable {r : CapacityReservation} {mine : Versioned CapacityReservation}

theorem load_putClaim (hfree : s.claims.cell r.name = none) (hmine : mine.rev < s.next) :
    load d (s.putClaim r) node (madeAt mine) = load d s node (madeAt mine) := by
  have hlate : ¬madeAt ⟨s.next, r⟩ ≤ madeAt mine := by
    rw [not_le, madeAt, madeAt, Prod.Lex.toLex_lt_toLex]
    exact Or.inl hmine
  have hnew : weight d (s.putClaim r) node (madeAt mine) ⟨s.next, r⟩ = 0 := by
    simp [weight, hlate]
  rw [load, load, booked_congr_vms (rfl : (s.putClaim r).vms = s.vms)]
  rw [putClaim, total_put_of_none _ hfree]
  change booked d s node + (weight d (s.putClaim r) node (madeAt mine) ⟨s.next, r⟩ + _) = _
  rw [hnew, zero_add]
  rfl

theorem load_removeClaim : load d (s.removeClaim k) node place ≤ load d s node place := by
  have hload : load d (s.removeClaim k) node place =
      booked d s node + (s.claims.remove k).total fun _ r => weight d s node place r := by
    rw [load, booked_congr_vms (rfl : (s.removeClaim k).vms = s.vms)]
    rfl
  rw [hload, load, total_split (fun _ r => weight d s node place r) s.claims k]
  omega

theorem ahead_eq_total (d : Dimension) (s : Store) (mine) :
    d.ahead mine s.list2.2 = s.claims.total fun _ r =>
      if r.val.node = mine.val.node && r.val.name != mine.val.name then
        if madeAt r < madeAt mine then d.of r.val.size else 0
      else 0 := by
  simp only [Dimension.ahead, list2, sum_filter_map, Table.total, map_map,
    decide_eq_true_eq]
  rfl

theorem load_of_claimHolds (hwf : WellFormed fleet s)
    (hcell : s.claims.cell mine.val.name = some mine) (hpos : 0 < d.of mine.val.size)
    (h : claimHolds fleet s mine) :
    load d s mine.val.node (madeAt mine) ≤ d.of (fleet.allowance mine.val.node) := by
  have hroom : booked d s mine.val.node + d.ahead mine s.list2.2 + d.of mine.val.size ≤
      d.of (fleet.allowance mine.val.node) := d.le_allowance_of_reservationHolds hpos h
  rw [ahead_eq_total, total_split _ _ mine.val.name, hcell] at hroom
  -- Every other claim that weighs in was made before this one.
  have hothers : ((s.claims.remove mine.val.name).total fun _ r =>
      weight d s mine.val.node (madeAt mine) r) ≤
      (s.claims.remove mine.val.name).total fun _ r =>
        if r.val.node = mine.val.node && r.val.name != mine.val.name then
          if madeAt r < madeAt mine then d.of r.val.size else 0
        else 0 := by
    refine total_le_total fun k r hr => ?_
    obtain ⟨hk, hr⟩ := cell_of_remove hr
    have hname : r.val.name ≠ mine.val.name := by
      rw [hwf.claimName hr]
      exact hk
    unfold weight
    split_ifs with hcount hsame hlt
    · exact le_rfl
    · have hne : madeAt r ≠ madeAt mine := fun heq =>
        hname (congrArg (fun p => (ofLex p).2) heq)
      exact absurd (lt_of_le_of_ne hcount.2.1 hne) hlt
    · simp [hcount.1, hname] at hsame
    all_goals exact zero_le _
  rw [load, total_split _ _ mine.val.name, hcell]
  have hown : weight d s mine.val.node (madeAt mine) mine ≤ d.of mine.val.size := weight_le mine
  simp only [Option.elim_some, bne_self_eq_false, Bool.and_false, Bool.false_eq_true,
    if_false, zero_add] at hroom ⊢
  omega

structure Later (s s' : Store) : Prop where
  sawVm : ∀ {k v}, (s.vms.cell k).Saw s.next v → (s'.vms.cell k).Saw s'.next v
  sawClaim : ∀ {k r}, (s.claims.cell k).Saw s.next r → (s'.claims.cell k).Saw s'.next r
  vmStood : ∀ {k v}, v.rev < s.next → s'.vms.cell k = some v → s.vms.cell k = some v
  claimStood : ∀ {k r}, r.rev < s.next → s'.claims.cell k = some r → s.claims.cell k = some r

theorem later_putVm (s k vm) : Later s (s.putVm k vm) where
  sawVm h := saw_put h vm
  sawClaim h := h.mono (le_succ _)
  vmStood hrev h := (cell_of_put h hrev).2
  claimStood _ h := h

theorem later_removeVm (s k) : Later s (s.removeVm k) where
  sawVm h := (saw_remove h).mono (le_succ _)
  sawClaim h := h.mono (le_succ _)
  vmStood _ h := (cell_of_remove h).2
  claimStood _ h := h

theorem later_putClaim (s r) : Later s (s.putClaim r) where
  sawVm h := h.mono (le_succ _)
  sawClaim h := saw_put h r
  vmStood _ h := h
  claimStood hrev h := (cell_of_put h hrev).2

theorem later_removeClaim (s k) : Later s (s.removeClaim k) where
  sawVm h := h.mono (le_succ _)
  sawClaim h := (saw_remove h).mono (le_succ _)
  vmStood _ h := h
  claimStood _ h := (cell_of_remove h).2

structure Reads (fleet : Fleet) (s : Store) (vm : Versioned Vm) : Prop where
  saw : (s.vms.cell vm.val.name).Saw s.next vm
  unbound : vm.val.spec.nodeName = none
  size : Capacity.wantedBy vm.val = fleet.sizeOf vm.val.uid

structure ReadsClaim (fleet : Fleet) (s : Store) (vm : Versioned Vm) (there : String)
    (mine : Versioned CapacityReservation) : Prop where
  saw : (s.claims.cell mine.val.name).Saw s.next mine
  name : mine.val.name = placementName vm.val.uid
  claimant : mine.val.claimant = .placement
  vmUid : mine.val.vmUid = vm.val.uid
  node : mine.val.node = there
  size : mine.val.size = fleet.sizeOf vm.val.uid

theorem Reads.later {vm} (h : Reads fleet s vm) (hl : Later s s') : Reads fleet s' vm :=
  { h with saw := hl.sawVm h.saw }

theorem ReadsClaim.later {vm} (h : ReadsClaim fleet s vm there mine) (hl : Later s s') :
    ReadsClaim fleet s' vm there mine :=
  { h with saw := hl.sawClaim h.saw }

def Sound (d : Dimension) (fleet : Fleet) (node : String) (s : Store) : Prop :=
  WellFormed fleet s ∧ booked d s node ≤ d.of (fleet.allowance node)

def Confirmed (d : Dimension) (fleet : Fleet) (node : String) (s : Store)
    (vm : Versioned Vm) (mine : Versioned CapacityReservation) : Prop :=
  mine.val.node = node → 0 < d.of mine.val.size → s.vms.cell vm.val.name = some vm →
    s.claims.cell mine.val.name = some mine →
      load d s node (madeAt mine) ≤ d.of (fleet.allowance node)

def TaskOk (d : Dimension) (fleet : Fleet) (node : String) (s : Store) : Task → Prop
  | .claim vm _ => Reads fleet s vm
  | .standing vm _ => Reads fleet s vm
  | .confirm vm there mine => Reads fleet s vm ∧ ReadsClaim fleet s vm there mine
  | .bind vm there mine =>
    Reads fleet s vm ∧ ReadsClaim fleet s vm there mine ∧ Confirmed d fleet node s vm mine
  | .release _ => True

def Keeps (d : Dimension) (fleet : Fleet) (node : String) (s s' : Store) : Prop :=
  Sound d fleet node s' ∧ ∀ t, TaskOk d fleet node s t → TaskOk d fleet node s' t

theorem keeps_of_load (hl : Later s s') (hsound : Sound d fleet node s')
    (hload : ∀ mine : Versioned CapacityReservation, mine.rev < s.next →
      load d s node (madeAt mine) ≤ d.of (fleet.allowance node) →
        load d s' node (madeAt mine) ≤ d.of (fleet.allowance node)) :
    Keeps d fleet node s s' := by
  refine ⟨hsound, fun t ht => ?_⟩
  cases t with
  | claim | standing => exact ht.later hl
  | confirm => exact ⟨ht.1.later hl, ht.2.later hl⟩
  | bind vm there mine =>
    obtain ⟨hvm, hmine, hconfirmed⟩ := ht
    refine ⟨hvm.later hl, hmine.later hl, fun hnode hpos hvm' hmine' => ?_⟩
    -- What stands now at the revisions read stood before, so the claim was good.
    refine hload mine hmine.saw.1 (hconfirmed hnode hpos ?_ ?_)
    · exact hl.vmStood hvm.saw.1 hvm'
    · exact hl.claimStood hmine.saw.1 hmine'
  | release => trivial

variable (hwf : WellFormed fleet s)

include hwf

theorem WellFormed.putVm
    (hname : vm.name = k) (hsize : Capacity.wantedBy vm = fleet.sizeOf vm.uid)
    (huid : ∀ k' v, k' ≠ k → s.vms.cell k' = some v → v.val.uid ≠ vm.uid) :
    WellFormed fleet (s.putVm k vm) where
  __ := hwf
  vmsBelow := hwf.vmsBelow.put k vm
  claimsBelow := hwf.claimsBelow.mono (le_succ _)
  vmName hv := by
    rcases cell_put_cases hv with ⟨rfl, rfl⟩ | ⟨-, hv⟩
    · exact hname
    · exact hwf.vmName hv
  vmSize hv := by
    rcases cell_put_cases hv with ⟨-, rfl⟩ | ⟨-, hv⟩
    · exact hsize
    · exact hwf.vmSize hv
  uidUnique := by
    intro k1 k2 v1 v2 hv1 hv2 heq
    rcases cell_put_cases hv1 with ⟨rfl, rfl⟩ | ⟨hk1, hold1⟩ <;>
      rcases cell_put_cases hv2 with ⟨rfl, rfl⟩ | ⟨hk2, hold2⟩
    · rfl
    · exact absurd heq.symm (huid k2 v2 hk2 hold2)
    · exact absurd heq (huid k1 v1 hk1 hold1)
    · exact hwf.uidUnique hold1 hold2 heq

theorem WellFormed.removeVm (k) :
    WellFormed fleet (s.removeVm k) where
  __ := hwf
  vmsBelow := (hwf.vmsBelow.remove k).mono (le_succ _)
  claimsBelow := hwf.claimsBelow.mono (le_succ _)
  vmName h := hwf.vmName (cell_of_remove h).2
  vmSize h := hwf.vmSize (cell_of_remove h).2
  uidUnique h h' heq := hwf.uidUnique (cell_of_remove h).2 (cell_of_remove h').2 heq

theorem WellFormed.putClaim
    (hname : r.claimant = .placement → r.name = CapacityReservation.placementName r.vmUid)
    (hsize : r.claimant = .placement → r.size = fleet.sizeOf r.vmUid) :
    WellFormed fleet (s.putClaim r) where
  __ := hwf
  vmsBelow := hwf.vmsBelow.mono (le_succ _)
  claimsBelow := hwf.claimsBelow.put r.name r
  claimName h := by
    rcases cell_put_cases h with ⟨rfl, rfl⟩ | ⟨-, h⟩
    · rfl
    · exact hwf.claimName h
  placementName h := by
    rcases cell_put_cases h with ⟨-, rfl⟩ | ⟨-, h⟩
    · exact hname
    · exact hwf.placementName h
  placementSize h := by
    rcases cell_put_cases h with ⟨-, rfl⟩ | ⟨-, h⟩
    · exact hsize
    · exact hwf.placementSize h

theorem WellFormed.removeClaim (k) :
    WellFormed fleet (s.removeClaim k) where
  __ := hwf
  vmsBelow := hwf.vmsBelow.mono (le_succ _)
  claimsBelow := (hwf.claimsBelow.remove k).mono (le_succ _)
  claimName h := hwf.claimName (cell_of_remove h).2
  placementName h := hwf.placementName (cell_of_remove h).2
  placementSize h := hwf.placementSize (cell_of_remove h).2

omit hwf

variable (hsound : Sound d fleet node s)

include hsound

theorem keeps_refl : Keeps d fleet node s s :=
  ⟨hsound, fun _ ht => ht⟩

theorem keeps_of_rebinds (hl : Later s s')
    (hwf' : WellFormed fleet s') (hr : Rebinds d s s' uid old new (sizeIn d fleet uid))
    (hnew : new = old ∨ new = none) : Keeps d fleet node s s' := by
  have hbooked := hr.booked node
  refine keeps_of_load hl ⟨hwf', le_trans ?_ hsound.2⟩ fun mine _ hload =>
    le_trans ?_ hload
  · rcases hnew with rfl | rfl
    · omega
    · simp only [reduceCtorEq, if_false] at hbooked
      omega
  · rcases hnew with rfl | rfl
    · exact hr.load_eq.le
    · exact hr.load_le hsound.1

theorem keeps_putClaim (hfree : s.claims.cell r.name = none)
    (hname : r.claimant = .placement → r.name = placementName r.vmUid)
    (hsize : r.claimant = .placement → r.size = fleet.sizeOf r.vmUid) :
    Keeps d fleet node s (s.putClaim r) := by
  refine keeps_of_load (later_putClaim s r) ⟨hsound.1.putClaim hname hsize, ?_⟩
    fun mine hmine hload => ?_
  · rw [booked_congr_vms (rfl : (s.putClaim r).vms = s.vms)]
    exact hsound.2
  · rw [load_putClaim hfree hmine]
    exact hload

theorem keeps_removeClaim (k) : Keeps d fleet node s (s.removeClaim k) := by
  refine keeps_of_load (later_removeClaim s k) ⟨hsound.1.removeClaim k, ?_⟩
    fun mine _ hload => load_removeClaim.trans hload
  rw [booked_congr_vms (rfl : (s.removeClaim k).vms = s.vms)]
  exact hsound.2

omit hsound

theorem booked_le_load : booked d s node ≤ load d s node place := le_add_right _ _

theorem keeps_bind (hsound : Sound d fleet node s) {vm}
    (ht : TaskOk d fleet node s (.bind vm there mine)) (hvm : s.vms.cell vm.val.name = some vm)
    (hmine : s.claims.cell mine.val.name = some mine) :
    Keeps d fleet node s (s.putVm vm.val.name (boundTo vm.val there)) := by
  obtain ⟨hreads, hclaim, hconfirmed⟩ := ht
  have hwf := hsound.1
  have hwf' : WellFormed fleet (s.putVm vm.val.name (boundTo vm.val there)) :=
    hwf.putVm rfl hreads.size fun k' v hk hv => hwf.uid_ne hvm hk hv
  have hr : Rebinds d s (s.putVm vm.val.name (boundTo vm.val there)) vm.val.uid none
      (some there) (sizeIn d fleet vm.val.uid) := by
    have h : Rebinds d s (s.putVm vm.val.name (boundTo vm.val there)) vm.val.uid
        vm.val.spec.nodeName (some there) (sizeIn d fleet vm.val.uid) :=
      rebinds_putVm hwf hvm rfl rfl
    rwa [hreads.unbound] at h
  have hstands : StandsOn fleet s vm.val.uid there mine :=
    ⟨hclaim.name ▸ hmine, hclaim.claimant, hclaim.vmUid, hclaim.node, hclaim.size⟩
  have hsize : d.of mine.val.size = sizeIn d fleet vm.val.uid := by
    rw [hclaim.size]
    rfl
  have hload : ∀ place, load d s node place ≤ d.of (fleet.allowance node) →
      load d (s.putVm vm.val.name (boundTo vm.val there)) node place ≤
        d.of (fleet.allowance node) := by
    intro place hplace
    by_cases hnode : there = node
    · subst hnode
      by_cases hpos : 0 < sizeIn d fleet vm.val.uid
      · -- Whichever of the two places is later had room before the binding.
        refine (hr.load_le_max hwf hstands).trans ?_
        rcases max_choice place (madeAt mine) with hmax | hmax
        · rw [hmax]
          exact hplace
        · rw [hmax]
          exact hconfirmed hclaim.node (hsize ▸ hpos) hvm hmine
      · have hzero : sizeIn d fleet vm.val.uid = 0 := by omega
        refine (hr.load_le_add hwf hstands).trans ?_
        rw [hzero]
        exact hplace
    · rw [hr.load_eq_of_ne hwf hnode hstands]
      exact hplace
  refine keeps_of_load (later_putVm s _ _) ⟨hwf', ?_⟩ fun mine' _ h => hload _ h
  have hbooked := hr.booked node
  by_cases hnode : there = node ∧ 0 < sizeIn d fleet vm.val.uid
  · obtain ⟨rfl, hpos⟩ := hnode
    exact booked_le_load.trans
      (hload (madeAt mine) (hconfirmed hclaim.node (hsize ▸ hpos) hvm hmine))
  · have hsame : (if some there = some node then sizeIn d fleet vm.val.uid else 0) = 0 := by
      split_ifs with h
      · have hzero := not_and.mp hnode (Option.some.inj h)
        omega
      · rfl
    simp only [reduceCtorEq, if_false, hsame] at hbooked
    exact hbooked.le.trans hsound.2

theorem mayCreate_iff (h : mayCreate fleet s vm) :
    s.vms.cell vm.name = none ∧ (∀ k v, s.vms.cell k = some v → v.val.uid ≠ vm.uid) ∧
      vm.spec.nodeName = none ∧ Capacity.wantedBy vm = fleet.sizeOf vm.uid := by
  simp only [mayCreate, Bool.and_eq_true, Option.isNone_iff_eq_none, all_eq_true,
    bne_iff_ne, decide_eq_true_eq] at h
  obtain ⟨⟨⟨hname, huid⟩, hnode⟩, hsize⟩ := h
  exact ⟨hname, fun k v hv => huid (k, v) (mem_list.mpr hv), hnode, hsize⟩

theorem mayWrite_iff {old new} (h : mayWrite old new) :
    new.name = old.name ∧ new.uid = old.uid ∧ Capacity.wantedBy new = Capacity.wantedBy old ∧
      (new.spec.nodeName = old.spec.nodeName ∨ new.spec.nodeName = none) := by
  simp only [mayWrite, Bool.and_eq_true, Bool.or_eq_true, decide_eq_true_eq,
    Option.isNone_iff_eq_none] at h
  obtain ⟨⟨⟨hname, huid⟩, hspec⟩, hnode⟩ := h
  exact ⟨hname, huid, hspec, hnode⟩

theorem env_keeps {event new} (hsound : Sound d fleet node s)
    (h : env fleet s event = some (s', new)) :
    Keeps d fleet node s s' ∧ ∀ t ∈ new, TaskOk d fleet node s' t := by
  have hwf := hsound.1
  cases event with
  | createVm vm =>
    simp only [env] at h
    split at h <;> cases h
    rename_i hmay
    obtain ⟨hname, hfresh, hnode, hsize⟩ := mayCreate_iff hmay
    have hr : Rebinds d s (s.putVm vm.name vm.settle) vm.uid none none
        (sizeIn d fleet vm.uid) := rebinds_createVm hname hnode hfresh
    refine ⟨?_, by simp⟩
    exact keeps_of_rebinds hsound (later_putVm s _ _)
      (hwf.putVm rfl hsize fun k v _ hv => hfresh k v hv) hr (.inl rfl)
  | writeVm name vm =>
    simp only [env] at h
    split at h
    · rename_i old hold
      split at h <;> cases h
      rename_i hmay
      obtain ⟨hname, huid, hspec, hnode⟩ := mayWrite_iff hmay
      refine ⟨?_, by simp⟩
      have hsize : Capacity.wantedBy vm = fleet.sizeOf vm.uid := by
        rw [hspec, huid]
        exact hwf.vmSize hold
      exact keeps_of_rebinds hsound (later_putVm s _ _)
        (hwf.putVm (hname.trans (hwf.vmName hold)) hsize
          fun k v hk hv => huid ▸ hwf.uid_ne hold hk hv)
        (rebinds_putVm hwf hold huid hspec) hnode
    · cases h
  | deleteVm name =>
    simp only [env] at h
    split at h <;> cases h
    rename_i hsome
    obtain ⟨v, hv⟩ := Option.isSome_iff_exists.mp hsome
    refine ⟨?_, by simp⟩
    exact keeps_of_rebinds hsound (later_removeVm s _) (hwf.removeVm name)
      (rebinds_removeVm hwf hv) (.inr rfl)
  | reserve =>
    simp only [env] at h
    split at h <;> cases h
    rename_i hmay
    simp only [Bool.and_eq_true, decide_eq_true_eq, Option.isNone_iff_eq_none] at hmay
    refine ⟨?_, by simp⟩
    exact keeps_putClaim hsound hmay.2 (fun hp => absurd hp (by simp [hmay.1]))
      (fun hp => absurd hp (by simp [hmay.1]))
  | reap name =>
    simp only [env] at h
    split at h <;> cases h
    exact ⟨keeps_removeClaim hsound name, by simp⟩
  | place name =>
    simp only [env] at h
    split at h
    · rename_i vm hvm
      split at h <;> cases h
      rename_i hmay
      refine ⟨keeps_refl hsound, ?_⟩
      simp only [mem_singleton, forall_eq]
      simp only [mayPlace, Bool.and_eq_true, Option.isNone_iff_eq_none] at hmay
      have hkey : vm.val.name = name := hwf.vmName hvm
      exact ⟨hkey ▸ (hwf.vmsBelow name).saw hvm, hmay.1.2, hwf.vmSize hvm⟩
    · cases h

theorem task_keeps {t next} (hsound : Sound d fleet node s) (ht : TaskOk d fleet node s t)
    (h : task fleet s t () = some (s', next)) :
    Keeps d fleet node s s' ∧ ∀ u ∈ next, TaskOk d fleet node s' u := by
  have hwf := hsound.1
  cases t with
  | claim vm there =>
    simp only [task] at h
    split at h
    · rename_i hfree
      cases h
      have hkeeps : Keeps d fleet node s
          (s.putClaim (forPlacement vm.val there)) := by
        refine keeps_putClaim hsound hfree (fun _ => rfl) fun _ => ?_
        simp only [forPlacement, ht.size]
      refine ⟨hkeeps, ?_⟩
      simp only [mem_singleton, forall_eq]
      refine ⟨ht.later (later_putClaim s _), ?_⟩
      refine ⟨(hkeeps.1.1.claimsBelow _).saw (cell_put_self _ _ _ _), rfl, rfl, rfl, rfl, ?_⟩
      simp only [forPlacement, ht.size]
    · cases h
      refine ⟨keeps_refl hsound, ?_⟩
      simp only [mem_singleton, forall_eq]
      exact ht
  | standing =>
    simp only [task] at h
    split at h
    · rename_i mine hmine
      split at h
      · rename_i hadopt
        cases h
        refine ⟨keeps_refl hsound, ?_⟩
        simp only [CapacityReservation.isPlacementOf, Bool.and_eq_true, decide_eq_true_eq] at hadopt
        obtain ⟨⟨hclaimant, huid⟩, hnode⟩ := hadopt
        have hname := hwf.claimName hmine
        simp only [mem_singleton, forall_eq]
        refine ⟨ht, hname ▸ (hwf.claimsBelow _).saw hmine, hname, hclaimant, huid, hnode, ?_⟩
        rw [hwf.placementSize hmine hclaimant, huid]
      · cases h
        exact ⟨keeps_refl hsound, by simp⟩
    · cases h
      exact ⟨keeps_refl hsound, by simp⟩
  | confirm =>
    simp only [task] at h
    split at h
    · rename_i hholds
      cases h
      refine ⟨keeps_refl hsound, ?_⟩
      simp only [mem_singleton, forall_eq]
      refine ⟨ht.1, ht.2, fun hnode hpos _ hmine => ?_⟩
      rw [← hnode]
      exact load_of_claimHolds hwf hmine hpos hholds
    · cases h
      refine ⟨keeps_refl hsound, ?_⟩
      simp [TaskOk]
  | bind =>
    simp only [task] at h
    split at h
    · rename_i hstands
      cases h
      simp only [Bool.and_eq_true] at hstands
      have hvm := ht.1.saw.eq_of_standsAt hstands.1
      have hmine := ht.2.1.saw.eq_of_standsAt hstands.2
      refine ⟨keeps_bind hsound ht hvm hmine, ?_⟩
      simp [TaskOk]
    · cases h
      refine ⟨keeps_refl hsound, ?_⟩
      simp [TaskOk]
  | release =>
    simp only [task] at h
    split at h
    · cases h
      exact ⟨keeps_removeClaim hsound _, by simp⟩
    · cases h
      exact ⟨keeps_refl hsound, by simp⟩

theorem outline (d fleet node) :
    (program fleet).Outline (Guard.all _ _ _ _) (Sound d fleet node) (TaskOk d fleet node) where
  env hsound _ h := by
    obtain ⟨hkeeps, hnew⟩ := env_keeps hsound h
    exact ⟨hkeeps.1, hnew, hkeeps.2⟩
  task hsound ht _ h := by
    obtain ⟨hkeeps, hnext⟩ := task_keeps hsound ht h
    exact ⟨hkeeps.1, hnext, hkeeps.2⟩

theorem booked_of_run {ms w} (hwf : WellFormed fleet s)
    (hinit : booked d s node ≤ d.of (fleet.allowance node))
    (hrun : (program fleet).run ⟨s, []⟩ ms = some w) :
    booked d w.shared node ≤ d.of (fleet.allowance node) :=
  ((outline d fleet node).run ⟨⟨hwf, hinit⟩, by simp⟩
    (Program.runMeets_all _ _) hrun).1.2

/--
Node capacity is never overbooked by placement: whatever the replicas, the
reapers, the migrations and the other writers of VMs do and wherever replicas
stop, the VMs bound to a node stay within its allowance in both dimensions.
-/
theorem placement_within_allowance (fleet : Fleet) (s : Store) (hwf : WellFormed fleet s)
    (node : String) (hinit : WithinAllowance fleet s node) (ms : List (Move Event Unit))
    (w : World Store Task) (hrun : (program fleet).run ⟨s, []⟩ ms = some w) :
    WithinAllowance fleet w.shared node :=
  ⟨booked_of_run (d := .vcpus) hwf hinit.1 hrun, booked_of_run (d := .memMib) hwf hinit.2 hrun⟩

def smallFleet : Fleet where
  capacity _ := ⟨⟨4, by decide⟩, ⟨4096, by decide⟩⟩
  overcommit := ⟨id⟩
  sizeOf _ := ⟨.clamp 4, .clamp 4096⟩

def smallGuest (name uid : String) : Vm where
  name := name
  uid := uid
  deletionTimestamp := none
  spec := ⟨none, none, .running, ⟨some ⟨4, by decide⟩, some ⟨4096, by decide⟩, []⟩⟩
  status := ⟨⟨.pending, none, none⟩, none, none, none, none, none, none, 0, [], none⟩

def raceForOneNode : List (Move Event Unit) :=
  [.env (.createVm (smallGuest "a" "uid-a")), .env (.createVm (smallGuest "b" "uid-b")),
    .env (.place "a" "n"), .env (.place "b" "n"), .task 0 (), .task 1 (), .task 1 (),
    .task 0 (), .task 1 (), .task 0 (), .task 0 ()]

theorem placement_within_allowance_race :
    ∃ w, (program smallFleet).run ⟨⟨0, ∅, ∅⟩, []⟩ raceForOneNode = some w ∧
      booked .vcpus w.shared "n" = 4 ∧ WithinAllowance smallFleet w.shared "n" := by
  refine ⟨_, rfl, by decide, ?_⟩
  have hwf : WellFormed smallFleet ⟨0, ∅, ∅⟩ := by
    constructor <;> intro k <;> simp [Table.cell, Cell.Below]
  exact placement_within_allowance smallFleet ⟨0, ∅, ∅⟩ hwf "n" ⟨by decide, by decide⟩
    raceForOneNode _ rfl

end MeisterStack.ClusterController.Placement
