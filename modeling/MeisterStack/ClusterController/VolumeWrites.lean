import MeisterStack.ClusterController.VolumeLifecycle

/-!
# What a write does to a volume

Every write of `VolumeLifecycle` in one list, and what each can do to the claim and the home of a
volume. A commit is one of these, the drop of a volume, or a write of somebody else.
-/

namespace MeisterStack.ClusterController.VolumeLifecycle

open Foundation Option Function Store
open ControllerApi
open ControllerApi.Resource
open ClusterController.Volumes (VmObject VolumeLine mayCarry carryOpen followVm
  attach claimantVerdict applyGone applyLine noteOpen)

inductive Writes : Request → String → VolumeObject → VolumeObject → Prop
  | carried (h : Hold) (names : List String) (name : String) (old : VolumeObject) :
      Writes (.hold h names) name old (edited (carryOpen h.vm h.node) name old)
  | followed (h : Hold) (names : List String) (name : String) (old : VolumeObject) :
      Writes (.hold h names) name old (edited (followVm h.vm h.node h.now) name old)
  | claimed (h : Hold) (names : List String) (name : String) (old : VolumeObject)
      (hready : (asVolume name old).phase.kind = .ready) (hfree : old.body.attachedTo = none) :
      Writes (.hold h names) name old (edited (attach h.vm) name old)
  | released (vm : VmObject) (names : List String) (name : String) (old : VolumeObject) :
      Writes (.release vm names) name old (edited (Volumes.release vm) name old)
  | homeMoved (vm : VmObject) (source target : String) (names : List String) (name : String)
      (old : VolumeObject) :
      Writes (.moveHome vm source target names) name old
        (edited (moveHome vm source target) name old)
  | noted (name : String) (listed : Versioned VolumeObject) (vms : List VmObject)
      (old : VolumeObject) :
      Writes (.noteClaimant name listed vms) name old
        (edited (Volumes.noteClaimant (asVolume name listed.val)
          (claimantVerdict (asVolume name listed.val) vms)) name old)
  | gone (lines : List (String × VolumeLine)) (now : Instant) (uid name : String)
      (line : VolumeLine) (old : VolumeObject) (hmem : (uid, line) ∈ lines)
      (hgone : line.gone) (huid : old.uid = uid) :
      Writes (.ingest lines now) name old (edited (applyGone line now) name old)
  | observed (lines : List (String × VolumeLine)) (now : Instant) (name : String)
      (line : VolumeLine) (said : VolumeReported) (old : VolumeObject) :
      Writes (.ingest lines now) name old (edited (applyLine line said now) name old)
  | placed (name node : String) (listed : Versioned VolumeObject) (pass : VolumePass)
      (old : VolumeObject) (hnode : old.body.node = none) :
      Writes (.reconcile name listed pass) name old (edited (placedOn node) name old)
  | waits (name reason : String) (listed : Versioned VolumeObject) (pass : VolumePass)
      (old : VolumeObject) :
      Writes (.reconcile name listed pass) name old
        (edited (pendingFor reason pass.now) name old)
  | holds (request : Request) (name reason : String) (old : VolumeObject) :
      Writes request name old (edited (withHolder reason) name old)
  | took (name : String) (listed : Versioned VolumeObject) (pass : VolumePass)
      (old : VolumeObject) :
      Writes (.reconcile name listed pass) name old
        (takeEdit volumeReleaseFinalizer (drops pass.snapshots) old)
  | marked (name : String) (now : Instant) (old : VolumeObject) :
      Writes (.delete name now) name old (mark now old)

inductive Legal (draw : Nat → String) (store : VolumeStore) :
    Option Request → String → Option VolumeObject → Prop
  | other (key : String) (new : Option VolumeObject) (h : others draw store key new) :
      Legal draw store none key new
  | wrote (request : Request) (key : String) (old : Versioned VolumeObject) (new : VolumeObject)
      (hcell : store.cell key = some old) (h : Writes request key old.val new) :
      Legal draw store (some request) key (some (volumes.encode new))
  | dropped (key : String) (listed old : Versioned VolumeObject) (pass : VolumePass)
      (hcell : store.cell key = some old) (h : drops pass.snapshots old.val) :
      Legal draw store (some (.reconcile key listed pass)) key none

section Writes

variable {request : Request} {name : String} {old new : VolumeObject}

theorem Writes.uid (h : Writes request name old new) : new.uid = old.uid := by
  cases h with
  | took => unfold takeEdit; split <;> rfl
  | _ => rfl

theorem Writes.deleting (h : Writes request name old new)
    (hold : old.metadata.deletionTimestamp.isSome) : new.metadata.deletionTimestamp.isSome := by
  cases h with
  | took => unfold takeEdit; split <;> exact hold
  | marked => rfl
  | _ => exact hold

structure SameClaim (old new : VolumeStatus) : Prop where
  attachedTo : new.attachedTo = old.attachedTo
  attachedUid : new.attachedUid = old.attachedUid
  claimantGone : new.claimantGone = old.claimantGone

theorem noteOpen_claim (status node isOpen) : SameClaim status (noteOpen status node isOpen) := by
  cases isOpen <;> exact ⟨rfl, rfl, rfl⟩

theorem applyGone_claim (line now v) : SameClaim v.status (applyGone line now v).status := by
  have hopen := noteOpen_claim v.status line.node line.isOpen
  unfold applyGone
  split
  · exact ⟨rfl, rfl, rfl⟩
  · split
    · split
      · exact hopen
      · exact ⟨rfl, rfl, rfl⟩
    · exact ⟨hopen.attachedTo, hopen.attachedUid, hopen.claimantGone⟩

theorem applyLine_claim (line said now v) :
    SameClaim v.status (applyLine line said now v).status := by
  have hopen := noteOpen_claim v.status line.node line.isOpen
  unfold applyLine
  split
  · exact ⟨rfl, rfl, rfl⟩
  · exact ⟨hopen.attachedTo, hopen.attachedUid, hopen.claimantGone⟩

inductive ClaimChange (old new : VolumeObject) : Request → Prop
  | same (request : Request) (h : SameClaim old.body new.body) : ClaimChange old new request
  | claimed (h : Hold) (names : List String)
      (hstays : old.metadata.deletionTimestamp = none) (hfree : old.body.attachedTo = none)
      (hto : new.body.attachedTo = some h.vm.name) (huid : new.body.attachedUid = some h.vm.uid)
      (hgone : new.body.claimantGone = false) : ClaimChange old new (.hold h names)
  | released (vm : VmObject) (names : List String)
      (hheld : old.body.heldBy vm.name vm.uid)
      (hto : new.body.attachedTo = old.body.attachedTo)
      (huid : new.body.attachedUid = old.body.attachedUid) :
      ClaimChange old new (.release vm names)
  | judged (name : String) (listed : Versioned VolumeObject) (vms : List VmObject)
      (hlisted : old.body.attachedTo = listed.val.body.attachedTo ∧
        old.body.attachedUid = listed.val.body.attachedUid)
      (hto : new.body.attachedTo = old.body.attachedTo)
      (huid : new.body.attachedUid =
        (claimantVerdict (asVolume name listed.val) vms).bind.or old.body.attachedUid)
      (hgone : new.body.claimantGone = (claimantVerdict (asVolume name listed.val) vms).gone) :
      ClaimChange old new (.noteClaimant name listed vms)

theorem stays_of_ready (h : (asVolume name old).phase.kind = .ready) :
    old.metadata.deletionTimestamp = none := by
  cases hd : old.metadata.deletionTimestamp with
  | none => rfl
  | some =>
    simp only [Volume.phase, asVolume, hd, settleVolume, isSome_some, if_true] at h
    split at h <;> cases h

theorem Writes.claim (h : Writes request name old new) : ClaimChange old new request := by
  cases h with
  | carried | followed | homeMoved =>
    refine .same _ ?_
    simp only [edited, carryOpen, followVm, moveHome]
    split <;> exact ⟨rfl, rfl, rfl⟩
  | claimed h names _ _ hready hfree =>
    exact .claimed h names (stays_of_ready hready) hfree rfl rfl rfl
  | released vm names =>
    by_cases hheld : old.body.heldBy vm.name vm.uid
    · exact .released vm names hheld (by simp [edited, Volumes.release, asVolume, hheld])
        (by simp [edited, Volumes.release, asVolume, hheld])
    · refine .same _ ?_
      simp only [edited, Volumes.release, asVolume, hheld]
      exact ⟨rfl, rfl, rfl⟩
  | noted _ listed vms =>
    by_cases hclaim : old.body.attachedTo = listed.val.body.attachedTo ∧
        old.body.attachedUid = listed.val.body.attachedUid
    · refine .judged _ listed vms hclaim ?_ ?_ ?_ <;>
        simp [edited, Volumes.noteClaimant, asVolume, hclaim]
    · refine .same _ ?_
      simp only [edited, Volumes.noteClaimant]
      split
      · rename_i hsame
        simp only [Bool.and_eq_true, decide_eq_true_eq] at hsame
        exact absurd hsame hclaim
      · exact ⟨rfl, rfl, rfl⟩
  | gone lines now uid _ line => exact .same _ (applyGone_claim line now (asVolume name old))
  | observed lines now _ line said =>
    exact .same _ (applyLine_claim line said now (asVolume name old))
  | took =>
    refine .same _ ?_
    unfold takeEdit
    split <;> exact ⟨rfl, rfl, rfl⟩
  | placed | waits | holds | marked => exact .same _ ⟨rfl, rfl, rfl⟩

inductive NodeChange (old new : VolumeObject) : Request → Prop
  | same (request : Request) (h : new.body.node = old.body.node) : NodeChange old new request
  | carried (h : Hold) (names : List String) (hmay : mayCarry old.body h.vm)
      (hnode : new.body.node = some h.node) : NodeChange old new (.hold h names)
  | homeMoved (vm : VmObject) (source target : String) (names : List String)
      (hclaim : old.body.claimedBy vm.uid) (hnode : new.body.node = some target) :
      NodeChange old new (.moveHome vm source target names)
  | placed (name : String) (listed : Versioned VolumeObject) (pass : VolumePass)
      (hnone : old.body.node = none) : NodeChange old new (.reconcile name listed pass)
  | tombstone (lines : List (String × VolumeLine)) (now : Instant) (line : VolumeLine)
      (hmem : (old.uid, line) ∈ lines) (hgone : line.gone)
      (hhome : old.body.node = some line.node) (hnode : new.body.node = none) :
      NodeChange old new (.ingest lines now)

theorem noteOpen_node (status node isOpen) : (noteOpen status node isOpen).node = status.node := by
  cases isOpen <;> rfl

theorem applyGone_node (line now v) :
    (applyGone line now v).status.node = v.status.node ∨
      v.status.node = some line.node ∧ (applyGone line now v).status.node = none := by
  unfold applyGone
  split
  · exact .inl rfl
  · split
    · split
      · exact .inl (noteOpen_node ..)
      · exact .inl rfl
    · rename_i hhome
      exact .inr ⟨not_not.mp hhome, rfl⟩

theorem applyLine_node (line said now v) :
    (applyLine line said now v).status.node = v.status.node := by
  unfold applyLine
  split
  · rfl
  · exact noteOpen_node ..

theorem Writes.node (h : Writes request name old new) : NodeChange old new request := by
  cases h with
  | carried h names | followed h names =>
    cases hmay : mayCarry old.body h.vm with
    | true => exact .carried h names hmay (by simp [edited, carryOpen, followVm, asVolume, hmay])
    | false => exact .same _ (by simp [edited, carryOpen, followVm, asVolume, hmay])
  | released | noted =>
    refine .same _ ?_
    simp only [edited, Volumes.release, Volumes.noteClaimant]
    split <;> rfl
  | homeMoved vm source target names =>
    by_cases hmoves : old.body.node = some source ∧ old.body.claimedBy vm.uid
    · exact .homeMoved vm source target names hmoves.2
        (by simp [edited, moveHome, asVolume, hmoves])
    · refine .same _ ?_
      simp only [edited, moveHome]
      split
      · rename_i hhere
        simp only [Bool.and_eq_true, decide_eq_true_eq] at hhere
        exact absurd hhere hmoves
      · rfl
  | gone lines now uid _ line _ hmem hgone huid =>
    rcases applyGone_node line now (asVolume name old) with h | ⟨hhome, hnone⟩
    · exact .same _ h
    · exact .tombstone lines now line (huid ▸ hmem) hgone hhome hnone
  | observed lines now _ line said =>
    exact .same _ (applyLine_node line said now (asVolume name old))
  | placed name node listed pass _ hnode => exact .placed name listed pass hnode
  | took =>
    refine .same _ ?_
    unfold takeEdit
    split <;> rfl
  | claimed | waits | holds | marked => exact .same _ rfl

end Writes

variable (status : VolumeStatus)

theorem settle_cases :
    status.settle = status ∨ status.claimantGone ∧ status.openOn = [] ∧
      status.settle =
        { status with attachedTo := none, attachedUid := none, claimantGone := false } := by
  unfold VolumeStatus.settle
  split
  · exact .inl rfl
  · rename_i hfalls
    simp only [volumeClaimHolds, Bool.or_eq_true, not_or, Bool.not_eq_true,
      Bool.not_eq_false', List.isEmpty_iff] at hfalls
    exact .inr ⟨hfalls.1.2, hfalls.2, rfl⟩

@[simp] theorem settle_openOn : status.settle.openOn = status.openOn := by
  unfold VolumeStatus.settle
  split <;> rfl

@[simp] theorem settle_node : status.settle.node = status.node := by
  unfold VolumeStatus.settle
  split <;> rfl

theorem settle_free {status : VolumeStatus} (h : status.attachedTo = none) :
    status.settle = status := by
  simp [VolumeStatus.settle, volumeClaimHolds, h]

@[simp] theorem encode_body (obj) :
    (volumes.encode obj).body = obj.body.settle := rfl

variable (uid : String)

def RecordsGone : Request → Prop
  | .release vm _ => vm.uid = uid
  | .noteClaimant _ _ vms => ∀ vm ∈ vms, Volumes.claims vm → vm.uid ≠ uid
  | _ => False

variable (old : VolumeObject)

def TakenBy : Request → Prop
  | .hold h _ => h.vm.uid = uid ∧ old.metadata.deletionTimestamp = none ∧
      old.body.attachedTo = none
  | _ => False

def BoundTo : Request → Prop
  | .noteClaimant _ _ vms => ∃ vm ∈ vms, Volumes.claims vm ∧ vm.uid = uid ∧
      old.body.attachedTo = some vm.name
  | _ => False

def ForVm : Request → Prop
  | .hold h _ => h.vm.uid = uid
  | .moveHome vm _ _ _ => vm.uid = uid
  | _ => False

def Tombstone : Request → Prop
  | .ingest lines _ => ∃ line, (old.uid, line) ∈ lines ∧ line.gone ∧
      old.body.node = some line.node
  | _ => False

def Placement : Request → Prop
  | .reconcile .. => old.body.node = none
  | _ => False

structure ThroughFree (who : Option Request) (old new : VolumeObject) : Prop where
  kept : ∀ a b, old.body.attachedUid = some a → new.body.attachedUid = some b → b = a
  fell : ∀ a, old.body.attachedUid = some a → new.body.attachedUid = none →
    new.body.openOn = [] ∧ (old.body.claimantGone ∨
      ∃ request, who = some request ∧ RecordsGone a request)
  taken : ∀ b, old.body.attachedUid = none → new.body.attachedUid = some b →
    ∃ request, who = some request ∧ (TakenBy b old request ∨ BoundTo b old request)
  home : ∀ a, old.body.attachedUid = some a → new.body.node ≠ old.body.node →
    ∃ request, who = some request ∧ (ForVm a request ∨
      Tombstone old request ∧ new.body.node = none ∨ Placement old request)

theorem verdict_bind {volume vms uid} (h : (claimantVerdict volume vms).bind = some uid) :
    volume.status.attachedUid = none ∧ ∃ vm ∈ vms, Volumes.claims vm ∧ vm.uid = uid ∧
      volume.status.attachedTo = some vm.name := by
  unfold claimantVerdict at h
  split at h
  · cases h
  · rename_i hnone
    split at h
    · cases h
    · obtain ⟨vm, hvm, rfl⟩ := map_eq_some_iff.mp h
      have hfound := List.find?_some hvm
      simp only [Bool.and_eq_true, decide_eq_true_eq] at hfound
      exact ⟨hnone, vm, List.mem_of_find?_eq_some hvm, hfound.1, rfl, hfound.2.symm⟩

theorem verdict_gone {volume vms uid} (huid : volume.status.attachedUid = some uid)
    (h : (claimantVerdict volume vms).gone) : ∀ vm ∈ vms, Volumes.claims vm → vm.uid ≠ uid := by
  intro vm hvm hclaims heq
  simp only [claimantVerdict, huid, Bool.not_eq_true', List.any_eq_false] at h
  exact h vm hvm (by simp [hclaims, heq])

section OneCommit

variable {request : Request} {name : String} {old new : VolumeObject}
  (h : Writes request name old new)

include h

theorem Writes.uid_cases
    (hnamed : old.body.attachedTo = none → old.body.attachedUid = none) :
    new.body.attachedUid = old.body.attachedUid ∨
      old.body.attachedUid = none ∧ ∃ b, new.body.attachedUid = some b ∧
        (TakenBy b old request ∨ BoundTo b old request) := by
  cases h.claim with
  | same _ hsame => exact .inl hsame.attachedUid
  | claimed hold names hstays hfree _ huid =>
    exact .inr ⟨hnamed hfree, hold.vm.uid, huid, .inl ⟨rfl, hstays, hfree⟩⟩
  | released _ _ _ _ huid => exact .inl huid
  | judged name listed vms hlisted _ huid =>
    cases hbind : (claimantVerdict (asVolume name listed.val) vms).bind with
    | none => exact .inl (by simpa [hbind] using huid)
    | some b =>
      obtain ⟨hnone, vm, hvm, hclaims, hb, hto⟩ := verdict_bind hbind
      refine .inr ⟨hlisted.2.trans hnone, b, by simpa [hbind] using huid, .inr ?_⟩
      exact ⟨vm, hvm, hclaims, hb, hlisted.1.trans hto⟩

theorem Writes.gone_cases {a} (ha : old.body.attachedUid = some a) (hgone : new.body.claimantGone) :
    old.body.claimantGone ∨ RecordsGone a request := by
  cases h.claim with
  | same _ hsame => exact .inl (hsame.claimantGone ▸ hgone)
  | claimed h names _ _ _ _ hfresh =>
    rw [hfresh] at hgone
    cases hgone
  | released vm names hheld =>
    simp only [VolumeStatus.heldBy, ha, decide_eq_true_eq] at hheld
    exact .inr hheld.symm
  | judged name listed vms hlisted _ _ hverdict =>
    exact .inr (verdict_gone (hlisted.2.symm.trans ha) (hverdict ▸ hgone))

theorem Writes.home_cases {a} (ha : old.body.attachedUid = some a)
    (hmoved : new.body.node ≠ old.body.node)
    (hnamed : old.body.attachedTo = none → old.body.attachedUid = none) :
    ForVm a request ∨ Tombstone old request ∧ new.body.node = none ∨ Placement old request := by
  have howner {uid : String} (hclaim : old.body.claimedBy uid) : uid = a := by
    simp only [VolumeStatus.claimedBy, ha, Bool.and_eq_true, decide_eq_true_eq,
      Option.some.injEq] at hclaim
    exact hclaim.2.symm
  cases h.node with
  | same _ hsame => exact absurd hsame hmoved
  | carried h names hmay =>
    simp only [mayCarry, Bool.or_eq_true, isNone_iff_eq_none] at hmay
    rcases hmay with hfree | hclaim
    · rw [hnamed hfree] at ha
      cases ha
    · exact .inl (howner hclaim)
  | homeMoved vm source target names hclaim => exact .inl (howner hclaim)
  | placed _ _ _ hnone => exact .inr (.inr hnone)
  | tombstone lines now line hmem hgone hhome hnode =>
    exact .inr (.inl ⟨⟨line, hmem, hgone, hhome⟩, hnode⟩)

theorem Writes.throughFree
    (hnamed : old.body.attachedTo = none → old.body.attachedUid = none) :
    ThroughFree (some request) old (volumes.encode new) := by
  have hsettled : (volumes.encode new).body.attachedUid = new.body.attachedUid ∨
      new.body.claimantGone ∧ new.body.openOn = [] ∧
        (volumes.encode new).body.attachedUid = none := by
    rcases settle_cases new.body with heq | ⟨hgone, hopen, heq⟩
    · exact .inl (by rw [encode_body, heq])
    · exact .inr ⟨hgone, hopen, by rw [encode_body, heq]⟩
  constructor
  · intro a b ha hb
    rcases hsettled with heq | ⟨-, -, hnone⟩
    · rcases h.uid_cases hnamed with hsame | ⟨hnone, -⟩
      · rw [heq, hsame, ha] at hb
        exact (some.inj hb).symm
      · rw [hnone] at ha
        cases ha
    · rw [hnone] at hb
      cases hb
  · intro a ha hb
    rcases hsettled with heq | ⟨hgone, hopen, -⟩
    · rcases h.uid_cases hnamed with hsame | ⟨hnone, -⟩
      · rw [heq, hsame, ha] at hb
        cases hb
      · rw [hnone] at ha
        cases ha
    · refine ⟨by simpa using hopen, ?_⟩
      rcases h.gone_cases ha hgone with hold | hrecords
      · exact .inl hold
      · exact .inr ⟨request, rfl, hrecords⟩
  · intro b ha hb
    rcases hsettled with heq | ⟨-, -, hnone⟩
    · rcases h.uid_cases hnamed with hsame | ⟨-, b', hb', hhow⟩
      · rw [heq, hsame, ha] at hb
        cases hb
      · rw [heq, hb'] at hb
        cases hb
        exact ⟨request, rfl, hhow⟩
    · rw [hnone] at hb
      cases hb
  · intro a ha hmoved
    have hmoved' : new.body.node ≠ old.body.node := by simpa using hmoved
    rcases h.home_cases ha hmoved' hnamed with hfor | ⟨htomb, hnone⟩ | hplaced
    · exact ⟨request, rfl, .inl hfor⟩
    · exact ⟨request, rfl, .inr (.inl ⟨htomb, by simpa using hnone⟩)⟩
    · exact ⟨request, rfl, .inr (.inr hplaced)⟩

end OneCommit

structure Proper (draw : Nat → String) (store : VolumeStore) : Prop where
  drawn : ∀ {key obj}, store.cell key = some obj → ∃ n < store.next, obj.val.uid = draw n
  distinct : ∀ {key key' obj obj'}, store.cell key = some obj → store.cell key' = some obj' →
    obj.val.uid = obj'.val.uid → key = key'
  named : ∀ {key obj}, store.cell key = some obj → obj.val.body.attachedTo = none →
    obj.val.body.attachedUid = none

structure Doomed (draw : Nat → String) (uid : String) (store : VolumeStore) : Prop where
  drawn : ∃ n < store.next, uid = draw n
  free : ∀ {key obj}, store.cell key = some obj → obj.val.uid = uid →
    obj.val.metadata.deletionTimestamp.isSome ∧ obj.val.body.attachedTo = none ∧
      obj.val.body.attachedUid = none

section Stores

variable {draw : Nat → String} {store : VolumeStore} {who : Option Request} {key : String}
  {new : Option VolumeObject} {uid : String}

theorem cell_commit_cases {key' obj} (h : (store.commit key new).cell key' = some obj) :
    key' = key ∧ new = some obj.val ∨ key' ≠ key ∧ store.cell key' = some obj := by
  by_cases hk : key' = key
  · subst hk
    rw [cell_commit_self] at h
    obtain ⟨x, hx, rfl⟩ := map_eq_some_iff.mp h
    exact .inl ⟨rfl, hx⟩
  · rw [cell_commit_ne store hk] at h
    exact .inr ⟨hk, h⟩

variable {x : VolumeObject}

theorem others_cases (h : others draw store key (some x)) :
    (∃ old, store.cell key = some old ∧ x.uid = old.val.uid ∧
      (old.val.metadata.deletionTimestamp.isSome → x.metadata.deletionTimestamp.isSome) ∧
      SameHold old.val.body x.body) ∨
    store.cell key = none ∧ x.uid = draw store.next ∧ x.body = unused := by
  simp only [others] at h
  split at h
  · rename_i old hc
    simp only [Bool.and_eq_true, Bool.or_eq_true, decide_eq_true_eq, isNone_iff_eq_none] at h
    refine .inl ⟨old, hc, h.1.1, fun hdeleting => ?_, h.2⟩
    rcases h.1.2 with hnone | hsame
    · rw [hnone] at hdeleting
      cases hdeleting
    · rwa [hsame]
  · rename_i hc
    simp only [Bool.and_eq_true, decide_eq_true_eq] at h
    exact .inr ⟨hc, h.1.1, h.2⟩

theorem Legal.uid_cases (h : Legal draw store who key (some x)) :
    (∃ old, store.cell key = some old ∧ x.uid = old.val.uid) ∨
      store.cell key = none ∧ x.uid = draw store.next := by
  cases h with
  | other _ _ hothers =>
    rcases others_cases hothers with ⟨old, hc, huid, -⟩ | ⟨hc, huid, -⟩
    · exact .inl ⟨old, hc, huid⟩
    · exact .inr ⟨hc, huid⟩
  | wrote _ _ old new hcell hwrites => exact .inl ⟨old, hcell, hwrites.uid⟩

theorem ClaimChange.named {request old new} (h : ClaimChange old new request)
    (hnamed : old.body.attachedTo = none → old.body.attachedUid = none)
    (hfree : new.body.attachedTo = none) : new.body.attachedUid = none := by
  cases h with
  | same _ hsame =>
    rw [hsame.attachedUid]
    exact hnamed (hsame.attachedTo.symm.trans hfree)
  | claimed hold names _ _ hto =>
    rw [hto] at hfree
    cases hfree
  | released _ _ _ hto huid =>
    rw [huid]
    exact hnamed (hto.symm.trans hfree)
  | judged name listed vms hlisted hto huid =>
    have hold : old.body.attachedTo = none := hto.symm.trans hfree
    cases hbind : (claimantVerdict (asVolume name listed.val) vms).bind with
    | none =>
      rw [huid, hbind]
      exact hnamed hold
    | some =>
      obtain ⟨-, vm, -, -, -, hname⟩ := verdict_bind hbind
      have hsome : old.body.attachedTo = some vm.name := hlisted.1.trans hname
      rw [hold] at hsome
      cases hsome

theorem ClaimChange.free {request old new} (h : ClaimChange old new request)
    (hdeleting : old.metadata.deletionTimestamp.isSome) (hfree : old.body.attachedTo = none) :
    new.body.attachedTo = none := by
  cases h with
  | same _ hsame => exact hsame.attachedTo.trans hfree
  | claimed _ _ hstays =>
    rw [hstays] at hdeleting
    cases hdeleting
  | released _ _ _ hto | judged _ _ _ _ hto => exact hto.trans hfree

theorem Legal.named (h : Legal draw store who key (some x))
    (hs : Proper draw store) (hfree : x.body.attachedTo = none) : x.body.attachedUid = none := by
  cases h with
  | other _ _ hothers =>
    rcases others_cases hothers with ⟨old, hc, -, -, hsame⟩ | ⟨-, -, hunused⟩
    · rw [hsame.attachedUid]
      exact hs.named hc (hsame.attachedTo.symm.trans hfree)
    · rw [hunused]
      rfl
  | wrote _ _ old new hcell hwrites =>
    rcases settle_cases new.body with heq | ⟨-, -, heq⟩
    · rw [encode_body, heq] at hfree ⊢
      exact hwrites.claim.named (hs.named hcell) hfree
    · rw [encode_body, heq]

theorem Legal.proper (hdraw : Injective draw) (h : Legal draw store who key new)
    (hs : Proper draw store) : Proper draw (store.commit key new) := by
  -- A record written under the key shares its uid with no record under another key.
  have hapart {x : VolumeObject} {key' : String} {obj : Versioned VolumeObject}
      (hx : new = some x) (hk : key' ≠ key) (hc : store.cell key' = some obj) :
      obj.val.uid ≠ x.uid := by
    subst hx
    intro heq
    rcases h.uid_cases with ⟨old, hold, huid⟩ | ⟨-, huid⟩
    · exact hk (hs.distinct hc hold (heq.trans huid))
    · obtain ⟨n, hn, hdrawn⟩ := hs.drawn hc
      have : n = store.next := hdraw (hdrawn.symm.trans (heq.trans huid))
      omega
  constructor
  · intro key' obj hc
    rw [commit_next]
    rcases cell_commit_cases hc with ⟨-, rfl⟩ | ⟨-, hc⟩
    · rcases h.uid_cases with ⟨old, hold, huid⟩ | ⟨-, huid⟩
      · obtain ⟨n, hn, hdrawn⟩ := hs.drawn hold
        exact ⟨n, by omega, huid.trans hdrawn⟩
      · exact ⟨store.next, by omega, huid⟩
    · obtain ⟨n, hn, hdrawn⟩ := hs.drawn hc
      exact ⟨n, by omega, hdrawn⟩
  · intro key' key'' obj obj' hc hc' huid
    rcases cell_commit_cases hc with ⟨hk, hx⟩ | ⟨hk, hc⟩ <;>
      rcases cell_commit_cases hc' with ⟨hk', hx'⟩ | ⟨hk', hc'⟩
    · exact hk.trans hk'.symm
    · exact absurd huid.symm (hapart hx hk' hc')
    · exact absurd huid (hapart hx' hk hc)
    · exact hs.distinct hc hc' huid
  · intro key' obj hc hfree
    rcases cell_commit_cases hc with ⟨-, rfl⟩ | ⟨-, hc⟩
    · exact h.named hs hfree
    · exact hs.named hc hfree

theorem Legal.doomed (hdraw : Injective draw) (h : Legal draw store who key new)
    (hd : Doomed draw uid store) : Doomed draw uid (store.commit key new) := by
  obtain ⟨n, hn, hdrawn⟩ := hd.drawn
  refine ⟨⟨n, by rw [commit_next]; omega, hdrawn⟩, fun {key' obj} hc huid => ?_⟩
  rcases cell_commit_cases hc with ⟨-, rfl⟩ | ⟨-, hc⟩
  · generalize hx : some obj.val = new at h
    cases h with
    | other _ _ hothers =>
      subst hx
      rcases others_cases hothers with ⟨old, hc, huid', hdeleting, hsame⟩ | ⟨-, huid', -⟩
      · have hfree := hd.free hc (huid'.symm.trans huid)
        exact ⟨hdeleting hfree.1, hsame.attachedTo.trans hfree.2.1,
          hsame.attachedUid.trans hfree.2.2⟩
      · have : n = store.next := hdraw (hdrawn.symm.trans (huid.symm.trans huid'))
        omega
    | wrote _ _ old x hcell hwrites =>
      have hobj := some.inj hx
      have hfree := hd.free hcell (hwrites.uid.symm.trans (by rw [← huid, hobj]; rfl))
      have hto := hwrites.claim.free hfree.1 hfree.2.1
      rw [hobj, encode_body, settle_free hto]
      exact ⟨hwrites.deleting hfree.1, hto, hwrites.claim.named (fun _ => hfree.2.2) hto⟩
    | dropped => cases hx
  · exact hd.free hc huid

end Stores

section Commits

variable {draw : Nat → String} {store : VolumeStore} {who : Option Request} {key : String}
  {old : Versioned VolumeObject} {new : VolumeObject} (h : Legal draw store who key (some new))

include h

theorem Legal.throughFree (hs : Proper draw store)
    (hc : store.cell key = some old) : ThroughFree who old.val new := by
  cases h with
  | other _ _ hothers =>
    rcases others_cases hothers with ⟨old', hc', -, -, hsame⟩ | ⟨hc', -⟩
    · obtain rfl := some.inj (hc.symm.trans hc')
      have huid := hsame.attachedUid
      constructor
      · intro a b ha hb
        rw [huid, ha] at hb
        exact (some.inj hb).symm
      · intro a ha hb
        rw [huid, ha] at hb
        cases hb
      · intro b ha hb
        rw [huid, ha] at hb
        cases hb
      · intro a _ hmoved
        exact absurd hsame.node hmoved
    · rw [hc] at hc'
      cases hc'
  | wrote request _ old' new hcell hwrites =>
    obtain rfl := some.inj (hc.symm.trans hcell)
    exact hwrites.throughFree (hs.named hc)

theorem Legal.home_cleared (hc : store.cell key = some old) {node}
    (hhome : old.val.body.node = some node) (hnone : new.body.node = none) :
    ∃ request, who = some request ∧ Tombstone old.val request := by
  cases h with
  | other _ _ hothers =>
    rcases others_cases hothers with ⟨old', hc', -, -, hsame⟩ | ⟨hc', -⟩
    · obtain rfl := some.inj (hc.symm.trans hc')
      rw [hsame.node, hhome] at hnone
      cases hnone
    · rw [hc] at hc'
      cases hc'
  | wrote request _ old' new hcell hwrites =>
    obtain rfl := some.inj (hc.symm.trans hcell)
    rw [encode_body, settle_node] at hnone
    refine ⟨request, rfl, ?_⟩
    cases hwrites.node with
    | same _ hsame =>
      rw [hsame, hhome] at hnone
      cases hnone
    | carried _ _ _ hnode | homeMoved _ _ _ _ _ hnode =>
      rw [hnode] at hnone
      cases hnone
    | placed _ _ _ hnode =>
      rw [hhome] at hnode
      cases hnode
    | tombstone lines now line hmem hgone hhome' => exact ⟨line, hmem, hgone, hhome'⟩

theorem Legal.unclaimed (hc : store.cell key = none) :
    new.body = unused := by
  cases h with
  | other _ _ hothers =>
    rcases others_cases hothers with ⟨old', hc', -⟩ | ⟨-, -, hunused⟩
    · rw [hc] at hc'
      cases hc'
    · exact hunused
  | wrote _ _ old' _ hcell =>
    rw [hc] at hcell
    cases hcell

end Commits

end MeisterStack.ClusterController.VolumeLifecycle
