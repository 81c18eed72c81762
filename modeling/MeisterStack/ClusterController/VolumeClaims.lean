import MeisterStack.ClusterController.VolumeWrites

/-!
# Claims change hands through a free state

Every call of `VolumeLifecycle` commits only writes of the list in `VolumeWrites`. In every
interleaving a claim is never handed over, it falls only when its claimant was recorded gone and no
node has the bytes open, and a volume on its way out that nobody claims stays that way.
-/

namespace MeisterStack.ClusterController.VolumeLifecycle

open Foundation List Option Site System Call.Safe Function
open ControllerApi
open ControllerApi.Resource
open ClusterController.Volumes (VmObject VolumeLine carryOpen followVm applyGone
  applyLine)

structure Inv (draw : Nat → String) (s : VolumeSite) : Prop where
  remembers : s.Remembers
  chained : s.Chained
  proper : ∀ store ∈ s.moments, Proper draw store
  legal : ∀ c ∈ s.commits, Legal draw c.store c.who c.key c.new

theorem mem_moments_now (s : VolumeSite) : s.store ∈ s.moments :=
  mem_of_getElem? s.moments_now

variable {draw : Nat → String} {s : VolumeSite} (hdraw : Injective draw)

include hdraw

theorem Inv.next {s'} (h : Inv draw s) (hn : Next (Legal draw) s s') : Inv draw s' where
  remembers := (Later.next hn).remembers h.remembers
  chained := (Later.next hn).chained h.chained
  proper store hmem := by
    cases hn with
    | commit who key new hlegal =>
      rw [moments_commit, mem_append, mem_singleton] at hmem
      rcases hmem with hmem | rfl
      · exact h.proper store hmem
      · exact hlegal.proper hdraw (h.proper _ (mem_moments_now s))
    | answer => exact h.proper store hmem
  legal c hmem := by
    cases hn with
    | commit who key new hlegal =>
      rcases mem_append.mp hmem with hmem | hmem
      · exact h.legal c hmem
      · rw [mem_singleton.mp hmem]
        exact hlegal
    | answer => exact h.legal c hmem

variable {store : VolumeStore}

theorem Inv.doomed_later (h : Inv draw s) {uid}
    {i j : Nat} {store'} (hij : i ≤ j) (hi : s.moments[i]? = some store)
    (hj : s.moments[j]? = some store') (hd : Doomed draw uid store) : Doomed draw uid store' :=
  h.chained.keep (Doomed draw uid) hij hi hj hd fun _ c _ _ hc hdoomed =>
    (h.legal c (mem_of_getElem? hc)).doomed hdraw hdoomed

theorem Inv.doomed_of_listed (h : Inv draw s) {name listed} (hstore : store ∈ s.moments)
    (hc : store.cell name = some listed) (hdeleting : listed.val.metadata.deletionTimestamp.isSome)
    (hfree : listed.val.body.attachedTo = none) : Doomed draw listed.val.uid s.store := by
  have hproper := h.proper store hstore
  obtain ⟨i, hi⟩ := mem_iff_getElem?.mp hstore
  have hle : i ≤ s.commits.length := by
    have := (List.getElem?_eq_some_iff.mp hi).1
    rw [moments_length] at this
    omega
  refine h.doomed_later hdraw hle hi s.moments_now ⟨hproper.drawn hc, fun {key obj} hobj huid => ?_⟩
  obtain rfl := hproper.distinct hobj hc huid
  rw [hc] at hobj
  cases hobj
  exact ⟨hdeleting, hfree, hproper.named hc hfree⟩

def Meets (draw : Nat → String) (request : Request) (_ : Nat) (s : VolumeSite)
    (_ : List (Commit Request String VolumeObject)) : Outcome → Prop
  | .deprovision uid _ => Doomed draw uid s.store ∧ ∃ name listed pass,
      request = .reconcile name listed pass ∧ listed.val.uid = uid ∧
        listed.val.metadata.deletionTimestamp.isSome
  | _ => True

theorem meets_stable (request began) : Stable (Legal draw) (Meets draw request began) := by
  intro s s' own answer hl h
  cases answer with
  | deprovision uid =>
    refine ⟨hl.keep (fun s => Doomed draw uid s.store) h.1 fun hn hd => ?_, h.2⟩
    cases hn with
    | commit who key new hlegal => exact hlegal.doomed hdraw hd
    | answer => exact hd
  | _ => trivial

omit hdraw

section Safety

abbrev Post (ρ : Type) := VolumeSite → List (Commit Request String VolumeObject) → ρ → Prop

/-- What a call may answer with at any time from `s` on, whatever the answer is. -/
structure Settles {ρ : Type} (draw : Nat → String) (s : VolumeSite) (post : Post ρ) : Prop where
  stable : Stable (Legal draw) post
  sound : s.store.Sound
  any : ∀ s' own' result, Later (Legal draw) s s' → post s' own' result

variable {draw : Nat → String} {request : Request} {name : String} {s : VolumeSite}
  {own : List (Commit Request String VolumeObject)}

section Settles

variable {ρ : Type} {post : Post ρ} {s' : VolumeSite} (h : Settles draw s post)
  (hl : Later (Legal draw) s s')

include h hl

theorem Settles.later : Settles draw s' post :=
  ⟨h.stable, hl.sound h.sound, fun s'' own' result hl' => h.any s'' own' result (hl.trans hl')⟩

theorem Settles.ret {result} :
    (Call.ret result : VolumeCall ρ).Safe (Legal draw) unguarded request post own s' :=
  .ret h.stable (h.any s' own result hl)

end Settles

theorem mutate_safe {γ : Type} {ours} {n}
    {edit}
    {post : Post (Except StoreError (Versioned VolumeObject × γ))}
    (hstable : Stable (Legal draw) post) (hs : s.store.Sound)
    (hwrites : ∀ obj, ours obj → Writes request name obj (edit obj).1)
    (herror : ∀ s' own' why, Later (Legal draw) s s' → post s' own' (.error why))
    (hok : ∀ s' own' obj flag, Later (Legal draw) s s' → s'.store.Knew name obj →
      post s' own' (.ok (obj, flag))) :
    (volumes.mutateLoop name ours edit n).Safe (Legal draw) unguarded request post
      own s := by
  have hlegal (s' : VolumeSite) (obj : Versioned VolumeObject)
      (hc : s'.store.cell name = some obj) (hours : ours obj.val) :
      Legal draw s'.store (some request) name (some (volumes.encode (edit obj.val).1)) :=
    .wrote request name obj _ hc (hwrites obj.val hours)
  refine mutateLoop_safe hstable n ?_
  exact {
    sound := hs
    fault := fun s' why hl => herror s' own _ hl
    missing := fun s' hl _ => herror s' own _ hl
    other := fun s' obj hl _ _ => herror s' own _ hl
    spent := fun s' hl => herror s' own _ hl
    permitted := fun s' obj _ hc hours _ => hlegal s' obj hc hours
    lost := fun s' obj why hl hc hours _ =>
      herror _ _ _ (hl.trans (.next (.commit _ _ _ (hlegal s' obj hc hours))))
    written := fun s' obj hl hc hours _ => by
      have hnext := hl.trans (.next (.commit _ _ _ (hlegal s' obj hc hours)))
      exact hok _ _ _ _ hnext ((hnext.sound hs).knew (Store.cell_commit_self ..)) }

theorem update_safe {volume new post} (h : Settles draw s post) (hknew : s.store.Knew name volume)
    (hwrites : Writes request name volume.val new) :
    (volumes.update name volume.rev new).Safe (Legal draw) unguarded request post own s := by
  intro s' hl _
  refine ⟨fun why => h.ret hl, fun _ => h.ret hl, fun hrev => ?_⟩
  have hlegal : Legal draw s'.store (some request) name (some (volumes.encode new)) :=
    .wrote request name volume new ((hl.knew hknew).stands hrev) hwrites
  have hnext := hl.trans (.next (.commit _ _ _ hlegal))
  exact ⟨hlegal, fun why => h.ret hnext, h.ret hnext⟩

section Hold

variable {h : Hold} {names : List String} {post : Post (Except HoldError Unit)}

theorem carryRecord_safe {uid rePoint post} (hstable : Stable (Legal draw) post)
    (hs : s.store.Sound)
    (hwrites : ∀ old, Writes (.hold h names) name old (edited rePoint name old))
    (herror : ∀ s' own' why, Later (Legal draw) s s' → post s' own' (.error why))
    (hok : ∀ s' own' moved, Later (Legal draw) s s' → s'.store.Knew name moved →
      post s' own' (.ok moved)) :
    (h.carryRecord name uid rePoint).Safe (Legal draw) unguarded (.hold h names) post
      own s := by
  refine .bind (mutate_safe (stable _) hs (fun obj _ => hwrites obj) ?_ ?_)
  · intro s' own' why hl
    exact .ret hstable (herror s' own' _ hl)
  · intro s' own' moved carried hl hknew
    cases carried with
    | true => exact .ret hstable (hok s' own' moved hl hknew)
    | false => exact .ret hstable (herror s' own' _ hl)

variable {volume : Versioned VolumeObject}

theorem claim_safe (hpost : Settles draw s post)
    (hknew : s.store.Knew name volume) :
    (h.claim name volume).Safe (Legal draw) unguarded (.hold h names) post own s := by
  unfold Hold.claim
  dsimp only
  split
  · exact hpost.ret (.refl s)
  · rename_i hready
    split
    · split <;> exact hpost.ret (.refl s)
    · rename_i hfree
      split
      · exact hpost.ret (.refl s)
      · refine .bind (update_safe ⟨stable _, hpost.sound, fun s' own' result hl => ?_⟩
          hknew (.claimed h names name volume.val (not_not.mp hready) hfree))
        split <;> exact hpost.ret hl

theorem followOrClaim_safe (hpost : Settles draw s post)
    (hknew : s.store.Knew name volume) :
    (h.followOrClaim name volume).Safe (Legal draw) unguarded (.hold h names) post
      own s := by
  unfold Hold.followOrClaim
  split
  · split
    · exact hpost.ret (.refl s)
    · refine .bind (carryRecord_safe (stable _) hpost.sound (.followed h names name) ?_ ?_)
      · exact fun s' own' why hl => hpost.ret hl
      · exact fun s' own' moved hl _ => hpost.ret hl
    · exact claim_safe hpost hknew
  · exact claim_safe hpost hknew

theorem holdVolume_safe (hpost : Settles draw s post) :
    (h.holdVolume name).Safe (Legal draw) unguarded (.hold h names) post own s := by
  refine .bind (get_safe (stable _) (fun s' why hl => hpost.ret hl)
    (fun s' hl _ => hpost.ret hl) fun s' volume hl hc => ?_)
  have hpost' := hpost.later hl
  dsimp only
  split
  · exact hpost.ret hl
  · split
    · refine .bind (carryRecord_safe (stable _) hpost'.sound (.carried h names name) ?_ ?_)
      · exact fun s'' own' why hl' => hpost'.ret hl'
      · exact fun s'' own' moved hl' hknew => followOrClaim_safe (hpost'.later hl') hknew
    · exact followOrClaim_safe hpost' (hpost'.sound.knew hc)

theorem holdVolumes_safe (todo) (hpost : Settles draw s post) :
    (h.holdVolumes todo).Safe (Legal draw) unguarded (.hold h names) post own s := by
  induction todo generalizing s own with
  | nil => exact hpost.ret (.refl s)
  | cons name todo ih =>
    refine .bind (holdVolume_safe ⟨stable _, hpost.sound, fun s' own' result hl => ?_⟩)
    split
    · exact ih (hpost.later hl)
    · exact hpost.ret hl

end Hold

variable {edit : Volume → Volume}

theorem each_safe (names) {post} (hpost : Settles draw s post)
    (hwrites : ∀ name old, Writes request name old (edited edit name old)) :
    (each (fun name => volumes.mutate name fun obj => (edited edit name obj, ())) names).Safe
      (Legal draw) unguarded request post own s := by
  induction names generalizing s own with
  | nil => exact hpost.ret (.refl s)
  | cons name names ih =>
    exact .bind (mutate_safe (stable _) hpost.sound (fun obj _ => hwrites name obj)
      (fun s' own' _ hl => ih (hpost.later hl)) fun s' own' _ _ hl _ => ih (hpost.later hl))

theorem write_safe {uid post} (hpost : Settles draw s post)
    (hwrites : ∀ old, old.uid = uid → Writes request name old (edited edit name old)) :
    ((volumes.mutateIf name uid fun obj => (edited edit name obj, ())).map finished).Safe
      (Legal draw) unguarded request post own s := by
  refine .map hpost.stable (mutate_safe (hpost.stable.comp finished) hpost.sound ?_ ?_ ?_)
  · exact fun obj hours => hwrites obj (of_decide_eq_true hours)
  · exact fun s' own' why hl => hpost.any s' own' _ hl
  · exact fun s' own' obj _ hl _ => hpost.any s' own' _ hl

theorem lineEdit_cases {volume line now} (h : lineEdit volume line now = some edit) :
    line.gone ∧ edit = applyGone line now ∨ ∃ said, edit = applyLine line said now := by
  unfold lineEdit at h
  split at h
  · cases h
  · split at h
    · rename_i hgone
      exact .inl ⟨hgone, (some.inj h).symm⟩
    · split at h
      · cases h
      · dsimp only at h
        split at h
        · cases h
        · exact .inr ⟨_, (some.inj h).symm⟩

theorem ingestLines_safe {listed now lines} (todo) (hsub : ∀ entry ∈ todo, entry ∈ lines) {post}
    (hpost : Settles draw s post) :
    (ingestLines listed now todo).Safe (Legal draw) unguarded (.ingest lines now) post
      own s := by
  induction todo generalizing s own with
  | nil => exact hpost.ret (.refl s)
  | cons entry todo ih =>
    obtain ⟨uid, line⟩ := entry
    have hrest (s' : VolumeSite) (own' : List (Commit Request String VolumeObject))
        (hl : Later (Legal draw) s s') :
        (ingestLines listed now todo).Safe (Legal draw) unguarded (.ingest lines now)
          post own' s' :=
      ih (fun e he => hsub e (mem_cons_of_mem _ he)) (hpost.later hl)
    unfold ingestLines
    split
    · exact hrest s own (.refl s)
    · rename_i name volume _
      split
      · exact hrest s own (.refl s)
      · rename_i edit hedit
        refine .bind (mutate_safe (stable _) hpost.sound (fun obj hours => ?_)
          (fun s' own' _ hl => hrest s' own' hl) fun s' own' _ _ hl _ => hrest s' own' hl)
        rcases lineEdit_cases hedit with ⟨hgone, rfl⟩ | ⟨said, rfl⟩
        · exact .gone lines now uid name line obj (hsub _ mem_cons_self) hgone
            (of_decide_eq_true hours)
        · exact .observed lines now name line said obj

section Pass

variable {listed : Versioned VolumeObject} {pass : VolumePass}
  {post : Post (Except StoreError Unit)}

theorem noteVolumeReleasing_safe {reason} (hpost : Settles draw s post) :
    (noteVolumeReleasing name listed reason).Safe (Legal draw) unguarded request post
      own s := by
  unfold noteVolumeReleasing
  split
  · exact hpost.ret (.refl s)
  · exact write_safe hpost fun old _ => .holds request name reason old

theorem placeVolume_safe (hpost : Settles draw s post) (hknew : s.store.Knew name listed)
    (hnode : listed.val.body.node = none) :
    (placeVolume name listed pass).Safe (Legal draw) unguarded
      (.reconcile name listed pass) post own s := by
  unfold placeVolume
  split
  · split
    · exact hpost.ret (.refl s)
    · exact write_safe hpost fun old _ => .waits name _ listed pass old
  · rename_i node _
    refine .bind (update_safe ⟨stable _, hpost.sound, fun s' own' result hl => ?_⟩ hknew
      (.placed name node listed pass listed.val hnode))
    split <;> exact hpost.ret hl

theorem dropVolume_safe (hpost : Settles draw s post) :
    (dropVolume name listed pass.snapshots).Safe (Legal draw) unguarded
      (.reconcile name listed pass) post own s := by
  have htake {s' : VolumeSite} {obj : Versioned VolumeObject}
      (hc : s'.store.cell name = some obj) :
      Legal draw s'.store (some (.reconcile name listed pass)) name
        (some (volumes.encode (takeEdit volumeReleaseFinalizer (drops pass.snapshots) obj.val))) :=
    .wrote _ name obj _ hc (.took name listed pass obj.val)
  have hdrop {s' : VolumeSite} {obj : Versioned VolumeObject}
      (hc : s'.store.cell name = some obj)
      (hreleasable : releasable volumeReleaseFinalizer (drops pass.snapshots) obj.val) :
      Legal draw s'.store (some (.reconcile name listed pass)) name none :=
    .dropped name listed obj pass hc (Bool.and_eq_true _ _ ▸ hreleasable).1
  refine .bind (takeFinalizer_safe (stable _) ?_)
  exact {
    sound := hpost.sound
    fault := fun s' why hl => hpost.ret hl
    moved := fun s' hl => hpost.ret hl
    permitted := fun s' obj _ hc _ _ => htake hc
    lost := fun s' obj why hl hc _ _ => hpost.ret (hl.trans (.next (.commit _ _ _ (htake hc))))
    declined := fun s' obj hl hc _ _ _ => hpost.ret (hl.trans (.next (.commit _ _ _ (htake hc))))
    took := fun s' obj hl hc _ _ _ => by
      have hnext := hpost.later (hl.trans (.next (.commit _ _ _ (htake hc))))
      refine .map hpost.stable (finishDeleteLoop_safe (hpost.stable.comp finished) _
        (hnext.sound.knew (Store.cell_commit_self ..)) rfl ?_)
      exact {
        sound := hnext.sound
        fault := fun s'' why hl' => hnext.any s'' _ _ hl'
        left := fun s'' hl' => hnext.any s'' _ _ hl'
        permitted := fun s'' obj' _ hc' _ hreleasable _ => hdrop hc' hreleasable
        lost := fun s'' obj' why hl' hc' _ hreleasable _ =>
          hnext.any _ _ _ (hl'.trans (.next (.commit _ _ _ (hdrop hc' hreleasable))))
        removed := fun s'' obj' hl' hc' _ hreleasable _ =>
          hnext.any _ _ _ (hl'.trans (.next (.commit _ _ _ (hdrop hc' hreleasable)))) } }

end Pass

theorem releaseAction_waiting {status snapshots node}
    (h : releaseAction status snapshots = .waitingForNode node) : status.attachedTo = none := by
  unfold releaseAction at h
  split at h
  · cases h
  · assumption

theorem releaseAction_drop {status snapshots} (h : releaseAction status snapshots = .drop) :
    status.attachedTo = none ∧ status.node = none := by
  unfold releaseAction at h
  split at h
  · cases h
  · split at h
    · cases h
    · split at h
      · cases h
      · exact ⟨by assumption, by assumption⟩

theorem reconcileVolume_safe (hdraw : Injective draw) {listed pass store began}
    (hs : Inv draw s) (hstore : store ∈ s.moments) (hc : store.cell name = some listed) :
    (reconcileVolume name listed pass).Safe (Legal draw) unguarded
      (.reconcile name listed pass) (Meets draw (.reconcile name listed pass) began) own s := by
  have hstable := meets_stable hdraw (.reconcile name listed pass) began
  have hdone : Settles draw s _ := ⟨hstable.comp .done, hs.remembers.sound, fun _ _ _ _ => trivial⟩
  unfold reconcileVolume
  split
  · rename_i hdeleting
    unfold release
    split
    · exact .map hstable (noteVolumeReleasing_safe hdone)
    · rename_i node haction
      unfold deprovisionVolume
      split
      · exact .ret hstable ⟨hs.doomed_of_listed hdraw hstore hc hdeleting
          (releaseAction_waiting haction), name, listed, pass, rfl, rfl, hdeleting⟩
      · exact .map hstable (noteVolumeReleasing_safe hdone)
    · exact .map hstable (dropVolume_safe hdone)
  · split
    · rename_i hnode
      exact .map hstable (placeVolume_safe hdone (hs.remembers.knew hstore hc)
        (isNone_iff_eq_none.mp hnode))
    · exact .ret hstable trivial

theorem call_safe (hdraw : Injective draw) {began} (hs : Inv draw s)
    (hlisted : ∀ name listed, request.listed = some (name, listed) →
      ∃ store ∈ s.moments, store.cell name = some listed) :
    request.call.Safe (Legal draw) unguarded request (Meets draw request began) own s := by
  have hstable := meets_stable hdraw request began
  have hsound := hs.remembers.sound
  have hdone : Settles draw s _ := ⟨hstable.comp .done, hsound, fun _ _ _ _ => trivial⟩
  cases request with
  | hold h names =>
    exact .map hstable (holdVolumes_safe names ⟨hstable.comp .held, hsound, fun _ _ _ _ => trivial⟩)
  | release vm names =>
    exact .map hstable (each_safe names
      ⟨hstable.comp fun _ => .done (.ok ()), hsound, fun _ _ _ _ => trivial⟩ (.released vm names))
  | moveHome vm source target names =>
    exact .map hstable (each_safe names
      ⟨hstable.comp fun _ => .done (.ok ()), hsound, fun _ _ _ _ => trivial⟩
      (.homeMoved vm source target names))
  | noteClaimant name listed vms =>
    refine .map hstable ?_
    unfold noteClaimant
    dsimp only
    split
    · exact hdone.ret (.refl s)
    · split
      · exact hdone.ret (.refl s)
      · exact write_safe hdone fun old _ => .noted name listed vms old
  | ingest lines =>
    refine .map hstable fun s' hl => ⟨fun why => .ret (hstable.comp .done) trivial, ?_⟩
    exact .map (hstable.comp .done) (ingestLines_safe lines (fun _ he => he)
      ⟨(hstable.comp .done).comp .ok, hl.sound hsound, fun _ _ _ _ => trivial⟩)
  | reconcile name listed =>
    obtain ⟨store, hstore, hc⟩ := hlisted name listed rfl
    exact reconcileVolume_safe hdraw hs hstore hc
  | noteReleasing => exact .map hstable (noteVolumeReleasing_safe hdone)
  | delete name now =>
    exact .map hstable (.map (hstable.comp .done) (mutate_safe
      ((hstable.comp .done).comp finished) hsound (fun obj _ => .marked name now obj)
      (fun _ _ _ _ => trivial) fun _ _ _ _ _ _ => trivial))

end Safety

theorem verified (hdraw : Injective draw) :
    (system draw).Verified (Legal draw) unguarded (Inv draw) (Meets draw) where
  keeps := Inv.next hdraw
  writes {s key new} _ h := .other key new h
  begins {s request call} hs h := by
    simp only [system] at h
    split at h <;> cases h
    rename_i hmem
    refine call_safe hdraw hs fun name listed hlisted => ?_
    rw [hlisted, all_some, contains_iff_mem] at hmem
    obtain ⟨store, hstore, hc⟩ := mem_filterMap.mp hmem
    exact ⟨store, hstore, hc⟩

theorem Inv.of (hstore : store.Sound) (hproper : Proper draw store) : Inv draw (Site.of store) where
  remembers := .of hstore
  chained := chained_of store
  proper store' h := by
    simp only [Site.moments, Site.of, map_nil, nil_append, mem_singleton] at h
    exact h ▸ hproper
  legal := by simp [Site.of]

section Runs

variable {draw : Nat → String} {store : VolumeStore}
  {moves : List (Move (SiteEvent Request String VolumeObject) (Heard Fault))}
  {w : World VolumeSite (Pending Request String VolumeObject Fault Outcome)}

/-- In every interleaving, every write of a stored volume keeps its claim, frees it when its
claimant was recorded gone and no node has the bytes open, or takes or binds it where nobody
had it by uid; and a volume that is claimed by uid is not moved for anybody else. -/
theorem claims_change_through_free (hdraw : Injective draw) (hstore : store.Sound)
    (hproper : Proper draw store)
    (hrun : (system draw).program.run ⟨Site.of store, []⟩ moves = some w) :
    ∀ c ∈ w.shared.commits, ∀ new, c.new = some new →
      (c.found = none → new.body.attachedUid = none) ∧
      ∀ old, c.found = some old → ThroughFree c.who old.val new := by
  intro c hc new hnew
  have hkept := (verified hdraw).run_unguarded (.of hstore hproper) hrun
  have hlegal := hkept.commits c hc
  rw [hnew] at hlegal
  obtain ⟨i, hi⟩ := mem_iff_getElem?.mp hc
  have hproper' := hkept.invariant.proper c.store (mem_of_getElem? (moments_of_commit hi))
  refine ⟨fun hnone => ?_, fun old hold => hlegal.throughFree hproper' hold⟩
  rw [hlegal.unclaimed hnone]
  rfl

/-- In every interleaving: a deprovision goes out for a record that is being deleted and that
nobody claims from then on; a drop removes a revision that is being deleted, unclaimed and
without a home; and a home is cleared only by the home's own Gone about the volume. -/
theorem bytes_destroyed_unclaimed (hdraw : Injective draw) (hstore : store.Sound)
    (hproper : Proper draw store)
    (hrun : (system draw).program.run ⟨Site.of store, []⟩ moves = some w) :
    (∀ a ∈ w.shared.answers, ∀ uid node, a.answer = .deprovision uid node →
      (∃ name listed pass, a.request = .reconcile name listed pass ∧ listed.val.uid = uid ∧
        listed.val.metadata.deletionTimestamp.isSome) ∧
      ∀ (i : Nat) (store : VolumeStore), a.ended ≤ i → w.shared.moments[i]? = some store →
        ∀ key obj, store.cell key = some obj → obj.val.uid = uid →
          obj.val.metadata.deletionTimestamp.isSome ∧ obj.val.body.attachedTo = none ∧
            obj.val.body.attachedUid = none) ∧
    (∀ c ∈ w.shared.commits, c.who ≠ none → c.new = none → ∃ old, c.found = some old ∧
      old.val.metadata.deletionTimestamp.isSome ∧ old.val.body.attachedTo = none ∧
        old.val.body.attachedUid = none ∧ old.val.body.node = none) ∧
    ∀ c ∈ w.shared.commits, ∀ new, c.new = some new →
      (c.found = none → new.body.node = none) ∧
      ∀ old node, c.found = some old → old.val.body.node = some node → new.body.node = none →
        ∃ lines now line, c.who = some (.ingest lines now) ∧ (old.val.uid, line) ∈ lines ∧
          line.gone ∧ line.node = node := by
  have hkept := (verified hdraw).run_unguarded (.of hstore hproper) hrun
  have hinv := hkept.invariant
  refine ⟨fun a ha uid node hanswer => ?_, fun c hc hwho hnone => ?_, fun c hc new hnew => ?_⟩
  · obtain ⟨r, hl, hended, -, hmeets⟩ := hkept.answers a ha
    rw [hanswer] at hmeets
    refine ⟨hmeets.2, fun i store hle hi key obj hc huid => ?_⟩
    obtain ⟨more, hmore⟩ := hl.moments
    have hr : w.shared.moments[a.ended]? = some r.store := by
      rw [← hmore, List.getElem?_append_left (by rw [moments_length]; omega), ← hended]
      exact r.moments_now
    exact (hinv.doomed_later hdraw hle hr hi hmeets.1).free hc huid
  · have hlegal := hkept.commits c hc
    rw [hnone] at hlegal
    obtain ⟨i, hi⟩ := mem_iff_getElem?.mp hc
    have hproper' := hinv.proper c.store (mem_of_getElem? (moments_of_commit hi))
    generalize hw : c.who = who at hlegal hwho
    cases hlegal with
    | other => exact absurd rfl hwho
    | dropped _ listed old pass hcell hdrops =>
      simp only [drops, Bool.and_eq_true, decide_eq_true_eq] at hdrops
      have hfree := releaseAction_drop hdrops.2
      exact ⟨old, hcell, hdrops.1, hfree.1, hproper'.named hcell hfree.1, hfree.2⟩
  · have hlegal := hkept.commits c hc
    rw [hnew] at hlegal
    refine ⟨fun hnone => ?_, fun old node hold hhome hcleared => ?_⟩
    · rw [hlegal.unclaimed hnone]
      rfl
    · obtain ⟨request, hwho, htomb⟩ := hlegal.home_cleared hold hhome hcleared
      cases request with
      | ingest lines now =>
        obtain ⟨line, hmem, hgone, hnode⟩ := htomb
        rw [hhome] at hnode
        exact ⟨lines, now, line, hwho, hmem, hgone, (some.inj hnode).symm⟩
      | _ => exact htomb.elim

end Runs

def drawA (n : Nat) : String := String.ofList (List.replicate n 'a')

theorem drawA_injective : Injective drawA := by
  intro n m h
  simpa [drawA] using congrArg (fun s => s.toList.length) h

def diskOn (node : String) (deletion : Option Instant) : VolumeObject where
  metadata := ⟨drawA 1, deletion, [volumeReleaseFinalizer], none⟩
  body := { unused with
    node := some node
    reported := some (.of node .ready .unrecorded none 1) }

def oneDisk (deletion : Option Instant) : VolumeStore :=
  ⟨2, Table.put (∅ : Table String VolumeObject) "d" 1 (diskOn "n1" deletion)⟩

theorem oneDisk_cell {deletion key obj} (h : (oneDisk deletion).cell key = some obj) :
    key = "d" ∧ obj = ⟨1, diskOn "n1" deletion⟩ := by
  rcases Table.cell_put_cases h with ⟨hk, h⟩ | ⟨-, h⟩
  · exact ⟨hk, h⟩
  · cases h

theorem oneDisk_sound (deletion) : (oneDisk deletion).Sound where
  pos := by simp [oneDisk]
  stored h := by
    rw [(oneDisk_cell h).2]
    simp [oneDisk]

theorem oneDisk_proper (deletion) : Proper drawA (oneDisk deletion) where
  drawn h := ⟨1, by simp [oneDisk], by rw [(oneDisk_cell h).2]; rfl⟩
  distinct h h' _ := (oneDisk_cell h).1.trans (oneDisk_cell h').1.symm
  named h _ := by
    rw [(oneDisk_cell h).2]
    rfl

def holdFor (uid : String) : Request :=
  .hold ⟨⟨uid, uid, true, false, some "n1"⟩, "n1", false, fun _ => .ok false, 0⟩ ["d"]

def lineOf (gone isOpen : Bool) : VolumeLine :=
  ⟨⟨gone, some .ready, .unrecorded, none, "", 0⟩, "n1", isOpen⟩

def asked (request : Request) (steps : Nat) :
    List (Move (SiteEvent Request String VolumeObject) (Heard Fault)) :=
  .env (.ask request) :: List.replicate steps (.task 0 .answer)

def handedOn : List (Move (SiteEvent Request String VolumeObject) (Heard Fault)) :=
  asked (holdFor "a") 3 ++ asked (.ingest [(drawA 1, lineOf false true)] 2) 4 ++
    asked (.release ⟨"a", "a", true, true, none⟩ ["d"]) 3 ++ asked (holdFor "b") 2 ++
    asked (.ingest [(drawA 1, lineOf false false)] 3) 4 ++ asked (holdFor "b") 3

theorem claims_change_through_free_twice :
    ∃ w, (system drawA).program.run ⟨Site.of (oneDisk none), []⟩ handedOn = some w ∧
      w.shared.commits.map (fun c => c.new.bind (·.body.attachedUid)) =
        [some "a", some "a", some "a", none, some "b"] ∧
      ∀ c ∈ w.shared.commits, ∀ new, c.new = some new → ∀ old, c.found = some old →
        ThroughFree c.who old.val new := by
  refine ⟨_, rfl, rfl, fun c hc new hnew => ?_⟩
  exact (claims_change_through_free drawA_injective (oneDisk_sound none) (oneDisk_proper none)
    (rfl : (system drawA).program.run _ handedOn = some _) c hc new hnew).2

def homeless : VolumeObject :=
  volumes.encode (edited (applyGone (lineOf true false) 6) "d" (diskOn "n1" (some 5)))

def onPass (listed : Versioned VolumeObject) : Request :=
  .reconcile "d" listed ⟨[], ["n1"], .ok "n1", 6⟩

def goes : List (Move (SiteEvent Request String VolumeObject) (Heard Fault)) :=
  asked (onPass ⟨1, diskOn "n1" (some 5)⟩) 1 ++
    asked (.ingest [(drawA 1, lineOf true false)] 6) 4 ++ asked (onPass ⟨2, homeless⟩) 4

theorem bytes_destroyed_unclaimed_once :
    ∃ w, (system drawA).program.run ⟨Site.of (oneDisk (some 5)), []⟩ goes = some w ∧
      w.shared.answers.map (·.answer) =
        [.deprovision (drawA 1) "n1", .done (.ok ()), .done (.ok ())] ∧
      w.shared.store.cell "d" = none ∧
      ∀ c ∈ w.shared.commits, c.who ≠ none → c.new = none → ∃ old, c.found = some old ∧
        old.val.metadata.deletionTimestamp.isSome ∧ old.val.body.attachedTo = none ∧
          old.val.body.attachedUid = none ∧ old.val.body.node = none := by
  refine ⟨_, rfl, rfl, rfl, ?_⟩
  exact (bytes_destroyed_unclaimed drawA_injective (oneDisk_sound (some 5))
    (oneDisk_proper (some 5)) (rfl : (system drawA).program.run _ goes = some _)).2.1

end MeisterStack.ClusterController.VolumeLifecycle
