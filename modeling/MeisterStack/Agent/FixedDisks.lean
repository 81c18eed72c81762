import MeisterStack.Agent.ResourceRuns

/-!
# The disks a VM was made with

The boot disk and the inline disks of a VM are fixed for its life. A wanted list comes with new ids
for the inline disks, and the record keeps its own.
-/

namespace MeisterStack.Agent.Provision

open MeisterStack.Foundation Procedure List Prod Vm

theorem sameFixed_referenced {h w} (hsame : sameFixed h w) : h.referenced = w.referenced := by
  unfold sameFixed at hsame
  split at hsame <;> simp_all

variable {wanted volumes : List VolumeWithId}

theorem keepFixed_entries {kept position}
    (h : keepFixed kept (wanted.zipIdx position) = some volumes) :
    ((volumes.zipIdx position).filter fun p => !isPluggable p.2 p.1).map fst = kept ∧
      ((volumes.zipIdx position).filter fun p => isPluggable p.2 p.1).map fst =
        ((wanted.zipIdx position).filter fun p => isPluggable p.2 p.1).map fst := by
  induction wanted generalizing kept volumes position with
  | nil =>
    cases kept with
    | nil =>
      cases h
      simp
    | cons => cases h
  | cons w wanted ih =>
    rw [zipIdx_cons] at h
    by_cases hpluggable : isPluggable position w
    · obtain ⟨volumes', hrest, rfl⟩ : ∃ volumes',
          keepFixed kept (wanted.zipIdx (position + 1)) = some volumes' ∧
            w :: volumes' = volumes := by
        cases kept <;> simpa [keepFixed, hpluggable] using h
      obtain ⟨hfixed, hplugged⟩ := ih hrest
      simp [hpluggable, hfixed, hplugged]
    · cases kept with
      | nil => simp [keepFixed, hpluggable] at h
      | cons x =>
        rw [keepFixed, if_neg hpluggable] at h
        split_ifs at h with hsame
        obtain ⟨volumes', hrest, rfl⟩ := Option.map_eq_some_iff.mp h
        obtain ⟨hfixed, hplugged⟩ := ih hrest
        have hfix : isPluggable position x = false := by
          simpa [isPluggable, sameFixed_referenced hsame] using hpluggable
        simp [hpluggable, hfix, hfixed, hplugged]

variable {held : List VolumeWithId}

theorem fixedVolumes_kept (h : volumesKeepingFixed held wanted = some volumes) :
    fixedVolumes volumes = fixedVolumes held :=
  (keepFixed_entries h).1

theorem pluggableVolumes_kept (h : volumesKeepingFixed held wanted = some volumes) :
    pluggableVolumes volumes = pluggableVolumes wanted :=
  (keepFixed_entries h).2

theorem mem_of_mem_fixedVolumes {v} (h : v ∈ fixedVolumes volumes) : v ∈ volumes := by
  obtain ⟨⟨v', position⟩, hp, rfl⟩ := mem_map.mp h
  exact fst_mem_of_mem_zipIdx (mem_of_mem_filter hp)

theorem volumeDiff_nil (h : (volumeDiff held wanted).1 = [] ∧ (volumeDiff held wanted).2 = [])
    (id) :
    id ∈ (pluggableVolumes held).map (·.id) ↔ id ∈ (pluggableVolumes wanted).map (·.id) := by
  simp only [volumeDiff, filter_eq_nil_iff, Bool.not_eq_true', Bool.not_eq_false,
    any_eq_true, decide_eq_true_eq] at h
  simp only [mem_map]
  constructor
  · rintro ⟨v, hv, rfl⟩
    exact h.2 v hv
  · rintro ⟨v, hv, rfl⟩
    exact h.1 v hv

variable (fixed : List VolumeWithId)

def Resources.Stands (known : VolumeId → Prop) (r : Resources) : Prop :=
  fixedVolumes r.spec.volumes = fixed ∧ ∀ v ∈ r.volumes, known v.id

def Work.Stands (known : VolumeId → Prop) (w : Work) : Prop :=
  w.draft.Stands fixed known ∧ ∀ r ∈ w.stored, r.Stands fixed known

def Stays (more : List VolumeId) (w w' : Work) : Prop :=
  ∃ calls, w'.log = w.log ++ calls ∧ ∀ known : VolumeId → Prop, (∀ v ∈ more, known v) →
    (∀ v, .make (.attachment v) true ∈ calls → known v) →
    w.Stands fixed known → w'.Stands fixed known

section Stays

variable {fixed : List VolumeWithId} {more : List VolumeId}

instance : Std.Refl (Stays fixed more) := ⟨fun _ => ⟨[], by simp, fun _ _ _ h => h⟩⟩

instance : IsTrans Work (Stays fixed more) where
  trans w1 w2 w3 h12 h23 := by
    obtain ⟨calls2, hlog2, hstands2⟩ := h12
    obtain ⟨calls3, hlog3, hstands3⟩ := h23
    refine ⟨calls2 ++ calls3, by rw [hlog3, hlog2, append_assoc], ?_⟩
    intro known hmore hknown h
    exact hstands3 known hmore (fun v hv => hknown v (mem_append_right _ hv))
      (hstands2 known hmore (fun v hv => hknown v (mem_append_left _ hv)) h)

theorem stays_call (c : Bool → Call) : Keeps (Stays fixed more) (call c) := by
  intro w answers
  rw [final, call_apply]
  exact ⟨_, rfl, fun _ _ _ h => h⟩

theorem stays_must (c : Bool → Call) : Keeps (Stays fixed more) (must c) :=
  keeps_asked (stays_call c) keeps_fail (keeps_pure ())

theorem stays_put : Keeps (Stays fixed more) put :=
  keeps_change fun w => ⟨[], by simp, fun known _ _ h => ⟨h.1, fun r hr => by
    cases hr
    exact h.1⟩⟩

theorem stays_change {f} (hlog : ∀ w, (f w).log = w.log)
    (hstands : ∀ known w, (∀ v ∈ more, known v) → w.Stands fixed known → (f w).Stands fixed known) :
    Keeps (Stays fixed more) (change f) :=
  keeps_change fun w => ⟨[], by simp [hlog], fun known hmore _ h => hstands known w hmore h⟩

variable {f : Resources → Resources}

theorem stays_edit
    (hfixed : ∀ r, fixedVolumes r.spec.volumes = fixed → fixedVolumes (f r).spec.volumes = fixed)
    (hvolumes : ∀ r, ∀ v ∈ (f r).volumes, v ∈ r.volumes ∨ v.id ∈ more) :
    Keeps (Stays fixed more) (edit f) := by
  refine stays_change (fun _ => rfl) fun known w hmore h => ⟨⟨hfixed _ h.1.1, fun v hv => ?_⟩, h.2⟩
  rcases hvolumes _ v hv with hv | hv
  · exact h.1.2 v hv
  · exact hmore _ hv

theorem stays_mutate (hspec : ∀ r, (f r).spec = r.spec)
    (hvolumes : ∀ r, ∀ v ∈ (f r).volumes, ∃ u ∈ r.volumes, u.id = v.id) :
    Keeps (Stays fixed more) (mutate f) := by
  refine stays_change (fun _ => rfl) fun known w _ h => ⟨h.1, fun r hr => ?_⟩
  obtain ⟨old, hold, rfl⟩ := Option.map_eq_some_iff.mp hr
  refine ⟨by rw [hspec]; exact (h.2 old hold).1, fun v hv => ?_⟩
  obtain ⟨u, hu, hid⟩ := hvolumes old v hv
  exact hid ▸ (h.2 old hold).2 u hu

def Item.attached : Item → List VolumeId
  | .attachment v => [v]
  | _ => []

theorem stays_made {item} {m : Act Unit}
    (h : Keeps (Stays fixed (item.attached ++ more)) m) :
    Keeps (Stays fixed more) (must (.make item) >>= fun _ => m) := by
  intro w answers
  rcases must_bind (.make item) (fun _ => m) w answers with ⟨-, hfinal⟩ | ⟨rest, -, hfinal⟩
  · rw [hfinal]
    exact ⟨_, rfl, fun _ _ _ h => h⟩
  · rw [hfinal]
    obtain ⟨calls, hlog, hstands⟩ := h { w with log := w.log ++ [.make item true] } rest
    refine ⟨.make item true :: calls, by rw [hlog]; simp, fun known hmore hknown hw => ?_⟩
    refine hstands known (fun v hv => ?_) (fun v hv => hknown v (mem_cons_of_mem _ hv)) hw
    rcases mem_append.mp hv with hv | hv
    · cases item with
      | attachment =>
        cases mem_singleton.mp hv
        exact hknown _ mem_cons_self
      | _ => cases hv
    · exact hmore v hv

theorem stays_acquire {item} (hspec : ∀ r, (f r).spec = r.spec)
    (hvolumes : ∀ r, ∀ v ∈ (f r).volumes, v ∈ r.volumes ∨ v.id ∈ item.attached) :
    Keeps (Stays fixed more) (acquire item f) :=
  stays_made (stays_edit (fun r h => by rw [hspec]; exact h) fun r v hv =>
    (hvolumes r v hv).imp_right (mem_append_left _))

theorem stays_attachVolume (v) : Keeps (Stays fixed more) (attachVolume v) := by
  refine keeps_bind ?_ fun _ => keeps_bind (stays_acquire (fun _ => rfl) ?_) fun _ => stays_put
  · unfold handle
    split_ifs
    · exact keeps_check
    · refine keeps_bind keeps_current fun w => ?_
      split_ifs
      · exact keeps_pure ()
      · exact keeps_bind (stays_acquire (fun _ => rfl) fun _ _ h => .inl h) fun _ => stays_put
  · intro r u hu
    rcases mem_append.mp hu with hu | hu
    · exact .inl hu
    · rw [mem_singleton.mp hu]
      exact .inr mem_cons_self

theorem stays_runChain (spec) : Keeps (Stays fixed more) (runChain spec) := by
  refine keeps_bind (keeps_bind keeps_check fun _ => keeps_bind (stays_must _) fun _ =>
    keeps_bind (keeps_bind (keeps_each fun v _ => stays_attachVolume v) fun _ => stays_put) fun _ =>
    keeps_bind (keeps_bind keeps_check fun _ => keeps_bind (keeps_each fun n _ => ?_) fun _ =>
      stays_put) fun _ =>
    keeps_bind (keeps_each fun d _ => ?_) fun _ => stays_put) fun _ =>
    keeps_bind keeps_check fun _ => keeps_bind keeps_check fun _ =>
    keeps_bind (keeps_bind keeps_current fun w => ?_) fun _ => keeps_bind (stays_must _) fun _ =>
    keeps_bind stays_put fun _ => keeps_bind (stays_must _) fun _ => stays_put
  · exact keeps_bind keeps_check fun _ => stays_acquire (fun _ => rfl) fun _ _ h => .inl h
  · exact stays_acquire (fun _ => rfl) fun _ _ h => .inl h
  · split_ifs
    · exact keeps_fail
    · exact keeps_check

theorem stays_failed (why) : Keeps (Stays fixed more) (failed why) :=
  stays_change (fun _ => rfl) fun _ _ _ h => h

theorem stays_callOr (c : Bool → Call) (why) : Keeps (Stays fixed more) (callOr c why) :=
  keeps_asked (stays_call c) (stays_failed why) (keeps_pure ())

theorem stays_askOr (why) : Keeps (Stays fixed more) (askOr why) :=
  keeps_asked keeps_ask (stays_failed why) (keeps_pure ())

theorem stays_deprovisionUnattached (v) : Keeps (Stays fixed more) (deprovisionUnattached v) :=
  keeps_asked (stays_call _) (stays_failed _)
    (stays_mutate (fun _ => rfl) fun _ v hv => ⟨v, hv, rfl⟩)

theorem stays_reclaimUnattached (r v) : Keeps (Stays fixed more) (reclaimUnattached r v) := by
  unfold reclaimUnattached
  split_ifs
  · exact keeps_pure ()
  · exact stays_deprovisionUnattached v.id
  · refine keeps_asked keeps_ask (stays_failed _) ?_
    refine keeps_bind keeps_current fun w => ?_
    split_ifs
    · exact keeps_bind (stays_mutate (fun _ => rfl) fun _ v hv => ⟨v, hv, rfl⟩) fun _ =>
        stays_deprovisionUnattached v.id
    · exact keeps_pure ()

theorem stays_close (v) : Keeps (Stays fixed more) (close v) := by
  unfold close
  split_ifs
  · exact keeps_pure ()
  · exact keeps_asked (stays_call _) (stays_failed _) (stays_change (fun _ => rfl) fun _ _ _ h => h)

theorem stays_closeVolume (r v) : Keeps (Stays fixed more) (closeVolume r v) := by
  refine keeps_asked keeps_ask (stays_failed _) ?_
  refine keeps_bind (stays_close v) fun _ => ?_
  split_ifs
  · exact stays_askOr _
  · exact keeps_pure ()
  · exact stays_callOr _ _

theorem stays_releases (r) : ∀ m ∈ releases r, Keeps (Stays fixed more) m := by
  intro m hm
  simp only [releases, mem_cons, not_mem_nil, or_false] at hm
  rcases hm with rfl | rfl | rfl | rfl | rfl | rfl | rfl
  · exact stays_callOr _ _
  · exact stays_callOr _ _
  · exact keeps_each fun _ _ => stays_callOr _ _
  · exact keeps_each fun _ _ => stays_callOr _ _
  · exact stays_askOr _
  · exact keeps_each fun v _ => stays_reclaimUnattached r v
  · exact keeps_each fun v _ => stays_closeVolume r v

theorem stays_mark : Keeps (Stays fixed more) (change fun w : Work =>
    { w with stored := w.stored.map (markClosed w.closed) }) := by
  refine stays_change (fun _ => rfl) fun known w _ h => ⟨h.1, fun r hr => ?_⟩
  obtain ⟨old, hold, rfl⟩ := Option.map_eq_some_iff.mp hr
  refine ⟨(h.2 old hold).1, fun v hv => ?_⟩
  obtain ⟨u, hu, rfl⟩ := mem_map.mp hv
  split_ifs <;> exact (h.2 old hold).2 u hu

theorem stays_verdict : Keeps (Stays fixed more) verdict := by
  refine keeps_bind keeps_current fun w => ?_
  split_ifs
  · exact stays_change (fun _ => rfl) fun _ _ _ h => ⟨h.1, fun r hr => nomatch hr⟩
  · exact keeps_fail

theorem stays_withStored {f} (h : ∀ (w) (r), w.stored = some r → ∀ answers,
      Stays fixed more w ((f r).final w answers)) : Keeps (Stays fixed more) (withStored f) := by
  intro w answers
  cases hr : w.stored with
  | none =>
    rw [final, withStored_none hr]
    exact Std.Refl.refl w
  | some r =>
    rw [final, withStored_some hr]
    exact h w r hr answers

theorem Work.Stands.of_stored {known : VolumeId → Prop} {w w' : Work} {r}
    (hr : w.stored = some r) (hdraft : w'.draft = r) (hstored : w'.stored = w.stored)
    (h : ∀ r ∈ w.stored, r.Stands fixed known) : w'.Stands fixed known :=
  ⟨hdraft ▸ h r hr, hstored ▸ h⟩

theorem stays_teardown : Keeps (Stays fixed more) teardown := by
  refine stays_withStored fun w r hr answers => ?_
  have hrest : Keeps (Stays fixed more) (dismantle r >>= fun _ => verdict) :=
    keeps_bind (keeps_bind (keeps_each (stays_releases r)) fun _ =>
      keeps_bind stays_mark fun _ => stays_callOr _ _) fun _ => stays_verdict
  obtain ⟨calls, hlog, hstands⟩ := hrest { w with draft := r, failures := [], closed := [] } answers
  exact ⟨calls, hlog, fun known hmore hknown hw =>
    hstands known hmore hknown (Work.Stands.of_stored hr rfl rfl hw.2)⟩

theorem stays_chainOr (spec) {rest} (h : Keeps (Stays fixed more) rest) :
    Keeps (Stays fixed more) (chainOr spec rest) := by
  refine keeps_bind (fun w answers => ?_) fun result => ?_
  · exact stays_runChain spec w answers
  · cases result with
    | some => exact keeps_pure ()
    | none => exact keeps_bind stays_put fun _ => h

theorem stays_plug (live what) : Keeps (Stays fixed more) (plug live what) := by
  cases live
  · exact keeps_pure ()
  · exact stays_must _

theorem stays_detachVolume (live v) : Keeps (Stays fixed more) (detachVolume live v) := by
  refine keeps_bind keeps_current fun w => ?_
  split_ifs
  · exact keeps_bind keeps_check fun _ => keeps_bind (stays_plug live _) fun _ =>
      keeps_bind (stays_edit (fun _ h => h) fun _ _ hv => .inl (mem_of_mem_eraseP hv))
        fun _ => stays_must _
  · exact keeps_pure ()

theorem stays_plugVolume (live v) : Keeps (Stays fixed more) (plugVolume live v) := by
  refine keeps_bind keeps_check fun _ => stays_made (keeps_bind (stays_plug live _) fun _ =>
    stays_edit (fun _ h => h) fun r u hu => ?_)
  rcases mem_append.mp hu with hu | hu
  · exact .inl hu
  · rw [mem_singleton.mp hu]
    exact .inr mem_cons_self

theorem stays_applyVolumeDiff (wanted live hotplug) :
    Keeps (Stays fixed more) (applyVolumeDiff wanted live hotplug) := by
  intro w answers
  by_cases hfixed : fixedVolumes w.draft.spec.volumes = fixed
  · rw [applyVolumeDiff, current_bind_final]
    dsimp only
    split
    · exact keeps_pure () w answers
    cases hvolumes : volumesKeepingFixed w.draft.spec.volumes wanted with
    | none => exact keeps_fail w answers
    | some volumes =>
      have hkept : fixedVolumes volumes = fixed := (fixedVolumes_kept hvolumes).trans hfixed
      dsimp only
      split
      · exact keeps_fail w answers
      · refine keeps_bind (keeps_each fun v _ => stays_detachVolume live v) (fun _ =>
          keeps_bind (keeps_each fun v _ => stays_plugVolume live v) fun _ => ?_) w answers
        exact stays_edit (fun _ _ => hkept) fun _ _ hv => .inl hv
  · obtain ⟨-, calls, hlog, -⟩ := pending_applyVolumeDiff wanted live hotplug w answers
    exact ⟨calls, hlog, fun _ _ _ h => absurd h.1.1 hfixed⟩

end Stays

def Persists (w w' : Work) : Prop :=
  ∃ calls, w'.log = w.log ++ calls ∧ ∀ known : VolumeId → Prop,
    (∀ v, .make (.attachment v) true ∈ calls → known v) →
    (∀ r ∈ w.stored, r.Stands fixed known) → ∀ r ∈ w'.stored, r.Stands fixed known

section Persists

variable {fixed : List VolumeWithId}

instance : Std.Refl (Persists fixed) := ⟨fun _ => ⟨[], by simp, fun _ _ h => h⟩⟩

theorem Persists.of_stays {w} (w1 : Work) (calls) {m : Act Unit}
    (hm : Keeps (Stays fixed []) m) (hlog : w1.log = w.log ++ calls)
    (hstands : ∀ known, (∀ r ∈ w.stored, r.Stands fixed known) → w1.Stands fixed known) (answers) :
    Persists fixed w (m.final w1 answers) := by
  obtain ⟨more, hmore, hstays⟩ := hm w1 answers
  refine ⟨calls ++ more, by rw [hmore, hlog, append_assoc], fun known hknown h => ?_⟩
  exact (hstays known (by simp) (fun v hv => hknown v (mem_append_right _ hv))
    (hstands known h)).2

theorem persists_syncInPlace (wanted live hotplug) :
    Keeps (Persists fixed) (syncInPlace wanted live hotplug) := by
  intro w answers
  unfold syncInPlace
  rcases check_bind (fun _ => syncVolumes wanted live hotplug) w answers with
    ⟨-, hfinal⟩ | ⟨rest, -, hfinal⟩
  · rw [hfinal]
    exact Std.Refl.refl w
  rw [hfinal]
  cases hr : w.stored with
  | none =>
    rw [final, syncVolumes, withStored_none hr]
    exact Std.Refl.refl w
  | some r =>
    rw [final, syncVolumes, withStored_some hr]
    have hrest : Keeps (Stays fixed []) (applyVolumeDiff wanted live hotplug >>= fun _ => put) :=
      keeps_bind (stays_applyVolumeDiff wanted live hotplug) fun _ => stays_put
    exact Persists.of_stays { w with draft := r } [] hrest (by simp)
      (fun known h => Work.Stands.of_stored hr rfl rfl h) rest

theorem persists_stop : Keeps (Persists fixed) stop := by
  intro w answers
  cases hr : w.stored with
  | none =>
    rw [final, stop, withStored_none hr]
    exact Std.Refl.refl w
  | some r =>
    rcases stop_cases hr answers with
      ⟨c, hfinal, -⟩ | ⟨-, calls, volumes, hlog, hstored, -, hids, -⟩
    · rw [hfinal]
      exact ⟨[c], rfl, fun _ _ h => h⟩
    · refine ⟨calls, hlog, fun known _ h r' hr' => ?_⟩
      cases hstored.symm.trans hr'
      refine ⟨(h r hr).1, fun v hv => ?_⟩
      have hid : v.id ∈ r.volumes.map (·.id) := hids ▸ mem_map_of_mem hv
      obtain ⟨u, hu, hsame⟩ := mem_map.mp hid
      exact hsame ▸ (h r hr).2 u hu

theorem persists_rebuild (w) {r} (hr : w.stored = some r) (answers) :
    Persists fixed w ((rebuild r).final w answers) := by
  have hrest : Keeps (Stays fixed []) (chainOr r.spec fail) := stays_chainOr r.spec keeps_fail
  refine Persists.of_stays { w with stored := some r.cleared, draft := r.cleared } [] hrest
    (by simp) (fun known h => ?_) answers
  have hcleared : r.cleared.Stands fixed known := ⟨(h r hr).1, fun v hv => nomatch hv⟩
  refine ⟨hcleared, fun r' hr' => ?_⟩
  cases hr'
  exact hcleared

theorem persists_resume {w table}
    (hrestore : ∀ r ∈ w.stored, restoreDriftedInlineIds r table = some r) (answers) :
    Persists fixed w ((resume table).final w answers) := by
  cases hr : w.stored with
  | none =>
    rw [final, resume, withStored_none hr]
    exact Std.Refl.refl w
  | some r =>
    rw [final, resume, withStored_some hr]
    rcases must_bind .killSlice (fun _ => _) w answers with ⟨-, hfinal⟩ | ⟨rest, -, hfinal⟩
    · rw [final] at hfinal
      rw [hfinal]
      exact ⟨_, rfl, fun _ _ h => h⟩
    rw [final] at hfinal
    rw [hfinal]
    rcases check_bind (fun _ => _) _ rest with ⟨-, hfinal2⟩ | ⟨rest2, -, hfinal2⟩
    · rw [hfinal2]
      exact ⟨_, rfl, fun _ _ h => h⟩
    rw [hfinal2]
    simp only [hrestore r hr]
    let w1 : Work := { w with log := w.log ++ [.killSlice true] }
    have hrebuild : Persists fixed w1 ((rebuild r).final w1 rest2) :=
      persists_rebuild w1 hr rest2
    obtain ⟨calls, hlog, hstands⟩ := hrebuild
    refine ⟨.killSlice true :: calls, by rw [hlog]; simp [w1], fun known hknown h => ?_⟩
    exact hstands known (fun v hv => hknown v (mem_cons_of_mem _ hv)) h

theorem persists_provisionFresh (spec) :
    Keeps (Persists (fixedVolumes spec.volumes)) (provisionFresh spec) := by
  intro w answers
  unfold provisionFresh
  rcases check_bind (fun _ => _) w answers with ⟨-, hfinal⟩ | ⟨rest, -, hfinal⟩
  · rw [hfinal]
    exact Std.Refl.refl w
  rw [hfinal]
  have hrest : Keeps (Stays (fixedVolumes spec.volumes) []) (chainOr spec do teardown; fail) :=
    stays_chainOr spec (keeps_bind stays_teardown fun _ => keeps_fail)
  have hfresh : ∀ known, (Resources.fresh spec).Stands (fixedVolumes spec.volumes) known :=
    fun known => ⟨rfl, fun v hv => nomatch hv⟩
  refine Persists.of_stays { w with stored := some (.fresh spec), draft := .fresh spec } [] hrest
    (by simp) (fun known _ => ⟨hfresh known, fun r hr => ?_⟩) rest
  cases hr
  exact hfresh known

end Persists

variable {r : Resources} {table : List VolumeId} {fixed : List VolumeWithId}

theorem Resources.Stands.not_drifted
    (h : r.Stands fixed fun v => v ∈ table ∨ v ∈ fixed.map (·.id)) :
    driftedInlineIds r table = some [] := by
  have hnone : ((r.volumes.map (·.id)).filter fun id =>
      !(r.spec.volumes.any fun v => v.id = id) && !(id ∈ table)) = [] := by
    rw [filter_eq_nil_iff]
    intro id hid
    obtain ⟨v, hv, rfl⟩ := mem_map.mp hid
    rcases h.2 v hv with hv | hv
    · simp [hv]
    · obtain ⟨e, he, hsame⟩ := mem_map.mp hv
      have hmem : e ∈ r.spec.volumes := mem_of_mem_fixedVolumes (h.1 ▸ he)
      have hnamed : (r.spec.volumes.any fun u => u.id = v.id) :=
        any_eq_true.mpr ⟨e, hmem, by simpa using hsame⟩
      simp [hnamed]
  simp only [driftedInlineIds, hnone, if_true]

theorem Resources.Stands.restored (h : r.Stands fixed fun v => v ∈ table ∨ v ∈ fixed.map (·.id)) :
    restoreDriftedInlineIds r table = some r := by
  simp [restoreDriftedInlineIds, h.not_drifted]

variable {answers : List Bool} {live hotplug : Bool}

theorem applyVolumeDiff_ok {w u}
    (hu : (applyVolumeDiff wanted live hotplug).result w answers = some u) :
    let diff := volumeDiff w.draft.spec.volumes wanted
    let volumes := ((applyVolumeDiff wanted live hotplug).final w answers).draft.spec.volumes
    if diff.1 = [] ∧ diff.2 = [] then volumes = w.draft.spec.volumes
    else volumesKeepingFixed w.draft.spec.volumes wanted = some volumes := by
  rw [applyVolumeDiff, current_bind_result] at hu
  rw [applyVolumeDiff, current_bind_final]
  dsimp only at hu ⊢
  split
  case isTrue hnone => rfl
  case isFalse hsome =>
    rw [if_neg hsome] at hu
    cases hvolumes : volumesKeepingFixed w.draft.spec.volumes wanted with
    | none => simp [hvolumes, result, fail] at hu
    | some =>
      simp only [hvolumes] at hu ⊢
      split at hu
      · cases hu
      rename_i hplug
      rw [if_neg hplug]
      obtain ⟨_, rest, -, hu1, hfinal1⟩ := bind_ok hu
      obtain ⟨_, rest2, -, -, hfinal2⟩ := bind_ok hu1
      rw [hfinal1, hfinal2]
      rfl

theorem Vm.accepted_update {vm : Vm} (hr : vm.stored = some r) {wanted}
    (h : vm.answer (.provision wanted live hotplug) answers = some ()) :
    ∃ r', (vm.after (.provision wanted live hotplug) answers).stored = some r' ∧
      if (volumeDiff r.spec.volumes wanted.volumes).1 = [] ∧
          (volumeDiff r.spec.volumes wanted.volumes).2 = [] then
        r'.spec.volumes = r.spec.volumes
      else pluggableVolumes r'.spec.volumes = pluggableVolumes wanted.volumes := by
  have hrun := provision_some (w := vm.work) hr wanted live hotplug answers
  change result (provision wanted live hotplug) vm.work answers = some () at h
  change ∃ r', (final (provision wanted live hotplug) vm.work answers).stored = some r' ∧ _
  rw [result, hrun] at h
  rw [final, hrun]
  rcases check_bind (fun _ => syncVolumes wanted.volumes live hotplug) vm.work answers with
    ⟨hnone, -⟩ | ⟨rest, hresult, hfinal⟩
  · cases hnone.symm.trans h
  change (check >>= fun _ => syncVolumes wanted.volumes live hotplug).result vm.work answers =
    some () at h
  change ∃ r', ((check >>= fun _ => syncVolumes wanted.volumes live hotplug).final vm.work
    answers).stored = some r' ∧ _
  rw [hresult, result, syncVolumes, withStored_some hr] at h
  rw [hfinal, final, syncVolumes, withStored_some hr]
  let w1 : Work := { vm.work with draft := r }
  change (applyVolumeDiff wanted.volumes live hotplug >>= fun _ => put).result w1 rest = some ()
    at h
  change ∃ r', ((applyVolumeDiff wanted.volumes live hotplug >>= fun _ => put).final w1
    rest).stored = some r' ∧ _
  obtain ⟨u, rest2, hok, -, hend⟩ := bind_ok h
  rw [hend]
  refine ⟨_, rfl, ?_⟩
  have happlied := applyVolumeDiff_ok hok
  dsimp only [w1] at happlied
  split_ifs at happlied ⊢
  · exact happlied
  · exact pluggableVolumes_kept happlied

def made (calls : List Call) : List Item :=
  calls.filterMap fun
    | .make i true => some i
    | _ => none

theorem mem_made {calls i} : i ∈ made calls ↔ .make i true ∈ calls := by
  constructor
  · intro hi
    obtain ⟨c, hc, hci⟩ := mem_filterMap.mp hi
    split at hci <;> cases hci
    exact hc
  · exact fun hi => mem_filterMap.mpr ⟨_, hi, rfl⟩

def Item.knownTo (table : List VolumeId) (spec : VmSpec) : Item → Bool
  | .attachment v => v ∈ table || spec.volumes.any fun e => !e.referenced && e.id = v
  | _ => true

def referencesListed (table : List VolumeId) (spec : VmSpec) (calls : List Call) : Bool :=
  (made calls).all (Item.knownTo table spec)

structure VolumeHost where
  table : List VolumeId
  vm : Vm

inductive HostEvent where
  | volume (v : VolumeId)
  | update (wanted : VmSpec) (live hotplug : Bool) (answers : List Bool)
  | stop (answers : List Bool)
  | resume (answers : List Bool)

def VolumeHost.does (host : VolumeHost) (op : Op) (answers : List Bool) : Option VolumeHost :=
  host.vm.stored.bind fun r =>
    if referencesListed host.table r.spec (host.vm.calls op answers) then
      some { host with vm := host.vm.after op answers }
    else none

def VolumeHost.step (host : VolumeHost) : HostEvent → Option VolumeHost
  | .volume v => some { host with table := v :: host.table }
  | .update wanted live hotplug answers => host.does (.provision wanted live hotplug) answers
  | .stop answers => host.does .stop answers
  | .resume answers => host.does (.resume host.table) answers

def volumeHost : Machine VolumeHost HostEvent := ⟨VolumeHost.step⟩

def VolumeHost.Stands (fixed : List VolumeWithId) (host : VolumeHost) : Prop :=
  ∀ r ∈ host.vm.stored, r.Stands fixed fun v => v ∈ host.table ∨ v ∈ fixed.map (·.id)

theorem referencesListed_known {spec calls} (h : referencesListed table spec calls) {v}
    (hv : .make (.attachment v) true ∈ calls) :
    v ∈ table ∨ v ∈ (fixedVolumes spec.volumes).map (·.id) := by
  have hknown := all_eq_true.mp h _ (mem_made.mpr hv)
  simp only [Item.knownTo, Bool.or_eq_true, decide_eq_true_eq, any_eq_true,
    Bool.and_eq_true, Bool.not_eq_true'] at hknown
  rcases hknown with hmem | ⟨e, he, hinline, rfl⟩
  · exact .inl hmem
  · exact .inr (mem_map_of_mem (mem_fixedVolumes he hinline))

theorem Vm.stands_after {vm op spec} (hspec : fixedVolumes spec.volumes = fixed)
    (hlisted : referencesListed table spec (vm.calls op answers))
    (h : VolumeHost.Stands fixed ⟨table, vm⟩)
    (hpersists : Persists fixed vm.work (op.action.final vm.work answers)) :
    VolumeHost.Stands fixed ⟨table, vm.after op answers⟩ := by
  obtain ⟨calls, hlog, hstands⟩ := hpersists
  have hcalls : vm.calls op answers = calls := calls_eq hlog
  rw [hcalls] at hlisted
  refine hstands _ (fun v hv => ?_) h
  exact hspec ▸ referencesListed_known hlisted hv

namespace VolumeHost

variable {fixed : List VolumeWithId} {host host' : VolumeHost}

theorem Stands.does (h : host.Stands fixed) {op answers} (hdoes : host.does op answers = some host')
    (hpersists : ∀ r ∈ host.vm.stored,
      Persists fixed host.vm.work (op.action.final host.vm.work answers)) : host'.Stands fixed := by
  obtain ⟨r, hr, hstep⟩ := Option.bind_eq_some_iff.mp hdoes
  split_ifs at hstep with hlisted
  cases hstep
  exact stands_after (h r hr).1 hlisted h (hpersists r hr)

theorem Stands.step {e} (h : host.Stands fixed) (hstep : host.step e = some host') :
    host'.Stands fixed := by
  cases e with
  | volume v =>
    cases hstep
    intro r hr
    refine ⟨(h r hr).1, fun u hu => ?_⟩
    exact ((h r hr).2 u hu).imp_left (mem_cons_of_mem v)
  | update wanted live hotplug answers =>
    refine h.does hstep fun r hr => ?_
    change Persists fixed host.vm.work (final (provision wanted live hotplug) host.vm.work answers)
    rw [final, provision_some hr]
    exact persists_syncInPlace wanted.volumes live hotplug host.vm.work answers
  | stop answers => exact h.does hstep fun _ _ => persists_stop host.vm.work answers
  | resume answers =>
    exact h.does hstep fun _ _ => persists_resume (fun r hr => (h r hr).restored) answers

end VolumeHost

/-- From the provisioning of a record on, whatever is wanted of it and whatever fails, its boot and
inline entries are the ones it was made with, in order, and no inline id has to be given back. An
accepted update that plugs or unplugs something leaves the pluggable entries as wanted, in order;
one that does neither leaves the list alone and wanted the volumes that are there. -/
theorem fixed_disks_keep_identity {vm : Vm} (hnone : vm.stored = none) {spec : VmSpec}
    {live hotplug : Bool} {answers : List Bool} {table : List VolumeId}
    (hlisted : referencesListed table spec
      (vm.calls (.provision spec live hotplug) answers))
    {es : List HostEvent} {host : VolumeHost}
    (hrun : volumeHost.run ⟨table, vm.after (.provision spec live hotplug) answers⟩ es = some host)
    {r : Resources} (hr : host.vm.stored = some r) :
    fixedVolumes r.spec.volumes = fixedVolumes spec.volumes ∧
      driftedInlineIds r host.table = some [] ∧
      ∀ wanted live hotplug answers,
        host.vm.answer (.provision wanted live hotplug) answers = some () →
        ∃ r', (host.vm.after (.provision wanted live hotplug) answers).stored = some r' ∧
          if (volumeDiff r.spec.volumes wanted.volumes).1 = [] ∧
              (volumeDiff r.spec.volumes wanted.volumes).2 = [] then
            r'.spec.volumes = r.spec.volumes ∧
              ∀ v, v ∈ (pluggableVolumes r'.spec.volumes).map (·.id) ↔
                v ∈ (pluggableVolumes wanted.volumes).map (·.id)
          else pluggableVolumes r'.spec.volumes = pluggableVolumes wanted.volumes := by
  have hmade : VolumeHost.Stands (fixedVolumes spec.volumes)
      ⟨table, vm.after (.provision spec live hotplug) answers⟩ := by
    refine stands_after rfl hlisted (fun r hr => ?_) ?_
    · cases hnone.symm.trans hr
    · change Persists _ vm.work (final (provision spec live hotplug) vm.work answers)
      rw [final, provision_none hnone]
      exact persists_provisionFresh spec vm.work answers
  have hkeeps : ∀ {s e s'}, VolumeHost.Stands (fixedVolumes spec.volumes) s →
      volumeHost.step s e = some s' → VolumeHost.Stands (fixedVolumes spec.volumes) s' :=
    fun h hstep => h.step hstep
  have hstands := Machine.always hkeeps hmade hrun
  refine ⟨(hstands r hr).1, (hstands r hr).not_drifted, fun wanted live hotplug answers h => ?_⟩
  obtain ⟨r', hr', hupdate⟩ := accepted_update hr h
  refine ⟨r', hr', ?_⟩
  split_ifs at hupdate ⊢ with hdiff
  · exact ⟨hupdate, fun v => hupdate ▸ volumeDiff_nil hdiff v⟩
  · exact hupdate

def bootedSpec : VmSpec := ⟨[⟨"boot", false⟩, ⟨"a", true⟩, ⟨"b", true⟩], [], []⟩

def booted : Vm := unknown.after (.provision bootedSpec false true) []

def swappedSpec : VmSpec := ⟨[⟨"boot2", false⟩, ⟨"b", true⟩, ⟨"a", true⟩], [], []⟩

def grownSpec : VmSpec := ⟨[⟨"boot3", false⟩, ⟨"c", true⟩, ⟨"b", true⟩], [], []⟩

def guestRun : List HostEvent :=
  [.volume "c", .update grownSpec false true [], .stop [true, false], .resume [true, true, false],
    .resume []]

/-- A guest that got another volume, was stopped, could not be started and was started again has
its own boot disk. -/
theorem fixed_disks_keep_identity_guest : ∃ host r,
    volumeHost.run ⟨["a", "b"], booted⟩ guestRun = some host ∧ host.vm.stored = some r ∧
      fixedVolumes r.spec.volumes = [⟨"boot", false⟩] ∧
      driftedInlineIds r host.table = some [] := by
  have hlisted : referencesListed ["a", "b"] bootedSpec
      (unknown.calls (.provision bootedSpec false true) []) := by decide
  have hsome :
      ((volumeHost.run ⟨["a", "b"], booted⟩ guestRun).bind (·.vm.stored)).isSome := by
    decide
  obtain ⟨r, hr⟩ := Option.isSome_iff_exists.mp hsome
  obtain ⟨host, hrun, hr⟩ := Option.bind_eq_some_iff.mp hr
  have hkept := fixed_disks_keep_identity rfl hlisted hrun hr
  exact ⟨host, r, hrun, hr, hkept.1, hkept.2.1⟩

/-- An update that names the same volumes in another order is accepted, and the list stays in
the order it had. -/
theorem reordered_update_leaves_order :
    booted.answer (.provision swappedSpec false true) [] = some () ∧
      ∃ r, (booted.after (.provision swappedSpec false true) []).stored = some r ∧
        pluggableVolumes r.spec.volumes ≠ pluggableVolumes swappedSpec.volumes := by
  exact ⟨by decide, _, rfl, by decide⟩

end MeisterStack.Agent.Provision
