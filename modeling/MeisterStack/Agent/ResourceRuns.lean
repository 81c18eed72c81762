import MeisterStack.Agent.ResourceLedger

/-!
# Runs of the operations of a VM

Between operations the stored record lists what the drivers hold, unless a resume fails before it
has made again what the record listed, a stop's device backend does not go, or an in-place update
fails after it attached a volume.
-/

namespace MeisterStack.Agent.Provision

open MeisterStack.Foundation Procedure List Option Resources

variable {S : Item → Bool}

def Work.Covered (S : Item → Bool) (w : Work) : Prop := Covers S w.stored w.log

theorem reaches_runChain (spec) : Reaches (fun w => w.stored = some w.draft) (runChain spec) := by
  unfold runChain boot
  repeat refine reaches_next fun _ => ?_
  intro w answers _ _
  rfl

theorem chainOr_cases (spec rest w answers) :
    ∃ w', Grew spec w w' ∧ w'.stored = some w'.draft ∧
      w'.draft = ((runChain spec).final w answers).draft ∧
      ((chainOr spec rest).final w answers = w' ∨
        ∃ answers', (chainOr spec rest).final w answers = rest.final w' answers') := by
  have hgrew : Grew spec w ((runChain spec).final w answers) := grew_runChain w answers
  have hreaches := reaches_runChain spec w answers
  rcases hrun : runChain spec w answers with ⟨_ | u, w', answers'⟩
  · simp only [final, hrun] at hgrew
    refine ⟨{ w' with stored := some w'.draft }, hgrew, rfl, by rw [final, hrun],
      .inr ⟨answers', ?_⟩⟩
    simp [chainOr, final, bind, attempt, hrun, put, change]
  · simp only [final, result, hrun] at hgrew hreaches
    refine ⟨w', hgrew, hreaches u trivial, by rw [final, hrun], .inl ?_⟩
    simp [chainOr, final, bind, attempt, hrun, pure]

variable {w : Work}

theorem Grew.covers {w' spec} (h : Grew spec w w') (hspec : w.draft.spec = spec)
    (hkept : ∀ i, S i → holds w.log i → i ∈ w'.draft.items) : Covers S (some w'.draft) w'.log := by
  obtain ⟨-, -, calls, hlog, hmade⟩ := h
  intro i hS hi
  rw [hlog] at hi
  refine ⟨w'.draft, rfl, ?_⟩
  rcases holds_of_append hi with hi | hi
  · exact hkept i hS hi
  · exact hmade hspec i hi

theorem covered_provisionFresh {spec} (hw : w.Covered S) (hstored : w.stored = none)
    (hapart : spec.Apart S) (answers) : ((provisionFresh spec).final w answers).Covered S := by
  have hnone : ∀ i, S i → holds w.log i ≠ true := by
    intro i hS hi
    obtain ⟨r, hr, -⟩ := hw i hS hi
    cases hstored.symm.trans hr
  unfold provisionFresh
  rcases check_bind (fun _ => _) w answers with ⟨-, hfinal⟩ | ⟨rest, -, hfinal⟩
  · rw [hfinal]
    exact hw
  · rw [hfinal]
    obtain ⟨w', hgrew, hstored', -, hcases⟩ := chainOr_cases spec (teardown >>= fun _ => fail)
      { w with stored := some (.fresh spec), draft := .fresh spec } rest
    have hcovered : w'.Covered S := by
      unfold Work.Covered
      rw [hstored']
      exact hgrew.covers rfl fun i hS hi => absurd hi (hnone i hS)
    rcases hcases with hend | ⟨rest', hend⟩
    · change ((chainOr spec _).final _ rest).Covered S
      rw [hend]
      exact hcovered
    · change ((chainOr spec _).final _ rest).Covered S
      rw [hend]
      have htorn := covers_teardown hcovered (fun r hr => ?_) rest'
      · rcases bind_cases teardown (fun _ => (fail : Act Unit)) w' rest' with
          ⟨-, -, hlast⟩ | ⟨_, _, -, -, hlast⟩
        all_goals
          rw [hlast]
          exact htorn
      · cases hstored'.symm.trans hr
        rw [hgrew.1]
        exact hapart

theorem Covers.extend {stored log calls} (h : Covers S stored log)
    (hmake : ∀ i, S i → .make i true ∉ calls) : Covers S stored (log ++ calls) :=
  fun i hS hi => h i hS ((holds_of_append hi).resolve_right (hmake i hS))

variable {r : Resources}

theorem covered_rebuild {restored} (hw : w.Covered S) (hr : w.stored = some r) (answers)
    (hkept : ∀ i ∈ r.items, S i → holds w.log i →
      i ∈ restored.cleared.items ∨
        false ∉ answers ∧ i ∈ (built restored.spec).items) :
    ((rebuild restored).final w answers).Covered S := by
  let w1 : Work := { w with stored := some restored.cleared, draft := restored.cleared }
  obtain ⟨w', hgrew, hstored, hdraft, hcases⟩ := chainOr_cases restored.spec fail w1 answers
  have hend : (rebuild restored).final w answers = w' := by
    rcases hcases with hend | ⟨rest, hend⟩ <;> exact hend
  rw [hend]
  unfold Work.Covered
  rw [hstored]
  refine hgrew.covers rfl fun i hS hi => ?_
  obtain ⟨r0, hr0, hir⟩ := hw i hS hi
  cases hr.symm.trans hr0
  rcases hkept i hir hS hi with hcleared | ⟨hok, hbuilt⟩
  · exact hgrew.2.1 hcleared
  · rw [hdraft]
    exact runChain_lists (w := w1) rfl hok hbuilt

theorem covered_resume {volumes} (hw : w.Covered S) (answers)
    (hkept : answers.headD true → answers.tail.headD true → ∀ r ∈ w.stored,
      ∀ restored ∈ restoreDriftedInlineIds r volumes, ∀ i ∈ r.items, S i → holds w.log i →
        i ∈ restored.cleared.items ∨
          false ∉ answers.tail.tail ∧ i ∈ (built restored.spec).items) :
    ((resume volumes).final w answers).Covered S := by
  cases hr : w.stored with
  | none =>
    rw [final, resume, withStored_none hr]
    exact hw
  | some r =>
    rw [final, resume, withStored_some hr, must_then]
    split_ifs with hkilled
    · have hw1 : Work.Covered S { w with log := w.log ++ [.killSlice true] } :=
        Covers.extend hw (by simp)
      rw [check_then]
      split_ifs with hread
      · cases hrestore : restoreDriftedInlineIds r volumes with
        | none => exact hw1
        | some restored =>
          refine covered_rebuild hw1 hr _ fun i hir hS hi => ?_
          exact hkept hkilled hread r hr restored hrestore i hir hS
            ((holds_of_append hi).resolve_right (by simp))
      · exact hw1
    · exact Covers.extend hw (by simp)

theorem releaseDevice_each (devices w answers) :
    ∃ calls rest, each releaseDevice devices w answers =
        (some (), { w with log := w.log ++ calls }, rest) ∧ (∀ i, .make i true ∉ calls) ∧
      (false ∉ answers.take devices.length →
        ∀ d ∈ devices, .release (.device d) true ∈ calls) := by
  induction devices generalizing w answers with
  | nil => exact ⟨[], answers, by simp [each, pure], by simp, by simp⟩
  | cons d devices ih =>
    let c : Call := .release (.device d) (answers.headD true)
    obtain ⟨calls, rest, hrun, hmake, hall⟩ := ih { w with log := w.log ++ [c] } answers.tail
    refine ⟨c :: calls, rest, ?_, by simp [hmake, c], fun hok e he => ?_⟩
    · change each releaseDevice devices { w with log := w.log ++ [c] } answers.tail = _
      rw [hrun, append_assoc]
      rfl
    · have hfirst : answers.headD true = true ∧ false ∉ answers.tail.take devices.length := by
        cases answers with
        | nil => simp
        | cons ok => cases ok <;> simp_all
      rcases mem_cons.mp he with rfl | he
      · exact hfirst.1 ▸ mem_cons_self
      · exact mem_cons_of_mem c (hall hfirst.2 e he)

theorem detachEach_spec (volumes w answers) :
    ∃ calls rest volumes', detachEach volumes w answers =
        (some volumes', { w with log := w.log ++ calls }, rest) ∧
      (∀ i, .make i true ∉ calls) ∧ volumes'.map (·.id) = volumes.map (·.id) ∧
      ∀ v ∈ volumes, v ∈ volumes' ∨ .release (.attachment v.id) true ∈ calls := by
  induction volumes generalizing w answers with
  | nil => exact ⟨[], answers, [], by simp [detachEach, pure], by simp, rfl, by simp⟩
  | cons v volumes ih =>
    let ok := answers.headD true
    let c : Call := .release (.attachment v.id) ok
    obtain ⟨calls, rest, volumes', hrun, hmake, hids, hall⟩ :=
      ih { w with log := w.log ++ [c] } answers.tail
    refine ⟨c :: calls, rest, (if ok then { v with detached := true } else v) :: volumes',
      ?_, by simp [hmake, c], ?_, fun u hu => ?_⟩
    · simp only [detachEach, bind, call_apply]
      simp only [c, ok] at hrun
      rw [hrun]
      simp [pure, c, ok]
    · rw [map_cons, map_cons, hids]
      split_ifs <;> rfl
    · rcases mem_cons.mp hu with rfl | hu
      · cases hok : ok <;> simp [c, hok]
      · exact (hall u hu).imp (mem_cons_of_mem _) (mem_cons_of_mem c)

theorem stop_cases (hr : w.stored = some r) (answers) :
    (∃ c, stop.final w answers = { w with log := w.log ++ [c] } ∧ ∀ i, c ≠ .make i true) ∨
    answers.headD true = true ∧
    ∃ calls volumes, (stop.final w answers).log = w.log ++ calls ∧
      (stop.final w answers).stored = some { r with devices := [], volumes } ∧
      (∀ i, .make i true ∉ calls) ∧ volumes.map (·.id) = r.volumes.map (·.id) ∧
      (∀ v ∈ r.volumes, v ∈ volumes ∨ .release (.attachment v.id) true ∈ calls) ∧
      (false ∉ answers.tail.take r.devices.length →
        ∀ d ∈ r.devices, .release (.device d) true ∈ calls) := by
  rw [final, stop, withStored_some hr, must_then]
  split_ifs with hdestroyed
  · obtain ⟨calls1, rest1, hrun1, hmake1, hdevices⟩ :=
      releaseDevice_each r.devices { w with log := w.log ++ [.vmm .destroy true] } answers.tail
    obtain ⟨calls2, rest2, volumes, hrun2, hmake2, hids, hvolumes⟩ :=
      detachEach_spec r.volumes
        { w with log := w.log ++ [.vmm .destroy true] ++ calls1 } rest1
    refine .inr ⟨hdestroyed, .vmm .destroy true :: (calls1 ++ calls2), volumes, ?_⟩
    simp only [bind, hrun1, hrun2, change, put]
    refine ⟨by simp, trivial, by simp [hmake1, hmake2], hids, fun v hv => ?_, fun hok d hd => ?_⟩
    · exact (hvolumes v hv).imp_right fun h => by simp [h]
    · simp [hdevices hok d hd]
  · exact .inl ⟨.vmm .destroy false, rfl, by simp⟩

theorem covered_stop (hw : w.Covered S) (answers)
    (hdevices : answers.headD true → ∀ r ∈ w.stored, ∀ d ∈ r.devices, S (.device d) →
      holds w.log (.device d) → false ∉ answers.tail.take r.devices.length) :
    (stop.final w answers).Covered S := by
  cases hr : w.stored with
  | none =>
    rw [final, stop, withStored_none hr]
    exact hw
  | some r =>
    rcases stop_cases hr answers with ⟨c, hfinal, hc⟩ |
      ⟨hdestroyed, calls, volumes, hlog, hstored, hmake, -, hvolumes, hreleased⟩
    · rw [hfinal]
      refine Covers.extend hw fun i _ hi => hc i ?_
      exact (mem_singleton.mp hi).symm
    · intro i hS hi
      rw [hlog] at hi
      have hkept : .release i true ∉ calls := by
        intro hrelease
        simp [not_holds_of_released (hmake i) hrelease] at hi
      have hheld := (holds_of_append hi).resolve_right (hmake i)
      obtain ⟨r0, hr0, hir⟩ := hw i hS hheld
      cases hr.symm.trans hr0
      refine ⟨_, hstored, ?_⟩
      cases i with
      | device d =>
        have hd := mem_items_device.mp hir
        exact absurd (hreleased (hdevices hdestroyed r hr d hd hS hheld) d hd) hkept
      | attachment =>
        obtain ⟨x, hx, hdetached, rfl⟩ := mem_items_attachment.mp hir
        have hin := (hvolumes x hx).resolve_right hkept
        exact mem_items_attachment.mpr ⟨x, hin, hdetached, rfl⟩
      | slice => exact mem_items_slice
      | disk | nic => simpa using hir

def Pending (added : List VolumeWithId) (w w' : Work) : Prop :=
  w'.stored = w.stored ∧ ∃ calls, w'.log = w.log ++ calls ∧
    ∀ i, .make i true ∈ calls → ∃ v ∈ added, i = .attachment v.id

section Pending

variable {added : List VolumeWithId}

instance : Std.Refl (Pending added) := ⟨fun w => ⟨rfl, [], by simp, by simp⟩⟩

instance : IsTrans Work (Pending added) where
  trans _ _ _ h12 h23 := by
    obtain ⟨hstored2, calls2, hlog2, hmade2⟩ := h12
    obtain ⟨hstored3, calls3, hlog3, hmade3⟩ := h23
    refine ⟨hstored3.trans hstored2, calls2 ++ calls3, by rw [hlog3, hlog2, List.append_assoc],
      fun i hi => ?_⟩
    exact (mem_append.mp hi).elim (hmade2 i) (hmade3 i)

theorem pending_must {c : Bool → Call}
    (hc : ∀ i ok, c ok = .make i true → ∃ v ∈ added, i = .attachment v.id) :
    Keeps (Pending added) (must c) := by
  intro w answers
  rw [final, must_apply]
  exact ⟨rfl, [c (answers.headD true)], rfl, fun i hi => hc i _ (mem_singleton.mp hi).symm⟩

theorem pending_edit (f : Resources → Resources) : Keeps (Pending added) (edit f) :=
  keeps_change fun _ => ⟨rfl, [], by simp, by simp⟩

theorem pending_plug (live what) : Keeps (Pending added) (plug live what) := by
  cases live
  · exact keeps_pure ()
  · exact pending_must (by simp)

theorem pending_detachVolume (live v) : Keeps (Pending added) (detachVolume live v) := by
  refine keeps_bind keeps_current fun w => ?_
  split_ifs
  · exact keeps_bind keeps_check fun _ => keeps_bind (pending_plug live _) fun _ =>
      keeps_bind (pending_edit _) fun _ => pending_must (by simp)
  · exact keeps_pure ()

theorem pending_plugVolume (live) {v} (hv : v ∈ added) :
    Keeps (Pending added) (plugVolume live v) := by
  refine keeps_bind keeps_check fun _ => keeps_bind (pending_must fun i ok hi => ?_) fun _ =>
    keeps_bind (pending_plug live _) fun _ => pending_edit _
  injection hi with hi
  exact ⟨v, hv, hi.symm⟩

end Pending

theorem pending_applyVolumeDiff (wanted live hotplug w answers) :
    Pending (volumeDiff w.draft.spec.volumes wanted).1 w
      ((applyVolumeDiff wanted live hotplug).final w answers) := by
  rw [applyVolumeDiff, current_bind_final]
  dsimp only
  split
  · exact keeps_pure () w answers
  split
  · exact keeps_fail w answers
  split
  · exact keeps_fail w answers
  · exact keeps_bind (keeps_each fun v _ => pending_detachVolume live v) (fun _ =>
      keeps_bind (keeps_each fun v hv => pending_plugVolume live hv) fun _ => pending_edit _)
      w answers

theorem smooth_plug (live what) : Smooth (plug live what) := by
  cases live
  · exact smooth_pure ()
  · exact smooth_must _

theorem smooth_detachVolume (live v) : Smooth (detachVolume live v) := by
  refine smooth_bind smooth_current fun w => ?_
  split_ifs
  · exact smooth_bind smooth_check fun _ => smooth_bind (smooth_plug live _) fun _ =>
      smooth_bind (smooth_change _) fun _ => smooth_must _
  · exact smooth_pure ()

theorem smooth_plugVolume (live v) : Smooth (plugVolume live v) :=
  smooth_bind smooth_check fun _ => smooth_bind (smooth_must _) fun _ =>
    smooth_bind (smooth_plug live _) fun _ => smooth_change _

/-- Where every call goes well, an update in place fails before its first one. -/
theorem applyVolumeDiff_refused {wanted live hotplug w answers} (hok : false ∉ answers)
    (hnone : (applyVolumeDiff wanted live hotplug).result w answers = none) :
    (applyVolumeDiff wanted live hotplug).final w answers = w := by
  rw [applyVolumeDiff, current_bind_result] at hnone
  rw [applyVolumeDiff, current_bind_final]
  dsimp only at hnone ⊢
  split at hnone
  · cases hnone
  rw [if_neg ‹_›]
  split at hnone
  · rfl
  split at hnone
  · rw [if_pos ‹_›]
    rfl
  · obtain ⟨u, hu⟩ := (smooth_bind (smooth_each (smooth_detachVolume live)) fun _ =>
      smooth_bind (smooth_each (smooth_plugVolume live)) fun _ =>
        smooth_change _).result (s := w) hok
    cases hnone.symm.trans hu

def Follows (S : Item → Bool) (w w' : Work) : Prop :=
  w'.draft.spec = w.draft.spec ∧ (Covers S (some w.draft) w.log → Covers S (some w'.draft) w'.log)

instance : Std.Refl (Follows S) := ⟨fun _ => ⟨rfl, id⟩⟩

instance : IsTrans Work (Follows S) where
  trans _ _ _ h12 h23 := ⟨h23.1.trans h12.1, h23.2 ∘ h12.2⟩

theorem plug_bind {β : Type} (live what) (f : Unit → Act β) (w answers) :
    (plug live what >>= f).result w answers = none ∨
    ∃ calls rest, (∀ i ok, .make i ok ∉ calls) ∧ (plug live what >>= f).result w answers =
        (f ()).result { w with log := w.log ++ calls } rest ∧
      (plug live what >>= f).final w answers =
        (f ()).final { w with log := w.log ++ calls } rest := by
  cases live with
  | false => exact .inr ⟨[], answers, by simp, by simp [plug, result, bind, pure],
      by simp [plug, final, bind, pure]⟩
  | true =>
    rcases must_bind (.vmm what) f w answers with ⟨hnone, -⟩ | ⟨rest, hresult, hfinal⟩
    · exact .inl hnone
    · exact .inr ⟨[.vmm what true], rest, by simp, hresult, hfinal⟩

theorem follows_detachVolume (live v) : Ensures (Follows S) (detachVolume live v) := by
  intro w answers u hu
  rw [detachVolume, current_bind_result] at hu
  rw [detachVolume, current_bind_final]
  split_ifs at hu ⊢ with hheld
  case neg => exact Std.Refl.refl w
  rcases check_bind (fun _ => _) w answers with ⟨hnone, -⟩ | ⟨rest, hresult, hfinal⟩
  · cases hnone.symm.trans hu
  rw [hresult] at hu
  rw [hfinal]
  rcases plug_bind live (.removeDisk v.id) (fun _ => _) w rest with
    hnone | ⟨calls, rest2, hmake, hresult2, hfinal2⟩
  · cases hnone.symm.trans hu
  rw [hresult2] at hu
  rw [hfinal2]
  let w1 : Work :=
    { w with
      log := w.log ++ calls
      draft := { w.draft with volumes := w.draft.volumes.eraseP fun h => h.id = v.id } }
  change (must (.release (.attachment v.id))).result w1 rest2 = some u at hu
  change Follows S w ((must (.release (.attachment v.id))).final w1 rest2)
  rw [result, must_apply] at hu
  rw [final, must_apply]
  cases hok : rest2.headD true with
  | false => rw [hok] at hu; cases hu
  | true =>
    refine ⟨rfl, fun hcovers i hS hi => ⟨_, rfl, ?_⟩⟩
    change holds (w.log ++ calls ++ [.release (.attachment v.id) true]) i = true at hi
    have hne : i ≠ .attachment v.id := by
      rintro rfl
      have hgone : holds (w.log ++ calls ++ [.release (.attachment v.id) true])
          (.attachment v.id) = false := not_holds_of_released (by simp) (by simp)
      cases hgone.symm.trans hi
    have hheld : holds w.log i := by
      rw [append_assoc] at hi
      exact (holds_of_append hi).resolve_right (by simp [hmake])
    obtain ⟨_, hr, hir⟩ := hcovers i hS hheld
    cases hr
    exact mem_items_erased hir hne

theorem follows_plugVolume (live v) : Ensures (Follows S) (plugVolume live v) := by
  intro w answers u hu
  unfold plugVolume at hu ⊢
  rcases check_bind (fun _ => _) w answers with ⟨hnone, -⟩ | ⟨rest, hresult, hfinal⟩
  · cases hnone.symm.trans hu
  rw [hresult] at hu
  rw [hfinal]
  rcases must_bind (.make (.attachment v.id)) (fun _ => _) w rest with
    ⟨hnone, -⟩ | ⟨rest2, hresult2, hfinal2⟩
  · cases hnone.symm.trans hu
  rw [hresult2] at hu
  rw [hfinal2]
  rcases plug_bind live (.addDisk v.id) (fun _ => _) _ rest2 with
    hnone | ⟨calls, rest3, hmake, hresult3, hfinal3⟩
  · cases hnone.symm.trans hu
  rw [hfinal3]
  change Follows S w
    { w with
      log := w.log ++ [.make (.attachment v.id) true] ++ calls
      draft := { w.draft with volumes := w.draft.volumes ++ [⟨v.id, false⟩] } }
  refine ⟨rfl, fun hcovers i hS hi => ⟨_, rfl, ?_⟩⟩
  rw [append_assoc] at hi
  rcases holds_of_append hi with hi | hi
  · obtain ⟨_, hr, hir⟩ := hcovers i hS hi
    cases hr
    exact items_attached _ _ hir
  · rcases mem_append.mp hi with hi | hi
    · cases mem_singleton.mp hi
      exact mem_items_attachment.mpr ⟨⟨v.id, false⟩, by simp, rfl, rfl⟩
    · exact absurd hi (hmake i true)

variable {volumes : List VolumeWithId}

theorem mem_keepFixed {kept positioned} (h : keepFixed kept positioned = some volumes) {v}
    (hv : v ∈ kept) : v ∈ volumes := by
  induction positioned generalizing kept volumes with
  | nil =>
    cases kept with
    | nil => cases hv
    | cons => cases h
  | cons p rest ih =>
    obtain ⟨w, position⟩ := p
    cases kept with
    | nil => cases hv
    | cons x =>
      rw [keepFixed] at h
      split_ifs at h
      · obtain ⟨volumes', hrest, rfl⟩ := map_eq_some_iff.mp h
        exact mem_cons_of_mem w (ih hrest hv)
      · obtain ⟨volumes', hrest, rfl⟩ := map_eq_some_iff.mp h
        rcases mem_cons.mp hv with rfl | hv
        · exact mem_cons_self
        · exact mem_cons_of_mem x (ih hrest hv)

theorem mem_fixedVolumes {v} (hv : v ∈ volumes) (hinline : v.referenced = false) :
    v ∈ fixedVolumes volumes := by
  obtain ⟨n, hn⟩ := mem_iff_getElem?.mp hv
  refine mem_map.mpr ⟨(v, n), mem_filter.mpr ⟨?_, ?_⟩, rfl⟩
  · exact mem_zipIdx_iff_getElem?.mpr hn
  · simp [isPluggable, hinline]

theorem items_respec {wanted} (h : volumesKeepingFixed r.spec.volumes wanted = some volumes) :
    r.items ⊆ { r with spec := { r.spec with volumes } }.items := by
  intro i hi
  cases i with
  | disk =>
    obtain ⟨x, hx, hinline, rfl⟩ := mem_items_disk.mp hi
    exact mem_items_disk.mpr ⟨x, mem_keepFixed h (mem_fixedVolumes hx hinline), hinline, rfl⟩
  | _ => simp_all

theorem follows_applyVolumeDiff (wanted live hotplug answers) {u}
    (hu : (applyVolumeDiff wanted live hotplug).result w answers = some u)
    (hw : Covers S (some w.draft) w.log) :
    Covers S (some ((applyVolumeDiff wanted live hotplug).final w answers).draft)
      ((applyVolumeDiff wanted live hotplug).final w answers).log := by
  rw [applyVolumeDiff, current_bind_result] at hu
  rw [applyVolumeDiff, current_bind_final]
  dsimp only at hu ⊢
  split at hu
  case isTrue hnone =>
    rw [if_pos hnone]
    exact hw
  case isFalse hsome =>
    rw [if_neg hsome]
    cases hvolumes : volumesKeepingFixed w.draft.spec.volumes wanted with
    | none => simp [hvolumes, result, fail] at hu
    | some =>
      simp only [hvolumes] at hu ⊢
      split at hu
      · cases hu
      rename_i hplug
      rw [if_neg hplug]
      obtain ⟨_, rest, hdetached, hu1, hfinal1⟩ := bind_ok hu
      obtain ⟨_, rest2, hplugged, hu2, hfinal2⟩ := bind_ok hu1
      rw [hfinal1, hfinal2]
      have hfollows := IsTrans.trans _ _ _
        (ensures_each (R := Follows S) (fun v _ => follows_detachVolume live v) w answers _
          hdetached)
        (ensures_each (R := Follows S) (fun v _ => follows_plugVolume live v) _ rest _ hplugged)
      obtain ⟨hspec, hcovers⟩ := hfollows
      intro i hS hi
      obtain ⟨r, hr, hir⟩ := hcovers hw i hS hi
      cases hr
      exact ⟨_, rfl, items_respec (hspec ▸ hvolumes) hir⟩

theorem covered_syncInPlace (hw : w.Covered S) (wanted live hotplug answers)
    (hfailed : answers.headD true → ∀ r ∈ w.stored, ∀ v ∈ (volumeDiff r.spec.volumes wanted).1,
      S (.attachment v.id) → .attachment v.id ∈ r.items ∨ false ∉ answers.tail) :
    ((syncInPlace wanted live hotplug).final w answers).Covered S := by
  rw [final, syncInPlace, check_then]
  split_ifs with hread
  case neg => exact hw
  cases hstored : w.stored with
  | none =>
    rw [syncVolumes, withStored_none hstored]
    exact hw
  | some r =>
    rw [syncVolumes, withStored_some hstored]
    let w1 : Work := { w with draft := r }
    change ((applyVolumeDiff wanted live hotplug >>= fun _ => put).final w1
      answers.tail).Covered S
    rcases bind_cases (applyVolumeDiff wanted live hotplug) (fun _ => put) w1 answers.tail with
      ⟨hnone, -, hend⟩ | ⟨u, rest, hok, -, hend⟩
    · rw [hend]
      obtain ⟨hkept, calls, hlog, hmade⟩ :=
        pending_applyVolumeDiff wanted live hotplug w1 answers.tail
      by_cases hok : false ∉ answers.tail
      · rw [applyVolumeDiff_refused hok hnone]
        exact hw
      unfold Work.Covered
      rw [hkept, hlog]
      intro i hS hi
      rcases holds_of_append hi with hi | hi
      · exact hw i hS hi
      · obtain ⟨v, hv, rfl⟩ := hmade i hi
        exact ⟨r, hstored, (hfailed hread r hstored v hv hS).resolve_right hok⟩
    · rw [hend]
      refine follows_applyVolumeDiff wanted live hotplug answers.tail hok ?_
      change Covers S (some r) w.log
      rw [← hstored]
      exact hw

namespace Vm

def Covered (S : Item → Bool) (vm : Vm) : Prop := Covers S vm.stored vm.log

theorem calls_eq {vm : Vm} {op : Op} {answers calls}
    (h : (op.action.final vm.work answers).log = vm.log ++ calls) :
    vm.calls op answers = calls := by
  simp [Vm.calls, after, h]

end Vm

/-- `answers` is how the calls outside go, and everything else is read before the operation. -/
def Op.Meets (S : Item → Bool) (vm : Vm) (op : Op) (answers : List Bool) : Prop :=
  match op with
  | .provision spec _ _ => (vm.stored = none → spec.Apart S) ∧
      (answers.headD true → ∀ r ∈ vm.stored, ∀ v ∈ (volumeDiff r.spec.volumes spec.volumes).1,
        S (.attachment v.id) → .attachment v.id ∈ r.items ∨ false ∉ answers.tail)
  | .resume volumes => answers.headD true → answers.tail.headD true → ∀ r ∈ vm.stored,
      ∀ restored ∈ restoreDriftedInlineIds r volumes, ∀ i ∈ r.items, S i → holds vm.log i →
        i ∈ restored.cleared.items ∨
          false ∉ answers.tail.tail ∧ i ∈ (built restored.spec).items
  | .stop => answers.headD true → ∀ r ∈ vm.stored, ∀ d ∈ r.devices, S (.device d) →
      holds vm.log (.device d) → false ∉ answers.tail.take r.devices.length
  | .teardown => ∀ r ∈ vm.stored, r.spec.Apart S

instance (S : Item → Bool) (vm) (op : Op) (answers) : Decidable (op.Meets S vm answers) :=
  match op with
  | .provision .. => inferInstanceAs (Decidable ((_ → _) ∧ (_ → ∀ r ∈ vm.stored, ∀ v ∈ _, _ → _)))
  | .resume _ =>
    haveI (r : Resources) (restored : Resources) : Decidable (∀ i ∈ r.items, S i → holds vm.log i →
        i ∈ restored.cleared.items ∨
          false ∉ answers.tail.tail ∧ i ∈ (built restored.spec).items) := inferInstance
    inferInstanceAs (Decidable (_ → _ → ∀ r ∈ vm.stored, ∀ restored ∈ _, _))
  | .stop => inferInstanceAs (Decidable (_ → ∀ r ∈ vm.stored, ∀ d ∈ _, _ → _ → _))
  | .teardown => inferInstanceAs (Decidable (∀ r ∈ vm.stored, _))

theorem provision_none (h : w.stored = none) (spec live hotplug answers) :
    provision spec live hotplug w answers = provisionFresh spec w answers := by
  simp [provision, bind, current, h]

theorem provision_some (h : w.stored = some r) (spec live hotplug answers) :
    provision spec live hotplug w answers = syncInPlace spec.volumes live hotplug w answers := by
  simp [provision, bind, current, h]

theorem Vm.Covered.after {vm : Vm} (h : vm.Covered S) {op : Op} {answers}
    (hm : op.Meets S vm answers) : (vm.after op answers).Covered S := by
  have hw : vm.work.Covered S := h
  cases op with
  | provision spec live hotplug =>
    obtain ⟨hapart, hmade⟩ := hm
    change (final (provision spec live hotplug) vm.work answers).Covered S
    cases hstored : vm.stored with
    | none =>
      rw [final, provision_none hstored]
      exact covered_provisionFresh hw hstored (hapart hstored) answers
    | some r =>
      rw [final, provision_some hstored]
      exact covered_syncInPlace hw spec.volumes live hotplug answers hmade
  | resume => exact covered_resume hw answers hm
  | stop => exact covered_stop hw answers hm
  | teardown => exact covers_teardown hw hm answers

theorem Vm.covered_run {vm es}
    (hm : vmMachine.RunMeets (fun vm e => e.1.Meets S vm e.2) .unknown es)
    (hrun : vmMachine.run .unknown es = some vm) : vm.Covered S := by
  have hunknown : Vm.unknown.Covered S := fun i _ hi => by cases hi
  refine Machine.invariant (fun h hg hstep => ?_) hunknown hm hrun
  cases hstep
  exact h.after hg

/-- A teardown that answers Ok leaves nothing of what was made for the VM at a driver. -/
theorem teardown_releases_everything {vm : Vm} {es : List (Op × List Bool)} {answers : List Bool}
    (hm : vmMachine.RunMeets (fun vm e => e.1.Meets (fun _ => true) vm e.2) .unknown
      (es ++ [(.teardown, answers)]))
    (hrun : vmMachine.run .unknown es = some vm) (hok : vm.answer .teardown answers = some ())
    {item : Item} {before after : List Call}
    (hmade : (vm.after .teardown answers).log = before ++ .make item true :: after) :
    .release item true ∈ after := by
  by_contra hkept
  have hend : vmMachine.run .unknown (es ++ [(.teardown, answers)]) =
      some (vm.after .teardown answers) := vmMachine.run_concat hrun _
  have hheld : holds (vm.after .teardown answers).log item := hmade ▸ holds_of_made hkept
  have hgone : (vm.after .teardown answers).stored = none := reaches_teardown _ _ _ hok
  obtain ⟨r, hr, -⟩ := Vm.covered_run hm hend item rfl hheld
  cases hgone.symm.trans hr

private def guestSpec : VmSpec :=
  ⟨[⟨"root", false⟩, ⟨"data", true⟩], ["eth0"], ["fs0"]⟩

private def guestOps : List (Op × List Bool) :=
  [(.provision guestSpec false false, [true, true, true, true, false]),
   (.provision guestSpec false false, []),
   (.stop, []),
   (.resume [], []),
   (.provision { guestSpec with volumes := [⟨"root", false⟩] } true true, []),
   (.teardown, [false])]

private def guest : Vm := guestOps.foldl (fun vm e => vm.after e.1 e.2) .unknown

/-- A provision that fails, one that does not, a stop, a resume, an update in place and a
teardown that has to be repeated. The NIC was made twice. -/
theorem teardown_releases_everything_guest :
    vmMachine.run .unknown guestOps = some guest ∧ guest.answer .teardown [] = some () ∧
    .release (.nic "eth0") true ∈ (guest.after .teardown []).log.drop 12 :=
  have hrun : vmMachine.run .unknown guestOps = some guest := rfl
  have hok : guest.answer .teardown [] = some () := by decide
  have hm : vmMachine.RunMeets (fun vm e => e.1.Meets (fun _ => true) vm e.2) .unknown
      (guestOps ++ [(.teardown, [])]) := by decide
  have hmade : (guest.after .teardown []).log =
      (guest.after .teardown []).log.take 11 ++ .make (.nic "eth0") true ::
        (guest.after .teardown []).log.drop 12 := by decide
  ⟨hrun, hok, teardown_releases_everything hm hrun hok hmade⟩

/-- A VM with a boot disk and a NIC is resumed, and its image cannot be fetched any more. The record
has lost the NIC by then: the teardown that follows answers Ok and the NIC stays. -/
theorem teardown_leaks_nic : ∃ vm,
    vmMachine.run .unknown
      [(.provision ⟨[⟨"root", false⟩], ["eth0"], []⟩ false false, []),
       (.resume [], [true, true, false])] = some vm ∧
    vm.answer .teardown [] = some () ∧
    (vm.after .teardown []).stored = none ∧
    (vm.after .teardown []).log =
      [.make .slice true, .make (.disk "root") true, .make (.attachment "root") true,
       .make (.nic "eth0") true, .vmm .create true, .vmm .start true, .killSlice true,
       .killSlice true, .vmm .destroy true, .release (.disk "root") true, .release .slice true] :=
  ⟨_, rfl, by decide, by decide, by decide⟩

end MeisterStack.Agent.Provision
