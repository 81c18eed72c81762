import MeisterStack.Agent.Resources

/-!
# What a record lists of what the drivers hold

A teardown releases what the record lists, and strikes an attachment only after it was detached. The
chain writes a resource into the record with the call that makes it.
-/

namespace MeisterStack.Agent.Provision

open MeisterStack.Foundation Procedure List Resources

section Log

variable {log calls : List Call} {i : Item}

theorem holds_append : holds (log ++ calls) i = calls.foldl (Call.after i) (holds log i) :=
  foldl_append

theorem after_of_release (b) : Call.after i b (.release i true) = false := by
  simp [Call.after]

theorem foldl_after_of_made {b} (h : calls.foldl (Call.after i) b = true) :
    b ∨ .make i true ∈ calls := by
  induction calls generalizing b with
  | nil => exact .inl h
  | cons c calls ih =>
    rcases ih h with hc | hc
    · unfold Call.after at hc
      split at hc
      · rename_i j
        simp only [Bool.or_eq_true, decide_eq_true_eq] at hc
        rcases hc with hb | rfl
        · exact .inl hb
        · exact .inr (by simp)
      · simp only [Bool.and_eq_true] at hc
        exact .inl hc.1
      · exact .inl hc
    · exact .inr (mem_cons_of_mem c hc)

theorem holds_of_append (h : holds (log ++ calls) i) : holds log i ∨ .make i true ∈ calls :=
  foldl_after_of_made (holds_append ▸ h)

theorem not_holds_of_released (hmake : .make i true ∉ calls)
    (hrelease : .release i true ∈ calls) : holds (log ++ calls) i = false := by
  obtain ⟨before, after, rfl⟩ := append_of_mem hrelease
  simp only [mem_append, mem_cons, not_or] at hmake
  rw [Bool.eq_false_iff, holds_append, foldl_append, foldl_cons, after_of_release]
  intro h
  rcases foldl_after_of_made h with h | h
  · cases h
  · exact hmake.2.2 h

theorem foldl_after_of_kept (h : .release i true ∉ calls) :
    calls.foldl (Call.after i) true = true := by
  induction calls with
  | nil => rfl
  | cons c calls ih =>
    simp only [mem_cons, not_or] at h
    have hc : Call.after i true c := by
      unfold Call.after
      split
      · simp
      · simpa using fun hj => h.1 (by rw [hj])
      · rfl
    rw [foldl_cons, hc]
    exact ih h.2

theorem holds_of_made {before after} (h : .release i true ∉ after) :
    holds (before ++ .make i true :: after) i := by
  rw [holds_append, foldl_cons]
  have hmade : Call.after i (holds before i) (.make i true) := by simp [Call.after]
  rw [hmade]
  exact foldl_after_of_kept h

end Log

def Resources.items (r : Resources) : List Item :=
  .slice :: ((r.volumes.filter fun v => !v.detached).map fun v => .attachment v.id) ++
    ((r.spec.volumes.filter fun v => !v.referenced).map fun v => .disk v.id) ++
    r.nics.map .nic ++ r.devices.map .device

section Items

variable {r : Resources}

@[simp] theorem mem_items_slice : .slice ∈ r.items := by simp [items]

variable {v : VolumeId}

@[simp] theorem mem_items_attachment :
    .attachment v ∈ r.items ↔ ∃ x ∈ r.volumes, x.detached = false ∧ x.id = v := by
  simp [items, and_assoc]

@[simp] theorem mem_items_disk :
    .disk v ∈ r.items ↔ ∃ x ∈ r.spec.volumes, x.referenced = false ∧ x.id = v := by
  simp [items, and_assoc]

@[simp] theorem mem_items_nic {n} : .nic n ∈ r.items ↔ n ∈ r.nics := by
  simp [items]

@[simp] theorem mem_items_device {d} : .device d ∈ r.items ↔ d ∈ r.devices := by
  simp [items]

theorem items_attached (x unattached) :
    r.items ⊆ { r with volumes := r.volumes ++ [x], unattached }.items := by
  intro i hi
  cases i <;> simp_all

theorem mem_items_erased {i} (hi : i ∈ r.items) (hne : i ≠ .attachment v) :
    i ∈ { r with volumes := r.volumes.eraseP fun h => h.id = v }.items := by
  cases i with
  | attachment =>
    obtain ⟨x, hx, hdetached, rfl⟩ := mem_items_attachment.mp hi
    refine mem_items_attachment.mpr ⟨x, (mem_eraseP_of_neg ?_).mpr hx, hdetached, rfl⟩
    simpa using fun he => hne (by rw [he])
  | _ => simp_all

end Items

def Grew (spec : VmSpec) (w w' : Work) : Prop :=
  w'.draft.spec = w.draft.spec ∧ w.draft.items ⊆ w'.draft.items ∧
    ∃ calls, w'.log = w.log ++ calls ∧
      (w.draft.spec = spec → ∀ i, .make i true ∈ calls → i ∈ w'.draft.items)

section Chain

variable {spec : VmSpec}

instance : Std.Refl (Grew spec) :=
  ⟨fun w => ⟨rfl, fun _ hi => hi, [], by simp, by simp⟩⟩

instance : IsTrans Work (Grew spec) where
  trans w1 w2 w3 h12 h23 := by
    obtain ⟨hspec2, hitems2, calls2, hlog2, hmade2⟩ := h12
    obtain ⟨hspec3, hitems3, calls3, hlog3, hmade3⟩ := h23
    refine ⟨hspec3.trans hspec2, fun i hi => hitems3 (hitems2 hi), calls2 ++ calls3, ?_,
      fun hspec i hi => ?_⟩
    · rw [hlog3, hlog2, append_assoc]
    · rcases mem_append.mp hi with hi | hi
      · exact hitems3 (hmade2 hspec i hi)
      · exact hmade3 (hspec2.trans hspec) i hi

theorem grew_note {c} (hc : ∀ i, c ≠ .make i true) (w) :
    Grew spec w { w with log := w.log ++ [c] } := by
  refine ⟨rfl, fun i hi => hi, [c], rfl, fun _ i hi => ?_⟩
  exact absurd (mem_singleton.mp hi).symm (hc i)

theorem grew_must {c} (hc : ∀ ok i, c ok ≠ .make i true) : Keeps (Grew spec) (must c) := by
  refine keeps_bind (keeps_bind keeps_ask fun ok => ?_) fun ok => ?_
  · exact keeps_bind (keeps_change (grew_note (hc ok))) fun _ => keeps_pure ok
  · cases ok
    · exact keeps_fail
    · exact keeps_pure ()

theorem grew_put : Keeps (Grew spec) put :=
  keeps_change fun w => ⟨rfl, fun _ hi => hi, [], by simp, by simp⟩

theorem must_apply (c : Bool → Call) (w answers) :
    must c w answers =
      (if answers.headD true then some () else none,
        { w with log := w.log ++ [c (answers.headD true)] }, answers.tail) := by
  cases answers with
  | nil => rfl
  | cons ok => cases ok <;> rfl

theorem must_then {β : Type} (c : Bool → Call) (f : Unit → Act β) (w answers) :
    (must c >>= f) w answers =
      if answers.headD true then f () { w with log := w.log ++ [c true] } answers.tail
      else (none, { w with log := w.log ++ [c false] }, answers.tail) := by
  cases answers with
  | nil => rfl
  | cons ok => cases ok <;> rfl

theorem must_bind {β : Type} (c : Bool → Call) (f : Unit → Act β) (w answers) :
    ((must c >>= f).result w answers = none ∧
      (must c >>= f).final w answers = { w with log := w.log ++ [c false] }) ∨
    ∃ rest, (must c >>= f).result w answers =
        (f ()).result { w with log := w.log ++ [c true] } rest ∧
      (must c >>= f).final w answers = (f ()).final { w with log := w.log ++ [c true] } rest := by
  simp only [result, final, must_then]
  split_ifs
  · exact .inr ⟨_, rfl, rfl⟩
  · exact .inl ⟨rfl, rfl⟩

theorem grew_acquire {i f} (hspec : ∀ r, (f r).spec = r.spec) (hkept : ∀ r, r.items ⊆ (f r).items)
    (hi : ∀ r, r.spec = spec → i ∈ (f r).items) : Keeps (Grew spec) (acquire i f) := by
  intro w answers
  rcases must_bind (.make i) (fun _ => edit f) w answers with ⟨-, hfinal⟩ | ⟨rest, -, hfinal⟩
  · rw [acquire, hfinal]
    exact ⟨rfl, fun _ hj => hj, [.make i false], rfl, by simp⟩
  · rw [acquire, hfinal]
    refine ⟨hspec w.draft, hkept w.draft, [.make i true], rfl, fun hw j hj => ?_⟩
    cases mem_singleton.mp hj
    exact hi w.draft hw

theorem grew_attachVolume {v} (hv : v ∈ spec.volumes) : Keeps (Grew spec) (attachVolume v) := by
  unfold attachVolume
  refine keeps_bind ?_ fun _ => keeps_bind (grew_acquire (fun _ => rfl) ?_ ?_) fun _ => grew_put
  · unfold handle
    cases hreferenced : v.referenced with
    | true => exact keeps_check
    | false =>
      refine keeps_bind keeps_current fun w => ?_
      split
      · exact keeps_pure ()
      · refine keeps_bind (grew_acquire (fun _ => rfl) (fun _ _ hi => hi) ?_) fun _ => grew_put
        rintro r rfl
        exact mem_items_disk.mpr ⟨v, hv, hreferenced, rfl⟩
  · exact fun r => items_attached _ _
  · intro r _
    simp

theorem grew_attachNic (n) : Keeps (Grew spec) (attachNic n) := by
  unfold attachNic
  refine keeps_bind keeps_check fun _ => grew_acquire (fun _ => rfl) ?_ (by simp)
  intro r i hi
  cases i <;> simp_all

theorem grew_createDevice (d) : Keeps (Grew spec) (createDevice d) := by
  unfold createDevice
  refine grew_acquire (fun _ => rfl) ?_ (by simp)
  intro r i hi
  cases i <;> simp_all

theorem grew_attachVolumes : Keeps (Grew spec) (attachVolumes spec) :=
  keeps_bind (keeps_each fun _ hv => grew_attachVolume hv) fun _ => grew_put

theorem grew_attachNics : Keeps (Grew spec) (attachNics spec) :=
  keeps_bind keeps_check fun _ => keeps_bind (keeps_each fun n _ => grew_attachNic n) fun _ =>
    grew_put

theorem grew_createDevices : Keeps (Grew spec) (createDevices spec) :=
  keeps_bind (keeps_each fun d _ => grew_createDevice d) fun _ => grew_put

theorem grew_makeResources : Keeps (Grew spec) (makeResources spec) := by
  refine keeps_bind keeps_check fun _ => keeps_bind ?_ fun _ =>
    keeps_bind grew_attachVolumes fun _ => keeps_bind grew_attachNics fun _ => grew_createDevices
  intro w answers
  rw [final, must_apply]
  exact ⟨rfl, fun _ hi => hi, [.make .slice (answers.headD true)], rfl, by simp⟩

theorem grew_boot : Keeps (Grew spec) boot := by
  refine keeps_bind (keeps_bind keeps_current fun w => ?_) fun _ =>
    keeps_bind (grew_must (by simp)) fun _ => keeps_bind grew_put fun _ =>
    keeps_bind (grew_must (by simp)) fun _ => grew_put
  split_ifs
  · exact keeps_fail
  · exact keeps_check

theorem grew_runChain : Keeps (Grew spec) (runChain spec) :=
  keeps_bind grew_makeResources fun _ => keeps_bind keeps_check fun _ =>
    keeps_bind keeps_check fun _ => grew_boot

def Resources.built (spec : VmSpec) : Resources :=
  ⟨spec, spec.volumes.map fun v => ⟨v.id, false⟩, [], spec.nics, spec.devices, false⟩

variable {i : Item}

theorem lists_stable (w w') (h : Grew spec w w') (hi : i ∈ w.draft.items) : i ∈ w'.draft.items :=
  h.2.1 hi

theorem reaches_acquire {f} (hi : ∀ r, i ∈ (f r).items) :
    Reaches (fun w => i ∈ w.draft.items) (acquire i f) :=
  reaches_next fun _ w _ _ _ => hi w.draft

theorem reaches_put {m : Act Unit} (h : Reaches (fun w => i ∈ w.draft.items) m) :
    Reaches (fun w => i ∈ w.draft.items) (m >>= fun _ => put) :=
  .then (R := fun w w' => w'.draft = w.draft) (fun _ _ h hi => h ▸ hi) h fun _ =>
    keeps_change fun _ => rfl

theorem makeResources_lists {w answers u} (hspec : w.draft.spec = spec)
    (hu : (makeResources spec).result w answers = some u) :
    (built spec).items ⊆ ((makeResources spec).final w answers).draft.items := by
  intro i hi
  suffices hreaches : Reaches (fun w : Work => w.draft.spec = spec → i ∈ w.draft.items)
      (makeResources spec) from
    hreaches w answers u hu ((grew_makeResources w answers).1.trans hspec)
  have hmade : Reaches (fun w : Work => i ∈ w.draft.items) (makeResources spec) →
      Reaches (fun w : Work => w.draft.spec = spec → i ∈ w.draft.items) (makeResources spec) :=
    fun h w answers u hu _ => h w answers u hu
  cases i with
  | slice => exact fun _ _ _ _ _ => mem_items_slice
  | disk v =>
    intro w answers u _ hspec
    rw [mem_items_disk, hspec]
    exact mem_items_disk.mp hi
  | attachment v =>
    obtain ⟨x, hx, -, rfl⟩ := mem_items_attachment.mp hi
    obtain ⟨v, hv, rfl⟩ := mem_map.mp hx
    have hattached := reaches_each lists_stable hv
      (reaches_next fun _ => reaches_put (reaches_acquire (by simp)))
      fun y hy => grew_attachVolume hy
    exact hmade (reaches_next fun _ => reaches_next fun _ =>
      .then lists_stable (reaches_put hattached)
        fun _ => keeps_bind grew_attachNics fun _ => grew_createDevices)
  | nic n =>
    have hattached := reaches_each (@lists_stable spec _) (mem_items_nic.mp hi)
      (reaches_next fun _ => reaches_acquire (by simp)) fun n _ => grew_attachNic n
    exact hmade (reaches_next fun _ => reaches_next fun _ => reaches_next fun _ =>
      .then lists_stable (reaches_next fun _ => reaches_put hattached) fun _ => grew_createDevices)
  | device d =>
    have hcreated := reaches_each (@lists_stable spec _) (mem_items_device.mp hi)
      (reaches_acquire (by simp)) fun d _ => grew_createDevice d
    exact hmade (reaches_next fun _ => reaches_next fun _ => reaches_next fun _ =>
      reaches_next fun _ => reaches_put hcreated)

theorem smooth_must (c : Bool → Call) : Smooth (must c) := by
  intro w answers h
  obtain ⟨hhead, htail⟩ := headD_of_all h
  exact ⟨(), _, answers.tail, by rw [must_apply, hhead, if_pos rfl], htail⟩

theorem smooth_acquire (i f) : Smooth (acquire i f) :=
  smooth_bind (smooth_must _) fun _ => smooth_change _

theorem smooth_attachVolume (v) : Smooth (attachVolume v) := by
  refine smooth_bind ?_ fun _ => smooth_bind (smooth_acquire _ _) fun _ => smooth_change _
  unfold handle inlineHandle
  split
  · exact smooth_check
  · refine smooth_bind smooth_current fun w => ?_
    split
    · exact smooth_pure ()
    · exact smooth_bind (smooth_acquire _ _) fun _ => smooth_change _

theorem smooth_makeResources (spec) : Smooth (makeResources spec) :=
  smooth_bind smooth_check fun _ => smooth_bind (smooth_must _) fun _ =>
    smooth_bind (smooth_bind (smooth_each smooth_attachVolume) fun _ => smooth_change _) fun _ =>
    smooth_bind (smooth_bind smooth_check fun _ => smooth_bind (smooth_each fun _ =>
      smooth_bind smooth_check fun _ => smooth_acquire _ _) fun _ => smooth_change _) fun _ =>
    smooth_bind (smooth_each fun _ => smooth_acquire _ _) fun _ => smooth_change _

theorem runChain_lists {w answers} (hspec : w.draft.spec = spec) (hok : false ∉ answers) :
    (built spec).items ⊆ ((runChain spec).final w answers).draft.items := by
  obtain ⟨u, hu⟩ := (smooth_makeResources spec).result (s := w) hok
  unfold runChain
  rcases bind_cases (makeResources spec) (fun _ => _) w answers with
    ⟨hnone, -⟩ | ⟨_, rest, -, -, hfinal⟩
  · cases hnone.symm.trans hu
  · rw [hfinal]
    have hrest : Keeps (Grew spec) (check >>= fun _ => check >>= fun _ => boot) :=
      keeps_bind keeps_check fun _ => keeps_bind keeps_check fun _ => grew_boot
    exact fun i hi => (hrest _ rest).2.1 (makeResources_lists hspec hu hi)

end Chain

def Gave (w w' : Work) : Prop :=
  (w.failures ≠ [] → w'.failures ≠ []) ∧
    w'.stored.map items = w.stored.map items ∧
    ∃ calls, w'.log = w.log ++ calls ∧ (∀ i, .make i true ∉ calls) ∧
      ∀ v ∈ w'.closed, v ∈ w.closed ∨ .release (.attachment v) true ∈ calls

instance : Std.Refl Gave := ⟨fun w => ⟨id, rfl, [], by simp, by simp, by simp⟩⟩

instance : IsTrans Work Gave where
  trans w1 w2 w3 h12 h23 := by
    obtain ⟨hfail2, hstored2, calls2, hlog2, hmake2, hclosed2⟩ := h12
    obtain ⟨hfail3, hstored3, calls3, hlog3, hmake3, hclosed3⟩ := h23
    refine ⟨hfail3 ∘ hfail2, hstored3.trans hstored2, calls2 ++ calls3, ?_, ?_, fun v hv => ?_⟩
    · rw [hlog3, hlog2, append_assoc]
    · simp [hmake2, hmake3]
    · rcases hclosed3 v hv with hv | hv
      · exact (hclosed2 v hv).imp_right fun hv => mem_append_left calls3 hv
      · exact .inr (mem_append_right calls2 hv)

section Teardown

variable {r : Resources} {w : Work}

theorem withStored_none {f} (h : w.stored = none) (answers) :
    withStored f w answers = (some (), w, answers) := by
  simp [withStored, bind, current, h, pure]

theorem withStored_some {f} (h : w.stored = some r) (answers) :
    withStored f w answers = f r w answers := by
  simp [withStored, bind, current, h]

theorem call_apply (c : Bool → Call) (w answers) :
    call c w answers =
      (some (answers.headD true), { w with log := w.log ++ [c (answers.headD true)] },
        answers.tail) := rfl

theorem gave_call {c} (hc : ∀ ok i, c ok ≠ .make i true) : Keeps Gave (call c) := by
  intro w answers
  rw [final, call_apply]
  refine ⟨id, rfl, [c (answers.headD true)], rfl, fun i hi => ?_, fun v hv => .inl hv⟩
  exact hc _ i (mem_singleton.mp hi).symm

theorem gave_failed (why) : Keeps Gave (failed why) :=
  keeps_change fun w => ⟨by simp, rfl, [], by simp, by simp, by simp⟩

theorem gave_mutate {f} (hf : ∀ r, (f r).items = r.items) : Keeps Gave (mutate f) := by
  refine keeps_change fun w => ⟨id, ?_, [], by simp, by simp, by simp⟩
  rw [Option.map_map]
  congr 1
  exact funext hf

theorem gave_callOr {c} (hc : ∀ ok i, c ok ≠ .make i true) (why) : Keeps Gave (callOr c why) :=
  keeps_asked (gave_call hc) (gave_failed why) (keeps_pure ())

theorem gave_askOr (why) : Keeps Gave (askOr why) :=
  keeps_asked keeps_ask (gave_failed why) (keeps_pure ())

theorem gave_releaseOr (i) : Keeps Gave (releaseOr i) := gave_callOr (by simp) _

theorem gave_deprovisionUnattached (v) : Keeps Gave (deprovisionUnattached v) :=
  keeps_asked (gave_call (by simp)) (gave_failed _) (gave_mutate fun _ => rfl)

theorem gave_reclaimUnattached (v) : Keeps Gave (reclaimUnattached r v) := by
  unfold reclaimUnattached
  split_ifs
  · exact keeps_pure ()
  · exact gave_deprovisionUnattached v.id
  · refine keeps_asked keeps_ask (gave_failed _) ?_
    refine keeps_bind keeps_current fun w => ?_
    split_ifs
    · exact keeps_bind (gave_mutate fun _ => rfl) fun _ => gave_deprovisionUnattached v.id
    · exact keeps_pure ()

theorem gave_close (v) : Keeps Gave (close v) := by
  unfold close
  split_ifs
  · exact keeps_pure ()
  · intro w answers
    have hrun := call_apply (.release (.attachment v.id)) w answers
    cases hok : answers.headD true with
    | true =>
      rw [hok] at hrun
      simp only [final, bind, hrun]
      refine ⟨id, rfl, [.release (.attachment v.id) true], rfl, by simp, fun u hu => ?_⟩
      rcases mem_append.mp hu with hu | hu
      · exact .inl hu
      · cases mem_singleton.mp hu
        exact .inr (by simp)
    | false =>
      rw [hok] at hrun
      simp only [final, bind, hrun]
      exact ⟨by simp [failed, change], rfl, [.release (.attachment v.id) false], rfl, by simp,
        fun u hu => .inl hu⟩

theorem gave_closeVolume (v) : Keeps Gave (closeVolume r v) := by
  refine keeps_asked keeps_ask (gave_failed _) ?_
  refine keeps_bind (gave_close v) fun _ => ?_
  split_ifs
  · exact gave_askOr _
  · exact keeps_pure ()
  · exact gave_releaseOr _

def Drained (w w' : Work) : Prop :=
  (w.failures ≠ [] → w'.failures ≠ []) ∧ ∀ i, holds w'.log i → holds w.log i

instance : Std.Refl Drained := ⟨fun _ => ⟨id, fun _ => id⟩⟩

instance : IsTrans Work Drained where
  trans _ _ _ h12 h23 := ⟨h23.1 ∘ h12.1, fun i => h12.2 i ∘ h23.2 i⟩

theorem Gave.drained {w'} (h : Gave w w') : Drained w w' := by
  obtain ⟨hfail, -, calls, hlog, hmake, -⟩ := h
  refine ⟨hfail, fun i hi => ?_⟩
  rw [hlog] at hi
  exact (holds_of_append hi).resolve_right (hmake i)

theorem drained_of_gave {α : Type} {m : Act α} (h : Keeps Gave m) : Keeps Drained m :=
  h.imp fun _ _ => Gave.drained

def Done (i : Item) (w : Work) : Prop := w.failures ≠ [] ∨ holds w.log i = false

variable {i : Item}

theorem Done.stable (w w') (h : Drained w w') (hd : Done i w) : Done i w' := by
  rcases hd with hd | hd
  · exact .inl (h.1 hd)
  · exact .inr (Bool.eq_false_iff.mpr fun hi => by simp [h.2 i hi] at hd)

theorem reaches_failed (i why) : Reaches (Done i) (failed why) := by
  intro w answers _ _
  exact .inl (by simp [failed, final, change])

theorem reaches_release {next : Bool → Act Unit} (hnext : ∀ ok, Keeps Drained (next ok))
    (hfails : Reaches (Done i) (next false)) : Reaches (Done i) (call (.release i) >>= next) := by
  intro w answers u hu
  have hrun := call_apply (.release i) w answers
  cases hok : answers.headD true with
  | true =>
    rw [hok] at hrun
    simp only [final, bind, hrun]
    refine Done.stable _ _ (hnext true _ answers.tail) (.inr ?_)
    exact not_holds_of_released (by simp) (by simp)
  | false =>
    rw [hok] at hrun
    simp only [final, result, bind, hrun] at hu ⊢
    exact hfails _ _ u hu

theorem reaches_releaseOr (i) : Reaches (Done i) (releaseOr i) := by
  refine reaches_release (fun ok => ?_) (reaches_failed i _)
  cases ok
  · exact drained_of_gave (gave_failed _)
  · exact keeps_pure ()

theorem reaches_deprovisionUnattached (v) : Reaches (Done (.disk v)) (deprovisionUnattached v) := by
  refine reaches_release (fun ok => ?_) (reaches_failed _ _)
  cases ok
  · exact drained_of_gave (gave_failed _)
  · exact drained_of_gave (gave_mutate fun _ => rfl)

theorem reaches_reclaimUnattached {v} (hinline : v.referenced = false)
    (hheld : ∀ x ∈ r.volumes, x.id ≠ v.id) :
    Reaches (Done (.disk v.id)) (reclaimUnattached r v) := by
  have hskip : (v.referenced || r.volumes.any fun h => h.id = v.id) = false := by
    simpa [hinline] using hheld
  unfold reclaimUnattached
  rw [hskip]
  simp only [Bool.false_eq_true, if_false]
  split_ifs
  · exact reaches_deprovisionUnattached v.id
  · refine reaches_next fun ok => ?_
    cases ok
    · exact reaches_failed _ _
    · rw [if_pos rfl]
      refine reaches_current fun w answers u hu => ?_
      split_ifs at hu ⊢ with hholds
      · exact reaches_next (fun _ => reaches_deprovisionUnattached v.id) _ _ u hu
      · exact .inr (Bool.eq_false_iff.mpr hholds)

variable {v : Volume}

theorem reaches_close (hv : v.detached = false) : Reaches (Done (.attachment v.id)) (close v) := by
  unfold close
  rw [hv]
  refine reaches_release (fun ok => ?_) (reaches_failed _ _)
  cases ok
  · exact drained_of_gave (gave_failed _)
  · exact keeps_change fun w => ⟨id, fun _ => id⟩

theorem reaches_closeVolume_attachment (hv : v.detached = false) :
    Reaches (Done (.attachment v.id)) (closeVolume r v) := by
  refine reaches_next fun ok => ?_
  cases ok
  · exact reaches_failed _ _
  · refine Reaches.then Done.stable (reaches_close hv) fun _ => ?_
    split_ifs
    · exact drained_of_gave (gave_askOr _)
    · exact keeps_pure ()
    · exact drained_of_gave (gave_releaseOr _)

theorem reaches_closeVolume_disk (hv : volumeIsReferenced r v.id = false) :
    Reaches (Done (.disk v.id)) (closeVolume r v) := by
  refine reaches_next fun ok => ?_
  cases ok
  · exact reaches_failed _ _
  · refine reaches_next fun _ => ?_
    rw [hv]
    exact reaches_releaseOr _

theorem gave_releases : ∀ m ∈ releases r, Keeps Gave m := by
  simp only [releases, mem_cons, not_mem_nil, or_false]
  rintro m (rfl | rfl | rfl | rfl | rfl | rfl | rfl)
  · exact gave_callOr (by simp) _
  · exact gave_callOr (by simp) _
  · exact keeps_each fun d _ => gave_releaseOr _
  · exact keeps_each fun n _ => gave_releaseOr _
  · exact gave_askOr _
  · exact keeps_each fun v _ => gave_reclaimUnattached v
  · exact keeps_each fun v _ => gave_closeVolume v

def VmSpec.Apart (S : Item → Bool) (spec : VmSpec) : Prop :=
  ∀ v ∈ spec.volumes, S (.disk v.id) →
    ∀ w ∈ spec.volumes, v.id = w.id → v.referenced = w.referenced

instance (S : Item → Bool) (spec : VmSpec) : Decidable (spec.Apart S) :=
  inferInstanceAs (Decidable (∀ v ∈ spec.volumes, _ → ∀ w ∈ spec.volumes, _ → _))

variable {S : Item → Bool}

theorem VmSpec.Apart.inline (h : r.spec.Apart S) {v} (hv : v ∈ r.spec.volumes) (hS : S (.disk v.id))
    (hinline : v.referenced = false) : volumeIsReferenced r v.id = false := by
  unfold volumeIsReferenced
  cases hfind : r.spec.volumes.find? fun x => x.id = v.id with
  | none => rfl
  | some x =>
    have hid : x.id = v.id := by simpa using find?_some hfind
    simp [← h v hv hS x (mem_of_find?_eq_some hfind) hid.symm, hinline]

theorem reaches_releases (hi : i ∈ r.items) (hne : i ≠ .slice)
    (hS : S i) (hapart : r.spec.Apart S) : ∃ m ∈ releases r, Reaches (Done i) m := by
  have hgave : ∀ {β : Type} {f : β → Act Unit} {xs : List β} {x : β}, x ∈ xs →
      Reaches (Done i) (f x) → (∀ y ∈ xs, Keeps Gave (f y)) → Reaches (Done i) (each f xs) :=
    fun hx hreaches hkeeps =>
      reaches_each Done.stable hx hreaches fun y hy => drained_of_gave (hkeeps y hy)
  cases i with
  | slice => exact absurd rfl hne
  | device d =>
    refine ⟨each (fun d => releaseOr (.device d)) r.devices, by simp [releases], ?_⟩
    exact hgave (mem_items_device.mp hi) (reaches_releaseOr _) fun d _ => gave_releaseOr _
  | nic n =>
    refine ⟨each (fun n => releaseOr (.nic n)) r.nics, by simp [releases], ?_⟩
    exact hgave (mem_items_nic.mp hi) (reaches_releaseOr _) fun n _ => gave_releaseOr _
  | attachment =>
    obtain ⟨x, hx, hdetached, rfl⟩ := mem_items_attachment.mp hi
    refine ⟨each (closeVolume r) r.volumes, by simp [releases], ?_⟩
    exact hgave hx (reaches_closeVolume_attachment hdetached) fun y _ => gave_closeVolume y
  | disk =>
    obtain ⟨x, hx, hinline, rfl⟩ := mem_items_disk.mp hi
    by_cases hheld : ∃ y ∈ r.volumes, y.id = x.id
    · obtain ⟨y, hy, hid⟩ := hheld
      refine ⟨each (closeVolume r) r.volumes, by simp [releases], ?_⟩
      refine hgave hy ?_ fun y _ => gave_closeVolume y
      rw [← hid]
      exact reaches_closeVolume_disk (hid ▸ hapart.inline hx hS hinline)
    · push Not at hheld
      refine ⟨each (reclaimUnattached r) r.spec.volumes, by simp [releases], ?_⟩
      exact hgave hx (reaches_reclaimUnattached hinline hheld) fun y _ => gave_reclaimUnattached y

theorem drained_mark : Keeps Drained (change fun w : Work =>
    { w with stored := w.stored.map (markClosed w.closed) }) :=
  keeps_change fun _ => ⟨id, fun _ => id⟩

theorem drained_dismantle : Keeps Drained (dismantle r) :=
  keeps_bind (keeps_each fun m hm => drained_of_gave (gave_releases m hm)) fun _ =>
    keeps_bind drained_mark fun _ => drained_of_gave (gave_releaseOr _)

theorem reaches_dismantle (hi : i ∈ r.items) (hS : S i)
    (hapart : r.spec.Apart S) : Reaches (Done i) (dismantle r) := by
  by_cases hne : i = .slice
  · subst hne
    exact reaches_next fun _ => reaches_next fun _ => reaches_releaseOr _
  · obtain ⟨m, hm, hreaches⟩ := reaches_releases hi hne hS hapart
    refine Reaches.then Done.stable (reaches_each Done.stable hm hreaches
      fun m hm => drained_of_gave (gave_releases m hm)) fun _ => ?_
    exact keeps_bind drained_mark fun _ => drained_of_gave (gave_releaseOr _)

end Teardown

def Covers (S : Item → Bool) (stored : Option Resources) (log : List Call) : Prop :=
  ∀ i, S i → holds log i → ∃ r, stored = some r ∧ i ∈ r.items

section Covers

variable {S : Item → Bool} {r : Resources}

structure Settled (S : Item → Bool) (w : Work) : Prop where
  covers : Covers S w.stored w.log
  closed : ∀ v ∈ w.closed, holds w.log (.attachment v) = false

variable {w : Work}

theorem Gave.settled {w'} (h : Gave w w') (hw : Settled S w) : Settled S w' := by
  have hdrained := h.drained.2
  obtain ⟨-, hstored, calls, hlog, hmake, hclosed⟩ := h
  refine ⟨fun i hS hi => ?_, fun v hv => ?_⟩
  · obtain ⟨r, hr, hir⟩ := hw.covers i hS (hdrained i hi)
    rw [hr] at hstored
    obtain ⟨r', hr', hitems⟩ := Option.map_eq_some_iff.mp hstored
    exact ⟨r', hr', hitems ▸ hir⟩
  · rcases hclosed v hv with hv | hv
    · refine Bool.eq_false_iff.mpr fun hi => ?_
      have hheld := hdrained _ hi
      simp [hw.closed v hv] at hheld
    · rw [hlog]
      exact not_holds_of_released (hmake _) hv

theorem mem_items_markClosed {closed i} (hi : i ∈ r.items)
    (hopen : ∀ v ∈ closed, i ≠ .attachment v) :
    i ∈ (markClosed closed r).items := by
  cases i with
  | attachment =>
    obtain ⟨x, hx, hdetached, rfl⟩ := mem_items_attachment.mp hi
    refine mem_items_attachment.mpr ⟨x, mem_map.mpr ⟨x, hx, if_neg ?_⟩, hdetached, rfl⟩
    exact fun hin => hopen x.id hin rfl
  | _ => simp_all [markClosed]

theorem settled_mark (hw : Settled S w) :
    Settled S { w with stored := w.stored.map (markClosed w.closed) } := by
  refine ⟨fun i hS hi => ?_, hw.closed⟩
  obtain ⟨r, hr, hir⟩ := hw.covers i hS hi
  refine ⟨markClosed w.closed r, by simp [hr], mem_items_markClosed hir ?_⟩
  rintro v hv rfl
  simp [hw.closed v hv] at hi

instance : Std.Refl fun w w' : Work => Settled S w → Settled S w' := ⟨fun _ => id⟩

instance : IsTrans Work fun w w' : Work => Settled S w → Settled S w' :=
  ⟨fun _ _ _ h12 h23 => h23 ∘ h12⟩

theorem settled_dismantle :
    Keeps (fun w w' : Work => Settled S w → Settled S w') (dismantle r) := by
  refine keeps_bind (keeps_each fun m hm => (gave_releases m hm).imp fun _ _ h => h.settled)
    fun _ => keeps_bind (keeps_change fun w => settled_mark) fun _ => ?_
  exact (gave_releaseOr _).imp fun _ _ h => h.settled

theorem covers_teardown (hw : Covers S w.stored w.log)
    (hapart : ∀ r, w.stored = some r → r.spec.Apart S) (answers) :
    Covers S (teardown.final w answers).stored (teardown.final w answers).log := by
  cases hstored : w.stored with
  | none =>
    rw [final, teardown, withStored_none hstored]
    exact hw
  | some r =>
    let w1 : Work := { w with draft := r, failures := [], closed := [] }
    have hw1 : Settled S w1 := ⟨hw, by simp [w1]⟩
    have hw2 := settled_dismantle (r := r) w1 answers hw1
    rw [final, teardown, withStored_some hstored]
    change Covers S ((dismantle r >>= fun _ => verdict).final w1 answers).stored
      ((dismantle r >>= fun _ => verdict).final w1 answers).log
    rcases bind_cases (dismantle r) (fun _ => verdict) w1 answers with
      ⟨-, -, hfinal⟩ | ⟨_, rest, hok, -, hfinal⟩
    · rw [hfinal]
      exact hw2.covers
    · rw [hfinal]
      simp only [verdict, final, bind, current]
      split_ifs with hfailures
      · intro i hS hi
        -- the record is gone, and each item it listed was released
        obtain ⟨r', hr', hir⟩ := hw i hS ((drained_dismantle w1 answers).2 i hi)
        cases hstored.symm.trans hr'
        rcases reaches_dismantle hir hS (hapart r hstored) w1 answers _ hok with hdone | hdone
        · exact absurd hfailures hdone
        · exact absurd hi (Bool.eq_false_iff.mp hdone)
      · exact hw2.covers

theorem reaches_teardown : Reaches (fun w => w.stored = none) teardown := by
  intro w answers u hu
  cases hstored : w.stored with
  | none =>
    rw [final, teardown, withStored_none hstored]
    exact hstored
  | some r =>
    rw [result, teardown, withStored_some hstored] at hu
    rw [final, teardown, withStored_some hstored]
    refine (reaches_next fun _ => reaches_next fun _ => reaches_current ?_ : Reaches
      (fun w : Work => w.stored = none) (_ >>= fun _ => dismantle r >>= fun _ => verdict))
      w answers u hu
    intro w' answers' u' hu'
    split_ifs at hu' ⊢
    · rfl
    · cases hu'

end Covers

end MeisterStack.Agent.Provision
