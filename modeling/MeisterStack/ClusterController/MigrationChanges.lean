import MeisterStack.ClusterController.Migration

/-!
# How a migration record changes

`Change` lists every write a stored record can see, each with what its writer has established about
the record it replaces. `Sound` holds of every record ever stored, and `Later` relates two states of
one record.
-/

namespace MeisterStack.ClusterController.Migration

open Foundation ControllerApi List VmMigrationPhaseKind Bool SourceWord

section Kinds

variable (m : VmMigration) (now : Instant)

@[simp] theorem claim_kind (vm source target) : (claim vm source target now m).kind = .preparing :=
  VmMigration.kind_of_here rfl rfl

@[simp] theorem notePeer_kind (target peer) : (notePeer target peer now m).kind = m.kind := by
  unfold notePeer
  split
  · rfl
  · rename_i h
    have hkind : m.kind = .preparing := by
      by_contra hne
      simp [hne] at h
    exact VmMigration.kind_of_here rfl (by rw [hkind]; rfl)

@[simp] theorem startSending_kind (target peer) :
    (startSending target peer now m).kind = .running :=
  VmMigration.kind_of_here rfl rfl

@[simp] theorem cancel_kind : (cancel m).kind = m.kind := VmMigration.kind_congr rfl

@[simp] theorem unresolved_kind (why) : (unresolved why now m).kind = m.kind := by
  unfold unresolved
  split
  · rfl
  · rename_i h
    refine VmMigration.kind_of_here rfl ?_
    cases hkind : m.kind with
    | succeeded => simp [hkind, isFinal] at h
    | _ => rfl

@[simp] theorem fail_kind (why) : (fail why now m).kind = .failed :=
  VmMigration.kind_of_here rfl rfl

theorem succeed_kind (vm) {target} (h : target ≠ "") :
    (succeed vm target now m).kind = .succeeded :=
  VmMigration.kind_of_named rfl h

end Kinds

section Reports

variable (vm : Vm) (node : String) (line : MigrationReport) (m : VmMigration)

theorem applySource_eq : applySource node line m = m ∨
    m.kind = .running ∧ m.status.sourceReported.any terminal = false ∧
      ∃ word message, applySource node line m =
        { m with status := { m.status with
            sourceReported := some word, sourceMessage := message } } := by
  unfold applySource
  split
  · split
    · rename_i word _ h
      exact .inr ⟨h.2.1, by simpa using h.2.2.2, word, _, rfl⟩
    · exact .inl rfl
  · exact .inl rfl

theorem applyTarget_eq : applyTarget node line m = m ∨
    m.status.targetReported ≠ some .running ∧
      ∃ word, applyTarget node line m =
        { m with status := { m.status with targetReported := some word } } := by
  unfold applyTarget
  split
  · split
    · rename_i word _ h
      exact .inr ⟨h.2, word, rfl⟩
    · exact .inl rfl
  · exact .inl rfl

theorem applyReport_eq : applyReport vm node line m = m ∨
    m.status.cancelling = false ∧ m.kind.inFlight ∧
      ∃ source message target, applyReport vm node line m =
        { m with status := { m.status with
            sourceReported := source, sourceMessage := message, targetReported := target } } ∧
        (source = m.status.sourceReported ∨ m.kind = .running ∧
          m.status.sourceReported.any terminal = false) ∧
        (target = m.status.targetReported ∨ m.status.targetReported ≠ some .running) := by
  unfold applyReport
  split
  · rename_i h
    simp only [concerns, and_eq_true, not_eq_true'] at h
    refine .inr ⟨h.1.1.1.1.1.1, h.1.1.1.1.1.2, ?_⟩
    rcases applySource_eq node line m with hs | ⟨hrun, hterm, word, message, hs⟩
    · rw [hs]
      rcases applyTarget_eq node line m with ht | ⟨hne, target, ht⟩
      · exact ⟨_, _, _, ht, .inl rfl, .inl rfl⟩
      · exact ⟨_, _, _, ht, .inl rfl, .inr hne⟩
    · rw [hs]
      rcases applyTarget_eq node line { m with status := { m.status with
          sourceReported := some word, sourceMessage := message } } with ht | ⟨hne, target, ht⟩
      · exact ⟨_, _, _, ht, .inr ⟨hrun, hterm⟩, .inl rfl⟩
      · exact ⟨_, _, _, ht, .inr ⟨hrun, hterm⟩, .inr hne⟩
  · exact .inl rfl

@[simp] theorem applyReport_kind : (applyReport vm node line m).kind = m.kind := by
  rcases applyReport_eq vm node line m with h | ⟨-, -, source, message, target, h, -⟩
  · rw [h]
  · rw [h]
    exact VmMigration.kind_congr rfl

end Reports

structure Sound (m : VmMigration) : Prop where
  unsent : m.kind = .pending ∨ m.kind = .preparing → m.status.sourceReported = none
  cancelling : m.status.cancelling →
    m.kind ≠ .pending ∧ m.kind ≠ .succeeded ∧ m.status.sourceReported ≠ some .gone
  target : m.status.targetNode ≠ some ""

structure Later (old new : VmMigration) : Prop where
  final : old.kind.isFinal → new.kind.isFinal
  started : old.kind ≠ .pending → old.kind ≠ .preparing →
    new.kind ≠ .pending ∧ new.kind ≠ .preparing
  arrived : old.arrived → new.arrived
  frozen : old.status.cancelling →
    new.status.cancelling ∧ new.status.sourceReported = old.status.sourceReported ∧
      new.status.targetReported = old.status.targetReported ∧
      new.status.peer = old.status.peer ∧ (new.kind = old.kind ∨ new.kind = .failed)

theorem Later.refl (m) : Later m m :=
  ⟨id, fun h1 h2 => ⟨h1, h2⟩, id, fun h => ⟨h, rfl, rfl, rfl, .inl rfl⟩⟩

theorem Later.trans {m1 m2 m3} (h : Later m1 m2) (h' : Later m2 m3) :
    Later m1 m3 where
  final hm := h'.final (h.final hm)
  started h1 h2 := h'.started (h.started h1 h2).1 (h.started h1 h2).2
  arrived hm := h'.arrived (h.arrived hm)
  frozen hm := by
    obtain ⟨hc, hs, ht, hp, hk⟩ := h.frozen hm
    obtain ⟨hc', hs', ht', hp', hk'⟩ := h'.frozen hc
    refine ⟨hc', hs'.trans hs, ht'.trans ht, hp'.trans hp, ?_⟩
    rcases hk' with hk' | hk'
    · rw [hk']
      exact hk
    · exact .inr hk'

theorem Later.of_same {old new} (hkind : new.kind = old.kind)
    (hcancelling : new.status.cancelling = old.status.cancelling)
    (hsource : new.status.sourceReported = old.status.sourceReported)
    (htarget : new.status.targetReported = old.status.targetReported)
    (hpeer : old.status.cancelling → new.status.peer = old.status.peer) : Later old new where
  final h := by rwa [hkind]
  started h1 h2 := by rw [hkind]; exact ⟨h1, h2⟩
  arrived h := by simpa [VmMigration.arrived, hsource, htarget] using h
  frozen h := ⟨hcancelling ▸ h, hsource, htarget, hpeer h, .inl hkind⟩

theorem Sound.of_same {old new} (h : Sound old) (hkind : new.kind = old.kind)
    (hcancelling : new.status.cancelling = old.status.cancelling)
    (hsource : new.status.sourceReported = old.status.sourceReported)
    (htarget : new.status.targetNode = old.status.targetNode) : Sound new where
  unsent hm := hsource.trans (h.unsent (hkind ▸ hm))
  cancelling hc := by
    rw [hkind, hsource]
    exact h.cancelling (hcancelling ▸ hc)
  target := htarget ▸ h.target

variable {m : VmMigration}

theorem Sound.not_cancelling (h : Sound m) (harrived : m.arrived) :
    m.status.cancelling = false := by
  cases hc : m.status.cancelling with
  | false => rfl
  | true =>
    simp only [VmMigration.arrived, and_eq_true, decide_eq_true_eq] at harrived
    exact absurd harrived.2 (h.cancelling hc).2.2

theorem Sound.started (h : Sound m) (harrived : m.arrived) :
    m.kind ≠ .pending ∧ m.kind ≠ .preparing := by
  simp only [VmMigration.arrived, and_eq_true, decide_eq_true_eq] at harrived
  constructor
  · intro hk
    simp [h.unsent (.inl hk)] at harrived
  · intro hk
    simp [h.unsent (.inr hk)] at harrived

theorem declare_sound (name uid created spec) : Sound (.declare name uid created spec) :=
  ⟨fun _ => rfl, by rintro ⟨⟩, by rintro ⟨⟩⟩

def Authorized (log : List Fact) (v : Versioned VmMigration) : Prop :=
  v.val.kind = .preparing ∨
    v.val.kind = .running ∧ v.val.status.sourceReported = some .stillHere ∧
      (v.val.status.targetReported = none ∨
        v.val.status.targetReported = some .provisioning) ∨
    v.val.kind = .running ∧ .cannotSend v.rev ∈ log

theorem Authorized.mono {log log' v} (h : Authorized log v) (hlog : log ⊆ log') :
    Authorized log' v := by
  rcases h with h | h | ⟨hkind, hlogged⟩
  · exact .inl h
  · exact .inr (.inl h)
  · exact .inr (.inr ⟨hkind, hlog hlogged⟩)

def Alone (s : State) (m : VmMigration) : Prop :=
  ∃ listed, m.created < listed ∧ listed ≤ s.next ∧
    ∀ k v, s.records.cell k = some v → k ≠ m.name → v.val.spec.vm = m.spec.vm →
      v.val.kind.isFinal = false → listed ≤ v.val.created

theorem Alone.congr {s m'} (h : Alone s m) (hname : m'.name = m.name)
    (hcreated : m'.created = m.created) (hspec : m'.spec = m.spec) : Alone s m' := by
  obtain ⟨listed, hlt, hle, hothers⟩ := h
  refine ⟨listed, hcreated ▸ hlt, hle, fun k v hcell hne hvm hfinal => ?_⟩
  exact hothers k v hcell (hname ▸ hne) (hspec ▸ hvm) hfinal

inductive Change (s : State) (v : Versioned VmMigration) : VmMigration → List Fact → Prop
  | claim (vm : Vm) (source target : String) (now : Instant) (hkind : v.val.kind = .pending)
      (htarget : target ≠ "") (halone : Alone s v.val) :
      Change s v (claim vm source target now v.val) []
  | peer (target peer : String) (now : Instant) :
      Change s v (notePeer target peer now v.val) []
  | startSending (target peer : String) (now : Instant) (hkind : v.val.kind = .preparing)
      (hcancelling : v.val.status.cancelling = false) :
      Change s v (startSending target peer now v.val) []
  | cancel (hcancelling : v.val.status.cancelling = false)
      (hauthorized : Authorized s.log v)
      (hsource : v.val.status.sourceReported ≠ some .gone) :
      Change s v (cancel v.val) [.cancelled v.val.uid v.val.kind]
  | report (vm : Vm) (node : String) (line : MigrationReport) :
      Change s v (applyReport vm node line v.val) []
  | unresolved (why : String) (now : Instant) : Change s v (unresolved why now v.val) []
  | fail (why : String) (now : Instant)
      (h : v.val.kind = .pending ∨ v.val.status.cancelling) :
      Change s v (fail why now v.val) [.ended v.val.uid .failed]
  | succeed (vm target : String) (now : Instant) (htarget : target ≠ "")
      (harrived : v.val.arrived) (hbound : .bound v.val.uid ∈ s.log) :
      Change s v (succeed vm target now v.val) [.ended v.val.uid .succeeded]

namespace Change

variable {s : State} {v : Versioned VmMigration} {new : VmMigration} {facts : List Fact}
  (h : Change s v new facts)

include h

theorem identity :
    new.name = v.val.name ∧ new.uid = v.val.uid ∧ new.created = v.val.created ∧
      new.spec = v.val.spec := by
  cases h with
  | peer =>
    unfold notePeer
    split <;> exact ⟨rfl, rfl, rfl, rfl⟩
  | unresolved =>
    unfold Migration.unresolved
    split <;> exact ⟨rfl, rfl, rfl, rfl⟩
  | report vm node line =>
    rcases applyReport_eq vm node line v.val with h | ⟨-, -, _, _, _, h, -⟩
    all_goals
      rw [h]
      exact ⟨rfl, rfl, rfl, rfl⟩
  | _ => exact ⟨rfl, rfl, rfl, rfl⟩

theorem later (hsound : Sound v.val) : Later v.val new := by
  cases h with
  | claim vm source target now hkind =>
    refine ⟨?_, fun hne => absurd hkind hne, id, fun hc => absurd hkind ?_⟩
    · rw [hkind]
      rintro ⟨⟩
    · exact (hsound.cancelling hc).1
  | peer =>
    refine .of_same (notePeer_kind _ _ _ _) ?_ ?_ ?_ ?_ <;> unfold notePeer
    · split <;> rfl
    · split <;> rfl
    · split <;> rfl
    · intro hc
      simp [hc]
  | startSending target peer now hkind hcancelling =>
    refine ⟨?_, fun _ hne => absurd hkind hne, id, fun hc => ?_⟩
    · rw [hkind]
      rintro ⟨⟩
    · rw [hcancelling] at hc
      cases hc
  | cancel hcancelling =>
    refine ⟨fun h => by rwa [cancel_kind], fun h1 h2 => by rw [cancel_kind]; exact ⟨h1, h2⟩,
      id, fun hc => ?_⟩
    rw [hcancelling] at hc
    cases hc
  | report vm node line =>
    rcases applyReport_eq vm node line v.val with h |
      ⟨hc, -, source, message, target, h, hsource, htarget⟩
    · rw [h]
      exact .refl _
    · have hkind := applyReport_kind vm node line v.val
      rw [h] at hkind ⊢
      refine ⟨fun hf => by rwa [hkind], fun h1 h2 => by rw [hkind]; exact ⟨h1, h2⟩, ?_, ?_⟩
      · -- both words are terminal, so the report replaces neither
        intro harrived
        simp only [VmMigration.arrived, and_eq_true, decide_eq_true_eq] at harrived ⊢
        refine ⟨?_, ?_⟩
        · rcases htarget with ht | ht
          · exact ht.trans harrived.1
          · exact absurd harrived.1 ht
        · rcases hsource with hs | ⟨-, hs⟩
          · exact hs.trans harrived.2
          · simp [harrived.2, terminal] at hs
      · intro hc'
        rw [hc] at hc'
        cases hc'
  | unresolved =>
    refine .of_same (unresolved_kind _ _ _) ?_ ?_ ?_ ?_ <;> unfold Migration.unresolved
    · split <;> rfl
    · split <;> rfl
    · split <;> rfl
    · intro _
      split <;> rfl
  | fail =>
    exact ⟨fun _ => by rw [fail_kind]; rfl, fun _ _ => by simp, id,
      fun hc => ⟨hc, rfl, rfl, rfl, .inr (fail_kind _ _ _)⟩⟩
  | succeed vm target now htarget harrived =>
    have hkind := succeed_kind v.val now vm htarget
    refine ⟨fun _ => by rw [hkind]; rfl, fun _ _ => by simp [hkind], id, fun hc => ?_⟩
    rw [hsound.not_cancelling harrived] at hc
    cases hc

theorem sound (hsound : Sound v.val) : Sound new := by
  cases h with
  | claim vm source target now hkind htarget =>
    refine ⟨fun _ => hsound.unsent (.inl hkind), fun hc => absurd hkind ?_, ?_⟩
    · exact (hsound.cancelling hc).1
    · simpa [Migration.claim] using htarget
  | peer =>
    refine hsound.of_same (notePeer_kind _ _ _ _) ?_ ?_ ?_ <;> unfold notePeer <;> split <;> rfl
  | startSending target peer now hkind hcancelling =>
    refine ⟨fun h => ?_, fun hc => ?_, hsound.target⟩
    · simp at h
    · exact absurd hc (by simp [Migration.startSending, hcancelling])
  | cancel hcancelling hauthorized hsource =>
    refine ⟨fun h => hsound.unsent (by rwa [cancel_kind] at h), fun _ => ?_, hsound.target⟩
    rw [cancel_kind]
    rcases hauthorized with hkind | ⟨hkind, -⟩ | ⟨hkind, -⟩
    all_goals exact ⟨by simp [hkind], by simp [hkind], hsource⟩
  | report vm node line =>
    rcases applyReport_eq vm node line v.val with h |
      ⟨hc, -, source, message, target, h, hsource, -⟩
    · rw [h]
      exact hsound
    · have hkind := applyReport_kind vm node line v.val
      rw [h] at hkind ⊢
      refine ⟨fun hunsent => ?_, fun hc' => absurd hc' (by simp [hc]), hsound.target⟩
      rw [hkind] at hunsent
      rcases hsource with hs | ⟨hrunning, -⟩
      · exact hs.trans (hsound.unsent hunsent)
      · simp [hrunning] at hunsent
  | unresolved =>
    refine hsound.of_same (unresolved_kind _ _ _) ?_ ?_ ?_ <;>
      unfold Migration.unresolved <;> split <;> rfl
  | fail why now h =>
    exact ⟨fun h => by simp at h, fun hc => ⟨by simp, by simp, (hsound.cancelling hc).2.2⟩,
      hsound.target⟩
  | succeed vm target now htarget harrived =>
    have hkind := succeed_kind v.val now vm htarget
    refine ⟨fun h => by simp [hkind] at h, fun hc => ?_, hsound.target⟩
    exact absurd hc (by simp [Migration.succeed, hsound.not_cancelling harrived])

theorem fact_cases {fact} (hmem : fact ∈ facts) :
    fact = .cancelled v.val.uid v.val.kind ∨ fact = .ended v.val.uid .failed ∨
      fact = .ended v.val.uid .succeeded ∧ .bound v.val.uid ∈ s.log := by
  cases h with
  | cancel => exact .inl (mem_singleton.mp hmem)
  | fail => exact .inr (.inl (mem_singleton.mp hmem))
  | succeed vm target now htarget harrived hbound =>
    exact .inr (.inr ⟨mem_singleton.mp hmem, hbound⟩)
  | _ => cases hmem

theorem cancelled_mem {uid kind} (hmem : .cancelled uid kind ∈ facts) :
    uid = v.val.uid ∧ kind = v.val.kind ∧ new.status.cancelling ∧ new.kind = v.val.kind := by
  cases h with
  | cancel =>
    cases mem_singleton.mp hmem
    exact ⟨rfl, rfl, rfl, cancel_kind _⟩
  | fail | succeed => cases mem_singleton.mp hmem
  | _ => cases hmem

theorem cancelled_of_cancelling
    (hold : v.val.status.cancelling = false) (hnew : new.status.cancelling) :
    Authorized s.log v ∧ facts = [.cancelled v.val.uid v.val.kind] := by
  cases h with
  | cancel hcancelling hauthorized => exact ⟨hauthorized, rfl⟩
  | peer =>
    unfold notePeer at hnew
    split at hnew <;> simp [hold] at hnew
  | unresolved =>
    unfold Migration.unresolved at hnew
    split at hnew <;> simp [hold] at hnew
  | report vm node line =>
    rcases applyReport_eq vm node line v.val with h | ⟨hc, -, _, _, _, h, -⟩
    all_goals simp [h, hold] at hnew
  | claim | startSending | fail | succeed =>
    have hsame : v.val.status.cancelling := hnew
    rw [hold] at hsame
    cases hsame

theorem failed_mem (hsound : Sound v.val) {uid} (hmem : .ended uid .failed ∈ facts) :
    uid = v.val.uid ∧ new.kind = .failed ∧ v.val.arrived = false ∧ new.arrived = false := by
  cases h with
  | fail why now h =>
    cases mem_singleton.mp hmem
    have harrived : v.val.arrived = false := by
      cases ha : v.val.arrived with
      | false => rfl
      | true =>
        rcases h with h | h
        · exact absurd h (hsound.started ha).1
        · rw [hsound.not_cancelling ha] at h
          cases h
    exact ⟨rfl, fail_kind _ _ _, harrived, harrived⟩
  | cancel | succeed => cases mem_singleton.mp hmem
  | _ => cases hmem

theorem stays_failed (hkind : v.val.kind = .failed)
    (harrived : v.val.arrived = false) : new.kind = .failed ∧ new.arrived = false := by
  cases h with
  | claim vm source target now hpending => simp [hkind] at hpending
  | peer =>
    refine ⟨by rw [notePeer_kind, hkind], ?_⟩
    simpa [notePeer, hkind] using harrived
  | startSending target peer now hpreparing => simp [hkind] at hpreparing
  | cancel => exact ⟨by rw [cancel_kind, hkind], harrived⟩
  | report vm node line =>
    rcases applyReport_eq vm node line v.val with h | ⟨-, hflight, -⟩
    · rw [h]
      exact ⟨hkind, harrived⟩
    · rw [hkind] at hflight
      cases hflight
  | unresolved =>
    refine ⟨by rw [unresolved_kind, hkind], ?_⟩
    simpa [Migration.unresolved, hkind, isFinal] using harrived
  | fail => exact ⟨fail_kind _ _ _, harrived⟩
  | succeed vm target now htarget hhas =>
    rw [harrived] at hhas
    cases hhas

theorem alone_of_inFlight (hnew : new.kind.inFlight) :
    v.val.kind.inFlight ∨ Alone s v.val := by
  cases h with
  | claim vm source target now hkind htarget halone => exact .inr halone
  | peer => exact .inl (by rwa [notePeer_kind] at hnew)
  | startSending target peer now hkind => exact .inl (by rw [hkind]; rfl)
  | cancel => exact .inl (by rwa [cancel_kind] at hnew)
  | report => exact .inl (by rwa [applyReport_kind] at hnew)
  | unresolved => exact .inl (by rwa [unresolved_kind] at hnew)
  | fail => simp [inFlight] at hnew
  | succeed vm target now htarget =>
    simp [succeed_kind _ _ _ htarget, inFlight] at hnew

end Change

end MeisterStack.ClusterController.Migration
