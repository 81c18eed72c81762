import MeisterStack.ClusterController.MigrationChanges

/-!
# Migration evidence over whole report histories

`apply_report` as a function of one record, with the tenants of the record and of its VM. A history
is a list of lines in any order and with any repetition. The words of the two endpoints are monotone
over every history, foreign lines change nothing, and the final record depends only on what each
endpoint said, in its order.
-/

namespace MeisterStack.ClusterController.MigrationEvidence

open ControllerApi Bool VmMigration
open ClusterController.Migration

def sameTenancy (theirs : String) (mine : Option String) : Bool :=
  match mine.filter (· ≠ "") with
  | some mine => theirs = mine
  | none => theirs = ""

structure TenantMigration extends VmMigration where
  tenant : String

structure TenantVm extends Vm where
  tenant : Option String

structure ReportLine where
  vm : TenantVm
  node : String
  line : MigrationReport

def apply (r : ReportLine) (m : TenantMigration) : TenantMigration :=
  if sameTenancy m.tenant r.vm.tenant then
    { m with toVmMigration := applyReport r.vm.toVm r.node r.line m.toVmMigration }
  else m

def applyAll (rs : List ReportLine) (m : TenantMigration) : TenantMigration :=
  rs.foldl (fun m r => apply r m) m

@[simp] theorem applyAll_cons (r rs m) :
    applyAll (r :: rs) m = applyAll rs (apply r m) := rfl

theorem applyAll_append (rs ss m) : applyAll (rs ++ ss) m = applyAll ss (applyAll rs m) :=
  List.foldl_append

structure Kept (m m' : TenantMigration) : Prop where
  tenant : m'.tenant = m.tenant
  uid : m'.uid = m.uid
  spec : m'.spec = m.spec
  sourceNode : m'.status.sourceNode = m.status.sourceNode
  targetNode : m'.status.targetNode = m.status.targetNode
  source : m.status.sourceReported.any SourceWord.terminal →
    m'.status.sourceReported = m.status.sourceReported
  target : m.status.targetReported = some .running →
    m'.status.targetReported = some .running

theorem Kept.refl (m) : Kept m m :=
  ⟨rfl, rfl, rfl, rfl, rfl, fun _ => rfl, id⟩

variable {m : TenantMigration}

theorem Kept.trans {m' m''} (h : Kept m m') (h' : Kept m' m'') : Kept m m'' where
  tenant := h'.tenant.trans h.tenant
  uid := h'.uid.trans h.uid
  spec := h'.spec.trans h.spec
  sourceNode := h'.sourceNode.trans h.sourceNode
  targetNode := h'.targetNode.trans h.targetNode
  source hs := by
    have hsame := h.source hs
    rw [h'.source (by rw [hsame]; exact hs), hsame]
  target ht := h'.target (h.target ht)

theorem apply_kept (r m) : Kept m (apply r m) := by
  unfold apply
  split
  · rcases applyReport_eq r.vm.toVm r.node r.line m.toVmMigration with h |
      ⟨-, -, source, message, target, h, hsource, htarget⟩
    · rw [h]
      exact .refl m
    · rw [h]
      refine ⟨rfl, rfl, rfl, rfl, rfl, fun hs => ?_, fun ht => ?_⟩
      · rcases hsource with h | ⟨-, h⟩
        · exact h
        · rw [h] at hs
          cases hs
      · rcases htarget with h | h
        · exact h.trans ht
        · exact absurd ht h
  · exact .refl m

theorem applyAll_kept (rs m) : Kept m (applyAll rs m) := by
  induction rs generalizing m with
  | nil => exact .refl m
  | cons r rs ih => exact (apply_kept r m).trans (ih (apply r m))

inductive Foreign (r : ReportLine) (m : TenantMigration) : Prop
  | attempt (h : m.status.migrationId ≠ some r.line.migrationId)
  | incarnation (h : m.status.vmUid ≠ some r.line.vmId)
  | tenancy (h : sameTenancy m.tenant r.vm.tenant = false)
  | node (source : m.status.sourceNode ≠ some r.node) (target : m.status.targetNode ≠ some r.node)
  | cancelling (h : m.status.cancelling)
  | phase (h : m.kind.inFlight = false)

theorem applySource_other {node line m}
    (h : m.status.sourceNode ≠ some node ∨ m.status.peer ≠ some line.peer) :
    applySource node line m = m := by
  unfold applySource
  split
  · rw [if_neg]
    rintro ⟨hnode, -, hpeer, -⟩
    exact h.elim (· hnode) (· hpeer)
  · rfl

theorem applyTarget_other {node line m} (h : m.status.targetNode ≠ some node) :
    applyTarget node line m = m := by
  unfold applyTarget
  split
  · rw [if_neg fun hc => h hc.1]
  · rfl

variable {r : ReportLine}

theorem apply_of_not_concerns
    (h : concerns r.line r.vm.toVm m.toVmMigration = false) : apply r m = m := by
  simp [apply, applyReport, h]

theorem apply_foreign (h : Foreign r m) : apply r m = m := by
  cases h with
  | tenancy h => simp [apply, h]
  | node source target =>
    have : applyTarget r.node r.line (applySource r.node r.line m.toVmMigration) =
        m.toVmMigration := by
      rw [applySource_other (.inl source), applyTarget_other target]
    simp [apply, applyReport, this]
  | attempt h =>
    refine apply_of_not_concerns (eq_false_iff.mpr fun hc => ?_)
    simp only [concerns, and_eq_true, decide_eq_true_eq] at hc
    exact h hc.1.1.1.2
  | incarnation h =>
    refine apply_of_not_concerns (eq_false_iff.mpr fun hc => ?_)
    simp only [concerns, and_eq_true, decide_eq_true_eq] at hc
    exact h (by rw [hc.1.1.2, hc.1.2])
  | cancelling h | phase h => exact apply_of_not_concerns (by simp [concerns, h])

theorem apply_other_peer (h : m.status.peer ≠ some r.line.peer) :
    (apply r m).status.sourceReported = m.status.sourceReported ∧
      (apply r m).status.sourceMessage = m.status.sourceMessage := by
  unfold apply applyReport
  rw [applySource_other (.inr h)]
  split
  · split
    · rcases applyTarget_eq r.node r.line m.toVmMigration with ht | ⟨-, word, ht⟩
      all_goals
        rw [ht]
        exact ⟨rfl, rfl⟩
    · exact ⟨rfl, rfl⟩
  · exact ⟨rfl, rfl⟩

theorem apply_source_other_peer (hpeer : m.status.peer ≠ some r.line.peer)
    (hnode : m.status.targetNode ≠ some r.node) : apply r m = m := by
  have : applyTarget r.node r.line (applySource r.node r.line m.toVmMigration) =
      m.toVmMigration := by
    rw [applySource_other (.inr hpeer), applyTarget_other hnode]
  simp [apply, applyReport, this]

section Swap

variable {source target : String} {m : TenantMigration} {s t : ReportLine}

theorem concerns_congr {line vm m m'} (hkind : m'.kind = m.kind) (hspec : m'.spec = m.spec)
    (hcancelling : m'.status.cancelling = m.status.cancelling)
    (hid : m'.status.migrationId = m.status.migrationId) (huid : m'.status.vmUid = m.status.vmUid) :
    concerns line vm m' = concerns line vm m := by
  simp only [concerns, hkind, hspec, hcancelling, hid, huid]

@[simp] theorem concerns_applySource (line line' vm node m) :
    concerns line vm (applySource node line' m) = concerns line vm m := by
  rcases applySource_eq node line' m with h | ⟨-, -, _, _, h⟩
  · rw [h]
  · rw [h]
    exact concerns_congr (kind_congr rfl) rfl rfl rfl rfl

@[simp] theorem concerns_applyTarget (line line' vm node m) :
    concerns line vm (applyTarget node line' m) = concerns line vm m := by
  rcases applyTarget_eq node line' m with h | ⟨-, _, h⟩
  · rw [h]
  · rw [h]
    exact concerns_congr (kind_congr rfl) rfl rfl rfl rfl

theorem applySource_applyTarget (node node' line line' m) :
    applySource node line (applyTarget node' line' m) =
      applyTarget node' line' (applySource node line m) := by
  have hkind (word : TargetWord) : ({ m with status := { m.status with
      targetReported := some word } } : VmMigration).kind = m.kind := kind_congr rfl
  unfold applySource applyTarget
  cases line.outcome.sourceWord with
  | none => rfl
  | some =>
    cases line'.outcome.targetWord with
    | none => rfl
    | some =>
      dsimp only
      split
      · simp only [hkind]
        split <;> simp_all
      · split <;> simp_all

theorem apply_source (hs : m.status.targetNode ≠ some s.node) :
    apply s m = if sameTenancy m.tenant s.vm.tenant ∧ concerns s.line s.vm.toVm m.toVmMigration
      then { m with toVmMigration := applySource s.node s.line m.toVmMigration } else m := by
  have hother : applyTarget s.node s.line (applySource s.node s.line m.toVmMigration) =
      applySource s.node s.line m.toVmMigration := by
    refine applyTarget_other ?_
    rcases applySource_eq s.node s.line m.toVmMigration with h | ⟨-, -, _, _, h⟩
    · rw [h]
      exact hs
    · rw [h]
      exact hs
  unfold apply applyReport
  rw [hother]
  split <;> split <;> simp_all

theorem apply_target (ht : m.status.sourceNode ≠ some t.node) :
    apply t m = if sameTenancy m.tenant t.vm.tenant ∧ concerns t.line t.vm.toVm m.toVmMigration
      then { m with toVmMigration := applyTarget t.node t.line m.toVmMigration } else m := by
  unfold apply applyReport
  rw [applySource_other (.inl ht)]
  split <;> split <;> simp_all

theorem apply_comm (hs : m.status.targetNode ≠ some s.node)
    (ht : m.status.sourceNode ≠ some t.node) :
    apply t (apply s m) = apply s (apply t m) := by
  rw [apply_source (m := apply t m) (by rw [(apply_kept t m).targetNode]; exact hs),
    apply_target (m := apply s m) (by rw [(apply_kept s m).sourceNode]; exact ht),
    (apply_kept t m).tenant, (apply_kept s m).tenant, apply_source hs, apply_target ht]
  by_cases hcs : sameTenancy m.tenant s.vm.tenant ∧ concerns s.line s.vm.toVm m.toVmMigration <;>
    by_cases hct : sameTenancy m.tenant t.vm.tenant ∧ concerns t.line t.vm.toVm m.toVmMigration <;>
      simp [hcs, hct, applySource_applyTarget]

end Swap

def sentBy (node : String) (rs : List ReportLine) : List ReportLine :=
  rs.filter fun r => r.node = node

theorem apply_applyAll_sentBy {source target t} (rs) (hne : source ≠ target)
    (hs : m.status.sourceNode = some source) (ht : m.status.targetNode = some target)
    (hnode : t.node = target) :
    applyAll (sentBy source rs) (apply t m) = apply t (applyAll (sentBy source rs) m) := by
  induction rs generalizing m with
  | nil => rfl
  | cons r rs ih =>
    by_cases hr : r.node = source
    · have hkept := apply_kept r m
      have hcomm : apply r (apply t m) = apply t (apply r m) :=
        (apply_comm (by rw [ht, hr]; simpa using hne.symm)
          (by rw [hs, hnode]; simpa using hne)).symm
      simp only [sentBy, List.filter_cons, hr, decide_true, if_true, applyAll_cons] at ih ⊢
      rw [hcomm]
      exact ih (hkept.sourceNode.trans hs) (hkept.targetNode.trans ht)
    · simpa [sentBy, hr] using ih hs ht

theorem applyAll_eq {source target} (rs) (hne : source ≠ target)
    (hs : m.status.sourceNode = some source) (ht : m.status.targetNode = some target) :
    applyAll rs m = applyAll (sentBy target rs) (applyAll (sentBy source rs) m) := by
  induction rs generalizing m with
  | nil => rfl
  | cons r rs ih =>
    have hkept := apply_kept r m
    have hrest := ih (hkept.sourceNode.trans hs) (hkept.targetNode.trans ht)
    rw [applyAll_cons, hrest]
    by_cases hrs : r.node = source
    · have hrt : r.node ≠ target := hrs.trans_ne hne
      simp [sentBy, hrs, hne]
    · by_cases hrt : r.node = target
      · rw [apply_applyAll_sentBy rs hne hs ht hrt]
        simp [sentBy, hrt, hne.symm]
      · rw [apply_foreign (.node (by rw [hs]; simpa using fun h => hrs h.symm)
          (by rw [ht]; simpa using fun h => hrt h.symm))]
        simp [sentBy, hrs, hrt]

/-- For every record and every history `rs`, whatever comes after it in `ss`: the terminal words
stay; a foreign line changes nothing, nor does one of the source with another peer; and an order of
the lines counts only as far as each endpoint's own lines go, so that neighbouring lines of the two
may be swapped. -/
theorem migration_evidence (m : TenantMigration) (rs ss : List ReportLine) :
    ((applyAll rs m).status.sourceReported.any SourceWord.terminal →
      (applyAll (rs ++ ss) m).status.sourceReported = (applyAll rs m).status.sourceReported) ∧
    ((applyAll rs m).status.targetReported = some .running →
      (applyAll (rs ++ ss) m).status.targetReported = some .running) ∧
    (∀ r, Foreign r (applyAll rs m) → applyAll (rs ++ r :: ss) m = applyAll (rs ++ ss) m) ∧
    (∀ r, m.status.targetNode ≠ some r.node →
      (applyAll rs m).status.peer ≠ some r.line.peer →
        applyAll (rs ++ r :: ss) m = applyAll (rs ++ ss) m) ∧
    (∀ r, (applyAll rs m).status.peer ≠ some r.line.peer →
      (applyAll (rs ++ [r]) m).status.sourceReported = (applyAll rs m).status.sourceReported ∧
      (applyAll (rs ++ [r]) m).status.sourceMessage = (applyAll rs m).status.sourceMessage) ∧
    (∀ source target, source ≠ target → m.status.sourceNode = some source →
      m.status.targetNode = some target →
        (∀ s t, s.node = source → t.node = target →
          applyAll (rs ++ s :: t :: ss) m = applyAll (rs ++ t :: s :: ss) m) ∧
        (sentBy source rs = sentBy source ss → sentBy target rs = sentBy target ss →
          applyAll rs m = applyAll ss m)) := by
  have hkept := applyAll_kept rs m
  refine ⟨fun h => ?_, fun h => ?_, fun r h => ?_, fun r hnode hpeer => ?_, fun r hpeer => ?_,
    fun source target hne hs ht => ⟨fun s t hsn htn => ?_, fun hsource htarget => ?_⟩⟩
  · rw [applyAll_append]
    exact (applyAll_kept ss (applyAll rs m)).source h
  · rw [applyAll_append]
    exact (applyAll_kept ss (applyAll rs m)).target h
  · rw [applyAll_append, applyAll_append, applyAll_cons, apply_foreign h]
  · rw [applyAll_append, applyAll_append, applyAll_cons,
      apply_source_other_peer hpeer (by rw [hkept.targetNode]; exact hnode)]
  · rw [applyAll_append]
    exact apply_other_peer hpeer
  · rw [applyAll_append, applyAll_append, applyAll_cons, applyAll_cons, applyAll_cons,
      applyAll_cons]
    rw [apply_comm (by rw [hkept.targetNode, ht, hsn]; simpa using hne.symm)
      (by rw [hkept.sourceNode, hs, htn]; simpa using hne)]
  · rw [applyAll_eq rs hne hs ht, applyAll_eq ss hne hs ht, hsource, htarget]

def attemptVm : TenantVm where
  name := "web"
  uid := "u1"
  deletionTimestamp := none
  spec := ⟨some "a", none, .running, ⟨none, none, []⟩⟩
  status := ⟨⟨.running, none, none⟩, none, none, none, none, none, none, 0, [], none⟩
  tenant := none

def attempt : TenantMigration where
  name := "web-1"
  uid := "m1"
  created := 1
  spec := ⟨"web", none⟩
  status := { VmMigrationStatus.default with
    migrationId := some "m1"
    vmUid := some "u1"
    reported := some (.here .running .dispatched none 0)
    sourceNode := some "a"
    targetNode := some "b"
    peer := some "tcp:b:49000" }
  tenant := ""

def lineOf (node peer : String) (outcome : MigrationOutcome) : ReportLine where
  vm := attemptVm
  node := node
  line := ⟨"m1", "u1", peer, outcome, ""⟩

/-- The target's lines are not held against the record's peer, and two lines that are
not neighbours cannot be exchanged: what the source says in between counts first. -/
theorem evidence_counterexample :
    (attempt.kind = .running ∧ attempt.status.peer ≠ some "tcp:elsewhere:1" ∧
      (apply (lineOf "b" "tcp:elsewhere:1" .arrived) attempt).status.targetReported =
        some .running ∧
      attempt.status.targetReported = none) ∧
    (applyAll [lineOf "a" "tcp:b:49000" .gone, lineOf "a" "tcp:b:49000" .stillHere,
        lineOf "b" "tcp:b:49000" .arrived] attempt).status.sourceReported = some .gone ∧
    (applyAll [lineOf "b" "tcp:b:49000" .arrived, lineOf "a" "tcp:b:49000" .stillHere,
        lineOf "a" "tcp:b:49000" .gone] attempt).status.sourceReported = some .stillHere := by
  decide

/-- After the source's abort and the target's arrival, later lines of both change nothing. -/
theorem migration_evidence_settled :
    (applyAll [lineOf "a" "tcp:b:49000" .stillHere, lineOf "b" "tcp:b:49000" .arrived,
      lineOf "a" "tcp:b:49000" .gone] attempt).status.sourceReported = some .stillHere ∧
    applyAll [lineOf "a" "tcp:b:49000" .stillHere, lineOf "b" "tcp:b:49000" .arrived] attempt =
      applyAll [lineOf "b" "tcp:b:49000" .arrived, lineOf "a" "tcp:b:49000" .stillHere]
        attempt := by
  have h := migration_evidence attempt
    [lineOf "a" "tcp:b:49000" .stillHere, lineOf "b" "tcp:b:49000" .arrived]
    [lineOf "a" "tcp:b:49000" .gone]
  have hswap := (migration_evidence attempt [] []).2.2.2.2.2 "a" "b" (by decide) rfl rfl
  exact ⟨h.1 (by decide), hswap.1 _ _ rfl rfl⟩

end MeisterStack.ClusterController.MigrationEvidence
