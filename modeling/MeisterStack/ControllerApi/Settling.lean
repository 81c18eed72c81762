import MeisterStack.ControllerApi.Volume

/-!
# Settling

Every write of the store settles the object it writes: the phase is derived from the facts on the
object and stamped with the instant at which its kind last changed. `stamp` is one definition over
the vocabulary of a resource.
-/

namespace MeisterStack.ControllerApi

open Option VolumePhaseKind Phase Reported

def unstamped : Instant := 0

structure Stamped (κ ρ : Type) where
  phase : Phase κ ρ
  since : Instant

namespace Stamped

variable {κ ρ : Type} [DecidableEq κ] (resting : κ → Bool) (unrecorded : ρ)

def stamp (stored : Stamped κ ρ) (phase : Phase κ ρ) (now : Instant) : Stamped κ ρ where
  phase := new resting phase.kind (phase.reason.getD unrecorded) phase.message
  since :=
    if phase.kind = stored.phase.kind ∧ stored.since ≠ unstamped then stored.since else now

variable {resting unrecorded} {stored : Stamped κ ρ} {phase : Phase κ ρ} {now : Instant}

omit [DecidableEq κ] in
theorem new_parts (kind : κ) (reason : ρ) (message) :
    let phase := new resting kind reason message
    new resting phase.kind (phase.reason.getD unrecorded) phase.message = phase := by
  cases hrests : resting kind <;> simp [new, hrests, filter_filter]

theorem stamp_since_of_ne (hnow : now ≠ unstamped) :
    (stamp resting unrecorded stored phase now).since ≠ unstamped := by
  unfold stamp
  dsimp only
  split_ifs with hkept
  · exact hkept.2
  · exact hnow

theorem kind_ne_of_since_ne (hstored : stored.since ≠ unstamped)
    (hmoved : (stamp resting unrecorded stored phase now).since ≠ stored.since) :
    (stamp resting unrecorded stored phase now).phase.kind ≠ stored.phase.kind := by
  intro hkind
  exact hmoved (if_pos ⟨hkind, hstored⟩)

theorem stamp_stamp (hnow : now ≠ unstamped) (later) :
    stamp resting unrecorded (stamp resting unrecorded stored phase now) phase later =
      stamp resting unrecorded stored phase now := by
  have hsince : (stamp resting unrecorded (stamp resting unrecorded stored phase now) phase
      later).since = (stamp resting unrecorded stored phase now).since :=
    if_pos ⟨rfl, stamp_since_of_ne hnow⟩
  rw [Stamped.mk.injEq]
  exact ⟨rfl, hsince⟩

variable (resting unrecorded) in
/-- What a history of writes leaves, each with the phase it derived and its moment. -/
def after (stored : Stamped κ ρ) (writes : List (Phase κ ρ × Instant)) : Stamped κ ρ :=
  writes.foldl (fun s write => s.stamp resting unrecorded write.1 write.2) stored

/-- Over every history, the stamp is the moment of the write that began the present kind. -/
theorem since_of_history {writes : List (Phase κ ρ × Instant)} (hstored : stored.since ≠ unstamped)
    (hwrites : ∀ write ∈ writes, write.2 ≠ unstamped) :
    let now := (stored.after resting unrecorded writes).since
    (now = stored.since ∧ ∀ write ∈ writes, write.1.kind = stored.phase.kind) ∨
      ∃ before phase later, writes = before ++ (phase, now) :: later ∧
        (stored.after resting unrecorded before).phase.kind ≠ phase.kind ∧
        ∀ write ∈ later, write.1.kind = phase.kind := by
  induction writes generalizing stored with
  | nil => exact .inl ⟨rfl, by simp⟩
  | cons write writes ih =>
    obtain ⟨hwrite, hwrites⟩ := List.forall_mem_cons.mp hwrites
    rcases ih (stamp_since_of_ne hwrite) hwrites with ⟨hnow, hkinds⟩ |
      ⟨before, phase, later, hsplit, hbegan, hlater⟩
    · by_cases hkind : write.1.kind = stored.phase.kind
      · refine .inl ⟨hnow.trans (if_pos ⟨hkind, hstored⟩), ?_⟩
        exact List.forall_mem_cons.mpr ⟨hkind, fun w hw => (hkinds w hw).trans hkind⟩
      · have hfirst := hnow.trans (if_neg fun h => hkind h.1)
        exact .inr ⟨[], write.1, writes, congrArg (fun now => (write.1, now) :: writes) hfirst.symm,
          Ne.symm hkind, hkinds⟩
    · exact .inr ⟨write :: before, phase, later, congrArg (write :: ·) hsplit, hbegan, hlater⟩

theorem since_of_history_running :
    let word kind := new VmPhaseKind.resting kind VmReason.unrecorded none
    let writes := [(word .running, 5), (word .running, 7)]
    ∃ before phase later, writes = before ++ (phase, 5) :: later ∧
      ∀ write ∈ later, write.1.kind = phase.kind := by
  intro word writes
  obtain ⟨before, phase, later, hsplit, -, hlater⟩ := (@since_of_history _ _ _ VmPhaseKind.resting
    .unrecorded ⟨word .pending, 1⟩ writes (by decide) (by decide)).resolve_left (by decide)
  exact ⟨before, phase, later, hsplit, hlater⟩

end Stamped

structure StampedVm where
  vm : Vm
  since : Instant
  deriving DecidableEq

namespace StampedVm

def stored (v : StampedVm) : Stamped VmPhaseKind VmReason := ⟨v.vm.status.phase, v.since⟩

def settle (v : StampedVm) (now : Instant) : StampedVm :=
  let stamped := v.stored.stamp VmPhaseKind.resting .unrecorded (settleVm v.vm.spec v.vm.status) now
  { vm := { v.vm with status := { v.vm.status with phase := stamped.phase } }
    since := stamped.since }

end StampedVm

theorem settleVm_eq_new (spec status) :
    ∃ kind reason message,
      settleVm spec status = new VmPhaseKind.resting kind reason message := by
  unfold settleVm
  cases status.silence with
  | some => exact ⟨_, _, _, rfl⟩
  | none =>
    dsimp only
    split
    · exact ⟨_, _, _, rfl⟩
    · split
      · rename_i phase hphase
        obtain ⟨word, -, hword⟩ := bind_eq_some_iff.mp hphase
        exact toPhase_eq_new hword
      · exact ⟨_, _, _, rfl⟩

namespace StampedVm

theorem settle_vm (v : StampedVm) (now) : (v.settle now).vm = v.vm.settle := by
  obtain ⟨kind, reason, message, hnew⟩ := settleVm_eq_new v.vm.spec v.vm.status
  simp only [settle, Stamped.stamp, Vm.settle, hnew]
  rw [Stamped.new_parts]

theorem settle_settle {v : StampedVm} {now} (hnow : now ≠ unstamped) (later) :
    (v.settle now).settle later = v.settle now := by
  let derived := settleVm v.vm.spec v.vm.status
  let stamp := Stamped.stamp VmPhaseKind.resting VmReason.unrecorded
  have hstamp : stamp (stamp v.stored derived now) derived later = stamp v.stored derived now :=
    Stamped.stamp_stamp hnow later
  change StampedVm.mk { v.vm with status := { v.vm.status with
      phase := (stamp (stamp v.stored derived now) derived later).phase } }
    (stamp (stamp v.stored derived now) derived later).since = v.settle now
  rw [hstamp]
  rfl

end StampedVm

theorem settleVm_resting_held {spec status} (h : (settleVm spec status).kind.resting) :
    status.silence = none ∧ (spec.nodeName.isSome || spec.clusterName.isSome ||
      status.nodeName.isSome || status.clusterName.isSome) := by
  unfold settleVm at h
  cases hsilence : status.silence with
  | some => simp [hsilence, VmPhaseKind.resting] at h
  | none =>
    simp only [hsilence] at h
    split at h
    · simp [VmPhaseKind.resting] at h
    · rename_i hclaimed
      exact ⟨rfl, by simpa only [Bool.not_eq_true', Bool.not_eq_false] using hclaimed⟩

theorem agrees_of_not_stale {spec word} (hnode : word.node ≠ "")
    (h : staleHolder spec word = false) :
    (∀ bound, spec.nodeName = some bound → bound = word.node) ∧
      ∀ bound, spec.clusterName = some bound → bound = word.node := by
  have hempty : word.node.isEmpty = false := by simpa [String.isEmpty_iff] using hnode
  simp only [staleHolder, hempty, Bool.not_false, Bool.true_and, Bool.or_eq_false_iff,
    any_eq_false, bne_eq_false_iff_eq] at h
  exact ⟨fun bound hbound => h.1 bound hbound, fun bound hbound => h.2 bound hbound⟩

structure StampedVolume where
  volume : Volume
  phase : VolumePhase
  since : Instant

namespace StampedVolume

def stored (v : StampedVolume) : Stamped VolumePhaseKind VolumeReason := ⟨v.phase, v.since⟩

def settle (v : StampedVolume) (now : Instant) : StampedVolume :=
  let volume := v.volume.settle
  let stamped := v.stored.stamp resting .unrecorded volume.phase now
  ⟨volume, stamped.phase, stamped.since⟩

end StampedVolume

theorem VolumeStatus.settle_settle (s : VolumeStatus) : s.settle.settle = s.settle := by
  by_cases hholds : volumeClaimHolds s
  · simp [VolumeStatus.settle, hholds]
  · have hdropped : volumeClaimHolds s.settle := by
      rw [VolumeStatus.settle, if_neg hholds]
      rfl
    rw [VolumeStatus.settle, if_pos hdropped]

theorem VolumeStatus.settle_word (s : VolumeStatus) : s.settle.reported = s.reported := by
  unfold VolumeStatus.settle
  split_ifs <;> rfl

@[simp] theorem Volume.settle_settle (v : Volume) : v.settle.settle = v.settle := by
  simp [Volume.settle, VolumeStatus.settle_settle]

@[simp] theorem Volume.settle_deletionTimestamp (v : Volume) :
    v.settle.deletionTimestamp = v.deletionTimestamp := rfl

theorem settleVolume_eq_new (deleting s) :
    ∃ kind reason message,
      settleVolume deleting s = new resting kind reason message := by
  unfold settleVolume
  split
  · split <;> exact ⟨_, _, _, rfl⟩
  · split
    · rename_i phase hphase
      obtain ⟨word, -, hword⟩ := bind_eq_some_iff.mp hphase
      exact toPhase_eq_new hword
    · exact ⟨_, _, _, rfl⟩

theorem settleVolume_ready {deleting s} (h : (settleVolume deleting s).kind = .ready) :
    deleting = false ∧ ∃ word, s.reported = some word ∧ word.node ≠ "" ∧ word.phase = .ready := by
  unfold settleVolume at h
  split at h
  · split at h <;> simp at h
  · rename_i hdeleting
    refine ⟨by simpa using hdeleting, ?_⟩
    split at h
    · rename_i phase hphase
      obtain ⟨word, hword, hphase⟩ := bind_eq_some_iff.mp hphase
      have hkind : word.phase = .ready := (toPhase_kind hphase).symm.trans h
      refine ⟨word, hword, fun hnode => ?_, hkind⟩
      simp [toPhase, Word.toPhase, hkind, hnode, resting] at hphase
    · simp at h

namespace StampedVolume

theorem settle_phase (v : StampedVolume) (now) : (v.settle now).phase = v.volume.settle.phase := by
  obtain ⟨kind, reason, message, hnew⟩ :=
    settleVolume_eq_new v.volume.settle.deletionTimestamp.isSome v.volume.settle.status
  simp only [settle, Stamped.stamp, Volume.phase, hnew]
  rw [Stamped.new_parts]

theorem settle_settle {v : StampedVolume} {now} (hnow : now ≠ unstamped) (later) :
    (v.settle now).settle later = v.settle now := by
  let derived := v.volume.settle.phase
  let stamp := Stamped.stamp resting VolumeReason.unrecorded
  have hstamp : stamp (stamp v.stored derived now) derived later = stamp v.stored derived now :=
    Stamped.stamp_stamp hnow later
  simp only [settle, Volume.settle_settle]
  change StampedVolume.mk _ (stamp (stamp v.stored derived now) derived later).phase
    (stamp (stamp v.stored derived now) derived later).since = _
  rw [hstamp]

end StampedVolume

/-- A resting phase is somebody's word, and settling again neither changes it nor moves its
stamp. An object that was never stamped gets its first stamp whatever its kind. -/
theorem resting_is_a_word :
    (∀ (v : StampedVm) (now : Instant),
      (v.settle now).vm.status.phase.kind ∈ [VmPhaseKind.running, .stopped, .paused] →
      v.vm.status.silence = none ∧
      (v.vm.spec.nodeName.isSome || v.vm.spec.clusterName.isSome ||
        v.vm.status.nodeName.isSome || v.vm.status.clusterName.isSome) ∧
      ∃ word, v.vm.status.reported = some word ∧ word.node ≠ "" ∧
        (∀ bound, v.vm.spec.nodeName = some bound → bound = word.node) ∧
        (∀ bound, v.vm.spec.clusterName = some bound → bound = word.node) ∧
        word.phase = (v.settle now).vm.status.phase.kind) ∧
    (∀ (v : StampedVolume) (now : Instant), (v.settle now).phase.kind = .ready →
      v.volume.deletionTimestamp = none ∧
      ∃ word, v.volume.status.reported = some word ∧ word.node ≠ "" ∧ word.phase = .ready) ∧
    (∀ (v : StampedVm) (now later : Instant), now ≠ unstamped →
      (v.settle now).settle later = v.settle now) ∧
    (∀ (v : StampedVolume) (now later : Instant), now ≠ unstamped →
      (v.settle now).settle later = v.settle now) ∧
    (∀ (v : StampedVm) (now : Instant), v.since ≠ unstamped → (v.settle now).since ≠ v.since →
      (v.settle now).vm.status.phase.kind ≠ v.vm.status.phase.kind) ∧
    (∀ (v : StampedVolume) (now : Instant), v.since ≠ unstamped →
      (v.settle now).since ≠ v.since → (v.settle now).phase.kind ≠ v.phase.kind) := by
  refine ⟨fun v now hkind => ?_, fun v now hkind => ?_, fun v now later hnow => ?_,
    fun v now later hnow => ?_, fun v now hstamped hmoved => ?_, fun v now hstamped hmoved => ?_⟩
  · rw [StampedVm.settle_vm] at hkind ⊢
    have hresting : (settleVm v.vm.spec v.vm.status).kind.resting := by
      simp only [List.mem_cons, List.not_mem_nil, or_false] at hkind
      change v.vm.settle.status.phase.kind.resting
      rcases hkind with hkind | hkind | hkind <;> rw [hkind] <;> rfl
    obtain ⟨hsilence, hheld⟩ := settleVm_resting_held hresting
    obtain ⟨word, hword, hnode, hstale, hphase⟩ := settleVm_resting hresting
    obtain ⟨hnodeName, hclusterName⟩ := agrees_of_not_stale hnode hstale
    exact ⟨hsilence, hheld, word, hword, hnode, hnodeName, hclusterName, hphase⟩
  · rw [StampedVolume.settle_phase] at hkind
    obtain ⟨hdeleting, word, hword, hnode, hphase⟩ := settleVolume_ready hkind
    refine ⟨by simpa using hdeleting, word, ?_, hnode, hphase⟩
    exact (VolumeStatus.settle_word v.volume.status).symm.trans hword
  · exact StampedVm.settle_settle hnow later
  · exact StampedVolume.settle_settle hnow later
  all_goals exact Stamped.kind_ne_of_since_ne hstamped hmoved

def declaredVm (word : Option VmReported) : StampedVm where
  vm :=
    { name := "web-1"
      uid := "u-1"
      deletionTimestamp := none
      spec := ⟨some "agent-1a", none, .running, ⟨none, none, []⟩⟩
      status :=
        { phase := new VmPhaseKind.resting .pending .unrecorded none
          reported := word
          silence := none
          placement := none
          nodeName := some "agent-1a"
          clusterName := none
          observedAt := none
          reschedules := 0
          refusedBy := []
          evacuating := none } }
  since := unstamped

/-- A VM nobody has reported on is pending before it is first settled and after, and gets its
stamp all the same; a stamp of the epoch is none, and the next settling replaces it. -/
theorem first_stamp_moves :
    ((declaredVm none).settle 7).vm.status.phase.kind =
        (declaredVm none).vm.status.phase.kind ∧
      ((declaredVm none).settle 7).since ≠ (declaredVm none).since ∧
      ((declaredVm none).settle unstamped).settle 7 ≠ (declaredVm none).settle unstamped := by
  decide

/-- The node says Running at 7, and settling at 9 changes nothing. -/
theorem resting_is_a_word_running :
    let v := declaredVm (some (.of "agent-1a" .running .unrecorded none 7))
    (v.settle 7).vm.status.phase.kind = .running ∧ v.vm.status.silence = none ∧
      (v.settle 7).settle 9 = v.settle 7 ∧
      (((v.settle 7).settle 9).since ≠ (v.settle 7).since →
        ((v.settle 7).settle 9).vm.status.phase.kind ≠ (v.settle 7).vm.status.phase.kind) := by
  obtain ⟨hword, -, hagain, -, hmoves, -⟩ := resting_is_a_word
  exact ⟨by decide, (hword _ 7 (by decide)).1, hagain _ 7 9 (by decide), hmoves _ 9 (by decide)⟩

end MeisterStack.ControllerApi
