import MeisterStack.ControllerApi.VmShape

/-!
# Drift of the attached disks

What a node reports a VM as holding is stored beside the disks the spec names: first the named ones
with whether they are held, then the ones that are held and no longer named.
-/

namespace MeisterStack.ClusterController

open Foundation ControllerApi ControllerApi.VmShape List

structure VolumeAttachmentStatus where
  name : String
  attached : Bool
  deriving DecidableEq

def noteHeld (wanted : List String) (observed : List VolumeAttachmentStatus) (name : String) :
    List VolumeAttachmentStatus :=
  if wanted.contains name || observed.any (·.name == name) then observed
  else observed ++ [⟨name, true⟩]

def observedAttachments (vm : Json) (held : List String) : List VolumeAttachmentStatus :=
  let wanted := referencedVolumes vm
  held.foldl (noteHeld wanted) (wanted.map fun name => ⟨name, held.contains name⟩)

def attachmentsSettled (vm : Json) (observed : List VolumeAttachmentStatus) : Bool :=
  let wanted := referencedVolumes vm
  (wanted.all fun w => observed.any fun o => o.attached && o.name == w) &&
    observed.all fun o => !o.attached || wanted.contains o.name

structure Drift where
  attach : List String
  release : List String
  deriving DecidableEq

def volumeDrift (phase : VmPhaseKind) (vm : Json) (volumes : List VolumeAttachmentStatus) :
    Option Drift :=
  if phase ≠ .running ∧ phase ≠ .stopped then none
  else
    let wanted := referencedVolumes vm
    if wanted.isEmpty && volumes.isEmpty then none
    else
      let held := (volumes.filter (·.attached)).map (·.name)
      let attach := wanted.filter fun name => !held.contains name
      let release := held.filter fun name => !wanted.contains name
      if !attach.isEmpty || !release.isEmpty then some ⟨attach, release⟩ else none

variable {vm : Json} {held : List String} {name : String}

-- the induction is on the report; a disk the spec does not name is listed as attached only
theorem attached_foldl {wanted} (report : List String) {observed}
    (hextra : ∀ o ∈ observed, o.name ∉ wanted → o.attached) :
    ⟨name, true⟩ ∈ report.foldl (noteHeld wanted) observed ↔
      ⟨name, true⟩ ∈ observed ∨ name ∈ report ∧ name ∉ wanted := by
  induction report generalizing observed with
  | nil => simp
  | cons n report ih =>
    have hlisted : n ∉ wanted → (∃ o ∈ observed, o.name = n) → ⟨n, true⟩ ∈ observed := by
      rintro hn ⟨⟨_, _⟩, ho, rfl⟩
      cases hextra _ ho hn
      exact ho
    rw [foldl_cons, ih]
    all_goals grind [noteHeld]

theorem attached_iff : ⟨name, true⟩ ∈ observedAttachments vm held ↔ name ∈ held := by
  unfold observedAttachments
  rw [attached_foldl]
  · by_cases hwanted : name ∈ referencedVolumes vm <;> simp [hwanted]
  · grind

theorem mem_attached {volumes : List VolumeAttachmentStatus} :
    name ∈ (volumes.filter (·.attached)).map (·.name) ↔ ⟨name, true⟩ ∈ volumes := by
  simp only [mem_map, mem_filter]
  constructor
  · rintro ⟨⟨_, _⟩, ⟨ho, rfl⟩, rfl⟩
    exact ho
  · exact fun h => ⟨_, ⟨h, rfl⟩, rfl⟩

theorem attachmentsSettled_iff {volumes} :
    attachmentsSettled vm volumes ↔
      ∀ name, ⟨name, true⟩ ∈ volumes ↔ name ∈ referencedVolumes vm := by
  simp only [attachmentsSettled, ← mem_attached, mem_map, mem_filter]
  grind

-- the early return of a VM without disks is a case of the last one
theorem volumeDrift_cases (vm) {phase} (hphase : phase = .running ∨ phase = .stopped) (volumes) :
    ∃ attach release,
      (∀ name, name ∈ attach ↔ name ∈ referencedVolumes vm ∧ ⟨name, true⟩ ∉ volumes) ∧
      (∀ name, name ∈ release ↔ ⟨name, true⟩ ∈ volumes ∧ name ∉ referencedVolumes vm) ∧
      volumeDrift phase vm volumes =
        if attach = [] ∧ release = [] then none else some ⟨attach, release⟩ := by
  let held := (volumes.filter (·.attached)).map (·.name)
  refine ⟨(referencedVolumes vm).filter fun name => !held.contains name,
    held.filter fun name => !(referencedVolumes vm).contains name,
    fun name => by simp [held, mem_attached], fun name => by simp [held, mem_attached], ?_⟩
  grind [volumeDrift]

/-- The disks are settled, and nothing drifts, exactly when the node holds the disks the spec names;
what drifts is what is named and not held, and what is held and not named. -/
theorem drift_exact (vm : Json) (held : List String) :
    (attachmentsSettled vm (observedAttachments vm held) ↔
      ∀ name, name ∈ held ↔ name ∈ referencedVolumes vm) ∧
    ∀ phase, phase = .running ∨ phase = .stopped →
      (volumeDrift phase vm (observedAttachments vm held) = none ↔
        ∀ name, name ∈ held ↔ name ∈ referencedVolumes vm) ∧
      ∀ drift, volumeDrift phase vm (observedAttachments vm held) = some drift →
        (∀ name, name ∈ drift.attach ↔ name ∈ referencedVolumes vm ∧ name ∉ held) ∧
          ∀ name, name ∈ drift.release ↔ name ∈ held ∧ name ∉ referencedVolumes vm := by
  refine ⟨by simp only [attachmentsSettled_iff, attached_iff], fun phase hphase => ?_⟩
  obtain ⟨attach, release, hattach, hrelease, hdrift⟩ :=
    volumeDrift_cases vm hphase (observedAttachments vm held)
  simp only [attached_iff] at hattach hrelease
  rw [hdrift]
  refine ⟨?_, fun drift h => ?_⟩
  · have hnone : attach = [] ∧ release = [] ↔
        ∀ name, name ∈ held ↔ name ∈ referencedVolumes vm := by
      simp only [eq_nil_iff_forall_not_mem, hattach, hrelease]
      grind
    simp [hnone]
  · split_ifs at h
    cases h
    exact ⟨hattach, hrelease⟩

def swapped : Json := .obj [("volumes", .arr [.obj [("volume", .str "new")]])]

/-- One disk took the place of another. -/
theorem drift_exact_swapped :
    ∃ drift, volumeDrift .stopped swapped (observedAttachments swapped ["old"]) = some drift ∧
      "new" ∈ drift.attach ∧ "old" ∈ drift.release := by
  have hexact := ((drift_exact swapped ["old"]).2 .stopped (.inr rfl)).2
    ⟨["new"], ["old"]⟩ (by decide)
  exact ⟨_, by decide, (hexact.1 "new").mpr (by decide), (hexact.2 "old").mpr (by decide)⟩

end MeisterStack.ClusterController
