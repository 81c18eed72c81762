import MeisterStack.ControllerApi.Gateway
import MeisterStack.ControllerApi.Migration
import MeisterStack.ControllerApi.Volume

/-!
# Phases on the wire

A phase travels as four sibling fields: the kind, the word of its reason, the message and the
instant. A word that is not in the reader's table goes to the front of the message.
-/

namespace MeisterStack.ControllerApi

/-- The table the `reasons!` macro is given for one resource, `Unrecorded` among it. -/
class Reasons (ρ : Type) [DecidableEq ρ] where
  words : List (ρ × String)
  unrecorded : ρ
  complete : ∀ r, r ∈ words.map Prod.fst := by intro r; cases r <;> decide
  distinct : (words.map Prod.snd).Nodup := by decide
  spoken : ∀ entry ∈ words, entry.2 ≠ "" := by decide

inductive ImageReason where
  | unrecorded | awaitingNode | notFound | notAFile | checksumMismatch | fetchFailed
  | digestMismatch
  deriving DecidableEq

inductive StoragePoolReason where
  | unrecorded | awaitingNode | disagreement | clusterSilent | clusterHasNoPool
  deriving DecidableEq

inductive VolumeSnapshotReason where
  | unrecorded | awaitingNode | dispatched | requeued | sourceGone | undeliverable | working
  | driverRefused | dropped
  deriving DecidableEq

instance : Reasons VmReason where
  unrecorded := .unrecorded
  words := [(.unrecorded, "Unrecorded"), (.awaitingNode, "AwaitingNode"), (.unplaced, "Unplaced"),
    (.notReady, "NotReady"), (.volumeHeld, "VolumeHeld"), (.unbound, "Unbound"),
    (.dispatched, "Dispatched"), (.refused, "Refused"), (.silent, "Silent"),
    (.working, "Working"), (.backoff, "Backoff"), (.awaitingGuest, "AwaitingGuest"),
    (.guestLeft, "GuestLeft"), (.receiveFailed, "ReceiveFailed"), (.vmmGone, "VmmGone"),
    (.backendGone, "BackendGone"), (.resumeIneffective, "ResumeIneffective"),
    (.stopping, "Stopping")]

instance : Reasons VolumeReason where
  unrecorded := .unrecorded
  words := [(.unrecorded, "Unrecorded"), (.awaitingNode, "AwaitingNode"), (.unplaced, "Unplaced"),
    (.following, "Following"), (.dispatched, "Dispatched"), (.undeliverable, "Undeliverable"),
    (.sourceMissing, "SourceMissing"), (.heldBy, "HeldBy"), (.working, "Working"),
    (.driverRefused, "DriverRefused"), (.notOnBackend, "NotOnBackend"),
    (.deprovisioned, "Deprovisioned")]

instance : Reasons VolumeSnapshotReason where
  unrecorded := .unrecorded
  words := [(.unrecorded, "Unrecorded"), (.awaitingNode, "AwaitingNode"),
    (.dispatched, "Dispatched"), (.requeued, "Requeued"), (.sourceGone, "SourceGone"),
    (.undeliverable, "Undeliverable"), (.working, "Working"), (.driverRefused, "DriverRefused"),
    (.dropped, "Dropped")]

instance : Reasons ImageReason where
  unrecorded := .unrecorded
  words := [(.unrecorded, "Unrecorded"), (.awaitingNode, "AwaitingNode"), (.notFound, "NotFound"),
    (.notAFile, "NotAFile"), (.checksumMismatch, "ChecksumMismatch"),
    (.fetchFailed, "FetchFailed"), (.digestMismatch, "DigestMismatch")]

instance : Reasons StoragePoolReason where
  unrecorded := .unrecorded
  words := [(.unrecorded, "Unrecorded"), (.awaitingNode, "AwaitingNode"),
    (.disagreement, "Disagreement"), (.clusterSilent, "ClusterSilent"),
    (.clusterHasNoPool, "ClusterHasNoPool")]

instance : Reasons Gateway.RouterReason where
  unrecorded := .unrecorded
  words := [(.unrecorded, "Unrecorded"), (.awaitingNode, "AwaitingNode"), (.unplaced, "Unplaced"),
    (.dispatched, "Dispatched"), (.refused, "Refused"), (.silent, "Silent"),
    (.netnsGone, "NetnsGone"), (.legGone, "LegGone"), (.driverUnreachable, "DriverUnreachable")]

instance : Reasons VmMigrationReason where
  unrecorded := .unrecorded
  words := [(.unrecorded, "Unrecorded"), (.awaitingTarget, "AwaitingTarget"),
    (.dispatched, "Dispatched"), (.abandoned, "Abandoned"), (.reported, "Reported")]

namespace Reasons

variable {ρ : Type} [DecidableEq ρ] [Reasons ρ] (r : ρ)

def asStr : String := (words.lookup r).getD ""

variable (word : String)

def parse : Option ρ := (words.find? (·.2 = word)).map Prod.fst

/-- The word at the front of the message, or alone where nothing was said. -/
def front : Option String → String
  | some said => if said ≠ "" then word ++ ": " ++ said else word
  | none => word

def read (message : Option String) : ρ × Option String :=
  if word = "" then (unrecorded, message)
  else
    match parse word with
    | some reason => (reason, message)
    | none => (unrecorded, some (front word message))

theorem mem_words : (r, asStr r) ∈ words := by
  obtain ⟨entry, hmem, hr⟩ := List.mem_map.mp (complete r)
  cases hlookup : words.lookup r with
  | none => simpa [hr] using List.lookup_eq_none_iff.mp hlookup entry hmem
  | some word =>
    obtain ⟨before, after, hwords, -⟩ := List.lookup_eq_some_iff.mp hlookup
    rw [asStr, hlookup, hwords]
    simp

theorem parse_asStr : parse (asStr r) = some r := by
  cases hfind : (words : List (ρ × String)).find? (·.2 = asStr r) with
  | none => simpa using List.find?_eq_none.mp hfind _ (mem_words r)
  | some entry =>
    have hword : entry.2 = asStr r := by simpa using List.find?_some hfind
    have hentry := List.inj_on_of_nodup_map distinct (List.mem_of_find?_eq_some hfind)
      (mem_words r) hword
    rw [parse, hfind, hentry]
    rfl

theorem asStr_ne_empty : asStr r ≠ "" := spoken _ (mem_words r)

end Reasons

/-- A stored phase with its instant, which may lie on either side of the epoch. -/
@[ext]
structure Dated (κ ρ : Type) where
  phase : Phase κ ρ
  since : Int
  deriving DecidableEq

structure PhaseWire (κ : Type) where
  phase : κ
  reason : Option String
  message : Option String
  since : Option Int
  deriving DecidableEq

namespace Dated

open Reasons

variable {κ ρ : Type} [DecidableEq ρ] [Reasons ρ] (resting : κ → Bool) (p : Dated κ ρ)

def reasonWord : String :=
  match p.phase.reason with
  | some reason => if reason ≠ unrecorded then asStr reason else ""
  | none => ""

def toWire : PhaseWire κ where
  phase := p.phase.kind
  reason := if p.reasonWord ≠ "" then some p.reasonWord else none
  message := p.phase.message
  since := if p.since ≠ 0 then some p.since else none

def ofWire (w : PhaseWire κ) (now : Int) : Dated κ ρ :=
  let (reason, message) := Reasons.read (w.reason.getD "") w.message
  ⟨.new resting w.phase reason message, w.since.getD now⟩

/-- What the controllers store is built by `new`. -/
def Stored : Prop :=
  ∃ kind reason message, p.phase = .new resting kind reason message

variable {resting}

theorem stored_ofWire (w now) :
    (ofWire resting w now : Dated κ ρ).Stored resting := ⟨_, _, _, rfl⟩

theorem read_reasonWord (message) :
    Reasons.read p.reasonWord message = (p.phase.reason.getD unrecorded, message) := by
  unfold reasonWord
  cases p.phase.reason with
  | none => simp [Reasons.read]
  | some reason =>
    by_cases hrecorded : reason = unrecorded
    · simp [Reasons.read, hrecorded]
    · simp [Reasons.read, hrecorded, asStr_ne_empty, parse_asStr]

theorem ofWire_toWire {p : Dated κ ρ} (hp : p.Stored resting) (now) :
    ofWire resting p.toWire now = { p with since := if p.since = 0 then now else p.since } := by
  obtain ⟨phase, since⟩ := p
  obtain ⟨kind, reason, message, rfl⟩ := hp
  have hreason : ∀ word : String, (if word ≠ "" then some word else none).getD "" = word := by
    intro word
    split_ifs with h
    · rfl
    · exact (not_not.mp h).symm
  have hsince : (if since ≠ 0 then some since else none).getD now =
      if since = 0 then now else since := by
    split_ifs <;> first | rfl | contradiction
  simp only [ofWire, toWire, hreason, hsince, read_reasonWord, mk.injEq, and_true]
  cases hrests : resting kind <;> simp [Phase.new, hrests, Option.filter_filter]

/-- A phase that is written and read again and again, each time at its own moment. -/
def rounds (resting : κ → Bool) (p : Dated κ ρ) (times : List Int) : Dated κ ρ :=
  times.foldl (fun p now => ofWire resting p.toWire now) p

theorem rounds_eq {p : Dated κ ρ} (hp : p.Stored resting) (times) :
    rounds resting p times =
      { p with since := ((p.since :: times).find? (· ≠ 0)).getD 0 } := by
  induction times generalizing p with
  | nil => by_cases hsince : p.since = 0 <;> simp [rounds, hsince, Dated.ext_iff]
  | cons now times ih =>
    have hround := ofWire_toWire hp now
    rw [rounds, List.foldl_cons, hround]
    refine (ih (p := ⟨p.phase, if p.since = 0 then now else p.since⟩) hp).trans ?_
    by_cases hsince : p.since = 0 <;> simp [hsince]

/--
Writing a stored phase and reading it back gives the same phase, but one that was never stamped
takes the moment of the read. A word the reader does not know leaves the reason, is written out
unchanged at the front of the message and stays there over any number of rounds, which stamp the
phase once.
-/
theorem phase_survives_wire (resting : κ → Bool) :
    (∀ (p : Dated κ ρ) now, p.Stored resting →
      ofWire resting p.toWire now = { p with since := if p.since = 0 then now else p.since }) ∧
    ∀ (w : PhaseWire κ) word now, w.reason = some word → word ≠ "" →
      (parse word : Option ρ) = none →
        let p : Dated κ ρ := ofWire resting w now
        p.toWire.reason = none ∧ p.toWire.message = some (front word w.message) ∧
          ∀ times, rounds resting p times =
            { p with since := ((p.since :: times).find? (· ≠ 0)).getD 0 } := by
  refine ⟨fun p now hp => ofWire_toWire hp now, fun w word now hw hword hunknown => ?_⟩
  have hfront : (front word w.message).isEmpty = false := by
    unfold front
    split
    · split_ifs <;> simp [hword]
    · simp [hword]
  refine ⟨?_, ?_, rounds_eq (stored_ofWire w now)⟩
  · cases hrests : resting w.phase <;>
      simp [ofWire, toWire, reasonWord, Reasons.read, Phase.new, hw, hword, hunknown, hrests]
  · simp [ofWire, toWire, Reasons.read, Phase.new, hw, hword, hunknown, hfront]

def born : Dated VmPhaseKind VmReason := ⟨.new VmPhaseKind.resting .pending .unrecorded none, 0⟩

def ascended : PhaseWire VmPhaseKind := ⟨.failed, some "Ascended", some "it left", some 7⟩

theorem phase_survives_wire_drifted :
    (rounds VmPhaseKind.resting (ofWire VmPhaseKind.resting ascended 8 : Dated _ VmReason)
      [9, 10]).phase = .new VmPhaseKind.resting .failed .unrecorded (some "Ascended: it left") := by
  obtain ⟨-, hunknown⟩ := @phase_survives_wire _ VmReason _ _ VmPhaseKind.resting
  rw [(hunknown ascended "Ascended" 8 rfl (by decide) rfl).2.2 [9, 10]]
  rfl

theorem unstamped_phase_stamped_by_read :
    born.Stored VmPhaseKind.resting ∧ ofWire VmPhaseKind.resting born.toWire 7 ≠ born ∧
      (ofWire VmPhaseKind.resting ascended 8 : Dated _ VmReason).toWire ≠ ascended :=
  ⟨⟨_, _, _, rfl⟩, by decide, by decide⟩

end Dated

end MeisterStack.ControllerApi
