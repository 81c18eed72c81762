import Mathlib.Data.Option.Basic

/-!
# Phases and the evidence they are derived from

The `phases!` macro writes three types for every resource: the word of a phase, the phase with its
evidence, and the recorded word it is derived from. They are one definition here, over kinds,
reasons and `resting`: which kinds carry no reason. The transition instant stands beside the phase
(`Stamped`).
-/

namespace MeisterStack.ControllerApi

abbrev Instant := Nat

structure Phase (κ ρ : Type) where
  kind : κ
  reason : Option ρ
  message : Option String
  deriving DecidableEq

namespace Phase

variable {κ ρ : Type}

def new (resting : κ → Bool) (kind : κ) (reason : ρ) (message : Option String) :
    Phase κ ρ where
  kind := kind
  reason := if resting kind then none else some reason
  message := message.filter fun said => !said.isEmpty

@[simp] theorem new_kind (resting : κ → Bool) (kind : κ) (reason : ρ) (message) :
    (new resting kind reason message).kind = kind := rfl

end Phase

/-- What a node said, without the moment it said it. -/
structure Word (κ ρ : Type) where
  phase : κ
  reason : ρ
  message : Option String
  node : String
  deriving DecidableEq

namespace Word

variable {κ ρ : Type}

def of (node : String) (phase : κ) (reason : ρ) (message : Option String) : Word κ ρ :=
  ⟨phase, reason, message, node⟩

def here (phase : κ) (reason : ρ) (message : Option String) : Word κ ρ :=
  ⟨phase, reason, message, ""⟩

def toPhase (resting : κ → Bool) (w : Word κ ρ) : Option (Phase κ ρ) :=
  if !resting w.phase || !w.node.isEmpty then
    some (Phase.new resting w.phase w.reason w.message)
  else none

end Word

structure Reported (κ ρ : Type) extends Word κ ρ where
  said : Instant
  deriving DecidableEq

namespace Reported

variable {κ ρ : Type}

def of (node : String) (phase : κ) (reason : ρ) (message : Option String)
    (said : Instant) : Reported κ ρ :=
  ⟨.of node phase reason message, said⟩

def here (phase : κ) (reason : ρ) (message : Option String) (said : Instant) :
    Reported κ ρ :=
  ⟨.here phase reason message, said⟩

def toPhase (resting : κ → Bool) (r : Reported κ ρ) : Option (Phase κ ρ) :=
  r.toWord.toPhase resting

theorem toPhase_kind {resting} {r : Reported κ ρ} {p : Phase κ ρ} (h : r.toPhase resting = some p) :
    p.kind = r.phase := by
  simp only [toPhase, Word.toPhase] at h
  split at h <;> cases h
  rfl

theorem toPhase_eq_new {resting} {r : Reported κ ρ} {p} (h : r.toPhase resting = some p) :
    ∃ kind reason message, p = .new resting kind reason message := by
  simp only [toPhase, Word.toPhase] at h
  split at h <;> cases h
  exact ⟨_, _, _, rfl⟩

theorem here_toPhase (resting : κ → Bool) {kind} (hkind : resting kind = false) (reason : ρ)
    (message said) :
    (here kind reason message said).toPhase resting =
      some (Phase.new resting kind reason message) := by
  simp [toPhase, Word.toPhase, here, Word.here, hkind]

end Reported

end MeisterStack.ControllerApi
