import Mathlib.Data.List.Dedup
import Mathlib.Data.List.Sort

/-!
# Where a router is built

Planning selects the gateway nodes of a router: its holders keep it while they are eligible, the
others are taken in the order of their load. `realise` carries the plan down, the nodes that are to
let go first, then the standbys and the active node last.
-/

namespace MeisterStack.ControllerApi

open List

structure Candidate where
  name : String
  alive : Bool
  schedulable : Bool
  unhealthy : List String
  accepts : List String
  physnets : List String

def Candidate.isAlive (c : Candidate) : Bool := c.alive && c.schedulable && c.unhealthy.isEmpty

def acceptsClass (accepts : List String) (class' : String) : Bool :=
  accepts.isEmpty || accepts.contains class'

namespace Gateway

def gatewayChassis : Nat := 2

def loadOf (load : List (String × Nat)) (name : String) : Nat := (load.lookup name).getD 0

def Before (load : List (String × Nat)) (c d : Candidate) : Prop :=
  loadOf load c.name < loadOf load d.name ∨
    loadOf load c.name = loadOf load d.name ∧ c.name ≤ d.name

instance (load) : DecidableRel (Before load) := fun c d =>
  inferInstanceAs (Decidable (loadOf load c.name < loadOf load d.name ∨
    loadOf load c.name = loadOf load d.name ∧ c.name ≤ d.name))

def gatewayCandidates (physnet class' : String) (refused : List String)
    (load : List (String × Nat)) (candidates : List Candidate) : List Candidate :=
  (candidates.filter fun c => c.isAlive && acceptsClass c.accepts class' &&
    !refused.contains c.name && c.physnets.contains physnet).insertionSort (Before load)

def soleGateway (physnet : String) (candidates : List Candidate) : Bool :=
  (candidates.filter fun c => c.physnets.contains physnet).length ≤ 1

def fill (planned : List String) (c : Candidate) : List String :=
  if planned.length ≥ gatewayChassis then planned
  else if planned.contains c.name then planned
  else planned ++ [c.name]

def planNodes (current : List String) (fit : List Candidate) : List String :=
  let kept := current.filter fun n => (fit.map Candidate.name).contains n
  (fit.foldl fill kept).take gatewayChassis

def activeNode (planned : List String) (fit : List Candidate) : Option String :=
  planned.find? fun n => fit.any fun c => c.name = n && c.alive

structure RouterPlan where
  nodes : List String
  active : Option String
  release : List String
  soleGateway : Bool

inductive RouterPhaseKind where
  | pending | provisioning | active | standby | failed | unknown
  deriving DecidableEq

def RouterPhaseKind.resting : RouterPhaseKind → Bool
  | .active | .standby => true
  | _ => false

inductive RouterReason where
  | unrecorded | awaitingNode | unplaced | dispatched | refused | silent
  -- words of a node
  | netnsGone | legGone | driverUnreachable
  deriving DecidableEq

structure RouterOutcome where
  built : List String := []
  activeNode : String := ""
  released : List String := []
  refused : List String := []
  phase : RouterPhaseKind := .pending
  reason : RouterReason := .unrecorded
  message : Option String := none

inductive Answer where
  | acked
  | cannotServe (why : String)
  | error (why : String)
  deriving DecidableEq

structure Answers where
  ensure : String → Answer
  destroy : String → Bool

def statusLine (node why : String) : String := node ++ ": " ++ why

variable (plan : RouterPlan)

def RouterPlan.ordered : List String :=
  (plan.nodes.filter fun n => some n ≠ plan.active) ++
    plan.nodes.filter fun n => some n = plan.active

def verdict (out : RouterOutcome) (unreachable : List String) :
    RouterPhaseKind × RouterReason :=
  if plan.nodes = [] then (.pending, .unplaced)
  else if out.built = [] then
    if unreachable = [] then (.failed, .refused) else (.unknown, .silent)
  else if out.activeNode = "" then (.standby, .unrecorded)
  else (.active, .unrecorded)

variable (answers : Answers)

def carryDown (acc : RouterOutcome × List String)
    (node : String) : RouterOutcome × List String :=
  let (out, unreachable) := acc
  match answers.ensure node with
  | .acked =>
    ({ out with
        built := out.built ++ [node]
        activeNode := if some node = plan.active then node else out.activeNode },
      unreachable)
  | .cannotServe why =>
    ({ out with
        refused := out.refused ++ [node]
        message := some (statusLine node why) }, unreachable)
  | .error why => ({ out with message := some (statusLine node why) }, unreachable ++ [node])

def realise : RouterOutcome :=
  let released := plan.release.filter answers.destroy
  let (out, unreachable) := plan.ordered.foldl (carryDown plan answers) ({ released }, [])
  let said := verdict plan out unreachable
  { out with
    phase := said.1
    reason := said.2 }

variable {plan : RouterPlan} {n : String}

theorem mem_ordered : n ∈ plan.ordered ↔ n ∈ plan.nodes := by
  simp only [RouterPlan.ordered, mem_append, mem_filter, decide_eq_true_eq]
  tauto

def Answers.acks (n : String) : Bool := answers.ensure n = .acked

def Answers.refuses (n : String) : Bool :=
  match answers.ensure n with
  | .cannotServe _ => true
  | .acked | .error _ => false

variable {answers : Answers}

theorem Answers.not_refuses_of_acks (h : answers.acks n) : answers.refuses n = false := by
  simp only [Answers.acks, decide_eq_true_eq] at h
  simp [Answers.refuses, h]

theorem foldl_carryDown (plan) (answers) (nodes : List String)
    (out) (unreachable : List String) :
    let after := (nodes.foldl (carryDown plan answers) (out, unreachable)).1
    after.built = out.built ++ nodes.filter answers.acks ∧
      after.refused = out.refused ++ nodes.filter answers.refuses ∧
      after.released = out.released := by
  induction nodes generalizing out unreachable with
  | nil => simp
  | cons node nodes ih =>
    simp only [foldl_cons, carryDown]
    cases hanswer : answers.ensure node <;> simp [ih, Answers.acks, Answers.refuses, hanswer]

theorem mem_realise_built : n ∈ (realise plan answers).built ↔ n ∈ plan.nodes ∧ answers.acks n := by
  have hfold := foldl_carryDown plan answers plan.ordered
    { released := plan.release.filter answers.destroy } []
  rw [show (realise plan answers).built = _ from hfold.1]
  simp [mem_ordered]

theorem mem_realise_refused :
    n ∈ (realise plan answers).refused ↔ n ∈ plan.nodes ∧ answers.refuses n := by
  have hfold := foldl_carryDown plan answers plan.ordered
    { released := plan.release.filter answers.destroy } []
  rw [show (realise plan answers).refused = _ from hfold.2.1]
  simp [mem_ordered]

theorem not_mem_refused_of_fit {physnet class' refused load candidates c}
    (h : c ∈ gatewayCandidates physnet class' refused load candidates) : c.name ∉ refused := by
  simp only [gatewayCandidates, mem_insertionSort, mem_filter, Bool.and_eq_true,
    Bool.not_eq_true', contains_eq_mem, decide_eq_false_iff_not] at h
  exact h.2.1.2

theorem mem_foldl_fill {fit : List Candidate} {planned} (h : n ∈ fit.foldl fill planned) :
    n ∈ planned ∨ ∃ c ∈ fit, c.name = n := by
  induction fit generalizing planned with
  | nil => exact .inl h
  | cons c fit ih =>
    rcases ih h with hn | ⟨d, hd, rfl⟩
    · unfold fill at hn
      split at hn
      · exact .inl hn
      · split at hn
        · exact .inl hn
        · rcases mem_append.mp hn with hn | hn
          · exact .inl hn
          · exact .inr ⟨c, mem_cons_self, (mem_singleton.mp hn).symm⟩
    · exact .inr ⟨d, mem_cons_of_mem _ hd, rfl⟩

theorem mem_fit_of_planned {current fit} (h : n ∈ planNodes current fit) :
    ∃ c ∈ fit, c.name = n := by
  rcases mem_foldl_fill (mem_of_mem_take h) with hn | hn
  · simp only [mem_filter, contains_eq_mem, mem_map, decide_eq_true_eq] at hn
    exact hn.2
  · exact hn

end Gateway

end MeisterStack.ControllerApi
