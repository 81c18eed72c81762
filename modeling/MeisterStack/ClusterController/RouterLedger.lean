import MeisterStack.Foundation.Machine
import MeisterStack.ControllerApi.Gateway

/-!
# The nodes that hold a router

A pass plans a router from what is stored and from the fleet, carries the plan down and writes what
became of it: `nodes` are its places, `releasing` the former ones that still owe a teardown.
-/

namespace MeisterStack.ClusterController.RouterLedger

open Foundation ControllerApi ControllerApi.Gateway List

structure ProviderNetwork where
  name : String
  physnet : String
  allocation : List String

structure RouterSpec where
  providerNetwork : String
  class' : String
  vni : Option Nat
  internalAddr : String

inductive Unplanned where
  | noNetwork (name : String)
  | noVni
  | noInternalAddr
  | noFreeAddress (network : String) (allocation : List String)
  | noGateway (physnet : String)
  | allRefused (physnet : String) (refused : List String)
  | noneAccepts (physnet class' : String) (claiming : List String)
  | allDown (physnet : String) (taking : List String)
  deriving DecidableEq

inductive Message where
  | unplanned (why : Unplanned)
  | line (text : String)
  deriving DecidableEq

structure RouterReported where
  node : String
  phase : RouterPhaseKind
  reason : RouterReason
  message : Option Message
  deriving DecidableEq

structure RouterStatus where
  reported : Option RouterReported
  observedGeneration : Nat
  externalAddr : String
  nodes : List String
  activeNode : String
  refused : List String
  releasing : List String

structure Router where
  generation : Nat
  spec : RouterSpec
  status : RouterStatus

def classRouter : String := "router"

def RouterSpec.class (spec : RouterSpec) : String :=
  if spec.class' = "" then classRouter else spec.class'

variable (router : Router)

def owed : List String := router.status.nodes ++ router.status.releasing

def gatewaySentence (physnet : String) (router : Router) (candidates : List Candidate) :
    Unplanned :=
  let claiming := candidates.filter fun c => c.physnets.contains physnet
  let taking := claiming.filter fun c => acceptsClass c.accepts router.spec.class
  if claiming = [] then .noGateway physnet
  else if router.status.refused ≠ [] then .allRefused physnet router.status.refused
  else if taking = [] then .noneAccepts physnet router.spec.class (claiming.map Candidate.name)
  else .allDown physnet (taking.map Candidate.name)

def planRouter (networks : List ProviderNetwork) (load : List (String × Nat))
    (candidates : List Candidate) : Except Unplanned RouterPlan :=
  match networks.find? fun n => n.name = router.spec.providerNetwork with
  | none => .error (.noNetwork router.spec.providerNetwork)
  | some network =>
    if router.spec.vni = none then .error .noVni
    else if router.spec.internalAddr = "" then .error .noInternalAddr
    else if router.status.externalAddr = "" then
      .error (.noFreeAddress network.name network.allocation)
    else
      let fit := gatewayCandidates network.physnet router.spec.class router.status.refused load
        candidates
      let nodes := planNodes router.status.nodes fit
      if nodes = [] then .error (gatewaySentence network.physnet router candidates)
      else
        .ok {
          nodes
          active := activeNode nodes fit
          release := (owed router).filter fun n =>
            !nodes.contains n && candidates.any fun c => c.name = n && c.alive
          soleGateway := soleGateway network.physnet candidates }

structure Placement where
  nodes : List String
  active : String
  refused : List String
  releasing : List String

def Placement.speaker (p : Placement) : String :=
  if p.active = "" then p.nodes.head?.getD "" else p.active

def note (phase : RouterPhaseKind) (reason : RouterReason)
    (message : Option Message) (placement : Option Placement) : Router :=
  let said : RouterReported :=
    ⟨(placement.map Placement.speaker).getD "", phase, reason, message⟩
  let unchanged := router.status.reported = some said &&
    placement.all (fun p => router.status.nodes = p.nodes && router.status.activeNode = p.active &&
      router.status.refused = p.refused && router.status.releasing = p.releasing) &&
    router.status.observedGeneration = router.generation
  if unchanged then router
  else
    let status := { router.status with
      reported := some said
      observedGeneration := router.generation }
    match placement with
    | none => { router with status }
    | some p =>
      { router with status := { status with
          nodes := p.nodes
          activeNode := p.active
          refused := p.refused
          releasing := p.releasing } }

def sorted (names : List String) : List String := names.insertionSort (· ≤ ·)

def stillOwed (planned released : List String) : List String :=
  sorted ((owed router).filter fun n => !planned.contains n && !released.contains n).dedup

def addRefusals (refused : List String) (new : List String) : List String :=
  sorted
    (new.foldl (fun refused n => if refused.contains n then refused else refused ++ [n]) refused)

def settle (plan : RouterPlan) (outcome : RouterOutcome) : Router :=
  let refused := addRefusals router.status.refused outcome.refused
  let built := plan.nodes.filter fun n => !refused.contains n
  note router outcome.phase outcome.reason (outcome.message.map .line)
    (some ⟨built, outcome.activeNode, refused, stillOwed router plan.nodes outcome.released⟩)

structure State where
  router : Router
  held : List String

structure Fleet where
  networks : List ProviderNetwork
  load : List (String × Nat)
  candidates : List Candidate
  lately : Bool

inductive Event where
  | pass (fleet : Fleet) (answers : Answers)
  -- a client or the cloud edits the router, or its address is settled
  | edit (spec : RouterSpec) (externalAddr : String)
  -- a new session of the node: its refusal is forgotten
  | hello (node : String)

def plan (fleet : Fleet) : Except Unplanned RouterPlan :=
  planRouter router fleet.networks fleet.load fleet.candidates

variable (s : State)

def carryOut (plan : RouterPlan) (answers : Answers) : State :=
  let outcome := realise plan answers
  ⟨settle s.router plan outcome,
    (s.held.filter fun n => !outcome.released.contains n) ++ outcome.built⟩

def step : Event → Option State
  | .pass fleet answers =>
    match plan s.router fleet with
    | .error why =>
      some { s with router := note s.router .pending .unplaced (some (.unplanned why)) none }
    | .ok plan => some (if fleet.lately then s else carryOut s plan answers)
  | .edit spec externalAddr =>
    some { s with router := { s.router with
      generation := s.router.generation + 1
      spec
      status := { s.router.status with externalAddr } } }
  | .hello node =>
    some { s with router := { s.router with
      status := { s.router.status with
        refused := s.router.status.refused.filter fun n => n ≠ node } } }

def machine : Machine State Event := ⟨step⟩

variable {n : String}

@[simp] theorem mem_sorted {names} : n ∈ sorted names ↔ n ∈ names :=
  mem_insertionSort _

variable {router : Router}

theorem mem_stillOwed {planned released} :
    n ∈ stillOwed router planned released ↔
      (n ∈ router.status.nodes ∨ n ∈ router.status.releasing) ∧ n ∉ planned ∧ n ∉ released := by
  rw [stillOwed, mem_sorted, mem_dedup, mem_filter, owed, mem_append]
  simp

theorem mem_addRefusals {refused new} : n ∈ addRefusals refused new ↔ n ∈ refused ∨ n ∈ new := by
  rw [addRefusals, mem_sorted]
  induction new generalizing refused with
  | nil => simp
  | cons m new ih =>
    rw [foldl_cons, ih]
    split <;> rename_i hm
    · simp only [contains_eq_mem, decide_eq_true_eq] at hm
      aesop
    · simp only [mem_append, mem_cons, not_mem_nil, or_false]
      tauto

theorem note_placement (router phase reason message p) :
    (note router phase reason message (some p)).status.nodes = p.nodes ∧
      (note router phase reason message (some p)).status.releasing = p.releasing := by
  unfold note
  dsimp only
  split
  · rename_i hsame
    simp only [Option.all_some, Bool.and_eq_true, decide_eq_true_eq] at hsame
    exact ⟨hsame.1.2.1.1.1, hsame.1.2.2⟩
  · exact ⟨rfl, rfl⟩

theorem note_none (router phase reason message) :
    (note router phase reason message none).status.nodes = router.status.nodes ∧
      (note router phase reason message none).status.releasing = router.status.releasing := by
  unfold note
  dsimp only
  split <;> exact ⟨rfl, rfl⟩

variable {p : RouterPlan}

theorem not_refused_of_planned {fleet} (h : plan router fleet = .ok p) (hn : n ∈ p.nodes) :
    n ∉ router.status.refused := by
  unfold plan planRouter at h
  split at h
  · cases h
  · split at h
    · cases h
    · split at h
      · cases h
      · split at h
        · cases h
        · dsimp only at h
          split at h <;> cases h
          obtain ⟨c, hc, rfl⟩ := mem_fit_of_planned hn
          exact not_mem_refused_of_fit hc

def Listed : Prop :=
  ∀ n ∈ s.held, n ∈ s.router.status.nodes ∨ n ∈ s.router.status.releasing

def Apart : Prop := ∀ n ∈ s.router.status.nodes, n ∉ s.router.status.releasing

def NoHolderRefuses : Event → Prop
  | .pass fleet answers =>
    match plan s.router fleet with
    | .error _ => True
    | .ok p => fleet.lately = false → ∀ n ∈ p.nodes, answers.refuses n → n ∉ s.held
  | .edit _ _ | .hello _ => True

instance (s event) : Decidable (NoHolderRefuses s event) :=
  match event with
  | .pass fleet answers =>
    match h : plan s.router fleet with
    | .error _ => isTrue (by simp [NoHolderRefuses, h])
    | .ok p => decidable_of_iff
        (fleet.lately = false → ∀ n ∈ p.nodes, answers.refuses n → n ∉ s.held)
        (by simp [NoHolderRefuses, h])
  | .edit _ _ | .hello _ => isTrue trivial

theorem settle_nodes {outcome} :
    n ∈ (settle router p outcome).status.nodes ↔
      n ∈ p.nodes ∧ n ∉ router.status.refused ∧ n ∉ outcome.refused := by
  rw [settle, (note_placement _ _ _ _ _).1]
  simp [mem_addRefusals]

theorem settle_releasing (router p outcome) :
    (settle router p outcome).status.releasing = stillOwed router p.nodes outcome.released := by
  rw [settle, (note_placement _ _ _ _ _).2]

theorem carryOut_apart (s p answers) : Apart (carryOut s p answers) := by
  intro n hn hreleasing
  simp only [carryOut, settle_releasing, mem_stillOwed] at hreleasing
  exact hreleasing.2.1 (settle_nodes.mp hn).1

variable {s : State}

theorem carryOut_listed {fleet answers} (hs : Listed s) (hplan : plan s.router fleet = .ok p)
    (hholders : ∀ n ∈ p.nodes, answers.refuses n → n ∉ s.held) : Listed (carryOut s p answers) := by
  have hplaced : ∀ n ∈ p.nodes, answers.refuses n = false →
      n ∈ (settle s.router p (realise p answers)).status.nodes := by
    intro n hn hserves
    refine settle_nodes.mpr ⟨hn, not_refused_of_planned hplan hn, fun hrefused => ?_⟩
    rw [(mem_realise_refused.mp hrefused).2] at hserves
    cases hserves
  intro n hn
  rcases mem_append.mp hn with hold | hbuilt
  · simp only [mem_filter, contains_eq_mem, Bool.not_eq_true',
      decide_eq_false_iff_not] at hold
    obtain ⟨hheld, hkept⟩ := hold
    by_cases hplanned : n ∈ p.nodes
    · left
      apply hplaced n hplanned
      by_contra hrefuses
      exact hholders n hplanned (by simpa using hrefuses) hheld
    · right
      simp only [carryOut, settle_releasing, mem_stillOwed]
      exact ⟨hs n hheld, hplanned, hkept⟩
  · obtain ⟨hplanned, hacks⟩ := mem_realise_built.mp hbuilt
    exact .inl (hplaced n hplanned (Answers.not_refuses_of_acks hacks))

theorem step_apart {s' event} (hs : Apart s) (h : step s event = some s') : Apart s' := by
  cases event with
  | pass fleet answers =>
    simp only [step] at h
    split at h
    · cases h
      intro n
      rw [(note_none _ _ _ _).1, (note_none _ _ _ _).2]
      exact hs n
    · cases h
      split
      · exact hs
      · exact carryOut_apart s _ answers
  | edit | hello =>
    cases h
    exact hs

theorem step_listed {s' event} (hs : Listed s) (hguard : NoHolderRefuses s event)
    (h : step s event = some s') : Listed s' := by
  cases event with
  | pass =>
    simp only [step] at h
    split at h
    · cases h
      intro n
      rw [(note_none _ _ _ _).1, (note_none _ _ _ _).2]
      exact hs n
    · rename_i p hplan
      cases h
      simp only [NoHolderRefuses, hplan] at hguard
      split
      · exact hs
      · rename_i hlately
        exact carryOut_listed hs hplan (hguard (by simpa using hlately))
  | edit | hello =>
    cases h
    exact hs

/-- Any sequence of passes over a router, against any fleet and with any answers of the nodes,
beside edits of the router and new sessions. No node is ever on both lists. Every node that acked
the router and has not acked its teardown since is on one, provided no node refuses with
`CannotServe` what it holds. -/
theorem router_ledger_complete {s s' : State} {events : List Event} (hlisted : Listed s)
    (hapart : Apart s) (hrun : machine.run s events = some s') :
    (∀ n ∈ s'.router.status.nodes, n ∉ s'.router.status.releasing) ∧
      (machine.RunMeets NoHolderRefuses s events →
        ∀ n ∈ s'.held, n ∈ s'.router.status.nodes ∨ n ∈ s'.router.status.releasing) := by
  have hapartKept : ∀ {s event s'}, Apart s → machine.step s event = some s' → Apart s' :=
    fun hs h => step_apart hs h
  have hlistedKept : ∀ {s event s'}, Listed s → NoHolderRefuses s event →
      machine.step s event = some s' → Listed s' := fun hs hguard h => step_listed hs hguard h
  exact ⟨Machine.always hapartKept hapart hrun,
    fun hmeets => Machine.invariant hlistedKept hlisted hmeets hrun⟩

def gateway (name : String) (alive : Bool) : Candidate := ⟨name, alive, true, [], [], ["wan"]⟩

def fleetOf (candidates : List Candidate) : Fleet := ⟨[⟨"out", "wan", []⟩], [], candidates, false⟩

def answering (acks : List String) (refusing : List String) : Answers where
  ensure n := if refusing.contains n then .cannotServe "" else if acks.contains n then .acked
    else .error ""
  destroy n := acks.contains n

def fresh : State :=
  ⟨⟨1, ⟨"out", "", some 7, "10.0.0.1/24"⟩, ⟨none, 0, "192.0.2.9/24", [], "", [], []⟩⟩, []⟩

def failsOver : List Event :=
  [.pass (fleetOf [gateway "a" true]) (answering ["a"] []),
    .pass (fleetOf [gateway "a" false, gateway "b" true]) (answering ["b"] [])]

theorem router_ledger_complete_failover : ∃ s', machine.run fresh failsOver = some s' ∧
    s'.held = ["a", "b"] ∧ s'.router.status.nodes = ["b"] ∧ s'.router.status.releasing = ["a"] ∧
    ∀ n ∈ s'.held, n ∈ s'.router.status.nodes ∨ n ∈ s'.router.status.releasing := by
  have hmeets : machine.RunMeets NoHolderRefuses fresh failsOver := by decide
  refine ⟨_, rfl, rfl, rfl, rfl, ?_⟩
  exact (router_ledger_complete (by simp [Listed, fresh]) (by simp [Apart, fresh]) rfl).2 hmeets

def refusesLater : List Event :=
  [.pass (fleetOf [gateway "a" true]) (answering ["a"] []),
    .pass (fleetOf [gateway "a" true]) (answering [] ["a"])]

theorem refusing_holder_is_dropped : ∃ s', machine.run fresh refusesLater = some s' ∧
    s'.held = ["a"] ∧ s'.router.status.nodes = [] ∧ s'.router.status.releasing = [] :=
  ⟨_, rfl, rfl, rfl, rfl⟩

end MeisterStack.ClusterController.RouterLedger
