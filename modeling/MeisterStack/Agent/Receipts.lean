import Mathlib.Data.List.AList
import MeisterStack.Agent.Lifecycle

/-!
# Attempt receipts

A receipt is keyed by the VM id and the attempt, and no command removes one. `claim_migration` is
one write transaction, run again after an I/O error of the database.
-/

namespace MeisterStack.Agent

open Foundation List Option Function

abbrev VmId := String

def receiptKey (id : VmId) (attempt : String) : String := id ++ "/" ++ attempt

inductive Once where
  | ok
  | fails (io landed : Bool)

structure Faults where
  first : Once
  reopens : Bool
  second : Once

section Writing

variable {σ α : Type} (db : σ) (op : σ → σ × α)

def once : Once → σ × Except Bool α
  | .ok => ((op db).1, .ok (op db).2)
  | .fails io landed => (if landed then (op db).1 else db, .error io)

def writing (faults : Faults) : σ × Option α :=
  match once db op faults.first with
  | (db, .ok value) => (db, some value)
  | (db, .error io) =>
    if io && faults.reopens then
      match once db op faults.second with
      | (db, .ok value) => (db, some value)
      | (db, .error _) => (db, none)
    else (db, none)

theorem writing_cases (faults) :
    ∃ before, (before = db ∨ before = (op db).1) ∧
      (writing db op faults = (before, none) ∨
        writing db op faults = ((op before).1, none) ∨
        writing db op faults = ((op before).1, some (op before).2)) := by
  obtain ⟨first, reopens, second⟩ := faults
  cases first with
  | ok => exact ⟨db, .inl rfl, .inr (.inr rfl)⟩
  | fails io landed =>
    refine ⟨if landed then (op db).1 else db, by cases landed <;> simp, ?_⟩
    simp only [writing, once]
    cases io && reopens with
    | false => exact .inl rfl
    | true =>
      cases second with
      | ok => exact .inr (.inr rfl)
      | fails io' landed' => cases landed' <;> simp

end Writing

abbrev Receipts := AList fun _ : String => Bool

def claimOnce (key : String) (cancel : Bool) (table : Receipts) : Receipts × Bool :=
  let fresh := (table.lookup key).isNone
  (if fresh || cancel then table.insert key cancel else table, fresh)

def claimMigration (table : Receipts) (id : VmId) (attempt : String) (cancel : Bool)
    (faults : Faults) : Receipts × Option Bool :=
  if attempt = "" then (table, none)
  else writing table (claimOnce (receiptKey id attempt) cancel) faults

variable {cancel : Bool} {table : Receipts}

theorem claimOnce_fresh {key} : (claimOnce key cancel table).2 ↔ key ∉ table := by
  simp [claimOnce, AList.lookup_eq_none]

theorem mem_claimOnce {key k} : k ∈ (claimOnce key cancel table).1 ↔ k = key ∨ k ∈ table := by
  unfold claimOnce
  dsimp only
  split_ifs with h
  · exact AList.mem_insert table
  · simp only [Bool.or_eq_true, not_or, Bool.not_eq_true, isNone_eq_false_iff] at h
    have hin := AList.lookup_isSome.mp h.1
    exact ⟨.inr, fun hk => hk.elim (fun he => he ▸ hin) id⟩

variable {id : VmId} {attempt : String}

theorem claimMigration_spec {table' faults answer}
    (h : claimMigration table id attempt cancel faults = (table', answer)) :
    (∀ k ∈ table, k ∈ table') ∧
      (answer.isSome → receiptKey id attempt ∈ table') ∧
      (answer = some true → receiptKey id attempt ∉ table) := by
  unfold claimMigration at h
  split_ifs at h with hempty
  · cases h
    simp
  obtain ⟨before, hbefore, hcases⟩ :=
    writing_cases table (claimOnce (receiptKey id attempt) cancel) faults
  have hgrows : ∀ k ∈ table, k ∈ before := by
    rcases hbefore with rfl | rfl
    · exact fun k hk => hk
    · exact fun k hk => mem_claimOnce.mpr (.inr hk)
  have hgrown : ∀ k ∈ table, k ∈ (claimOnce (receiptKey id attempt) cancel before).1 :=
    fun k hk => mem_claimOnce.mpr (.inr (hgrows k hk))
  rw [h] at hcases
  rcases hcases with hc | hc | hc
  · cases hc
    exact ⟨hgrows, by simp, by simp⟩
  · cases hc
    exact ⟨hgrown, by simp, by simp⟩
  · cases hc
    refine ⟨hgrown, fun _ => mem_claimOnce.mpr (.inl rfl), fun hfresh hin => ?_⟩
    exact claimOnce_fresh.mp (some.inj hfresh) (hgrows _ hin)

inductive Role where
  | receive
  | send
  | cleanup
  deriving DecidableEq

structure Claim where
  id : VmId
  attempt : String
  role : Role
  deriving DecidableEq

structure Node where
  receipts : Receipts
  vms : VmId → State
  claims : List Claim

namespace Node

variable (n : Node)

def claim (c : Claim) (faults : Faults) (next : State → State) : Node :=
  match claimMigration n.receipts c.id c.attempt (c.role = .cleanup) faults with
  | (receipts, some fresh) =>
    if fresh || c.role = .cleanup then
      { receipts
        vms := update n.vms c.id (next (n.vms c.id))
        claims := n.claims ++ [c] }
    else { n with receipts }
  | (receipts, none) => { n with receipts }

def prepareMigration (id : VmId) (attempt listen : String) (admitted : Bool)
    (faults : Faults) : Node :=
  let vm := n.vms id
  if vm.held.isSome || vm.starting || attempt = "" || vm.record.isSome || !admitted then n
  else
    n.claim ⟨id, attempt, .receive⟩ faults fun vm =>
      { vm with receipts := attempt :: vm.receipts }.goto (.awaiting attempt listen true)
        .announce

def toSend (r : VmRecord) (attempt peer : String) : Option String → VmRecord × Stage
  | some why =>
    ({ r with
      migration := some ⟨attempt, peer, false, false, none⟩, sendFailed := some why }, .save)
  | none =>
    ({ r with
      migration := some ⟨attempt, peer, false, false, none⟩, sendFailed := none
      operation := some (.migratingOut peer) }, .engage)

def beginMigrateOut (id : VmId) (attempt peer : String)
    (refusal : Option String) (faults : Faults) : Node :=
  let vm := n.vms id
  if attempt = "" || vm.held.isSome || vm.starting then n
  else
    match vm.record with
    | none => n
    | some r =>
      if r.phase ≠ .provisioned || r.vmmPid.isNone || r.operation.isSome then n
      else
        n.claim ⟨id, attempt, .send⟩ faults fun vm =>
          { vm with receipts := attempt :: vm.receipts }.goto
            (toSend r attempt peer refusal).1 (toSend r attempt peer refusal).2

def cleanupMigration (id : VmId) (attempt : String) (source : Bool)
    (guest : Option VmState) (faults : Faults) : Node :=
  let vm := n.vms id
  if vm.held.isSome || vm.starting || attempt = "" then n
  else
    match vm.record with
    | none =>
      n.claim ⟨id, attempt, .cleanup⟩ faults fun vm =>
        { vm with receipts := attempt :: vm.receipts }
    | some r =>
      if ownsCleanup r attempt source guest then
        n.claim ⟨id, attempt, .cleanup⟩ faults fun vm =>
          { vm with receipts := attempt :: vm.receipts }.goto r .killSlice
      else n

end Node

def Event.local : Event → Bool
  | .prepareMigration .. | .cleanupMigration .. | .migrateOut .. | .crash => false
  | _ => true

inductive NodeEvent where
  | vm (id : VmId) (e : Event)
  | crash
  | prepareMigration (id : VmId) (attempt listen : String) (admitted : Bool) (faults : Faults)
  | migrateOut (id : VmId) (attempt peer : String) (refusal : Option String) (faults : Faults)
  | cleanupMigration (id : VmId) (attempt : String) (source : Bool) (guest : Option VmState)
      (faults : Faults)

def Node.step (n : Node) : NodeEvent → Option Node
  | .vm id e =>
    if e.local then
      (Agent.step (n.vms id) e).map fun s => { n with vms := update n.vms id s }
    else none
  | .crash => some { n with vms := fun id => (Agent.step (n.vms id) .crash).getD (n.vms id) }
  | .prepareMigration id attempt listen admitted faults =>
    some (n.prepareMigration id attempt listen admitted faults)
  | .migrateOut id attempt peer refusal faults =>
    some (n.beginMigrateOut id attempt peer refusal faults)
  | .cleanupMigration id attempt source guest faults =>
    some (n.cleanupMigration id attempt source guest faults)

def node : Machine Node NodeEvent := ⟨Node.step⟩

def Node.start (receipts : Receipts) (records : VmId → Option VmRecord) : Node :=
  { receipts, vms := fun id => initial (records id) [], claims := [] }

theorem Node.claim_cases (n : Node) (c : Claim) (faults) (next : State → State) :
    ∃ receipts, (∀ k ∈ n.receipts, k ∈ receipts) ∧
      (n.claim c faults next = { n with receipts } ∨
        receiptKey c.id c.attempt ∈ receipts ∧
        (c.role ≠ .cleanup → receiptKey c.id c.attempt ∉ n.receipts) ∧
        n.claim c faults next =
          { receipts
            vms := update n.vms c.id (next (n.vms c.id))
            claims := n.claims ++ [c] }) := by
  unfold claim
  cases hclaim : claimMigration n.receipts c.id c.attempt (c.role = .cleanup) faults with
  | mk receipts answer =>
    obtain ⟨hgrows, hleft, hfresh⟩ := claimMigration_spec hclaim
    refine ⟨receipts, hgrows, ?_⟩
    cases answer with
    | none => exact .inl rfl
    | some =>
      dsimp only
      split_ifs with hgo
      · refine .inr ⟨hleft rfl, fun hrole => hfresh ?_, rfl⟩
        simpa [hrole] using hgo
      · exact .inl rfl

inductive NodeEffect (n : Node) : Node → Prop
  | runs (id : VmId) (e : Event) (s : State) : e.local →
      Agent.step (n.vms id) e = some s →
      NodeEffect n { n with vms := update n.vms id s }
  | crashes (vms : VmId → State) :
      (∀ id, Agent.step (n.vms id) .crash = some (vms id)) → NodeEffect n { n with vms }
  | refused (receipts : Receipts) : (∀ k ∈ n.receipts, k ∈ receipts) →
      NodeEffect n { n with receipts }
  | claims (receipts : Receipts) (c : Claim) (e : Event) (s : State) :
      (∀ k ∈ n.receipts, k ∈ receipts) → receiptKey c.id c.attempt ∈ receipts →
      (c.role ≠ .cleanup → receiptKey c.id c.attempt ∉ n.receipts) →
      s.receipts = c.attempt :: (n.vms c.id).receipts →
      (c.attempt ∉ (n.vms c.id).receipts ∨ c.role = .cleanup →
        Agent.step (n.vms c.id) e = some s) →
      NodeEffect n
        { receipts, vms := update n.vms c.id s, claims := n.claims ++ [c] }

theorem Node.claim_effect (n c faults) (next : State → State) (e)
    (hreceipts : (next (n.vms c.id)).receipts = c.attempt :: (n.vms c.id).receipts)
    (hstep : c.attempt ∉ (n.vms c.id).receipts ∨ c.role = .cleanup →
      Agent.step (n.vms c.id) e = some (next (n.vms c.id))) :
    NodeEffect n (n.claim c faults next) := by
  obtain ⟨receipts, hgrows, hcases | ⟨hleft, hfresh, hcases⟩⟩ := n.claim_cases c faults next
  · rw [hcases]
    exact .refused receipts hgrows
  · rw [hcases]
    exact .claims receipts c e _ hgrows hleft hfresh hreceipts hstep

theorem NodeEffect.same (n) : NodeEffect n n := .refused n.receipts fun _ hk => hk

theorem prepareMigration_effect (n id attempt listen admitted faults) :
    NodeEffect n (n.prepareMigration id attempt listen admitted faults) := by
  unfold Node.prepareMigration
  dsimp only
  split_ifs with hchecks
  · exact .same n
  · simp only [Bool.or_eq_true, decide_eq_true_eq, not_or, Bool.not_eq_true] at hchecks
    obtain ⟨⟨⟨⟨hheld, hstarting⟩, hattempt⟩, hrecord⟩, -⟩ := hchecks
    refine n.claim_effect _ faults _ (.prepareMigration attempt listen) rfl fun hnew => ?_
    have hnew : attempt ∉ (n.vms id).receipts := hnew.resolve_right (by simp)
    simp [Agent.step, Agent.prepareMigration, hheld, hstarting, hattempt, hrecord, hnew]

theorem beginMigrateOut_node_effect (n id attempt peer refusal faults) :
    NodeEffect n (n.beginMigrateOut id attempt peer refusal faults) := by
  unfold Node.beginMigrateOut
  dsimp only
  split_ifs with hlock
  · exact .same n
  split
  · exact .same n
  rename_i r hr
  split_ifs with hchecks
  · exact .same n
  simp only [Bool.or_eq_true, decide_eq_true_eq, not_or, Bool.not_eq_true] at hlock
  refine n.claim_effect _ faults _ (.migrateOut attempt peer refusal) rfl fun hnew => ?_
  have hnew : attempt ∉ (n.vms id).receipts := hnew.resolve_right (by simp)
  simp only [Bool.or_eq_true, decide_eq_true_eq, not_or, isNone_iff_eq_none, ne_eq,
    not_not, Bool.not_eq_true] at hchecks
  cases refusal <;>
    simp [Agent.step, State.withRecord, Agent.beginMigrateOut, Node.toSend, hlock, hr, hchecks,
      hnew]

theorem cleanupMigration_effect (n id attempt source guest faults) :
    NodeEffect n (n.cleanupMigration id attempt source guest faults) := by
  unfold Node.cleanupMigration
  dsimp only
  split_ifs with hlock
  · exact .same n
  simp only [Bool.or_eq_true, decide_eq_true_eq, not_or, Bool.not_eq_true] at hlock
  split
  · rename_i hr
    refine n.claim_effect _ faults _ (.cleanupMigration attempt source guest) rfl fun _ => ?_
    simp [Agent.step, Agent.cleanupMigration, hlock, hr]
  · rename_i r hr
    split_ifs with howns
    · refine n.claim_effect _ faults _ (.cleanupMigration attempt source guest) rfl fun _ => ?_
      simp [Agent.step, Agent.cleanupMigration, hlock, hr, howns]
    · exact .same n

variable {n n' : Node}

theorem node_effect {e} (h : node.step n e = some n') : NodeEffect n n' := by
  cases e with
  | vm id e =>
    simp only [node, Node.step] at h
    split_ifs at h with hlocal
    obtain ⟨s, hs, rfl⟩ := map_eq_some_iff.mp h
    exact .runs id e s hlocal hs
  | crash =>
    cases h
    exact .crashes _ fun id => rfl
  | prepareMigration id attempt listen admitted faults =>
    cases h
    exact prepareMigration_effect n id attempt listen admitted faults
  | migrateOut id attempt peer refusal faults =>
    cases h
    exact beginMigrateOut_node_effect n id attempt peer refusal faults
  | cleanupMigration id attempt source guest faults =>
    cases h
    exact cleanupMigration_effect n id attempt source guest faults

theorem advance_receipts (s r stage o) : (advance s r stage o).receipts = s.receipts := by
  have hfails : ∀ (t : State) (q : VmRecord) (cause : Cause),
      (t.chainFails q cause).receipts = t.receipts := by
    intro t q cause
    cases cause <;> rfl
  cases stage <;> cases o <;> simp only [advance, State.acquire] <;> (try split) <;>
    simp [hfails, State.put, State.goto, State.done, State.on]

theorem execute_receipts (s r a) : (execute s r a).receipts = s.receipts := by
  cases a <;> rfl

theorem step_receipts {s s' e} (hlocal : e.local) (h : Agent.step s e = some s') :
    s'.receipts = s.receipts := by
  cases e with
  | prepareMigration | cleanupMigration | migrateOut | crash => cases hlocal
  | provision =>
    simp only [Agent.step, provision] at h
    split_ifs at h
    cases h
    split <;> rfl
  | claim | setDesired | sendOverdue =>
    obtain ⟨-, r, -, h⟩ := withRecord_eq_some h
    cases h
    rfl
  | syncState =>
    obtain ⟨-, r, -, h⟩ := withRecord_eq_some h
    split_ifs at h
    cases h
    rfl
  | execute =>
    obtain ⟨-, r, -, h⟩ := withRecord_eq_some h
    cases h
    exact execute_receipts s r _
  | observeSend =>
    obtain ⟨-, r, -, h⟩ := withRecord_eq_some h
    obtain ⟨r', -, rfl⟩ := map_eq_some_iff.mp h
    rfl
  | quarantine =>
    obtain ⟨r, -, rfl⟩ := map_eq_some_iff.mp h
    rfl
  | startup =>
    simp only [Agent.step] at h
    split at h <;> cases h
    rfl
  | step =>
    obtain ⟨held, -, rfl⟩ := map_eq_some_iff.mp h
    exact advance_receipts _ _ _ _
  | exit =>
    cases h
    rfl
  | arrive =>
    simp only [Agent.step] at h
    split_ifs at h
    cases h
    rfl

def Claim.Before (c d : Claim) : Prop :=
  c.id = d.id → c.attempt = d.attempt → d.role = .cleanup

structure Node.Inv (n : Node) : Prop where
  spent : ∀ c ∈ n.claims, receiptKey c.id c.attempt ∈ n.receipts
  order : n.claims.Pairwise Claim.Before
  kept : ∀ id, ∀ attempt ∈ (n.vms id).receipts, receiptKey id attempt ∈ n.receipts

theorem Node.inv_start (receipts) (records : VmId → Option VmRecord) :
    (Node.start receipts records).Inv :=
  ⟨by simp [start], by simp [start], by simp [start, initial]⟩

theorem Node.Inv.step (hn : n.Inv) (he : NodeEffect n n') : n'.Inv := by
  cases he with
  | runs id e s hlocal hs =>
    refine ⟨hn.spent, hn.order, fun id' attempt hin => ?_⟩
    by_cases hid : id' = id
    · subst hid
      simp only [update_self, step_receipts hlocal hs] at hin
      exact hn.kept id' attempt hin
    · simp only [update_of_ne hid] at hin
      exact hn.kept id' attempt hin
  | crashes vms hvms =>
    refine ⟨hn.spent, hn.order, fun id attempt hin => hn.kept id attempt ?_⟩
    have hcrash := some.inj (hvms id)
    simpa [← hcrash] using hin
  | refused receipts hgrows =>
    exact ⟨fun c hc => hgrows _ (hn.spent c hc), hn.order,
      fun id attempt hin => hgrows _ (hn.kept id attempt hin)⟩
  | claims receipts c e s hgrows hleft hfresh hreceipts _ =>
    refine ⟨fun d hd => ?_, ?_, fun id attempt hin => ?_⟩
    · rcases mem_append.mp hd with hd | hd
      · exact hgrows _ (hn.spent d hd)
      · obtain rfl := mem_singleton.mp hd
        exact hleft
    · refine pairwise_append.mpr ⟨hn.order, pairwise_singleton _ _, ?_⟩
      intro d hd c' hc' hid hattempt
      obtain rfl := mem_singleton.mp hc'
      -- the receipt of `d` is there, so a claim that has to be fresh is refused
      by_contra hrole
      exact hfresh hrole (hid ▸ hattempt ▸ hn.spent d hd)
    · by_cases hid : id = c.id
      · subst hid
        simp only [update_self, hreceipts, mem_cons] at hin
        rcases hin with rfl | hin
        · exact hleft
        · exact hgrows _ (hn.kept _ attempt hin)
      · simp only [update_of_ne hid] at hin
        exact hgrows _ (hn.kept id attempt hin)

theorem Node.inv_run {receipts records es}
    (hrun : node.run (Node.start receipts records) es = some n) : n.Inv :=
  Machine.always (fun hn h => hn.step (node_effect h)) (Node.inv_start receipts records) hrun

theorem Node.claim_refused {c} (hrole : c.role ≠ .cleanup)
    (hspent : receiptKey c.id c.attempt ∈ n.receipts) (faults) (next : State → State) :
    (n.claim c faults next).vms = n.vms := by
  obtain ⟨receipts, -, hcases | ⟨-, hfresh, -⟩⟩ := n.claim_cases c faults next
  · rw [hcases]
  · exact absurd hspent (hfresh hrole)

theorem Node.prepareMigration_spent (hspent : receiptKey id attempt ∈ n.receipts)
    (listen admitted faults) :
    (n.prepareMigration id attempt listen admitted faults).vms = n.vms := by
  unfold prepareMigration
  dsimp only
  split_ifs
  · rfl
  · exact claim_refused (by simp) hspent faults _

theorem Node.beginMigrateOut_spent (hspent : receiptKey id attempt ∈ n.receipts)
    (peer refusal faults) : (n.beginMigrateOut id attempt peer refusal faults).vms = n.vms := by
  unfold beginMigrateOut
  dsimp only
  split_ifs
  · rfl
  split
  · rfl
  split_ifs
  · rfl
  · exact claim_refused (by simp) hspent faults _

theorem count_claim_le_one {claims : List Claim} (horder : claims.Pairwise Claim.Before)
    {c : Claim} (hrole : c.role ≠ .cleanup) : claims.count c ≤ 1 := by
  induction claims with
  | nil => simp
  | cons d claims ih =>
    obtain ⟨hd, horder⟩ := pairwise_cons.mp horder
    by_cases hdc : d = c
    · subst hdc
      have hnot : d ∉ claims := fun hin => hrole (hd d hin rfl rfl)
      simp [count_eq_zero.mpr hnot]
    · simpa [count_cons_of_ne hdc] using ih horder

/-- At most one claim of each role is granted for an attempt and none after its cleanup
claimed it, and then the commands of the attempt leave every VM as it is. -/
theorem attempt_claimed_once {receipts : Receipts} {records : VmId → Option VmRecord}
    {es : List NodeEvent} {n : Node} (hrun : node.run (Node.start receipts records) es = some n)
    (id : VmId) (attempt : String) :
    (n.claims.count ⟨id, attempt, .receive⟩ ≤ 1 ∧ n.claims.count ⟨id, attempt, .send⟩ ≤ 1) ∧
    (∀ before after, n.claims = before ++ ⟨id, attempt, .cleanup⟩ :: after →
      ⟨id, attempt, .receive⟩ ∉ after ∧ ⟨id, attempt, .send⟩ ∉ after) ∧
    (⟨id, attempt, .cleanup⟩ ∈ n.claims → ∀ n',
      (∀ listen admitted faults,
        node.step n (.prepareMigration id attempt listen admitted faults) = some n' →
          n'.vms = n.vms) ∧
      (∀ peer refusal faults,
        node.step n (.migrateOut id attempt peer refusal faults) = some n' →
          n'.vms = n.vms)) := by
  have hinv := Node.inv_run hrun
  refine ⟨⟨?_, ?_⟩, fun before after hclaims => ?_, fun hcleanup n' => ⟨?_, ?_⟩⟩
  · exact count_claim_le_one hinv.order (by simp)
  · exact count_claim_le_one hinv.order (by simp)
  · have horder := hinv.order
    rw [hclaims] at horder
    have hafter := (pairwise_cons.mp (pairwise_append.mp horder).2.1).1
    exact ⟨fun hin => absurd (hafter _ hin rfl rfl) (by simp),
      fun hin => absurd (hafter _ hin rfl rfl) (by simp)⟩
  · rintro listen admitted faults h
    cases h
    exact Node.prepareMigration_spent (hinv.spent _ hcleanup) listen admitted faults
  · rintro peer refusal faults h
    cases h
    exact Node.beginMigrateOut_spent (hinv.spent _ hcleanup) peer refusal faults

private def noFaults : Faults := ⟨.ok, true, .ok⟩

private def delayedRun : List NodeEvent :=
  [.vm "a" (.startup true),
    .prepareMigration "a" "m" "tcp:1" true ⟨.fails true true, false, .ok⟩,
    .cleanupMigration "a" "m" false none noFaults, .crash, .vm "a" (.startup true)]

theorem attempt_claimed_once_delayed :
    ∃ n, node.run (Node.start ∅ fun _ => none) delayedRun = some n ∧
      n.claims = [⟨"a", "m", .cleanup⟩] ∧
      ∀ n', node.step n (.prepareMigration "a" "m" "tcp:1" true noFaults) = some n' →
        n'.vms = n.vms := by
  have hrun : ∃ n, node.run (Node.start ∅ fun _ => none) delayedRun = some n ∧
      n.claims = [⟨"a", "m", .cleanup⟩] := ⟨_, rfl, rfl⟩
  obtain ⟨n, hrun, hclaims⟩ := hrun
  refine ⟨n, hrun, hclaims, fun n' => ?_⟩
  exact ((attempt_claimed_once hrun "a" "m").2.2 (by simp [hclaims]) n').1 _ _ _

end MeisterStack.Agent
