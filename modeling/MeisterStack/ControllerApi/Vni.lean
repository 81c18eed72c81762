import MeisterStack.Foundation.History
import MeisterStack.Foundation.Revision

/-!
# VXLAN identifiers of tenants

`allocate` takes the next number from a counter object: it reads the counter, writes it advanced by
compare-and-swap, and starts over where another writer came first. Each replica has its own
configured floor, and a call may be lost in a crash at any point.
-/

namespace MeisterStack.ControllerApi.Vni

open Foundation Option List Prod Program

structure Counter where
  next : UInt32

inductive StoreError where
  | invalid (message : String)
  | conflict (message : String)
  | backend

def vniMax : UInt32 := 0x00FFFFFF

def allocateRounds : Nat := 16

def nextVni (current : Option UInt32) (base : UInt32) : Except StoreError (UInt32 × UInt32) :=
  let base := max base 1
  let issued := max (current.getD base) base
  if issued > vniMax then
    .error (.invalid (s!"cannot allocate a vni: {issued} is past the 24-bit range a vxlan " ++
      s!"identifier has ({vniMax}); the tenant counter is exhausted"))
  else .ok (issued, issued + 1)

structure Call where
  tenant : String
  base : UInt32
  left : Nat

inductive Task where
  | read (c : Call)
  -- over the revision that was read, or over nothing where there was no counter
  | write (c : Call) (issued next : UInt32) (read : Option Nat)

inductive Input where
  | go
  | fail
  -- the write went through and its answer did not
  | lost

inductive Event where
  | allocate (tenant : String) (base : UInt32)
  -- the store is written under another key
  | elsewhere

abbrev State := Slot Counter

def retriesExhausted : StoreError :=
  .conflict "resource version conflict on counters/vni (retries exhausted)"

variable (s : State)

def readCounter (c : Call) : Except StoreError Task :=
  if c.left = 0 then .error retriesExhausted
  else
    (nextVni (s.cell.map fun v => v.val.next) c.base).map fun r =>
      .write c r.1 r.2 (s.cell.map Versioned.rev)

def lands : Option Nat → Bool
  | some rev => s.cell.standsAt rev
  | none => s.cell.isNone

def env : Event → Option (State × List Task)
  | .allocate tenant base => some (s, [.read ⟨tenant, base, allocateRounds⟩])
  | .elsewhere => some ({ s with next := s.next + 1 }, [])

def task : Task → Input → Option (State × List Task)
  | .read c, .go => some (s, (readCounter s c).toOption.toList)
  | .read _, _ => some (s, [])
  | .write c _ next read, .go =>
    if lands s read then some (s.write ⟨next⟩, [])
    else some (s, [.read { c with left := c.left - 1 }])
  | .write _ _ next read, .lost =>
    if lands s read then some (s.write ⟨next⟩, []) else some (s, [])
  | .write _ _ _ _, .fail => some (s, [])

def program : Program State Task Event Input := ⟨env, task⟩

structure Ledger where
  taken : List UInt32
  answers : List (String × Except StoreError UInt32)

def Ledger.returned (l : Ledger) : List UInt32 := l.answers.filterMap fun a => a.2.toOption

def answer : Task → Input → Option (String × Except StoreError UInt32)
  | .read c, .go =>
    match readCounter s c with
    | .error e => some (c.tenant, .error e)
    | .ok _ => none
  | .write c issued _ read, .go => if lands s read then some (c.tenant, .ok issued) else none
  | .read c, _ | .write c _ _ _, _ => some (c.tenant, .error .backend)

def takes : Task → Input → Option UInt32
  | .write _ issued _ read, .go | .write _ issued _ read, .lost =>
    if lands s read then some issued else none
  | _, _ => none

def ledger : Observer State Task Event Input Ledger where
  env _ _ l := l
  task s t input l :=
    ⟨(takes s t input).toList ++ l.taken, (answer s t input).toList ++ l.answers⟩

def recorded : Program (State × Ledger) Task Event Input := program.observed ledger

def Exhausted : Prop := ∃ v, s.cell = some v ∧ vniMax < v.val.next

variable {issued : UInt32}

theorem lt_add_one_of_le_vniMax (h : issued ≤ vniMax) : issued < issued + 1 := by
  have hle : issued.toNat ≤ 0x00FFFFFF := UInt32.le_iff_toNat_le.mp h
  rw [UInt32.lt_iff_toNat_lt, UInt32.toNat_add]
  simp only [UInt32.toNat_one]
  omega

private theorem le_max (a b : UInt32) : a ≤ max a b ∧ b ≤ max a b := by
  have hmax : max a b = if a ≤ b then b else a := rfl
  rw [hmax]
  split
  · exact ⟨by assumption, UInt32.le_refl b⟩
  · rename_i hlt
    exact ⟨UInt32.le_refl a, UInt32.le_of_lt (UInt32.not_le.mp hlt)⟩

theorem nextVni_ok {current base next} (h : nextVni current base = .ok (issued, next)) :
    1 ≤ issued ∧ issued ≤ vniMax ∧ issued < next ∧ ∀ c ∈ current, c ≤ issued := by
  simp only [nextVni] at h
  split at h
  · cases h
  · rename_i hle
    have hle' := UInt32.not_lt.mp hle
    cases h
    refine ⟨?_, hle', lt_add_one_of_le_vniMax hle', ?_⟩
    · exact UInt32.le_trans (le_max base 1).2 (le_max _ _).2
    · rintro c ⟨⟩
      exact (le_max _ _).1

def ReadOk (issued : UInt32) (read : Option Nat) : Prop :=
  ∀ rev ∈ read, ∃ v, v.rev = rev ∧ s.cell.Saw s.next v ∧ v.val.next ≤ issued

def TaskOk (s : State × Ledger) : Task → Prop
  | .read _ => True
  | .write _ issued next read =>
    1 ≤ issued ∧ issued ≤ vniMax ∧ issued < next ∧ ReadOk s.1 issued read

structure Sound (s : State × Ledger) : Prop where
  below : s.1.cell.Below s.1.next
  range : ∀ vni ∈ s.2.taken, 1 ≤ vni ∧ vni ≤ vniMax
  passed : ∀ vni ∈ s.2.taken, ∃ v, s.1.cell = some v ∧ vni < v.val.next
  increasing : s.2.taken.Pairwise (· > ·)
  returned : s.2.returned.Sublist s.2.taken

variable {t : Task}

theorem readCounter_ok {s c} (h : readCounter s c = .ok t) (l) (hs : s.cell.Below s.next) :
    TaskOk (s, l) t := by
  unfold readCounter at h
  split at h
  · cases h
  · cases hnext : nextVni (s.cell.map fun v => v.val.next) c.base with
    | error => simp [hnext, Except.map] at h
    | ok =>
      simp only [hnext, Except.map, Except.ok.injEq] at h
      subst h
      obtain ⟨hpos, hmax, hlt, hcurrent⟩ := nextVni_ok hnext
      refine ⟨hpos, hmax, hlt, ?_⟩
      intro rev hrev
      obtain ⟨v, hv, rfl⟩ := Option.map_eq_some_iff.mp hrev
      exact ⟨v, rfl, hs.saw hv, hcurrent _ (by simp [hv])⟩

theorem returned_ledger (s t input l) :
    (ledger.task s t input l).returned =
      ((answer s t input).bind fun a => a.2.toOption).toList ++ l.returned := by
  simp only [ledger, Ledger.returned, filterMap_append]
  congr 1
  cases answer s t input with
  | none => rfl
  | some a => cases hvni : a.2.toOption <;> simp [hvni]

inductive Effect (s : State × Ledger) : Task → State × Ledger → List Task → Prop
  | quiet {t : Task} {l : Ledger} {next : List Task} : l.taken = s.2.taken →
      l.returned = s.2.returned → (∀ u ∈ next, TaskOk s u) → Effect s t (s.1, l) next
  | took {c : Call} {issued next : UInt32} {read : Option Nat} {l : Ledger} :
      lands s.1 read → l.taken = issued :: s.2.taken →
      l.returned = s.2.returned ∨ l.returned = issued :: s.2.returned →
      Effect s (.write c issued next read) (s.1.write ⟨next⟩, l) []

variable {s s' : State × Ledger}

theorem task_effect {input next} (hs : s.1.cell.Below s.1.next)
    (h : recorded.task s t input = some (s', next)) : Effect s t s' next := by
  obtain ⟨hstep, hledger⟩ := observed_task h
  obtain ⟨state, l⟩ := s'
  dsimp only at hstep hledger
  subst hledger
  cases t with
  | read c =>
    cases input with
    | go =>
      obtain ⟨rfl, rfl⟩ := mk.inj (some.inj hstep)
      cases hread : readCounter s.1 c with
      | error =>
        apply Effect.quiet
        · rfl
        · simp [returned_ledger, answer, hread, Except.toOption]
        · simp [Except.toOption]
      | ok =>
        apply Effect.quiet
        · rfl
        · simp [returned_ledger, answer, hread]
        · simpa [Except.toOption] using readCounter_ok hread s.2 hs
    | fail | lost =>
      cases hstep
      exact .quiet rfl (by simp [returned_ledger, answer, Except.toOption]) (by simp)
  | write c issued number read =>
    by_cases hlands : lands s.1 read
    · cases input with
      | go =>
        simp only [program, task, hlands, if_true] at hstep
        cases hstep
        exact .took hlands (by simp [ledger, takes, hlands])
          (.inr (by simp [returned_ledger, answer, hlands, Except.toOption]))
      | lost =>
        simp only [program, task, hlands, if_true] at hstep
        cases hstep
        exact .took hlands (by simp [ledger, takes, hlands])
          (.inl (by simp [returned_ledger, answer, Except.toOption]))
      | fail =>
        cases hstep
        exact .quiet rfl (by simp [returned_ledger, answer, Except.toOption]) (by simp)
    · cases input with
      | go =>
        simp only [program, task, hlands] at hstep
        cases hstep
        exact .quiet (by simp [ledger, takes, hlands]) (by simp [returned_ledger, answer, hlands])
          (by simp [TaskOk])
      | lost =>
        simp only [program, task, hlands] at hstep
        cases hstep
        exact .quiet (by simp [ledger, takes, hlands])
          (by simp [returned_ledger, answer, Except.toOption]) (by simp)
      | fail =>
        cases hstep
        exact .quiet rfl (by simp [returned_ledger, answer, Except.toOption]) (by simp)

theorem TaskOk.keep (hsaw : ∀ v, s.1.cell.Saw s.1.next v → s'.1.cell.Saw s'.1.next v)
    (h : TaskOk s t) : TaskOk s' t := by
  cases t with
  | read => trivial
  | write =>
    obtain ⟨hpos, hmax, hlt, hread⟩ := h
    refine ⟨hpos, hmax, hlt, fun rev hrev => ?_⟩
    obtain ⟨v, hv, hseen, hle⟩ := hread rev hrev
    exact ⟨v, hv, hsaw v hseen, hle⟩

variable {read : Option Nat}

theorem next_le_of_lands {s} (hlands : lands s read) (hread : ReadOk s issued read) {v}
    (hv : s.cell = some v) : v.val.next ≤ issued := by
  cases read with
  | none => simp [lands, hv] at hlands
  | some rev =>
    obtain ⟨seen, rfl, hsaw, hle⟩ := hread rev rfl
    have hsame : seen = v := some.inj ((hsaw.eq_of_standsAt hlands).symm.trans hv)
    exact hsame ▸ hle

theorem Sound.took (hs : Sound s) {next l} (hlands : lands s.1 read) (hpos : 1 ≤ issued)
    (hmax : issued ≤ vniMax) (hlt : issued < next) (hread : ReadOk s.1 issued read)
    (htaken : l.taken = issued :: s.2.taken)
    (hreturned : l.returned = s.2.returned ∨ l.returned = issued :: s.2.returned) :
    Sound (s.1.write ⟨next⟩, l) := by
  have hless : ∀ vni ∈ s.2.taken, vni < issued := by
    intro vni hvni
    obtain ⟨v, hv, hpassed⟩ := hs.passed vni hvni
    exact UInt32.lt_of_lt_of_le hpassed (next_le_of_lands hlands hread hv)
  constructor
  · exact Cell.below_some (Nat.lt_succ_self _)
  · intro vni hvni
    rw [htaken, mem_cons] at hvni
    rcases hvni with rfl | hvni
    · exact ⟨hpos, hmax⟩
    · exact hs.range vni hvni
  · intro vni hvni
    rw [htaken, mem_cons] at hvni
    refine ⟨_, rfl, ?_⟩
    rcases hvni with rfl | hvni
    · exact hlt
    · exact UInt32.lt_trans (hless vni hvni) hlt
  · rw [htaken]
    exact pairwise_cons.mpr ⟨hless, hs.increasing⟩
  · rw [htaken]
    rcases hreturned with hreturned | hreturned <;> rw [hreturned]
    · exact hs.returned.cons issued
    · exact hs.returned.cons_cons issued

theorem env_cases {event new} (h : recorded.env s event = some (s', new)) :
    s'.2 = s.2 ∧ s'.1.cell = s.1.cell ∧ s.1.next ≤ s'.1.next ∧ ∀ t ∈ new, TaskOk s' t := by
  obtain ⟨hstep, hledger⟩ := observed_env h
  refine ⟨hledger, ?_⟩
  cases event with
  | allocate =>
    obtain ⟨hstate, rfl⟩ := mk.inj (some.inj hstep)
    rw [← hstate]
    exact ⟨rfl, le_rfl, by simp [TaskOk]⟩
  | elsewhere =>
    obtain ⟨hstate, rfl⟩ := mk.inj (some.inj hstep)
    rw [← hstate]
    exact ⟨rfl, Nat.le_succ _, by simp⟩

theorem outline : recorded.Outline (Guard.all _ _ _ _) Sound TaskOk where
  env {s event s' new} hs _ h := by
    obtain ⟨hledger, hcell, hnext, hnew⟩ := env_cases h
    refine ⟨?_, hnew, fun t ht => ht.keep fun v hv => ?_⟩
    · constructor
      · rw [hcell]
        exact hs.below.mono hnext
      · rw [hledger]
        exact hs.range
      · rw [hledger, hcell]
        exact hs.passed
      · rw [hledger]
        exact hs.increasing
      · rw [hledger]
        exact hs.returned
    · rw [hcell]
      exact hv.mono hnext
  task {s t input s' next} hs ht _ h := by
    cases task_effect hs.below h with
    | quiet htaken hreturned hnext =>
      refine ⟨?_, fun u hu => (hnext u hu).keep fun _ => id, fun u hu => hu.keep fun _ => id⟩
      exact ⟨hs.below, htaken ▸ hs.range, htaken ▸ hs.passed, htaken ▸ hs.increasing,
        htaken ▸ hreturned ▸ hs.returned⟩
    | took hlands htaken hreturned =>
      obtain ⟨hpos, hmax, hlt, hread⟩ := ht
      exact ⟨hs.took hlands hpos hmax hlt hread htaken hreturned, by simp,
        fun u hu => hu.keep fun v hv => hv.write _⟩

def Stopped (l : Ledger) (s : State × Ledger) : Prop :=
  Sound s ∧ Exhausted s.1 ∧ s.2.taken = l.taken ∧ s.2.returned = l.returned

theorem Exhausted.not_lands {s} (h : Exhausted s) (hmax : issued ≤ vniMax)
    (hread : ReadOk s issued read) : lands s read = false := by
  obtain ⟨v, hv, hpast⟩ := h
  rw [← Bool.not_eq_true]
  intro hlands
  have hle := next_le_of_lands hlands hread hv
  exact UInt32.lt_irrefl _ (UInt32.lt_of_lt_of_le hpast (UInt32.le_trans hle hmax))

theorem stopped_outline (l) : recorded.Outline (Guard.all _ _ _ _) (Stopped l) TaskOk where
  env {s event s' new} hs hg h := by
    obtain ⟨hsound, hexhausted, htaken, hreturned⟩ := hs
    obtain ⟨hledger, hcell, -, -⟩ := env_cases h
    have hout := outline.env hsound hg h
    refine ⟨⟨hout.1, ?_, ?_, ?_⟩, hout.2⟩
    · simpa [Exhausted, hcell] using hexhausted
    · rw [hledger, htaken]
    · rw [hledger, hreturned]
  task {s t input s' next} hs ht hg h := by
    obtain ⟨hsound, hexhausted, htaken, hreturned⟩ := hs
    have hout := outline.task hsound ht hg h
    cases task_effect hsound.below h with
    | quiet htaken' hreturned' =>
      exact ⟨⟨hout.1, hexhausted, htaken'.trans htaken, hreturned'.trans hreturned⟩, hout.2⟩
    | took hlands =>
      rw [hexhausted.not_lands ht.2.1 ht.2.2.2] at hlands
      cases hlands

/-- Any number of calls run side by side from any counter, with failing store operations, lost
answers and crashes. No two calls return the same number, every number returned is in
`1..=16777215`, the numbers are taken in increasing order (the newest is first), and once the
counter is past the range no call takes or returns a number any more. -/
theorem vnis_never_reused {s : State} {ms ms' : List (Move Event Input)}
    {w w' : World (State × Ledger) Task} (hs : s.cell.Below s.next)
    (hrun : recorded.run ⟨(s, ⟨[], []⟩), []⟩ ms = some w) (hrun' : recorded.run w ms' = some w') :
    w.shared.2.returned.Nodup ∧ (∀ vni ∈ w.shared.2.returned, 1 ≤ vni ∧ vni ≤ 16777215) ∧
      w.shared.2.taken.Pairwise (· > ·) ∧
      (Exhausted w.shared.1 → w'.shared.2.taken = w.shared.2.taken ∧
        w'.shared.2.returned = w.shared.2.returned) := by
  have hstart : Sound (s, ⟨[], []⟩) := ⟨hs, by simp, by simp, by simp, by simp [Ledger.returned]⟩
  have hw := outline.run ⟨hstart, by simp⟩ (runMeets_all _ _) hrun
  have hdistinct : w.shared.2.taken.Nodup :=
    hw.1.increasing.imp fun hlt => (UInt32.ne_of_lt hlt).symm
  refine ⟨hdistinct.sublist hw.1.returned, ?_, hw.1.increasing, ?_⟩
  · intro vni hvni
    exact hw.1.range vni (hw.1.returned.subset hvni)
  · intro hexhausted
    exact ((stopped_outline w.shared.2).run ⟨⟨hw.1, hexhausted, rfl, rfl⟩, hw.2⟩
      (runMeets_all _ _) hrun').1.2.2

def firstTenants : List (Move Event Input) :=
  [.env (.allocate "a" 16777214), .env (.allocate "b" 16777214), .task 0 .go, .task 1 .go,
    .task 0 .go, .task 0 .go, .task 0 .go, .task 0 .go]

def thirdTenant : List (Move Event Input) := [.env (.allocate "c" 1), .task 0 .go]

theorem vnis_never_reused_raced : ∃ w w',
    recorded.run ⟨(⟨0, none⟩, ⟨[], []⟩), []⟩ firstTenants = some w ∧
      w.shared.2.returned = [16777215, 16777214] ∧ w.shared.2.returned.Nodup ∧
      recorded.run w thirdTenant = some w' ∧ w'.shared.2.answers.length = 3 ∧
      w'.shared.2.returned = w.shared.2.returned := by
  have hruns := vnis_never_reused (Cell.below_none 0)
    (show recorded.run ⟨(⟨0, none⟩, ⟨[], []⟩), []⟩ firstTenants = some _ from rfl)
    (show recorded.run _ thirdTenant = some _ from rfl)
  have hpast : Exhausted (Slot.write (Slot.write ⟨0, none⟩ ⟨16777215⟩) ⟨16777216⟩) :=
    ⟨_, rfl, by decide⟩
  exact ⟨_, _, rfl, by decide, hruns.1, rfl, by decide, (hruns.2.2.2 hpast).2⟩

end MeisterStack.ControllerApi.Vni
