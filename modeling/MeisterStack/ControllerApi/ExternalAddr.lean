import Mathlib.Data.String.Basic
import MeisterStack.Common.Net
import MeisterStack.Foundation.Program
import MeisterStack.Foundation.Revision

/-!
# External addresses of routers

`settle_external_addr` in at most two rounds: it lists the routers, decides on its copy of the
router whether to keep, take or yield the address, and writes the decision whatever the router holds
by then. `settled` are the routers for which a call that read them in this run has returned.
-/

namespace MeisterStack.ControllerApi.ExternalAddr

open Foundation List Table
open Common

structure Addr where
  host : Nat
  len : Nat

structure ProviderNetwork where
  allocation : Option (List Ipv4Range)
  cidrLen : Option Nat

structure Router where
  uid : String
  externalAddr : Option Addr

def Router.holds (r : Router) (host : Nat) : Bool := r.externalAddr.any fun a => a.host = host

def cutExternalAddr (network : ProviderNetwork) (routers : List (String × Router)) :
    Option Addr :=
  network.allocation.bind fun ranges =>
    (Ipv4Ranges.firstFree ranges (routers.filterMap fun r => r.2.externalAddr.map Addr.host)).map
      fun host => ⟨host, network.cidrLen.getD 32⟩

inductive AddressClaim where
  | keep
  | take (address : Addr)
  | yield

variable (name : String)

def otherHolders (address : Addr) (routers : List (String × Router)) :
    List String :=
  (routers.filter fun r => r.1 ≠ name && r.2.holds address.host).map Prod.fst

def claimExternalAddr (copy : Option Addr) (network : ProviderNetwork)
    (routers : List (String × Router)) : AddressClaim :=
  match copy with
  | none => (cutExternalAddr network routers).elim .keep .take
  | some held =>
    if (otherHolders name held routers).any fun other => other < name then .yield else .keep

structure State where
  next : Nat
  routers : Table String Router
  settled : List (String × String)

namespace State

variable (s : State)

def router : Option Router := (s.routers.cell name).map (·.val)

def put (r : Router) : State :=
  { s with next := s.next + 1, routers := s.routers.put name s.next r }

def remove : State :=
  { s with next := s.next + 1, routers := s.routers.remove name }

def listing : List (String × Router) := s.routers.list.map fun e => (e.1, e.2.val)

@[simp] theorem router_put_self (name r) : (s.put name r).router name = some r := by
  simp [router, put]

variable {name : String}

theorem router_put_ne {name'} (h : name' ≠ name) (r) :
    (s.put name r).router name' = s.router name' := by
  simp [router, put, cell_put_ne _ h]

@[simp] theorem router_remove_self (name) : (s.remove name).router name = none := by
  simp [router, remove]

theorem router_remove_ne {name'} (h : name' ≠ name) :
    (s.remove name).router name' = s.router name' := by
  simp [router, remove, cell_remove_ne _ h]

theorem mem_listing {s : State} {r} : (name, r) ∈ s.listing ↔ s.router name = some r := by
  simp only [listing, mem_map, router, Option.map_eq_some_iff]
  constructor
  · rintro ⟨⟨name', v⟩, hmem, heq⟩
    cases heq
    exact ⟨v, mem_list.mp hmem, rfl⟩
  · rintro ⟨v, hv, rfl⟩
    exact ⟨(name, v), mem_list.mpr hv, rfl⟩

end State

structure Settling where
  name : String
  uid : String
  copy : Option Addr
  network : ProviderNetwork
  fresh : Bool

inductive Decision where
  | take (address : Addr)
  | yield

def Decision.addr : Decision → Option Addr
  | .take address => some address
  | .yield => none

inductive Task where
  | list (call : Settling) (left : Nat)
  | write (call : Settling) (decision : Decision) (routers : List (String × Router)) (left : Nat)

def Task.call : Task → Settling
  | .list call _ | .write call _ _ _ => call

inductive Event where
  | read (name : String) (network : ProviderNetwork)
  | create (name uid : String)
  | remove (name : String)

inductive Input where
  | answered
  | failed
  | lost

def rounds : Nat := 2

variable (s : State)

def env : Event → Option (State × List Task)
  | .read name network =>
    (s.router name).map fun r => (s, [.list ⟨name, r.uid, r.externalAddr, network, true⟩ rounds])
  | .create name uid =>
    if (s.router name).isNone then some (s.put name ⟨uid, none⟩, []) else none
  | .remove name => some (s.remove name, [])

variable (call : Settling)

def finish : State :=
  if call.fresh then { s with settled := (call.name, call.uid) :: s.settled } else s

def decision (s : State) : Option Decision :=
  match claimExternalAddr call.name call.copy call.network s.listing with
  | .keep => none
  | .take address => some (.take address)
  | .yield => some .yield

def assign (decision : Decision) : Option State :=
  match s.router call.name with
  | some r =>
    if r.uid = call.uid then some (s.put call.name { r with externalAddr := decision.addr })
    else none
  | none => none

def wrote (left : Nat) : Decision → State × List Task
  | .take address => (s, [.list { call with copy := some address } left])
  | .yield => (finish s call, [])

def task : Task → Input → Option (State × List Task)
  | .list call left, input =>
    match left, input with
    | 0, _ => some (finish s call, [])
    | left + 1, .answered =>
      match decision call s with
      | some decision => some (s, [.write call decision s.listing left])
      | none => some (finish s call, [])
    | _ + 1, _ => some (s, [])
  | .write call decision _ left, input =>
    match assign s call decision, input with
    | some s', .answered => some (wrote s' call left decision)
    | some s', .lost => some (s', [])
    | _, _ => some (s, [])

def program : Program State Task Event Input := ⟨env, task⟩

variable {s s' : State} {call : Settling}

theorem assign_cases {decision} (h : assign s call decision = some s') :
    ∃ r, s.router call.name = some r ∧ r.uid = call.uid ∧
      s' = s.put call.name { r with externalAddr := decision.addr } := by
  unfold assign at h
  split at h
  · rename_i r hr
    split at h <;> cases h
    rename_i huid
    exact ⟨r, hr, huid, rfl⟩
  · cases h

@[simp] theorem finish_router (s call name) : (finish s call).router name = s.router name := by
  unfold finish
  split <;> rfl

variable {t : Task} {input : Input} {next : List Task}

theorem task_cases (h : task s t input = some (s', next)) :
    (∀ name, s'.router name = s.router name) ∨
    ∃ call decision routers left r, t = .write call decision routers left ∧
      s.router call.name = some r ∧ r.uid = call.uid ∧
      s'.router call.name = some { r with externalAddr := decision.addr } ∧
      ∀ name, name ≠ call.name → s'.router name = s.router name := by
  cases t with
  | list call =>
    refine .inl fun name => ?_
    simp only [task] at h
    split at h
    · cases h
      exact finish_router s call name
    · split at h <;> cases h
      · rfl
      · exact finish_router s call name
    · cases h
      rfl
  | write call decision routers left =>
    simp only [task] at h
    split at h
    · rename_i s1 hassign
      obtain ⟨r, hr, huid, rfl⟩ := assign_cases hassign
      refine .inr ⟨call, decision, routers, left, r, rfl, hr, huid, ?_⟩
      cases decision <;> cases h
      · exact ⟨State.router_put_self .., fun name hne => State.router_put_ne s hne _⟩
      · exact ⟨by simp [Decision.addr], fun name hne => by simp [State.router_put_ne s hne]⟩
    · rename_i s1 hassign
      obtain ⟨r, hr, huid, rfl⟩ := assign_cases hassign
      cases h
      exact .inr ⟨call, decision, routers, left, r, rfl, hr, huid, State.router_put_self ..,
        fun name hne => State.router_put_ne s hne _⟩
    · cases h
      exact .inl fun _ => rfl

def Keeps (s : State) (name : String) (address : Addr) : Prop :=
  ∃ r, s.router name = some r ∧ r.externalAddr = some address ∧
    ∀ other r', other < name → s.router other = some r' → r'.holds address.host = false

def holding (name uid : String) (address : Addr) : Guard State Task Event Input where
  env s _ := s.router name = some ⟨uid, some address⟩
  task s _ _ := s.router name = some ⟨uid, some address⟩

def Task.sees (address : Addr) : Task → Prop
  | .list call _ => call.copy = some address
  | .write call decision routers _ => decision = .yield ∧
      ∃ other ∈ otherHolders call.name address routers, other < call.name

variable {name uid : String} {address : Addr}

def SeesSince (name uid : String) (address : Addr) (_ : State) (t : Task) : Prop :=
  t.call.fresh → t.call.name = name → t.call.uid = uid → t.sees address

theorem decision_take {b} (h : decision call s = some (.take b)) : call.copy = none := by
  cases hcopy : call.copy with
  | none => rfl
  | some held =>
    simp only [decision, claimExternalAddr, hcopy] at h
    split_ifs at h
    cases h

theorem decision_held {d} (hcopy : call.copy = some address) (h : decision call s = some d) :
    d = .yield ∧ ∃ other ∈ otherHolders call.name address s.listing, other < call.name := by
  simp only [decision, claimExternalAddr, hcopy] at h
  split_ifs at h with hlower
  cases h
  exact ⟨rfl, by simpa using hlower⟩

theorem sees_outline : program.Outline (holding name uid address) (fun _ => True)
    (SeesSince name uid address) where
  env {s event s' new} _ hholds h := by
    refine ⟨trivial, fun t ht => ?_, fun t ht => ht⟩
    cases event with
    | read =>
      obtain ⟨r, hr, ⟨⟩⟩ := Option.map_eq_some_iff.mp h
      rw [mem_singleton.mp ht]
      rintro - rfl -
      have heq : r = ⟨uid, some address⟩ := Option.some.inj (hr.symm.trans hholds)
      simp [Task.sees, heq]
    | create =>
      simp only [program, env] at h
      split at h <;> cases h
      cases ht
    | remove =>
      cases h
      cases ht
  task {s t input s' next} _ ht _ h := by
    refine ⟨trivial, fun u hu => ?_, fun t ht => ht⟩
    cases t with
    | list =>
      simp only [program, task] at h
      split at h
      · cases h
        cases hu
      · split at h <;> cases h
        · rename_i d hd
          rw [mem_singleton.mp hu]
          exact fun hfresh hname huid => decision_held (ht hfresh hname huid) hd
        · cases hu
      · cases h
        cases hu
    | write call d =>
      simp only [program, task] at h
      split at h
      · cases d <;> cases h
        · rw [mem_singleton.mp hu]
          exact fun hfresh hname huid => nomatch (ht hfresh hname huid).1
        · cases hu
      · cases h
        cases hu
      · cases h
        cases hu

def Shares (s : State) (name uid : String) (address : Addr) : Prop :=
  ∃ r, s.router name = some r ∧ r.uid = uid ∧ r.externalAddr = some address ∧
    ∃ other r', other < name ∧ s.router other = some r' ∧ r'.holds address.host

def Alone (s : State) : Task → Prop
  | .write call (.take address) _ _ =>
    ∀ name r, name ≠ call.name → s.router name = some r → r.holds address.host = false
  | _ => True

theorem shares_congr
    (hsame : ∀ name r, s'.router name = some r → r.externalAddr.isSome → s.router name = some r)
    (h : Shares s' name uid address) : Shares s name uid address := by
  obtain ⟨r, hr, huid, haddr, other, r', hlt, hr', hholds⟩ := h
  refine ⟨r, hsame name r hr (Option.isSome_of_eq_some haddr), huid, haddr, other, r', hlt,
    hsame other r' hr' ?_, hholds⟩
  cases hr'a : r'.externalAddr with
  | none => simp [Router.holds, hr'a] at hholds
  | some => rfl

theorem shares_of_task (halone : Alone s t) (h : task s t input = some (s', next))
    (hshares : Shares s' name uid address) : Shares s name uid address := by
  rcases task_cases h with hsame | ⟨call, d, routers, left, r, rfl, hr, huid, hwritten, hother⟩
  · exact shares_congr (fun name r hr _ => hsame name ▸ hr) hshares
  cases d with
  | yield =>
    refine shares_congr (fun name r' hr' hsome => ?_) hshares
    by_cases hname : name = call.name
    · subst hname
      rw [hwritten] at hr'
      cases hr'
      cases hsome
    · exact hother name hname ▸ hr'
  | take b =>
    -- Whoever shares the address after the write held it before, and was not alone then.
    obtain ⟨r1, hr1, huid1, haddr1, other, r2, hlt, hr2, hholds⟩ := hshares
    by_cases hname : name = call.name
    · subst hname
      rw [hwritten] at hr1
      cases hr1
      cases haddr1
      have hne : other ≠ call.name := hlt.ne
      rw [halone other r2 hne (hother other hne ▸ hr2)] at hholds
      cases hholds
    · have hr1' := hother name hname ▸ hr1
      by_cases hname' : other = call.name
      · subst hname'
        rw [hwritten] at hr2
        cases hr2
        have hhost : b.host = address.host := by
          simpa [Router.holds, Decision.addr] using hholds
        have hfree := halone name r1 hname hr1'
        simp [Router.holds, haddr1, hhost] at hfree
      · exact ⟨r1, hr1', huid1, haddr1, other, r2, hlt, hother other hname' ▸ hr2, hholds⟩

theorem shares_of_env {event new} (h : env s event = some (s', new))
    (hshares : Shares s' name uid address) : Shares s name uid address := by
  refine shares_congr (fun name r hr hsome => ?_) hshares
  cases event with
  | read =>
    obtain ⟨_, -, ⟨⟩⟩ := Option.map_eq_some_iff.mp h
    exact hr
  | create name' =>
    simp only [env] at h
    split at h <;> cases h
    by_cases hname : name = name'
    · subst hname
      rw [State.router_put_self] at hr
      cases hr
      cases hsome
    · rwa [State.router_put_ne s hname] at hr
  | remove name' =>
    cases h
    by_cases hname : name = name'
    · subst hname
      rw [State.router_remove_self] at hr
      cases hr
    · rwa [State.router_remove_ne s hname] at hr

def SettledAlone (s : State) : Prop :=
  ∀ name uid, (name, uid) ∈ s.settled → ∀ address, ¬ Shares s name uid address

def Current (s : State) : Task → Prop
  | .list call left => call.fresh → ∀ address, Shares s call.name call.uid address →
      left ≠ 0 ∧ call.copy = some address
  | .write call (.take _) _ _ => call.fresh → ∀ address,
      ¬ Shares s call.name call.uid address
  | .write _ .yield _ _ => True

theorem current_congr
    (hback : ∀ name uid address, Shares s' name uid address → Shares s name uid address)
    (h : Current s t) : Current s' t := by
  cases t with
  | list => exact fun hfresh a hshares => h hfresh a (hback _ _ a hshares)
  | write call d =>
    cases d with
    | take => exact fun hfresh a hshares => h hfresh a (hback _ _ a hshares)
    | yield => trivial

theorem settledAlone_congr (h : SettledAlone s) (hsettled : s'.settled = s.settled)
    (hback : ∀ name uid address, Shares s' name uid address → Shares s name uid address) :
    SettledAlone s' :=
  fun name uid hmem a hshares => h name uid (hsettled ▸ hmem) a (hback name uid a hshares)

theorem shares_finish (h : Shares (finish s call) name uid address) : Shares s name uid address :=
  shares_congr (fun name _ hr _ => finish_router s call name ▸ hr) h

theorem settledAlone_finish (hs : SettledAlone s)
    (hcall : call.fresh → ∀ address, ¬ Shares s call.name call.uid address) :
    SettledAlone (finish s call) := by
  intro name uid hmem a hshares
  have hshares' := shares_finish hshares
  unfold finish at hmem
  split at hmem
  · rename_i hfresh
    rcases mem_cons.mp hmem with heq | hmem
    · cases heq
      exact hcall hfresh a hshares'
    · exact hs name uid hmem a hshares'
  · exact hs name uid hmem a hshares'

theorem not_shares_of_keep (hcopy : call.copy = some address) (h : decision call s = none) :
    ¬ Shares s call.name call.uid address := by
  rintro ⟨-, -, -, -, other, r', hlt, hr', hholds⟩
  have hlower : (otherHolders call.name address s.listing).any fun other => other < call.name := by
    rw [any_eq_true]
    refine ⟨other, ?_, decide_eq_true hlt⟩
    refine mem_map.mpr ⟨(other, r'), mem_filter.mpr ⟨State.mem_listing.mpr hr', ?_⟩, rfl⟩
    simp [hlt.ne, hholds]
  simp only [decision, claimExternalAddr, hcopy, if_pos hlower] at h
  cases h

def aloneGuard : Guard State Task Event Input := ⟨fun _ _ => True, fun s t _ => Alone s t⟩

theorem alone_iff :
    (∀ e ∈ s.listing, e.1 ≠ name → e.2.holds address.host = false) ↔
      ∀ name' r, name' ≠ name → s.router name' = some r → r.holds address.host = false :=
  ⟨fun h name' r hne hr => h (name', r) (State.mem_listing.mpr hr) hne,
    fun h e he hne => h e.1 e.2 hne (State.mem_listing.mp he)⟩

instance (s t) : Decidable (Alone s t) :=
  match t with
  | .list .. => inferInstanceAs (Decidable True)
  | .write _ .yield _ _ => inferInstanceAs (Decidable True)
  | .write _ (.take _) _ _ => decidable_of_iff _ alone_iff

instance (s event) : Decidable (aloneGuard.env s event) := .isTrue trivial

instance (s t input) : Decidable (aloneGuard.task s t input) :=
  inferInstanceAs (Decidable (Alone s t))

theorem task_settledAlone (hs : SettledAlone s) (ht : Current s t)
    (hback : ∀ name uid address, Shares s' name uid address → Shares s name uid address)
    (h : task s t input = some (s', next)) : SettledAlone s' := by
  cases t with
  | list =>
    simp only [task] at h
    split at h
    · cases h
      exact settledAlone_finish hs fun hfresh a hshares => (ht hfresh a hshares).1 rfl
    · split at h <;> cases h
      · exact hs
      · rename_i hkeep
        exact settledAlone_finish hs fun hfresh a hshares =>
          not_shares_of_keep (ht hfresh a hshares).2 hkeep hshares
    · cases h
      exact hs
  | write call d routers left =>
    simp only [task] at h
    split at h
    · rename_i s1 hassign
      obtain ⟨r, hr, huid, rfl⟩ := assign_cases hassign
      cases d with
      | take =>
        cases h
        exact settledAlone_congr hs rfl hback
      | yield =>
        cases h
        have hback1 (name uid : String) (a : Addr)
            (hsh : Shares (s.put call.name { r with externalAddr := none }) name uid a) :
            Shares s name uid a := by
          have halone : Alone s (.write call .yield routers left) := trivial
          have hlost : task s (.write call .yield routers left) .lost =
              some (s.put call.name { r with externalAddr := none }, []) := by
            simp only [task, hassign]
            rfl
          exact shares_of_task halone hlost hsh
        refine settledAlone_finish (settledAlone_congr hs rfl hback1) ?_
        rintro - a ⟨r', hr', -, haddr, -⟩
        rw [State.router_put_self] at hr'
        cases hr'
        cases haddr
    · rename_i s1 hassign
      obtain ⟨r, hr, huid, rfl⟩ := assign_cases hassign
      cases h
      exact settledAlone_congr hs rfl hback
    · cases h
      exact hs

theorem task_current (ht : Current s t)
    (hback : ∀ name uid address, Shares s' name uid address → Shares s name uid address)
    (h : task s t input = some (s', next)) : ∀ u ∈ next, Current s' u := by
  intro u hu
  cases t with
  | list =>
    simp only [task] at h
    split at h
    · cases h
      cases hu
    · split at h <;> cases h
      · rename_i d hd
        rw [mem_singleton.mp hu]
        cases d with
        | take =>
          intro hfresh a hshares
          have := (ht hfresh a hshares).2
          rw [decision_take hd] at this
          cases this
        | yield => trivial
      · cases hu
    · cases h
      cases hu
  | write call d =>
    simp only [task] at h
    split at h
    · cases d with
      | take =>
        cases h
        rw [mem_singleton.mp hu]
        exact fun hfresh a hshares => absurd (hback _ _ a hshares) (ht hfresh a)
      | yield =>
        cases h
        cases hu
    · cases h
      cases hu
    · cases h
      cases hu

theorem current_outline : program.Outline aloneGuard SettledAlone Current where
  env {s event s' new} hs _ h := by
    have hback (name uid : String) (address : Addr) (hsh : Shares s' name uid address) :
        Shares s name uid address := shares_of_env h hsh
    have hsettled : s'.settled = s.settled := by
      cases event with
      | read =>
        obtain ⟨_, -, ⟨⟩⟩ := Option.map_eq_some_iff.mp h
        rfl
      | create =>
        simp only [program, env] at h
        split at h <;> cases h
        rfl
      | remove =>
        cases h
        rfl
    refine ⟨settledAlone_congr hs hsettled hback, fun t ht => ?_, fun t => current_congr hback⟩
    cases event with
    | read =>
      obtain ⟨r, hr, ⟨⟩⟩ := Option.map_eq_some_iff.mp h
      rw [mem_singleton.mp ht]
      rintro - address ⟨r', hr', -, haddr, -⟩
      rw [hr] at hr'
      cases hr'
      exact ⟨by decide, haddr⟩
    | create =>
      simp only [program, env] at h
      split at h <;> cases h
      cases ht
    | remove =>
      cases h
      cases ht
  task {s t input s' next} hs ht halone h := by
    have hback (name uid : String) (address : Addr) (hsh : Shares s' name uid address) :
        Shares s name uid address := shares_of_task halone h hsh
    exact ⟨task_settledAlone hs ht hback h, task_current ht hback h, fun t => current_congr hback⟩

theorem current_of_stale (h : t.call.fresh = false) : Current s t := by
  cases t with
  | list call =>
    intro hfresh
    rw [show call.fresh = false from h] at hfresh
    cases hfresh
  | write call d =>
    cases d with
    | take =>
      intro hfresh
      rw [show call.fresh = false from h] at hfresh
      cases hfresh
    | yield => trivial

def smallNetwork : ProviderNetwork :=
  ⟨some [⟨10, 30, false, by decide, by decide⟩], some 24⟩

def oneRouter : State := ⟨2, put ∅ "b" 1 ⟨"ub", none⟩, []⟩

def twoRouters : State := ⟨3, put (put ∅ "b" 1 ⟨"ub", none⟩) "a" 2 ⟨"ua", none⟩, []⟩

def firstSettles : List (Move Event Input) :=
  [.env (.read "b" smallNetwork), .env (.read "b" smallNetwork), .task 0 .answered,
    .task 0 .answered, .task 0 .answered]

def secondOverwrites : List (Move Event Input) := [.task 0 .answered, .task 0 .answered]

def higherFirst : List (Move Event Input) :=
  [.env (.read "a" smallNetwork), .env (.read "b" smallNetwork), .task 0 .answered,
    .task 1 .answered, .task 1 .answered]

def higherYields : List (Move Event Input) :=
  [.task 0 .answered, .task 1 .answered, .task 1 .answered]

theorem keeps_of_listing {r} (hr : s.router name = some r) (ha : r.externalAddr = some address)
    (h : s.listing.all (fun e => !(e.1 < name : Bool) || !e.2.holds address.host)) :
    Keeps s name address := by
  refine ⟨r, hr, ha, fun other r' hlt hr' => ?_⟩
  have := all_eq_true.mp h (other, r') (State.mem_listing.mpr hr')
  simpa [hlt] using this

def settleBoth : List (Move Event Input) :=
  [.env (.read "a" smallNetwork), .task 0 .answered, .task 0 .answered, .task 0 .answered,
    .env (.read "b" smallNetwork), .task 0 .answered, .task 0 .answered, .task 0 .answered]

end MeisterStack.ControllerApi.ExternalAddr
