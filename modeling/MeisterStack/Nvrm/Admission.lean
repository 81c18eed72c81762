import Mathlib.Algebra.Ring.Nat
import MeisterStack.Foundation.Saturating

/-!
# Which backends a card admits

A backend counts as a claim: its VRAM, and for a vGPU type the name and the size of the card.
`Good` is the rule for all the claims
together, over true sums.
-/

namespace MeisterStack.Nvrm

open Foundation List Sat

def u64Max : Nat := 18446744073709551615

structure VgpuType where
  vgpuType : String
  maxInstance : Sat u64Max
  availableMib : Sat u64Max

structure Claim where
  mib : Sat u64Max
  vgpuType : Option String
  cardMib : Option (Sat u64Max)
  typed : vgpuType.isSome = cardMib.isSome

namespace Claim

def new (mib : Sat u64Max) (vgpu : Option VgpuType) : Claim where
  mib := mib
  vgpuType := vgpu.map (·.vgpuType)
  cardMib := vgpu.map (·.availableMib)
  typed := by simp

def isUnbounded (c : Claim) : Bool := c.mib.val = 0

end Claim

structure Wanted where
  id : String
  claim : Claim
  vgpu : Option VgpuType
  resolved : claim = .new claim.mib vgpu

inductive Refusal where
  | instances (vgpuType : String) (maxInstance sameType : Nat)
  | withoutAType (id : String) (unbounded : Bool)
  | besideUntyped (id : String) (unbounded : Bool)
  | card (id : String) (card used wants : Nat)
  | unbounded (id : String) (budget : Nat)
  | besideUnbounded (id : String) (budget : Nat)
  | budget (id : String) (used wants budget : Nat)

def refuseInstanceOverflow (live : List Claim) : Option VgpuType → Except Refusal Unit
  | none => .ok ()
  | some vgpu =>
    let sameType := live.countP fun c => c.vgpuType = some vgpu.vgpuType
    if sameType ≥ vgpu.maxInstance.val then
      .error (.instances vgpu.vgpuType vgpu.maxInstance.val sameType)
    else .ok ()

def totalMib (claims : List Claim) : Sat u64Max := (claims.map (·.mib)).foldl .add .zero

def cardSize (live : List Claim) (want : Claim) : Option Nat :=
  (((live ++ [want]).filterMap (·.cardMib)).map (·.val)).min?

def refuseCardOvercommit (live : List Claim) (want : Claim) (id : String) :
    Except Refusal Unit :=
  match cardSize live want with
  | none => .ok ()
  | some card =>
    if want.vgpuType.isNone then .error (.withoutAType id want.isUnbounded)
    else
      match live.find? (·.vgpuType.isNone) with
      | some untyped => .error (.besideUntyped id untyped.isUnbounded)
      | none =>
        let used := totalMib live
        if (used.add want.mib).val > card then .error (.card id card used.val want.mib.val)
        else .ok ()

def refuseUnboundedUnderBudget (live : List Claim) (want : Claim) (budget : Nat) (id : String) :
    Except Refusal Unit :=
  if want.isUnbounded then .error (.unbounded id budget)
  else if live.any (·.isUnbounded) then .error (.besideUnbounded id budget)
  else .ok ()

def refuseBudgetOverrun (live : List Claim) (want : Claim) (budget : Option Nat) (id : String) :
    Except Refusal Unit :=
  match budget with
  | none => .ok ()
  | some budget => do
    refuseUnboundedUnderBudget live want budget id
    let used := totalMib live
    if (used.add want.mib).val > budget then .error (.budget id used.val want.mib.val budget)
    else .ok ()

def admitAll (live : List Claim) (wanted : List Wanted) (budget : Option Nat) :
    Except Refusal Unit :=
  match wanted with
  | [] => .ok ()
  | want :: rest => do
    refuseInstanceOverflow live want.vgpu
    refuseCardOvercommit live want.claim want.id
    refuseBudgetOverrun live want.claim budget want.id
    admitAll (live ++ [want.claim]) rest budget

def sum (claims : List Claim) : Nat := (claims.map (·.mib.val)).sum

def Within (allowed : Claim → Prop) (claims : List Claim) (n : Nat) : Prop :=
  (∀ c ∈ claims, allowed c) ∧ sum claims ≤ n

/-- The rules of the card and of the node for the claims together. -/
structure Good (limit : String → Nat) (budget : Option Nat) (claims : List Claim) : Prop where
  instances : ∀ type, claims.countP (·.vgpuType = some type) ≤ limit type
  card : ∀ c ∈ claims, ∀ card ∈ c.cardMib, Within (·.vgpuType.isSome) claims card.val
  budget : ∀ b ∈ budget, Within (·.mib.val ≠ 0) claims b

variable {limit : String → Nat} {budget : Option Nat} {live live' : List Claim} {want : Wanted}

theorem Within.of_subperm {allowed n} (h : Within allowed live n) (hsub : live' <+~ live) :
    Within allowed live' n := by
  refine ⟨fun c hc => h.1 c (hsub.subset hc), le_trans ?_ h.2⟩
  obtain ⟨l, hperm, hl⟩ := hsub
  rw [sum, ← (hperm.map _).sum_eq]
  exact (hl.map _).sum_le_sum fun _ _ => Nat.zero_le _

theorem Good.of_subperm (h : Good limit budget live) (hsub : live' <+~ live) :
    Good limit budget live' where
  instances type := (hsub.countP_le _).trans (h.instances type)
  card c hc card hcard := (h.card c (hsub.subset hc) card hcard).of_subperm hsub
  budget b hb := (h.budget b hb).of_subperm hsub

-- the accumulator is the sum so far, cut at the end of its range
theorem totalMib_val (claims) : (totalMib claims).val = min (sum claims) u64Max := by
  have hfold : ∀ (l : List (Sat u64Max)) (acc : Sat u64Max),
      (l.foldl .add acc).val = min (acc.val + (l.map (·.val)).sum) u64Max := by
    intro l
    induction l with
    | nil => simp [le_max]
    | cons a l ih =>
      intro acc
      rw [foldl_cons, ih]
      simp only [add_val, map_cons, sum_cons]
      omega
  simp [totalMib, hfold, sum, Function.comp_def]

theorem add_le_iff {n} (hn : n < u64Max) (want) :
    ((totalMib live).add want.mib).val ≤ n ↔ sum (live ++ [want]) ≤ n := by
  rw [add_val, totalMib_val]
  simp only [sum, map_append, sum_append, map_cons, map_nil, sum_singleton]
  omega

theorem instances_ok_iff (hgood : ∀ type, live.countP (·.vgpuType = some type) ≤ limit type)
    (hlimit : ∀ v ∈ want.vgpu, v.maxInstance.val = limit v.vgpuType) :
    refuseInstanceOverflow live want.vgpu = .ok () ↔
      ∀ type, (live ++ [want.claim]).countP (·.vgpuType = some type) ≤ limit type := by
  have htype : want.claim.vgpuType = want.vgpu.map (·.vgpuType) := by rw [want.resolved]; rfl
  simp only [countP_append, countP_singleton, htype]
  cases hv : want.vgpu with
  | none => simpa [refuseInstanceOverflow] using hgood
  | some v =>
    have hmax := hlimit v hv
    simp only [refuseInstanceOverflow, Option.map_some, Option.some.injEq, decide_eq_true_eq]
    constructor
    · intro h type
      have := hgood type
      grind
    · intro h
      have := h v.vgpuType
      grind

theorem card_ok_iff {want id}
    (hcard : ∀ c ∈ live ++ [want], ∀ card ∈ c.cardMib, card.val < u64Max) :
    refuseCardOvercommit live want id = .ok () ↔ ∀ c ∈ live ++ [want], ∀ card ∈ c.cardMib,
      Within (·.vgpuType.isSome) (live ++ [want]) card.val := by
  unfold refuseCardOvercommit
  cases hsize : cardSize live want with
  | none =>
    rw [cardSize, min?_eq_none_iff] at hsize
    simp at hsize ⊢
    grind
  | some card =>
    rw [cardSize, min?_eq_some_iff] at hsize
    simp only [mem_map, mem_filterMap] at hsize
    obtain ⟨⟨size, ⟨c0, hc0, hsize0⟩, rfl⟩, hmin⟩ := hsize
    have hall : (∀ c ∈ live ++ [want], c.vgpuType.isSome) ↔
        want.vgpuType.isSome ∧ live.find? (·.vgpuType.isNone) = none := by
      simp [or_imp, forall_and, and_comm, Option.isSome_iff_ne_none]
    -- the smallest size decides for all of them
    have hrule : (∀ c ∈ live ++ [want], ∀ card ∈ c.cardMib,
        Within (·.vgpuType.isSome) (live ++ [want]) card.val) ↔
          Within (·.vgpuType.isSome) (live ++ [want]) size.val := by
      refine ⟨fun h => h c0 hc0 size hsize0, fun h c hc card hcard => ⟨h.1, h.2.trans ?_⟩⟩
      exact hmin _ ⟨card, ⟨c, hc, hcard⟩, rfl⟩
    rw [hrule, Within, hall, ← add_le_iff (hcard c0 hc0 size hsize0)]
    cases want.vgpuType <;> cases live.find? (·.vgpuType.isNone) <;> simp [-add_val]

theorem budget_ok_iff {want id} (hbudget : ∀ b ∈ budget, b < u64Max) :
    refuseBudgetOverrun live want budget id = .ok () ↔
      ∀ b ∈ budget, Within (·.mib.val ≠ 0) (live ++ [want]) b := by
  cases budget with
  | none => simp [refuseBudgetOverrun]
  | some b =>
    have hall : (∀ c ∈ live ++ [want], c.mib.val ≠ 0) ↔
        want.isUnbounded = false ∧ live.any (·.isUnbounded) = false := by
      simp [or_imp, forall_and, Claim.isUnbounded, and_comm]
    simp only [Option.mem_some_iff, forall_eq', Within, hall, ← add_le_iff (hbudget b rfl)]
    unfold refuseBudgetOverrun refuseUnboundedUnderBudget
    cases want.isUnbounded <;> cases live.any (·.isUnbounded) <;>
      simp [bind, Except.bind, -add_val]

theorem admitAll_ok_iff {wanted} (hgood : Good limit budget live)
    (hlimit : ∀ w ∈ wanted, ∀ v ∈ w.vgpu, v.maxInstance.val = limit v.vgpuType)
    (hcard : ∀ c ∈ live ++ wanted.map (·.claim), ∀ card ∈ c.cardMib, card.val < u64Max)
    (hbudget : ∀ b ∈ budget, b < u64Max) :
    admitAll live wanted budget = .ok () ↔
      Good limit budget (live ++ wanted.map (·.claim)) := by
  induction wanted generalizing live with
  | nil => simpa [admitAll] using hgood
  | cons want rest ih =>
    have hone : Good limit budget (live ++ [want.claim]) ↔
        refuseInstanceOverflow live want.vgpu = .ok () ∧
        refuseCardOvercommit live want.claim want.id = .ok () ∧
        refuseBudgetOverrun live want.claim budget want.id = .ok () := by
      rw [instances_ok_iff hgood.instances (hlimit want (.head rest)),
        card_ok_iff fun c hc => hcard c (by simp at hc ⊢; tauto), budget_ok_iff hbudget]
      exact ⟨fun h => ⟨h.instances, h.card, h.budget⟩, fun h => ⟨h.1, h.2.1, h.2.2⟩⟩
    have hsplit : live ++ (want :: rest).map (·.claim) =
        live ++ [want.claim] ++ rest.map (·.claim) := by simp
    rw [hsplit] at hcard ⊢
    have hrest := fun hgood => @ih (live ++ [want.claim]) hgood
      (fun w hw => hlimit w (.tail want hw)) hcard
    have hpart : Good limit budget (live ++ [want.claim] ++ rest.map (·.claim)) →
        Good limit budget (live ++ [want.claim]) :=
      fun h => h.of_subperm (sublist_append_left _ _).subperm
    have hsteps : admitAll live (want :: rest) budget = .ok () ↔
        Good limit budget (live ++ [want.claim]) ∧
          admitAll (live ++ [want.claim]) rest budget = .ok () := by
      rw [hone, admitAll]
      cases refuseInstanceOverflow live want.vgpu <;>
      cases refuseCardOvercommit live want.claim want.id <;>
      cases refuseBudgetOverrun live want.claim budget want.id <;>
        simp [bind, Except.bind]
    rw [hsteps]
    exact ⟨fun h => (hrest h.1).mp h.2, fun h => ⟨hpart h, (hrest (hpart h)).mpr h⟩⟩

/-- Devices are admitted exactly where the held and the wanted claims together are good, so in
every order of both alike. -/
theorem admission_exact {held : List Claim} {wanted : List Wanted}
    (hgood : Good limit budget held)
    (hlimit : ∀ w ∈ wanted, ∀ v ∈ w.vgpu, v.maxInstance.val = limit v.vgpuType)
    (hcard : ∀ c ∈ held ++ wanted.map (·.claim), ∀ card ∈ c.cardMib, card.val < u64Max)
    (hbudget : ∀ b ∈ budget, b < u64Max) :
    (admitAll held wanted budget = .ok () ↔ Good limit budget (held ++ wanted.map (·.claim))) ∧
    ∀ held' wanted', held'.Perm held → wanted'.Perm wanted →
      (admitAll held' wanted' budget = .ok () ↔ admitAll held wanted budget = .ok ()) := by
  have hiff := admitAll_ok_iff hgood hlimit hcard hbudget
  refine ⟨hiff, fun held' wanted' hheld hwanted => ?_⟩
  have hall := hheld.append (hwanted.map (·.claim))
  have hiff' := admitAll_ok_iff (hgood.of_subperm hheld.subperm)
    (fun w hw => hlimit w (hwanted.mem_iff.mp hw)) (fun c hc => hcard c (hall.mem_iff.mp hc))
    hbudget
  rw [hiff, hiff']
  exact ⟨fun h => h.of_subperm hall.symm.subperm, fun h => h.of_subperm hall.subperm⟩

def half : Wanted where
  id := "gpu0"
  claim := .new ⟨4096, by decide⟩ (some ⟨"RTX2070-4Q", ⟨2, by decide⟩, ⟨8192, by decide⟩⟩)
  vgpu := some ⟨"RTX2070-4Q", ⟨2, by decide⟩, ⟨8192, by decide⟩⟩
  resolved := rfl

theorem admission_exact_halves :
    Good (fun _ => 2) (some 8192) ([half.claim] ++ [half.claim]) := by
  refine (@admission_exact _ _ _ [half] ⟨fun type => ?_, ?_, ?_⟩ ?_ ?_ ?_).1.mp rfl
  · exact countP_le_length.trans (by decide)
  all_goals simp [half, Claim.new, sum, Within] <;> decide

end MeisterStack.Nvrm
