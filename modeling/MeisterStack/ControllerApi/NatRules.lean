import Mathlib.Data.String.Basic
import MeisterStack.ControllerApi.AddressSpace

/-!
# The rules of a router

What a router translates and announces, derived from what is stored. A reservation makes a rule
only where the router of its own tenant has a guest at its inside end.
-/

namespace MeisterStack.ControllerApi.NatRules

open Common Foundation.Text List

structure Router extends AddressSpace.Router where
  name : String
  snat : Bool
  externalAddr : String

structure FloatingIp where
  tenant : String
  address : String
  router : String
  internalAddress : String
  deriving DecidableEq

inductive NatKind where
  | snat
  | dnatAndSnat
  | routed
  deriving DecidableEq

structure NatRule where
  kind : NatKind
  externalIp : String
  logicalIp : String
  deriving DecidableEq

section Rules

variable (escape : Char → String) (router : Router)

def insideAddressRefusal (internal : String) : Option String :=
  match Ipv4Addr.fromStr internal.toList with
  | none => some (quoted escape internal ++ " is not an ipv4 address")
  | some address =>
    match AddressSpace.insideAddress escape router.toRouter with
    | .ok (some (own, range)) =>
      if address = own then some s!"{internal} is router {router.name}'s own inside address"
      else if !range.isAllocatable address.toNat then
        some (s!"{internal} is not a guest address on router {router.name}'s inside prefix " ++
          router.internalAddr)
      else none
    | _ =>
      some (s!"router {router.name} has no inside prefix (" ++
        quoted escape router.internalAddr ++ s!") to place {internal} in")

def own (ip : FloatingIp) : Bool := ip.router = router.name && ip.tenant = router.tenant

def translatesThrough (ip : FloatingIp) : Bool :=
  own router ip && ip.address ≠ "" && ip.internalAddress ≠ "" &&
    (insideAddressRefusal escape router ip.internalAddress).isNone

def dedup : List String → List String
  | a :: b :: rest => if a = b then dedup (b :: rest) else a :: dedup (b :: rest)
  | l => l

def natRules (floating : List FloatingIp) (announced : List String) : List NatRule :=
  let addr := router.externalAddr.toList
  let external := String.ofList (((splitOnce '/' addr).map Prod.fst).getD addr)
  let ours := (floating.filter (translatesThrough escape router)).mergeSort
    fun a b => a.address ≤ b.address
  let prefixes := dedup ((announced.filter (· ≠ "")).mergeSort fun a b => a ≤ b)
  (if router.snat && external ≠ "" then [⟨.snat, external, ""⟩] else []) ++
    ours.map (fun f => ⟨.dnatAndSnat, f.address, f.internalAddress⟩) ++
    prefixes.map fun p => ⟨.routed, "", p⟩

end Rules

variable {escape : Char → String} {router : Router}

variable (escape router) in
/-- The text is the address of a guest of the router's inside prefix. -/
def Inside (internal : String) : Prop :=
  ∃ addr own range, Ipv4Addr.fromStr internal.toList = some addr ∧
    AddressSpace.insideAddress escape router.toRouter = .ok (some (own, range)) ∧ addr ≠ own ∧
    range.isAllocatable addr.toNat

theorem inside_of_not_refused {internal : String}
    (h : insideAddressRefusal escape router internal = none) : Inside escape router internal := by
  unfold insideAddressRefusal at h
  split at h
  · cases h
  · rename_i addr haddr
    split at h
    · rename_i own range hinside
      split_ifs at h with hown halloc
      exact ⟨addr, own, range, haddr, hinside, hown, by simpa using halloc⟩
    · cases h

theorem mergeSort_congr {α β : Type} [LinearOrder β] {l l' : List α} (key : α → β)
    (hkey : ∀ a ∈ l, ∀ b ∈ l, key a = key b → a = b) (h : l.Perm l') :
    l.mergeSort (fun a b => key a ≤ key b) = l'.mergeSort fun a b => key a ≤ key b := by
  have hsorted : ∀ l : List α, (l.mergeSort fun a b => key a ≤ key b).Pairwise
      fun a b => decide (key a ≤ key b) = true := fun l =>
    pairwise_mergeSort (fun a b c hab hbc => by simp at *; exact hab.trans hbc)
      (fun a b => by simpa using le_total (key a) (key b)) l
  refine Perm.eq_of_pairwise (fun a b ha hb hab hba => ?_) (hsorted l) (hsorted l')
    ((mergeSort_perm l _).trans (h.trans (mergeSort_perm l' _).symm))
  rw [mem_mergeSort] at ha hb
  exact hkey a ha b (h.mem_iff.mpr hb) (le_antisymm (by simpa using hab) (by simpa using hba))

/-- Every translation of a router comes from a reservation of its own tenant that names it and ends
at a guest of its inside prefix. The rules are the same in every order of the reservations and the
prefixes, whatever reservations of other tenants or routers there are. -/
theorem nat_rules_own (floating : List FloatingIp) (announced : List String)
    (hdistinct : (floating.map (·.address)).Nodup) :
    (∀ rule ∈ natRules escape router floating announced, rule.kind = .dnatAndSnat →
      ∃ ip ∈ floating, rule = ⟨.dnatAndSnat, ip.address, ip.internalAddress⟩ ∧
        ip.tenant = router.tenant ∧ ip.router = router.name ∧
        Inside escape router ip.internalAddress) ∧
    ∀ floating' announced', (floating.filter (own router)).Perm (floating'.filter (own router)) →
      announced.Perm announced' →
      natRules escape router floating' announced' = natRules escape router floating announced := by
  refine ⟨fun rule hrule hkind => ?_, fun floating' announced' hfloating hannounced => ?_⟩
  · simp only [natRules, mem_append, mem_map, mem_mergeSort, mem_filter,
      translatesThrough, Bool.and_eq_true] at hrule
    rcases hrule with (hrule | ⟨ip, ⟨hip, ⟨⟨hown, -⟩, -⟩, hinside⟩, rfl⟩) | ⟨p, -, rfl⟩
    · split_ifs at hrule with hsnat
      · cases mem_singleton.mp hrule
        cases hkind
      · cases hrule
    · simp only [own, Bool.and_eq_true, decide_eq_true_eq] at hown
      exact ⟨ip, hip, rfl, hown.2, hown.1,
        inside_of_not_refused (Option.isNone_iff_eq_none.mp hinside)⟩
    · cases hkind
  · have hours : ∀ l : List FloatingIp, l.filter (translatesThrough escape router) =
        (l.filter (own router)).filter (translatesThrough escape router) := fun l => by
      rw [filter_filter]
      exact filter_congr fun ip _ => by grind [translatesThrough]
    have hkey : ∀ a ∈ floating, ∀ b ∈ floating, a.address = b.address → a = b :=
      inj_on_of_nodup_map hdistinct
    have hprefixes := mergeSort_congr id (fun _ _ _ _ h => h) (hannounced.filter (· ≠ ""))
    dsimp only [id] at hprefixes
    unfold natRules
    rw [hours floating, hours floating', hprefixes,
      mergeSort_congr (·.address) (by grind) (hfloating.filter _)]

def edge : Router := ⟨⟨"t", "10.30.0.1/24"⟩, "edge", true, "192.0.2.9/24"⟩

def web : FloatingIp := ⟨"t", "203.0.113.7", "edge", "10.30.0.9"⟩

/-- A reservation of another tenant that names the router is no rule of it. -/
theorem nat_rules_own_foreign :
    natRules Char.toString edge [{ web with tenant := "u", address := "203.0.113.9" }, web] [] =
      natRules Char.toString edge [web] [] :=
  (nat_rules_own [web] [] (by decide)).2 _ [] (by decide) (.refl _)

end MeisterStack.ControllerApi.NatRules
