import MeisterStack.Common.Net

/-!
# Floating addresses

Which pool an address comes from, which address is picked and how many a tenant may hold. A
reservation is stored under its address, so two callers that pick one collide in the store.
-/

namespace MeisterStack.ControllerApi

open Common Ipv4Ranges

structure FloatingPoolSpec where
  cidrs : List Ipv4Range
  isPublic : Bool
  default : Bool
  quota : List (String × Nat)
  deriving DecidableEq

def defaultQuotaPrivate : Nat := 4

def defaultQuotaPublic : Nat := 0

def FloatingPoolSpec.quotaFor (spec : FloatingPoolSpec) (tenant : String) : Nat :=
  (spec.quota.lookup tenant).getD
    (if spec.isPublic then defaultQuotaPublic else defaultQuotaPrivate)

structure Pointing where
  vm : Option String
  router : String
  internalAddress : String

structure FloatingIp where
  uid : String
  tenant : String
  pool : String
  address : Nat
  pointing : Pointing

namespace Floating

def maxRounds : Nat := 16

inductive Refusal where
  | noSuchPool (name : String)
  | noPool
  | noDefault (known : List String)
  | manyDefaults (names : List String)
  | noQuota (tenant pool : String)
  | quotaUsed (tenant pool : String) (quota : Nat)
  | noneFree (pool : String) (used total : Nat)
  | notInPool (addr : Nat) (pool : String)
  | notHandedOut (addr : Nat) (pool : String)
  | reserved (addr : Nat)
  | lostRaces (pool : String)
  | notTakenBack (addr : Nat)
  | store

def pickPool (pools : List (String × FloatingPoolSpec)) (named : Option String) :
    Except Refusal (String × FloatingPoolSpec) :=
  match named.filter (· != "") with
  | some name =>
    match pools.find? fun p => p.1 = name with
    | some p => .ok p
    | none => .error (.noSuchPool name)
  | none =>
    match pools.filter fun p => p.2.default with
    | [one] => .ok one
    | [] => .error (if pools = [] then .noPool else .noDefault (pools.map Prod.fst))
    | many => .error (.manyDefaults (many.map Prod.fst))

def heldBy (ips : List FloatingIp) (tenant pool : String) : Nat :=
  (ips.filter fun ip => ip.tenant = tenant && ip.pool = pool).length

def pickAddress (cidrs : List Ipv4Range) (pool : String) (wanted : Option Nat)
    (taken : List Nat) : Except Refusal Nat :=
  match wanted with
  | none =>
    match firstFree cidrs taken with
    | some addr => .ok addr
    | none => .error (.noneFree pool taken.length (len cidrs))
  | some addr =>
    if !contains cidrs addr then .error (.notInPool addr pool)
    else if !isAllocatable cidrs addr then .error (.notHandedOut addr pool)
    else if taken.contains addr then .error (.reserved addr)
    else .ok addr

def withinQuota (after : List FloatingIp) (tenant pool : String) (quota : Nat) : Bool :=
  heldBy after tenant pool ≤ quota

theorem pickPool_mem {pools named p} (h : pickPool pools named = .ok p) : p ∈ pools := by
  unfold pickPool at h
  split at h
  · split at h <;> cases h
    rename_i hfind
    exact List.mem_of_find?_eq_some hfind
  · split at h
    · rename_i hone
      cases h
      have hmem : p ∈ pools.filter fun q => q.2.default := by simp [hone]
      exact (List.mem_filter.mp hmem).1
    · cases h
    · cases h

theorem pickAddress_ok {cidrs pool wanted taken addr}
    (h : pickAddress cidrs pool wanted taken = .ok addr) :
    isAllocatable cidrs addr ∧ addr ∉ taken := by
  unfold pickAddress at h
  split at h
  · split at h <;> cases h
    rename_i hfree
    exact firstFree_some hfree
  · split at h
    · cases h
    · split at h
      · cases h
      · rename_i halloc
        split at h <;> cases h
        rename_i hfree
        exact ⟨by simpa using halloc, by simpa using hfree⟩

end Floating

end MeisterStack.ControllerApi
