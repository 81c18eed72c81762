import MeisterStack.Common.NetText

/-!
# Who claims which address space

What a tenant's router opens on the source allowlists of its guests. The prefix behind a router is
the tenant's own word; it opens nothing the tenant does not hold and nothing on somebody else's
claim.
-/

namespace MeisterStack.ControllerApi.AddressSpace

open Common Foundation.Text List Ipv4Range

structure FloatingPool where
  name : String
  cidrs : List String

structure RoutedSubnet where
  name : String
  tenant : String
  cidr : String
  deriving DecidableEq

structure Tenant where
  name : String
  networkPrefixes : List String

structure ProviderNetwork where
  name : String
  cidr : String
  allocation : List String
  gateway : String

structure Router where
  tenant : String
  internalAddr : String

def occupied (pools : List FloatingPool) (subnets : List RoutedSubnet) (except : Option String) :
    List (String × Ipv4Range) :=
  (pools.flatMap fun p =>
    (readable p.cidrs).map fun range => ("floating pool " ++ p.name, range)) ++
  (subnets.filter fun s => except ≠ some s.name).flatMap fun s =>
    (readable [s.cidr]).map fun range =>
      ("routed subnet " ++ s.name ++ " (tenant " ++ s.tenant ++ ")", range)

def tenantNetworks (tenants : List Tenant) (except : Option String) :
    List (String × Ipv4Range) :=
  (tenants.filter fun t => some t.name ≠ except).flatMap fun t =>
    (readable t.networkPrefixes).map fun range =>
      ("tenant " ++ t.name ++ "'s network", range)

def ProviderNetwork.entries (n : ProviderNetwork) : List String :=
  if n.cidr = "" then n.allocation ++ [n.gateway] else [n.cidr]

def providerWires (networks : List ProviderNetwork) : List (String × Ipv4Range) :=
  networks.flatMap fun n =>
    (readable n.entries).map fun range => ("provider network " ++ n.name, range)

section Router

-- how a character is written inside quotes
variable (escape : Char → String)

variable (router : Router)

def insideAddress : Except String (Option (Ipv4Addr × Ipv4Range)) :=
  let inside := router.internalAddr
  if inside = "" then .ok none
  else
    match (splitOnce '/' inside.toList).bind fun (host, _) => Ipv4Addr.fromStr (trim host) with
    | none =>
      .error (quoted escape inside ++
        " is not an address with its prefix length, like 10.30.0.1/24")
    | some host =>
      match fromStr inside with
      | .error e => .error (e.display escape)
      | .ok range => .ok (some (host, range))

def insidePrefix : Except String (Option Ipv4Range) :=
  (insideAddress escape router).map fun inside => inside.map Prod.snd

def cidrOf (range : Ipv4Range) : String := range.toCidr.getD range.display

def coveredByAny (entries : List String) (range : Ipv4Range) : Bool :=
  (readable entries).any fun r => r.covers range

def ownSubnets (tenant : String) (subnets : List RoutedSubnet) : List String :=
  (subnets.filter fun s => s.tenant = tenant).map RoutedSubnet.cidr

def prefixBeyondOwn (subnets : List RoutedSubnet) (declared : List String) :
    Except String (Option Ipv4Range) :=
  match insidePrefix escape router with
  | .error e => .error e
  | .ok none => .ok none
  | .ok (some range) =>
    if coveredByAny (ownSubnets router.tenant subnets) range || coveredByAny declared range then
      .ok none
    else if declared ≠ [] then
      .error (cidrOf range ++ " is not inside tenant " ++ router.tenant ++ "'s network (" ++
        String.intercalate ", " declared ++ ")")
    else .ok (some range)

end Router

structure ClaimedSpace where
  pools : List FloatingPool
  subnets : List RoutedSubnet
  tenants : List Tenant
  providerNetworks : List ProviderNetwork
  routedPools : List Ipv4Range

namespace ClaimedSpace

variable (space : ClaimedSpace) (tenant : String)

def othersSubnets : List (String × Ipv4Range) :=
  (readable ((space.subnets.filter fun s => s.tenant ≠ tenant).map RoutedSubnet.cidr)).map
    fun range => ("another tenant's routed subnet", range)

def routedPoolClaims : List (String × Ipv4Range) :=
  space.routedPools.map fun range => ("the routed pools", range)

def othersNetworks : List (String × Ipv4Range) :=
  (tenantNetworks space.tenants (some tenant)).map fun (_, range) =>
    ("another tenant's network", range)

def offLimitsToInsidePrefix : List (String × Ipv4Range) :=
  occupied space.pools [] none ++ space.othersSubnets tenant ++ space.routedPoolClaims ++
    space.othersNetworks tenant ++ providerWires space.providerNetworks

def refusalOf (range : Ipv4Range) : Option String :=
  ((space.offLimitsToInsidePrefix tenant).find? fun claim => claim.2.overlaps range).map
    fun (what, _) =>
      cidrOf range ++ " overlaps " ++ what ++ "; tenant " ++ tenant ++
        " declares no network its routers' prefixes could lie in"

def openedByRouter (escape : Char → String) (router : Router) (declared : List String) :
    Except String (Option Ipv4Range) :=
  match prefixBeyondOwn escape router space.subnets declared with
  | .error e => .error e
  | .ok none => .ok none
  | .ok (some range) =>
    match space.refusalOf router.tenant range with
    | some why => .error why
    | none => .ok (some range)

end ClaimedSpace

section Opened

variable {escape : Char → String} {space : ClaimedSpace} {router : Router} {declared : List String}
  {range : Ipv4Range}

theorem mem_readable {entries entry} (hentry : entry ∈ entries)
    (hread : fromStr entry = .ok range) : range ∈ readable entries :=
  mem_filterMap.mpr ⟨entry, hentry, by simp [hread, Except.toOption]⟩

variable {subnets : List RoutedSubnet}

theorem prefixBeyondOwn_none (h : prefixBeyondOwn escape router subnets declared = .ok none)
    (hinside : insidePrefix escape router = .ok (some range)) :
    ∃ r, (r ∈ readable (ownSubnets router.tenant subnets) ∨
      r ∈ readable declared) ∧ r.covers range := by
  simp only [prefixBeyondOwn, hinside] at h
  split_ifs at h with hcovered
  · simp only [coveredByAny, Bool.or_eq_true, any_eq_true] at hcovered
    rcases hcovered with ⟨r, hr, hcovers⟩ | ⟨r, hr, hcovers⟩
    · exact ⟨r, .inl hr, hcovers⟩
    · exact ⟨r, .inr hr, hcovers⟩
  · cases h

theorem prefixBeyondOwn_named {beyond} (hnamed : router.internalAddr ≠ "")
    (h : prefixBeyondOwn escape router subnets declared = .ok beyond) :
    ∃ inside, insidePrefix escape router = .ok (some inside) := by
  cases hinside : insidePrefix escape router with
  | error =>
    simp only [prefixBeyondOwn, hinside] at h
    cases h
  | ok inside =>
    cases inside with
    | some range => exact ⟨range, rfl⟩
    | none =>
      unfold insidePrefix insideAddress at hinside
      rw [if_neg hnamed] at hinside
      split at hinside
      · cases hinside
      · split at hinside <;> cases hinside

theorem prefixBeyondOwn_some
    (h : prefixBeyondOwn escape router subnets declared = .ok (some range)) :
    insidePrefix escape router = .ok (some range) := by
  unfold prefixBeyondOwn at h
  split at h
  · cases h
  · cases h
  · rename_i inside hinside
    split_ifs at h
    · cases h
    · cases h
      exact hinside

theorem refusalOf_none {tenant} (h : space.refusalOf tenant range = none) {claim}
    (hclaim : claim ∈ space.offLimitsToInsidePrefix tenant) : claim.2.overlaps range = false := by
  simp only [ClaimedSpace.refusalOf, Option.map_eq_none_iff, find?_eq_none] at h
  simpa using h claim hclaim

theorem openedByRouter_some (h : space.openedByRouter escape router declared = .ok (some range)) :
    space.refusalOf router.tenant range = none := by
  unfold ClaimedSpace.openedByRouter at h
  split at h
  · cases h
  · cases h
  · split at h <;> cases h
    rename_i hrefusal
    exact hrefusal

theorem openedByRouter_none (h : space.openedByRouter escape router declared = .ok none) :
    prefixBeyondOwn escape router space.subnets declared = .ok none := by
  unfold ClaimedSpace.openedByRouter at h
  split at h
  · cases h
  · rename_i hown
    exact hown
  · split at h <;> cases h

end Opened

def Apart (r other : Ipv4Range) : Prop :=
  ∀ addr, r.contains addr → other.contains addr = false

theorem apart_of_opened {escape} {space : ClaimedSpace} {router} {declared range}
    (h : space.openedByRouter escape router declared = .ok (some range))
    {claim} (hclaim : claim ∈ space.offLimitsToInsidePrefix router.tenant) :
    Apart range claim.2 := by
  have hoverlaps := refusalOf_none (openedByRouter_some h) hclaim
  rw [overlaps_comm] at hoverlaps
  exact fun addr => not_contains_of_not_overlaps hoverlaps

inductive ClaimKind where
  | floatingPool
  | othersSubnet
  | routedPools
  | othersNetwork
  | providerWire
  deriving DecidableEq

def hits (claims : List (String × Ipv4Range)) (range : Ipv4Range) : Bool :=
  claims.any fun claim => claim.2.overlaps range

def label (claims : List (String × Ipv4Range)) (range : Ipv4Range) : Option String :=
  (claims.find? fun claim => claim.2.overlaps range).map Prod.fst

namespace ClaimedSpace

def hitFirst (space : ClaimedSpace) (tenant : String) (range : Ipv4Range) : Option ClaimKind :=
  if hits (occupied space.pools [] none) range then some .floatingPool
  else if hits (space.othersSubnets tenant) range then some .othersSubnet
  else if hits space.routedPoolClaims range then some .routedPools
  else if hits (space.othersNetworks tenant) range then some .othersNetwork
  else if hits (providerWires space.providerNetworks) range then some .providerWire
  else none

structure SameButOthers (tenant : String) (space other : ClaimedSpace) : Prop where
  pools : space.pools = other.pools
  own : space.subnets.filter (fun s => s.tenant = tenant) =
    other.subnets.filter fun s => s.tenant = tenant
  providerNetworks : space.providerNetworks = other.providerNetworks
  routedPools : space.routedPools = other.routedPools

end ClaimedSpace

section Refusal

variable {claims : List (String × Ipv4Range)} {range : Ipv4Range} {tenant : String}
  {space other : ClaimedSpace}

theorem label_append (claims more range) :
    label (claims ++ more) range = (label claims range).or (label more range) := by
  simp [label, find?_append, Option.map_or]

theorem label_of_not_hits (h : hits claims range = false) : label claims range = none := by
  simpa [label, hits] using h

theorem label_of_hits (h : hits claims range) :
    ∃ claim ∈ claims, label claims range = some claim.1 := by
  obtain ⟨claim, hclaim, hoverlaps⟩ := any_eq_true.mp h
  have hsome : (claims.find? fun claim => claim.2.overlaps range).isSome :=
    find?_isSome.mpr ⟨claim, hclaim, hoverlaps⟩
  obtain ⟨found, hfound⟩ := Option.isSome_iff_exists.mp hsome
  exact ⟨found, mem_of_find?_eq_some hfound, by simp [label, hfound]⟩

theorem label_othersSubnets (space : ClaimedSpace) (tenant range) :
    label (space.othersSubnets tenant) range =
      if hits (space.othersSubnets tenant) range then some "another tenant's routed subnet"
      else none := by
  split_ifs with h
  · obtain ⟨claim, hclaim, hlabel⟩ := label_of_hits h
    obtain ⟨r, -, rfl⟩ := mem_map.mp hclaim
    exact hlabel
  · exact label_of_not_hits (Bool.eq_false_iff.mpr h)

theorem label_othersNetworks (space : ClaimedSpace) (tenant range) :
    label (space.othersNetworks tenant) range =
      if hits (space.othersNetworks tenant) range then some "another tenant's network"
      else none := by
  split_ifs with h
  · obtain ⟨claim, hclaim, hlabel⟩ := label_of_hits h
    obtain ⟨r, -, rfl⟩ := mem_map.mp hclaim
    exact hlabel
  · exact label_of_not_hits (Bool.eq_false_iff.mpr h)

theorem refusalOf_eq (space : ClaimedSpace) (tenant range) :
    space.refusalOf tenant range =
      (label (space.offLimitsToInsidePrefix tenant) range).map fun what =>
        cidrOf range ++ " overlaps " ++ what ++ "; tenant " ++ tenant ++
          " declares no network its routers' prefixes could lie in" := by
  simp [ClaimedSpace.refusalOf, label, Function.comp_def]

theorem label_offLimits_eq (hsame : space.SameButOthers tenant other)
    (hkind : space.hitFirst tenant range = other.hitFirst tenant range) :
    label (space.offLimitsToInsidePrefix tenant) range =
      label (other.offLimitsToInsidePrefix tenant) range := by
  have hrouted : space.routedPoolClaims = other.routedPoolClaims := by
    simp [ClaimedSpace.routedPoolClaims, hsame.routedPools]
  simp only [ClaimedSpace.offLimitsToInsidePrefix, label_append, hsame.pools,
    hsame.providerNetworks, hrouted]
  simp only [ClaimedSpace.hitFirst, hsame.pools, hsame.providerNetworks, hrouted] at hkind
  rw [label_othersSubnets, label_othersSubnets, label_othersNetworks, label_othersNetworks]
  -- the pools come first, are the same in both, and end the search where they are hit
  cases hpool : hits (occupied other.pools [] none) range with
  | true =>
    obtain ⟨claim, -, hlabel⟩ := label_of_hits hpool
    simp [hlabel]
  | false =>
    simp only [hpool] at hkind
    cases hpools : hits other.routedPoolClaims range with
    | true =>
      obtain ⟨claim, -, hlabel⟩ := label_of_hits hpools
      simp only [hpools] at hkind
      split_ifs at hkind <;> simp_all
    | false =>
      simp only [hpools] at hkind
      split_ifs at hkind <;> simp_all

theorem openedByRouter_eq {escape router declared} (hsame : space.SameButOthers router.tenant other)
    (hkind : ∀ range, insidePrefix escape router = .ok (some range) →
      space.hitFirst router.tenant range = other.hitFirst router.tenant range) :
    space.openedByRouter escape router declared = other.openedByRouter escape router declared := by
  have hbeyond : prefixBeyondOwn escape router space.subnets declared =
      prefixBeyondOwn escape router other.subnets declared := by
    simp [prefixBeyondOwn, ownSubnets, hsame.own]
  unfold ClaimedSpace.openedByRouter
  rw [hbeyond]
  cases hinner : prefixBeyondOwn escape router other.subnets declared with
  | error => rfl
  | ok opened =>
    cases opened with
    | none => rfl
    | some range =>
      have hlabel := label_offLimits_eq hsame (hkind range (prefixBeyondOwn_some hinner))
      simp only [refusalOf_eq, hlabel]

end Refusal

section OffLimits

variable {space : ClaimedSpace} {tenant : String} {entry : String} {range : Ipv4Range}

theorem offLimits_of_pool {pool} (hpool : pool ∈ space.pools) (hentry : entry ∈ pool.cidrs)
    (hread : fromStr entry = .ok range) :
    ("floating pool " ++ pool.name, range) ∈ space.offLimitsToInsidePrefix tenant := by
  have hmem : ("floating pool " ++ pool.name, range) ∈ occupied space.pools [] none :=
    mem_append_left _ (mem_flatMap.mpr
      ⟨pool, hpool, mem_map.mpr ⟨range, mem_readable hentry hread, rfl⟩⟩)
  simp [ClaimedSpace.offLimitsToInsidePrefix, hmem]

theorem offLimits_of_othersSubnet {subnet} (hsubnet : subnet ∈ space.subnets)
    (htenant : subnet.tenant ≠ tenant) (hread : fromStr subnet.cidr = .ok range) :
    ("another tenant's routed subnet", range) ∈ space.offLimitsToInsidePrefix tenant := by
  have hcidr : subnet.cidr ∈
      (space.subnets.filter fun s => s.tenant ≠ tenant).map RoutedSubnet.cidr :=
    mem_map.mpr ⟨subnet, mem_filter.mpr ⟨hsubnet, by simpa using htenant⟩, rfl⟩
  have hmem : ("another tenant's routed subnet", range) ∈ space.othersSubnets tenant :=
    mem_map.mpr ⟨range, mem_readable hcidr hread, rfl⟩
  simp [ClaimedSpace.offLimitsToInsidePrefix, hmem]

theorem offLimits_of_routedPool (hrange : range ∈ space.routedPools) :
    ("the routed pools", range) ∈ space.offLimitsToInsidePrefix tenant := by
  have hmem : ("the routed pools", range) ∈ space.routedPoolClaims :=
    mem_map.mpr ⟨range, hrange, rfl⟩
  simp [ClaimedSpace.offLimitsToInsidePrefix, hmem]

theorem offLimits_of_othersNetwork {owner} (howner : owner ∈ space.tenants)
    (htenant : owner.name ≠ tenant) (hentry : entry ∈ owner.networkPrefixes)
    (hread : fromStr entry = .ok range) :
    ("another tenant's network", range) ∈ space.offLimitsToInsidePrefix tenant := by
  have hnetwork : ("tenant " ++ owner.name ++ "'s network", range) ∈
      tenantNetworks space.tenants (some tenant) :=
    mem_flatMap.mpr ⟨owner, mem_filter.mpr ⟨howner, by simpa using htenant⟩,
      mem_map.mpr ⟨range, mem_readable hentry hread, rfl⟩⟩
  have hmem : ("another tenant's network", range) ∈ space.othersNetworks tenant :=
    mem_map.mpr ⟨_, hnetwork, rfl⟩
  simp [ClaimedSpace.offLimitsToInsidePrefix, hmem]

theorem offLimits_of_providerWire {network} (hnetwork : network ∈ space.providerNetworks)
    (hentry : entry ∈ network.entries) (hread : fromStr entry = .ok range) :
    ("provider network " ++ network.name, range) ∈ space.offLimitsToInsidePrefix tenant := by
  have hmem : ("provider network " ++ network.name, range) ∈
      providerWires space.providerNetworks :=
    mem_flatMap.mpr
      ⟨network, hnetwork, mem_map.mpr ⟨range, mem_readable hentry hread, rfl⟩⟩
  simp [ClaimedSpace.offLimitsToInsidePrefix, hmem]

end OffLimits

inductive ClaimedBySomebodyElse (space : ClaimedSpace) (tenant : String) : Ipv4Range → Prop
  | pool {pool entry range} : pool ∈ space.pools → entry ∈ pool.cidrs →
      fromStr entry = .ok range → ClaimedBySomebodyElse space tenant range
  | subnet {subnet : RoutedSubnet} {range} : subnet ∈ space.subnets → subnet.tenant ≠ tenant →
      fromStr subnet.cidr = .ok range → ClaimedBySomebodyElse space tenant range
  | routedPool {range} : range ∈ space.routedPools → ClaimedBySomebodyElse space tenant range
  | network {owner : Tenant} {entry range} : owner ∈ space.tenants → owner.name ≠ tenant →
      entry ∈ owner.networkPrefixes → fromStr entry = .ok range →
      ClaimedBySomebodyElse space tenant range
  | providerWire {network entry range} : network ∈ space.providerNetworks →
      entry ∈ network.entries → fromStr entry = .ok range →
      ClaimedBySomebodyElse space tenant range

theorem ClaimedBySomebodyElse.offLimits {space tenant range}
    (h : ClaimedBySomebodyElse space tenant range) :
    ∃ what, (what, range) ∈ space.offLimitsToInsidePrefix tenant := by
  cases h with
  | pool hpool hentry hread => exact ⟨_, offLimits_of_pool hpool hentry hread⟩
  | subnet hsubnet htenant hread => exact ⟨_, offLimits_of_othersSubnet hsubnet htenant hread⟩
  | routedPool hrange => exact ⟨_, offLimits_of_routedPool hrange⟩
  | network howner htenant hentry hread =>
    exact ⟨_, offLimits_of_othersNetwork howner htenant hentry hread⟩
  | providerWire hnetwork hentry hread =>
    exact ⟨_, offLimits_of_providerWire hnetwork hentry hread⟩

inductive ClaimedByTenant (space : ClaimedSpace) (tenant : String) (declared : List String) :
    Ipv4Range → Prop
  | subnet {subnet : RoutedSubnet} {range} : subnet ∈ space.subnets → subnet.tenant = tenant →
      fromStr subnet.cidr = .ok range → ClaimedByTenant space tenant declared range
  | declared {entry range} : entry ∈ declared → fromStr entry = .ok range →
      ClaimedByTenant space tenant declared range

theorem of_mem_readable {entries range} (h : range ∈ readable entries) :
    ∃ entry ∈ entries, fromStr entry = .ok range := by
  obtain ⟨entry, hentry, hread⟩ := mem_filterMap.mp h
  refine ⟨entry, hentry, ?_⟩
  cases hparse : fromStr entry with
  | error => simp [hparse, Except.toOption] at hread
  | ok => simpa [hparse, Except.toOption] using hread

/-- A router opens addresses of nobody else: what it opens is apart from every claim of
somebody else, where it opens nothing its prefix is the tenant's own already, and what it is
told depends on others only through the kind of claim that it meets first. -/
theorem openedByRouter_opens_nobody_elses (escape : Char → String) (space : ClaimedSpace)
    (router : Router) (declared : List String) :
    (∀ opened, space.openedByRouter escape router declared = .ok (some opened) →
      ∀ range, ClaimedBySomebodyElse space router.tenant range → Apart opened range) ∧
    (space.openedByRouter escape router declared = .ok none → router.internalAddr ≠ "" →
      ∃ inside, insidePrefix escape router = .ok (some inside) ∧
        ∃ range, ClaimedByTenant space router.tenant declared range ∧
          ∀ addr, inside.contains addr → range.contains addr) ∧
    ∀ other, space.SameButOthers router.tenant other →
      (∀ inside, insidePrefix escape router = .ok (some inside) →
        space.hitFirst router.tenant inside = other.hitFirst router.tenant inside) →
      space.openedByRouter escape router declared =
        other.openedByRouter escape router declared := by
  refine ⟨fun opened hopened range hrange => ?_, fun hnone hnamed => ?_, fun other hsame hkind =>
    openedByRouter_eq hsame hkind⟩
  · obtain ⟨what, hwhat⟩ := hrange.offLimits
    exact apart_of_opened hopened hwhat
  · have hown := openedByRouter_none hnone
    obtain ⟨inside, hinside⟩ := prefixBeyondOwn_named hnamed hown
    obtain ⟨r, hr, hcovers⟩ := prefixBeyondOwn_none hown hinside
    refine ⟨inside, hinside, r, ?_, fun addr => contains_of_covers hcovers⟩
    rcases hr with hr | hr
    · obtain ⟨entry, hentry, hread⟩ := of_mem_readable hr
      obtain ⟨subnet, hsubnet, rfl⟩ := mem_map.mp hentry
      obtain ⟨hmem, htenant⟩ := mem_filter.mp hsubnet
      exact .subnet hmem (by simpa using htenant) hread
    · obtain ⟨entry, hentry, hread⟩ := of_mem_readable hr
      exact .declared hentry hread

def labSpace : ClaimedSpace where
  pools := [⟨"lab", ["198.51.100.0/24"]⟩]
  subnets := [⟨"web", "rival", "10.7.2.0/24"⟩, ⟨"own", "acme", "10.30.0.0/24"⟩]
  tenants := [⟨"rival", ["10.50.0.0/16"]⟩]
  providerNetworks := [⟨"ext", "10.172.0.0/24", [], ""⟩]
  routedPools := readable ["10.7.0.0/16"]

def otherRival : ClaimedSpace :=
  { labSpace with
    subnets := [⟨"own", "acme", "10.30.0.0/24"⟩]
    tenants := [⟨"stranger", ["10.48.0.0/12"]⟩] }

/-- In the lab, a prefix that nobody claims is opened and is apart from the rival's subnet, a
prefix inside the tenant's own subnet opens nothing, and the words for a prefix on the rival's
network are those for the stranger's. -/
theorem openedByRouter_opens_nobody_elses_lab :
    (∃ opened range,
      labSpace.openedByRouter Char.toString ⟨"acme", "10.90.0.1/24"⟩ [] = .ok (some opened) ∧
        fromStr "10.7.2.0/24" = .ok range ∧ Apart opened range) ∧
    (∃ inside, insidePrefix Char.toString ⟨"acme", "10.30.0.1/25"⟩ = .ok (some inside) ∧
      ∃ range, ClaimedByTenant labSpace "acme" [] range ∧
        ∀ addr, inside.contains addr → range.contains addr) ∧
    labSpace.openedByRouter Char.toString ⟨"acme", "10.50.3.1/25"⟩ [] =
      otherRival.openedByRouter Char.toString ⟨"acme", "10.50.3.1/25"⟩ [] := by
  refine ⟨?_, ?_, ?_⟩
  · let opened : Ipv4Range := ⟨173670400, 173670655, true, by decide, by decide⟩
    let range : Ipv4Range := ⟨168231424, 168231679, true, by decide, by decide⟩
    have hopened : labSpace.openedByRouter Char.toString ⟨"acme", "10.90.0.1/24"⟩ [] =
        .ok (some opened) := by decide +kernel
    have hread : fromStr "10.7.2.0/24" = .ok range := by decide +kernel
    refine ⟨opened, range, hopened, hread, ?_⟩
    exact (openedByRouter_opens_nobody_elses Char.toString labSpace _ []).1 opened hopened range
      (.subnet (mem_cons_self ..) (by decide) hread)
  · exact (openedByRouter_opens_nobody_elses Char.toString labSpace ⟨"acme", "10.30.0.1/25"⟩ []).2.1
      (by decide +kernel) (by decide)
  · have hinside : insidePrefix Char.toString ⟨"acme", "10.50.3.1/25"⟩ =
        .ok (some ⟨171049728, 171049855, true, by decide, by decide⟩) := by decide +kernel
    refine (openedByRouter_opens_nobody_elses Char.toString labSpace _ []).2.2 otherRival
      ⟨rfl, by decide, rfl, rfl⟩ fun inside h => ?_
    cases hinside.symm.trans h
    decide +kernel

end MeisterStack.ControllerApi.AddressSpace
