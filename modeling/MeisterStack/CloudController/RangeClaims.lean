import MeisterStack.Foundation.Program
import MeisterStack.ControllerApi.Deletion
import MeisterStack.Common.Net

/-!
# Claims on address space

Floating pools, routed subnets and tenants' networks claim ranges of addresses. A claim is checked
against what is stored, written, and asked about again: it yields to a rival of an earlier revision,
and a pool or a subnet to any tenant's network. An update of a routed subnet, the stamp of its
addresses and an update of a tenant that leaves its prefixes alone are not asked about.
-/

namespace MeisterStack.CloudController.RangeClaims

open Foundation ControllerApi Common

structure FloatingPool where
  uid : String
  cidrs : List Ipv4Range
  default : Bool
  deriving DecidableEq

structure RoutedSubnet where
  uid : String
  tenant : String
  cidr : Ipv4Range
  deriving DecidableEq

structure Tenant where
  uid : String
  networkPrefixes : List Ipv4Range
  deriving DecidableEq

inductive Object where
  | pool (pool : FloatingPool)
  | subnet (subnet : RoutedSubnet)
  | tenant (tenant : Tenant)
  deriving DecidableEq

inductive Kind where
  | pool | subnet | tenant
  deriving DecidableEq

structure Key where
  kind : Kind
  name : String
  deriving DecidableEq

namespace Object

def kind : Object → Kind
  | .pool _ => .pool
  | .subnet _ => .subnet
  | .tenant _ => .tenant

def uid : Object → String
  | .pool p => p.uid
  | .subnet n => n.uid
  | .tenant t => t.uid

def ranges : Object → List Ipv4Range
  | .pool p => p.cidrs
  | .subnet n => [n.cidr]
  | .tenant t => t.networkPrefixes

def key (o : Object) (name : String) : Key := ⟨o.kind, name⟩

end Object

structure State where
  next : Nat
  pools : Table String FloatingPool
  subnets : Table String RoutedSubnet
  tenants : Table String Tenant

namespace State

def cell (s : State) (k : Key) : Cell Object :=
  match k.kind with
  | .pool => (s.pools.cell k.name).map fun v => ⟨v.rev, .pool v.val⟩
  | .subnet => (s.subnets.cell k.name).map fun v => ⟨v.rev, .subnet v.val⟩
  | .tenant => (s.tenants.cell k.name).map fun v => ⟨v.rev, .tenant v.val⟩

def put (s : State) (name : String) : Object → State
  | .pool p => { s with next := s.next + 1, pools := s.pools.put name s.next p }
  | .subnet n => { s with next := s.next + 1, subnets := s.subnets.put name s.next n }
  | .tenant t => { s with next := s.next + 1, tenants := s.tenants.put name s.next t }

def remove (s : State) (k : Key) : State :=
  match k.kind with
  | .pool => { s with next := s.next + 1, pools := s.pools.remove k.name }
  | .subnet => { s with next := s.next + 1, subnets := s.subnets.remove k.name }
  | .tenant => { s with next := s.next + 1, tenants := s.tenants.remove k.name }

end State

inductive Claimant where
  | pool (name : String)
  | subnet (name tenant : String)
  | network (tenant : String)

namespace Claimant

def isPool : Claimant → String → Bool
  | .pool name, other => name = other
  | _, _ => false

def mayHold : Claimant → String → RoutedSubnet → Bool
  | .pool _, _, _ => false
  | .subnet name _, other, _ => name = other
  | .network tenant, _, held => tenant = held.tenant

def avoids : Claimant → String → Bool
  | .pool _, _ => true
  | .subnet _ tenant, other => other != tenant
  | .network _, _ => false

end Claimant

def Object.claimant (o : Object) (name : String) : Claimant :=
  match o with
  | .pool _ => .pool name
  | .subnet n => .subnet name n.tenant
  | .tenant _ => .network name

inductive Look where
  | defaults | pools | subnets | networks
  deriving DecidableEq

def Object.looks : Object → List Look
  | .pool p => (if p.default then [.defaults] else []) ++ [.pools, .subnets, .networks]
  | .subnet _ => [.pools, .subnets, .networks]
  | .tenant _ => [.pools, .subnets]

structure Collision where
  what : String
  revision : Option Nat

def arrivedAfter (mine : Nat) : Option Nat → Bool
  | some theirs => mine > theirs
  | none => true

def lostTo (mine : Nat) (hits : List Collision) : Option Collision :=
  hits.find? fun c => arrivedAfter mine c.revision

def poolNamed (name : String) : String := s!"floating pool {name}"

def subnetNamed (name : String) (subnet : RoutedSubnet) : String :=
  let tenant := subnet.tenant
  s!"routed subnet {name} (tenant {tenant})"

def networkNamed (name : String) : String := s!"tenant {name}'s network"

namespace State

def collisions (s : State) (look : Look) (name : String) (o : Object) : List Collision :=
  let mine := o.claimant name
  match look with
  | .defaults =>
    (s.pools.list.filter fun e => e.2.val.default && e.1 != name).map fun e =>
      ⟨poolNamed e.1, some e.2.rev⟩
  | .pools =>
    (s.pools.list.filter fun e => !mine.isPool e.1 && overlapping e.2.val.cidrs o.ranges).map
      fun e => ⟨poolNamed e.1, some e.2.rev⟩
  | .subnets =>
    (s.subnets.list.filter fun e =>
        !mine.mayHold e.1 e.2.val && overlapping [e.2.val.cidr] o.ranges).map fun e =>
      ⟨subnetNamed e.1 e.2.val, some e.2.rev⟩
  | .networks =>
    (s.tenants.list.filter fun e => mine.avoids e.1).flatMap fun e =>
      (e.2.val.networkPrefixes.filter fun r => overlapping [r] o.ranges).map fun _ =>
        ⟨networkNamed e.1, none⟩

def taken (s : State) (look : Look) (mine : Claimant) (except : Option String) :
    List (String × Ipv4Range) :=
  match look with
  | .defaults => []
  | .pools =>
    (s.pools.list.filter fun e => some e.1 != except).flatMap fun e =>
      e.2.val.cidrs.map fun r => (poolNamed e.1, r)
  | .subnets =>
    (s.subnets.list.filter fun e =>
        match mine with
        | .network tenant => e.2.val.tenant != tenant
        | _ => true).map fun e => (subnetNamed e.1 e.2.val, e.2.val.cidr)
  | .networks =>
    (s.tenants.list.filter fun e => mine.avoids e.1).flatMap fun e =>
      e.2.val.networkPrefixes.map fun r => (networkNamed e.1, r)

end State

def checkFree (candidate : Ipv4Range) (occupied : List (String × Ipv4Range)) : Bool :=
  !occupied.any fun o => o.2.overlaps candidate

def canonical (prefixes : List Ipv4Range) : List Ipv4Range :=
  (prefixes.insertionSort fun a b => a.start < b.start ∨ a.start = b.start ∧ a.last ≤ b.last).dedup

def networkPrefixesJudged (declared current : List Ipv4Range) : Bool :=
  declared != [] && declared != current

def maxClaimRounds : Nat := 8

def defaultRoutedPrefixLen : Nat := 24

inductive Write where
  | create
  | update (before : Object) (resourceVersion : Nat)

inductive Body where
  | object (o : Object)
  | cut (tenant : String) (prefixLen : Option Nat) (left : Nat)

structure Request where
  name : String
  body : Body
  write : Write

namespace Request

def claimant (r : Request) : Claimant :=
  match r.body with
  | .object o => o.claimant r.name
  | .cut tenant _ _ => .subnet r.name tenant

def except (r : Request) : Option String :=
  match r.body, r.write with
  | .object (.pool _), .update _ _ => some r.name
  | _, _ => none

def isDefault (r : Request) : Bool :=
  match r.body with
  | .object (.pool p) => p.default
  | _ => false

end Request

inductive Refusal where
  | markedDefault (what : String)
  | claimed (what : String)
  | unanswered

structure Claimed where
  name : String
  object : Object
  rev : Nat
  write : Write
  -- the request for another block, where this one was cut and rounds are left
  again : Option Request

def Claimed.key (c : Claimed) : Key := c.object.key c.name

inductive Task where
  | check (r : Request) (rest : List Look) (taken : List (String × Ipv4Range))
  | write (name : String) (o : Object) (how : Write) (asked : Bool) (again : Option Request)
  | look (c : Claimed) (rest : List Look) (hits : List Collision)
  | undo (c : Claimed) (why : Refusal)
  | takeBack (c : Claimed) (why : Refusal) (d : Deletion Object)
  | isGone (c : Claimed) (why : Refusal)

inductive Input where
  -- the uid is the one a declared object gets
  | go (uid : String)
  | fail
  deriving DecidableEq

inductive Event where
  | createPool (name uid : String) (cidrs : List Ipv4Range) (default : Bool)
  | updatePool (name : String) (cidrs : List Ipv4Range) (default : Bool) (resourceVersion : Nat)
  | createSubnet (name uid tenant : String) (cidr : Ipv4Range)
  | cutSubnet (name tenant : String) (prefixLen : Option Nat)
  | updateSubnet (name : String) (resourceVersion : Nat)
  -- an attempt of the write that notes what an acked create carried
  | stampAddresses (name uid : String)
  | createTenant (name uid : String) (networkPrefixes : List Ipv4Range)
  | updateTenant (name : String) (networkPrefixes : List Ipv4Range) (resourceVersion : Nat)
  | remove (k : Key)

def checks : List Look := [.pools, .subnets, .networks]

def tenantTask (name : String) (body current : Tenant) (how : Write) : Task :=
  if networkPrefixesJudged body.networkPrefixes current.networkPrefixes then
    .check ⟨name, .object (.tenant body), how⟩ [.pools, .subnets] []
  else .write name (.tenant body) how false none

variable (s : State)

def env : Event → Option (State × List Task)
  | .createPool name uid cidrs default =>
    if cidrs = [] then none
    else some (s, [.check ⟨name, .object (.pool ⟨uid, cidrs, default⟩), .create⟩ checks []])
  | .updatePool name cidrs default rev => do
      let current ← s.pools.cell name
      if cidrs = [] then none
      else
        let body : FloatingPool := ⟨current.val.uid, cidrs, default⟩
        return (s, [.check ⟨name, .object (.pool body), .update (.pool current.val) rev⟩ checks []])
  | .createSubnet name uid tenant cidr =>
    if (s.tenants.cell tenant).isNone then none
    else some (s, [.check ⟨name, .object (.subnet ⟨uid, tenant, cidr⟩), .create⟩ checks []])
  | .cutSubnet name tenant prefixLen =>
    if (s.tenants.cell tenant).isNone then none
    else
      let body : Body := .cut tenant prefixLen (maxClaimRounds - 1)
      some (s, [.check ⟨name, body, .create⟩ checks []])
  | .updateSubnet name rev => do
      -- tenant and CIDR are immutable
      let current ← s.subnets.cell name
      return (s, [.write name (.subnet current.val) (.update (.subnet current.val) rev) false none])
  | .stampAddresses name uid => do
      let current ← s.subnets.cell name
      if current.val.uid ≠ uid then none
      else
        let how : Write := .update (.subnet current.val) current.rev
        return (s, [.write name (.subnet current.val) how false none])
  | .createTenant name uid prefixes =>
    some (s, [tenantTask name ⟨uid, prefixes⟩ ⟨uid, []⟩ .create])
  | .updateTenant name prefixes rev => do
      let current ← s.tenants.cell name
      return (s, [tenantTask name ⟨current.val.uid, prefixes⟩ current.val
        (.update (.tenant current.val) rev)])
  | .remove k => some (s.remove k, [])

variable (routedPools : List Ipv4Range)

def conclude (r : Request) (taken : List (String × Ipv4Range))
    (uid : String) : List Task :=
  match r.body with
  | .object (.tenant t) =>
    let occupied := taken ++ routedPools.map fun range => ("the routed pools", range)
    let before := match r.write with
      | .update (.tenant current) _ => current.networkPrefixes
      | _ => []
    let stored := canonical t.networkPrefixes
    if t.networkPrefixes.all fun range => range.isCidr && checkFree range occupied then
      [.write r.name (.tenant { t with networkPrefixes := stored }) r.write
        (networkPrefixesJudged stored before) none]
    else []
  | .object o =>
    if o.ranges.all fun range => checkFree range taken then [.write r.name o r.write true none]
    else []
  | .cut tenant prefixLen left =>
    match cutSubnet routedPools (prefixLen.getD defaultRoutedPrefixLen) taken with
    | none => []
    | some cidr =>
      let again := match left with
        | 0 => none
        | left + 1 => some { r with body := .cut tenant prefixLen left }
      [.write r.name (.subnet ⟨uid, tenant, cidr⟩) r.write true again]

def State.writable (k : Key) : Write → Bool
  | .create => (s.cell k).isNone
  | .update _ rev => (s.cell k).standsAt rev

def Claimed.retry (c : Claimed) : Refusal → List Task
  | .claimed _ =>
    match c.again with
    | some r => [.check r checks []]
    | none => []
  | _ => []

def ask (c : Claimed) (rest : List Look) (hits : List Collision) : List Task :=
  match rest with
  | [] =>
    match lostTo c.rev hits with
    | some won => [.undo c (.claimed won.what)]
    | none => []
  | .defaults :: rest =>
    match lostTo c.rev (s.collisions .defaults c.name c.object) with
    | some won => [.undo c (.markedDefault won.what)]
    | none => [.look c rest hits]
  | look :: rest => [.look c rest (hits ++ s.collisions look c.name c.object)]

def write (name : String) (o : Object) (how : Write) (asked : Bool)
    (again : Option Request) : State × List Task :=
  if s.writable (o.key name) how then
    (s.put name o, if asked then [.look ⟨name, o, s.next, how, again⟩ o.looks []] else [])
  else (s, [])

def putBack (c : Claimed) (before : Object) : State :=
  if (s.cell c.key).standsAt c.rev then s.put c.name before else s

def takeBack (c : Claimed) (why : Refusal) (d : Deletion Object) :
    State × List Task :=
  match finishDelete Object.uid (fun _ => true) (s.cell c.key) d with
  | .removed => (s.remove c.key, c.retry why)
  | .ended => (s, [.isGone c why])
  | .again d => (s, [.takeBack c why d])

def State.gone (c : Claimed) : Bool :=
  match s.cell c.key with
  | none => true
  | some v => v.val.uid != c.object.uid

def task (s : State) : Task → Input → Option (State × List Task)
  | .check r (look :: rest) taken, .go _ =>
    if look = .pools && r.isDefault && s.pools.list.any (fun e =>
        e.2.val.default && some e.1 != r.except) then some (s, [])
    else some (s, [.check r rest (taken ++ s.taken look r.claimant r.except)])
  | .check r [] taken, .go uid => some (s, conclude routedPools r taken uid)
  | .write name o how asked again, .go _ => some (write s name o how asked again)
  | .look c rest hits, .go _ => some (s, ask s c rest hits)
  | .look c _ _, .fail => some (s, [.undo c .unanswered])
  | .undo c why, .go _ =>
    match c.write with
    | .create => some (s, [.takeBack c why (.of ⟨c.rev, c.object⟩)])
    | .update before _ => some (putBack s c before, [])
  | .takeBack c why d, .go _ => some (takeBack s c why d)
  | .isGone c why, .go _ => some (s, if s.gone c then c.retry why else [])
  | _, .fail => some (s, [])

def program : Program State Task Event Input :=
  ⟨env, task routedPools⟩

end MeisterStack.CloudController.RangeClaims
