import MeisterStack.Foundation.Program
import MeisterStack.ControllerApi.Deletion
import MeisterStack.ControllerApi.Floating

/-!
# Reservations of floating addresses and their pools

`create_floating_ip` picks a pool and runs `allocate`: it lists the reservations, creates one under
a free address and counts once more; over the quota it takes the reservation back and starts over.
`update_floating_pool` and `delete_floating_pool` list the reservations of the pool before they
write it.
-/

namespace MeisterStack.CloudController.FloatingIps

open Foundation ControllerApi Common FloatingIp
open ControllerApi.Floating

structure State where
  next : Nat
  drawn : List String
  pools : Table String FloatingPoolSpec
  ips : Table Nat FloatingIp

namespace State

variable (s : State)

def reservations : List FloatingIp := s.ips.list.map fun e => e.2.val

variable (address : Nat)

def putIp (ip : FloatingIp) : State :=
  { s with next := s.next + 1, ips := s.ips.put address s.next ip }

def reserve (ip : FloatingIp) : State :=
  { s.putIp address ip with drawn := ip.uid :: s.drawn }

def removeIp : State :=
  { s with next := s.next + 1, ips := s.ips.remove address }

def putPool (name : String) (spec : FloatingPoolSpec) : State :=
  { s with next := s.next + 1, pools := s.pools.put name s.next spec }

def removePool (name : String) : State :=
  { s with next := s.next + 1, pools := s.pools.remove name }

end State

structure Call where
  pool : String
  spec : FloatingPoolSpec
  tenant : String
  wanted : Option Nat
  pointing : Pointing
  dry : Bool
  left : Nat
  made : List String

inductive Stage where
  | list
  | create (address : Nat)
  | recheck (created : Versioned FloatingIp)
  | takeBack (d : Deletion FloatingIp)
  | isGone (created : FloatingIp)

structure PoolUpdate where
  name : String
  body : FloatingPoolSpec
  current : Versioned FloatingPoolSpec
  resourceVersion : Nat
  listed : List Nat

inductive Task where
  | allocating (c : Call) (stage : Stage)
  | checkPool (u : PoolUpdate)
  | listPool (u : PoolUpdate)
  | writePool (u : PoolUpdate)
  | settlePool (u : PoolUpdate) (rev : Nat)
  | putBack (u : PoolUpdate) (rev : Nat)
  | listHeld (name : String) (rev : Nat)
  | deletePool (name : String) (rev : Nat)

inductive Input where
  -- the uid is the one a declared object gets
  | go (uid : String)
  | fail
  | lost (uid : String)
  deriving DecidableEq

inductive Event where
  | createIp (pool : Option String) (tenant : String) (wanted : Option Nat) (pointing : Pointing)
      (dry : Bool)
  | updateIp (address : Nat) (pointing : Pointing)
  | deleteIp (address : Nat)
  | updatePool (name : String) (body : FloatingPoolSpec) (resourceVersion : Nat)
  | deletePool (name : String)

variable (s : State)

def env : Event → Option (State × List Task)
  | .createIp pool tenant wanted pointing dry =>
    match pickPool (s.pools.list.map fun e => (e.1, e.2.val)) pool with
    | .ok (name, spec) =>
      some (s, [.allocating ⟨name, spec, tenant, wanted, pointing, dry, maxRounds, []⟩ .list])
    | .error _ => none
  | .updateIp address pointing => do
      -- address, pool and tenant are immutable
      let current ← s.ips.cell address
      return (s.putIp address { current.val with pointing }, [])
  | .deleteIp address => do
      let _ ← s.ips.cell address
      return (s.removeIp address, [])
  | .updatePool name body rev => do
      let current ← s.pools.cell name
      -- a client cannot have seen a revision that is yet to be handed out
      if body.cidrs = [] || rev ≥ s.next then none
      else return (s, [.checkPool ⟨name, body, current, rev, []⟩])
  | .deletePool name => do
      let current ← s.pools.cell name
      return (s, [.listHeld name current.rev])

inductive Outcome where
  | goesOn (c : Call) (stage : Stage)
  | returned (ip : Option FloatingIp)
  | failed (c : Call) (why : Refusal)

namespace Call

variable (c : Call)

def again : Outcome := .goesOn { c with left := c.left - 1 } .list

def declare (uid : String) (address : Nat) : FloatingIp :=
  ⟨uid, c.tenant, c.pool, address, c.pointing⟩

def quota : Nat := c.spec.quotaFor c.tenant

def overQuota : Refusal :=
  if c.quota = 0 then .noQuota c.tenant c.pool else .quotaUsed c.tenant c.pool c.quota

end Call

variable (c : Call)

def Call.pick (s : State) : Outcome :=
  if c.left = 0 then .failed c (.lostRaces c.pool)
  else if heldBy s.reservations c.tenant c.pool ≥ c.quota then .failed c c.overQuota
  else
    match pickAddress c.spec.cidrs c.pool c.wanted (s.reservations.map address) with
    | .error why => .failed c why
    | .ok address => if c.dry then .returned none else .goesOn c (.create address)

def Call.create (s : State) (address : Nat) (uid : String) (answered : Bool) :
    Option (State × Outcome) :=
  if (s.ips.cell address).isSome then
    if !answered then some (s, .failed c .store)
    else if c.wanted.isSome then some (s, .failed c (.reserved address))
    else some (s, c.again)
  else if uid ∈ s.drawn then none
  else
    let ip := c.declare uid address
    let c := { c with made := uid :: c.made }
    some (s.reserve address ip,
      if answered then .goesOn c (.recheck ⟨s.next, ip⟩) else .failed c .store)

def Call.recheck (s : State) (created : Versioned FloatingIp) : Outcome :=
  if withinQuota s.reservations c.tenant c.pool c.quota then .returned (some created.val)
  else .goesOn c (.takeBack (.of created))

def Call.takeBack (s : State) (d : Deletion FloatingIp) : State × Outcome :=
  match finishDelete uid (fun _ => true) (s.ips.cell d.checked.val.address) d with
  | .removed => (s.removeIp d.checked.val.address, c.again)
  | .ended => (s, .goesOn c (.isGone d.checked.val))
  | .again d => (s, .goesOn c (.takeBack d))

def State.gone (created : FloatingIp) : Bool :=
  match s.ips.cell created.address with
  | none => true
  | some v => v.val.uid != created.uid

def allocate : Stage → Input → Option (State × Outcome)
  | .list, .go _ => some (s, c.pick s)
  | .create address, .go uid => c.create s address uid true
  | .create address, .lost uid => c.create s address uid false
  | .recheck created, .go _ => some (s, c.recheck s created)
  | .takeBack d, .go _ => some (c.takeBack s d)
  | .isGone created, .go _ =>
    some (s, if s.gone created then c.again else .failed c (.notTakenBack created.address))
  | _, _ => some (s, .failed c .store)

def Outcome.tasks : Outcome → List Task
  | .goesOn c stage => [.allocating c stage]
  | .returned _ | .failed _ _ => []

def ofPool (name : String) : List FloatingIp :=
  s.reservations.filter fun ip => ip.pool = name

variable (u : PoolUpdate)

def PoolUpdate.list (s : State) : List Task :=
  let held := ofPool s u.name
  if held.all fun ip => Ipv4Ranges.contains u.body.cidrs ip.address then
    [.writePool { u with listed := held.map address }]
  else []

def PoolUpdate.write (s : State) (answered : Bool) : State × List Task :=
  if (s.pools.cell u.name).standsAt u.resourceVersion then
    (s.putPool u.name u.body, if answered then [.settlePool u s.next] else [])
  else (s, [])

def PoolUpdate.putBack (s : State) (rev : Nat) : State :=
  if (s.pools.cell u.name).standsAt rev then s.putPool u.name u.current.val else s

def deletePoolAt (name : String) (rev : Nat) : State :=
  if (s.pools.cell name).standsAt rev then s.removePool name else s

def task : Task → Input → Option (State × List Task)
  | .allocating c stage, input => (allocate s c stage input).map fun r => (r.1, r.2.tasks)
  | .checkPool u, .go _ => some (s, [.listPool u])
  | .listPool u, .go _ => some (s, u.list s)
  | .writePool u, .go _ => some (u.write s true)
  | .writePool u, .lost _ => some (u.write s false)
  | .settlePool u rev, .fail => some (s, [.putBack u rev])
  | .putBack u rev, .go _ | .putBack u rev, .lost _ => some (u.putBack s rev, [])
  | .listHeld name rev, .go _ => some (s, if ofPool s name = [] then [.deletePool name rev] else [])
  | .deletePool name rev, .go _ | .deletePool name rev, .lost _ =>
    some (deletePoolAt s name rev, [])
  | _, _ => some (s, [])

def program : Program State Task Event Input := ⟨env, task⟩

end MeisterStack.CloudController.FloatingIps
