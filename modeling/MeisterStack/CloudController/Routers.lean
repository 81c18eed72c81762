import Mathlib.Data.List.MinMax
import Mathlib.Data.Prod.Lex
import Mathlib.Data.String.Basic
import MeisterStack.Foundation.Program
import MeisterStack.Common.NetText
import MeisterStack.ControllerApi.Deletion
import MeisterStack.ControllerApi.Gateway
import MeisterStack.ControllerApi.Phase

/-!
# Which cluster a router is handed to

A pass takes the routers it listed one by one: it settles the external address, decides on a
cluster, writes a new decision, and hands the router down. A router that is being deleted is taken
down until a report of its cluster does not name it.
-/

namespace MeisterStack.CloudController.Routers

open Foundation ControllerApi Common Prod
open ControllerApi.Gateway (RouterPhaseKind RouterReason)

abbrev RouterPhase := Phase RouterPhaseKind RouterReason

abbrev RouterReported := Word RouterPhaseKind RouterReason

structure Router where
  uid : String
  tenant : String
  providerNetwork : String
  vni : Option Nat
  generation : Nat
  deletedAt : Option Instant
  externalAddr : Option Nat
  cluster : Option String
  rules : String
  observedGeneration : Nat
  reported : Option RouterReported
  nodes : List String

namespace Router

def phase (r : Router) : RouterPhase :=
  match r.reported.bind (Word.toPhase RouterPhaseKind.resting) with
  | some phase => phase
  | none =>
    Phase.new RouterPhaseKind.resting .pending .awaitingNode (some "no pass has placed it yet")

def declare (uid tenant providerNetwork : String) : Router :=
  ⟨uid, tenant, providerNetwork, none, 1, none, none, none, "", 0, none, []⟩

end Router

structure ProviderNetwork where
  physnet : String
  allocation : List Ipv4Range

structure Cluster where
  schedulable : Bool
  drain : Bool
  physnets : List String

def Cluster.eligible (c : Cluster) (physnet : String) : Bool :=
  c.schedulable && !c.drain && c.physnets.contains physnet

def loadOf (held : List Router) (cluster : String) : Nat :=
  (held.filter fun r => r.cluster = some cluster).length

def clusterFor (physnet : String) (clusters : List (String × Cluster)) (held : List Router) :
    Option String :=
  let eligible := clusters.filter fun c => c.2.eligible physnet
  (eligible.argmin fun c => toLex (loadOf held c.1, c.1)).map fst

def clusterSentence (physnet : String) (clusters : List (String × Cluster)) : String :=
  let holding := (clusters.filter fun c => c.2.physnets.contains physnet).map fst
  if holding.isEmpty then
    s!"no cluster has a node giving an interface away for physnet {physnet}; a gateway node " ++
      s!"says so with `[network.provider] physnets = \x7b {physnet} = \"…\" \x7d`"
  else
    "every cluster holding physnet " ++ physnet ++ " is cordoned or draining: " ++
      ", ".intercalate holding

inductive AddressClaim where
  | keep
  | take (address : Nat)
  | yield

def cutExternalAddr (network : ProviderNetwork) (routers : List (String × Router)) : Option Nat :=
  Ipv4Ranges.firstFree network.allocation (routers.filterMap fun r => r.2.externalAddr)

def otherHolders (name : String) (address : Nat) (routers : List (String × Router)) :
    List String :=
  (routers.filter fun r => r.1 ≠ name && r.2.externalAddr = some address).map fst

def claimExternalAddr (name : String) (router : Router) (network : ProviderNetwork)
    (routers : List (String × Router)) : AddressClaim :=
  match router.externalAddr with
  | none => (cutExternalAddr network routers).elim .keep .take
  | some held =>
    if (otherHolders name held routers).any fun other => other < name then .yield else .keep

structure State where
  next : Nat
  drawn : List String
  routers : Table String Router
  networks : List (String × ProviderNetwork)
  clusters : List (String × Cluster)
  tenants : List (String × Option Nat)
  heard : List ((String × String) × List String)

namespace State

section

variable (s : State)

def put (name : String) (r : Router) : State :=
  { s with next := s.next + 1, routers := s.routers.put name s.next r }

def remove (name : String) : State :=
  { s with next := s.next + 1, routers := s.routers.remove name }

def routerList : List (String × Router) := s.routers.list.map fun e => (e.1, e.2.val)

def mutate (name uid : String) (edit : Router → Router) : Option (State × Router) :=
  match s.routers.cell name with
  | some v => if v.val.uid = uid then some (s.put name (edit v.val), edit v.val) else none
  | none => none

def amend (name uid : String) (edit : Router → Router) : State :=
  (s.mutate name uid edit).elim s fst

end

end State

structure Listed where
  replica : String
  sessions : List String
  rules : String
  name : String
  router : Versioned Router
  networks : List (String × ProviderNetwork)
  clusters : List (String × Cluster)
  tenants : List (String × Option Nat)

structure Placing where
  name : String
  router : Router
  network : ProviderNetwork
  vni : Option Nat
  generation : Nat
  clearedRefusals : Bool
  clusters : List (String × Cluster)
  held : List Router
  sessions : List String
  rules : String

inductive Decision where
  | placed (cluster : String)
  | walled (message : String)

def Decision.cluster : Decision → Option String
  | .placed cluster => some cluster
  | .walled _ => none

inductive Verdict where
  -- the teardown of a router that is on no cluster
  | neverPlaced
  -- a create that is taken back
  | unplaced
  -- the cluster does not name it
  | absent

def Verdict.concluded : Verdict → Router → Bool
  | .neverPlaced, r => r.deletedAt.isSome && r.cluster.isNone
  | .unplaced, r => r.cluster.isNone
  | .absent, r => r.deletedAt.isSome

inductive Task where
  | listNetworks (l : Listed)
  | listClusters (l : Listed)
  | listTenants (l : Listed)
  | listHeld (l : Listed)
  | teardown (l : Listed)
  | sendDelete (name uid cluster : String)
  | finish (name : String) (verdict : Verdict) (d : Deletion Router)
  | writeVni (p : Placing) (vni : Nat)
  | settleAddress (p : Placing) (rounds : Nat)
  | writeAddress (p : Placing) (address : Option Nat) (rounds : Nat)
  | bind (p : Placing) (decision : Decision)
  | send (p : Placing) (cluster : String)
  | awaitAck (p : Placing) (cluster : String)
  | note (name uid : String) (said : RouterReported)
  | deleteAt (name : String) (v : Versioned Router)
  | takeBack (name : String) (d : Deletion Router) (now : Instant)
  | mark (name uid : String) (now : Instant)

inductive Input where
  | go
  -- a read or a write that fails, a cluster without a session
  | fail
  | refused (message : String)
  | lost

inductive Event where
  | createRouter (name uid tenant providerNetwork : String)
  | updateRouter (name : String)
  | deleteRouter (name : String) (now : Instant)
  -- a create that loses its claim after the write
  | takeBackRouter (name : String) (now : Instant)
  | setNetworks (networks : List (String × ProviderNetwork))
  | setClusters (clusters : List (String × Cluster))
  | setTenants (tenants : List (String × Option Nat))
  -- a status of a cluster; `none` unless it counts as evidence and its list of routers is complete
  | status (replica cluster : String) (routers : Option (List String))
  -- what a cluster says about one router is mirrored
  | mirror (name uid : String) (said : RouterReported) (nodes : List String)
  -- a pass lists the routers
  | reconcile (replica : String) (sessions : List String) (rules name : String)

def env (s : State) : Event → Option (State × List Task)
  | .createRouter name uid tenant providerNetwork =>
    if (s.routers.cell name).isSome || s.drawn.contains uid then none
    else
      some ({ s.put name (.declare uid tenant providerNetwork) with drawn := uid :: s.drawn }, [])
  | .updateRouter name => do
      let v ← s.routers.cell name
      return (s.put name { v.val with generation := v.val.generation + 1 }, [])
  | .deleteRouter name now => do
      let v ← s.routers.cell name
      return (s, if v.val.cluster.isNone then [.deleteAt name v] else [.mark name v.val.uid now])
  | .takeBackRouter name now => do
      let v ← s.routers.cell name
      return (s, [.takeBack name (.of v) now])
  | .setNetworks networks => some ({ s with networks }, [])
  | .setClusters clusters => some ({ s with clusters }, [])
  | .setTenants tenants => some ({ s with tenants }, [])
  | .status replica cluster routers =>
    let others := s.heard.filter fun h => h.1 ≠ (replica, cluster)
    let heard := routers.elim others fun list => ((replica, cluster), list) :: others
    some ({ s with heard }, [])
  | .mirror name uid said nodes =>
    some (s.amend name uid fun r =>
      if r.cluster = some said.node then { r with reported := some said, nodes } else r, [])
  | .reconcile replica sessions rules name => do
      let v ← s.routers.cell name
      return (s, [.listNetworks ⟨replica, sessions, rules, name, v, [], [], []⟩])

def boundCluster (router : Router) (physnet : String) (clusters : List (String × Cluster))
    (held : List Router) : Option String :=
  match router.cluster.filter fun c => (clusters.lookup c).any fun k => k.eligible physnet with
  | some cluster => some cluster
  | none => clusterFor physnet clusters held

namespace Placing

section

variable (p : Placing)

def decision : Decision :=
  if p.router.externalAddr.isNone then
    let allocation := ", ".intercalate (p.network.allocation.map Ipv4Range.display)
    .walled ("no free address left in the allocation of provider network " ++
      p.router.providerNetwork ++ s!" ({allocation})")
  else if p.vni.isNone then
    .walled ("tenant " ++ p.router.tenant ++
      " has no overlay, so there is no inside wire to put a router on")
  else
    match boundCluster p.router p.network.physnet p.clusters p.held with
    | some cluster => .placed cluster
    | none => .walled (clusterSentence p.network.physnet p.clusters)

def moved (d : Decision) : Bool :=
  p.router.cluster ≠ d.cluster || p.router.rules ≠ p.rules ||
    p.router.observedGeneration ≠ p.generation || p.clearedRefusals

def written (d : Decision) (r : Router) : Router :=
  { r with cluster := d.cluster, rules := p.rules, observedGeneration := p.generation }

def note (phase : RouterPhaseKind) (reason : RouterReason) (message : String) :
    List Task :=
  if p.router.phase.kind = phase ∧ p.router.phase.message = some message then []
  else [.note p.name p.router.uid (.here phase reason (some message))]

def handDown : Decision → List Task
  | .walled message => p.note .pending .unplaced message
  | .placed cluster => if p.sessions.contains cluster then [.send p cluster] else []

def place : List Task :=
  if p.moved p.decision then [.bind p p.decision] else p.handDown p.decision

def claimAddress (rounds : Nat) (routers : List (String × Router)) : List Task :=
  match claimExternalAddr p.name p.router p.network routers with
  | .keep => p.place
  | .take address => [.writeAddress p (some address) rounds]
  | .yield => [.writeAddress p none rounds]

def addressed (address : Option Nat) (rounds : Nat) : List Task :=
  if address.isSome ∧ rounds > 0 then [.settleAddress p rounds] else p.place

end

end Placing

def reconcileRouter (l : Listed) (held : List Router) : List Task :=
  let r := l.router.val
  match l.networks.lookup r.providerNetwork with
  | none =>
    let p : Placing := ⟨l.name, r, ⟨"", []⟩, none, 0, false, [], [], [], ""⟩
    p.note .pending .unplaced ("provider network " ++ r.providerNetwork ++ " does not exist")
  | some network =>
    let vni := (l.tenants.lookup r.tenant).join
    let p : Placing :=
      ⟨l.name, r, network, vni, r.generation, r.observedGeneration ≠ r.generation, l.clusters,
        held, l.sessions, l.rules⟩
    match vni with
    | some n => if r.vni ≠ vni then [.writeVni p n] else [.settleAddress p 2]
    | none => [.settleAddress p 2]

def teardown (s : State) (l : Listed) : List Task :=
  match l.router.val.cluster with
  | none => [.finish l.name .neverPlaced (.of l.router)]
  | some cluster =>
    match s.heard.lookup (l.replica, cluster) with
    | none => [.sendDelete l.name l.router.val.uid cluster]
    | some routers =>
      if routers.contains l.router.val.uid then
        [.sendDelete l.name l.router.val.uid cluster]
      else [.finish l.name .absent (.of l.router)]

def finish (s : State) (name : String) (verdict : Verdict) (d : Deletion Router) :
    State × List Task :=
  match finishDelete Router.uid verdict.concluded (s.routers.cell name) d with
  | .removed => (s.remove name, [])
  | .ended => (s, [])
  | .again d => (s, [.finish name verdict d])

def takeBack (s : State) (name : String) (d : Deletion Router) (now : Instant) :
    State × List Task :=
  match finishDelete Router.uid Verdict.unplaced.concluded (s.routers.cell name) d with
  | .removed => (s.remove name, [])
  | .ended => (s, [.mark name d.checked.val.uid now])
  | .again d => (s, [.takeBack name d now])

def acked (p : Placing) (cluster : String) : List Task :=
  if p.router.phase.kind = .pending ∧ p.router.nodes = [] then
    [.note p.name p.router.uid (.here .provisioning .dispatched (some (cluster ++ " was told")))]
  else []

def rewrite (s : State) (p : Placing) (edit : Router → Router) (next : Placing → List Task) :
    State × List Task :=
  match s.mutate p.name p.router.uid edit with
  | some (s', router) => (s', next { p with router })
  | none => (s, [])

def task (s : State) : Task → Input → Option (State × List Task)
  | .listNetworks l, .go => some (s, [.listClusters { l with networks := s.networks }])
  | .listClusters l, .go => some (s, [.listTenants { l with clusters := s.clusters }])
  | .listTenants l, .go => some (s, [.listHeld { l with tenants := s.tenants }])
  | .listHeld l, .go =>
    if l.router.val.deletedAt.isSome then some (s, [.teardown l])
    else some (s, reconcileRouter l (s.routerList.map snd))
  | .teardown l, .go => some (s, teardown s l)
  | .finish name verdict d, .go => some (finish s name verdict d)
  | .writeVni p vni, .go =>
    -- the pass keeps the router as it was listed
    some (rewrite s p (fun r => { r with vni := some vni }) fun _ => [.settleAddress p 2])
  | .settleAddress p rounds, .go => some (s, p.claimAddress (rounds - 1) s.routerList)
  | .writeAddress p address rounds, .go =>
    some (rewrite s p (fun r => { r with externalAddr := address }) fun p =>
      p.addressed address rounds)
  | .bind p d, .go => some (rewrite s p (p.written d) fun p => p.handDown d)
  | .send p cluster, .go => some (s, [.awaitAck p cluster])
  | .awaitAck p cluster, .go => some (s, acked p cluster)
  | .awaitAck p _, .refused message => some (s, p.note .failed .refused message)
  | .note name uid said, .go =>
    some (s.amend name uid fun r => { r with reported := some said }, [])
  | .deleteAt name v, .go =>
    if (s.routers.cell name).standsAt v.rev then some (s.remove name, []) else some (s, [])
  | .takeBack name d now, .go => some (takeBack s name d now)
  | .mark name uid now, .go =>
    some (s.amend name uid fun r => { r with deletedAt := r.deletedAt.or (some now) }, [])
  | _, _ => some (s, [])

def program : Program State Task Event Input := ⟨env, task⟩

end MeisterStack.CloudController.Routers
