import MeisterStack.Foundation.Program
import MeisterStack.ControllerApi.Deletion
import MeisterStack.ControllerApi.StoragePool

/-!
# Storage pools of the cloud and their volumes

`create_storage_pool` asks `check_storage_pool` before its create and, for a pool that is marked
default, once more afterwards; a pool that lost is taken back. `update_storage_pool` asks before its
write only. `delete_storage_pool` lists the volumes before its delete, and `create_volume` the pools
before its create.
-/

namespace MeisterStack.CloudController.StoragePools

open Foundation ControllerApi List

structure StoragePool where
  uid : String
  spec : StoragePoolSpec

structure Volume where
  pool : String
  node : Option String
  cluster : Option String

inductive Refusal where
  | noDriver
  | noCluster
  | alreadyDefault (names : List String)
  | noSuchPool (name : String)
  | noPool
  | noDefault (known : List String)
  | manyDefaults (names : List String)

structure State where
  next : Nat
  drawn : List String
  pools : Table String StoragePool
  volumes : Table String Volume

namespace State

variable (s : State)

def poolList : List (String × StoragePoolSpec) :=
  s.pools.list.map fun e => (e.1, e.2.val.spec)

variable (name : String)

def putPool (pool : StoragePool) : State :=
  { s with next := s.next + 1, pools := s.pools.put name s.next pool }

def declare (pool : StoragePool) : State :=
  { s.putPool name pool with drawn := pool.uid :: s.drawn }

def removePool : State :=
  { s with next := s.next + 1, pools := s.pools.remove name }

def putVolume (volume : Volume) : State :=
  { s with next := s.next + 1, volumes := s.volumes.put name s.next volume }

def removeVolume : State :=
  { s with next := s.next + 1, volumes := s.volumes.remove name }

def volumesOf (pool : String) : List (String × Volume) :=
  (s.volumes.list.map fun e => (e.1, e.2.val)).filter fun v => v.2.pool = pool

end State

variable (pools : List (String × StoragePoolSpec))

def othersDefault (updating : Option String) :
    List String :=
  ((pools.filter fun p => p.2.default).map Prod.fst).filter fun name => some name ≠ updating

def checkStoragePool (spec : StoragePoolSpec)
    (updating : Option String) : Except Refusal Unit :=
  if spec.driver = "" then .error .noDriver
  else if spec.servedBy = [] then .error .noCluster
  else if !spec.default then .ok ()
  else if othersDefault pools updating = [] then .ok ()
  else .error (.alreadyDefault (othersDefault pools updating))

def pickStoragePool (named : Option String) :
    Except Refusal (String × StoragePoolSpec) :=
  match named.filter (· != "") with
  | some name =>
    match pools.find? fun p => p.1 = name with
    | some p => .ok p
    | none => .error (.noSuchPool name)
  | none =>
    match pools.filter fun p => p.2.default with
    | [one] => .ok one
    | [] => .error (if pools = [] then .noPool else .noDefault (pools.map Prod.fst))
    | many => .error (.manyDefaults (many.map Prod.fst))

structure Update where
  name : String
  body : StoragePoolSpec
  current : Versioned StoragePool
  resourceVersion : Nat

inductive Task where
  | check (name : String) (spec : StoragePoolSpec)
  | create (name : String) (spec : StoragePoolSpec)
  | recheck (name : String) (created : Versioned StoragePool)
  | takeBack (name : String) (d : Deletion StoragePool)
  | isGone (name : String) (created : StoragePool)
  | checkUpdate (u : Update)
  | listStranded (u : Update)
  | listOrphaned (u : Update)
  | update (u : Update)
  | listHeld (name : String) (rev : Nat)
  | deletePool (name : String) (rev : Nat)
  | createVolume (name : String) (pool : String)

inductive Input where
  -- the uid is the one a declared pool gets
  | go (uid : String)
  | fail
  | lost (uid : String)
  deriving DecidableEq

inductive Event where
  | createPool (name : String) (spec : StoragePoolSpec)
  | updatePool (name : String) (body : StoragePoolSpec) (resourceVersion : Nat)
  | deletePool (name : String)
  -- what the reports of the clusters write into the status of a pool
  | touchPool (name : String)
  | createVolume (name : String) (pool : String)
  -- what dispatch and the reports write into the status of a volume
  | placeVolume (name : String) (node cluster : Option String)
  | removeVolume (name : String)

variable (s : State)

def env : Event → Option (State × List Task)
  | .createPool name spec => if name = "" then none else some (s, [.check name spec])
  | .updatePool name body rev => do
      let current ← s.pools.cell name
      -- driver and cluster are immutable; a client cannot have seen a revision yet to come
      if body.driver ≠ current.val.spec.driver || body.cluster ≠ current.val.spec.cluster ||
          rev ≥ s.next then none
      else return (s, [.checkUpdate ⟨name, body, current, rev⟩])
  | .deletePool name => do
      let current ← s.pools.cell name
      return (s, [.listHeld name current.rev])
  | .touchPool name => do
      let current ← s.pools.cell name
      return (s.putPool name current.val, [])
  | .createVolume name pool =>
    if name = "" then none
    else
      match pickStoragePool s.poolList (some pool) with
      | .ok picked => some (s, [.createVolume name picked.1])
      | .error _ => none
  | .placeVolume name node cluster => do
      let current ← s.volumes.cell name
      return (s.putVolume name { current.val with node, cluster }, [])
  | .removeVolume name => do
      let _ ← s.volumes.cell name
      return (s.removeVolume name, [])

variable (name : String)

def check (spec : StoragePoolSpec) : List Task :=
  match checkStoragePool s.poolList spec none with
  | .ok _ => [.create name spec]
  | .error _ => []

def create (spec : StoragePoolSpec) (uid : String) (answered : Bool) :
    Option (State × List Task) :=
  if (s.pools.cell name).isSome then some (s, [])
  else if uid ∈ s.drawn then none
  else
    some (s.declare name ⟨uid, spec⟩,
      if answered && spec.default then [.recheck name ⟨s.next, uid, spec⟩] else [])

def recheck (created : Versioned StoragePool) : List Task :=
  match checkStoragePool s.poolList created.val.spec (some name) with
  | .ok _ => []
  | .error _ => [.takeBack name (.of created)]

def takeBack (d : Deletion StoragePool) : State × List Task :=
  match finishDelete StoragePool.uid (fun _ => true) (s.pools.cell name) d with
  | .removed => (s.removePool name, [])
  | .ended => (s, [.isGone name d.checked.val])
  | .again d => (s, [.takeBack name d])

def State.gone (created : StoragePool) : Bool :=
  match s.pools.cell name with
  | none => true
  | some v => v.val.uid != created.uid

namespace Update

section

variable (u : Update)

def check (s : State) : List Task :=
  match checkStoragePool s.poolList u.body (some u.name) with
  | .ok _ => [.listStranded u]
  | .error _ => []

def stranded (s : State) : List (String × Volume) :=
  (s.volumesOf u.name).filter fun v => v.2.node.any fun node => !u.body.reaches node

def orphaned (s : State) : List (String × Volume) :=
  (s.volumesOf u.name).filter fun v => v.2.cluster.any fun cluster => !u.body.serves cluster

def write (s : State) : State :=
  if (s.pools.cell u.name).standsAt u.resourceVersion then
    s.putPool u.name ⟨u.current.val.uid, u.body⟩
  else s

end

end Update

def deletePoolAt (rev : Nat) : State :=
  if (s.pools.cell name).standsAt rev then s.removePool name else s

def createVolume (name pool : String) : State :=
  if (s.volumes.cell name).isSome then s else s.putVolume name ⟨pool, none, none⟩

def task : Task → Input → Option (State × List Task)
  | .check name spec, .go _ => some (s, check s name spec)
  | .create name spec, .go uid => create s name spec uid true
  | .create name spec, .lost uid => create s name spec uid false
  | .recheck name created, .go _ => some (s, recheck s name created)
  -- a store that does not answer undoes the create as well
  | .recheck name created, _ => some (s, [.takeBack name (.of created)])
  | .takeBack name d, .go _ => some (takeBack s name d)
  | .checkUpdate u, .go _ => some (s, u.check s)
  | .listStranded u, .go _ => some (s, if u.stranded s = [] then [.listOrphaned u] else [])
  | .listOrphaned u, .go _ => some (s, if u.orphaned s = [] then [.update u] else [])
  | .update u, .go _ | .update u, .lost _ => some (u.write s, [])
  | .listHeld name rev, .go _ =>
    some (s, if s.volumesOf name = [] then [.deletePool name rev] else [])
  | .deletePool name rev, .go _ | .deletePool name rev, .lost _ =>
    some (deletePoolAt s name rev, [])
  | .createVolume name pool, .go _ | .createVolume name pool, .lost _ =>
    some (createVolume s name pool, [])
  | _, _ => some (s, [])

def program : Program State Task Event Input := ⟨env, task⟩

theorem pickStoragePool_unambiguous {pools} (hnodup : (pools.map Prod.fst).Nodup)
    (hone : ∀ p ∈ pools, ∀ q ∈ pools, p.2.default → q.2.default → p.1 = q.1) {named names} :
    pickStoragePool pools named ≠ .error (.manyDefaults names) := by
  intro h
  unfold pickStoragePool at h
  split at h
  · split at h <;> cases h
  · split at h
    · cases h
    · split at h <;> cases h
    · rename_i hnotOne hnotNone
      have hsub : ((pools.filter fun p => p.2.default).map Prod.fst).Nodup :=
        hnodup.sublist (filter_sublist.map _)
      match hdefaults : pools.filter fun p => p.2.default with
      | [] => exact hnotNone hdefaults
      | [one] => exact hnotOne one hdefaults
      | p :: q :: rest =>
        have hp : p ∈ pools.filter fun p => p.2.default := by simp [hdefaults]
        have hq : q ∈ pools.filter fun p => p.2.default := by simp [hdefaults]
        rw [mem_filter] at hp hq
        rw [hdefaults] at hsub
        simp [hone p hp.1 q hq.1 hp.2 hq.2] at hsub

theorem mem_poolList {s : State} {name spec} :
    (name, spec) ∈ s.poolList ↔ ∃ v, s.pools.cell name = some v ∧ v.val.spec = spec := by
  simp only [State.poolList, mem_map, Prod.mk.injEq, Prod.exists, Table.mem_list]
  constructor
  · rintro ⟨_, v, hv, rfl, heq⟩
    exact ⟨v, hv, heq⟩
  · rintro ⟨v, hv, heq⟩
    exact ⟨name, v, hv, rfl, heq⟩

end MeisterStack.CloudController.StoragePools
