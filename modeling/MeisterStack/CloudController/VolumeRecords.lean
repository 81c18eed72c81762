import MeisterStack.Foundation.Program
import MeisterStack.ControllerApi.Deletion
import MeisterStack.ControllerApi.Mirror
import MeisterStack.ControllerApi.StoragePool

/-!
# Which cluster a volume and its snapshots are at

The cloud dispatches a volume to the cluster on its record, or to the home of its pool, and writes
the cluster it chose after any answer. `move_volumes` asks the old cluster to release the record and
then writes the new one, after a refusal too. Snapshots are dispatched by the pool of their volume
and ingested by its record.
-/

namespace MeisterStack.CloudController.VolumeRecords

open Foundation ControllerApi List Option

structure Volume where
  uid : String
  pool : String
  generation : Nat
  deletedAt : Option Instant
  cluster : Option String
  observedAt : Option Instant
  observedGeneration : Nat

structure VolumeSnapshot where
  uid : String
  volume : String
  deletedAt : Option Instant
  observedAt : Option Instant

structure Report where
  volumes : List String
  volumesComplete : Bool
  snapshots : List String
  snapshotsComplete : Bool
  receivedAt : Instant

structure State where
  next : Nat
  drawn : List String
  pools : Table String StoragePoolSpec
  volumes : Table String Volume
  snapshots : Table String VolumeSnapshot

namespace State

section

variable (s : State)

def putPool (name : String) (spec : StoragePoolSpec) : State :=
  { s with next := s.next + 1, pools := s.pools.put name s.next spec }

def putVolume (name : String) (v : Volume) : State :=
  { s with next := s.next + 1, volumes := s.volumes.put name s.next v }

def putSnapshot (name : String) (v : VolumeSnapshot) : State :=
  { s with next := s.next + 1, snapshots := s.snapshots.put name s.next v }

def mutateVolume (name uid : String) (edit : Volume → Volume) : State :=
  match s.volumes.cell name with
  | some v => if v.val.uid = uid then s.putVolume name (edit v.val) else s
  | none => s

def mutateSnapshot (name uid : String) (edit : VolumeSnapshot → VolumeSnapshot) :
    State :=
  match s.snapshots.cell name with
  | some v => if v.val.uid = uid then s.putSnapshot name (edit v.val) else s
  | none => s

def homes : List (String × String) :=
  s.pools.list.filterMap fun e => e.2.val.home.map fun home => (e.1, home)

end

end State

def recordAt (homes : List (String × String)) (v : Volume) : Option String :=
  v.cluster.or (homes.lookup v.pool)

def chosen (homes : List (String × String)) (v : Volume) : Option String :=
  (recordAt homes v).filter (· ≠ "")

def needsDispatch (v : Volume) : Bool :=
  v.observedAt.isNone || v.generation > v.observedGeneration

def stillAt (v : Volume) (cluster : String) : Bool := v.cluster.all fun c => c = cluster

def volumeGone (v : Volume) (cluster : String) (r : Report) : Bool :=
  v.deletedAt.isSome && r.volumesComplete && stillAt v cluster &&
    isCurrent v.deletedAt v.observedAt r.receivedAt

def snapshotGone (v : VolumeSnapshot) (r : Report) : Bool :=
  v.deletedAt.isSome && r.snapshotsComplete && isCurrent v.deletedAt v.observedAt r.receivedAt

def snapshotRoute (pools : List (String × String)) (volumes : List (String × String))
    (volume : String) : Option String :=
  ((volumes.lookup volume).bind fun pool => pools.lookup pool).filter (· ≠ "")

structure Handover where
  name : String
  uid : String
  -- the cluster that acked the release, which the write does not ask for
  released : Option String
  target : String

inductive Task where
  | listHomes (name : String) (v : Volume) (sessions : List String)
  | sendCreate (name : String) (v : Volume) (cluster : String)
  | noteDispatched (name : String) (v : Volume) (cluster : String)
  | readPool (name : String) (v : Volume) (target : String)
  | sendRelease (name : String) (v : Volume) (old target : String)
  | move (m : Handover)
  | volumeHomes (cluster : String) (r : Report)
  | ourVolumes (cluster : String) (r : Report) (homes : List (String × String))
  | observeVolume (name uid cluster : String) (time : Instant)
  | finishVolume (name cluster : String) (r : Report) (d : Deletion Volume)
  | listPools (name : String) (v : VolumeSnapshot) (sessions : List String)
  | listVolumes (name : String) (v : VolumeSnapshot) (sessions : List String)
      (pools : List (String × String))
  | sendSnapshot (name uid cluster : String)
  | snapshotHomes (cluster : String) (r : Report)
  | snapshotVolumes (cluster : String) (r : Report) (homes : List (String × String))
  | ourSnapshots (cluster : String) (r : Report) (records : List (String × String))
  | observeSnapshot (name uid volume : String) (time : Instant)
  | finishSnapshot (name cluster : String) (r : Report) (d : Deletion VolumeSnapshot)

inductive Input where
  | go
  -- the cluster answers the command with a refusal
  | refused
  | fail
  | lost

inductive Event where
  | createPool (name : String) (spec : StoragePoolSpec)
  | updatePool (name : String) (spec : StoragePoolSpec)
  | removePool (name : String)
  | createVolume (name uid pool : String)
  | editVolume (name : String)
  | deleteVolume (name : String) (time : Instant)
  | createSnapshot (name uid volume : String)
  | deleteSnapshot (name : String) (time : Instant)
  -- a pass that lists the object, with the sessions of its replica
  | dispatchVolume (name : String) (sessions : List String)
  | dispatchSnapshot (name : String) (sessions : List String)
  -- a VM that is handed down to the cluster refers to the volume
  | moveVolume (name target : String)
  | ingest (cluster : String) (r : Report)

variable (s : State)

def env : Event → Option (State × List Task)
  | .createPool name spec =>
    if (s.pools.cell name).isSome then none else some (s.putPool name spec, [])
  | .updatePool name spec => do
      let current ← s.pools.cell name
      -- spec.cluster is immutable
      if spec.cluster ≠ current.val.cluster then none else return (s.putPool name spec, [])
  | .removePool name => do
      let _ ← s.pools.cell name
      return ({ s with next := s.next + 1, pools := s.pools.remove name }, [])
  | .createVolume name uid pool =>
    if (s.volumes.cell name).isSome || s.drawn.contains uid then none
    else
      some ({ s.putVolume name ⟨uid, pool, 1, none, none, none, 0⟩ with drawn := uid :: s.drawn },
        [])
  | .editVolume name => do
      let current ← s.volumes.cell name
      return (s.putVolume name { current.val with generation := current.val.generation + 1 }, [])
  | .deleteVolume name time => do
      let current ← s.volumes.cell name
      return (s.putVolume name
        { current.val with deletedAt := current.val.deletedAt.or (some time) }, [])
  | .createSnapshot name uid volume =>
    if (s.snapshots.cell name).isSome || s.drawn.contains uid then none
    else
      some ({ s.putSnapshot name ⟨uid, volume, none, none⟩ with drawn := uid :: s.drawn }, [])
  | .deleteSnapshot name time => do
      let current ← s.snapshots.cell name
      return (s.putSnapshot name
        { current.val with deletedAt := current.val.deletedAt.or (some time) }, [])
  | .dispatchVolume name sessions => do
      let v ← s.volumes.cell name
      return (s, [.listHomes name v.val sessions])
  | .dispatchSnapshot name sessions => do
      let v ← s.snapshots.cell name
      return (s, [.listPools name v.val sessions])
  | .moveVolume name target => do
      let v ← s.volumes.cell name
      return (s, [.readPool name v.val target])
  | .ingest cluster r => some (s, [.volumeHomes cluster r, .snapshotHomes cluster r])

section

variable (name : String)

def dispatchVolume (v : Volume) (sessions : List String)
    (homes : List (String × String)) : List Task :=
  match chosen homes v with
  | none => []
  | some cluster =>
    if !sessions.contains cluster then []
    -- the destroy is sent again, and nothing is written
    else if v.deletedAt.isSome then []
    else if !needsDispatch v then []
    else [.sendCreate name v cluster]

def noteDispatched (v : Volume) (cluster : String) : State :=
  s.mutateVolume name v.uid fun w =>
    { w with
      observedGeneration := max w.observedGeneration v.generation
      cluster := some cluster }

def planMove (v : Volume) (target : String) (pool : StoragePoolSpec) : List Task :=
  match v.cluster.or pool.home with
  | none => [.move ⟨name, v.uid, none, target⟩]
  | some here => if here = target then [] else [.sendRelease name v here target]

def Handover.write (m : Handover) (s : State) : State :=
  s.mutateVolume m.name m.uid fun w =>
    { w with
      cluster := some m.target
      observedAt := none
      observedGeneration := 0 }

def ourVolumes (cluster : String) (r : Report) (homes : List (String × String)) :
    List Task :=
  (s.volumes.list.filter fun e => recordAt homes e.2.val = some cluster).map fun e =>
    if r.volumes.contains e.2.val.uid then .observeVolume e.1 e.2.val.uid cluster r.receivedAt
    else .finishVolume e.1 cluster r (.of e.2)

def records (homes : List (String × String)) : List (String × String) :=
  s.volumes.list.filterMap fun e => (recordAt homes e.2.val).map fun cluster => (e.1, cluster)

def ourSnapshots (cluster : String) (r : Report) (records : List (String × String)) :
    List Task :=
  (s.snapshots.list.filter fun e => records.lookup e.2.val.volume = some cluster).map fun e =>
    if r.snapshots.contains e.2.val.uid then
      .observeSnapshot e.1 e.2.val.uid e.2.val.volume r.receivedAt
    else .finishSnapshot e.1 cluster r (.of e.2)

def dispatchSnapshot (v : VolumeSnapshot) (sessions : List String)
    (pools : List (String × String)) : List Task :=
  let volumes := s.volumes.list.map fun e => (e.1, e.2.val.pool)
  match snapshotRoute pools volumes v.volume with
  | none => []
  | some cluster =>
    if !sessions.contains cluster then []
    else if v.deletedAt.isSome then []
    else if v.observedAt.isSome then []
    else [.sendSnapshot name v.uid cluster]

end

def finishVolume (name cluster : String) (r : Report) (d : Deletion Volume) :
    State × List Task :=
  match finishDelete Volume.uid (fun v => volumeGone v cluster r) (s.volumes.cell name) d with
  | .removed => ({ s with next := s.next + 1, volumes := s.volumes.remove name }, [])
  | .ended => (s, [])
  | .again d => (s, [.finishVolume name cluster r d])

def finishSnapshot (name cluster : String) (r : Report)
    (d : Deletion VolumeSnapshot) : State × List Task :=
  match finishDelete VolumeSnapshot.uid
      (fun v => v.volume = d.checked.val.volume && snapshotGone v r) (s.snapshots.cell name) d with
  | .removed => ({ s with next := s.next + 1, snapshots := s.snapshots.remove name }, [])
  | .ended => (s, [])
  | .again d => (s, [.finishSnapshot name cluster r d])

def task : Task → Input → Option (State × List Task)
  | .listHomes name v sessions, .go => some (s, dispatchVolume name v sessions s.homes)
  | .sendCreate name v cluster, .go | .sendCreate name v cluster, .refused =>
    some (s, [.noteDispatched name v cluster])
  | .noteDispatched name v cluster, .go => some (noteDispatched s name v cluster, [])
  | .readPool name v target, .go =>
    some (s, (s.pools.cell v.pool).elim [] fun pool => planMove name v target pool.val)
  | .sendRelease name v old target, .go => some (s, [.move ⟨name, v.uid, some old, target⟩])
  | .sendRelease name v _ target, .refused => some (s, [.move ⟨name, v.uid, none, target⟩])
  | .move m, .go => some (m.write s, [])
  | .volumeHomes cluster r, .go => some (s, [.ourVolumes cluster r s.homes])
  | .ourVolumes cluster r homes, .go => some (s, ourVolumes s cluster r homes)
  | .observeVolume name uid cluster time, .go =>
    some (s.mutateVolume name uid fun w =>
      if stillAt w cluster then { w with observedAt := some time } else w, [])
  | .finishVolume name cluster r d, .go => some (finishVolume s name cluster r d)
  | .listPools name v sessions, .go =>
    some (s, [.listVolumes name v sessions (s.pools.list.map fun e => (e.1, e.2.val.cluster))])
  | .listVolumes name v sessions pools, .go => some (s, dispatchSnapshot s name v sessions pools)
  | .snapshotHomes cluster r, .go => some (s, [.snapshotVolumes cluster r s.homes])
  | .snapshotVolumes cluster r homes, .go => some (s, [.ourSnapshots cluster r (records s homes)])
  | .ourSnapshots cluster r records, .go => some (s, ourSnapshots s cluster r records)
  | .observeSnapshot name uid volume time, .go =>
    some (s.mutateSnapshot name uid fun w =>
      if w.volume = volume then { w with observedAt := some time } else w, [])
  | .finishSnapshot name cluster r d, .go => some (finishSnapshot s name cluster r d)
  | _, _ => some (s, [])

def program : Program State Task Event Input := ⟨env, task⟩

variable {name : String} {u : Task}

theorem mem_dispatchVolume {v sessions homes} (h : u ∈ dispatchVolume name v sessions homes) :
    ∃ cluster, u = .sendCreate name v cluster := by
  unfold dispatchVolume at h
  split at h
  · cases h
  · rename_i cluster hchosen
    split at h
    · cases h
    · split at h
      · cases h
      · split at h
        · cases h
        · exact ⟨cluster, mem_singleton.mp h⟩

theorem mem_readPool {target} {v} {pool : Cell StoragePoolSpec}
    (h : u ∈ pool.elim [] fun pool => planMove name v target pool.val) :
    u = .move ⟨name, v.uid, none, target⟩ ∨ ∃ here, u = .sendRelease name v here target := by
  cases pool with
  | none => cases h
  | some =>
    simp only [elim_some, planMove] at h
    split at h
    · exact .inl (mem_singleton.mp h)
    · rename_i here hat
      split at h
      · cases h
      · exact .inr ⟨here, mem_singleton.mp h⟩

theorem mem_of_lookup_eq_some {β : Type} {l : List (String × β)} {k b} (h : l.lookup k = some b) :
    (k, b) ∈ l := by
  obtain ⟨l1, l2, rfl, -⟩ := lookup_eq_some_iff.mp h
  simp

theorem lookup_map_list {α β : Type} {t : Table String α} {f : α → β} {k} {b}
    (h : (t.list.map fun e => (e.1, f e.2.val)).lookup k = some b) :
    ∃ v, t.cell k = some v ∧ f v.val = b := by
  have hmem : (k, b) ∈ t.list.map fun e => (e.1, f e.2.val) := mem_of_lookup_eq_some h
  obtain ⟨⟨k', v⟩, hv, heq⟩ := List.mem_map.mp hmem
  cases heq
  exact ⟨v, Table.mem_list.mp hv, rfl⟩

theorem mem_dispatchSnapshot {s v sessions pools}
    (h : u ∈ dispatchSnapshot s name v sessions pools) :
    ∃ w cluster, u = .sendSnapshot name v.uid cluster ∧ s.volumes.cell v.volume = some w ∧
      pools.lookup w.val.pool = some cluster ∧ cluster ≠ "" := by
  unfold dispatchSnapshot at h
  dsimp only at h
  split at h
  · cases h
  · rename_i cluster hroute
    split at h
    · cases h
    · split at h
      · cases h
      · split at h
        · cases h
        · simp only [snapshotRoute, filter_eq_some_iff, bind_eq_some_iff,
            decide_eq_true_eq] at hroute
          obtain ⟨⟨pool, hvolume, hpool⟩, hne⟩ := hroute
          obtain ⟨w, hw, rfl⟩ := lookup_map_list hvolume
          exact ⟨w, cluster, mem_singleton.mp h, hw, hpool, hne⟩

end MeisterStack.CloudController.VolumeRecords
