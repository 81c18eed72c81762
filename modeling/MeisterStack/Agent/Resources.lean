import MeisterStack.Foundation.Procedure
import MeisterStack.Foundation.Machine

/-!
# The resources of a VM

What drivers made for a VM, as its record names it, and the procedures that make and release it.
They run under the operations lock, so each one is a single step of the node. What the drivers hold
is read off the log of their calls.
-/

namespace MeisterStack.Agent.Provision

open Foundation Prod

abbrev VolumeId := String

abbrev NicId := String

abbrev DeviceId := String

structure VolumeWithId where
  id : VolumeId
  referenced : Bool
  deriving DecidableEq

structure VmSpec where
  volumes : List VolumeWithId
  nics : List NicId
  devices : List DeviceId
  deriving DecidableEq

structure Volume where
  id : VolumeId
  detached : Bool
  deriving DecidableEq

structure Resources where
  spec : VmSpec
  volumes : List Volume
  unattached : List VolumeId
  nics : List NicId
  devices : List DeviceId
  receiving : Bool
  deriving DecidableEq

variable (spec : VmSpec)

def Resources.fresh : Resources := ⟨spec, [], [], [], [], false⟩

def isPluggable (position : Nat) (v : VolumeWithId) : Bool := 0 < position && v.referenced

def pluggableVolumes (volumes : List VolumeWithId) : List VolumeWithId :=
  (volumes.zipIdx.filter fun p => isPluggable p.2 p.1).map fst

def fixedVolumes (volumes : List VolumeWithId) : List VolumeWithId :=
  (volumes.zipIdx.filter fun p => !isPluggable p.2 p.1).map fst

def volumeDiff (held wanted : List VolumeWithId) : List VolumeWithId × List VolumeWithId :=
  let held := pluggableVolumes held
  let wanted := pluggableVolumes wanted
  (wanted.filter fun w => !held.any fun h => h.id = w.id,
    held.filter fun h => !wanted.any fun w => w.id = h.id)

def sameFixed (held wanted : VolumeWithId) : Bool :=
  match held.referenced, wanted.referenced with
  | false, false => true
  | true, true => held.id = wanted.id
  | _, _ => false

def keepFixed : List VolumeWithId → List (VolumeWithId × Nat) → Option (List VolumeWithId)
  | [], [] => some []
  | _ :: _, [] => none
  | kept, (w, position) :: rest =>
    if isPluggable position w then (keepFixed kept rest).map (w :: ·)
    else
      match kept with
      | [] => none
      | h :: kept => if sameFixed h w then (keepFixed kept rest).map (h :: ·) else none

def volumesKeepingFixed (held wanted : List VolumeWithId) : Option (List VolumeWithId) :=
  keepFixed (fixedVolumes held) wanted.zipIdx

variable (r : Resources) (volumes : List VolumeId)

def driftedInlineIds :
    Option (List (Nat × VolumeId)) :=
  let named := fun id => r.spec.volumes.any fun v => v.id = id
  let orphaned := (r.volumes.map (·.id)).filter fun id => !named id && !(id ∈ volumes)
  if orphaned = [] then some []
  else
    let unheld := (r.spec.volumes.zipIdx.filter fun p =>
      !p.1.referenced && !(r.volumes.any fun h => h.id = p.1.id) &&
        !(p.1.id ∈ r.unattached)).map snd
    if unheld.length = orphaned.length then some (unheld.zip orphaned) else none

def restoreDriftedInlineIds : Option Resources :=
  (driftedInlineIds r volumes).map fun drifted =>
    { r with
      spec := { r.spec with
        volumes := drifted.foldl
          (fun volumes p => volumes.modify p.1 fun v => { v with id := p.2 }) r.spec.volumes } }

def Resources.cleared : Resources :=
  { r with volumes := [], nics := [], devices := [] }

def volumeIsReferenced (id : VolumeId) : Bool :=
  (r.spec.volumes.find? fun v => v.id = id).any (·.referenced)

inductive Item where
  | attachment (v : VolumeId)
  | disk (v : VolumeId)
  | nic (n : NicId)
  | device (d : DeviceId)
  | slice
  deriving DecidableEq

inductive VmmCall where
  | create
  | start
  | destroy
  | addDisk (v : VolumeId)
  | removeDisk (v : VolumeId)
  deriving DecidableEq

inductive Call where
  | make (item : Item) (ok : Bool)
  | release (item : Item) (ok : Bool)
  | killSlice (ok : Bool)
  | vmm (what : VmmCall) (ok : Bool)
  deriving DecidableEq

variable (item : Item)

def Call.after (held : Bool) : Call → Bool
  | .make i true => held || i = item
  | .release i true => held && i ≠ item
  | _ => held

def holds (log : List Call) (item : Item) : Bool := log.foldl (Call.after item) false

inductive Failure where
  | cgroupKill
  | vmmDestroy
  | item (item : Item)
  | driver (v : VolumeId)
  | overlay
  | probe (v : VolumeId)
  | forget (v : VolumeId)

structure Work where
  stored : Option Resources
  draft : Resources
  log : List Call
  failures : List Failure
  closed : List VolumeId

abbrev Act := Procedure Work

open Procedure

def note (c : Call) : Act Unit := change fun w => { w with log := w.log ++ [c] }

variable (c : Bool → Call)

def call : Act Bool := do
  let ok ← ask
  note (c ok)
  pure ok

def must : Act Unit := do
  if ← call c then pure () else fail

variable (f : Resources → Resources)

def edit : Act Unit := change fun w => { w with draft := f w.draft }

def put : Act Unit := change fun w => { w with stored := some w.draft }

def mutate : Act Unit :=
  change fun w => { w with stored := w.stored.map f }

variable (why : Failure)

def failed : Act Unit :=
  change fun w => { w with failures := w.failures ++ [why] }

def withStored (f : Resources → Act Unit) : Act Unit := do
  let w ← current
  match w.stored with
  | none => pure ()
  | some r => f r

def acquire : Act Unit := do
  must (.make item)
  edit f

variable (v : VolumeWithId)

def inlineHandle : Act Unit := do
  let w ← current
  if v.id ∈ w.draft.unattached then pure ()
  else do
    acquire (.disk v.id) fun r => { r with unattached := r.unattached ++ [v.id] }
    put

def handle : Act Unit := if v.referenced then check else inlineHandle v

def attachVolume : Act Unit := do
  handle v
  acquire (.attachment v.id) fun r =>
    { r with
      volumes := r.volumes ++ [⟨v.id, false⟩]
      unattached := r.unattached.filter fun h => h ≠ v.id }
  put

def attachNic (n : NicId) : Act Unit := do
  check
  acquire (.nic n) fun r => { r with nics := r.nics ++ [n] }

def createDevice (d : DeviceId) : Act Unit :=
  acquire (.device d) fun r => { r with devices := r.devices ++ [d] }

def buildInstanceSpec : Act Unit := do
  let w ← current
  -- whether one of the attachments is a block device is known from its driver only
  if w.draft.volumes = [] then fail else check

def boot : Act Unit := do
  buildInstanceSpec
  must (.vmm .create)
  put
  must (.vmm .start)
  put

def attachVolumes : Act Unit := do
  each attachVolume spec.volumes
  put

def attachNics : Act Unit := do
  -- the network drivers
  check
  each attachNic spec.nics
  put

def createDevices : Act Unit := do
  each createDevice spec.devices
  put

def makeResources : Act Unit := do
  -- the images
  check
  must (.make .slice)
  attachVolumes spec
  attachNics spec
  createDevices spec

def runChain : Act Unit := do
  makeResources spec
  -- the wider slice and the seed
  check
  check
  boot

def callOr : Act Unit := do
  if ← call c then pure () else failed why

def askOr : Act Unit := do
  if ← ask then pure () else failed why

def releaseOr : Act Unit := callOr (.release item) (.item item)

def deprovisionUnattached (v : VolumeId) : Act Unit := do
  if ← call (.release (.disk v)) then
    mutate fun r => { r with unattached := r.unattached.filter fun h => h ≠ v }
  else failed (.item (.disk v))

def reclaimUnattached : Act Unit := do
  if v.referenced || r.volumes.any fun h => h.id = v.id then pure ()
  else if v.id ∈ r.unattached then deprovisionUnattached v.id
  else if ← ask then do
    let w ← current
    if holds w.log (.disk v.id) then do
      mutate fun r => { r with unattached := r.unattached ++ [v.id] }
      deprovisionUnattached v.id
    else pure ()
  else failed (.probe v.id)

def close (v : Volume) : Act Unit := do
  if v.detached then pure ()
  else if ← call (.release (.attachment v.id)) then
    change fun w => { w with closed := w.closed ++ [v.id] }
  else failed (.item (.attachment v.id))

def closeVolume (v : Volume) : Act Unit := do
  if ← ask then do
    close v
    if volumeIsReferenced r v.id then
      if r.receiving then askOr (.forget v.id) else pure ()
    else releaseOr (.disk v.id)
  else failed (.driver v.id)

def markClosed (closed : List VolumeId) (r : Resources) : Resources :=
  { r with
    volumes := r.volumes.map fun v => if v.id ∈ closed then { v with detached := true } else v }

def releases : List (Act Unit) :=
  [callOr .killSlice .cgroupKill,
   callOr (.vmm .destroy) .vmmDestroy,
   each (fun d => releaseOr (.device d)) r.devices,
   each (fun n => releaseOr (.nic n)) r.nics,
   askOr .overlay,
   each (reclaimUnattached r) r.spec.volumes,
   each (closeVolume r) r.volumes]

def dismantle : Act Unit := do
  each id (releases r)
  change fun w => { w with stored := w.stored.map (markClosed w.closed) }
  releaseOr .slice

def verdict : Act Unit := do
  let w ← current
  if w.failures = [] then change fun w => { w with stored := none } else fail

def teardown : Act Unit :=
  withStored fun r => do
    change fun w => { w with draft := r, failures := [], closed := [] }
    dismantle r
    verdict

def detachEach : List Volume → Act (List Volume)
  | [] => pure []
  | v :: vs => do
      let ok ← call (.release (.attachment v.id))
      let rest ← detachEach vs
      pure ((if ok then { v with detached := true } else v) :: rest)

def releaseDevice (d : DeviceId) : Act Unit := do
  let _ ← call (.release (.device d))
  pure ()

def stop : Act Unit :=
  withStored fun r => do
    must (.vmm .destroy)
    each releaseDevice r.devices
    let volumes ← detachEach r.volumes
    change fun w => { w with draft := { r with devices := [], volumes } }
    put

def plug (live : Bool) (what : VmmCall) : Act Unit := if live then must (.vmm what) else pure ()

def detachVolume (live : Bool) (v : VolumeWithId) : Act Unit := do
  let w ← current
  if w.draft.volumes.any fun h => h.id = v.id then do
    check
    plug live (.removeDisk v.id)
    edit fun r => { r with volumes := r.volumes.eraseP fun h => h.id = v.id }
    must (.release (.attachment v.id))
  else pure ()

def plugVolume (live : Bool) (v : VolumeWithId) : Act Unit := do
  check
  must (.make (.attachment v.id))
  plug live (.addDisk v.id)
  edit fun r => { r with volumes := r.volumes ++ [⟨v.id, false⟩] }

variable (wanted : List VolumeWithId)

section

variable (live hotplug : Bool)

def applyVolumeDiff : Act Unit := do
  let w ← current
  let diff := volumeDiff w.draft.spec.volumes wanted
  if diff.1 = [] ∧ diff.2 = [] then pure ()
  else
    match volumesKeepingFixed w.draft.spec.volumes wanted with
    | none => fail
    | some volumes =>
      if live && !hotplug then fail
      else do
        each (detachVolume live) diff.2
        each (plugVolume live) diff.1
        edit fun r => { r with spec := { r.spec with volumes } }

def syncVolumes : Act Unit :=
  withStored fun r => do
    change fun w => { w with draft := r }
    applyVolumeDiff wanted live hotplug
    put

def syncInPlace : Act Unit := do
  check
  syncVolumes wanted live hotplug

def chainOr (rest : Act Unit) : Act Unit := do
  match ← attempt (runChain spec) with
  | some _ => pure ()
  | none => do
      put
      rest

def provisionFresh : Act Unit := do
  -- the device admission
  check
  change fun w => { w with stored := some (.fresh spec), draft := .fresh spec }
  chainOr spec do
    teardown
    fail

def provision : Act Unit := do
  let w ← current
  match w.stored with
  | some _ => syncInPlace spec.volumes live hotplug
  | none => provisionFresh spec

end

def rebuild : Act Unit := do
  change fun w => { w with stored := some r.cleared, draft := r.cleared }
  chainOr r.spec fail

def resume : Act Unit :=
  withStored fun r => do
    must .killSlice
    check
    match restoreDriftedInlineIds r volumes with
    | none => fail
    | some restored => rebuild restored

structure Vm where
  stored : Option Resources
  log : List Call
  deriving DecidableEq

inductive Op where
  | provision (spec : VmSpec) (live hotplug : Bool)
  | resume (volumes : List VolumeId)
  | stop
  | teardown

def Op.action : Op → Act Unit
  | .provision spec live hotplug => Provision.provision spec live hotplug
  | .resume volumes => Provision.resume volumes
  | .stop => Provision.stop
  | .teardown => Provision.teardown

namespace Vm

def unknown : Vm := ⟨none, []⟩

variable (vm : Vm)

def work : Work := ⟨vm.stored, .fresh ⟨[], [], []⟩, vm.log, [], []⟩

def answer (op : Op) (answers : List Bool) : Option Unit :=
  op.action.result vm.work answers

def after (op : Op) (answers : List Bool) : Vm :=
  let w := op.action.final vm.work answers
  ⟨w.stored, w.log⟩

def calls (op : Op) (answers : List Bool) : List Call :=
  (vm.after op answers).log.drop vm.log.length

end Vm

def vmMachine : Machine Vm (Op × List Bool) := ⟨fun vm e => some (vm.after e.1 e.2)⟩

end MeisterStack.Agent.Provision
