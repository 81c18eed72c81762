import MeisterStack.ControllerApi.VmShape

/-!
# Updates of a VM

The three roads on which the spec of a stored VM changes: PUT and merge PATCH at the cluster, the
same at the cloud, and the cloud's hand-down. Each reads the VM, judges what it was sent against it,
and writes under its own condition.
-/

namespace MeisterStack.ControllerApi.VmShape

open Foundation Json

structure VmStatus where
  phase : VmPhaseKind
  boundAt : Option Instant

structure VmBody where
  name : String
  generation : Nat
  labels : Labels
  annotations : Labels
  creationTimestamp : Option Instant
  spec : VmSpec
  status : VmStatus

abbrev StoredVm := Object VmBody

def vms (settle : VmSpec → VmStatus → VmStatus) : Resource VmBody where
  resource := "vms"
  settle _ body := { body with status := settle body.spec body.status }

structure Manifest where
  name : String
  resourceVersion : Option Nat
  cloudUid : Option String
  labels : Labels
  annotations : Labels
  spec : VmSpec

def labelManagedBy : String := "meister.io/managed-by"

def labelCloudUid : String := "meister.io/cloud-uid"

def markedLabels (labels : Labels) : Option String → List (String × Json)
  | none => labels.map fun l => (l.1, .str l.2)
  | some uid =>
    insert labelManagedBy (.str "cloud")
      (insert labelCloudUid (.str uid) (labels.map fun l => (l.1, .str l.2)))

def instantDocument (at_ : Instant) : Json := .str (toString at_)

def nonempty {α : Type} (value : List α) (render : List α → Json) : Option Json :=
  if value.isEmpty then none else some (render value)

def metadataDocument (vm : Versioned StoredVm) : Json :=
  .obj (labelsMember "annotations" vm.val.body.annotations ++
    optional "creationTimestamp" (vm.val.body.creationTimestamp.map instantDocument) ++
    optional "deletionTimestamp" (vm.val.metadata.deletionTimestamp.map instantDocument) ++
    optional "finalizers" (nonempty vm.val.metadata.finalizers fun l => .arr (l.map .str)) ++
    [("generation", .num vm.val.body.generation)] ++
    optional "labels"
      (nonempty (markedLabels vm.val.body.labels vm.val.cloudUid) .obj) ++
    [("name", .str vm.val.body.name), ("resourceVersion", .str (toString vm.rev)),
      ("uid", .str vm.val.uid)])

def statusDocument (status : VmStatus) : Json :=
  .obj (optional "boundAt" (status.boundAt.map instantDocument) ++
    [("phase", .str status.phase.asStr)])

def storedDocument (vm : Versioned StoredVm) : Json :=
  document (metadataDocument vm) vm.val.body.spec (statusDocument vm.val.body.status)

def Manifest.document (body : Manifest) : Json :=
  VmShape.document
    (.obj (labelsMember "annotations" body.annotations ++
      optional "labels" (nonempty (markedLabels body.labels body.cloudUid) .obj) ++
      [("name", .str body.name)] ++
      optional "resourceVersion" (body.resourceVersion.map fun rev => .str (toString rev))))
    body.spec .null

def refuse : Option ApiError → Except ApiError Unit
  | some why => .error why
  | none => .ok ()

def letsGo (current next : Option String) : Bool := current.isSome && next.isNone

def notStoppedEnough (strategy : RunStrategy) (phase : VmPhaseKind) : String :=
  match strategy with
  | .stopped =>
    s!"this vm has been told to stop and is still {phase.asStr}; wait for it to come to " ++
      "rest, then let the binding go"
  | other =>
    s!"reschedule needs a vm nobody wants running (runStrategy {runStrategyStr other}, " ++
      s!"phase {phase.asStr}); set runStrategy to Stopped first, then let the binding go"

def carryGeneration (generation : Nat) (current next : VmSpec) : Nat :=
  generation + if obj current.members = .obj next.members then 0 else 1

def carried (current : StoredVm) (body : Manifest) (status : VmStatus) : StoredVm where
  metadata := { current.metadata with cloudUid := body.cloudUid }
  body :=
    { name := body.name
      generation := carryGeneration current.body.generation current.body.spec body.spec
      labels := body.labels
      annotations := body.annotations
      creationTimestamp := current.body.creationTimestamp
      spec := body.spec
      status := status }

structure Edge where
  owned : List Owned
  binding : String
  unbound : VmSpec → VmSpec
  prepare : Manifest → Except ApiError Manifest
  judge : Versioned StoredVm → Manifest → Except ApiError StoredVm

structure ClusterChecks where
  validate : Option ApiError
  refs : Option ApiError
  holder : Option ApiError

def refuseIfCloudOwned (vm : StoredVm) : Except ApiError Unit :=
  if vm.cloudUid.isSome then
    .error (conflict
      s!"vm {vm.body.name} is managed by the cloud; change it there (meister vm ...)")
  else .ok ()

def checkOwnerLabels (current : StoredVm) (body : Manifest) : Except ApiError Unit :=
  if body.cloudUid = current.cloudUid then .ok ()
  else
    let key := if body.cloudUid.isSome = current.cloudUid.isSome then labelCloudUid
      else labelManagedBy
    .error (invalid (s!"metadata.labels[\"{key}\"] says which cloud owns this object and is " ++
      "written by the cloud"))

def checkRescheduleNode (current : StoredVm) (next : VmSpec) : Except ApiError Unit :=
  if letsGo current.body.spec.nodeName next.nodeName then
    if stoppedEnough current.body.spec.runStrategy current.body.status.phase then .ok ()
    else .error (invalidField "spec.nodeName"
      (notStoppedEnough current.body.spec.runStrategy current.body.status.phase))
  else .ok ()

def clusterJudge (checks : ClusterChecks) (current : Versioned StoredVm) (body : Manifest) :
    Except ApiError StoredVm := do
  refuseIfCloudOwned current.val
  refuse checks.validate
  checkOwnerLabels current.val body
  checkOwned (storedDocument current) body.document clusterVmOwned
  refuse checks.refs
  checkRescheduleNode current.val body.spec
  refuse (if letsGo current.val.body.spec.nodeName body.spec.nodeName then checks.holder else none)
  pure (carried current.val body current.val.body.status)

def clusterEdge (checks : ClusterChecks) : Edge where
  owned := clusterVmOwned
  binding := "spec.nodeName"
  unbound spec := { spec with nodeName := none }
  prepare := .ok
  judge := clusterJudge checks

structure DiskFacts where
  volume : String
  pool : String
  nodeLocal : Bool
  node : Option String
  cluster : String
  serving : Nat
  disagreement : Option (String × String)

structure CloudChecks where
  validate : Option ApiError
  catalogue : Option ApiError
  sources : List (String × CatalogueSource)
  grant : Option ApiError
  refs : Option ApiError
  holder : Option ApiError
  disks : List String → Except ApiError (List DiskFacts)
  quota : Option ApiError

def checkNoNodeName (spec : VmSpec) : Except ApiError Unit :=
  if spec.nodeName.isSome then
    .error (invalidField "spec.nodeName"
      ("spec.nodeName is not a field of a vm at this tier: the cloud places on clusters, " ++
        "and which machine inside one runs the vm is the cluster's decision. Use " ++
        "spec.clusterName, or spec.nodeSelector to say what kind of machine it needs"))
  else .ok ()

def DiskFacts.refusal (disk : DiskFacts) : Option String :=
  if disk.nodeLocal then
    let node := disk.node.getD "an unknown node"
    some (s!"pinned by volume {disk.volume} on node {node} in {disk.cluster}: pool {disk.pool} " ++
      "is node-local, so its bytes are on that one machine and cannot follow the vm")
  else if disk.serving < 2 then
    some (s!"pinned by volume {disk.volume} in {disk.cluster}: storage pool {disk.pool} serves " ++
      "only that cluster; set spec.clusters on the pool if the same bytes really are reachable " ++
      "from another one")
  else
    disk.disagreement.map fun pair =>
      s!"storage pool {disk.pool} is served by {pair.1} and {pair.2}, but they do not describe " ++
        s!"the same backend; volume {disk.volume} cannot follow the vm across them"

def rescheduleRefusal (current : StoredVm) (disks : List DiskFacts) : Option String :=
  if stoppedEnough current.body.spec.runStrategy current.body.status.phase then
    disks.findSome? DiskFacts.refusal
  else some (notStoppedEnough current.body.spec.runStrategy current.body.status.phase)

variable (checks : CloudChecks)

def checkRescheduleCluster (current : StoredVm) (next : VmSpec) :
    Except ApiError Unit :=
  if letsGo current.body.spec.clusterName next.clusterName then do
    refuse checks.holder
    let disks ← checks.disks (referencedVolumes current.body.spec.vm)
    refuse ((rescheduleRefusal current disks).map (invalidField "spec.clusterName"))
  else .ok ()

def cloudPrepare (body : Manifest) : Except ApiError Manifest := do
  checkNoNodeName body.spec
  refuse checks.validate
  checkVmShape body.spec.vm
  refuse checks.catalogue
  pure { body with spec.vm := resolveBaseImages checks.sources body.spec.vm }

def releaseBinding (current next : VmSpec) (status : VmStatus) : VmStatus :=
  if letsGo current.clusterName next.clusterName then { status with boundAt := none } else status

def cloudJudge (current : Versioned StoredVm) (body : Manifest) :
    Except ApiError StoredVm := do
  refuse checks.grant
  checkOwned (storedDocument current) body.document cloudVmOwned
  refuse checks.refs
  checkRescheduleCluster checks current.val body.spec
  refuse checks.quota
  pure (carried current.val body
    (releaseBinding current.val.body.spec body.spec current.val.body.status))

def cloudEdge : Edge where
  owned := cloudVmOwned
  binding := "spec.clusterName"
  unbound spec := { spec with clusterName := none }
  prepare := cloudPrepare checks
  judge := cloudJudge checks

abbrev ApiCall := Call String StoredVm Fault (Except ApiError StoredVm)

def annotationDryRun : String := "meister.io/dry-run"

def preview (vm : StoredVm) : StoredVm :=
  { vm with
    body.generation := max vm.body.generation 1
    body.annotations := vm.body.annotations.filter (·.1 ≠ annotationDryRun) ++
      [(annotationDryRun, "true")] }

structure Serde where
  decode : Json → Except String Manifest
  render : Json → String

section Calls

variable (T : Resource VmBody) (serde : Serde)

def writeUnder (name : String) (body : Manifest) (next : StoredVm) : ApiCall :=
  match body.resourceVersion with
  | none =>
    .ret (.error (ofStore
      (.invalid "invalid object: metadata.resourceVersion must be set for updates")))
  | some rev =>
    (T.update name rev next).bind fun
      | .error why => .ret (.error (ofStore why))
      | .ok written => .ret (.ok written.val)

def updateVm (edge : Edge) (name : String) (dry : Bool) (body : Manifest) : ApiCall :=
  if body.name ≠ name then .ret (.error (invalid "metadata.name does not match the path")) else
    match edge.prepare body with
    | .error why => .ret (.error why)
    | .ok body =>
      (T.get name).bind fun
        | .error why => .ret (.error (ofStore why))
        | .ok current =>
          match edge.judge current body with
          | .error why => .ret (.error why)
          | .ok next =>
            if dry then .ret (.ok (preview next)) else writeUnder T name body next

def envelopeRefusal (patch : Json) : Option ApiError :=
  [("apiVersion", apiVersion), ("kind", "Vm")].findSome? fun want =>
    match patch.get want.1 with
    | some value =>
      if value.asStr = some want.2 then none
      else some (invalid (s!"the patch names {want.1} {serde.render value}; this route serves " ++
        s!"apiVersion {apiVersion}, kind Vm"))
    | none => none

def applyMergePatch (current : Versioned StoredVm) (patch : Json) : Except ApiError Manifest :=
  if !patch.isObject then .error (invalid "a merge patch is a json object; see RFC 7386")
  else if (patch.get "status").isSome then
    .error (invalid ("status belongs to the controller; patch the spec of this Vm and leave " ++
      "status out"))
  else
    match envelopeRefusal serde patch with
    | some why => .error why
    | none =>
      match serde.decode (mergePatch (storedDocument current) patch) with
      | .error why =>
        .error (invalid s!"the patch leaves something that is no longer a Vm: {why}")
      | .ok body => .ok body

def patchStatesVersion (patch : Json) : Bool :=
  ((patch.get "metadata").bind (·.get "resourceVersion")).any (· ≠ .null)

def patchAttempts : Nat := 3

def patchOnce (edge : Edge) (name : String) (dry : Bool) (patch : Json) : ApiCall :=
  (T.get name).bind fun
    | .error why => .ret (.error (ofStore why))
    | .ok current =>
      match applyMergePatch serde current patch with
      | .error why => .ret (.error why)
      | .ok body => updateVm T edge name dry body

def patchLoop (edges : Nat → Edge) (name : String) (dry : Bool) (patch : Json) :
    Nat → ApiCall
  | 0 => patchOnce T serde (edges 0) name dry patch
  | left + 1 =>
    (patchOnce T serde (edges (left + 1)) name dry patch).bind fun
      | .error why =>
        if !patchStatesVersion patch && why.reason = "Conflict" then
          patchLoop edges name dry patch left
        else .ret (.error why)
      | .ok vm => .ret (.ok vm)

def patchVm (edges : Nat → Edge) (name : String) (dry : Bool) (patch : Json) : ApiCall :=
  patchLoop T serde edges name dry patch (patchAttempts - 1)

end Calls

structure CreateVm where
  name : String
  uid : String
  spec : VmSpec
  vni : Option Nat
  floatingIps : List String
  routedSubnets : List String
  labels : Labels
  traceparent : String
  drawn : String
  now : Instant

namespace CreateVm

variable (c : CreateVm)

def bindNics (vm : Json) : Json :=
  let vm := match c.vni with
    | some vni => injectVxlanId vni vm
    | none => vm
  injectNicList nicRoutedSubnets c.routedSubnets (injectNicList nicFloatingIps c.floatingIps vm)

def bound : VmSpec := { c.spec with vm := c.bindNics c.spec.vm }

def ownLabels : Labels := c.labels.filter fun l => l.1 ≠ labelManagedBy && l.1 ≠ labelCloudUid

def declaredForCloud : StoredVm where
  metadata := ⟨c.drawn, none, ["meister.io/teardown"], some c.uid⟩
  body :=
    { name := c.name
      generation := 1
      labels := c.ownLabels
      annotations := if c.traceparent = "" then [] else [("meister.io/traceparent", c.traceparent)]
      creationTimestamp := some c.now
      spec := { c.bound with nodeName := none, clusterName := none }
      status := ⟨.pending, none⟩ }

variable (current : StoredVm)

def refuseUnlessOurs : Except String Unit :=
  if current.cloudUid ≠ some c.uid then
    let whose := if current.cloudUid.isSome then "another cloud vm" else "a cluster-local vm"
    .error s!"the name {c.name} is taken by {whose}"
  else if current.metadata.deletionTimestamp.isSome then
    .error s!"vm {c.name} is still being torn down"
  else .ok ()

def shapeMoved : Except String Bool :=
  let moved := current.body.spec.vm ≠ c.bound.vm
  if moved && !vmShapeUnchanged (withoutNicLists current.body.spec.vm)
      (withoutNicLists c.bound.vm) then
    .error (s!"vm {c.name} arrived with a spec.vm that is not the stored one plus appended " ++
      "volume references and the addresses its nics may use; the shape of a vm is fixed once " ++
      "it exists")
  else .ok moved

def placementMoved : Bool :=
  current.body.spec.vmClass ≠ c.spec.vmClass ||
    current.body.spec.nodeSelector ≠ c.spec.nodeSelector ||
    current.body.spec.antiAffinity ≠ c.spec.antiAffinity ||
    current.body.labels ≠ c.ownLabels || current.cloudUid ≠ some c.uid

def keepsOwnWires (ownWire : Option String) (current : StoredVm) : Except String Unit :=
  match ownWire with
  | some why =>
    if ownWires current.body.spec.vm ≠ ownWires c.bound.vm then .error why else .ok ()
  | none => .ok ()

def takes (ownWire : Option String) (current : StoredVm) : Except String Bool := do
  c.refuseUnlessOurs current
  c.keepsOwnWires ownWire current
  let shapeMoved ← c.shapeMoved current
  pure (shapeMoved || current.body.spec.evacuation ≠ c.spec.evacuation ||
    c.placementMoved current || current.body.spec.runStrategy ≠ c.spec.runStrategy)

def drift (v : StoredVm) : StoredVm where
  metadata := { v.metadata with cloudUid := some c.uid }
  body :=
    { v.body with
      labels := c.ownLabels
      generation := v.body.generation + if v.body.spec.vm = c.bound.vm then 0 else 1
      spec :=
        { v.body.spec with
          runStrategy := c.spec.runStrategy
          evacuation := c.spec.evacuation
          vmClass := c.spec.vmClass
          nodeSelector := c.spec.nodeSelector
          antiAffinity := c.spec.antiAffinity
          vm := c.bound.vm } }

def ownWire : Option String :=
  match checkTenantNics c.spec.vm with
  | .error why => some why.message
  | .ok () => none

end CreateVm

abbrev SessionCall := Call String StoredVm Fault (Except String Unit)

section Calls

variable (T : Resource VmBody) (c : CreateVm)

def writeDrift (current : StoredVm) : SessionCall :=
  (T.mutateIf c.name current.uid fun v => (c.drift v, ())).bind fun
    | .error why => .ret (.error (said why))
    | .ok _ => .ret (.ok ())

def handDownAgain (ownWire : Option String) : SessionCall :=
  (T.get c.name).bind fun
    | .error (.notFound subject) => .ret (.error (ownWire.getD (said (.notFound subject))))
    | .error why => .ret (.error (said why))
    | .ok current =>
      match c.takes ownWire current.val with
      | .error why => .ret (.error why)
      | .ok false => .ret (.ok ())
      | .ok true => writeDrift T c current.val

def handleCreate : SessionCall :=
  if c.uid = "" then .ret (.error "create without a cloud uid")
  else if !c.spec.vm.isObject then .ret (.error "spec.vm must be the agent's NewVmSpec object")
  else
    match c.ownWire with
    | some why => handDownAgain T c (some why)
    | none =>
      (T.create c.name c.declaredForCloud).bind fun
        | .ok _ => .ret (.ok ())
        | .error (.alreadyExists _) => handDownAgain T c none
        | .error why => .ret (.error (said why))

end Calls

end MeisterStack.ControllerApi.VmShape
