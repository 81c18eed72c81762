import MeisterStack.Foundation.Json
import MeisterStack.ControllerApi.Mirror
import MeisterStack.ControllerApi.StoreCalls

/-!
# The shape of a VM

`spec.vm` is the agent's document, kept as JSON. Its frozen part is what an update may not touch:
everything but the referenced volumes after the boot entry.
-/

namespace MeisterStack.ControllerApi.VmShape

open Foundation List

def refersToAVolume (entry : Json) : Bool := ((entry.get "volume").bind Json.asStr).any (· ≠ "")

variable (vm : Json)

def referencedVolumes : List String :=
  (vm.items "volumes").filterMap fun entry =>
    ((entry.get "volume").bind Json.asStr).filter (· ≠ "")

def describesADisk : List String :=
  ["size_bytes", "base_image", "base_image_url", "base_image_sha256", "base_image_uid", "driver"]

def malformedVolumeReference : Option String :=
  ((vm.items "volumes").filter refersToAVolume).findSome? fun entry =>
    describesADisk.find? fun field => (entry.get field).any (· ≠ .null)

def frozenEntries (entries : List Json) : List Json :=
  (entries.zipIdx.filter fun e => e.2 = 0 || !refersToAVolume e.1).map (·.1)

def frozenVmShape : Json → Json := Json.modifyArray "volumes" frozenEntries

def vmShapeUnchanged (current next : Json) : Bool := frozenVmShape current = frozenVmShape next

def unbindOnly (current next : Json) : Bool := current = next || next = .null

theorem frozenEntries_cons (boot rest) :
    frozenEntries (boot :: rest) = boot :: rest.filter fun e => !refersToAVolume e := by
  have hrest : ∀ (l : List Json) (n : Nat),
      ((l.zipIdx (n + 1)).filter fun e => e.2 = 0 || !refersToAVolume e.1).map (·.1) =
        l.filter fun e => !refersToAVolume e := by
    intro l
    induction l with
    | nil => simp
    | cons entry l ih =>
      intro n
      rw [zipIdx_cons, filter_cons, filter_cons, ← ih (n + 1)]
      cases refersToAVolume entry <;> simp
  rw [frozenEntries, zipIdx_cons, filter_cons_of_pos (by simp), map_cons, hrest]

theorem map_eq_self_of_frozenEntries {edit}
    (hrefers : ∀ e, refersToAVolume (edit e) = refersToAVolume e) {entries}
    (hkept : ∀ e ∈ entries, refersToAVolume e → edit e = e)
    (h : frozenEntries (entries.map edit) = frozenEntries entries) :
    entries.map edit = entries := by
  cases entries with
  | nil => rfl
  | cons boot rest =>
    rw [map_cons, frozenEntries_cons, frozenEntries_cons, cons.injEq] at h
    obtain ⟨hboot, hrest⟩ := h
    rw [map_cons, hboot, cons.injEq]
    refine ⟨rfl, ?_⟩
    have hkept' : ∀ e ∈ rest, refersToAVolume e → edit e = e :=
      fun e he => hkept e (mem_cons_of_mem _ he)
    clear hkept hboot
    induction rest with
    | nil => rfl
    | cons entry rest ih =>
      have hkeptRest : ∀ e ∈ rest, refersToAVolume e → edit e = e :=
        fun e he => hkept' e (mem_cons_of_mem _ he)
      rw [map_cons, filter_cons, filter_cons, hrefers] at hrest
      cases hr : refersToAVolume entry with
      | true =>
        simp only [hr, Bool.not_true, Bool.false_eq_true, if_false] at hrest
        rw [map_cons, hkept' entry (by simp) hr, ih hrest hkeptRest]
      | false =>
        simp only [hr, Bool.not_false, if_true, cons.injEq] at hrest
        rw [map_cons, hrest.1, ih hrest.2 hkeptRest]

def nicFloatingIps : String := "floating_ips"

def nicRoutedSubnets : String := "routed_subnets"

def modifyNics (edit : List (String × Json) → List (String × Json)) : Json → Json :=
  Json.modifyArray "nics" (map fun nic =>
    match nic with
    | .obj members => .obj (edit members)
    | other => other)

def withoutNicLists : Json → Json :=
  modifyNics fun nic => Json.erase nicRoutedSubnets (Json.erase nicFloatingIps nic)

def onAProviderNetwork (nic : List (String × Json)) : Bool :=
  ((nic.lookup "physnet").bind Json.asStr).any (· ≠ "")

def injectVxlanId (vni : Nat) : Json → Json :=
  modifyNics fun nic =>
    if (nic.lookup "vxlan_id").any (· ≠ .null) || onAProviderNetwork nic then nic
    else Json.insert "vxlan_id" (.num vni) nic

def injectNicList (field : String) (values : List String) (vm : Json) : Json :=
  if values.isEmpty then vm
  else
    modifyNics (fun nic =>
      if (nic.lookup "physnet").any (· ≠ .null) then nic
      else if ((nic.lookup field).bind Json.asArray).any (!·.isEmpty) then nic
      else Json.insert field (.arr (values.map .str)) nic) vm

structure OwnWire where
  nic : Nat
  field : String
  name : String
  deriving DecidableEq

def ownWires : List OwnWire :=
  (vm.items "nics").zipIdx.flatMap fun e =>
    ["physnet", "bridge"].filterMap fun field =>
      (((e.1.get field).bind Json.asStr).filter (· ≠ "")).map fun name => ⟨e.2, field, name⟩

def shape : Json := frozenVmShape (withoutNicLists vm)

theorem shape_eq (vm) : shape vm = withoutNicLists (frozenVmShape vm) :=
  Json.modify_comm (by decide) _ _ vm

theorem shape_of_vmShapeUnchanged {current next} (h : vmShapeUnchanged current next) :
    shape next = shape current := by
  rw [shape_eq, shape_eq, of_decide_eq_true h]

structure ApiError where
  status : Nat
  reason : String
  message : String
  field : Option String

def invalid (message : String) : ApiError := ⟨422, "Invalid", message, none⟩

def invalidField (field message : String) : ApiError := { invalid message with field := some field }

def conflict (message : String) : ApiError := ⟨409, "Conflict", message, none⟩

def said : StoreError → String
  | .notFound subject => s!"object not found: {subject}"
  | .alreadyExists subject => s!"object already exists: {subject}"
  | .terminating subject => s!"object is being deleted: {subject}"
  | .conflict message => message
  | .invalid message => message
  | .fault (.backend message) => s!"etcd: {message}"
  | .fault (.timeout what) => s!"etcd {what} did not answer"
  | .fault (.undecodable message) => s!"invalid object: does not parse: {message}"

def ofStore (why : StoreError) : ApiError :=
  let (status, reason) : Nat × String :=
    match why with
    | .notFound _ => (404, "NotFound")
    | .alreadyExists _ => (409, "AlreadyExists")
    | .terminating _ => (409, "Terminating")
    | .conflict _ => (409, "Conflict")
    | .invalid _ => (422, "Invalid")
    | .fault (.backend _) => (500, "Internal")
    | .fault (.timeout _) => (503, "Timeout")
    | .fault (.undecodable _) => (422, "Invalid")
  ⟨status, reason, said why, none⟩

def checkTenantNics : Except ApiError Unit :=
  match (ownWires vm).head? with
  | some wire =>
    .error (invalidField s!"spec.vm.nics[{wire.nic}].{wire.field}"
      (s!"spec.vm.nics[{wire.nic}].{wire.field} is not a tenant's to set: a tenant's vm hangs " ++
        "on its own overlay, and a provider network or a host bridge is shared with everybody " ++
        "on it"))
  | none => .ok ()

def checkVmShape : Except ApiError Unit :=
  match malformedVolumeReference vm with
  | some field =>
    .error (invalidField "spec.vm.volumes"
      s!"a referenced volume has its size and image already; drop \"{field}\"")
  | none => .ok ()

inductive Mutability where
  | immutable
  | serverOwned
  | structural

structure Owned where
  path : String
  kind : Mutability
  because : String
  permits : Option (Json → Json → Bool)

namespace Owned

variable (path because : String)

def serverOwned : Owned := ⟨path, .serverOwned, because, none⟩

def immutable : Owned := ⟨path, .immutable, because, none⟩

def structural (permits : Json → Json → Bool) : Owned :=
  ⟨path, .structural, because, some permits⟩

def allows (row : Owned) (current next : Json) : Bool :=
  let was := current.atPath row.path
  let now := next.atPath row.path
  match row.permits with
  | some permits => permits was now
  | none => was = now

end Owned

def checkOwned (current next : Json) : List Owned → Except ApiError Unit
  | [] => .ok ()
  | row :: rows =>
    if row.allows current next then checkOwned current next rows
    else .error (invalidField row.path s!"{row.path} {row.because}")

theorem checkOwned_ok {current next rows} (h : checkOwned current next rows = .ok ()) :
    ∀ row ∈ rows, row.allows current next := by
  induction rows with
  | nil => simp
  | cons row rows ih =>
    rw [checkOwned] at h
    split at h
    · rename_i hallows
      exact forall_mem_cons.mpr ⟨hallows, ih h⟩
    · cases h

abbrev Labels := List (String × String)

def labelsDocument (labels : Labels) : Json := .obj (labels.map fun l => (l.1, .str l.2))

def labelsMember (key : String) (labels : Labels) : List (String × Json) :=
  Json.optional key (if labels.isEmpty then none else some (labelsDocument labels))

inductive Evacuation where
  | never
  | restart
  deriving DecidableEq

def Evacuation.asStr : Evacuation → String
  | .never => "never"
  | .restart => "restart"

def runStrategyStr : RunStrategy → String
  | .running => "Running"
  | .stopped => "Stopped"
  | .paused => "Paused"

structure AntiAffinity where
  selector : Labels
  required : Bool
  deriving DecidableEq

structure VmSpec where
  nodeName : Option String
  clusterName : Option String
  runStrategy : RunStrategy
  evacuation : Evacuation
  tenant : Option String
  vmClass : String
  clusterSelector : Labels
  nodeSelector : Labels
  antiAffinity : List AntiAffinity
  vm : Json

variable (spec : VmSpec)

def VmSpec.members : List (String × Json) :=
  Json.optional "antiAffinity" (if spec.antiAffinity.isEmpty then none else
      some (.arr (spec.antiAffinity.map fun term =>
        .obj [("required", .bool term.required), ("selector", labelsDocument term.selector)]))) ++
    Json.optional "class" (if spec.vmClass = "" then none else some (.str spec.vmClass)) ++
    Json.optional "clusterName" (spec.clusterName.map .str) ++
    labelsMember "clusterSelector" spec.clusterSelector ++
    Json.optional "evacuation"
      (if spec.evacuation = .never then none else some (.str spec.evacuation.asStr)) ++
    Json.optional "nodeName" (spec.nodeName.map .str) ++
    labelsMember "nodeSelector" spec.nodeSelector ++
    [("runStrategy", .str (runStrategyStr spec.runStrategy))] ++
    Json.optional "tenant" (spec.tenant.map .str) ++
    [("vm", spec.vm)]

def apiVersion : String := "meister.io/v1"

def document (metadata : Json) (spec : VmSpec) (status : Json) : Json :=
  .obj [("apiVersion", .str apiVersion), ("kind", .str "Vm"), ("metadata", metadata),
    ("spec", .obj spec.members), ("status", status)]

variable {field : String}

theorem atPath_spec (metadata status spec) {path} (h : Json.segments path = ["spec", field]) :
    (document metadata spec status).atPath path = (spec.members.lookup field).getD .null := by
  simp [Json.atPath, h, document, Json.get, lookup_cons]

theorem atPath_vm (metadata status spec) :
    (document metadata spec status).atPath "spec.vm" = spec.vm := by
  have h : Json.segments "spec.vm" = ["spec", "vm"] := by decide
  rw [atPath_spec metadata status spec h]
  simp [VmSpec.members, lookup_append, labelsMember, lookup_cons]

theorem lookup_unbound_node (h : field ≠ "nodeName") :
    { spec with nodeName := none }.members.lookup field = spec.members.lookup field := by
  simp [VmSpec.members, lookup_append, h]

theorem lookup_unbound_cluster (h : field ≠ "clusterName") :
    { spec with clusterName := none }.members.lookup field = spec.members.lookup field := by
  simp [VmSpec.members, lookup_append, h]

def frozenBecause : String :=
  "is immutable except for spec.vm.volumes[] from the second entry on, and there only for " ++
    "entries that name a volume: the boot entry and every inline disk are fixed for the life " ++
    "of the vm"

def bindingBecause : String :=
  "is the scheduler's to set; a client may only clear it, and only on a stopped vm"

def clusterVmOwned : List Owned :=
  [ .structural "spec.vm" frozenBecause vmShapeUnchanged,
    .immutable "spec.nodeSelector"
      "is immutable; it decided where the vm was placed, and it was placed",
    .structural "spec.nodeName" bindingBecause unbindOnly,
    .serverOwned "spec.clusterName" "is the cloud's to set, not this tier's" ]

def cloudVmOwned : List Owned :=
  [ .structural "spec.vm" frozenBecause vmShapeUnchanged,
    .immutable "spec.clusterSelector"
      "is immutable; it decides where the vm was placed, and it was placed",
    .serverOwned "spec.tenant" "is set by the server; whose a vm is, is decided once",
    .structural "spec.clusterName" bindingBecause unbindOnly ]

theorem frozen_of_allows {rows : List Owned} {metadata metadata' status status'}
    {current next}
    (hrow : Owned.structural "spec.vm" frozenBecause vmShapeUnchanged ∈ rows)
    (h : ∀ row ∈ rows, row.allows (document metadata current status)
      (document metadata' next status')) :
    vmShapeUnchanged current.vm next.vm := by
  have hvm := h _ hrow
  simpa only [Owned.allows, Owned.structural, atPath_vm] using hvm

structure CatalogueSource where
  url : String
  sha256 : String
  uid : String

def resolveEntry (sources : List (String × CatalogueSource)) (entry : Json) : Json :=
  match (entry.get "base_image").bind Json.asStr with
  | none => entry
  | some name =>
    match sources.lookup name, entry with
    | some source, .obj members =>
      .obj (Json.insert "base_image_uid" (.str source.uid)
        (Json.insert "base_image_sha256" (.str source.sha256)
          (Json.insert "base_image_url" (.str source.url) members)))
    | _, _ => entry

def resolveBaseImages (sources : List (String × CatalogueSource)) (vm : Json) : Json :=
  if sources.isEmpty then vm else vm.modifyArray "volumes" (map (resolveEntry sources))

theorem refersToAVolume_resolveEntry (sources entry) :
    refersToAVolume (resolveEntry sources entry) = refersToAVolume entry := by
  unfold resolveEntry
  split
  · rfl
  · split
    · simp [refersToAVolume, Json.get, Json.lookup_insert_ne]
    · rfl

variable {sources : List (String × CatalogueSource)}

theorem resolveEntry_of_reference {vm entry} (hwell : malformedVolumeReference vm = none)
    (hmem : entry ∈ vm.items "volumes") (hrefers : refersToAVolume entry) :
    resolveEntry sources entry = entry := by
  have hbare : (entry.get "base_image").any (· ≠ .null) = false := by
    simp only [malformedVolumeReference, findSome?_eq_none_iff, mem_filter,
      find?_eq_none] at hwell
    simpa using hwell entry ⟨hmem, hrefers⟩ "base_image" (by simp [describesADisk])
  have hname : (entry.get "base_image").bind Json.asStr = none := by
    cases hget : entry.get "base_image" with
    | none => rfl
    | some =>
      simp only [hget, Option.any_some, decide_eq_false_iff_not, ne_eq, not_not] at hbare
      simp [hbare, Json.asStr]
  simp only [resolveEntry, hname]

theorem resolveBaseImages_eq_self {vm} (hwell : malformedVolumeReference vm = none)
    (h : vmShapeUnchanged vm (resolveBaseImages sources vm)) :
    resolveBaseImages sources vm = vm := by
  have hfrozen := of_decide_eq_true h
  unfold resolveBaseImages at hfrozen ⊢
  split
  · rfl
  · rename_i hsome
    rw [if_neg hsome] at hfrozen
    refine Json.modify_eq_self (fun value hvalue hlook => ?_) hfrozen.symm
    cases value with
    | arr =>
      refine congrArg Json.arr (map_eq_self_of_frozenEntries
        (refersToAVolume_resolveEntry sources) (fun entry hentry => ?_) (Json.arr.inj hlook))
      exact resolveEntry_of_reference hwell (by simpa [Json.items, hvalue, Json.asArray])
    | _ => rfl

end MeisterStack.ControllerApi.VmShape
