import MeisterStack.Foundation.Program
import MeisterStack.ControllerApi.Quota

/-!
# Admission under the fence of a tenant

`create_vm`, `update_vm`, `create_volume` and a growing `update_volume` decide in rounds: read the
fence of the tenant, read what it may hold and what it holds, and write the object in one
transaction that compares the fence and moves it. The other writers go without the fence.
-/

namespace MeisterStack.CloudController.Admission

open Foundation ControllerApi

inductive ApiError where
  | invalid (why : String)
  | conflict (why : String)

structure Fence where
  key : String
  revision : Nat
  -- history: how often the fence had been passed when it was read
  passes : Nat

structure State where
  next : Nat
  tenants : Table String TenantQuota
  vms : Table String (Option HeldVm)
  volumes : Table String (Option HeldVolume)
  fences : Table String String
  passed : List String

inductive Draft where
  | vm (body : HeldVm)
  | volume (body : HeldVolume) (pool : StoragePool)

structure Request where
  name : String
  draft : Draft
  resourceVersion : Option Nat
  dry : Bool

namespace Request

variable (a : Request)

def tenant : Option String :=
  match a.draft with
  | .vm body => body.tenant
  | .volume body _ => some body.tenant

def except : Option String := a.resourceVersion.map fun _ => a.name

def mark : String :=
  match a.draft with
  | .vm _ => "vms/" ++ a.name
  | .volume _ _ => "volumes/" ++ a.name

end Request

inductive Fenced where
  | written | moved | terminating | alreadyExists | conflict
  deriving DecidableEq

namespace State

variable (s : State)

def passes (key : String) : Nat := s.passed.count key

def fence (name : String) : Fence where
  key := name
  revision := (s.fences.cell name).revision
  passes := s.passes name

variable (a : Request)

def held : Option Bool :=
  match a.draft with
  | .vm _ => (s.vms.cell a.name).map fun v => (v.val.bind HeldVm.deletionTimestamp).isSome
  | .volume _ _ =>
    (s.volumes.cell a.name).map fun v => (v.val.bind HeldVolume.deletionTimestamp).isSome

def stands (rev : Nat) : Bool :=
  match a.draft with
  | .vm _ => (s.vms.cell a.name).standsAt rev
  | .volume _ _ => (s.volumes.cell a.name).standsAt rev

def put : State :=
  match a.draft with
  | .vm body => { s with next := s.next + 1, vms := s.vms.put a.name s.next (some body) }
  | .volume body _ =>
    { s with next := s.next + 1, volumes := s.volumes.put a.name s.next (some body) }

variable (fence : Fence)

def pass : State :=
  { s.put a with
    fences := s.fences.put fence.key s.next a.mark
    passed := fence.key :: s.passed }

def unmoved : Bool :=
  (s.fences.cell fence.key).revision = fence.revision

def createFenced : Fenced × State :=
  if (s.held a).isNone && s.unmoved fence then (.written, s.pass a fence)
  else
    match s.held a with
    | some true => (.terminating, s)
    | some false => (.alreadyExists, s)
    | none => (.moved, s)

def updateFenced (rev : Nat) (fence : Fence) : Fenced × State :=
  if s.stands a rev && s.unmoved fence then (.written, s.pass a fence)
  else if s.stands a rev then (.moved, s)
  else (.conflict, s)

def writeUnder : Fenced × State :=
  match a.resourceVersion with
  | none => s.createFenced a fence
  | some rev => s.updateFenced a rev fence

def update : State :=
  match a.resourceVersion with
  | none => s
  | some rev => if s.stands a rev then s.put a else s

def checkUsage (quota : TenantQuota) (tenant : String) (adding : Capacity)
    (except : Option String) : Except ApiError Unit :=
  let vms := Quota.decoded s.vms
  if vms.length ≠ s.vms.list.length then
    .error (.conflict ("cannot tell how much this tenant is holding (some vm objects did not " ++
      "decode); refusing to let it grow"))
  else
    let after := (Quota.Usage.of tenant vms except).plus adding
    (Quota.check quota tenant after).mapError .invalid

def checkStorage (pool : StoragePool) (tenant : String) (gib : Sat u64Max)
    (except : Option String) : Except ApiError Unit :=
  let volumes := Quota.decoded s.volumes
  if volumes.length ≠ s.volumes.list.length then
    .error (.conflict ("some volume objects did not decode, so how much storage is held " ++
      "cannot be established; refusing rather than handing out room twice"))
  else
    let held := Quota.StorageUsage.of tenant pool.name volumes except
    (Quota.checkStorage pool tenant (held.plus gib)).mapError .conflict

end State

def admissionRounds : Nat := 8

structure Round where
  request : Request
  left : Nat
  tenant : String
  fence : Fence

inductive Task where
  | admitting (a : Request) (left : Nat)
  -- the fence was read
  | judge (r : Round)
  -- the tenant was read, and it has limits
  | count (r : Round) (quota : TenantQuota)
  -- admitted; `judged` is the quota a VM was judged by
  | write (r : Round) (judged : Option TenantQuota)
  -- a write that passes no fence
  | update (a : Request)

inductive Event where
  | createVm (name tenant : String) (vm : AgentSpec) (dry : Bool)
  | updateVm (name : String) (vm : AgentSpec) (resourceVersion : Nat) (dry : Bool)
  | createVolume (name tenant : String) (pool : StoragePool) (sizeGib : Sat u64Max) (dry : Bool)
  | updateVolume (name : String) (pool : StoragePool) (sizeGib : Sat u64Max)
      (resourceVersion : Nat) (dry : Bool)
  -- `create_tenant`, `update_tenant` and the write that puts a tenant back
  | putTenant (name : String) (quota : TenantQuota)
  | deleteTenant (name : String)
  -- the deletion mark and the writes of the reconcilers: owner and size stay
  | rewriteVm (name : String) (deletionTimestamp : Option Instant)
  | removeVm (name : String)
  | rewriteVolume (name : String) (deletionTimestamp : Option Instant)
  | removeVolume (name : String)

def stored {α : Type*} (t : Table String (Option α)) (name : String) : Option α :=
  (t.cell name).bind Versioned.val

variable (s : State)

def env : Event → Option (State × List Task)
  | .createVm name tenant vm dry =>
    if (s.tenants.cell tenant).isSome then
      some (s, [.admitting ⟨name, .vm ⟨some tenant, vm, none⟩, none, dry⟩ admissionRounds])
    else none
  | .updateVm name vm rev dry => do
      -- the tenant is immutable and the deletion mark is the server's
      let current ← stored s.vms name
      return (s, [.admitting ⟨name, .vm { current with vm := vm }, some rev, dry⟩ admissionRounds])
  | .createVolume name tenant pool sizeGib dry =>
    if (s.tenants.cell tenant).isSome ∧ 0 < sizeGib.val then
      let body : HeldVolume := ⟨tenant, pool.name, sizeGib, none⟩
      some (s, [.admitting ⟨name, .volume body pool, none, dry⟩ admissionRounds])
    else none
  | .updateVolume name pool sizeGib rev dry => do
      let current ← stored s.volumes name
      let a : Request :=
        ⟨name, .volume { current with sizeGib := sizeGib } pool, some rev, dry⟩
      if sizeGib.val < current.sizeGib.val then none
      else if sizeGib.val ≤ current.sizeGib.val then
        return (s, if dry then [] else [.update a])
      else if pool.name = current.pool then return (s, [.admitting a admissionRounds])
      else none
  | .putTenant name quota =>
    some ({ s with next := s.next + 1, tenants := s.tenants.put name s.next quota }, [])
  | .deleteTenant name =>
    some ({ s with next := s.next + 1, tenants := s.tenants.remove name }, [])
  | .rewriteVm name mark => do
      let current ← stored s.vms name
      let body := { current with deletionTimestamp := mark }
      return ({ s with next := s.next + 1, vms := s.vms.put name s.next (some body) }, [])
  | .removeVm name =>
    some ({ s with next := s.next + 1, vms := s.vms.remove name }, [])
  | .rewriteVolume name mark => do
      let current ← stored s.volumes name
      let body := { current with deletionTimestamp := mark }
      return ({ s with next := s.next + 1, volumes := s.volumes.put name s.next (some body) }, [])
  | .removeVolume name =>
    some ({ s with next := s.next + 1, volumes := s.volumes.remove name }, [])

def judge (r : Round) : List Task :=
  match r.request.draft with
  | .vm _ =>
    match s.tenants.cell r.tenant with
    | none => []
    | some tenant =>
      if tenant.val.isUnset then [.write r (some tenant.val)] else [.count r tenant.val]
  | .volume body pool =>
    match s.checkStorage pool r.tenant body.sizeGib r.request.except with
    | .ok () => [.write r none]
    | .error _ => []

def count (r : Round) (quota : TenantQuota) : List Task :=
  match r.request.draft with
  | .vm body =>
    match s.checkUsage quota r.tenant (Capacity.wantedBySpec body.vm) r.request.except with
    | .ok () => [.write r (some quota)]
    | .error _ => []
  | .volume _ _ => []

def write (r : Round) : State × List Task :=
  if r.request.dry then (s, [])
  else
    let (answer, s') := s.writeUnder r.request r.fence
    (s', if answer = .moved then [.admitting r.request r.left] else [])

def admitting (a : Request) : Nat → List Task
  -- "tenant ... is being changed by 8 other requests at once; try again"
  | 0 => []
  | left + 1 =>
    match a.tenant with
    | some tenant => [.judge ⟨a, left, tenant, s.fence (Quota.fence tenant)⟩]
    -- a VM without a tenant has no ceiling and no fence
    | none => if a.dry then [] else [.update a]

def task : Task → Unit → Option (State × List Task)
  | .admitting a left, _ => some (s, admitting s a left)
  | .judge r, _ => some (s, judge s r)
  | .count r quota, _ => some (s, count s r quota)
  | .write r _, _ => some (write s r)
  | .update a, _ => some (s.update a, [])

def program : Program State Task Event Unit := ⟨env, task⟩

end MeisterStack.CloudController.Admission
