import MeisterStack.ControllerApi.Scheduler

/-!
# What a tenant holds and what it may hold

The VMs and volumes of a tenant are summed with saturating arithmetic and compared with the limits
of its quota, each on its own. Every stored object counts until it is removed.
-/

namespace MeisterStack.ControllerApi

open Foundation Table List Option Sat

structure TenantQuota where
  maxVms : Option (Sat u32Max)
  maxVcpus : Option (Sat u32Max)
  maxMemMib : Option (Sat u64Max)
  deriving DecidableEq

def TenantQuota.isUnset (quota : TenantQuota) : Bool :=
  quota.maxVms.isNone && quota.maxVcpus.isNone && quota.maxMemMib.isNone

structure HeldVm where
  tenant : Option String
  vm : AgentSpec
  deletionTimestamp : Option Instant

structure HeldVolume where
  tenant : String
  pool : String
  sizeGib : Sat u64Max
  deletionTimestamp : Option Instant

structure StoragePool where
  name : String
  quota : List (String × Sat u64Max)

def defaultQuotaStorageGib : Sat u64Max := ⟨100, by decide⟩

namespace StoragePool

def quotaEveryone : String := "*"

def quotaFor (pool : StoragePool) (tenant : String) : Sat u64Max :=
  ((pool.quota.lookup tenant).or (pool.quota.lookup quotaEveryone)).getD
    defaultQuotaStorageGib

end StoragePool

namespace Quota

def fence (tenant : String) : String := "quota/" ++ tenant

theorem fence_injective : Function.Injective fence := by
  intro a b h
  simpa [fence] using h

structure Usage where
  vms : Sat u32Max
  size : Capacity

namespace Usage

def none : Usage := ⟨.zero, .none⟩

def plus (usage : Usage) (size : Capacity) : Usage where
  vms := usage.vms.add ⟨1, by decide⟩
  size := usage.size.plus size

def of (tenant : String) (vms : List (String × HeldVm)) (except : Option String) : Usage :=
  ((vms.filter fun v => v.2.tenant = some tenant).filter fun v => some v.1 != except).foldl
    (fun acc v => acc.plus (Capacity.wantedBySpec v.2.vm)) .none

def AtMost (a b : Usage) : Prop :=
  a.vms.val ≤ b.vms.val ∧ a.size.vcpus.val ≤ b.size.vcpus.val ∧
    a.size.memMib.val ≤ b.size.memMib.val

instance (a b : Usage) : Decidable (a.AtMost b) :=
  inferInstanceAs (Decidable (_ ∧ _ ∧ _))

end Usage

private def overLimit (tenant what : String) (want limit : Nat) : String :=
  s!"tenant {tenant} would hold {want} {what}, and its quota is {limit}"

private def checkLimit (tenant what : String) (want : Nat) : Option Nat → Except String Unit
  | none => .ok ()
  | some limit => if want > limit then .error (overLimit tenant what want limit) else .ok ()

def check (quota : TenantQuota) (tenant : String) (after : Usage) : Except String Unit := do
  checkLimit tenant "vms" after.vms.val (quota.maxVms.map val)
  checkLimit tenant "vcpus" after.size.vcpus.val (quota.maxVcpus.map val)
  checkLimit tenant "MiB of memory" after.size.memMib.val (quota.maxMemMib.map val)

structure StorageUsage where
  volumes : Sat u32Max
  gib : Sat u64Max

namespace StorageUsage

def none : StorageUsage := ⟨.zero, .zero⟩

def plus (usage : StorageUsage) (gib : Sat u64Max) : StorageUsage where
  volumes := usage.volumes.add ⟨1, by decide⟩
  gib := usage.gib.add gib

def of (tenant pool : String) (volumes : List (String × HeldVolume))
    (except : Option String) : StorageUsage :=
  ((volumes.filter fun v => v.2.tenant = tenant && v.2.pool = pool).filter fun v =>
    some v.1 != except).foldl (fun acc v => acc.plus v.2.sizeGib) .none

end StorageUsage

def checkStorage (pool : StoragePool) (tenant : String) (after : StorageUsage) :
    Except String Unit :=
  let limit := (pool.quotaFor tenant).val
  let gib := after.gib.val
  let name := pool.name
  if gib > limit then
    .error <| s!"tenant {tenant} would hold {gib} GiB in storage pool {name}, and its quota " ++
      s!"there is {limit} GiB"
  else .ok ()

inductive Axis where
  | vms | vcpus | memMib

namespace Axis

def max : Axis → Nat
  | .vms | .vcpus => u32Max
  | .memMib => u64Max

def used : Axis → Usage → Nat
  | .vms, usage => usage.vms.val
  | .vcpus, usage => usage.size.vcpus.val
  | .memMib, usage => usage.size.memMib.val

def share : Axis → Capacity → Nat
  | .vms, _ => 1
  | .vcpus, size => size.vcpus.val
  | .memMib, size => size.memMib.val

def limit : Axis → TenantQuota → Option Nat
  | .vms, quota => quota.maxVms.map val
  | .vcpus, quota => quota.maxVcpus.map val
  | .memMib, quota => quota.maxMemMib.map val

variable (x : Axis)

theorem used_le (usage) : x.used usage ≤ x.max := by
  cases x with
  | vms => exact usage.vms.le_max
  | vcpus => exact usage.size.vcpus.le_max
  | memMib => exact usage.size.memMib.le_max

@[simp] theorem used_none : x.used .none = 0 := by
  cases x <;> rfl

@[simp] theorem used_plus (usage size) :
    x.used (usage.plus size) = min (x.used usage + x.share size) x.max := by
  cases x <;> rfl

theorem used_foldl_plus {α : Type*} (f : α → Capacity) (l : List α) (start) :
    x.used (l.foldl (fun acc v => acc.plus (f v)) start) =
      min (x.used start + (l.map fun v => x.share (f v)).sum) x.max := by
  induction l generalizing start with
  | nil => simpa using x.used_le start
  | cons v l ih =>
    simp only [foldl_cons, ih, used_plus, map_cons, sum_cons]
    omega

end Axis

theorem Usage.atMost_iff {a b} : a.AtMost b ↔ ∀ x : Axis, x.used a ≤ x.used b := by
  constructor
  · rintro ⟨hvms, hvcpus, hmem⟩ x
    cases x with
    | vms => exact hvms
    | vcpus => exact hvcpus
    | memMib => exact hmem
  · exact fun h => ⟨h .vms, h .vcpus, h .memMib⟩

variable {tenant : String}

private theorem checkLimit_ok_iff {what want limit} :
    checkLimit tenant what want limit = .ok () ↔ ∀ l, limit = some l → want ≤ l := by
  cases limit with
  | none => simp [checkLimit]
  | some =>
    simp only [checkLimit, some.injEq, forall_eq']
    split <;> simp_all

private theorem bind_ok_iff {e : Except String Unit} {f} :
    e.bind f = .ok () ↔ e = .ok () ∧ f () = .ok () := by
  cases e <;> simp [Except.bind]

variable {quota : TenantQuota}

theorem check_ok_iff {after} :
    check quota tenant after = .ok () ↔
      ∀ (x : Axis) (l : Nat), x.limit quota = some l → x.used after ≤ l := by
  have hsplit : check quota tenant after = .ok () ↔
      (checkLimit tenant "vms" after.vms.val (quota.maxVms.map val) = .ok () ∧
        checkLimit tenant "vcpus" after.size.vcpus.val (quota.maxVcpus.map val) = .ok () ∧
        checkLimit tenant "MiB of memory" after.size.memMib.val
          (quota.maxMemMib.map val) = .ok ()) := by
    simp only [check, bind, bind_ok_iff]
  simp only [hsplit, checkLimit_ok_iff]
  constructor
  · rintro ⟨hvms, hvcpus, hmem⟩ x
    cases x with
    | vms => exact hvms
    | vcpus => exact hvcpus
    | memMib => exact hmem
  · exact fun h => ⟨h .vms, h .vcpus, h .memMib⟩

theorem check_of_atMost {a b} (hle : a.AtMost b) (h : check quota tenant b = .ok ()) :
    check quota tenant a = .ok () := by
  rw [check_ok_iff] at h ⊢
  exact fun x l hl => (Usage.atMost_iff.mp hle x).trans (h x l hl)

theorem check_of_isUnset (hunset : quota.isUnset) (tenant after) :
    check quota tenant after = .ok () := by
  rw [check_ok_iff]
  intro x l hl
  simp only [TenantQuota.isUnset, Bool.and_eq_true, isNone_iff_eq_none] at hunset
  obtain ⟨⟨hvms, hvcpus⟩, hmem⟩ := hunset
  cases x <;> simp [Axis.limit, hvms, hvcpus, hmem] at hl

def lowered (before now : TenantQuota) : Bool :=
  [Axis.vms, .vcpus, .memMib].any fun x =>
    (x.limit now).any fun l => (x.limit before).all fun l0 => l < l0

theorem exists_limit_le {before now} (h : lowered before now = false) {x : Axis} {l}
    (hl : x.limit now = some l) : ∃ l0, x.limit before = some l0 ∧ l0 ≤ l := by
  have hx : ((x.limit now).any fun l => (x.limit before).all fun l0 => l < l0) = false :=
    any_eq_false.mp h x (by cases x <;> simp) |> Bool.eq_false_iff.mpr
  rw [hl, any_some] at hx
  cases hbefore : x.limit before with
  | none => simp [hbefore] at hx
  | some l0 => exact ⟨l0, rfl, by simpa [hbefore] using hx⟩

theorem check_of_not_lowered {before now after} (hquota : lowered before now = false)
    (h : check before tenant after = .ok ()) : check now tenant after = .ok () := by
  rw [check_ok_iff] at h ⊢
  intro x l hl
  obtain ⟨l0, hl0, hle⟩ := exists_limit_le hquota hl
  exact (h x l0 hl0).trans hle

def decoded {α : Type*} (t : Table String (Option α)) : List (String × α) :=
  t.list.filterMap fun e => e.2.val.map fun object => (e.1, object)

namespace Axis

variable (x : Axis)

def counted (tenant : String) (except : Option String) (name : String)
    (v : Versioned (Option HeldVm)) : Nat :=
  match v.val with
  | none => 0
  | some vm =>
    if vm.tenant = some tenant ∧ some name ≠ except then
      x.share (Capacity.wantedBySpec vm.vm)
    else 0

def held (tenant : String) (except : Option String) (vms : Table String (Option HeldVm)) : Nat :=
  vms.total (x.counted tenant except)

theorem used_of (tenant) (except) (vms) :
    x.used (Usage.of tenant (decoded vms) except) = min (x.held tenant except vms) x.max := by
  have hsum : ∀ l : List (String × Versioned (Option HeldVm)),
      ((((l.filterMap fun e => e.2.val.map fun object => (e.1, object)).filter
          fun v => v.2.tenant = some tenant).filter fun v => some v.1 != except).map
        fun v => x.share (Capacity.wantedBySpec v.2.vm)).sum =
      (l.map fun e => x.counted tenant except e.1 e.2).sum := by
    intro l
    induction l with
    | nil => rfl
    | cons e l ih =>
      obtain ⟨name, rev, vm⟩ := e
      cases vm with
      | none => simpa [counted] using ih
      | some vm =>
        by_cases hmine : vm.tenant = some tenant <;>
          by_cases hname : some name = except <;>
          simpa [counted, hmine, hname] using ih
  rw [Usage.of, used_foldl_plus, used_none, Nat.zero_add, decoded, hsum]
  rfl

variable {vms : Table String (Option HeldVm)}

theorem held_put_le {tenant except name rev vm} (h : x.counted tenant except name ⟨rev, vm⟩ ≤
      (vms.cell name).elim 0 (x.counted tenant except name)) :
    x.held tenant except (vms.put name rev vm) ≤ x.held tenant except vms := by
  rw [held, held, total_put, total_split _ vms name]
  omega

theorem held_remove_le (tenant except vms name) :
    x.held tenant except (vms.remove name) ≤ x.held tenant except vms := by
  rw [held, held, total_split _ vms name]
  omega

theorem held_put (tenant vms name rev vm) :
    x.held tenant none (vms.put name rev vm) =
      x.counted tenant none name ⟨rev, vm⟩ + x.held tenant (some name) vms := by
  have hself : (vms.cell name).elim 0 (x.counted tenant (some name) name) = 0 := by
    cases vms.cell name with
    | none => rfl
    | some v => cases hv : v.val <;> simp [counted, hv]
  have hrest : (vms.remove name).total (x.counted tenant none) =
      (vms.remove name).total (x.counted tenant (some name)) := by
    refine total_congr fun k v hk => ?_
    have hne := (cell_of_remove hk).1
    simp [counted, hne]
  rw [held, held, total_put, total_split _ vms name, hself, hrest, Nat.zero_add]

theorem held_of_absent {tenant name} (h : vms.cell name = none) :
    x.held tenant (some name) vms = x.held tenant none vms := by
  refine total_congr fun k v hk => ?_
  have hne : k ≠ name := by
    rintro rfl
    rw [h] at hk
    cases hk
  simp [counted, hne]

end Axis

end Quota

end MeisterStack.ControllerApi
