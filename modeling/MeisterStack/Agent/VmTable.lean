import MeisterStack.Foundation.Inventory
import MeisterStack.Foundation.Json
import MeisterStack.Foundation.Uuid
import MeisterStack.Agent.Tombstones
import Mathlib.Data.List.Dedup
import Mathlib.Data.List.Sort

/-!
# Rows that cannot be read

The VM table of the agent's store, and the decisions made from it. A row is a text and some bytes;
either may fail to decode. `list` leaves such rows out, `rows` keeps them as unreadable, and some
callers decode the raw rows.
-/

namespace MeisterStack.Agent.VmTable

open Foundation List Uuid Provision
open Inventory
open Provision (VolumeId VmRow Holder VolumeNode Resources)

abbrev VmId := Uuid

abbrev DeviceId := Uuid

inductive PartitionSpec where
  | exclusive
  | mediated
  deriving DecidableEq

structure DeviceSpec where
  driver : String
  partition : PartitionSpec
  profile : Option String
  params : Option Json
  deriving DecidableEq

structure DeviceWithId where
  id : DeviceId
  spec : DeviceSpec
  deriving DecidableEq

structure VmRecord where
  resources : Resources
  vxlanIds : List (Option Nat)
  devices : List DeviceWithId
  deriving DecidableEq

structure Store (Bytes : Type) where
  decode : Bytes → Option VmRecord
  vms : Option (List (String × Bytes))

variable {Bytes : Type}

def readRow (decode : Bytes → Option VmRecord) (row : String × Bytes) : Option (VmId × VmRecord) :=
  (parse row.1).bind fun id => (decode row.2).map (id, ·)

namespace Store

variable (s : Store Bytes)

def listRaw : Option (List (String × Bytes)) := s.vms

def getRaw (id : VmId) : Option (Option Bytes) :=
  s.vms.map fun rows => (rows.find? fun row => row.1 = toString id).map (·.2)

def get (id : VmId) : Option (Option VmRecord) := (s.getRaw id).map (·.bind s.decode)

def list : Option (List (VmId × VmRecord)) := s.vms.map (·.filterMap (readRow s.decode))

def row (id : VmId) : Option (Option VmRow) :=
  (s.getRaw id).map (·.map fun bytes =>
    match s.decode bytes with
    | some record => .record (toString id) record.resources
    | none => .unreadable (toString id))

def rows : Option (List VmRow) :=
  s.listRaw.map (·.map fun row =>
    match readRow s.decode row with
    | some (id, record) => .record (toString id) record.resources
    | none => .unreadable row.1)

end Store

structure ClaimedDevice where
  vm : VmId
  id : DeviceId
  spec : DeviceSpec

structure PciAddress where
  domain : Nat
  bus : Nat
  device : Nat
  function : Nat
  deriving DecidableEq

namespace PciAddress

def part (bound : Nat) (text : List Char) : Option Nat :=
  let digits := match text with
    | '+' :: rest => rest
    | _ => text
  if digits = [] then none
  else ((digits.mapM Text.hexDigit).map (·.foldl (fun n d => 16 * n + d) 0)).filter (· < bound)

def ofParts (domain bus device function : List Char) : Option PciAddress := do
  pure ⟨← part 0x10000 domain, ← part 0x100 bus, ← part 0x20 device, ← part 8 function⟩

def parse (text : String) : Option PciAddress := do
  let (function, front) ← Text.splitOnce '.' text.toList.reverse
  match front.reverse.splitOn ':' with
  | [bus, device] => ofParts ['0'] bus device function.reverse
  | [domain, bus, device] => ofParts domain bus device function.reverse
  | _ => none

end PciAddress

inductive DeviceError where
  | invalidSpec (device : DeviceId)
  | requestedTwice (address : PciAddress) (first second : DeviceId)
  | assigned (address : PciAddress) (vm : VmId)
  deriving DecidableEq

abbrev Admit := List (DeviceId × DeviceSpec) → List ClaimedDevice → Except DeviceError Unit

namespace Vfio

def requestedAddress (spec : DeviceSpec) : Option PciAddress :=
  match spec.params with
  | some (.obj [("pci_address", .str text)]) => PciAddress.parse text
  | some (.arr [.str text]) => PciAddress.parse text
  | _ => none

def wantedAddresses (wanted : List (PciAddress × DeviceId)) :
    List (DeviceId × DeviceSpec) → Except DeviceError (List (PciAddress × DeviceId))
  | [] => .ok wanted
  | (id, spec) :: rest =>
    match requestedAddress spec with
    | none => .error (.invalidSpec id)
    | some address =>
      match wanted.find? fun w => w.1 = address with
      | some (_, first) => .error (.requestedTwice address first id)
      | none => wantedAddresses (wanted ++ [(address, id)]) rest

def heldAddress (wanted : List (PciAddress × DeviceId)) (held : ClaimedDevice) :
    Option (PciAddress × VmId) :=
  ((requestedAddress held.spec).filter fun address => wanted.any fun w => w.1 = address).map
    (·, held.vm)

def admits : Admit := fun requested claimed => do
  let wanted ← wantedAddresses [] requested
  match claimed.findSome? (heldAddress wanted) with
  | some (address, vm) => .error (.assigned address vm)
  | none => .ok ()

end Vfio

abbrev DeviceDrivers := String → Option Admit

inductive AdmissionError where
  | unread
  | refused (driver : String) (error : DeviceError)
  deriving DecidableEq

def admitBy (drivers : DeviceDrivers) (requested : List DeviceWithId)
    (claimed : List ClaimedDevice) (name : String) : Except AdmissionError Unit :=
  match drivers name with
  | none => .ok ()
  | some admits =>
    (admits ((requested.filter fun d => d.spec.driver = name).map fun d => (d.id, d.spec))
      (claimed.filter fun d => d.spec.driver = name)).mapError (.refused name)

namespace Store

variable (s : Store Bytes)

def claimedDevices (id : VmId) : Option (List ClaimedDevice) :=
  s.list.map fun vms => (vms.filter fun vm => vm.1 ≠ id).flatMap fun vm =>
    vm.2.devices.map fun d => ⟨vm.1, d.id, d.spec⟩

def checkDeviceAdmission (drivers : DeviceDrivers) (id : VmId) (devices : List DeviceWithId) :
    Except AdmissionError Unit :=
  if devices = [] then .ok ()
  else
    match s.claimedDevices id with
    | none => .error .unread
    | some claimed => (devices.map (·.spec.driver)).eraseDups.forM (admitBy drivers devices claimed)

end Store

inductive ProvisionError where
  | unread
  | unreadable (key : String)
  | admission (error : AdmissionError)
  deriving DecidableEq

inductive ProvisionStart where
  | inPlace (record : VmRecord)
  | build
  deriving DecidableEq

def Store.provision (s : Store Bytes) (drivers : DeviceDrivers) (id : VmId)
    (devices : List DeviceWithId) : Except ProvisionError ProvisionStart :=
  match s.row id, s.get id with
  | some (some (.unreadable key)), _ => .error (.unreadable key)
  | some _, some (some record) => .ok (.inPlace record)
  | some _, some none =>
    (s.checkDeviceAdmission drivers id devices).mapError .admission |>.map fun _ => .build
  | _, _ => .error .unread

namespace Store

variable (s : Store Bytes) (v : VolumeId)

def holder : Option (Option Holder) := s.rows.map (·.findSome? (VmRow.holder v))

def released : Prop := s.holder v = some none

def openHere : Option (List VolumeId) :=
  s.list.map fun vms => vms.flatMap fun vm =>
    (vm.2.resources.volumes.filter fun v => !v.detached).map (·.id)

def isOpen : Bool := (s.openHere.getD []).contains v

def report (now : Nat) (volumes : List (VolumeId × Tombstones.VolumeRecord)) :
    List (VolumeId × Tombstones.VolumeStateReport) :=
  (volumes.filter fun v => !v.2.expired now).map fun v => (v.1, v.2.line (s.isOpen v.1))

end Store

def sorted (vnis : List Nat) : List Nat := (vnis.insertionSort (· ≤ ·)).dedup

def overlayVnis (record : VmRecord) : List Nat := sorted (record.vxlanIds.filterMap id)

def usesOverlay (decode : Bytes → Option VmRecord) (vni : Nat) (except : VmId)
    (row : String × Bytes) : Bool :=
  parse row.1 ≠ some except && (decode row.2).all fun record => vni ∈ overlayVnis record

namespace Store

variable (s : Store Bytes)

def overlayUsers (vni : Nat) (except : VmId) : Option Nat :=
  s.listRaw.map (·.countP (usesOverlay s.decode vni except))

def destroyedOverlays (id : VmId) (record : VmRecord) (tapsGone : Bool) : List Nat :=
  (overlayVnis record).filter fun vni => tapsGone && s.overlayUsers vni id = some 0

def keptOverlays : Option (List Nat) :=
  s.listRaw.bind fun rows =>
    (rows.mapM fun row => s.decode row.2).map fun records => sorted (records.flatMap overlayVnis)

def sweptOverlays (present : List Nat) : List Nat :=
  match s.keptOverlays with
  | some keep => present.filter (· ∉ keep)
  | none => []

end Store

structure Hypervisor where
  files : List String
  probe : VmId → Bool

def socketOf (file : String) : Option VmId :=
  (file.toList.reverse.dropPrefix? ".sock".toList.reverse).bind fun stem =>
    read stem.reverse

def Hypervisor.strays (hv : Hypervisor) (known : List VmId) : List VmId :=
  ((hv.files.filterMap socketOf).filter fun id => id ∉ known).filter hv.probe

def strayGrace : Nat := 600

abbrev Strays := List (VmId × Nat)

def Strays.seen (held : Strays) (found : List VmId) (now : Nat) : Strays :=
  let held := held.filter fun stray => stray.1 ∈ found
  held ++ (found.filter fun id => !held.any fun stray => stray.1 = id).eraseDups.map (·, now)

def Strays.overdue (held : Strays) (now : Nat) : List VmId :=
  (held.filter fun stray => strayGrace ≤ now - stray.2).map (·.1)

namespace Store

variable (s : Store Bytes)

def known : Option (List VmId) := s.listRaw.map (·.filterMap fun row => parse row.1)

def sweepUnmanagedVmms (hv : Hypervisor) (ends : VmId → Bool) (held : Strays) (now : Nat) :
    Strays × List VmId :=
  match s.known with
  | none => (held, [])
  | some known =>
    let held := held.seen (hv.strays known) now
    let overdue := held.overdue now
    (held.filter fun stray => !(stray.1 ∈ overdue && ends stray.1), overdue)

end Store

structure MayBe (decode : Bytes → Option VmRecord) (row row' : String × Bytes) : Prop where
  readable : (readRow decode row').isSome
  key : ∀ id, parse row.1 = some id → parse row'.1 = some id
  value : ∀ record, decode row.2 = some record → decode row'.2 = some record

variable {decode : Bytes → Option VmRecord} {row row' : String × Bytes} {id : VmId}

theorem readRow_eq_some {record} :
    readRow decode row = some (id, record) ↔
      parse row.1 = some id ∧ decode row.2 = some record := by
  simp [readRow, Option.bind_eq_some_iff]

theorem MayBe.readRow (h : MayBe decode row row') (hread : (readRow decode row).isSome) :
    VmTable.readRow decode row' = VmTable.readRow decode row := by
  obtain ⟨⟨id, record⟩, hrow⟩ := Option.isSome_iff_exists.mp hread
  rw [hrow]
  obtain ⟨hkey, hvalue⟩ := readRow_eq_some.mp hrow
  exact readRow_eq_some.mpr ⟨h.key id hkey, h.value record hvalue⟩

namespace Store

variable (rows : List (String × Bytes))

def lets (decode : Bytes → Option VmRecord) (v : VolumeId) (row : String × Bytes) : Prop :=
  ∃ vm, readRow decode row = some vm ∧
    VmRow.holder v (.record (toString vm.1) vm.2.resources) = none

theorem released_iff {v} :
    (Store.mk decode (some rows)).released v ↔ ∀ row ∈ rows, lets decode v row := by
  simp only [released, holder, Store.rows, listRaw, Option.map_some, Option.some.injEq,
    findSome?_eq_none_iff, forall_mem_map]
  refine forall₂_congr fun row _ => ?_
  cases hrow : readRow decode row with
  | none => simp [lets, hrow, VmRow.holder]
  | some => simp [lets, hrow]

theorem released_failsClosed (v) :
    FailsClosed (MayBe decode) fun rows => (Store.mk decode (some rows)).released v := by
  refine (failsClosed_all fun row row' h hlets => ?_).congr fun rows => released_iff rows
  obtain ⟨vm, hread, hholder⟩ := hlets
  exact ⟨vm, (h.readRow (by simp [hread])).trans hread, hholder⟩

def ShownBy (s : Store Bytes) (n : VolumeNode) : Prop :=
  ∃ rows, s.rows = some rows ∧ n.rows.Perm rows

theorem ShownBy.holder {s : Store Bytes} {n} (h : s.ShownBy n) {v}
    (hreleased : ¬s.released v) : ∃ holder, n.holder v = some holder := by
  obtain ⟨rows, hrows, hperm⟩ := h
  rw [← Option.ne_none_iff_exists']
  intro hnone
  refine hreleased ?_
  simp only [VolumeNode.holder, findSome?_eq_none_iff] at hnone
  simp only [released, Store.holder, hrows, Option.map_some, Option.some.injEq,
    findSome?_eq_none_iff]
  exact fun row hrow => hnone row (hperm.mem_iff.mpr hrow)

theorem not_released (v) (h : ∃ row ∈ rows, readRow decode row = none) :
    ¬(Store.mk decode (some rows)).released v := by
  obtain ⟨row, hrow, hnone⟩ := h
  rw [released_iff]
  intro hlets
  obtain ⟨vm, hread, -⟩ := hlets row hrow
  simp [hnone] at hread

end Store

theorem mem_sorted {vni vnis} : vni ∈ sorted vnis ↔ vni ∈ vnis := by
  rw [sorted, mem_dedup, mem_insertionSort]

theorem usesOverlay_mayBe {vni} (h : MayBe decode row row')
    (huses : usesOverlay decode vni id row = false) : usesOverlay decode vni id row' = false := by
  simp only [usesOverlay, Bool.and_eq_false_iff, decide_eq_false_iff_not, ne_eq, not_not,
    Option.all_eq_false] at huses ⊢
  rcases huses with hown | ⟨other, hvalue, hnames⟩
  · exact .inl (h.key id hown)
  · exact .inr ⟨other, h.value other hvalue, hnames⟩

namespace Store

variable (rows : List (String × Bytes)) {vni : Nat}

theorem overlayUsers_eq_zero {id} :
    (Store.mk decode (some rows)).overlayUsers vni id = some 0 ↔
      ∀ row ∈ rows, usesOverlay decode vni id row = false := by
  simp [overlayUsers, listRaw, countP_eq_zero]

theorem destroyedOverlays_failsClosed (id record tapsGone vni) :
    FailsClosed (MayBe decode) fun rows =>
      vni ∈ (Store.mk decode (some rows)).destroyedOverlays id record tapsGone := by
  have hclear : FailsClosed (MayBe decode) fun rows =>
      ∀ row ∈ rows, usesOverlay decode vni id row = false :=
    failsClosed_all fun _ _ => usesOverlay_mayBe
  intro rows truth hmay hmem
  simp only [destroyedOverlays, mem_filter, Bool.and_eq_true, decide_eq_true_eq,
    overlayUsers_eq_zero] at hmem ⊢
  exact ⟨hmem.1, hmem.2.1, hclear rows truth hmay hmem.2.2⟩

theorem decodes_without :
    (∃ records, (rows.mapM fun row => decode row.2) = some records ∧
      vni ∉ records.flatMap overlayVnis) ↔
      ∀ row ∈ rows, ∃ record, decode row.2 = some record ∧ vni ∉ overlayVnis record := by
  induction rows with
  | nil => simp
  | cons row rows ih =>
    rw [forall_mem_cons, ← ih]
    constructor
    · rintro ⟨records, hread, hvni⟩
      obtain ⟨record, hrow, rest, hrest, rfl⟩ : ∃ record, decode row.2 = some record ∧
          ∃ rest, rows.mapM (fun row => decode row.2) = some rest ∧ record :: rest = records := by
        simpa [mapM_cons, Option.bind_eq_some_iff] using hread
      rw [flatMap_cons, mem_append, not_or] at hvni
      exact ⟨⟨record, hrow, hvni.1⟩, rest, hrest, hvni.2⟩
    · rintro ⟨⟨record, hrow, hvni⟩, rest, hrest, hothers⟩
      refine ⟨record :: rest, by simp [mapM_cons, hrow, hrest], ?_⟩
      rw [flatMap_cons, mem_append, not_or]
      exact ⟨hvni, hothers⟩

theorem mem_sweptOverlays {present} :
    vni ∈ (Store.mk decode (some rows)).sweptOverlays present ↔
      vni ∈ present ∧ ∀ row ∈ rows, ∃ record, decode row.2 = some record ∧
        vni ∉ overlayVnis record := by
  rw [← decodes_without]
  simp only [sweptOverlays, keptOverlays, listRaw, Option.bind_some]
  cases hread : rows.mapM fun row => decode row.2 with
  | none => simp
  | some => simp [mem_sorted]

theorem sweptOverlays_failsClosed (present vni) :
    FailsClosed (MayBe decode) fun rows =>
      vni ∈ (Store.mk decode (some rows)).sweptOverlays present := by
  have hclear : FailsClosed (MayBe decode) fun rows =>
      ∀ row ∈ rows, ∃ record, decode row.2 = some record ∧ vni ∉ overlayVnis record :=
    failsClosed_all fun row row' h ⟨record, hread, hvni⟩ => ⟨record, h.value record hread, hvni⟩
  intro rows truth hmay hmem
  rw [mem_sweptOverlays] at hmem ⊢
  exact ⟨hmem.1, hclear rows truth hmay hmem.2⟩

end Store

theorem Strays.overdue_subset {held : Strays} {found now}
    (h : id ∈ (held.seen found now).overdue now) : id ∈ found := by
  simp only [overdue, seen, mem_map, mem_filter, mem_append, mem_eraseDups,
    decide_eq_true_eq] at h
  obtain ⟨stray, ⟨⟨-, hfound⟩ | ⟨other, ⟨hother, -⟩, rfl⟩, -⟩, rfl⟩ := h
  · exact hfound
  · exact hother

theorem Hypervisor.not_mem_strays {hv : Hypervisor} {known} (h : id ∈ known) :
    id ∉ hv.strays known := by
  simp [strays, h]

namespace Store

variable (rows : List (String × Bytes))

theorem row_not_ended {id} (hrow : row ∈ rows) (hid : parse row.1 = some id) (hv : Hypervisor)
    (ends : VmId → Bool) (held now) :
    id ∉ ((Store.mk decode (some rows)).sweepUnmanagedVmms hv ends held now).2 := by
  intro hended
  have hknown : id ∈ rows.filterMap fun row => parse row.1 :=
    mem_filterMap.mpr ⟨row, hrow, hid⟩
  exact Hypervisor.not_mem_strays hknown (Strays.overdue_subset hended)

theorem provision_unreadable {s : Store Bytes} {id bytes} (drivers devices)
    (hrow : s.getRaw id = some (some bytes)) (hbytes : s.decode bytes = none) :
    s.provision drivers id devices = .error (.unreadable (toString id)) := by
  simp [provision, Store.row, hrow, hbytes]

end Store

/-- Rows that cannot be read keep what they may name: no volume is deleted or forgotten, no
overlay is removed and no VMM ended that one of the rows they may be would keep, as far as the
parts that can be read stay, and no VM is built over its own record. -/
theorem unreadable_rows_fail_closed (decode : Bytes → Option VmRecord) :
    (∀ v, FailsClosed (MayBe decode) fun rows => (Store.mk decode (some rows)).released v) ∧
    (∀ rows n, (∃ row ∈ rows, readRow decode row = none) →
      (Store.mk decode (some rows)).ShownBy n → ∀ v answers, ∃ holder,
        deprovision v n answers = (some (.error holder), n, answers) ∧
        forget v n answers = (some (.error holder), n, answers)) ∧
    (∀ id record tapsGone vni, FailsClosed (MayBe decode) fun rows =>
      vni ∈ (Store.mk decode (some rows)).destroyedOverlays id record tapsGone) ∧
    (∀ present vni, FailsClosed (MayBe decode) fun rows =>
      vni ∈ (Store.mk decode (some rows)).sweptOverlays present) ∧
    (∀ rows row id, row ∈ rows → parse row.1 = some id → ∀ hv ends held now,
      id ∉ ((Store.mk decode (some rows)).sweepUnmanagedVmms hv ends held now).2) ∧
    ∀ rows id bytes, (Store.mk decode (some rows)).getRaw id = some (some bytes) →
      decode bytes = none → ∀ drivers devices,
        (Store.mk decode (some rows)).provision drivers id devices =
          .error (.unreadable (toString id)) := by
  refine ⟨Store.released_failsClosed, fun rows n hunread hshown v answers => ?_,
    Store.destroyedOverlays_failsClosed, Store.sweptOverlays_failsClosed,
    fun rows row id hrow hid => Store.row_not_ended rows hrow hid,
    fun rows id bytes hrow hbytes drivers devices =>
      Store.provision_unreadable drivers devices hrow hbytes⟩
  obtain ⟨holder, hholder⟩ := hshown.holder (Store.not_released rows v hunread)
  refine ⟨holder, ?_, ?_⟩
  · simp [deprovision, bind, Procedure.current, hholder, pure]
  · simp [forget, bind, Procedure.current, hholder, pure]

private def guest : VmId := ⟨replicate 32 ⟨1, by decide⟩, rfl⟩

private def passthrough : DeviceWithId :=
  ⟨⟨replicate 32 ⟨2, by decide⟩, rfl⟩, ⟨"vfio", .exclusive, none,
    some (.obj [("pci_address", .str "0000:23:00.0")])⟩⟩

private def guestRecord : VmRecord :=
  ⟨⟨⟨[⟨"data", true⟩], [], []⟩, [⟨"data", false⟩], [], [], [], false⟩, [some 7], [passthrough]⟩

private def dataRecord : Tombstones.VolumeRecord :=
  ⟨⟨none, 4096, none, none⟩, some ⟨"pool", 4096⟩, .ready, none, none, none⟩

private def newcomer : VmId := ⟨replicate 32 ⟨3, by decide⟩, rfl⟩

private def tableOf (rows : List (String × Option VmRecord)) : Store (Option VmRecord) :=
  ⟨fun bytes => bytes, some rows⟩

private def nodeDrivers : DeviceDrivers :=
  fun name => if name = "vfio" then some Vfio.admits else none

private def guestVmm : Hypervisor := ⟨["11111111-1111-1111-1111-111111111111.sock"], fun _ => true⟩

/-- Nobody deletes a volume beside a record that cannot be read. -/
theorem unreadable_rows_fail_closed_guest : ∃ holder,
    deprovision "data" (.start ["11111111-1111-1111-1111-111111111111"] ∅) [] =
      (some (.error holder), .start ["11111111-1111-1111-1111-111111111111"] ∅, []) := by
  have hclosed := unreadable_rows_fail_closed (fun bytes : Option VmRecord => bytes)
  obtain ⟨holder, hrefused, -⟩ := hclosed.2.1 [(toString guest, none)]
    (.start ["11111111-1111-1111-1111-111111111111"] ∅) ⟨_, .head _, by simp [readRow]⟩
    ⟨_, rfl, by decide⟩ "data" []
  exact ⟨holder, hrefused⟩

/-- Beside a record that cannot be read, a device is admitted and a volume reported as closed
that the record of the VM may hold; and a row whose key cannot be read does not keep its VMM. -/
theorem unreadable_row_counts_as_none :
    (∃ rows truth, Forall₂ (MayBe fun bytes : Option VmRecord => bytes) rows truth ∧
      (tableOf rows).provision nodeDrivers newcomer [passthrough] = .ok .build ∧
      (tableOf truth).provision nodeDrivers newcomer [passthrough] =
        .error (.admission (.refused "vfio" (.assigned ⟨0, 0x23, 0, 0⟩ guest))) ∧
      ((tableOf rows).report 0 [("data", dataRecord)]).map (·.2.isOpen) = [false] ∧
      ((tableOf truth).report 0 [("data", dataRecord)]).map (·.2.isOpen) = [true]) ∧
    ∃ rows truth, Forall₂ (MayBe fun bytes : Option VmRecord => bytes) rows truth ∧
      ((tableOf rows).sweepUnmanagedVmms guestVmm (fun _ => true) [(guest, 0)] 600).2 = [guest] ∧
      ((tableOf truth).sweepUnmanagedVmms guestVmm (fun _ => true) [(guest, 0)] 600).2 = [] := by
  constructor
  · refine ⟨[(toString guest, none)], [(toString guest, some guestRecord)],
      .cons ⟨by decide, fun _ h => h, by simp⟩ .nil, ?_⟩
    decide +kernel
  · refine ⟨[("guest", some guestRecord)], [(toString guest, some guestRecord)],
      .cons ⟨by decide, fun id h => ?_, fun _ h => h⟩ .nil, ?_⟩
    · have hkey : parse "guest" = none := by decide
      simp [hkey] at h
    · decide +kernel

end MeisterStack.Agent.VmTable
