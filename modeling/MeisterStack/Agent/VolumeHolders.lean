import MeisterStack.Agent.Receipts
import MeisterStack.Agent.ResourceRuns

/-!
# Who holds a volume

The volumes of a node that exist without a VM. Before one is deleted or forgotten, the
VM rows are searched for a holder, under the operations lock. A row that cannot be read
counts as a holder of everything.
-/

namespace MeisterStack.Agent.Provision

open MeisterStack.Foundation Procedure List AList

inductive VolumeRecordPhase where
  | provisioning
  | ready
  | failed
  | gone
  deriving DecidableEq

structure VolumeRecord where
  handle : Bool
  phase : VolumeRecordPhase

inductive VolumeCall where
  | provision (v : VolumeId) (ok : Bool)
  | deprovision (v : VolumeId) (ok : Bool)
  | forget (v : VolumeId) (ok : Bool)
  deriving DecidableEq

structure VolumeNode where
  vms : AList fun _ : VmId => Vm
  unreadable : List String
  volumes : AList fun _ : VolumeId => VolumeRecord
  calls : List VolumeCall

inductive VmRow where
  | record (id : VmId) (r : Resources)
  | unreadable (key : String)
  deriving DecidableEq

inductive Holder where
  | vm (id : VmId)
  | unreadable (key : String)
  deriving DecidableEq

variable (v : VolumeId)

def VmRow.holder : VmRow → Option Holder
  | .record id r =>
    if (r.volumes.any fun h => h.id = v) || v ∈ r.unattached then some (.vm id) else none
  | .unreadable key => some (.unreadable key)

namespace VolumeNode

def start (unreadable : List String) (volumes : AList fun _ : VolumeId => VolumeRecord) :
    VolumeNode := ⟨∅, unreadable, volumes, []⟩

variable (n : VolumeNode)

def rows : List VmRow :=
  (n.vms.entries.filterMap fun e => e.2.stored.map (.record e.1)) ++ n.unreadable.map .unreadable

def holder (v : VolumeId) : Option Holder := n.rows.findSome? (VmRow.holder v)

def vm (id : VmId) : Vm := (n.vms.lookup id).getD .unknown

end VolumeNode

variable (record : VolumeRecord)

def writeVolume : Procedure VolumeNode Unit :=
  change fun n => { n with volumes := n.volumes.insert v record }

def tombstone : Procedure VolumeNode Unit := writeVolume v ⟨false, .gone⟩

def callStorage (c : Bool → VolumeCall) : Procedure VolumeNode Bool := do
  let ok ← ask
  change fun n => { n with calls := n.calls ++ [c ok] }
  pure ok

def provisionData : Procedure VolumeNode Unit := do
  -- the driver, and for a copy its snapshot
  check
  writeVolume v ⟨false, .provisioning⟩
  if ← callStorage (.provision v) then writeVolume v ⟨true, .ready⟩
  else do
    writeVolume v ⟨false, .failed⟩
    fail

def provisionVolume : Procedure VolumeNode Unit := do
  let n ← current
  match n.volumes.lookup v with
  | some ⟨true, _⟩ => writeVolume v ⟨true, .ready⟩
  | _ => provisionData v

def deprovisionData : Procedure VolumeNode Unit := do
  if ← callStorage (.deprovision v) then tombstone v else fail

def deprovisionRecord : VolumeRecord → Procedure VolumeNode Unit
  | ⟨_, .gone⟩ => pure ()
  | ⟨true, _⟩ => do
      check
      deprovisionData v
  | ⟨false, _⟩ => do
      check
      check
      if ← ask then deprovisionData v else tombstone v

def deprovision : Procedure VolumeNode (Except Holder Unit) := do
  let n ← current
  match n.holder v with
  | some holder => pure (.error holder)
  | none => do
      match n.volumes.lookup v with
      | none => tombstone v
      | some record => deprovisionRecord v record
      pure (.ok ())

def letGo : Procedure VolumeNode Bool :=
  if record.handle then callStorage (.forget v) else pure true

def forgetRecord : Procedure VolumeNode Unit := do
  let _ ← letGo v record
  change fun n => { n with volumes := n.volumes.erase v }

def forget : Procedure VolumeNode (Except Holder Unit) := do
  let n ← current
  match n.holder v with
  | some holder => pure (.error holder)
  | none => do
      match n.volumes.lookup v with
      | none => pure ()
      | some record => forgetRecord v record
      pure (.ok ())

inductive VolumeEvent where
  | vm (id : VmId) (op : Op) (answers : List Bool)
  | provision (v : VolumeId) (answers : List Bool)
  | deprovision (v : VolumeId) (answers : List Bool)
  | forget (v : VolumeId) (answers : List Bool)

variable (n : VolumeNode)

def VolumeNode.step : VolumeEvent → VolumeNode
  | .vm id op answers => { n with vms := n.vms.insert id ((n.vm id).after op answers) }
  | .provision v answers => (provisionVolume v).final n answers
  | .deprovision v answers => (Provision.deprovision v).final n answers
  | .forget v answers => (Provision.forget v).final n answers

def volumeNode : Machine VolumeNode VolumeEvent := ⟨fun n e => some (n.step e)⟩

def Item.isAttachment : Item → Bool
  | .attachment _ => true
  | _ => false

namespace VolumeNode

theorem holder_of_attached {n : VolumeNode} {id} {vm} {r} {v}
    (hvm : n.vms.lookup id = some vm) (hr : vm.stored = some r) (hv : .attachment v ∈ r.items) :
    ∃ holder, n.holder v = some holder := by
  refine Option.isSome_iff_exists.mp (findSome?_isSome_iff.mpr ⟨.record id r, ?_, ?_⟩)
  · refine mem_append_left _ (mem_filterMap.mpr ⟨⟨id, vm⟩, ?_, by simp [hr]⟩)
    exact mem_lookup_iff.mp hvm
  · obtain ⟨x, hx, -, rfl⟩ := mem_items_attachment.mp hv
    have hlisted : (r.volumes.any fun h => h.id = x.id) :=
      any_eq_true.mpr ⟨x, hx, by simp⟩
    simp [VmRow.holder, hlisted]

def Covered : Prop :=
  ∀ id vm, n.vms.lookup id = some vm → vm.Covered Item.isAttachment

theorem Covered.vm {n : VolumeNode} (h : n.Covered) (id) : (n.vm id).Covered Item.isAttachment := by
  unfold VolumeNode.vm
  cases hvm : n.vms.lookup id with
  | none => exact fun i _ hi => by cases hi
  | some vm => exact h id vm hvm

end VolumeNode

def KeepsVms (n n' : VolumeNode) : Prop := n'.vms = n.vms

instance : Std.Refl KeepsVms := ⟨fun _ => rfl⟩

instance : IsTrans VolumeNode KeepsVms := ⟨fun _ _ _ h12 h23 => Eq.trans h23 h12⟩

section KeepsVms

variable (v : VolumeId)

theorem keepsVms_writeVolume (record) : Keeps KeepsVms (writeVolume v record) :=
  keeps_change fun _ => rfl

theorem keepsVms_callStorage (c : Bool → VolumeCall) : Keeps KeepsVms (callStorage c) :=
  keeps_bind keeps_ask fun ok => keeps_bind (keeps_change fun _ => rfl) fun _ => keeps_pure ok

theorem keepsVms_provisionVolume : Keeps KeepsVms (provisionVolume v) := by
  refine keeps_bind keeps_current fun n => ?_
  split
  · exact keepsVms_writeVolume v _
  · refine keeps_bind keeps_check fun _ => keeps_bind (keepsVms_writeVolume v _) fun _ =>
      keeps_bind (keepsVms_callStorage _) fun ok => ?_
    cases ok
    · exact keeps_bind (keepsVms_writeVolume v _) fun _ => keeps_fail
    · exact keepsVms_writeVolume v _

theorem keepsVms_deprovisionData : Keeps KeepsVms (deprovisionData v) :=
  keeps_asked (keepsVms_callStorage _) keeps_fail (keepsVms_writeVolume v _)

theorem keepsVms_deprovisionRecord (record) : Keeps KeepsVms (deprovisionRecord v record) := by
  unfold deprovisionRecord
  split
  · exact keeps_pure ()
  · exact keeps_bind keeps_check fun _ => keepsVms_deprovisionData v
  · refine keeps_bind keeps_check fun _ => keeps_bind keeps_check fun _ =>
      keeps_bind keeps_ask fun found => ?_
    cases found
    · exact keepsVms_writeVolume v _
    · exact keepsVms_deprovisionData v

theorem keepsVms_deprovision : Keeps KeepsVms (deprovision v) := by
  refine keeps_bind keeps_current fun n => ?_
  split
  · exact keeps_pure _
  · split
    · exact keeps_bind (keepsVms_writeVolume v _) fun _ => keeps_pure _
    · exact keeps_bind (keepsVms_deprovisionRecord v _) fun _ => keeps_pure _

theorem keepsVms_forgetRecord (record) : Keeps KeepsVms (forgetRecord v record) := by
  unfold forgetRecord
  refine keeps_bind ?_ fun _ => keeps_change fun _ => rfl
  unfold letGo
  split
  · exact keepsVms_callStorage _
  · exact keeps_pure _

theorem keepsVms_forget : Keeps KeepsVms (forget v) := by
  refine keeps_bind keeps_current fun n => ?_
  split
  · exact keeps_pure _
  · split
    · exact keeps_bind (keeps_pure ()) fun _ => keeps_pure _
    · exact keeps_bind (keepsVms_forgetRecord v _) fun _ => keeps_pure _

end KeepsVms

def attachmentsListed : VolumeEvent → Prop
  | .vm id op answers => op.Meets Item.isAttachment (n.vm id) answers
  | _ => True

instance (n e) : Decidable (attachmentsListed n e) := by
  cases e <;> dsimp only [attachmentsListed] <;> infer_instance

theorem VolumeNode.Covered.step {n} (h : n.Covered) {e} (hm : attachmentsListed n e) :
    (n.step e).Covered := by
  have hkept : ∀ {n' : VolumeNode}, KeepsVms n n' → n'.Covered :=
    fun hvms id vm hvm => h id vm (hvms ▸ hvm)
  cases e with
  | vm id =>
    intro id' vm' hvm'
    by_cases hid : id' = id
    · subst hid
      cases (lookup_insert n.vms).symm.trans hvm'
      exact (h.vm id').after hm
    · exact h id' vm' ((lookup_insert_ne hid).symm.trans hvm')
  | provision v answers => exact hkept (keepsVms_provisionVolume v n answers)
  | deprovision v answers => exact hkept (keepsVms_deprovision v n answers)
  | forget v answers => exact hkept (keepsVms_forget v n answers)

/-- A volume that is attached to a VM of the node is neither deleted nor forgotten. -/
theorem attached_volume_kept {unreadable : List String}
    {volumes : AList fun _ : VolumeId => VolumeRecord} {es : List VolumeEvent} {n : VolumeNode}
    (hm : volumeNode.RunMeets attachmentsListed (.start unreadable volumes) es)
    (hrun : volumeNode.run (.start unreadable volumes) es = some n)
    {id : VmId} {vm : Vm} (hvm : n.vms.lookup id = some vm)
    {v : VolumeId} {before after : List Call}
    (hattached : vm.log = before ++ .make (.attachment v) true :: after)
    (hdetached : .release (.attachment v) true ∉ after) (answers : List Bool) :
    ∃ holder, deprovision v n answers = (some (.error holder), n, answers) ∧
      forget v n answers = (some (.error holder), n, answers) := by
  have hcovered : n.Covered := by
    refine Machine.invariant (fun h hg hstep => ?_) ?_ hm hrun
    · cases hstep
      exact h.step hg
    · intro id vm hvm
      cases hvm
  have hheld : holds vm.log (.attachment v) := hattached ▸ holds_of_made hdetached
  obtain ⟨r, hr, hv⟩ := hcovered id vm hvm (.attachment v) rfl hheld
  obtain ⟨holder, hholder⟩ := VolumeNode.holder_of_attached hvm hr hv
  refine ⟨holder, ?_, ?_⟩
  · simp [deprovision, bind, current, hholder, pure]
  · simp [forget, bind, current, hholder, pure]

private def dataNode : AList fun _ : VolumeId => VolumeRecord :=
  singleton "data" ⟨true, .ready⟩

private def dataSpec : VmSpec := ⟨[⟨"root", false⟩, ⟨"data", true⟩], [], []⟩

private def attachedRun : List VolumeEvent :=
  [.vm "a" (.provision dataSpec false false) [true, true, false],
   .vm "a" (.provision dataSpec false false) [],
   .vm "b" (.provision ⟨[⟨"b-root", false⟩], [], []⟩ false false) [],
   .vm "a" (.resume ["data"]) [],
   .deprovision "data" [],
   .provision "data" []]

private def attachedNode : VolumeNode := attachedRun.foldl .step (.start [] dataNode)

/-- After a failed provision, a provision, a resume and a refused deletion, the volume is
still attached, and its VM is named as the holder. -/
theorem attached_volume_kept_resumed :
    volumeNode.run (.start [] dataNode) attachedRun = some attachedNode ∧
    ∃ holder, deprovision "data" attachedNode [] = (some (.error holder), attachedNode, []) ∧
      forget "data" attachedNode [] = (some (.error holder), attachedNode, []) :=
  have hrun : volumeNode.run (.start [] dataNode) attachedRun = some attachedNode := rfl
  have hm : volumeNode.RunMeets attachmentsListed (.start [] dataNode) attachedRun := by decide
  have hvm : attachedNode.vms.lookup "a" = some (attachedNode.vm "a") := by decide
  have hattached : (attachedNode.vm "a").log =
      (attachedNode.vm "a").log.take 14 ++ .make (.attachment "data") true ::
        (attachedNode.vm "a").log.drop 15 := by decide
  have hdetached : .release (.attachment "data") true ∉ (attachedNode.vm "a").log.drop 15 := by
    decide
  ⟨hrun, attached_volume_kept hm hrun hvm hattached hdetached []⟩

private def lostRun : List VolumeEvent :=
  [.vm "a" (.provision dataSpec false false) [],
   .vm "a" (.resume ["data"]) [true, true, false]]

/-- A resume that cannot fetch its image has struck the attachment from the record. The
volume is deleted while it is attached. -/
theorem attached_volume_deleted : ∃ n, volumeNode.run (.start [] dataNode) lostRun = some n ∧
    holds (n.vm "a").log (.attachment "data") ∧
    (deprovision "data").result n [] = some (.ok ()) ∧
    ((deprovision "data").final n []).calls = [.deprovision "data" true] :=
  ⟨_, rfl, by decide, by decide, by decide⟩

end MeisterStack.Agent.Provision
