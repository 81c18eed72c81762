import MeisterStack.Agent.VolumeHolders

/-!
# Tombstones of volumes

One volume of a node: the record the agent keeps of it, the places at which a backend holds bytes of
it. A record that says Gone is the evidence on which the control plane forgets the volume.
-/

namespace MeisterStack.Agent.Tombstones

open MeisterStack.Foundation Procedure List Option Ends
open Provision (VolumeRecordPhase)

structure VolumeSpec where
  baseImage : Option String
  sizeBytes : Nat
  driver : Option String
  params : Option String

structure VolumeHandle where
  backend : String
  sizeBytes : Nat

inductive VolumeReason where
  | working
  | driverRefused
  | notOnBackend
  | deprovisioned
  | unrecorded

structure VolumeRecord where
  spec : VolumeSpec
  handle : Option VolumeHandle
  phase : VolumeRecordPhase
  reason : Option VolumeReason
  message : Option String
  goneAt : Option Nat

def defaultVolumeDriver : String := "filesystem"

def VolumeSpec.driverName (spec : VolumeSpec) : String := spec.driver.getD defaultVolumeDriver

structure Place where
  driver : String
  backend : String
  deriving DecidableEq

structure Drivers where
  locate : VolumeSpec → String
  allot : VolumeSpec → Nat
  grow : VolumeHandle → Nat → Nat

inductive BackendEvent where
  | provisioning (place : Place)
  | removing (place : Place)
  | removed (place : Place)
  | foundNothing (place : Place)

structure Node where
  record : Option VolumeRecord
  data : List Place
  history : List BackendEvent

namespace Node

def start : Node := ⟨none, [], []⟩

variable (n : Node)

def note (e : BackendEvent) : Node := { n with history := n.history ++ [e] }

def put (p : Place) : Node := { n with data := p :: n.data.erase p }

def drop (p : Place) : Node := { n with data := n.data.filter (· ≠ p) }

def provisioned : Option VolumeRecord := n.record.filter (·.handle.isSome)

end Node

namespace Drivers

variable (D : Drivers) (spec : VolumeSpec)

def place : Place := ⟨spec.driverName, D.locate spec⟩

def handle : VolumeHandle := ⟨D.locate spec, D.allot spec⟩

def provision : Procedure Node (Option VolumeHandle) := do
  check
  change (·.note (.provisioning (D.place spec)))
  let made ← ask
  change fun n => if made then n.put (D.place spec) else n
  let answered ← ask
  pure (if made && answered then some (D.handle spec) else none)

def deprovision (place : Place) : Procedure Node Bool := do
  let gone ← ask
  change fun n => if gone then n.drop place else n
  let answered ← ask
  change (·.note (if gone && answered then .removed place else .removing place))
  pure (gone && answered)

def probe : Procedure Node (Option VolumeHandle) := do
  check
  let n ← current
  if D.place spec ∈ n.data then
    pure (some (D.handle spec))
  else do
    change (·.note (.foundNothing (D.place spec)))
    pure none

end Drivers

def write (record : VolumeRecord) : Procedure Node Unit := do
  check
  change fun n => { n with record := some record }

def configured : Procedure Node Unit := check

def unspecified : VolumeSpec := ⟨none, 0, none, none⟩

def tombstone (spec : Option VolumeSpec) (now : Nat) : Procedure Node Unit :=
  write ⟨spec.getD unspecified, none, .gone, some .deprovisioned, none, some now⟩

def intent (spec : VolumeSpec) : VolumeRecord :=
  ⟨spec, none, .provisioning, some .working, none, none⟩

def made (spec : VolumeSpec) (handle : VolumeHandle) : VolumeRecord :=
  ⟨spec, some handle, .ready, none, none, none⟩

def refused (spec : VolumeSpec) (error : String) : VolumeRecord :=
  ⟨spec, none, .failed, some .driverRefused, some error, none⟩

section Operations

variable (D : Drivers) (spec : VolumeSpec) (error : String)

def create : Procedure Node Unit := do
  configured
  write (intent spec)
  match ← D.provision spec with
  | some handle => write (made spec handle)
  | none => do
      write (refused spec error)
      fail

def provision : Procedure Node Unit := do
  check
  let n ← current
  match n.provisioned with
  | some existing =>
    if existing.phase = .ready then pure ()
    else write { existing with phase := .ready, reason := none, message := none }
  | none => create D spec error

def provisionFrom : Procedure Node Unit := do
  check
  let n ← current
  match n.provisioned with
  | some _ => pure ()
  | none => do
      -- the snapshot has to have a handle on this node
      check
      create D spec error

def destroy (record : VolumeRecord) (handle : VolumeHandle) (now : Nat) : Procedure Node Unit := do
  if ← Drivers.deprovision ⟨record.spec.driverName, handle.backend⟩ then
    tombstone (some record.spec) now
  else fail

def deprovision (held : Bool) (now : Nat) : Procedure Node Unit := do
  check
  let n ← current
  if held then fail else
    match n.record with
    | none => tombstone none now
    | some record =>
      if record.phase = .gone then pure () else do
        configured
        match record.handle with
        | some handle => destroy record handle now
        | none => do
            match ← D.probe record.spec with
            | some found => destroy record found now
            | none => tombstone (some record.spec) now

def resize (sizeBytes : Nat) : Procedure Node Unit := do
  check
  let n ← current
  match n.record with
  | none => fail
  | some record =>
    match record.handle with
    | none => fail
    | some handle => do
        configured
        -- the driver's own answer
        check
        write { record with handle := some ⟨handle.backend, D.grow handle sizeBytes⟩ }

def snapshot : Procedure Node Unit := do
  check
  let n ← current
  match n.provisioned with
  | none => fail
  | some _ => do
      configured
      check
      let taken ← ask
      check
      if taken then pure () else fail

def notOnBackend (handle : VolumeHandle) : String :=
  s!"the backend has no volume {handle.backend}; it was there when this node last wrote the record"

def adopt : Procedure Node Unit := do
  check
  let n ← current
  match n.record with
  | none => pure ()
  | some record =>
    match record.handle, record.phase with
    | some handle, .ready => do
        configured
        -- an error other than `NotFound` leaves the record as it is
        check
        if (⟨record.spec.driverName, handle.backend⟩ : Place) ∈ n.data then pure ()
        else write { record with
          handle := none, phase := .failed, reason := some .notOnBackend,
          message := some (notOnBackend handle) }
    | _, _ => pure ()

end Operations

def tombstoneTtl : Nat := 3600

variable (r : VolumeRecord)

def VolumeRecord.expired (now : Nat) : Bool :=
  match r.goneAt with
  | some goneAt => tombstoneTtl < now - goneAt
  | none => false

def phaseWord : VolumeRecordPhase → String
  | .provisioning => "Provisioning"
  | .ready => "Ready"
  | .failed => "Failed"
  | .gone => "Gone"

def VolumeReason.word : VolumeReason → String
  | .working => "Working"
  | .driverRefused => "DriverRefused"
  | .notOnBackend => "NotOnBackend"
  | .deprovisioned => "Deprovisioned"
  | .unrecorded => "Unrecorded"

def reportedReason : Option VolumeReason :=
  match r.phase with
  | .ready => none
  | _ => r.reason.or (some .unrecorded)

structure VolumeStateReport where
  phase : String
  backend : String
  reason : String
  isOpen : Bool
  message : String
  sizeBytes : Nat

def VolumeRecord.line (isOpen : Bool) : VolumeStateReport :=
  ⟨phaseWord r.phase, (r.handle.map (·.backend)).getD "",
    ((reportedReason r).map VolumeReason.word).getD "", isOpen, r.message.getD "",
    (r.handle.map (·.sizeBytes)).getD 0⟩

def report (now : Nat) (isOpen : Bool) : Procedure Node (Option VolumeStateReport) := do
  check
  let n ← current
  match n.record with
  | none => pure none
  | some record =>
    if record.expired now then do
      let swept ← ask
      change fun n => if swept then { n with record := none } else n
      pure none
    else pure (some (record.line isOpen))

inductive Operation where
  | provision (spec : VolumeSpec) (error : String)
  | provisionFrom (spec : VolumeSpec) (error : String)
  | deprovision (held : Bool) (now : Nat)
  | resize (sizeBytes : Nat)
  | snapshot
  | adopt
  | report (now : Nat) (isOpen : Bool)

def Operation.procedure (D : Drivers) : Operation → Procedure Node Unit
  | .provision spec error => Tombstones.provision D spec error
  | .provisionFrom spec error => Tombstones.provisionFrom D spec error
  | .deprovision held now => Tombstones.deprovision D held now
  | .resize sizeBytes => Tombstones.resize D sizeBytes
  | .snapshot => Tombstones.snapshot
  | .adopt => Tombstones.adopt
  | .report now isOpen => do
      let _ ← Tombstones.report now isOpen
      pure ()

inductive Event where
  | run (operation : Operation) (answers : List Bool)
  /-- A backend loses what it held. -/
  | lose (place : Place)

def machine (D : Drivers) : Machine Node Event where
  step
    | n, .run operation answers => some ((operation.procedure D).final n answers)
    | n, .lose place => some (n.drop place)

def BackendEvent.settles : BackendEvent → Bool
  | .removed _ | .foundNothing _ => true
  | .provisioning _ | .removing _ => false

def BackendEvent.starts : BackendEvent → Bool
  | .provisioning _ => true
  | .removing _ | .removed _ | .foundNothing _ => false

def Node.Evidence (n : Node) : Prop :=
  (∀ e ∈ n.history, ¬ e.starts) ∨ ∃ e, n.history.getLast? = some e ∧ e.settles

/-! ## What the record accounts for

Bytes are only at the place the record names, and none are left once it says Gone or has
been swept. -/

def OnlyAt (data : List Place) (place : Place) : Prop := ∀ p ∈ data, p = place

structure Fits (D : Drivers) (r : VolumeRecord) (data : List Place) : Prop where
  phase : r.phase ≠ .gone
  goneAt : r.goneAt = none
  data : OnlyAt data (D.place r.spec)
  handle : ∀ h, r.handle = some h → h.backend = D.locate r.spec

inductive Accounted (D : Drivers) (n : Node) : Prop
  | settled (record : ∀ r ∈ n.record, r.phase = .gone ∧ r.handle = none) (data : n.data = [])
      (evidence : n.Evidence)
  | live (r : VolumeRecord) (record : n.record = some r) (fits : Fits D r n.data)

variable {n : Node} {place : Place}

theorem OnlyAt.put (h : OnlyAt n.data place) : OnlyAt (n.put place).data place := by
  intro p hp
  rcases mem_cons.mp hp with rfl | hp
  · rfl
  · exact h p (mem_of_mem_erase hp)

theorem OnlyAt.drop (h : OnlyAt n.data place) (gone) : OnlyAt (n.drop gone).data place :=
  fun p hp => h p (mem_of_mem_filter hp)

theorem OnlyAt.drop_self (h : OnlyAt n.data place) : (n.drop place).data = [] := by
  rw [Node.drop, filter_eq_nil_iff]
  intro p hp
  simp [h p hp]

theorem OnlyAt.eq_nil {data} (h : OnlyAt data place) (hnot : place ∉ data) : data = [] := by
  rw [eq_nil_iff_forall_not_mem]
  intro p hp
  exact hnot (h p hp ▸ hp)

namespace Node

theorem evidence_note (n : Node) {e} (h : e.settles) : (n.note e).Evidence :=
  .inr ⟨e, by simp [note], h⟩

end Node

section Operations

variable {D : Drivers} {n : Node}

namespace Accounted

theorem tombstone (spec now) (data : n.data = []) (evidence : n.Evidence) :
    Accounted D { n with
      record := some ⟨spec, none, .gone, some .deprovisioned, none, some now⟩ } := by
  refine .settled ?_ data evidence
  rintro r ⟨⟩
  exact ⟨rfl, rfl⟩

theorem fits (h : Accounted D n) {r} (hrecord : n.record = some r) (hphase : r.phase ≠ .gone) :
    Fits D r n.data := by
  cases h with
  | settled record => exact absurd (record r hrecord).1 hphase
  | live r' hrecord' fits =>
    cases hrecord.symm.trans hrecord'
    exact fits

theorem fits_of_handle (h : Accounted D n) {r} (hrecord : n.record = some r)
    (hhandle : r.handle.isSome) : Fits D r n.data := by
  apply h.fits hrecord
  intro hgone
  cases h with
  | settled record => simp [(record r hrecord).2] at hhandle
  | live r' hrecord' fits =>
    cases hrecord.symm.trans hrecord'
    exact fits.phase hgone

theorem drop (h : Accounted D n) (place) : Accounted D (n.drop place) := by
  cases h with
  | settled record data evidence => exact .settled record (by simp [Node.drop, data]) evidence
  | live r record fits => exact .live r record { fits with data := fits.data.drop place }

end Accounted

variable {spec : VolumeSpec} {data : List Place} (h : OnlyAt data (D.place spec))

include h

theorem Fits.intent : Fits D (intent spec) data :=
  ⟨by simp [Tombstones.intent], rfl, h, by simp [Tombstones.intent]⟩

theorem Fits.refused (error) : Fits D (refused spec error) data :=
  ⟨by simp [Tombstones.refused], rfl, h, by simp [Tombstones.refused]⟩

theorem Fits.made : Fits D (made spec (D.handle spec)) data :=
  ⟨by simp [Tombstones.made], rfl, h, by simp [Tombstones.made, Drivers.handle]⟩

omit h

variable {r : VolumeRecord} {stop : Node → Prop}

@[simp] theorem ends_write {post : Unit → Node → Prop} :
    Ends (write r) n post stop ↔ stop n ∧ post () { n with record := some r } := by
  simp [write]

variable {post : Option VolumeHandle → Node → Prop}

theorem Drivers.ends_provision (hstop : stop n)
    (hmade : ∀ handle ∈ [some (D.handle spec), none],
      post handle ((n.note (.provisioning (D.place spec))).put (D.place spec)))
    (hnot : post none (n.note (.provisioning (D.place spec)))) :
    Ends (D.provision spec) n post stop := by
  simp only [Drivers.provision, ends_check_bind, ends_change_bind, ends_ask_bind, ends_pure]
  refine ⟨hstop, fun made answered => ?_⟩
  cases made with
  | false => exact hnot
  | true =>
    apply hmade
    cases answered <;> simp

theorem Drivers.ends_deprovision {place} {post : Bool → Node → Prop}
    (hgone : post true ((n.drop place).note (.removed place)))
    (hlost : post false ((n.drop place).note (.removing place)))
    (hnot : post false (n.note (.removing place))) :
    Ends (Drivers.deprovision place) n post stop := by
  simp only [Drivers.deprovision, ends_change_bind, ends_ask_bind, ends_pure]
  intro gone answered
  cases gone with
  | false => exact hnot
  | true =>
    cases answered with
    | false => exact hlost
    | true => exact hgone

theorem Drivers.ends_probe (hstop : stop n)
    (hfound : D.place spec ∈ n.data → post (some (D.handle spec)) n)
    (hnothing : D.place spec ∉ n.data → post none (n.note (.foundNothing (D.place spec)))) :
    Ends (D.probe spec) n post stop := by
  simp only [Drivers.probe, ends_check_bind, ends_current_bind]
  refine ⟨hstop, ?_⟩
  by_cases hmem : D.place spec ∈ n.data
  · simpa only [if_pos hmem, ends_pure] using hfound hmem
  · simpa only [if_neg hmem, ends_change_bind, ends_pure] using hnothing hmem

theorem create_ends {error} (h : Accounted D n) (hdata : OnlyAt n.data (D.place spec)) :
    Ends (create D spec error) n (fun _ => Accounted D) (Accounted D) := by
  simp only [create, configured, ends_check_bind]
  refine ⟨h, bind (ends_write.mpr ⟨h, bind ?_⟩)⟩
  -- from here on the record is the intent, whatever becomes of the call
  apply Drivers.ends_provision
  · exact .live _ rfl (.intent hdata)
  · intro handle hhandle
    rcases mem_pair.mp hhandle with rfl | rfl
    · exact ends_write.mpr ⟨.live _ rfl (.intent hdata.put), .live _ rfl (.made hdata.put)⟩
    · exact bind (ends_write.mpr
        ⟨.live _ rfl (.intent hdata.put), ends_fail.mpr (.live _ rfl (.refused hdata.put error))⟩)
  · exact bind (ends_write.mpr
      ⟨.live _ rfl (.intent hdata), ends_fail.mpr (.live _ rfl (.refused hdata error))⟩)

theorem destroy_ends {handle now} (hrecord : n.record = some r) (hfits : Fits D r n.data)
    (hhandle : handle.backend = D.locate r.spec) :
    Ends (destroy r handle now) n (fun _ => Accounted D) (Accounted D) := by
  have hplace : (⟨r.spec.driverName, handle.backend⟩ : Place) = D.place r.spec := by
    rw [hhandle, Drivers.place]
  refine bind ?_
  rw [hplace]
  have hdropped := hfits.data.drop (D.place r.spec)
  apply Drivers.ends_deprovision
  · refine ends_write.mpr ⟨.live r hrecord { hfits with data := hdropped }, ?_⟩
    exact .tombstone r.spec now hfits.data.drop_self (Node.evidence_note _ rfl)
  · exact ends_fail.mpr (.live r hrecord { hfits with data := hdropped })
  · exact ends_fail.mpr (.live r hrecord hfits)

theorem deprovision_ends (h : Accounted D n) (held now) :
    Ends (deprovision D held now) n (fun _ => Accounted D) (Accounted D) := by
  simp only [deprovision, ends_check_bind, ends_current_bind]
  refine ⟨h, ?_⟩
  cases held with
  | true => exact ends_fail.mpr h
  | false =>
    simp only [Bool.false_eq_true, if_false]
    cases hrecord : n.record with
    | none =>
      cases h with
      | settled record data evidence =>
        exact ends_write.mpr
          ⟨.settled record data evidence, .tombstone unspecified now data evidence⟩
      | live r hrecord' => simp [hrecord] at hrecord'
    | some r =>
      by_cases hphase : r.phase = .gone
      · simpa only [if_pos hphase, ends_pure] using h
      · have hfits := h.fits hrecord hphase
        simp only [if_neg hphase, configured, ends_check_bind]
        refine ⟨h, ?_⟩
        cases hhandle : r.handle with
        | some handle => exact destroy_ends hrecord hfits (hfits.handle handle hhandle)
        | none =>
          refine bind (Drivers.ends_probe h ?_ ?_)
          · intro _
            exact destroy_ends hrecord hfits rfl
          · intro hnothing
            refine ends_write.mpr ⟨.live r hrecord hfits, ?_⟩
            exact .tombstone r.spec now (hfits.data.eq_nil hnothing) (Node.evidence_note _ rfl)

theorem provisioned_record (h : n.provisioned = some r) : n.record = some r ∧ r.handle.isSome := by
  simpa [Node.provisioned, filter_eq_some_iff] using h

def SamePlace (D : Drivers) (n : Node) (spec : VolumeSpec) : Prop :=
  ∀ r ∈ n.record, r.handle = none → r.phase ≠ .gone → D.place r.spec ∈ n.data →
    D.place spec = D.place r.spec

theorem SamePlace.onlyAt (hsame : SamePlace D n spec) (h : Accounted D n)
    (hnone : n.provisioned = none) : OnlyAt n.data (D.place spec) := by
  cases h with
  | settled _ data => simp [OnlyAt, data]
  | live r record fits =>
    have hhandle : r.handle = none := by
      simpa [Node.provisioned, record, filter_eq_none_iff] using hnone
    intro p hp
    have hp' := fits.data p hp
    rw [hp', hsame r record hhandle fits.phase (hp' ▸ hp)]

theorem provision_ends (h : Accounted D n) (hsame : SamePlace D n spec) (error) :
    Ends (provision D spec error) n (fun _ => Accounted D) (Accounted D) := by
  simp only [provision, ends_check_bind, ends_current_bind]
  refine ⟨h, ?_⟩
  cases hprovisioned : n.provisioned with
  | none => exact create_ends h (hsame.onlyAt h hprovisioned)
  | some =>
    obtain ⟨hrecord, hhandle⟩ := provisioned_record hprovisioned
    have hfits := h.fits_of_handle hrecord hhandle
    dsimp only
    split
    · exact ends_pure.mpr h
    · exact ends_write.mpr ⟨h, .live _ rfl { hfits with phase := by simp }⟩

theorem provisionFrom_ends (h : Accounted D n) (hsame : SamePlace D n spec) (error) :
    Ends (provisionFrom D spec error) n (fun _ => Accounted D) (Accounted D) := by
  simp only [provisionFrom, ends_check_bind, ends_current_bind]
  refine ⟨h, ?_⟩
  cases hprovisioned : n.provisioned with
  | none => exact ends_check_bind.mpr ⟨h, create_ends h (hsame.onlyAt h hprovisioned)⟩
  | some => exact ends_pure.mpr h

theorem resize_ends (h : Accounted D n) (sizeBytes) :
    Ends (resize D sizeBytes) n (fun _ => Accounted D) (Accounted D) := by
  simp only [resize, ends_check_bind, ends_current_bind]
  refine ⟨h, ?_⟩
  cases hrecord : n.record with
  | none => exact ends_fail.mpr h
  | some r =>
    cases hhandle : r.handle with
    | none => simpa [hhandle] using h
    | some handle =>
      have hfits := h.fits_of_handle hrecord (by simp [hhandle])
      simp only [hhandle, configured, ends_check_bind, ends_write]
      refine ⟨h, h, h, .live _ rfl { hfits with handle := ?_ }⟩
      rintro h' ⟨⟩
      exact hfits.handle handle hhandle

theorem snapshot_ends (h : Accounted D n) :
    Ends snapshot n (fun _ => Accounted D) (Accounted D) := by
  simp only [snapshot, ends_check_bind, ends_current_bind]
  refine ⟨h, ?_⟩
  cases n.provisioned with
  | none => exact ends_fail.mpr h
  | some =>
    simp only [configured, ends_check_bind, ends_ask_bind]
    refine ⟨h, h, fun taken => ⟨h, ?_⟩⟩
    cases taken <;> simpa using h

theorem adopt_ends (h : Accounted D n) : Ends adopt n (fun _ => Accounted D) (Accounted D) := by
  simp only [adopt, ends_check_bind, ends_current_bind]
  refine ⟨h, ?_⟩
  cases hrecord : n.record with
  | none => exact ends_pure.mpr h
  | some =>
    dsimp only
    split
    · rename_i handle hhandle hphase
      have hfits := h.fits_of_handle hrecord (by simp [hhandle])
      simp only [configured, ends_check_bind]
      refine ⟨h, h, ?_⟩
      split
      · exact ends_pure.mpr h
      · exact ends_write.mpr ⟨h, .live _ rfl { hfits with phase := by simp, handle := by simp }⟩
    · exact ends_pure.mpr h

theorem report_ends (h : Accounted D n) (now isOpen) :
    Ends (report now isOpen) n (fun _ => Accounted D) (Accounted D) := by
  simp only [report, ends_check_bind, ends_current_bind]
  refine ⟨h, ?_⟩
  cases hrecord : n.record with
  | none => exact ends_pure.mpr h
  | some =>
    dsimp only
    split
    · rename_i hexpired
      simp only [ends_ask_bind, ends_change_bind, ends_pure]
      intro swept
      cases swept with
      | false => exact h
      | true =>
        -- only a tombstone has a time to expire by
        cases h with
        | settled _ data evidence => exact .settled (by simp) data evidence
        | live r' hrecord' fits =>
          cases hrecord.symm.trans hrecord'
          simp [VolumeRecord.expired, fits.goneAt] at hexpired
    · exact ends_pure.mpr h

end Operations

section Runs

variable (D : Drivers)

def SamePlaces : Node → Event → Prop
  | n, .run (.provision spec _) _ => SamePlace D n spec
  | n, .run (.provisionFrom spec _) _ => SamePlace D n spec
  | _, _ => True

variable {D}

theorem Accounted.step {n n' e} (h : Accounted D n) (hguard : SamePlaces D n e)
    (hstep : (machine D).step n e = some n') : Accounted D n' := by
  cases e with
  | lose place =>
    cases hstep
    exact h.drop place
  | run operation answers =>
    cases hstep
    refine final ?_ answers
    cases operation with
    | provision spec error => exact provision_ends h hguard error
    | provisionFrom spec error => exact provisionFrom_ends h hguard error
    | deprovision held now => exact deprovision_ends h held now
    | resize sizeBytes => exact resize_ends h sizeBytes
    | snapshot => exact snapshot_ends h
    | adopt => exact adopt_ends h
    | report now isOpen =>
      exact bind ((report_ends h now isOpen).imp fun _ _ ht => ends_pure.mpr ht)

theorem accounted_start : Accounted D .start :=
  .settled (by simp [Node.start]) rfl (.inl (by simp [Node.start]))

theorem report_says {n now isOpen answers line}
    (h : (report now isOpen).result n answers = some (some line)) :
    ∃ r, n.record = some r ∧ line = r.line isOpen := by
  have hends : Ends (report now isOpen) n
      (fun line _ => ∀ l ∈ line, ∃ r, n.record = some r ∧ l = r.line isOpen) (fun _ => True) := by
    simp only [report, ends_check_bind, ends_current_bind]
    refine ⟨trivial, ?_⟩
    cases hrecord : n.record with
    | none => simp
    | some =>
      dsimp only
      split <;> simp
  have hline := hends answers
  rw [h] at hline
  exact hline line rfl

end Runs

instance (D n spec) : Decidable (SamePlace D n spec) :=
  inferInstanceAs (Decidable (∀ r ∈ n.record, r.handle = none → r.phase ≠ .gone →
    D.place r.spec ∈ n.data → D.place spec = D.place r.spec))

instance (D n e) : Decidable (SamePlaces D n e) := by
  unfold SamePlaces
  split <;> infer_instance

def byParams : Drivers where
  locate spec := spec.params.getD "volumes"
  allot spec := spec.sizeBytes
  grow _ size := size

def onLvm : VolumeSpec := ⟨none, 4096, some "lvm-thin", some "vg0"⟩

def onFilesystem : VolumeSpec := ⟨none, 4096, some "filesystem", none⟩

def interrupted : Event := .run (.provision onLvm "") [true, true, true, true, true, true, false]

end MeisterStack.Agent.Tombstones
