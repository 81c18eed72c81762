import MeisterStack.LinuxNetwork.Commands

/-!
# Claims a record no longer makes

Every record the driver stores is a file named after its router. Withdrawing a claim stores the
record without it; a pass for a spec that does not make the claim never brings it back.
-/

namespace MeisterStack.LinuxNetwork

open Foundation List Option Host Command

def WellFiled (h : Host) : Prop :=
  ∀ stem spec, h.records.lookup stem = some (some spec) → stem = toString spec.id

@[simp] theorem Host.records_modify (h : Host) (netns) (f : Netns → Netns) :
    (h.modify netns f).records = h.records := by
  unfold modify
  split <;> rfl

variable {h : Host}

theorem lookup_records_perform {c fate stem spec}
    (hfile : (world.perform c fate h).2.records.lookup stem = some (some spec)) :
    h.records.lookup stem = some (some spec) ∨ c = .storeRecord spec ∧ stem = toString spec.id := by
  let keeps (h h' : Host) : Prop := h'.records.lookup stem = some (some spec) →
    h.records.lookup stem = some (some spec) ∨ c = .storeRecord spec ∧ stem = toString spec.id
  suffices hkeeps : keeps h (world.perform c fate h).2 from hkeeps hfile
  refine world.perform_keeps fate .inl fun _ hfile => ?_
  cases c with
  | storeRecord spec' =>
    by_cases heq : stem = toString spec'.id
    · subst heq
      have hspec : spec' = spec := by simpa [world, effect] using hfile
      exact .inr ⟨by rw [hspec], by rw [hspec]⟩
    · exact .inl (by simpa [world, effect, AList.lookup_insert_ne heq] using hfile)
  | removeRecord stem' =>
    by_cases heq : stem = stem'
    · subst heq
      simp [world, effect] at hfile
    · exact .inl (by simpa [world, effect, AList.lookup_erase_ne heq] using hfile)
  | setArp | setDefaultArp | addVeth => exact .inl (by simpa [world, effect] using hfile)
  | _ => exact .inl hfile

theorem wellFiled_perform (hfiled : WellFiled h) (c fate) :
    WellFiled (world.perform c fate h).2 := by
  intro stem spec hfile
  obtain hold | ⟨-, hstem⟩ := lookup_records_perform hfile
  · exact hfiled stem spec hold
  · exact hstem

theorem Host.record_eq_some {id spec} :
    h.record id = some spec ↔ h.records.lookup (toString id) = some (some spec) := by
  simp [record, join_eq_some_iff]

theorem records_setArp (netns l mode fate) (h : Host) :
    (world.perform (.setArp netns l mode) fate h).2.records = h.records := by
  let keeps (h h' : Host) : Prop := h'.records = h.records
  have hkeeps : keeps h (world.perform (.setArp netns l mode) fate h).2 :=
    world.perform_keeps fate rfl fun _ => by simp [keeps, world, effect]
  exact hkeeps

def claims : List Claim := [activeClaim, soleGatewayClaim]

structure Withdrawn (claim : Claim) (id : RouterId) (h : Host) : Prop where
  filed : WellFiled h
  unclaimed : ∀ spec, h.record id = some spec → claim.made spec = false

def Command.spurns (claim : Claim) (id : RouterId) : Command → Prop
  | .storeRecord spec => spec.id = id → claim.made spec = false
  | _ => True

theorem Command.harmless.spurns {claim id} {c : Command} (h : c.harmless) : c.spurns claim id := by
  cases c <;> first | exact h.elim | trivial

section

variable {claim claim' : Claim} {id : RouterId} {spec : RouterSpec} {h : Host}

theorem Withdrawn.perform {c} (hw : Withdrawn claim id h) (hc : c.spurns claim id) (fate) :
    Withdrawn claim id (world.perform c fate h).2 where
  filed := wellFiled_perform hw.filed c fate
  unclaimed spec hspec := by
    obtain hold | ⟨rfl, hid⟩ := lookup_records_perform (record_eq_some.mp hspec)
    · exact hw.unclaimed spec (record_eq_some.mpr hold)
    · exact hc (Uuid.toString_injective hid.symm)

theorem withdrawn_id (hclaim : claim ∈ claims) : (claim.withdrawn spec).id = spec.id := by
  obtain rfl | rfl := mem_pair.mp hclaim <;> rfl

theorem made_withdrawn (hclaim : claim ∈ claims) : claim.made (claim.withdrawn spec) = false := by
  obtain rfl | rfl := mem_pair.mp hclaim <;> rfl

theorem made_withdrawn_of (hclaim : claim ∈ claims) (hclaim' : claim' ∈ claims)
    (hmade : claim.made spec = false) : claim.made (claim'.withdrawn spec) = false := by
  obtain rfl | rfl := mem_pair.mp hclaim <;> obtain rfl | rfl := mem_pair.mp hclaim' <;>
    first | rfl | exact hmade

end

def filing (oracle : Oracle Command Info) : Terms Command Host Info where
  may c fate := ∃ k, oracle k c = fate
  rely h h' := h' = h
  guar _ h h' := WellFiled h → WellFiled h'

theorem may_filing (oracle k c) :
    (filing oracle).may c (oracle k c) := ⟨k, rfl⟩

def ReadsRecord (oracle : Oracle Command Info) (id : RouterId) : Prop :=
  ∀ k, (oracle k (.readRecord (toString id))).ok

section

variable {oracle : Oracle Command Info} {claim claim' : Claim} {id id' : RouterId} {h : Host}
  {α : Type} {m : Act α}

/-- A script leaves `done` where it succeeds and `stop` where it fails, alone on the records. -/
abbrev Files (oracle : Oracle Command Info) (done stop : Host → Prop) (m : Act α) (h : Host) :
    Prop :=
  (filing oracle).Holds world (fun _ => done) (fun _ => stop) m h

theorem filing_holds (hfiled : WellFiled h) : Files oracle WellFiled WellFiled m h := by
  have hany : m.Issues fun _ => True := by
    induction m with
    | ret | fail => trivial
    | call c next ih => exact ⟨trivial, ih⟩
  refine hany.holds (fun _ _ heq hfiled => heq ▸ hfiled) (fun c h fate _ _ hfiled => ?_) hfiled
  exact ⟨fun _ => wellFiled_perform hfiled c fate, wellFiled_perform hfiled c fate⟩

theorem Withdrawn.holds (hm : m.Issues (spurns claim id)) (hw : Withdrawn claim id h) :
    Files oracle (Withdrawn claim id) (Withdrawn claim id) m h := by
  refine hm.holds (fun _ _ heq hw => heq ▸ hw) (fun c h fate hc _ hw => ?_) hw
  exact ⟨fun hfiled => wellFiled_perform hfiled c fate, hw.perform hc fate⟩

theorem readRecord_filing {stop : Fault → Host → Prop} (stem) :
    (filing oracle).Holds world
      (fun file h' => h' = h ∧ (∀ f, file = some f → f = readFile h stem) ∧
        ((∀ k, (oracle k (.readRecord stem)).ok) → file = some (readFile h stem))) stop
      (readRecord stem) h := by
  rintro h1 rfl fate ⟨k, rfl⟩
  refine ⟨fun hfiled => wellFiled_perform hfiled _ _, ?_⟩
  rintro _ rfl
  obtain ⟨r, -, -, rfl, hp⟩ | ⟨-, hok, -, hp⟩ | ⟨himpossible, hp⟩ :=
    world.perform_cases (.readRecord stem) (oracle k (.readRecord stem)) h1
  · rw [hp]
    exact ⟨rfl, fun f hf => (some.inj hf).symm, fun _ => rfl⟩
  · rw [hp]
    exact ⟨rfl, by simp, fun hread => by simp [hread] at hok⟩
  · rw [hp]
    refine ⟨rfl, by simp, fun hread => ?_⟩
    rcases himpossible with himpossible | ⟨hok, -⟩
    · cases himpossible
    · simp [hread] at hok

variable {spec : RouterSpec}

theorem readFile_eq_record {stem} (hfile : readFile h stem = .record spec) :
    h.records.lookup stem = some (some spec) := by
  unfold readFile at hfile
  split at hfile
  · cases hfile
  · cases hfile
  · rename_i hlookup
    rw [hlookup, RecordFile.record.inj hfile]

theorem Withdrawn.withdrawClaim (hclaim : claim ∈ claims) (hclaim' : claim' ∈ claims)
    (hw : Withdrawn claim id h) :
    Files oracle (Withdrawn claim id) (Withdrawn claim id) (withdrawClaim id' claim') h := by
  refine (readRecord_filing (toString id')).bind (fun _ => rfl) ?_
  rintro file _ ⟨rfl, hfile, -⟩
  split
  · rename_i spec
    split
    · have hlookup := readFile_eq_record (hfile _ rfl).symm
      have hstem := Uuid.toString_injective (hw.filed _ _ hlookup)
      refine Withdrawn.holds (need_unit_issues fun heq => ?_) hw
      rw [withdrawn_id hclaim', ← hstem] at heq
      exact made_withdrawn_of hclaim hclaim' (hw.unclaimed spec
        (record_eq_some.mpr (heq ▸ hlookup)))
    · exact fun _ heq => heq ▸ hw
  · exact fun _ heq => heq ▸ hw

theorem storeRecord_withdraws (hid : spec.id = id)
    (hmade : claim.made spec = false) (hfiled : WellFiled h) :
    Files oracle (Withdrawn claim id) WellFiled (need (.storeRecord spec)) h := by
  subst hid
  refine Terms.holds_must ?_
  rintro h1 rfl fate -
  have hfiled' := wellFiled_perform hfiled (.storeRecord spec) fate
  refine ⟨fun _ => hfiled', ?_⟩
  rintro _ rfl
  refine ⟨fun r hr => ⟨hfiled', fun spec' hspec' => ?_⟩, fun _ => hfiled'⟩
  obtain ⟨_, -, -, -, hp⟩ | ⟨-, -, -, hp⟩ | ⟨-, hp⟩ :=
    world.perform_cases (.storeRecord spec) fate h1
  · rw [hp, record_eq_some] at hspec'
    obtain rfl : spec = spec' := by simpa [world, effect] using hspec'
    exact hmade
  · simp [hp] at hr
  · simp [hp] at hr

theorem withdrawClaim_withdraws (hclaim : claim ∈ claims) (hread : ReadsRecord oracle id)
    (hfiled : WellFiled h) :
    Files oracle (Withdrawn claim id) WellFiled (withdrawClaim id claim) h := by
  refine (readRecord_filing (toString id)).bind (fun _ => rfl) ?_
  rintro file h1 ⟨rfl, -, hfile⟩
  obtain rfl := hfile hread
  have hother : (∀ spec, h1.records.lookup (toString id) = some (some spec) →
      claim.made spec = false) → Withdrawn claim id h1 := fun hmade =>
    ⟨hfiled, fun spec hspec => hmade spec (record_eq_some.mp hspec)⟩
  split
  · rename_i spec heq
    have hlookup := readFile_eq_record (some.inj heq)
    split
    · have hstem := Uuid.toString_injective (hfiled _ _ hlookup)
      refine (storeRecord_withdraws ((withdrawn_id hclaim).trans hstem.symm)
        (made_withdrawn hclaim) hfiled).bind (fun _ => rfl) fun _ _ hw _ heq => ?_
      exact heq ▸ hw
    · rename_i hmade
      rintro _ rfl
      refine hother fun spec' hspec' => ?_
      rw [hlookup] at hspec'
      cases hspec'
      simpa using hmade
  · rename_i hnone
    rintro _ rfl
    refine hother fun spec hspec => (hnone spec ?_).elim
    simp [readFile, hspec]

def Command.storesNothing : Command → Prop
  | .storeRecord _ => False
  | _ => True

theorem Command.harmless.storesNothing {c : Command} (h : c.harmless) : c.storesNothing := by
  cases c <;> first | exact h.elim | trivial

theorem Command.storesNothing.spurns {c : Command} (h : c.storesNothing) : c.spurns claim id := by
  cases c <;> first | exact h.elim | trivial

theorem silenceRouter_filing {K D : Host → Prop}
    (hkeeps : ∀ c fate h, c.storesNothing → K h → K (world.perform c fate h).2)
    (hK : ∀ h, D h → K h) (hrecord : ∀ h, K h → Files oracle D K (recordStandby id) h) (hk : K h) :
    Files oracle D K (silenceRouter id) h := by
  have hlooks : ∀ c : Command, c.harmless → c.storesNothing := fun _ hc => hc.storesNothing
  have hissues : ∀ {α : Type} {m : Act α} {h : Host}, m.Issues storesNothing → K h →
      Files oracle K K m h := by
    intro α m h hm hk
    refine hm.holds (fun _ _ heq hk => heq ▸ hk) (fun c h fate hc _ hk => ?_) hk
    exact ⟨fun hfiled => wellFiled_perform hfiled c fate, hkeeps c fate h hc hk⟩
  refine (hissues (clearDeadNetns_issues hlooks trivial) hk).bind (fun _ => rfl) fun _ h1 hk => ?_
  refine (hissues (Script.issues_attempt (netnsPresent_issues hlooks)) hk).bind (fun _ => rfl)
    fun live h2 hk => ?_
  have hboth : Files oracle D K (silenceNetnsAndRecord id live.toOption) h2 := by
    have hkernel : (if live.toOption.any (routerNetns id ∉ ·) then pure ()
        else silenceLegs (routerNetns id) : Act Unit).Issues storesNothing := by
      split
      · trivial
      · exact silenceLegs_issues hlooks fun _ => trivial
    refine (hissues (Script.issues_attempt hkernel) hk).bind (fun _ => rfl) fun kernel h3 hk => ?_
    have hattempt : (filing oracle).Holds world (fun r h' => Terms.Came D K r h') (fun _ => K)
        (recordStandby id).attempt h3 :=
      (hrecord h3 hk).attempt (fun _ _ hd => hd) fun _ _ hk => hk
    refine hattempt.bind (fun _ => rfl) fun record h4 hcame => ?_
    cases record with
    | error _ => cases kernel <;> exact fun _ heq => heq ▸ hcame
    | ok _ =>
      cases kernel with
      | ok _ => exact fun _ heq => heq ▸ hcame
      | error _ => exact fun _ heq => heq ▸ hK _ hcame
  refine hboth.bind (fun _ => rfl) fun _ h5 hd => ?_
  cases live with
  | ok _ => exact fun _ heq => heq ▸ hd
  | error _ => exact fun _ heq => heq ▸ hK _ hd

theorem Withdrawn.silenceRouter (hclaim : claim ∈ claims) (hw : Withdrawn claim id h) :
    Files oracle (Withdrawn claim id) (Withdrawn claim id) (silenceRouter id') h := by
  refine silenceRouter_filing (fun c fate h hc hw => hw.perform hc.spurns fate) (fun _ hw => hw)
    (fun h hw => hw.withdrawClaim hclaim ?_) hw
  simp [claims]

theorem silenceRouter_withdraws (hread : ReadsRecord oracle id) (hfiled : WellFiled h) :
    Files oracle (Withdrawn activeClaim id) WellFiled (silenceRouter id) h := by
  refine silenceRouter_filing (fun c fate h _ hfiled => wellFiled_perform hfiled c fate)
    (fun _ hw => hw.filed) (fun h hfiled => withdrawClaim_withdraws ?_ hread hfiled) hfiled
  simp [claims]

theorem Withdrawn.ensureRouter {g} (hclaim : claim ∈ claims) (hspec : claim.made spec = false)
    (hw : Withdrawn claim id h) :
    Files oracle (Withdrawn claim id) (Withdrawn claim id) (ensureRouter g spec) h := by
  have hlooks : ∀ c : Command, c.harmless → c.spurns claim id := fun _ hc => hc.spurns
  have hbuild : ∀ h interface rules, Withdrawn claim id h → Files oracle (Withdrawn claim id)
      (Withdrawn claim id) (buildRouter g spec interface rules) h := by
    intro h interface rules hw
    refine hw.holds (buildRouter_issues hlooks trivial trivial ?_ ?_ fun _ => hspec)
    · exact fun _ _ => trivial
    · exact fun _ => trivial
  have hclaimed : ∀ h, Withdrawn claim id h → Files oracle (Withdrawn claim id)
      (Withdrawn claim id) (ensureClaimed g spec) h := by
    intro h hw
    have hnot :
        Files oracle (Withdrawn claim id) (Withdrawn claim id) (recordNotSoleGateway spec) h := by
      unfold recordNotSoleGateway
      split
      · exact fun _ heq => heq ▸ hw
      · exact hw.withdrawClaim hclaim (by simp [claims])
    refine hnot.bind (fun _ => rfl) fun _ h1 hw => ?_
    split
    · exact fun _ heq => heq ▸ hw
    · exact fun _ heq => heq ▸ hw
    · exact hbuild h1 _ _ hw
  unfold LinuxNetwork.ensureRouter
  split
  · refine (hw.holds (clearDeadNetns_issues hlooks trivial)).bind (fun _ => rfl) ?_
    exact fun _ h1 hw => hclaimed h1 hw
  · exact (hw.silenceRouter hclaim).bind (fun _ => rfl) fun _ h1 hw => hclaimed h1 hw

end

end MeisterStack.LinuxNetwork
