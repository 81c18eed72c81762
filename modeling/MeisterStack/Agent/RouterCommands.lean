import MeisterStack.LinuxNetwork.Activation
import MeisterStack.LinuxNetwork.Claims

/-!
# Router commands

The agent takes back what a command withdraws before anything in the command can be refused: the
claim to be the sole gateway, then the legs' voice. Both are tried, and the first failure is the
answer.
-/

namespace MeisterStack.Agent.RouterCommands

open Foundation Script Option Uuid
open LinuxNetwork
open LinuxNetwork renaming Host → NetHost

structure NatMessage where
  kind : String
  externalIp : String
  logicalIp : String

structure EnsureRouter where
  id : String
  physnet : String
  externalAddr : String
  externalGateway : String
  vni : Nat
  internalAddr : String
  nats : List NatMessage
  active : Bool
  soleGateway : Bool

def natRouted : String := "routed"

def natKind (kind : String) : Option NatKind :=
  if kind = "snat" then some .snat else if kind = "dnat_and_snat" then some .dnatAndSnat else none

def readNats (id : RouterId) : List NatMessage → Except Fault (List NatRule × List String)
  | [] => .ok ([], [])
  | nat :: rest =>
    if nat.kind = natRouted then
      (readNats id rest).map fun (nats, routed) => (nats, nat.logicalIp :: routed)
    else
      match natKind nat.kind with
      | none => .error (.natKind id nat.kind)
      | some kind => (readNats id rest).map fun (nats, routed) =>
        (⟨kind, nat.externalIp, nat.logicalIp⟩ :: nats, routed)

def routerSpec (r : EnsureRouter) : Except Fault RouterSpec :=
  match parse r.id with
  | none => .error (.routerId r.id)
  | some id => (readNats id r.nats).map fun (nats, routed) =>
    ⟨id, r.physnet, r.externalAddr, r.externalGateway, r.vni, r.internalAddr, nats, routed,
      r.active, r.soleGateway⟩

structure Node where
  physnets : List String
  gateway : Gateway

def takeBackWithdrawn (r : EnsureRouter) : Act Unit :=
  if r.soleGateway && r.active then pure ()
  else
    match parse r.id with
    | none => .fail (.routerId r.id)
    | some id => do
        let withdrawn ← (if r.soleGateway then pure ()
          else (withdrawSoleGateway id).mapError (.withdrawing id) : Act Unit).attempt
        let silenced ← (if r.active then pure ()
          else (silenceRouter id).mapError (.silencing id) : Act Unit).attempt
        ofExcept (both withdrawn silenced)

variable (node : Node)

def validateRouter (physnet : String) : Except Fault Unit :=
  if physnet ∈ node.physnets then .ok () else .error (.noGatewaySlot physnet node.physnets)

def handleEnsureRouter (r : EnsureRouter) : Act Unit := do
  takeBackWithdrawn r
  let spec ← ofExcept (routerSpec r)
  ofExcept (validateRouter node spec.physnet)
  (ensureRouter node.gateway spec).mapError (.building spec.id)

def handleDestroyRouter (text : String) : Act Unit :=
  match parse text with
  | none => .fail (.routerId text)
  | some id => (destroyRouter id).mapError (.removing id)

inductive Request where
  | ensure (r : EnsureRouter)
  | destroy (id : String)
  | start
  | lost

def handle : Request → Act Unit
  | .ensure r => handleEnsureRouter node r
  | .destroy id => handleDestroyRouter id
  | .start => do
      let _ ← sweepRouters
  | .lost => do
      let _ ← fallSilent

def agent : Machine NetHost (Request × Oracle Command Info) where
  step h e := some (world.run e.2 (handle node e.1) h).2

variable {r : EnsureRouter} {spec : RouterSpec}

theorem routerSpec_eq_ok (h : routerSpec r = .ok spec) :
    parse r.id = some spec.id ∧ spec.active = r.active ∧ spec.soleGateway = r.soleGateway := by
  unfold routerSpec at h
  split at h
  · cases h
  · rename_i id hid
    cases hnats : readNats id r.nats with
    | error => simp [hnats, Except.map] at h
    | ok =>
      simp only [hnats, Except.map, Except.ok.injEq] at h
      subst h
      exact ⟨hid, rfl, rfl⟩

variable {node : Node} {h : NetHost}

theorem handleEnsureRouter_holds {T : Terms Command NetHost Info}
    {taken : NetHost → Prop} {stop : Fault → NetHost → Prop} (hrefl : ∀ h, T.rely h h)
    (htake : T.Holds world (fun _ => taken) stop (takeBackWithdrawn r) h)
    (hrefuse : ∀ h e, taken h → ∀ h', T.rely h h' → stop e h')
    (hensure : ∀ spec h, routerSpec r = .ok spec → taken h → T.Holds world (fun _ => taken)
      (fun _ => taken) (ensureRouter node.gateway spec) h) :
    T.Holds world (fun _ => taken) stop (handleEnsureRouter node r) h := by
  refine htake.bind hrefl fun _ h1 htaken => ?_
  cases hspec : routerSpec r with
  | error e => exact hrefuse h1 e htaken
  | ok spec =>
    change T.Holds world _ stop (ofExcept (validateRouter node spec.physnet) >>= fun _ =>
      (ensureRouter node.gateway spec).mapError (.building spec.id)) h1
    cases validateRouter node spec.physnet with
    | error e => exact hrefuse h1 e htaken
    | ok _ =>
      refine (hensure spec h1 hspec htaken).mapError fun e h' htaken' => ?_
      exact hrefuse h' _ htaken' h' (hrefl h')

def ReportsSilencing (id : RouterId) (e : Fault) : Prop := ∃ cause, e = .silencing id cause

def ReportsWithdrawal (id : RouterId) (e : Fault) : Prop := ∃ cause, e = .withdrawing id cause

abbrev ReportsTakeBack (r : EnsureRouter) (id : RouterId) (e : Fault) : Prop :=
  ReportsSilencing id e ∨ r.soleGateway = false ∧ ReportsWithdrawal id e

section TakeBack

variable {T : Terms Command NetHost Info} {r : EnsureRouter} {id : RouterId} {h : NetHost}
  (hid : parse r.id = some id) (hrefl : ∀ h, T.rely h h)

/-- One half of the taking back is skipped, or run with its failure kept as a value. -/
theorem half_holds {skip : Prop} [Decidable skip] {m : LinuxNetwork.Act Unit} {f}
    {J : NetHost → Prop} {K stop : Fault → NetHost → Prop}
    (hskip : skip → ∀ h', T.rely h h' → J h')
    (hrun : ¬skip → T.Holds world (fun _ => J) (fun e => K (f e)) m h) :
    T.Holds world (fun result h' => match result with
      | .ok _ => J h'
      | .error e => K e h') stop (if skip then pure () else m.mapError f : Act Unit).attempt h := by
  split
  · exact hskip ‹_›
  · have hmap : T.Holds world (fun _ => J) K (m.mapError f) h :=
      (hrun ‹_›).mapError fun _ _ hk => hk
    exact hmap.attempt (fun _ _ hj => hj) fun _ _ hk => hk

include hid hrefl

theorem takeBackWithdrawn_demotes {K D : NetHost → Prop} (hactive : r.active = false)
    (hwithdraw : T.Holds world (fun _ => K) (fun _ => K)
      (if r.soleGateway then pure () else withdrawSoleGateway id) h)
    (hsilence : ∀ h, K h → T.Holds world (fun _ => D) (fun _ _ => True) (silenceRouter id) h)
    (hD : ∀ h h', T.rely h h' → D h → D h') :
    T.Holds world (fun _ => D) (fun e _ => ReportsTakeBack r id e) (takeBackWithdrawn r) h := by
  rw [takeBackWithdrawn, if_neg (by simp [hactive]), hid]
  refine (half_holds (J := K)
    (K := fun e h' => K h' ∧ r.soleGateway = false ∧ ReportsWithdrawal id e)
    (fun hsole => by rwa [if_pos hsole] at hwithdraw) fun hsole => ?_).bind hrefl
    fun withdrawn h1 hw => ?_
  · rw [if_neg hsole] at hwithdraw
    exact hwithdraw.imp (fun _ _ hk => hk) fun e _ hk => ⟨hk, by simpa using hsole, e, rfl⟩
  have hk : K h1 := by cases withdrawn with | ok => exact hw | error => exact hw.1
  refine (half_holds (J := D) (K := fun e _ => ReportsSilencing id e) (by simp [hactive])
    fun _ => (hsilence h1 hk).imp (fun _ _ hd => hd) fun e _ _ => ⟨e, rfl⟩).bind hrefl
    fun silenced h2 hs => ?_
  cases withdrawn with
  | error => exact fun _ _ => .inr hw.2
  | ok _ =>
    cases silenced with
    | error => exact fun _ _ => .inl hs
    | ok _ => exact fun h' hrely => hD _ _ hrely hs

theorem takeBackWithdrawn_withdraws {K D : NetHost → Prop} (hsole : r.soleGateway = false)
    (hwithdraw : T.Holds world (fun _ => D) (fun _ => K) (withdrawSoleGateway id) h)
    (hsilence : ∀ h, D h → T.Holds world (fun _ => D) (fun _ => D) (silenceRouter id) h)
    (hfailed : ∀ h, K h → T.Holds world (fun _ _ => True) (fun _ _ => True) (silenceRouter id) h)
    (hD : ∀ h h', T.rely h h' → D h → D h') :
    T.Holds world (fun _ => D) (fun e h' => ReportsWithdrawal id e ∨ D h')
      (takeBackWithdrawn r) h := by
  rw [takeBackWithdrawn, if_neg (by simp [hsole]), hid]
  refine (half_holds (J := D) (K := fun e h' => K h' ∧ ReportsWithdrawal id e) (by simp [hsole])
    fun _ => hwithdraw.imp (fun _ _ hd => hd) fun e _ hk => ⟨hk, e, rfl⟩).bind hrefl
    fun withdrawn h1 hw => ?_
  cases withdrawn with
  | error =>
    refine (half_holds (K := fun _ _ => True) (fun _ _ _ => trivial)
      fun _ => hfailed h1 hw.1).bind hrefl ?_
    exact fun _ _ _ _ _ => .inl hw.2
  | ok _ =>
    refine (half_holds (K := fun _ => D) (fun _ h' hrely => hD _ _ hrely hw)
      fun _ => hsilence h1 hw).bind hrefl ?_
    intro silenced h2 hd
    cases silenced with
    | error => exact fun h' hrely => .inr (hD _ _ hrely hd)
    | ok _ => exact fun h' hrely => hD _ _ hrely hd

end TakeBack

section Handled

variable {oracle : Oracle Command Info} (node : Node) {r : EnsureRouter} {id : RouterId}
  {h : NetHost} (hid : parse r.id = some id)

include hid

theorem handleEnsureRouter_silences (hactive : r.active = false) :
    (alone oracle).Holds world (fun _ => Silent (routerNetns id))
      (fun e h' => ReportsTakeBack r id e ∨ Silent (routerNetns id) h')
      (handleEnsureRouter node r) h := by
  have hwithdraw : (if r.soleGateway then pure () else withdrawSoleGateway id : Act Unit).Issues
      Command.mute := by
    split
    · trivial
    · exact withdrawClaim_issues (fun _ hc => hc.mute) (fun _ => trivial) _ _
  have htake : (alone oracle).Holds world (fun _ => Silent (routerNetns id))
      (fun e _ => ReportsTakeBack r id e) (takeBackWithdrawn r) h :=
    takeBackWithdrawn_demotes hid (fun _ => rfl) hactive (mute_alone hwithdraw)
      (fun h _ => silenceRouter_silences id) fun _ _ heq hs => heq ▸ hs
  refine handleEnsureRouter_holds (fun _ => rfl) (htake.imp (fun _ _ hs => hs) fun _ _ => .inl)
    (fun _ _ hs _ heq => .inr (heq ▸ hs)) fun spec h hspec hs => ?_
  exact hs.ensureRouter ((routerSpec_eq_ok hspec).2.1.trans hactive)

variable (hread : ReadsRecord oracle id) (hfiled : WellFiled h)

include hread hfiled

theorem handleEnsureRouter_stands_by (hactive : r.active = false) :
    (filing oracle).Holds world (fun _ => Withdrawn activeClaim id)
      (fun e h' => ReportsTakeBack r id e ∨ Withdrawn activeClaim id h')
      (handleEnsureRouter node r) h := by
  have htake : (filing oracle).Holds world (fun _ => Withdrawn activeClaim id)
      (fun e _ => ReportsTakeBack r id e) (takeBackWithdrawn r) h :=
    takeBackWithdrawn_demotes hid (fun _ => rfl) hactive (filing_holds hfiled)
      (fun h hfiled => (silenceRouter_withdraws hread hfiled).imp (fun _ _ hw => hw)
        fun _ _ _ => trivial) fun _ _ heq hw => heq ▸ hw
  refine handleEnsureRouter_holds (fun _ => rfl) (htake.imp (fun _ _ hw => hw) fun _ _ => .inl)
    (fun _ _ hw _ heq => .inr (heq ▸ hw)) fun spec h hspec hw => ?_
  exact hw.ensureRouter (by simp [claims]) ((routerSpec_eq_ok hspec).2.1.trans hactive)

theorem handleEnsureRouter_withdraws (hsole : r.soleGateway = false) :
    (filing oracle).Holds world (fun _ => Withdrawn soleGatewayClaim id)
      (fun e h' => ReportsWithdrawal id e ∨ Withdrawn soleGatewayClaim id h')
      (handleEnsureRouter node r) h := by
  have hclaim : soleGatewayClaim ∈ claims := by simp [claims]
  have htake : (filing oracle).Holds world (fun _ => Withdrawn soleGatewayClaim id)
      (fun e h' => ReportsWithdrawal id e ∨ Withdrawn soleGatewayClaim id h')
      (takeBackWithdrawn r) h :=
    takeBackWithdrawn_withdraws hid (fun _ => rfl) hsole
      (withdrawClaim_withdraws hclaim hread hfiled) (fun h hw => hw.silenceRouter hclaim)
      (fun h hfiled => (filing_holds hfiled).imp (fun _ _ _ => trivial) fun _ _ _ => trivial)
      fun _ _ heq hw => heq ▸ hw
  refine handleEnsureRouter_holds (fun _ => rfl) htake (fun _ _ hw _ heq => .inr (heq ▸ hw))
    fun spec h hspec hw => ?_
  exact hw.ensureRouter hclaim ((routerSpec_eq_ok hspec).2.2.trans hsole)

end Handled

def Voiced (r : EnsureRouter) (c : Command) (h : NetHost) (netns : String) (l : Leg) : Prop :=
  ∃ spec, routerSpec r = .ok spec ∧ spec.active ∧ netns = routerNetns spec.id ∧
    c = .setArp netns l (arpIgnore true) ∧ h.record spec.id = some spec

def speaking (r : EnsureRouter) : Terms Command NetHost Info where
  may _ _ := True
  rely h h' := h' = h
  guar c h h' := ∀ netns l, h'.Answers netns l → h.Answers netns l ∨ Voiced r c h netns l

theorem voices_speaking (hspec : routerSpec r = .ok spec) :
    Voices (speaking r) spec fun h => spec.active ∧ h.record spec.id = some spec where
  refl _ := rfl
  defaults h _ heq := heq ▸ SameDefaults.refl h
  keeps _ _ heq hV := heq ▸ hV
  quiet _ fate _ hc netns l hans := .inl (shrinks_perform hc fate netns l hans)
  stored hactive info h := ⟨hactive, by simp [effect, NetHost.record_eq_some]⟩
  voiced l fate h hV := by
    refine ⟨fun netns l' hans => ?_, hV.1, ?_⟩
    · refine (answers_setArp hans).imp_right fun heq => ?_
      exact ⟨spec, hspec, hV.1, heq.1, by rw [heq.1, heq.2], hV.2⟩
    · rw [NetHost.record, records_setArp]
      exact hV.2

theorem takeBackWithdrawn_issues {P : Command → Prop}
    (hP : ∀ c : Command, c.harmless → P c) (hdelete : ∀ netns, P (.netnsDelete netns))
    (hset : ∀ netns leg, P (.setArp netns leg (arpIgnore false)))
    (hstore : ∀ spec, P (.storeRecord spec)) : (takeBackWithdrawn r).Issues P := by
  unfold takeBackWithdrawn
  split
  · trivial
  · split
    · trivial
    · refine issues_bind (issues_attempt ?_) fun withdrawn => ?_
      · split
        · trivial
        · exact issues_mapError (withdrawClaim_issues hP hstore _ _)
      · refine issues_bind (issues_attempt ?_) fun _ => issues_ofExcept _
        split
        · trivial
        · exact issues_mapError (silenceRouter_issues hP (hdelete _) (hset _) hstore)

theorem handleEnsureRouter_speaks (node r) (h : NetHost) :
    (speaking r).Holds world (fun _ _ => True) (fun _ _ => True) (handleEnsureRouter node r) h := by
  refine handleEnsureRouter_holds (fun _ => rfl) ?_ (fun _ _ _ _ _ => trivial)
    fun spec h hspec _ => (voices_speaking hspec).ensureRouter_holds
  have hissues : (takeBackWithdrawn r).Issues Command.mute := takeBackWithdrawn_issues
    (fun _ hc => hc.mute) (fun _ => trivial) (fun _ _ => rfl) fun _ => trivial
  refine hissues.holds (fun _ _ _ _ => trivial) (fun c h fate hc _ _ => ⟨?_, trivial⟩) trivial
  exact fun netns l hans => .inl (shrinks_perform (hc.quiet h) fate netns l hans)

theorem handleEnsureRouter_ends (hspec : routerSpec r = .ok spec) :
    (handleEnsureRouter node r).Ends Command.voices (Command.activates (routerNetns spec.id)) := by
  have hissues : (takeBackWithdrawn r).Issues fun c => ¬c.voices := takeBackWithdrawn_issues
    (fun _ hc => hc.not_voices) (fun _ => not_false) (fun _ _ hne => hne rfl) fun _ => not_false
  refine ends_bind hissues fun _ => ?_
  rw [hspec]
  change (ofExcept (validateRouter node spec.physnet) >>= fun _ =>
    (ensureRouter node.gateway spec).mapError (Fault.building spec.id)).Ends _ _
  refine ends_bind (issues_ofExcept _) fun _ => ?_
  exact (ensureRouter_ends node.gateway spec).mapError

theorem handle_mute {q} (hq : ∀ r, q ≠ .ensure r) : (handle node q).Issues Command.mute := by
  have hmute : ∀ c : Command, c.harmless → c.mute := fun _ hc => hc.mute
  cases q with
  | ensure r => exact absurd rfl (hq r)
  | destroy text =>
    change (handleDestroyRouter text).Issues Command.mute
    unfold handleDestroyRouter
    split
    · trivial
    · exact issues_mapError (destroyRouter_issues hmute trivial trivial)
  | start =>
    exact issues_bind (sweepRouters_issues hmute fun _ => trivial) fun _ => trivial
  | lost =>
    refine issues_bind ?_ fun _ => trivial
    exact fallSilent_issues hmute (fun _ _ => rfl) fun _ => trivial

structure TakenBack (r : EnsureRouter) (id : RouterId) (oracle : Oracle Command Info)
    (answer : Except Fault Unit) (h : NetHost) : Prop where
  demoted : r.active = false →
    (∃ e, answer = .error e ∧
      (ReportsSilencing id e ∨ r.soleGateway = false ∧ ReportsWithdrawal id e)) ∨
    Silent (routerNetns id) h ∧
      (ReadsRecord oracle id → ∀ spec, h.record id = some spec → spec.active = false)
  withdrawn : r.soleGateway = false →
    (∃ e, answer = .error e ∧ ReportsWithdrawal id e) ∨
      (ReadsRecord oracle id → ∀ spec, h.record id = some spec → spec.soleGateway = false)

theorem takenBack_of_wellFiled {id} (hfiled : WellFiled h) (hid : parse r.id = some id)
    (oracle) :
    TakenBack r id oracle (world.run oracle (handleEnsureRouter node r) h).1
      (world.run oracle (handleEnsureRouter node r) h).2 where
  demoted hactive := by
    by_cases hreports : ∃ e, (world.run oracle (handleEnsureRouter node r) h).1 = .error e ∧
        (ReportsSilencing id e ∨ r.soleGateway = false ∧ ReportsWithdrawal id e)
    · exact .inl hreports
    · have hsilent := (handleEnsureRouter_silences node hid hactive (h := h)).reported
        (fun _ => rfl) (may_alone oracle)
      refine .inr ⟨hsilent.resolve_left hreports, fun hread => ?_⟩
      have hstandby := (handleEnsureRouter_stands_by node hid hread hfiled hactive).reported
        (fun _ => rfl) (may_filing oracle)
      exact (hstandby.resolve_left hreports).unclaimed
  withdrawn hsole := by
    by_cases hreports : ∃ e, (world.run oracle (handleEnsureRouter node r) h).1 = .error e ∧
        ReportsWithdrawal id e
    · exact .inl hreports
    · refine .inr fun hread => ?_
      have hwithdrawn := (handleEnsureRouter_withdraws node hid hread hfiled hsole).reported
        (fun _ => rfl) (may_filing oracle)
      exact (hwithdrawn.resolve_left hreports).unclaimed

theorem voiced_of_trace {q oracle before after t netns l}
    (htrace : world.trace oracle (handle node q) h = before ++ t :: after)
    (hsilent : ¬t.before.Answers netns l) (hans : t.after.Answers netns l) :
    ∃ r, q = .ensure r ∧ Voiced r t.command t.before netns l ∧
      ∀ t' ∈ after, t'.command.activates netns := by
  have ht : t ∈ world.trace oracle (handle node q) h := by simp [htrace]
  by_cases hq : ∃ r, q = .ensure r
  · obtain ⟨r, rfl⟩ := hq
    obtain hold | hvoiced := (handleEnsureRouter_speaks node r h).trace (fun _ => rfl)
      (fun _ _ => trivial) t ht netns l hans
    · exact absurd hold hsilent
    · refine ⟨r, rfl, hvoiced, ?_⟩
      obtain ⟨spec, hspec, -, rfl, hcommand, -⟩ := hvoiced
      refine (handleEnsureRouter_ends hspec).trace htrace ?_
      rw [hcommand]
      exact voices_setArp _ l
  · have hshrinks := (mute_alone (handle_mute fun r hr => hq ⟨r, hr⟩)).trace (fun _ => rfl)
      (may_alone oracle) t ht
    exact absurd (hshrinks netns l hans) hsilent

theorem wellFiled_run {h' es} (hfiled : WellFiled h) (hrun : (agent node).run h es = some h') :
    WellFiled h' := by
  refine Machine.always (fun {s e s'} hfiled hstep => ?_) hfiled hrun
  cases hstep
  exact (filing_holds hfiled).final (fun _ => rfl) (may_filing e.2)

/-- After every history of a node whose records are filed: a command has taken back what it
withdraws or reports why not, as far as the record could be read, and a leg that does not answer
starts to only in the last step of an active command whose record was stored. -/
theorem withdrawn_stays_withdrawn {node : Node} {h0 h : NetHost}
    {es : List (Request × Oracle Command Info)} (hfiled : WellFiled h0)
    (hrun : (agent node).run h0 es = some h) :
    (∀ r id oracle, parse r.id = some id →
      TakenBack r id oracle (world.run oracle (handleEnsureRouter node r) h).1
        (world.run oracle (handleEnsureRouter node r) h).2) ∧
    ∀ q oracle before t after, world.trace oracle (handle node q) h = before ++ t :: after →
      ∀ netns l, ¬t.before.Answers netns l → t.after.Answers netns l →
        ∃ r, q = .ensure r ∧ Voiced r t.command t.before netns l ∧
          ∀ t' ∈ after, t'.command.activates netns :=
  ⟨fun _ _ oracle hid => takenBack_of_wellFiled (wellFiled_run hfiled hrun) hid oracle,
    fun _ _ _ _ _ htrace _ _ => voiced_of_trace htrace⟩

def edgeNode : Node := ⟨["ext"], oneSlot⟩

def edgeCommand (active soleGateway : Bool) (nats : List NatMessage) : EnsureRouter where
  id := toString edge.id
  physnet := edge.physnet
  externalAddr := edge.externalAddr
  externalGateway := edge.externalGateway
  vni := edge.vxlanId
  internalAddr := edge.internalAddr
  nats := nats
  active := active
  soleGateway := soleGateway

theorem wellFiled_built (spec) : WellFiled (built spec) := by
  intro stem spec' hfile
  by_cases hstem : stem = toString spec.id
  · subst hstem
    rw [built, AList.lookup_insert, some.injEq, some.injEq] at hfile
    rw [hfile]
  · rw [built, AList.lookup_insert_ne hstem] at hfile
    cases hfile

theorem withdrawn_stays_withdrawn_edge :
    WellFiled (built edge) ∧ ∃ h,
      (agent edgeNode).run (built edge) [(.start, failing none)] = some h ∧
        TakenBack (edgeCommand false false []) edge.id (failing (some 3))
          (world.run (failing (some 3))
            (handleEnsureRouter edgeNode (edgeCommand false false [])) h).1
          (world.run (failing (some 3))
            (handleEnsureRouter edgeNode (edgeCommand false false [])) h).2 :=
  have hrun : (agent edgeNode).run (built edge) [(.start, failing none)] = some _ := rfl
  ⟨wellFiled_built edge, _, hrun, (withdrawn_stays_withdrawn (wellFiled_built edge) hrun).1
    (edgeCommand false false []) edge.id (failing (some 3)) (by decide +kernel)⟩

def building : Oracle Command Info := fun k _ =>
  ⟨true, false, ⟨0, if k = 8 ∨ k = 14 then none else some 1, none, "vx10000", some []⟩⟩

def refusing (refuses : Command → Bool) : Oracle Command Info := fun _ c =>
  ⟨!refuses c, false, ⟨0, some 1, none, "vx10000", some []⟩⟩

def stuck : Command → Bool
  | .setArp _ _ _ => true
  | .storeRecord _ => true
  | _ => false

def unread : Command → Bool
  | .readRecord _ => true
  | _ => false

/-- A router is built, active and the sole gateway. A command that takes back both reports the
record and not the legs, which answer; one whose record could not be read, and which is refused,
reports neither, and both claims stay. -/
theorem first_failure_is_the_answer :
    ∃ h, (agent edgeNode).run ⟨∅, ∅⟩ [(.ensure (edgeCommand true true []), building)] = some h ∧
      ((world.run (refusing stuck) (handleEnsureRouter edgeNode (edgeCommand false false [])) h).1 =
          .error (.withdrawing edge.id (.failed (.storeRecord edge))) ∧
        (world.run (refusing stuck)
          (handleEnsureRouter edgeNode (edgeCommand false false [])) h).2.Answers
            (routerNetns edge.id) .external) ∧
      (world.run (refusing unread)
          (handleEnsureRouter edgeNode (edgeCommand false false [⟨"nat64", "", ""⟩])) h).1 =
        .error (.natKind edge.id "nat64") ∧
      (world.run (refusing unread) (handleEnsureRouter edgeNode
          (edgeCommand false false [⟨"nat64", "", ""⟩])) h).2.record edge.id =
        some { edge with soleGateway := true } :=
  ⟨_, rfl, by decide +kernel⟩

end MeisterStack.Agent.RouterCommands
