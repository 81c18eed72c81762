import MeisterStack.LinuxNetwork.Router

/-!
# The commands of a pass

Which commands each part of the driver can give, whatever its commands answer. What is said of a
part is said for any property of commands that those have which leave the host alone.
-/

namespace MeisterStack.LinuxNetwork

open Foundation
open Script (ask must attempt each tryEach)
open Script (issues_ask issues_attempt issues_bind issues_each issues_must issues_ofExcept
  issues_sift issues_tryEach)

def Command.harmless : Command → Prop
  | .netnsList => True
  | .linkShow _ => True
  | .arpMode _ _ => True
  | .recordFiles => True
  | .readRecord _ => True
  | .linkIndex _ => True
  | .linkMtu _ => True
  | .ensureOverlay _ => True
  | .enslave _ _ => True
  | .hostIpv6Off _ => True
  | .addrShow _ _ => True
  | .nft _ _ => True
  | .ip _ => True
  | _ => False

theorem Command.harmless.effect {c} (hc : c.harmless) (info) (h : Host) :
    LinuxNetwork.effect c info h = h := by
  cases c <;> first | rfl | exact hc.elim

theorem perform_harmless {c} (hc : c.harmless) (fate) (h : Host) : (world.perform c fate h).2 = h :=
  (world.perform_keeps fate rfl fun _ => (hc.effect fate.info h).symm).symm

section

variable {P : Command → Prop} {c : Command} {netns : String}

theorem need_issues (hc : P c) : (need c).Issues P := issues_must hc

theorem need_unit_issues (hc : P c) : (do let _ ← need c : Act Unit).Issues P :=
  issues_bind (need_issues hc) fun _ => trivial

theorem again_issues (hc : P c) : (again c).Issues P :=
  issues_bind (issues_ask hc) fun _ => trivial

theorem setArpMode_issues {legs active} (hset : ∀ leg, P (.setArp netns leg (arpIgnore active))) :
    (setArpMode netns legs active).Issues P :=
  issues_tryEach fun leg _ => need_unit_issues (hset leg)

variable (hP : ∀ c : Command, c.harmless → P c)

include hP

theorem netnsPresent_issues : netnsPresent.Issues P :=
  issues_bind (need_issues (hP _ trivial)) fun _ => trivial

theorem clearDeadNetns_issues (hdelete : P (.netnsDelete netns)) :
    (clearDeadNetns netns).Issues P := by
  refine issues_bind (issues_ask (hP _ trivial)) fun links => ?_
  split
  · trivial
  · refine issues_bind (issues_attempt (netnsPresent_issues hP)) fun live => ?_
    split
    · split
      · exact again_issues hdelete
      · trivial
    · trivial

theorem silenceLegs_issues (hset : ∀ leg, P (.setArp netns leg (arpIgnore false))) :
    (silenceLegs netns).Issues P :=
  issues_bind (need_issues (hP _ trivial)) fun _ => setArpMode_issues hset

theorem withdrawClaim_issues (hstore : ∀ spec, P (.storeRecord spec)) (id claim) :
    (withdrawClaim id claim).Issues P := by
  refine issues_bind (issues_ask (hP _ trivial)) fun file => ?_
  split
  · split
    · exact need_unit_issues (hstore _)
    · trivial
  · trivial

theorem recordNotSoleGateway_issues (hstore : ∀ spec, P (.storeRecord spec)) (spec) :
    (recordNotSoleGateway spec).Issues P := by
  unfold recordNotSoleGateway
  split
  · trivial
  · exact withdrawClaim_issues hP hstore _ _

variable {id : RouterId}

theorem silenceNetnsAndRecord_issues (live)
    (hset : ∀ leg, P (.setArp (routerNetns id) leg (arpIgnore false)))
    (hstore : ∀ spec, P (.storeRecord spec)) : (silenceNetnsAndRecord id live).Issues P := by
  refine issues_bind (issues_attempt ?_) fun kernel => ?_
  · split
    · trivial
    · exact silenceLegs_issues hP hset
  · have hrecord := withdrawClaim_issues hP hstore id activeClaim
    exact issues_bind (issues_attempt hrecord) fun _ => issues_ofExcept _

theorem silenceRouter_issues (hdelete : P (.netnsDelete (routerNetns id)))
    (hset : ∀ leg, P (.setArp (routerNetns id) leg (arpIgnore false)))
    (hstore : ∀ spec, P (.storeRecord spec)) : (silenceRouter id).Issues P := by
  refine issues_bind (clearDeadNetns_issues hP hdelete) fun _ => ?_
  refine issues_bind (issues_attempt (netnsPresent_issues hP)) fun live => ?_
  refine issues_bind (silenceNetnsAndRecord_issues hP _ hset hstore) fun _ => ?_
  exact issues_bind (issues_ofExcept _) fun _ => trivial

theorem routersNobodyTakesOver_issues (files) : (routersNobodyTakesOver files).Issues P := by
  induction files with
  | nil => trivial
  | cons stem files ih =>
    rw [routersNobodyTakesOver]
    split
    · exact ih
    · refine issues_bind (issues_ask (hP _ trivial)) fun file => ?_
      exact issues_bind ih fun kept => trivial

theorem silenceAll_issues {live records} (kept)
    (hrouter : ∀ id leg, P (.setArp (routerNetns id) leg (arpIgnore false)))
    (hunnamed : ∀ netns ∈ live.toOption.getD [], (netnsRouterId netns).isNone →
      ∀ leg, P (.setArp netns leg (arpIgnore false))) (hstore : ∀ spec, P (.storeRecord spec)) :
    (silenceAll live records kept).Issues P := by
  refine issues_bind (issues_sift fun id _ =>
    silenceNetnsAndRecord_issues hP _ (hrouter id) hstore) fun outcomes => ?_
  have hrest : (silenceUnnamed (silencingTargets (records.toOption.getD [])
      (live.toOption.getD [])).2).Issues P := by
    refine issues_bind (issues_sift fun netns hnetns => ?_) fun outcomes => by
      split <;> trivial
    obtain ⟨hlisted, hname⟩ := List.mem_filter.mp hnetns
    exact silenceLegs_issues hP (hunnamed netns hlisted hname)
  refine issues_bind (issues_attempt hrest) fun unnamed => ?_
  refine issues_bind (issues_ofExcept _) fun _ => ?_
  refine issues_bind (issues_ofExcept _) fun _ => ?_
  exact issues_bind (issues_ofExcept _) fun _ => trivial

theorem fallSilent_issues (hset : ∀ netns leg, P (.setArp netns leg (arpIgnore false)))
    (hstore : ∀ spec, P (.storeRecord spec)) : fallSilent.Issues P := by
  refine issues_bind (issues_attempt (netnsPresent_issues hP)) fun live => ?_
  refine issues_bind (issues_attempt (need_issues (hP _ trivial))) fun records => ?_
  refine issues_bind (routersNobodyTakesOver_issues hP _) fun kept => ?_
  exact silenceAll_issues hP _ (fun id => hset _) (fun netns _ _ => hset netns) hstore

variable {leg : Leg}

theorem legAddressesPresent_issues : (legAddressesPresent netns leg).Issues P := by
  refine issues_bind (need_issues (hP _ trivial)) fun addresses => ?_
  split <;> trivial

theorem removeStale_issues (wanted present) : (removeStale netns leg wanted present).Issues P := by
  unfold removeStale
  split
  · trivial
  · refine issues_bind (issues_each fun _ _ => again_issues (hP _ trivial)) fun _ => ?_
    refine issues_bind (legAddressesPresent_issues hP) fun left => ?_
    split <;> trivial

theorem convergeLegAddresses_issues (wanted) :
    (convergeLegAddresses netns leg wanted).Issues P := by
  refine issues_bind (legAddressesPresent_issues hP) fun present => ?_
  refine issues_bind (removeStale_issues hP _ _) fun _ => ?_
  exact issues_each fun _ _ => need_unit_issues (hP _ trivial)

variable {g : Gateway}

theorem netnsIpv6Off_issues : (netnsIpv6Off g netns).Issues P := by
  unfold netnsIpv6Off
  split
  · exact issues_each fun _ _ => need_unit_issues (hP _ trivial)
  · trivial

theorem ensureNetns_issues (hadd : P (.netnsAdd netns))
    (hdefault : P (.setDefaultArp netns (arpIgnore false))) : (ensureNetns g netns).Issues P := by
  refine issues_bind (again_issues hadd) fun _ => ?_
  refine issues_bind (again_issues (hP _ trivial)) fun _ => ?_
  refine issues_bind (netnsIpv6Off_issues hP) fun _ => ?_
  exact need_unit_issues hdefault

theorem hostIpv6Off_issues {link} : (hostIpv6Off g link).Issues P := by
  unfold hostIpv6Off
  split
  · exact need_unit_issues (hP _ trivial)
  · trivial

theorem setMtu_issues {host} (mtu) : (setMtu host netns leg mtu).Issues P := by
  cases mtu with
  | none => trivial
  | some =>
    exact issues_bind (again_issues (hP _ trivial)) fun _ => again_issues (hP _ trivial)

theorem ensureLeg_issues {host bridge mtu} (hveth : P (.addVeth host leg netns)) :
    (ensureLeg g netns host bridge leg mtu).Issues P := by
  refine issues_bind (need_issues (hP _ trivial)) fun found => ?_
  lift_lets
  extract_lets wire
  have hwire : (wire ()).Issues P := by
    refine issues_bind (need_issues (hP _ trivial)) fun index => ?_
    split
    · trivial
    · refine issues_bind (hostIpv6Off_issues hP) fun _ => ?_
      refine issues_bind (need_issues (hP _ trivial)) fun controller => ?_
      split
      · trivial
      · refine issues_bind (need_issues (hP _ trivial)) fun _ => ?_
        refine issues_bind (setMtu_issues hP mtu) fun _ => ?_
        exact need_unit_issues (hP _ trivial)
  split
  · exact issues_bind (need_issues hveth) fun _ => hwire
  · exact hwire

variable {rules : String} {spec : RouterSpec}

theorem rulesetIsCurrent_issues : (rulesetIsCurrent g netns rules spec).Issues P := by
  refine issues_bind (issues_ask (hP _ trivial)) fun file => ?_
  split
  · split
    · exact issues_bind (issues_ask (hP _ trivial)) fun _ => trivial
    · trivial
  · trivial

theorem someLegSilent_issues (legs) : (someLegSilent netns legs).Issues P := by
  induction legs with
  | nil => trivial
  | cons leg legs ih =>
    refine issues_bind (issues_ask (hP _ trivial)) fun mode => ?_
    split
    · exact ih
    · trivial

theorem announceGarp_issues : (announceGarp g netns spec).Issues P :=
  issues_each fun _ _ => again_issues (hP _ trivial)

theorem activate_issues {recordedActive} (hset : ∀ leg, P (.setArp netns leg (arpIgnore true))) :
    (activate g netns spec recordedActive).Issues P := by
  unfold activate
  lift_lets
  extract_lets answer
  have hanswer : ∀ wasSilent, (answer wasSilent).Issues P := by
    intro wasSilent
    refine issues_bind (setArpMode_issues hset) fun _ => ?_
    split
    · exact announceGarp_issues hP
    · trivial
  split
  · exact issues_bind (someLegSilent_issues hP _) hanswer
  · exact hanswer true

theorem ensureWiring_issues {interface bridge}
    (hveth : ∀ host leg, P (.addVeth host leg (routerNetns spec.id)))
    (hset : spec.active = false → ∀ leg, P (.setArp (routerNetns spec.id) leg (arpIgnore false))) :
    (ensureWiring g spec interface bridge rules).Issues P := by
  refine issues_bind (need_issues (hP _ trivial)) fun mtu => ?_
  refine issues_bind (ensureLeg_issues hP (hveth _ _)) fun _ => ?_
  refine issues_bind (ensureLeg_issues hP (hveth _ _)) fun _ => ?_
  lift_lets
  extract_lets address
  have haddress : (address ()).Issues P := by
    refine issues_bind (issues_ofExcept _) fun wanted => ?_
    refine issues_bind (issues_each fun _ _ => convergeLegAddresses_issues hP _) fun _ => ?_
    refine issues_bind (need_issues (hP _ trivial)) fun _ => ?_
    refine issues_bind (issues_each fun _ _ => again_issues (hP _ trivial)) fun _ => ?_
    refine issues_bind (need_issues (hP _ trivial)) fun _ => ?_
    refine issues_bind (rulesetIsCurrent_issues hP) fun current => ?_
    split
    · exact need_unit_issues (hP _ trivial)
    · trivial
  split
  · rename_i hactive
    exact issues_bind (setArpMode_issues (hset (by simpa using hactive))) fun _ => haddress
  · exact haddress

theorem buildRouter_issues {interface} (hadd : P (.netnsAdd (routerNetns spec.id)))
    (hdefault : P (.setDefaultArp (routerNetns spec.id) (arpIgnore false)))
    (hveth : ∀ host leg, P (.addVeth host leg (routerNetns spec.id)))
    (hset : ∀ leg, P (.setArp (routerNetns spec.id) leg (arpIgnore spec.active)))
    (hstore : P (.storeRecord spec)) : (buildRouter g spec interface rules).Issues P := by
  refine issues_bind (issues_ask (hP _ trivial)) fun recorded => ?_
  refine issues_bind (need_issues (hP _ trivial)) fun bridge => ?_
  refine issues_bind (ensureNetns_issues hP hadd hdefault) fun _ => ?_
  refine issues_bind (ensureWiring_issues hP hveth fun hactive => hactive ▸ hset) fun _ => ?_
  refine issues_bind (need_issues hstore) fun _ => ?_
  split
  · rename_i hactive
    refine issues_bind (activate_issues hP ?_) fun _ => again_issues (hP _ trivial)
    exact fun leg => hactive ▸ hset leg
  · exact again_issues (hP _ trivial)

theorem removeLink_issues (link) : (removeLink link).Issues P := by
  refine issues_bind (need_issues (hP _ trivial)) fun found => ?_
  split
  · exact again_issues (hP _ trivial)
  · trivial

theorem destroyRouter_issues (hdelete : P (.netnsDelete (routerNetns id)))
    (hremove : P (.removeRecord (toString id))) : (destroyRouter id).Issues P := by
  refine issues_bind (again_issues hdelete) fun _ => ?_
  refine issues_bind (netnsPresent_issues hP) fun live => ?_
  split
  · trivial
  · refine issues_bind (removeLink_issues hP _) fun _ => ?_
    refine issues_bind (removeLink_issues hP _) fun _ => ?_
    exact again_issues hremove

theorem sweepEach_issues (hdelete : ∀ netns, P (.netnsDelete netns)) (live) :
    (sweepEach live).Issues P := by
  induction live with
  | nil => trivial
  | cons netns live ih =>
    have horphan : (isOrphan netns).Issues P := by
      unfold isOrphan
      split
      · trivial
      · exact issues_bind (issues_ask (hP _ trivial)) fun _ => trivial
    refine issues_bind horphan fun orphan => ?_
    split
    · refine issues_bind (again_issues (hdelete netns)) fun _ => ?_
      refine issues_bind (netnsPresent_issues hP) fun live => ?_
      exact issues_bind ih fun _ => trivial
    · exact ih

theorem sweepRouters_issues (hdelete : ∀ netns, P (.netnsDelete netns)) : sweepRouters.Issues P :=
  issues_bind (netnsPresent_issues hP) fun live => sweepEach_issues hP hdelete live

end

end MeisterStack.LinuxNetwork
