import Mathlib.Data.List.Lex
import Mathlib.Order.Fin.Basic
import MeisterStack.Common.NetText
import MeisterStack.Foundation.Script
import MeisterStack.Foundation.Uuid
import Mathlib.Data.List.AList
import Mathlib.Data.List.Sort

/-!
# Routers

A router is a namespace with two legs, and a record file that says what it was built as. The
driver works on both through commands, any of which may fail, whether or not it took effect.
-/

namespace MeisterStack.LinuxNetwork

open Foundation Script String Option Text
open Common (Ipv4Addr)
open Script (ask must attempt each tryEach)

abbrev RouterId := Uuid

inductive NatKind where
  | snat
  | dnatAndSnat
  deriving DecidableEq

structure NatRule where
  kind : NatKind
  externalIp : String
  logicalIp : String
  deriving DecidableEq

structure RouterSpec where
  id : RouterId
  physnet : String
  externalAddr : String
  externalGateway : String
  vxlanId : Nat
  internalAddr : String
  nats : List NatRule
  routedSubnets : List String
  active : Bool
  soleGateway : Bool
  deriving DecidableEq

inductive Leg where
  | external
  | internal
  deriving DecidableEq

def Leg.name : Leg → String
  | .external => "ext"
  | .internal => "int"

def routerLegs : List Leg := [.external, .internal]

def netnsPrefix : String := "meister-rt-"

def routerNetns (id : RouterId) : String := netnsPrefix ++ toString id

def providerBridge (physnet : String) : String := "meister-px-" ++ physnet

def routerKey (id : RouterId) : String := ofList ((id.digits.map hexChar).take 8)

def vethExternal (id : RouterId) : String := "rtx" ++ routerKey id

def vethInternal (id : RouterId) : String := "rti" ++ routerKey id

def startsWith (start text : String) : Bool := start.toList.isPrefixOf text.toList

def netnsRouterId (netns : String) : Option RouterId :=
  (netns.toList.dropPrefix? netnsPrefix.toList).bind fun text => Uuid.read text

def inOrder (ids : List RouterId) : List RouterId :=
  (ids.insertionSort fun a b => a.digits ≤ b.digits).dedup

def arpIgnore (active : Bool) : Nat := if active then 0 else 8

abbrev LegAddress := Ipv4Addr × Nat

def addressOf (cidr : List Char) : List Char :=
  match splitOnce '/' (trim cidr) with
  | some (addr, _) => addr
  | none => trim cidr

def parseLegAddress (raw : List Char) : Option LegAddress :=
  let raw := trim raw
  let (address, len) := (splitOnce '/' raw).getD (raw, ['3', '2'])
  ((unsigned 256 len).filter (· ≤ 32)).bind fun len =>
    (Ipv4Addr.fromStr address).map (·, len)

def legAddressArg (address : LegAddress) : String := s!"{address.1.display}/{address.2}"

def addressChanges (present wanted : List LegAddress) : List LegAddress × List LegAddress :=
  (present.filter (· ∉ wanted), wanted.filter (· ∉ present))

inductive Command where
  | netnsList
  | netnsAdd (netns : String)
  | netnsDelete (netns : String)
  | linkShow (netns : String)
  | arpMode (netns : String) (leg : Leg)
  | setArp (netns : String) (leg : Leg) (mode : Nat)
  | setDefaultArp (netns : String) (mode : Nat)
  | addVeth (host : String) (leg : Leg) (netns : String)
  | recordFiles
  | readRecord (stem : String)
  | storeRecord (spec : RouterSpec)
  | removeRecord (stem : String)
  | linkIndex (link : String)
  | linkMtu (link : String)
  | ensureOverlay (vni : Nat)
  | enslave (index controller : Nat)
  | hostIpv6Off (link : String)
  | addrShow (netns : String) (leg : Leg)
  | nft (netns : String) (script : String)
  | ip (args : List String)
  deriving DecidableEq

inductive RecordFile where
  | record (spec : RouterSpec)
  | invalid
  | missing
  deriving DecidableEq

abbrev Reply : Command → Type
  | .netnsList => List String
  | .linkShow _ => List Leg
  | .arpMode _ _ => Nat
  | .recordFiles => List String
  | .readRecord _ => RecordFile
  | .linkIndex _ => Option Nat
  | .linkMtu _ => Option Nat
  | .ensureOverlay _ => String
  | .addrShow _ _ => Option (List LegAddress)
  | _ => Unit

structure Netns where
  defaultArp : Nat
  external : Option Nat
  internal : Option Nat

namespace Netns

def leg (n : Netns) : Leg → Option Nat
  | .external => n.external
  | .internal => n.internal

def setLeg (n : Netns) (leg : Leg) (mode : Nat) : Netns :=
  match leg with
  | .external => { n with external := some mode }
  | .internal => { n with internal := some mode }

def legs (n : Netns) : List Leg := routerLegs.filter fun leg => (n.leg leg).isSome

end Netns

structure Host where
  netns : AList fun _ : String => Netns
  records : AList fun _ : String => Option RouterSpec

namespace Host

variable (h : Host)

def leg (netns : String) (leg : Leg) : Option Nat := (h.netns.lookup netns).bind (·.leg leg)

def Answers (netns : String) (leg : Leg) : Prop := ∃ mode ∈ h.leg netns leg, mode ≠ arpIgnore false

instance (netns leg) : Decidable (h.Answers netns leg) :=
  inferInstanceAs (Decidable (∃ mode ∈ h.leg netns leg, mode ≠ arpIgnore false))

def record (id : RouterId) : Option RouterSpec := (h.records.lookup (toString id)).join

def modify (netns : String) (f : Netns → Netns) : Host :=
  match h.netns.lookup netns with
  | some n => { h with netns := h.netns.insert netns (f n) }
  | none => h

end Host

structure Info where
  fresh : Nat
  index : Option Nat
  mtu : Option Nat
  bridge : String
  addresses : Option (List LegAddress)

def possible : Command → Host → Bool
  | .netnsAdd netns, h => (h.netns.lookup netns).isNone
  | .netnsDelete netns, h => (h.netns.lookup netns).isSome
  | .linkShow netns, h => (h.netns.lookup netns).isSome
  | .arpMode netns leg, h => (h.leg netns leg).isSome
  | .setArp netns leg _, h => (h.leg netns leg).isSome
  | .setDefaultArp netns _, h => (h.netns.lookup netns).isSome
  | .addVeth _ leg netns, h => (h.netns.lookup netns).isSome && (h.leg netns leg).isNone
  | _, _ => true

def effect : Command → Info → Host → Host
  | .netnsAdd netns, info, h => { h with netns := h.netns.insert netns ⟨info.fresh, none, none⟩ }
  | .netnsDelete netns, _, h => { h with netns := h.netns.erase netns }
  | .setArp netns leg mode, _, h => h.modify netns fun n => n.setLeg leg mode
  | .setDefaultArp netns mode, _, h => h.modify netns fun n => { n with defaultArp := mode }
  | .addVeth _ leg netns, _, h => h.modify netns fun n => n.setLeg leg n.defaultArp
  | .storeRecord spec, _, h => { h with records := h.records.insert (toString spec.id) (some spec) }
  | .removeRecord stem, _, h => { h with records := h.records.erase stem }
  | _, _, h => h

def readFile (h : Host) (stem : String) : RecordFile :=
  match h.records.lookup stem with
  | none => .missing
  | some none => .invalid
  | some (some spec) => .record spec

def answer : (c : Command) → Info → Host → Reply c
  | .netnsList, _, h => h.netns.keys
  | .linkShow netns, _, h => ((h.netns.lookup netns).map Netns.legs).getD []
  | .arpMode netns leg, _, h => (h.leg netns leg).getD 0
  | .recordFiles, _, h => h.records.keys
  | .readRecord stem, _, h => readFile h stem
  | .linkIndex _, info, _ => info.index
  | .linkMtu _, info, _ => info.mtu
  | .ensureOverlay _, info, _ => info.bridge
  | .addrShow _ _, info, _ => info.addresses
  | .netnsAdd _, _, _ => ()
  | .netnsDelete _, _, _ => ()
  | .setArp _ _ _, _, _ => ()
  | .setDefaultArp _ _, _, _ => ()
  | .addVeth _ _ _, _, _ => ()
  | .storeRecord _, _, _ => ()
  | .removeRecord _, _, _ => ()
  | .enslave _ _, _, _ => ()
  | .hostIpv6Off _, _, _ => ()
  | .nft _ _, _, _ => ()
  | .ip _, _, _ => ()

def world : Realm Command Reply Host Info := ⟨possible, effect, answer⟩

inductive Fault where
  | failed (c : Command)
  | noGatewaySlot (physnet : String) (given : List String)
  | ruleAddress
  | routerAddress (raw : String)
  | unreadableAddress (netns : String) (leg : Leg)
  | stillCarries (netns : String) (leg : Leg) (addresses : List LegAddress)
  | vanished (link : String)
  | bridgeNotFound (bridge : String)
  | stillListed (netns : String)
  | unnamed (netns : List String)
  | routerId (text : String)
  | natKind (id : RouterId) (kind : String)
  | withdrawing (id : RouterId) (cause : Fault)
  | silencing (id : RouterId) (cause : Fault)
  | building (id : RouterId) (cause : Fault)
  | removing (id : RouterId) (cause : Fault)
  deriving DecidableEq

abbrev Act (α : Type) := Script Command Reply Fault α

def need (c : Command) : Act (Reply c) := must (.failed c) c

def again (c : Command) : Act Unit := do
  let _ ← ask c

def readRecord (stem : String) : Act (Option RecordFile) :=
  ask (Command.readRecord stem)

def firstWord (line : String) : Option String :=
  let word := (line.toList.dropWhile isWhiteSpace).takeWhile fun c => !isWhiteSpace c
  if word = [] then none else some (ofList word)

def listedNetns (lines : List String) : List String :=
  (lines.filterMap firstWord).filter (startsWith netnsPrefix)

def netnsPresent : Act (List String) := do
  let lines ← need .netnsList
  pure (listedNetns lines)

def clearDeadNetns (netns : String) : Act Unit := do
  match ← ask (.linkShow netns) with
  | some _ => pure ()
  | none =>
    match ← netnsPresent.attempt with
    | .ok live => if netns ∈ live then again (.netnsDelete netns)
    | .error _ => pure ()

def setArpMode (netns : String) (legs : List Leg) (active : Bool) : Act Unit :=
  tryEach (fun leg => do let _ ← need (.setArp netns leg (arpIgnore active))) legs

def silenceLegs (netns : String) : Act Unit := do
  let legs ← need (.linkShow netns)
  setArpMode netns legs false

structure Claim where
  made : RouterSpec → Bool
  withdrawn : RouterSpec → RouterSpec

def activeClaim : Claim := ⟨(·.active), fun spec => { spec with active := false }⟩

def soleGatewayClaim : Claim := ⟨(·.soleGateway), fun spec => { spec with soleGateway := false }⟩

def withdrawClaim (id : RouterId) (claim : Claim) : Act Unit := do
  match ← readRecord (toString id) with
  | some (.record spec) =>
    if claim.made spec then do
      let _ ← need (.storeRecord (claim.withdrawn spec))
  | _ => pure ()

def recordStandby (id : RouterId) : Act Unit := withdrawClaim id activeClaim

def recordNotSoleGateway (spec : RouterSpec) : Act Unit :=
  if spec.soleGateway then pure () else withdrawClaim spec.id soleGatewayClaim

def withdrawSoleGateway (id : RouterId) : Act Unit := withdrawClaim id soleGatewayClaim

def silenceNetnsAndRecord (id : RouterId) (live : Option (List String)) : Act Unit := do
  let kernel ← (if live.any (routerNetns id ∉ ·) then pure ()
    else silenceLegs (routerNetns id) : Act Unit).attempt
  let record ← (recordStandby id).attempt
  ofExcept (both kernel record)

def silenceRouter (id : RouterId) : Act Unit := do
  clearDeadNetns (routerNetns id)
  let live ← netnsPresent.attempt
  silenceNetnsAndRecord id live.toOption
  let _ ← ofExcept live

structure Silencing where
  silenced : List RouterId
  failed : List RouterId
  kept : List RouterId
  deriving DecidableEq

def Silencing.complete (s : Silencing) : Bool := s.failed.isEmpty

def silencingTargets (records live : List String) : List RouterId × List String :=
  (inOrder (records.filterMap Uuid.parse ++ live.filterMap netnsRouterId),
    live.filter fun netns => (netnsRouterId netns).isNone)

def keepsAnswering : RecordFile → Bool
  | .record spec => spec.active && spec.soleGateway
  | _ => false

def routersNobodyTakesOver : List String → Act (List RouterId)
  | [] => pure []
  | stem :: rest =>
    match Uuid.parse stem with
    | none => routersNobodyTakesOver rest
    | some id => do
        let file ← readRecord stem
        let kept ← routersNobodyTakesOver rest
        pure (if file.any keepsAnswering then id :: kept else kept)

def silenceEach (live : Option (List String)) (ids : List RouterId) :
    Act (List RouterId × List RouterId) := sift (silenceNetnsAndRecord · live) ids

def silenceUnnamed (unnamed : List String) : Act Unit := do
  let outcomes ← sift silenceLegs unnamed
  if outcomes.2 = [] then pure () else .fail (.unnamed outcomes.2)

def silenceAll (live records : Except Fault (List String)) (kept : List RouterId) :
    Act Silencing := do
  let targets := silencingTargets (records.toOption.getD []) (live.toOption.getD [])
  let outcomes ← silenceEach live.toOption (targets.1.filter (· ∉ kept))
  let unnamed ← (silenceUnnamed targets.2).attempt
  let _ ← ofExcept live
  let _ ← ofExcept records
  ofExcept unnamed
  pure ⟨outcomes.1, outcomes.2, kept⟩

def fallSilent : Act Silencing := do
  let live ← netnsPresent.attempt
  let records ← (need .recordFiles).attempt
  let kept ← routersNobodyTakesOver (records.toOption.getD [])
  silenceAll live records (inOrder kept)

structure Gateway where
  physnets : List (String × String)
  ruleset : RouterSpec → Option String
  hasIpv6 : Bool
  vxlanMtu : Option Nat
  arping : String
  nft : String

variable (g : Gateway)

def Gateway.interface (physnet : String) : Option String :=
  (g.physnets.find? fun p => p.1 = physnet).map (·.2)

def floatingAddresses (spec : RouterSpec) : List (List Char) :=
  (spec.nats.filter fun nat => nat.kind = .dnatAndSnat).map fun nat =>
    addressOf nat.externalIp.toList

def wantedFloating (external : List LegAddress) :
    List (List Char) → Except Fault (List LegAddress)
  | [] => .ok external
  | raw :: rest =>
    match parseLegAddress raw with
    | none => .error (.routerAddress (ofList raw))
    | some (address, _) =>
      wantedFloating
        (if (address, 32) ∈ external then external else external ++ [(address, 32)]) rest

def wantedLegAddresses (spec : RouterSpec) : Except Fault (List (Leg × List LegAddress)) := do
  let parse (raw : String) : Except Fault LegAddress :=
    match parseLegAddress raw.toList with
    | some address => .ok address
    | none => .error (.routerAddress raw)
  let external ← parse spec.externalAddr
  let external ← wantedFloating [external] (floatingAddresses spec)
  let internal ← parse spec.internalAddr
  pure [(.external, external), (.internal, [internal])]

def legAddressesPresent (netns : String) (leg : Leg) : Act (List LegAddress) := do
  match ← need (.addrShow netns leg) with
  | some addresses => pure addresses
  | none => .fail (.unreadableAddress netns leg)

def addressCommand (what : String) (netns : String) (leg : Leg) (address : LegAddress) : Command :=
  .ip ["-n", netns, "addr", what, legAddressArg address, "dev", leg.name]

def removeStale (netns : String) (leg : Leg) (wanted present : List LegAddress) :
    Act (List LegAddress) :=
  match (addressChanges present wanted).1 with
  | [] => pure present
  | stale => do
      each (fun address => again (addressCommand "del" netns leg address)) stale
      let present ← legAddressesPresent netns leg
      match (addressChanges present wanted).1 with
      | [] => pure present
      | left => .fail (.stillCarries netns leg left)

def convergeLegAddresses (netns : String) (leg : Leg) (wanted : List LegAddress) : Act Unit := do
  let present ← legAddressesPresent netns leg
  let present ← removeStale netns leg wanted present
  each (fun address => do let _ ← need (addressCommand "add" netns leg address))
    (addressChanges present wanted).2

def netnsSysctl (netns : String) (setting : String) : Command :=
  .ip ["netns", "exec", netns, "sysctl", "-q", "-w", setting]

def netnsIpv6Off (netns : String) : Act Unit :=
  if g.hasIpv6 then
    each (fun scope => do
      let _ ← need (netnsSysctl netns s!"net.ipv6.conf.{scope}.disable_ipv6=1")) ["default", "all"]
  else pure ()

def hostIpv6Off (link : String) : Act Unit :=
  if g.hasIpv6 then do
    let _ ← need (.hostIpv6Off link)
  else pure ()

def setMtu (host netns : String) (leg : Leg) : Option Nat → Act Unit
  | none => pure ()
  | some mtu => do
      again (.ip ["link", "set", host, "mtu", toString mtu])
      again (.ip ["-n", netns, "link", "set", leg.name, "mtu", toString mtu])

def ensureLeg (netns host bridge : String) (leg : Leg) (mtu : Option Nat) :
    Act Unit := do
  if (← need (.linkIndex host)).isNone then
    let _ ← need (.addVeth host leg netns)
  match ← need (.linkIndex host) with
  | none => .fail (.vanished host)
  | some index => do
      hostIpv6Off g host
      match ← need (.linkIndex bridge) with
      | none => .fail (.bridgeNotFound bridge)
      | some controller => do
          let _ ← need (.enslave index controller)
          setMtu host netns leg mtu
          let _ ← need (.ip ["-n", netns, "link", "set", leg.name, "up"])

def rulesetIsCurrent (netns rules : String) (spec : RouterSpec) : Act Bool := do
  match ← readRecord (toString spec.id) with
  | some (.record recorded) =>
    if g.ruleset recorded = some rules then do
      let listed ← ask (.ip ["netns", "exec", netns, g.nft, "list", "table", "ip", "meister-rt"])
      pure listed.isSome
    else pure false
  | _ => pure false

def someLegSilent (netns : String) : List Leg → Act Bool
  | [] => pure false
  | leg :: rest => do
      let mode ← ask (.arpMode netns leg)
      if mode = some (arpIgnore true) then someLegSilent netns rest else pure true

def garpAddresses (spec : RouterSpec) : List String :=
  let addresses := addressOf spec.externalAddr.toList :: floatingAddresses spec
  (addresses.map ofList).destutter (· ≠ ·)

def announceGarp (netns : String) (spec : RouterSpec) : Act Unit :=
  each (fun address => again (.ip ["netns", "exec", netns, g.arping, "-U", "-c", "3", "-w", "1",
    "-I", Leg.external.name, address])) (garpAddresses spec)

def activate (netns : String) (spec : RouterSpec) (recordedActive : Bool) :
    Act Unit := do
  let wasSilent ← if recordedActive then someLegSilent netns routerLegs else pure true
  setArpMode netns routerLegs true
  if wasSilent then announceGarp g netns spec

def ensureNetns (netns : String) : Act Unit := do
  again (.netnsAdd netns)
  again (.ip ["-n", netns, "link", "set", "lo", "up"])
  netnsIpv6Off g netns
  let _ ← need (.setDefaultArp netns (arpIgnore false))

def ensureWiring (spec : RouterSpec) (interface bridge rules : String) :
    Act Unit := do
  let netns := routerNetns spec.id
  let providerMtu ← need (.linkMtu interface)
  ensureLeg g netns (vethExternal spec.id) (providerBridge spec.physnet) .external providerMtu
  ensureLeg g netns (vethInternal spec.id) bridge .internal g.vxlanMtu
  if !spec.active then setArpMode netns routerLegs false
  let wanted ← ofExcept (wantedLegAddresses spec)
  each (fun (leg, addresses) => convergeLegAddresses netns leg addresses) wanted
  let _ ← need (.ip ["-n", netns, "route", "replace", "default", "via", spec.externalGateway,
    "dev", Leg.external.name])
  each (fun subnet => again (.ip ["-n", netns, "route", "replace", subnet, "dev",
    Leg.internal.name, "scope", "link"])) spec.routedSubnets
  let _ ← need (netnsSysctl netns "net.ipv4.ip_forward=1")
  if !(← rulesetIsCurrent g netns rules spec) then
    let _ ← need (.nft netns rules)

def recordSaysActive : Option RecordFile → Bool
  | some (.record spec) => spec.active
  | _ => false

def buildRouter (spec : RouterSpec) (interface rules : String) : Act Unit := do
  let netns := routerNetns spec.id
  let recorded ← readRecord (toString spec.id)
  let bridge ← need (.ensureOverlay spec.vxlanId)
  ensureNetns g netns
  ensureWiring g spec interface bridge rules
  -- the record states that the namespace beside it is finished
  let _ ← need (.storeRecord spec)
  if spec.active then activate g netns spec (recordSaysActive recorded)
  again (.linkShow netns)

def ensureClaimed (spec : RouterSpec) : Act Unit := do
  recordNotSoleGateway spec
  match g.interface spec.physnet, g.ruleset spec with
  | none, _ => .fail (.noGatewaySlot spec.physnet (g.physnets.map (·.1)))
  | some _, none => .fail .ruleAddress
  | some interface, some rules => buildRouter g spec interface rules

def ensureRouter (spec : RouterSpec) : Act Unit := do
  if spec.active then clearDeadNetns (routerNetns spec.id) else silenceRouter spec.id
  ensureClaimed g spec

def removeLink (link : String) : Act Unit := do
  if (← need (.linkIndex link)).isSome then again (.ip ["link", "del", link])

def destroyRouter (id : RouterId) : Act Unit := do
  let netns := routerNetns id
  again (.netnsDelete netns)
  if netns ∈ (← netnsPresent) then .fail (.stillListed netns)
  else do
    removeLink (vethExternal id)
    removeLink (vethInternal id)
    again (.removeRecord (toString id))

def isOrphan (netns : String) : Act Bool :=
  match netnsRouterId netns with
  | none => pure true
  | some id => do pure ((← readRecord (toString id)) = some .missing)

def sweepEach : List String → Act (List String)
  | [] => pure []
  | netns :: rest => do
      if ← isOrphan netns then do
        again (.netnsDelete netns)
        let live ← netnsPresent
        let swept ← sweepEach rest
        pure (if netns ∈ live then swept else netns :: swept)
      else sweepEach rest

def sweepRouters : Act (List String) := do sweepEach (← netnsPresent)

@[simp] theorem Netns.leg_setLeg (n : Netns) (leg leg' mode) :
    (n.setLeg leg mode).leg leg' = if leg' = leg then some mode else n.leg leg' := by
  cases leg <;> cases leg' <;> rfl

namespace Host

variable (h : Host) (netns netns' : String) (l : Leg)

theorem leg_insert (n) :
    ({ h with netns := h.netns.insert netns n } : Host).leg netns' l =
      if netns' = netns then n.leg l else h.leg netns' l := by
  simp only [Host.leg]
  split_ifs with heq
  · subst heq
    simp
  · rw [AList.lookup_insert_ne heq]

theorem leg_erase :
    ({ h with netns := h.netns.erase netns } : Host).leg netns' l =
      if netns' = netns then none else h.leg netns' l := by
  simp only [Host.leg]
  split_ifs with heq
  · subst heq
    simp
  · rw [AList.lookup_erase_ne heq]

theorem leg_modify (f : Netns → Netns) :
    (h.modify netns f).leg netns' l =
      if netns' = netns then (h.netns.lookup netns).bind fun n => (f n).leg l
      else h.leg netns' l := by
  unfold modify
  cases hlookup : h.netns.lookup netns with
  | some => simp [leg_insert]
  | none =>
    split_ifs with heq
    · subst heq
      simp [Host.leg, hlookup]
    · rfl

theorem mem_leg_setLeg {h : Host} {netns netns'} {l l'} {f : Netns → Nat}
    {mode} (hmode : mode ∈ (h.modify netns' fun n => n.setLeg l' (f n)).leg netns l) :
    mode ∈ h.leg netns l ∨
      netns = netns' ∧ l = l' ∧ ∃ n, h.netns.lookup netns = some n ∧ f n = mode := by
  rw [leg_modify] at hmode
  split at hmode
  next heq =>
    subst heq
    simp only [Netns.leg_setLeg, mem_def, bind_eq_some_iff] at hmode
    obtain ⟨n, hn, hleg⟩ := hmode
    split at hleg
    next hl => exact .inr ⟨rfl, hl, n, hn, by simpa using hleg⟩
    next => exact .inl (by simp [Host.leg, hn, hleg])
  next => exact .inl hmode

end Host

variable {c : Command} {h : Host} {netns : String} {l : Leg}

theorem answers_effect {info} (hans : (effect c info h).Answers netns l) :
    h.Answers netns l ∨ (∃ mode, c = .setArp netns l mode ∧ mode ≠ arpIgnore false) ∨
      ∃ host n, c = .addVeth host l netns ∧ h.netns.lookup netns = some n ∧
        n.defaultArp ≠ arpIgnore false := by
  obtain ⟨mode, hmode, hne⟩ := hans
  cases c with
  | netnsAdd =>
    simp only [effect, Host.leg_insert] at hmode
    split_ifs at hmode with heq
    · cases l <;> cases hmode
    · exact .inl ⟨mode, hmode, hne⟩
  | netnsDelete =>
    simp only [effect, Host.leg_erase] at hmode
    split_ifs at hmode with heq
    · cases hmode
    · exact .inl ⟨mode, hmode, hne⟩
  | setArp netns' l' mode' =>
    obtain hmode | ⟨rfl, rfl, n, -, rfl⟩ := Host.mem_leg_setLeg hmode
    · exact .inl ⟨mode, hmode, hne⟩
    · exact .inr (.inl ⟨mode', rfl, hne⟩)
  | setDefaultArp =>
    simp only [effect, Host.leg_modify] at hmode
    split_ifs at hmode with heq
    · subst heq
      refine .inl ⟨mode, ?_, hne⟩
      cases l <;> exact hmode
    · exact .inl ⟨mode, hmode, hne⟩
  | addVeth host =>
    obtain hmode | ⟨rfl, rfl, n, hn, rfl⟩ := Host.mem_leg_setLeg hmode
    · exact .inl ⟨mode, hmode, hne⟩
    · exact .inr (.inr ⟨host, n, rfl, hn, hne⟩)
  | _ => exact .inl ⟨mode, hmode, hne⟩

theorem answers_lost (info) (hpossible : possible c h) (hans : h.Answers netns l) :
    c = .netnsDelete netns ∨ c = .setArp netns l (arpIgnore false) ∨
      (effect c info h).Answers netns l := by
  obtain ⟨mode, hmode, hne⟩ := hans
  simp only [Host.leg, mem_def, bind_eq_some_iff] at hmode
  obtain ⟨n, hn, hleg⟩ := hmode
  have hold : mode ∈ h.leg netns l := by simp [Host.leg, hn, hleg]
  cases c with
  | netnsAdd =>
    refine .inr (.inr ⟨mode, ?_, hne⟩)
    rw [effect, Host.leg_insert, if_neg]
    · exact hold
    · rintro rfl
      simp [possible, hn] at hpossible
  | netnsDelete netns' =>
    by_cases heq : netns = netns'
    · exact .inl (by rw [heq])
    · exact .inr (.inr ⟨mode, by rw [effect, Host.leg_erase, if_neg heq]; exact hold, hne⟩)
  | setArp netns' l' mode' =>
    by_cases heq : netns = netns' ∧ l = l'
    · obtain ⟨rfl, rfl⟩ := heq
      by_cases hmode' : mode' = arpIgnore false
      · exact .inr (.inl (by rw [hmode']))
      · exact .inr (.inr ⟨mode', by simp [effect, Host.leg_modify, hn], hmode'⟩)
    · refine .inr (.inr ⟨mode, ?_, hne⟩)
      rw [effect, Host.leg_modify]
      split_ifs with hnetns
      · subst hnetns
        simp [hn, hleg, show l ≠ l' from fun hl => heq ⟨rfl, hl⟩]
      · exact hold
  | setDefaultArp =>
    refine .inr (.inr ⟨mode, ?_, hne⟩)
    rw [effect, Host.leg_modify]
    split_ifs with hnetns
    · subst hnetns
      cases l <;> simpa [hn, Netns.leg] using hleg
    · exact hold
  | addVeth host l' =>
    refine .inr (.inr ⟨mode, ?_, hne⟩)
    rw [effect, Host.leg_modify]
    split_ifs with hnetns
    · subst hnetns
      have hl : l ≠ l' := by
        rintro rfl
        simp [possible, Host.leg, hn, hleg] at hpossible
      simp [hn, hleg, hl]
    · exact hold
  | _ => exact .inr (.inr ⟨mode, hold, hne⟩)

theorem answers_perform (hdelete : c ≠ .netnsDelete netns)
    (hset : c ≠ .setArp netns l (arpIgnore false)) (fate) (hans : h.Answers netns l) :
    (world.perform c fate h).2.Answers netns l := by
  let keeps (h h' : Host) : Prop := h.Answers netns l → h'.Answers netns l
  suffices hkeeps : keeps h (world.perform c fate h).2 from hkeeps hans
  refine world.perform_keeps fate (fun hans => hans) fun hpossible hans => ?_
  obtain heq | heq | hkept := answers_lost fate.info hpossible hans
  · exact absurd heq hdelete
  · exact absurd heq hset
  · exact hkept

def Shrinks (h h' : Host) : Prop := ∀ netns l, h'.Answers netns l → h.Answers netns l

theorem Shrinks.refl (h : Host) : Shrinks h h := fun _ _ hans => hans

theorem Shrinks.trans {h1 h2 h3} (h : Shrinks h1 h2) (h' : Shrinks h2 h3) :
    Shrinks h1 h3 := fun netns l hans => h netns l (h' netns l hans)

def Command.quiet : Command → Host → Prop
  | .setArp _ _ mode, _ => mode = arpIgnore false
  | .addVeth _ _ netns, h => ∀ n ∈ h.netns.lookup netns, n.defaultArp = arpIgnore false
  | _, _ => True

theorem shrinks_perform (hc : c.quiet h) (fate) : Shrinks h (world.perform c fate h).2 := by
  refine world.perform_keeps fate (Shrinks.refl h) fun _ netns l hans => ?_
  obtain hans | ⟨mode, rfl, hne⟩ | ⟨host, n, rfl, hn, hne⟩ := answers_effect hans
  · exact hans
  · exact absurd hc hne
  · exact absurd (hc n hn) hne

theorem answers_setArp {netns' l' mode fate}
    (hans : (world.perform (.setArp netns l mode) fate h).2.Answers netns' l') :
    h.Answers netns' l' ∨ netns' = netns ∧ l' = l := by
  let keeps (h h' : Host) : Prop := h'.Answers netns' l' → h.Answers netns' l' ∨
    netns' = netns ∧ l' = l
  suffices hkeeps : keeps h (world.perform (.setArp netns l mode) fate h).2 from hkeeps hans
  refine world.perform_keeps fate .inl fun _ hans => ?_
  obtain hans | ⟨_, heq, -⟩ | ⟨_, _, heq, -⟩ := answers_effect hans
  · exact .inl hans
  · cases heq
    exact .inr ⟨rfl, rfl⟩
  · cases heq

end MeisterStack.LinuxNetwork
