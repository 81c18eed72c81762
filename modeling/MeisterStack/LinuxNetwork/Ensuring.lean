import MeisterStack.LinuxNetwork.Silencing

/-!
# Building a router again

A pass over an active router takes the voice of no leg and deletes no namespace, with one
exception: a namespace that is listed and could not be looked into counts as dead, and one look is
enough.
-/

namespace MeisterStack.LinuxNetwork

open Foundation Realm

def Command.keepsVoice : Command → Prop
  | .netnsDelete _ => False
  | .setArp _ _ mode => mode = arpIgnore true
  | _ => True

theorem Command.harmless.keepsVoice {c : Command} (h : c.harmless) : c.keepsVoice := by
  cases c <;> first | exact h.elim | trivial

def Answering (netns : String) (h : Host) : Prop := ∀ l, h.Answers netns l

theorem answering_perform {c h netns} (hc : c.keepsVoice) (fate) (hans : Answering netns h) :
    Answering netns (world.perform c fate h).2 := by
  refine fun l => answers_perform ?_ ?_ fate (hans l)
  · rintro rfl
    exact hc
  · rintro rfl
    cases hc

section

variable {g : Gateway} {spec : RouterSpec} {h : Host} {oracle : Oracle Command Info}

theorem ensureClaimed_keepsVoice (hactive : spec.active) :
    (ensureClaimed g spec).Issues Command.keepsVoice := by
  have hP : ∀ c : Command, c.harmless → c.keepsVoice := fun _ hc => hc.keepsVoice
  refine Script.issues_bind (recordNotSoleGateway_issues hP (fun _ => trivial) spec) fun _ => ?_
  split
  · trivial
  · trivial
  · exact buildRouter_issues hP trivial trivial (fun _ _ => trivial) (fun _ => by rw [hactive]; rfl)
      trivial

def steady (netns : String) : Terms Command Host Info where
  may _ _ := True
  rely h h' := h' = h
  guar _ _ h' := Answering netns h'

theorem trace_ensureClaimed (hactive : spec.active) (hans : Answering (routerNetns spec.id) h)
    (oracle) :
    ∀ t ∈ world.trace oracle (ensureClaimed g spec) h, Answering (routerNetns spec.id) t.after := by
  have hholds : (steady (routerNetns spec.id)).Holds world
      (fun _ => Answering (routerNetns spec.id)) (fun _ => Answering (routerNetns spec.id))
      (ensureClaimed g spec) h := by
    refine (ensureClaimed_keepsVoice hactive).holds (fun _ _ heq hans => heq ▸ hans) ?_ hans
    intro c h' fate hc _ hans
    exact ⟨answering_perform hc fate hans, answering_perform hc fate hans⟩
  exact hholds.trace (fun _ => rfl) fun _ _ => trivial

def TakenForDead (oracle : Oracle Command Info) (netns : String) : Prop :=
  (oracle 0 (.linkShow netns)).ok = false ∧ (oracle 1 .netnsList).ok ∧
    ((oracle 2 (.netnsDelete netns)).ok ∨ (oracle 2 (.netnsDelete netns)).landed)

instance (oracle netns) : Decidable (TakenForDead oracle netns) :=
  inferInstanceAs (Decidable (_ ∧ _ ∧ _))

theorem trace_clearDeadNetns {netns} (hlisted : netns ∈ listedNetns h.netns.keys) {n}
    (hn : h.netns.lookup netns = some n) (f : Unit → Act Unit) :
    world.trace oracle (clearDeadNetns netns >>= f) h =
      ⟨.linkShow netns, h, h⟩ ::
        if (oracle 0 (.linkShow netns)).ok then world.trace (fun k => oracle (k + 1)) (f ()) h
        else ⟨.netnsList, h, h⟩ ::
          if (oracle 1 .netnsList).ok then
            ⟨.netnsDelete netns, h, (world.perform (.netnsDelete netns)
              (oracle 2 (.netnsDelete netns)) h).2⟩ ::
              world.trace (fun k => oracle (k + 3)) (f ())
                (world.perform (.netnsDelete netns) (oracle 2 (.netnsDelete netns)) h).2
          else world.trace (fun k => oracle (k + 2)) (f ()) h := by
  have hlook : world.perform (.linkShow netns) (oracle 0 (.linkShow netns)) h =
      (if (oracle 0 (.linkShow netns)).ok then some n.legs else none, h) := by
    cases hok : (oracle 0 (.linkShow netns)).ok <;>
      simp [perform, world, possible, effect, answer, hn, hok]
  have hlist : world.perform .netnsList (oracle 1 .netnsList) h =
      (if (oracle 1 .netnsList).ok then some h.netns.keys else none, h) := by
    cases hok : (oracle 1 .netnsList).ok <;>
      simp [perform, world, possible, effect, answer, hok]
  simp only [clearDeadNetns, netnsPresent, need, again, bind, pure, Script.bind, Script.ask,
    Script.must, trace, hlook]
  refine congrArg _ ?_
  cases (oracle 0 (.linkShow netns)).ok with
  | true => rfl
  | false =>
    simp only [Bool.false_eq_true, if_false, Script.bind, Script.attempt, trace,
      Nat.zero_add, hlist]
    refine congrArg _ ?_
    cases (oracle 1 .netnsList).ok with
    | false => rfl
    | true => simp [Script.attempt, Script.bind, hlisted, trace]

theorem answering_netnsDelete {netns} (hans : Answering netns h) (fate) :
    Answering netns (world.perform (.netnsDelete netns) fate h).2 ↔ ¬(fate.ok ∨ fate.landed) := by
  obtain ⟨n, hn, -⟩ := (hans .external).lookup
  have hgone : ¬Answering netns (effect (.netnsDelete netns) fate.info h) := by
    intro hstill
    obtain ⟨mode, hmode, -⟩ := hstill .external
    simp [effect, Host.leg_erase] at hmode
  cases hok : fate.ok <;> cases hlanded : fate.landed <;>
    simp [perform, world, possible, hn, hok, hlanded, hgone, hans]

/-- A pass over a router whose legs answer leaves them answering throughout, exactly unless it
takes the namespace for dead. -/
theorem ensure_router_never_cuts (hactive : spec.active)
    (hans : Answering (routerNetns spec.id) h) :
    (∀ t ∈ world.trace oracle (ensureRouter g spec) h, Answering (routerNetns spec.id) t.after) ↔
      ¬TakenForDead oracle (routerNetns spec.id) := by
  have hpass : ensureRouter g spec =
      clearDeadNetns (routerNetns spec.id) >>= fun _ => ensureClaimed g spec := by
    simp only [ensureRouter, hactive, if_true]
  obtain ⟨n, hn, -⟩ := (hans .external).lookup
  have hlisted := lists_listedNetns h (routerNetns spec.id) .external (hans .external)
    (startsWith_routerNetns spec.id) (plain_routerNetns spec.id).word
  rw [hpass, trace_clearDeadNetns hlisted hn]
  have hrest := fun oracle => trace_ensureClaimed (g := g) hactive hans oracle
  cases hlook : (oracle 0 (.linkShow (routerNetns spec.id))).ok with
  | true => simpa [TakenForDead, hlook, hans] using hrest _
  | false =>
    cases hlist : (oracle 1 .netnsList).ok with
    | false => simpa [TakenForDead, hlook, hlist, hans] using hrest _
    | true =>
      have hdelete := answering_netnsDelete hans (oracle 2 (.netnsDelete (routerNetns spec.id)))
      simp only [TakenForDead, hlook, hlist, Bool.false_eq_true, if_false, if_true,
        List.forall_mem_cons, hans, true_and, ← hdelete]
      exact ⟨And.left, fun hkept => ⟨hkept, trace_ensureClaimed hactive hkept _⟩⟩

end

def edge : RouterSpec where
  id := ⟨List.replicate 32 ⟨10, by decide⟩, rfl⟩
  physnet := "ext"
  externalAddr := "203.0.113.10/24"
  externalGateway := "203.0.113.1"
  vxlanId := 10000
  internalAddr := "10.7.1.1/24"
  nats := []
  routedSubnets := []
  active := true
  soleGateway := false

def oneSlot : Gateway where
  physnets := [("ext", "eth1")]
  ruleset _ := some ""
  hasIpv6 := false
  vxlanMtu := none
  arping := "arping"
  nft := "nft"

def built (spec : RouterSpec) : Host :=
  ⟨AList.insert (routerNetns spec.id) ⟨8, some 0, some 0⟩ ∅,
    AList.insert (toString spec.id) (some spec) ∅⟩

def failing (number : Option Nat) : Oracle Command Info := fun k _ =>
  ⟨number ≠ some k, false, ⟨0, some 1, none, "vx10000", some []⟩⟩

theorem built_answering (spec) : Answering (routerNetns spec.id) (built spec) := by
  intro l
  refine ⟨0, ?_, by decide⟩
  rw [Host.leg, built, AList.lookup_insert]
  cases l <;> rfl

theorem ensure_router_never_cuts_edge :
    (built edge).record edge.id = some edge ∧ ¬TakenForDead (failing none) (routerNetns edge.id) ∧
      ∀ t ∈ world.trace (failing none) (ensureRouter oneSlot edge) (built edge),
        Answering (routerNetns edge.id) t.after :=
  have hlooked : ¬TakenForDead (failing none) (routerNetns edge.id) := by decide +kernel
  ⟨by decide +kernel, hlooked, (ensure_router_never_cuts rfl (built_answering edge)).mpr hlooked⟩

/-- One look that fails costs the router its namespace, and the pass that follows it. -/
theorem failed_look_cuts :
    edge.active ∧ (built edge).record edge.id = some edge ∧
      (built edge).Answers (routerNetns edge.id) .external ∧
      (built edge).Answers (routerNetns edge.id) .internal ∧
      ∃ t ∈ world.trace (failing (some 0)) (ensureRouter oneSlot edge) (built edge),
        t.command = .netnsDelete (routerNetns edge.id) ∧
          ¬t.after.Answers (routerNetns edge.id) .external ∧
          ¬t.after.Answers (routerNetns edge.id) .internal := by
  decide +kernel

end MeisterStack.LinuxNetwork
