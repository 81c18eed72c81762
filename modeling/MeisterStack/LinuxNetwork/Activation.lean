import MeisterStack.LinuxNetwork.Ensuring

/-!
# Who starts to answer

A leg is made with the default mode of its namespace, and a pass makes that silent before it makes a
leg. So a leg starts to answer only where its mode is set to answer.
-/

namespace MeisterStack.LinuxNetwork

open Foundation Script Command Option

def SameDefaults (h h' : Host) : Prop :=
  ∀ netns, (h'.netns.lookup netns).map Netns.defaultArp =
    (h.netns.lookup netns).map Netns.defaultArp

def BornSilent (netns : String) (h : Host) : Prop :=
  ∀ n ∈ h.netns.lookup netns, n.defaultArp = arpIgnore false

theorem SameDefaults.refl (h : Host) : SameDefaults h h := fun _ => rfl

theorem SameDefaults.trans {h1 h2 h3} (h : SameDefaults h1 h2) (h' : SameDefaults h2 h3) :
    SameDefaults h1 h3 := fun netns => (h' netns).trans (h netns)

variable {netns : String}

theorem BornSilent.mono {h h'} (hborn : BornSilent netns h) (hsame : SameDefaults h h') :
    BornSilent netns h' := by
  intro n hn
  have hdefault := hsame netns
  rw [mem_def.mp hn, map_some, eq_comm, map_eq_some_iff] at hdefault
  obtain ⟨n', hn', heq⟩ := hdefault
  rw [← heq]
  exact hborn n' hn'

def Command.keepsDefaults : Command → Prop
  | .netnsAdd _ => False
  | .netnsDelete _ => False
  | .setDefaultArp _ _ => False
  | _ => True

theorem sameDefaults_modify (h : Host) (netns) {f} (hf : ∀ n, (f n).defaultArp = n.defaultArp) :
    SameDefaults h (h.modify netns f) := by
  intro netns'
  unfold Host.modify
  split
  · rename_i n hn
    by_cases heq : netns' = netns
    · subst heq
      simp [hn, hf]
    · rw [AList.lookup_insert_ne heq]
  · rfl

theorem Netns.defaultArp_setLeg (n : Netns) (leg mode) :
    (n.setLeg leg mode).defaultArp = n.defaultArp := by
  cases leg <;> rfl

variable {c : Command}

theorem sameDefaults_perform (hc : c.keepsDefaults) (fate) (h : Host) :
    SameDefaults h (world.perform c fate h).2 := by
  refine world.perform_keeps fate (SameDefaults.refl h) fun _ => ?_
  cases c with
  | netnsAdd | netnsDelete | setDefaultArp => exact hc.elim
  | setArp netns | addVeth host leg netns =>
    exact sameDefaults_modify h netns fun n => n.defaultArp_setLeg _ _
  | _ => exact SameDefaults.refl h

def Command.mute : Command → Prop
  | .setArp _ _ mode => mode = arpIgnore false
  | .addVeth _ _ _ => False
  | _ => True

theorem Command.harmless.mute (h : c.harmless) : c.mute := by
  cases c <;> first | exact h.elim | trivial

theorem Command.mute.quiet (h : c.mute) (host) : c.quiet host := by
  cases c <;> first | exact h.elim | exact h

def Command.wires (netns : String) : Command → Prop
  | .addVeth _ _ netns' => netns' = netns
  | .setArp _ _ mode => mode = arpIgnore false
  | c => c.harmless

theorem Command.harmless.wires (h : c.harmless) : c.wires netns := by
  cases c <;> first | exact h.elim | exact h

theorem Command.wires.quiet {h} (hc : c.wires netns) (hborn : BornSilent netns h) : c.quiet h := by
  cases c with
  | addVeth => exact hc ▸ hborn
  | setArp => exact hc
  | _ => trivial

theorem Command.wires.keepsDefaults (hc : c.wires netns) : c.keepsDefaults := by
  cases c <;> first | exact hc.elim | trivial

def Command.activates (netns : String) : Command → Prop
  | .setArp netns' _ mode => netns' = netns ∧ mode = arpIgnore true
  | c => c.harmless

theorem Command.harmless.activates (h : c.harmless) : c.activates netns := by
  cases c <;> first | exact h.elim | exact h

structure Voices (T : Terms Command Host Info) (spec : RouterSpec) (V : Host → Prop) : Prop where
  refl : ∀ h, T.rely h h
  defaults : ∀ h h', T.rely h h' → SameDefaults h h'
  keeps : ∀ h h', T.rely h h' → V h → V h'
  quiet : ∀ c fate h, c.quiet h → T.guar c h (world.perform c fate h).2
  stored : spec.active → ∀ info h, V (effect (.storeRecord spec) info h)
  voiced : ∀ l fate h, V h →
    T.guar (.setArp (routerNetns spec.id) l (arpIgnore true)) h
      (world.perform (.setArp (routerNetns spec.id) l (arpIgnore true)) fate h).2 ∧
    V (world.perform (.setArp (routerNetns spec.id) l (arpIgnore true)) fate h).2

namespace Voices

variable {T : Terms Command Host Info} {spec : RouterSpec} {V : Host → Prop} {α : Type} {m : Act α}
  {h : Host} (hT : Voices T spec V)

include hT

theorem mute_holds (hm : m.Issues mute) :
    T.Holds world (fun _ _ => True) (fun _ _ => True) m h := by
  refine hm.holds (fun _ _ _ _ => trivial) (fun c h fate hc _ _ => ?_) trivial
  exact ⟨hT.quiet c fate h (hc.quiet h), trivial⟩

theorem setDefaultArp_holds :
    T.Holds world (fun _ h' => BornSilent (routerNetns spec.id) h') (fun _ _ => True)
      (need (.setDefaultArp (routerNetns spec.id) (arpIgnore false))) h := by
  refine Terms.holds_must fun h1 _ fate _ => ⟨hT.quiet _ fate h1 trivial, fun h2 hrely => ?_⟩
  obtain ⟨r, -, -, -, hp⟩ | ⟨-, -, -, hp⟩ | ⟨-, hp⟩ := world.perform_cases
    (.setDefaultArp (routerNetns spec.id) (arpIgnore false)) fate h1
  · rw [hp] at hrely ⊢
    refine ⟨fun _ _ => BornSilent.mono ?_ (hT.defaults _ _ hrely), by simp⟩
    intro n hn
    simp only [world, effect, Host.modify] at hn
    split at hn
    · rw [AList.lookup_insert, mem_some_iff] at hn
      rw [← hn]
    · rename_i hnone
      rw [hnone] at hn
      cases hn
  · simp [hp]
  · simp [hp]

theorem wiring_holds (hm : m.Issues (wires (routerNetns spec.id)))
    (hborn : BornSilent (routerNetns spec.id) h) :
    T.Holds world (fun _ _ => True) (fun _ _ => True) m h := by
  have hkeeps : T.Holds world (fun _ => BornSilent (routerNetns spec.id))
      (fun _ => BornSilent (routerNetns spec.id)) m h := by
    refine hm.holds (fun h h' hrely hborn => hborn.mono (hT.defaults h h' hrely)) ?_ hborn
    exact fun c h fate hc _ hborn => ⟨hT.quiet c fate h (hc.quiet hborn),
      hborn.mono (sameDefaults_perform hc.keepsDefaults fate h)⟩
  exact hkeeps.imp (fun _ _ _ => trivial) fun _ _ _ => trivial

theorem storeRecord_holds :
    T.Holds world (fun _ h' => spec.active → V h') (fun _ _ => True)
      (need (.storeRecord spec)) h := by
  refine Terms.holds_must fun h1 _ fate _ => ⟨hT.quiet _ fate h1 trivial, fun h2 hrely => ?_⟩
  obtain ⟨r, -, -, -, hp⟩ | ⟨-, -, -, hp⟩ | ⟨-, hp⟩ := world.perform_cases
    (.storeRecord spec) fate h1
  · rw [hp] at hrely ⊢
    exact ⟨fun _ _ hactive => hT.keeps _ _ hrely (hT.stored hactive fate.info h1), by simp⟩
  · simp [hp]
  · simp [hp]

theorem activation_holds (hm : m.Issues (activates (routerNetns spec.id))) (hV : V h) :
    T.Holds world (fun _ _ => True) (fun _ _ => True) m h := by
  have hkeeps : T.Holds world (fun _ => V) (fun _ => V) m h := by
    refine hm.holds hT.keeps (fun c h fate hc _ hV => ?_) hV
    by_cases hharmless : c.harmless
    · refine ⟨hT.quiet c fate h (hharmless.mute.quiet h), ?_⟩
      rw [perform_harmless hharmless]
      exact hV
    · cases c with
      | setArp netns l =>
        obtain ⟨rfl, rfl⟩ := hc
        exact hT.voiced l fate h hV
      | _ => exact absurd hc hharmless
  exact hkeeps.imp (fun _ _ _ => trivial) fun _ _ _ => trivial

variable {g : Gateway}

theorem ensureNetns_holds :
    T.Holds world (fun _ h' => BornSilent (routerNetns spec.id) h') (fun _ _ => True)
      (ensureNetns g (routerNetns spec.id)) h := by
  have hadd : (again (.netnsAdd (routerNetns spec.id))).Issues mute := again_issues trivial
  refine (hT.mute_holds hadd).bind hT.refl fun _ h1 _ => ?_
  refine (hT.mute_holds (by exact again_issues trivial)).bind hT.refl fun _ h2 _ => ?_
  refine (hT.mute_holds (netnsIpv6Off_issues fun _ hc => hc.mute)).bind hT.refl fun _ h3 _ => ?_
  refine hT.setDefaultArp_holds.bind hT.refl fun _ h4 hborn h5 hrely => ?_
  exact hborn.mono (hT.defaults _ _ hrely)

theorem buildRouter_holds {interface rules} :
    T.Holds world (fun _ _ => True) (fun _ _ => True) (buildRouter g spec interface rules) h := by
  have hread : (readRecord (toString spec.id)).Issues mute := issues_ask trivial
  refine (hT.mute_holds hread).bind hT.refl fun recorded h1 _ => ?_
  have hbridge : (need (.ensureOverlay spec.vxlanId)).Issues mute := need_issues trivial
  refine (hT.mute_holds hbridge).bind hT.refl fun bridge h2 _ => ?_
  refine hT.ensureNetns_holds.bind hT.refl fun _ h3 hborn => ?_
  have hwires : (ensureWiring g spec interface bridge rules).Issues
      (wires (routerNetns spec.id)) :=
    ensureWiring_issues (fun _ hc => hc.wires) (fun _ _ => rfl) fun _ _ => rfl
  refine (hT.wiring_holds hwires hborn).bind hT.refl fun _ h4 _ => ?_
  refine hT.storeRecord_holds.bind hT.refl fun _ h5 hV => ?_
  have hlook : (again (.linkShow (routerNetns spec.id))).Issues mute := again_issues trivial
  split
  · rename_i hactive
    refine (hT.activation_holds ?_ (hV hactive)).bind hT.refl fun _ h6 _ => hT.mute_holds hlook
    exact activate_issues (fun _ hc => hc.activates) fun _ => ⟨rfl, rfl⟩
  · exact hT.mute_holds hlook

theorem ensureRouter_holds :
    T.Holds world (fun _ _ => True) (fun _ _ => True) (ensureRouter g spec) h := by
  have hmute : ∀ c : Command, c.harmless → c.mute := fun _ hc => hc.mute
  have hclaimed : ∀ h', T.Holds world (fun _ _ => True) (fun _ _ => True)
      (ensureClaimed g spec) h' := by
    intro h'
    have hnot := recordNotSoleGateway_issues hmute (fun _ => trivial) spec
    refine (hT.mute_holds hnot).bind hT.refl fun _ h1 _ => ?_
    split
    · exact fun _ _ => trivial
    · exact fun _ _ => trivial
    · exact hT.buildRouter_holds
  unfold ensureRouter
  split
  · refine (hT.mute_holds ?_).bind hT.refl fun _ h1 _ => hclaimed h1
    exact clearDeadNetns_issues hmute trivial
  · refine (hT.mute_holds ?_).bind hT.refl fun _ h1 _ => hclaimed h1
    exact silenceRouter_issues hmute trivial (fun _ => rfl) fun _ => trivial

end Voices

section Standby

variable {oracle : Oracle Command Info} {spec : RouterSpec} {h : Host}

theorem mute_alone {α : Type} {m : Act α} (hm : m.Issues mute) :
    (alone oracle).Holds world (fun _ _ => True) (fun _ _ => True) m h :=
  hm.holds (fun _ _ _ _ => trivial)
    (fun _ h fate hc _ _ => ⟨shrinks_perform (hc.quiet h) fate, trivial⟩) trivial

theorem voices_alone (hactive : spec.active = false) :
    Voices (alone oracle) spec fun _ => False where
  refl _ := rfl
  defaults h _ heq := heq ▸ SameDefaults.refl h
  keeps _ _ _ hV := hV
  quiet _ fate _ hc := shrinks_perform hc fate
  stored hactive' := by simp [hactive] at hactive'
  voiced _ _ _ hV := hV.elim

theorem Silent.ensureRouter {netns g} (hactive : spec.active = false) (hsilent : Silent netns h) :
    (alone oracle).Holds world (fun _ => Silent netns) (fun _ => Silent netns)
      (ensureRouter g spec) h :=
  ((voices_alone hactive).ensureRouter_holds.within (silences_alone oracle).within).imp
    (fun _ _ hp => hsilent.mono hp.2) fun _ _ hp => hsilent.mono hp.2

theorem silenceRouter_silences (id) :
    (alone oracle).Holds world (fun _ => Silent (routerNetns id)) (fun _ _ => True)
      (silenceRouter id) h := by
  have hT := silences_alone oracle
  have hclear : (clearDeadNetns (routerNetns id)).Issues mute :=
    clearDeadNetns_issues (fun _ hc => hc.mute) trivial
  refine (mute_alone hclear).bind hT.refl fun _ h1 _ => ?_
  have hnames : (alone oracle).Holds world
      (fun live h' => ∀ names, live = .ok names → Lists h' names) (fun _ _ => True)
      netnsPresent.attempt h1 :=
    (netnsPresent_holds hT fun _ _ _ h1 h2 => h2.trans h1).attempt
      (fun _ _ hl _ heq => by cases heq; exact hl.2) fun _ _ _ => by simp
  refine hnames.bind hT.refl fun live h2 hlive => ?_
  have habsent : ∀ names, live.toOption = some names → routerNetns id ∉ names →
      Silent (routerNetns id) h2 := by
    intro names hnames hnot
    refine (hlive names ?_).silent (Shrinks.refl h2) (startsWith_routerNetns id)
      (plain_routerNetns id).word hnot
    cases live with
    | ok => simpa [Except.toOption] using hnames
    | error => cases hnames
  refine ((silenceNetnsAndRecord_holds hT id habsent).imp (fun _ _ hs => hs)
    fun _ _ _ => trivial).bind hT.refl fun _ h3 hs => ?_
  cases live with
  | ok _ => exact fun _ heq => heq ▸ hs
  | error _ => exact fun _ _ => trivial

end Standby

def Command.voices : Command → Prop
  | .setArp _ _ mode => mode ≠ arpIgnore false
  | _ => False

theorem voices_setArp (netns l) : (setArp netns l (arpIgnore true)).voices :=
  fun heq : arpIgnore true = arpIgnore false => absurd heq (by decide)

theorem Command.harmless.not_voices (h : c.harmless) : ¬c.voices := by
  cases c <;> first | exact h.elim | exact not_false

theorem buildRouter_ends (g spec interface rules) :
    (buildRouter g spec interface rules).Ends voices
      (activates (routerNetns spec.id)) := by
  have hmute : ∀ c : Command, c.harmless → ¬c.voices := fun _ hc => hc.not_voices
  refine ends_bind (issues_ask (hmute _ trivial)) fun recorded => ?_
  refine ends_bind (need_issues (hmute _ trivial)) fun bridge => ?_
  refine ends_bind (ensureNetns_issues hmute not_false not_false) fun _ => ?_
  refine ends_bind (ensureWiring_issues hmute (fun _ _ => not_false)
    fun _ _ hne => hne rfl) fun _ => ?_
  refine ends_bind (need_issues not_false) fun _ => ?_
  -- what is left is the last step, if there is one, and a look
  refine Script.Issues.ends ?_
  have hlooks : ∀ c : Command, c.harmless → c.activates (routerNetns spec.id) :=
    fun _ hc => hc.activates
  split
  · refine issues_bind (activate_issues hlooks fun _ => ⟨rfl, rfl⟩) fun _ => ?_
    exact again_issues (hlooks _ trivial)
  · exact again_issues (hlooks _ trivial)

theorem ensureRouter_ends (g spec) :
    (ensureRouter g spec).Ends voices (activates (routerNetns spec.id)) := by
  have hmute : ∀ c : Command, c.harmless → ¬c.voices := fun _ hc => hc.not_voices
  have hclaimed : (ensureClaimed g spec).Ends voices
      (activates (routerNetns spec.id)) := by
    have hnot := recordNotSoleGateway_issues hmute (fun _ => not_false) spec
    refine ends_bind hnot fun _ => ?_
    split
    · trivial
    · trivial
    · exact buildRouter_ends g spec _ _
  unfold ensureRouter
  split
  · exact ends_bind (clearDeadNetns_issues hmute not_false) fun _ => hclaimed
  · refine ends_bind (silenceRouter_issues hmute not_false ?_ ?_) fun _ => hclaimed
    · exact fun _ hne => hne rfl
    · exact fun _ => not_false

end MeisterStack.LinuxNetwork
