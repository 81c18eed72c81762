import MeisterStack.Agent.RouterCommands

/-!
# The farewell

On its way out the agent silences its routers while the session still handles commands. The farewell
silences what it has listed, so a leg that the session lets answer behind its back answers when the
agent is gone.
-/

namespace MeisterStack.Agent.Farewell

open Foundation Option
open LinuxNetwork
open LinuxNetwork renaming Host → NetHost
open Agent.RouterCommands

def session (node : RouterCommands.Node) (requests : List Request) : Act Unit :=
  Script.each (fun q => do let _ ← (handle node q).attempt) requests

def stopping (node : RouterCommands.Node) (requests : List Request) (h : NetHost) :
    Pair Command Reply Fault Unit Fault Silencing NetHost :=
  ⟨session node requests, fallSilent, h⟩

def working : Terms Command NetHost Info where
  may _ _ := True
  rely := SameDefaults
  guar c h h' := c.voices ∨ Shrinks h h'

theorem voices_working (spec) : Voices working spec fun _ => True where
  refl := SameDefaults.refl
  defaults _ _ hsame := hsame
  keeps _ _ _ hV := hV
  quiet _ fate _ hc := .inr (shrinks_perform hc fate)
  stored _ _ _ := trivial
  voiced l _ _ _ := ⟨.inl (voices_setArp _ l), trivial⟩

theorem mute_working {α : Type} {m : Act α} {h} (hm : m.Issues Command.mute) :
    working.Holds world (fun _ _ => True) (fun _ _ => True) m h := by
  refine hm.holds (fun _ _ _ _ => trivial) (fun c h fate hc _ _ => ⟨?_, trivial⟩) trivial
  exact .inr (shrinks_perform (hc.quiet h) fate)

theorem handle_working (node q) (h : NetHost) :
    working.Holds world (fun _ _ => True) (fun _ _ => True) (handle node q) h := by
  by_cases hq : ∃ r, q = .ensure r
  · obtain ⟨r, rfl⟩ := hq
    refine handleEnsureRouter_holds SameDefaults.refl (mute_working ?_) (fun _ _ _ _ _ => trivial)
      fun spec h _ _ => (voices_working spec).ensureRouter_holds
    exact takeBackWithdrawn_issues (fun _ hc => hc.mute) (fun _ => trivial) (fun _ _ => rfl)
      fun _ => trivial
  · exact mute_working (handle_mute fun r hr => hq ⟨r, hr⟩)

theorem session_working (node requests) (h : NetHost) :
    working.Holds world (fun _ _ => True) (fun _ _ => True) (session node requests) h := by
  induction requests generalizing h with
  | nil => exact fun _ _ => trivial
  | cons q requests ih =>
    have hq : working.Holds world (fun _ _ => True) (fun _ _ => True)
        (handle node q).attempt h :=
      (handle_working node q h).attempt (fun _ _ _ => trivial) fun _ _ _ => trivial
    have hanswered : working.Holds world (fun _ _ => True) (fun _ _ => True)
        (do let _ ← (handle node q).attempt : Act Unit) h :=
      hq.bind SameDefaults.refl fun _ _ _ _ _ => trivial
    exact hanswered.bind SameDefaults.refl fun _ h1 _ => ih h1

def leaving : Terms Command NetHost Info where
  may _ _ := True
  rely := Shrinks
  guar _ h h' := Shrinks h h' ∧ SameDefaults h h'

theorem silences_leaving : Silences leaving where
  within :=
    { refl := Shrinks.refl
      trans := fun _ _ _ h h' => h.trans h'
      rely := fun _ _ hshrinks => hshrinks
      guar := fun _ _ _ hguar => hguar.1 }
  refl := Shrinks.refl
  guar c fate h hc _ := by
    refine ⟨shrinks_perform (hc.quiet h) fate, sameDefaults_perform ?_ fate h⟩
    cases c <;> first | exact hc.elim | trivial

theorem fallSilent_leaving (h : NetHost) :
    leaving.Holds world (fun outcome h' => Accounted outcome.kept outcome.failed h')
      (fun _ _ => True) fallSilent h := by
  have hpass := fallSilent_holds silences_leaving (fun _ _ _ h h' => h.trans h') (h := h)
    (K := fun _ => True) fun _ _ _ _ _ _ _ _ _ => trivial
  exact hpass.imp (fun _ _ hp => hp.1) fun _ _ _ => trivial

def Mutes : Pair Command Reply Fault Unit Fault Silencing NetHost → Turn Info → Prop :=
  Pair.Meets (fun c _ => ¬c.voices) fun _ _ => True

/-- When a farewell that says it is complete has ended, nobody answers but whom it kept, if the
session has set no leg to answer since the farewell began. -/
theorem farewell_leaves_nobody {node : RouterCommands.Node} {requests : List Request} {h : NetHost}
    {fates : List (Fate Info)} {turns : List (Turn Info)}
    {p p' : Pair Command Reply Fault Unit Fault Silencing NetHost} {outcome : Silencing}
    (hbegins : (together world).run (stopping node requests h) (fates.map .left) = some p)
    (hmutes : (together world).RunMeets Mutes p turns)
    (hrun : (together world).run p turns = some p') (hends : p'.right = .ret outcome)
    (hcomplete : outcome.complete) :
    ∀ id l, p'.state.Answers (routerNetns id) l → id ∈ outcome.kept := by
  obtain ⟨hsession, hright⟩ := holds_left SameDefaults.refl (fun _ _ => trivial)
    (session_working node requests h) hbegins
  have hfarewell := fallSilent_leaving p.state
  rw [← show p.right = fallSilent from hright] at hfarewell
  obtain ⟨-, hdone⟩ := holds_together hsession hfarewell SameDefaults.refl Shrinks.refl
    (fun _ _ _ h h' => h.trans h') (fun _ _ _ h h' => h.trans h')
    (fun _ _ hc => ⟨trivial, fun _ _ hguar => hguar.resolve_left hc⟩)
    (fun _ _ _ => ⟨trivial, fun _ _ hguar => hguar.2⟩) hmutes hrun
  rw [hends] at hdone
  have haccounted := hdone p'.state (Shrinks.refl _)
  intro id l hans
  obtain ⟨id', hid', hkept | hfailed⟩ := haccounted (routerNetns id) l hans
    (startsWith_routerNetns id) (plain_routerNetns id)
  · rw [netnsRouterId_routerNetns] at hid'
    cases hid'
    exact hkept
  · rw [Silencing.complete, List.isEmpty_iff] at hcomplete
    simp [hcomplete] at hfailed

def standby : NetHost :=
  ⟨AList.insert (routerNetns edge.id) ⟨8, some 8, some 8⟩ ∅,
    AList.insert (toString edge.id) (some { edge with active := false }) ∅⟩

def fine : Fate Info := ⟨true, false, ⟨0, some 1, none, "vx10000", some []⟩⟩

def reported (p : Pair Command Reply Fault Unit Fault Silencing NetHost) : Option Silencing :=
  match p.right with
  | .ret outcome => some outcome
  | _ => none

theorem right_of_reported {p outcome} (h : reported p = some outcome) : p.right = .ret outcome := by
  unfold reported at h
  split at h
  · rename_i hright
    rw [hright, some.inj h]
  · cases h

/-- The session makes the router active, then the farewell silences it. -/
theorem farewell_leaves_nobody_edge : ∃ p p',
    (together world).run (stopping edgeNode [.ensure (edgeCommand true false [])] standby)
      ((List.replicate 32 fine).map .left) = some p ∧
    (together world).run p (List.replicate 8 (.right fine)) = some p' ∧
    reported p' = some ⟨[edge.id], [], []⟩ ∧
    ∀ id l, ¬p'.state.Answers (routerNetns id) l := by
  have hruns : (((together world).run
      (stopping edgeNode [.ensure (edgeCommand true false [])] standby)
      ((List.replicate 32 fine).map .left)).bind fun p =>
        ((together world).run p (List.replicate 8 (.right fine)))).bind reported =
      some ⟨[edge.id], [], []⟩ := by
    decide +kernel
  obtain ⟨p', hruns, hreported⟩ := bind_eq_some_iff.mp hruns
  obtain ⟨p, hbegins, hrun⟩ := bind_eq_some_iff.mp hruns
  refine ⟨p, p', hbegins, hrun, hreported, fun id l hans => ?_⟩
  have hkept := farewell_leaves_nobody hbegins (by simp [Machine.RunMeets, Mutes, Pair.Meets,
    List.replicate]) hrun (right_of_reported hreported) rfl id l hans
  cases hkept

/-- The farewell has silenced the legs of the router when the session sets one to answer: the
farewell is complete, keeps nobody, and the leg answers. -/
theorem activated_behind_the_farewell :
    ∃ p ∈ (together world).run (stopping edgeNode [.ensure (edgeCommand true false [])] standby)
      (List.replicate 28 (.left fine) ++ List.replicate 6 (.right fine) ++ [.left fine] ++
        List.replicate 2 (.right fine)),
      reported p = some ⟨[edge.id], [], []⟩ ∧ p.state.Answers (routerNetns edge.id) .external := by
  decide +kernel

end MeisterStack.Agent.Farewell
