import MeisterStack.Foundation.Registry
import MeisterStack.CloudController.FloatingIps

/-!
# What the steps of reservations and pools do

Every step leaves the reservations as they were, up to where they point, and adds at most one under
a fresh uid or removes one: `Went` for a step of a call, `PoolWent` for a pool's update or delete.
-/

namespace MeisterStack.CloudController.FloatingIps

open Foundation ControllerApi Common Option Table Call
open ControllerApi.Floating

inductive Effect (s : State) : State → Prop
  | same : Effect s s
  | reserved {address : Nat} {ip : FloatingIp} : s.ips.cell address = none → ip.uid ∉ s.drawn →
      ip.address = address → Effect s (s.reserve address ip)
  | pointed {address : Nat} {v : Versioned FloatingIp} {pointing : Pointing} :
      s.ips.cell address = some v → Effect s (s.putIp address { v.val with pointing })
  | released {address : Nat} : Effect s (s.removeIp address)
  | putPool {name : String} {spec : FloatingPoolSpec} : Effect s (s.putPool name spec)
  | removedPool {name : String} : Effect s (s.removePool name)

def identity : Identity FloatingIp String where
  uid := FloatingIp.uid
  Keeps ip ip' := ∃ pointing, ip' = { ip with pointing }
  refl ip := ⟨ip.pointing, rfl⟩
  trans := by
    rintro ip _ _ ⟨p, rfl⟩ ⟨q, rfl⟩
    exact ⟨q, rfl⟩
  uid_eq := by
    rintro ip _ ⟨p, rfl⟩
    rfl

@[simp] theorem identity_uid (ip) : identity.uid ip = ip.uid := rfl

def State.registry (s : State) : Registry Nat FloatingIp String := ⟨s.ips, s.drawn⟩

variable {s s' : State}

theorem Effect.change (h : Effect s s') : Registry.Change identity s.registry s'.registry := by
  cases h with
  | same | putPool | removedPool => exact .same
  | reserved habsent hfresh => exact .made habsent hfresh
  | pointed hv => exact .edited hv ⟨_, rfl⟩
  | released => exact .removed

structure Ok (s : State) : Prop where
  belowPools : s.pools.Below s.next
  named : ∀ address v, s.ips.cell address = some v → v.val.address = address
  drawn : Registry.Drawn identity s.registry

theorem Effect.ok (h : Effect s s') (hs : Ok s) : Ok s' := by
  constructor
  · cases h with
    | same => exact hs.belowPools
    | reserved | pointed | released => exact hs.belowPools.mono (Nat.le_succ _)
    | putPool => exact hs.belowPools.put _ _
    | removedPool => exact (hs.belowPools.remove _).mono (Nat.le_succ _)
  · intro address v hv
    cases h with
    | same | putPool | removedPool => exact hs.named address v hv
    | reserved _ _ haddress =>
      rcases cell_put_cases hv with ⟨rfl, rfl⟩ | ⟨-, hv⟩
      · exact haddress
      · exact hs.named address v hv
    | pointed hv0 =>
      rcases cell_put_cases hv with ⟨rfl, rfl⟩ | ⟨-, hv⟩
      · have haddress := hs.named address _ hv0
        exact haddress
      · exact hs.named address v hv
    | released => exact hs.named address v (cell_of_remove hv).2
  · exact h.change.drawn hs.drawn

abbrev Stored (s : State) (uid : String) : Prop := Registry.Stored identity s.registry uid

abbrev Is (s : State) (ip : FloatingIp) : Prop := Registry.Is identity s.registry ip.address ip

def Stage.owns : Stage → Option String
  | .list | .create _ => none
  | .recheck created => some created.val.uid
  | .takeBack d => some d.checked.val.uid
  | .isGone created => some created.uid

def Answered (s : State) : Stage → Input → Prop
  | .create address, .lost _ => (s.ips.cell address).isSome
  | .recheck _, .fail | .recheck _, .lost _ => False
  | .takeBack _, .fail | .takeBack _, .lost _ => False
  | .isGone created, .go _ => s.gone created
  | .isGone _, .fail | .isGone _, .lost _ => False
  | _, _ => True

instance (s stage input) : Decidable (Answered s stage input) := by
  cases stage <;> cases input <;> dsimp only [Answered] <;> infer_instance

inductive Went (s : State) (c : Call) : Stage → Input → State → Outcome → Prop
  | failed {stage : Stage} {input : Input} {why : Refusal} :
      (Answered s stage input → stage.owns = none) → Went s c stage input s (.failed c why)
  | preview {input : Input} : Went s c .list input s (.returned none)
  | picked {input : Input} {address : Nat} : Ipv4Ranges.isAllocatable c.spec.cidrs address →
      Went s c .list input s (.goesOn c (.create address))
  | raced {input : Input} {address : Nat} : Went s c (.create address) input s c.again
  | created {address : Nat} {uid : String} : s.ips.cell address = none → uid ∉ s.drawn →
      Went s c (.create address) (.go uid) (s.reserve address (c.declare uid address))
        (.goesOn { c with made := uid :: c.made } (.recheck ⟨s.next, c.declare uid address⟩))
  | unanswered {address : Nat} {uid : String} : s.ips.cell address = none → uid ∉ s.drawn →
      Went s c (.create address) (.lost uid) (s.reserve address (c.declare uid address))
        (.failed { c with made := uid :: c.made } .store)
  | kept {created : Versioned FloatingIp} {input : Input} :
      heldBy s.reservations c.tenant c.pool ≤ c.quota →
      Went s c (.recheck created) input s (.returned (some created.val))
  | excess {created : Versioned FloatingIp} {input : Input} :
      Went s c (.recheck created) input s (.goesOn c (.takeBack (.of created)))
  | retried {d d' : Deletion FloatingIp} {input : Input} : d'.checked = d.checked →
      Went s c (.takeBack d) input s (.goesOn c (.takeBack d'))
  | removed {d : Deletion FloatingIp} {input : Input} :
      Went s c (.takeBack d) input (s.removeIp d.checked.val.address) c.again
  | asked {d : Deletion FloatingIp} {input : Input} :
      Went s c (.takeBack d) input s (.goesOn c (.isGone d.checked.val))
  | gone {created : FloatingIp} {input : Input} : s.gone created →
      Went s c (.isGone created) input s c.again

theorem pick_went (s c input) : Went s c .list input s (c.pick s) := by
  unfold pick
  split
  · exact .failed fun _ => rfl
  · split
    · exact .failed fun _ => rfl
    · split
      · exact .failed fun _ => rfl
      · rename_i haddress
        split
        · exact .preview
        · exact .picked (pickAddress_ok haddress).1

variable {c : Call} {o : Outcome} {input : Input}

theorem takeBack_went {d} (h : c.takeBack s d = (s', o)) : Went s c (.takeBack d) input s' o := by
  unfold takeBack at h
  split at h
  · cases h
    exact .removed
  · cases h
    exact .asked
  · rename_i hagain
    cases h
    exact .retried (finishDelete_again hagain).1

theorem create_went {address uid} (h : c.create s address uid true = some (s', o)) :
    Went s c (.create address) (.go uid) s' o := by
  unfold create at h
  split at h
  · rw [if_neg (by simp)] at h
    split at h <;> cases h
    · exact .failed fun _ => rfl
    · exact .raced
  · rename_i habsent
    split at h <;> cases h
    rename_i hfresh
    exact .created (by simpa using habsent) hfresh

theorem create_lost_went {address uid} (h : c.create s address uid false = some (s', o)) :
    Went s c (.create address) (.lost uid) s' o := by
  unfold create at h
  split at h
  · cases h
    exact .failed fun _ => rfl
  · rename_i habsent
    split at h <;> cases h
    rename_i hfresh
    exact .unanswered (by simpa using habsent) hfresh

theorem allocate_went {stage} (h : allocate s c stage input = some (s', o)) :
    Went s c stage input s' o := by
  cases stage with
  | list =>
    cases input with
    | go =>
      cases h
      exact pick_went s c _
    | fail | lost =>
      cases h
      exact .failed fun _ => rfl
  | create =>
    cases input with
    | go => exact create_went h
    | lost => exact create_lost_went h
    | fail =>
      cases h
      exact .failed fun _ => rfl
  | recheck =>
    cases input with
    | go =>
      simp only [allocate, recheck, withinQuota, decide_eq_true_eq, some.injEq] at h
      split at h <;> cases h
      · exact .kept (by assumption)
      · exact .excess
    | fail | lost =>
      cases h
      exact .failed False.elim
  | takeBack =>
    cases input with
    | go => exact takeBack_went (some.inj h)
    | fail | lost =>
      cases h
      exact .failed False.elim
  | isGone =>
    cases input with
    | go =>
      simp only [allocate, some.injEq] at h
      split at h <;> cases h
      · exact .gone (by assumption)
      · rename_i hstands
        exact .failed fun hgone => absurd hgone hstands
    | fail | lost =>
      cases h
      exact .failed False.elim

theorem Went.effect {stage} (h : Went s c stage input s' o) : Effect s s' := by
  cases h with
  | created habsent hfresh | unanswered habsent hfresh => exact .reserved habsent hfresh rfl
  | removed => exact .released
  | _ => exact .same

inductive PoolWent (s : State) : Task → Input → State → List Task → Prop
  | ended {t : Task} {input : Input} : PoolWent s t input s []
  | checked {u : PoolUpdate} {input : Input} : PoolWent s (.checkPool u) input s [.listPool u]
  | listed {u : PoolUpdate} {input : Input} :
      (∀ ip ∈ ofPool s u.name, Ipv4Ranges.contains u.body.cidrs ip.address) →
      PoolWent s (.listPool u) input s
        [.writePool { u with listed := (ofPool s u.name).map FloatingIp.address }]
  | written {u : PoolUpdate} {input : Input} {next : List Task} : input ≠ .fail →
      (s.pools.cell u.name).standsAt u.resourceVersion →
      (∀ t ∈ next, t = .settlePool u s.next) →
      PoolWent s (.writePool u) input (s.putPool u.name u.body) next
  | lost {u : PoolUpdate} {rev : Nat} {input : Input} :
      PoolWent s (.settlePool u rev) input s [.putBack u rev]
  | restored {u : PoolUpdate} {rev : Nat} {input : Input} : input ≠ .fail →
      (s.pools.cell u.name).standsAt rev →
      PoolWent s (.putBack u rev) input (s.putPool u.name u.current.val) []
  | unheld {name : String} {rev : Nat} {input : Input} : ofPool s name = [] →
      PoolWent s (.listHeld name rev) input s [.deletePool name rev]
  | deleted {name : String} {rev : Nat} {input : Input} : input ≠ .fail →
      (s.pools.cell name).standsAt rev →
      PoolWent s (.deletePool name rev) input (s.removePool name) []

variable {next : List Task}

theorem write_went {u answered} (hlands : input ≠ .fail) (h : u.write s answered = (s', next)) :
    PoolWent s (.writePool u) input s' next := by
  unfold PoolUpdate.write at h
  split at h <;> cases h
  · rename_i hstands
    apply PoolWent.written hlands hstands
    cases answered <;> simp
  · exact .ended

variable {t : Task}

theorem pool_went
    (hnot : ∀ c stage, t ≠ .allocating c stage) (h : task s t input = some (s', next)) :
    PoolWent s t input s' next := by
  cases t with
  | allocating c stage => exact absurd rfl (hnot c stage)
  | checkPool =>
    cases input <;> cases h
    · exact .checked
    · exact .ended
    · exact .ended
  | listPool =>
    cases input with
    | go =>
      simp only [task, PoolUpdate.list, some.injEq] at h
      split at h <;> cases h
      · rename_i hall
        exact .listed (List.all_eq_true.mp hall)
      · exact .ended
    | fail | lost =>
      cases h
      exact .ended
  | writePool =>
    cases input with
    | go | lost => exact write_went nofun (some.inj h)
    | fail =>
      cases h
      exact .ended
  | settlePool =>
    cases input <;> cases h
    · exact .ended
    · exact .lost
    · exact .ended
  | putBack | deletePool =>
    cases input with
    | go | lost =>
      simp only [task, PoolUpdate.putBack, deletePoolAt, some.injEq] at h
      split at h <;> cases h
      · first | exact .restored nofun (by assumption) | exact .deleted nofun (by assumption)
      · exact .ended
    | fail =>
      cases h
      exact .ended
  | listHeld =>
    cases input with
    | go =>
      simp only [task, some.injEq] at h
      split at h <;> cases h
      · exact .unheld (by assumption)
      · exact .ended
    | fail | lost =>
      cases h
      exact .ended

variable (h : PoolWent s t input s' next)

include h

theorem PoolWent.effect : Effect s s' := by
  cases h with
  | written | restored => exact .putPool
  | deleted => exact .removedPool
  | _ => exact .same

theorem PoolWent.ips : s'.ips = s.ips := by
  cases h <;> rfl

theorem PoolWent.pools {name v} (hv : s'.pools.cell name = some v) :
    s.pools.cell name = some v ∨ (∃ u, t = .writePool u ∧ u.name = name ∧ v.val = u.body) ∨
      ∃ u rev, t = .putBack u rev ∧ u.name = name ∧ v.val = u.current.val := by
  have hput : ∀ {other : String} {body : FloatingPoolSpec},
      (s.putPool other body).pools.cell name = some v →
        s.pools.cell name = some v ∨ other = name ∧ v.val = body := by
    intro other body hv
    rcases cell_put_cases hv with ⟨rfl, rfl⟩ | ⟨-, hv⟩
    · exact .inr ⟨rfl, rfl⟩
    · exact .inl hv
  cases h with
  | written => exact (hput hv).imp_right fun hnew => .inl ⟨_, rfl, hnew⟩
  | restored => exact (hput hv).imp_right fun hnew => .inr ⟨_, _, rfl, hnew⟩
  | deleted => exact .inl (cell_of_remove hv).2
  | _ => exact .inl hv

omit h

theorem task_effect (h : task s t input = some (s', next)) : Effect s s' := by
  by_cases hcall : ∃ c stage, t = .allocating c stage
  · obtain ⟨c, stage, rfl⟩ := hcall
    obtain ⟨⟨state, o⟩, halloc, heq⟩ := map_eq_some_iff.mp h
    cases heq
    exact (allocate_went halloc).effect
  · exact (pool_went (fun c stage heq => hcall ⟨c, stage, heq⟩) h).effect

theorem env_effect {event new} (h : env s event = some (s', new)) : Effect s s' := by
  cases event with
  | createIp =>
    simp only [env] at h
    split at h <;> cases h
    exact .same
  | updateIp =>
    obtain ⟨v, hv, ⟨⟩⟩ := bind_eq_some_iff.mp h
    exact .pointed hv
  | deleteIp =>
    obtain ⟨v, hv, ⟨⟩⟩ := bind_eq_some_iff.mp h
    exact .released
  | updatePool =>
    obtain ⟨v, hv, heq⟩ := bind_eq_some_iff.mp h
    split at heq <;> cases heq
    exact .same
  | deletePool =>
    obtain ⟨v, hv, ⟨⟩⟩ := bind_eq_some_iff.mp h
    exact .same

end MeisterStack.CloudController.FloatingIps
