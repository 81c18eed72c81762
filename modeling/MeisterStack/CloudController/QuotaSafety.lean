import MeisterStack.CloudController.Admission

/-!
# The quota holds under concurrent admissions

For one tenant a step is quiet, and then it leaves the fence alone and raises none of the sums, or
it passes the fence. So a round that still finds its fence writes into a usage no larger than the
one it counted.
-/

namespace MeisterStack.CloudController.Admission

open Foundation ControllerApi Option List State Nat Prod Program
open Quota (Axis Usage check decoded)

def usage (tenant : String) (s : State) : Usage := Usage.of tenant (decoded s.vms) none

structure Quiet (tenant : String) (s s' : State) : Prop where
  next : s.next ≤ s'.next
  fence : s'.fences.cell (Quota.fence tenant) = s.fences.cell (Quota.fence tenant)
  passes : s'.passes (Quota.fence tenant) = s.passes (Quota.fence tenant)
  held : ∀ (x : Axis) (except : Option String),
    x.held tenant except s'.vms ≤ x.held tenant except s.vms

structure Passed (tenant : String) (s s' : State) : Prop where
  next : s'.next = s.next + 1
  revision : (s'.fences.cell (Quota.fence tenant)).revision = s.next

def Effect (s s' : State) : Prop := ∀ tenant, Quiet tenant s s' ∨ Passed tenant s s'

theorem Quiet.refl (tenant s) : Quiet tenant s s :=
  ⟨le_refl _, rfl, rfl, fun _ _ => le_refl _⟩

theorem Effect.refl (s) : Effect s s := fun tenant => .inl (.refl tenant s)

variable {name : String} {vm : HeldVm} {tenant : String}

theorem counted_eq_zero {except rev} (h : vm.tenant ≠ some tenant) (x : Axis) :
    x.counted tenant except name ⟨rev, some vm⟩ = 0 := by
  simp [Axis.counted, h]

theorem held_put_other (h : vm.tenant ≠ some tenant) (vms : Table String (Option HeldVm)) (rev)
    (x : Axis) (except) :
    x.held tenant except (vms.put name rev (some vm)) ≤ x.held tenant except vms := by
  apply x.held_put_le
  rw [counted_eq_zero h]
  exact zero_le _

theorem held_put_same {vms} (h : stored vms name = some vm) (mark rev) (x : Axis) (except) :
    x.held tenant except (vms.put name rev (some { vm with deletionTimestamp := mark })) ≤
      x.held tenant except vms := by
  apply x.held_put_le
  obtain ⟨v, hcell, hval⟩ := bind_eq_some_iff.mp h
  simp [hcell, Axis.counted, hval]

def tenantsAfter (s : State) : Event → Table String TenantQuota
  | .putTenant name quota => s.tenants.put name s.next quota
  | .deleteTenant name => s.tenants.remove name
  | _ => s.tenants

inductive Began (s : State) (event : Event) : State → List Task → Prop
  | request (new : List Task) : tenantsAfter s event = s.tenants →
      (∀ t ∈ new, (∃ a, t = .admitting a admissionRounds) ∨
        ∃ a body pool, t = .update a ∧ a.draft = .volume body pool) → Began s event s new
  | wrote (s' : State) : s'.tenants = tenantsAfter s event → (∀ tenant, Quiet tenant s s') →
      Began s event s' []

variable {s s' : State} {event : Event} {new : List Task}

theorem env_began (h : env s event = some (s', new)) : Began s event s' new := by
  cases event with
  | createVm | createVolume =>
    simp only [env] at h
    split at h <;> cases h
    exact .request _ rfl (by simp)
  | updateVm =>
    obtain ⟨current, -, h⟩ := bind_eq_some_iff.mp h
    cases h
    exact .request _ rfl (by simp)
  | updateVolume name pool sizeGib rev dry =>
    obtain ⟨current, -, h⟩ := bind_eq_some_iff.mp h
    dsimp only at h
    split at h
    · cases h
    · split at h
      · cases h
        exact .request _ rfl (by cases dry <;> simp)
      · split at h <;> cases h
        exact .request _ rfl (by simp)
  | putTenant | deleteTenant | removeVolume =>
    cases h
    exact .wrote _ rfl fun _ => ⟨le_succ _, rfl, rfl, fun _ _ => le_refl _⟩
  | rewriteVm name mark =>
    obtain ⟨current, hcurrent, h⟩ := bind_eq_some_iff.mp h
    cases h
    exact .wrote _ rfl fun _ => ⟨le_succ _, rfl, rfl, held_put_same hcurrent mark _⟩
  | removeVm name =>
    cases h
    exact .wrote _ rfl fun tenant => ⟨le_succ _, rfl, rfl, fun x except =>
      x.held_remove_le tenant except _ name⟩
  | rewriteVolume =>
    obtain ⟨current, -, h⟩ := bind_eq_some_iff.mp h
    cases h
    exact .wrote _ rfl fun _ => ⟨le_succ _, rfl, rfl, fun _ _ => le_refl _⟩

theorem env_quiet (h : env s event = some (s', new)) (tenant) : Quiet tenant s s' := by
  cases env_began h with
  | request => exact .refl tenant s
  | wrote _ _ hquiet => exact hquiet tenant

theorem env_tenants (h : env s event = some (s', new)) : s'.tenants = tenantsAfter s event := by
  cases env_began h with
  | request _ htenants => exact htenants.symm
  | wrote _ htenants => exact htenants

theorem writeUnder_cases (s : State) (a : Request) (fence) :
    ((s.writeUnder a fence).1 ≠ .written ∧ (s.writeUnder a fence).2 = s) ∨
      (s.writeUnder a fence = (.written, s.pass a fence) ∧ s.unmoved fence ∧
        (a.resourceVersion = none → s.held a = none)) := by
  cases hrev : a.resourceVersion with
  | none =>
    simp only [writeUnder, hrev, createFenced]
    split
    · rename_i h
      rw [Bool.and_eq_true, isNone_iff_eq_none] at h
      exact .inr ⟨rfl, h.2, fun _ => h.1⟩
    · left
      split <;> simp
  | some =>
    simp only [writeUnder, hrev, updateFenced]
    split
    · rename_i h
      rw [Bool.and_eq_true] at h
      exact .inr ⟨rfl, h.2, by simp⟩
    · left
      split <;> simp

variable {a : Request}

theorem held_put_le (h : a.tenant ≠ some tenant) (s : State) (x : Axis) (except) :
    x.held tenant except (s.put a).vms ≤ x.held tenant except s.vms := by
  cases hdraft : a.draft with
  | vm body =>
    have hother : body.tenant ≠ some tenant := by simpa [Request.tenant, hdraft] using h
    simpa [put, hdraft] using held_put_other hother s.vms s.next x except
  | volume => simp [put, hdraft]

@[simp] theorem next_put (s : State) (a) : (s.put a).next = s.next + 1 := by
  cases hdraft : a.draft <;> simp [put, hdraft]

@[simp] theorem fences_put (s : State) (a) : (s.put a).fences = s.fences := by
  cases hdraft : a.draft <;> simp [put, hdraft]

@[simp] theorem passed_put (s : State) (a) : (s.put a).passed = s.passed := by
  cases hdraft : a.draft <;> simp [put, hdraft]

@[simp] theorem tenants_put (s : State) (a) : (s.put a).tenants = s.tenants := by
  cases hdraft : a.draft <;> simp [put, hdraft]

theorem put_quiet (h : a.tenant ≠ some tenant) (s) : Quiet tenant s (s.put a) := by
  refine ⟨?_, ?_, ?_, held_put_le h s⟩
  · simp
  · simp
  · simp [passes]

section Pass

variable {s : State} {a : Request} {fence : Fence} {owner : String}

theorem pass_quiet (howner : a.tenant = some owner) (hkey : fence.key = Quota.fence owner)
    (htenant : owner ≠ tenant) : Quiet tenant s (s.pass a fence) := by
  have hne : Quota.fence tenant ≠ fence.key := by
    rw [hkey]
    exact fun h => htenant (Quota.fence_injective h).symm
  have hother : a.tenant ≠ some tenant := by
    rw [howner]
    exact fun h => htenant (some.inj h)
  refine ⟨?_, Table.cell_put_ne s.fences hne _ _, ?_, held_put_le hother s⟩
  · exact (le_succ _).trans (next_put s a).ge
  · simp [passes, State.pass, hne.symm]

theorem pass_effect (howner : a.tenant = some owner) (hkey : fence.key = Quota.fence owner) :
    Effect s (s.pass a fence) := by
  intro tenant
  by_cases htenant : owner = tenant
  · subst htenant
    refine .inr ⟨next_put s a, ?_⟩
    simp [State.pass, hkey, Cell.revision]
  · exact .inl (pass_quiet howner hkey htenant)

end Pass

def Ok (s : State) : Prop :=
  ∀ tenant, (s.fences.cell (Quota.fence tenant)).revision < s.next

theorem Effect.ok (heffect : Effect s s') (h : Ok s) : Ok s' := by
  intro tenant
  rcases heffect tenant with hquiet | hpassed
  · rw [hquiet.fence]
    exact (h tenant).trans_le hquiet.next
  · rw [hpassed.revision, hpassed.next]
    exact lt_succ_self _

structure RoundOk (s : State) (r : Round) : Prop where
  tenant : r.request.tenant = some r.tenant
  key : r.fence.key = Quota.fence r.tenant
  read : r.fence.revision < s.next
  passes : s.unmoved r.fence → s.passes r.fence.key = r.fence.passes

def Fits (s : State) (r : Round) (judged : TenantQuota) : Prop :=
  s.unmoved r.fence → ∀ body, r.request.draft = .vm body →
    check judged r.tenant ((Usage.of r.tenant (decoded s.vms) r.request.except).plus
      (Capacity.wantedBySpec body.vm)) = .ok ()

variable {r : Round}

theorem RoundOk.quiet (h : RoundOk s r) (heffect : Effect s s') (hunmoved : s'.unmoved r.fence) :
    Quiet r.tenant s s' ∧ s.unmoved r.fence := by
  have hrevision := of_decide_eq_true hunmoved
  rw [h.key] at hrevision
  rcases heffect r.tenant with hquiet | hpassed
  · refine ⟨hquiet, decide_eq_true ?_⟩
    rw [h.key, ← hquiet.fence]
    exact hrevision
  · rw [hpassed.revision] at hrevision
    exact absurd h.read (hrevision ▸ lt_irrefl _)

theorem Effect.next_le (heffect : Effect s s') (tenant : String) : s.next ≤ s'.next := by
  rcases heffect tenant with hquiet | hpassed
  · exact hquiet.next
  · exact (le_succ _).trans hpassed.next.ge

theorem RoundOk.keep (h : RoundOk s r) (heffect : Effect s s') : RoundOk s' r where
  tenant := h.tenant
  key := h.key
  read := h.read.trans_le (heffect.next_le r.tenant)
  passes hunmoved := by
    obtain ⟨hquiet, hbefore⟩ := h.quiet heffect hunmoved
    rw [← h.passes hbefore, h.key]
    exact hquiet.passes

theorem Quiet.used_le (h : Quiet tenant s s') (except) (x : Axis) :
    x.used (Usage.of tenant (decoded s'.vms) except) ≤
      x.used (Usage.of tenant (decoded s.vms) except) := by
  have := h.held x except
  simp only [x.used_of]
  omega

theorem Quiet.usage_atMost (h : Quiet tenant s s') :
    (usage tenant s').AtMost (usage tenant s) :=
  Quota.Usage.atMost_iff.mpr (h.used_le none)

theorem Fits.keep {judged} (hfits : Fits s r judged) (hround : RoundOk s r)
    (heffect : Effect s s') :
    Fits s' r judged := by
  intro hunmoved body hbody
  obtain ⟨hquiet, hbefore⟩ := hround.quiet heffect hunmoved
  refine Quota.check_of_atMost (Quota.Usage.atMost_iff.mpr fun x => ?_) (hfits hbefore body hbody)
  have := hquiet.used_le r.request.except x
  simp only [Axis.used_plus]
  omega

def TaskOk (s : State) : Task → Prop
  | .admitting _ _ => True
  | .judge r => RoundOk s r
  | .count r _ => RoundOk s r
  | .write r judged => RoundOk s r ∧
      ∀ body, r.request.draft = .vm body → ∃ quota, judged = some quota ∧ Fits s r quota
  | .update a => ∀ tenant body, a.draft = .vm body → a.tenant ≠ some tenant

variable {t : Task}

theorem TaskOk.keep (h : TaskOk s t) (heffect : Effect s s') : TaskOk s' t := by
  cases t with
  | admitting => trivial
  | judge | count => exact RoundOk.keep h heffect
  | write =>
    obtain ⟨hround, hjudged⟩ := h
    refine ⟨hround.keep heffect, fun body hbody => ?_⟩
    obtain ⟨quota, hquota, hfits⟩ := hjudged body hbody
    exact ⟨quota, hquota, hfits.keep hround heffect⟩
  | update => exact h

theorem update_quiet (h : TaskOk s (.update a)) (tenant) : Quiet tenant s (s.update a) := by
  rw [update]
  split
  · exact .refl tenant s
  · split
    · cases hdraft : a.draft with
      | vm body => exact put_quiet (h tenant body hdraft) s
      | volume =>
        simp only [put, hdraft]
        exact ⟨le_succ _, rfl, rfl, fun _ _ => le_refl _⟩
    · exact .refl tenant s

theorem write_cases (s r) :
    (write s r).1 = s ∨ ((write s r).1 = s.pass r.request r.fence ∧
      s.unmoved r.fence ∧ (r.request.resourceVersion = none → s.held r.request = none)) := by
  rw [write]
  split
  · exact .inl rfl
  · rcases writeUnder_cases s r.request r.fence with ⟨-, hsame⟩ | ⟨hwritten, hunmoved, hfree⟩
    · exact .inl hsame
    · exact .inr ⟨congrArg snd hwritten, hunmoved, hfree⟩

theorem write_effect (h : RoundOk s r) : Effect s (write s r).1 := by
  rcases write_cases s r with hsame | ⟨hpass, -, -⟩
  · rw [hsame]
    exact .refl s
  · rw [hpass]
    exact pass_effect h.tenant h.key

variable {input : Unit} {next : List Task}

theorem task_cases (h : task s t input = some (s', next)) :
    s' = s ∨ (∃ r judged, t = .write r judged ∧ s' = (write s r).1) ∨
      ∃ a, t = .update a ∧ s' = s.update a := by
  cases t with
  | write r judged =>
    exact .inr (.inl ⟨r, judged, rfl, (congrArg fst (some.inj h)).symm⟩)
  | update a =>
    cases h
    exact .inr (.inr ⟨a, rfl, rfl⟩)
  | _ =>
    cases h
    exact .inl rfl

theorem task_effect (hok : TaskOk s t) (h : task s t input = some (s', next)) : Effect s s' := by
  rcases task_cases h with rfl | ⟨r, judged, rfl, rfl⟩ | ⟨a, rfl, rfl⟩
  · exact .refl _
  · exact write_effect hok.1
  · exact fun tenant => .inl (update_quiet hok tenant)

theorem admitting_ok (hs : Ok s) (a left) : ∀ t ∈ admitting s a left, TaskOk s t := by
  cases left with
  | zero => simp [admitting]
  | succ =>
    cases htenant : a.tenant with
    | some tenant =>
      simp only [admitting, htenant, mem_singleton, forall_eq]
      exact ⟨htenant, rfl, hs tenant, fun _ => rfl⟩
    | none =>
      simp only [admitting, htenant]
      split
      · simp
      · simp [TaskOk, htenant]

theorem judge_ok (h : RoundOk s r) : ∀ t ∈ judge s r, TaskOk s t := by
  simp only [judge]
  split
  · rename_i body hbody
    split
    · simp
    · rename_i tenant htenant
      split
      · rename_i hunset
        simp only [mem_singleton, forall_eq]
        exact ⟨h, fun _ _ => ⟨_, rfl, fun _ _ _ => Quota.check_of_isUnset hunset _ _⟩⟩
      · simpa [TaskOk] using h
  · rename_i body pool hdraft
    split
    · simp [TaskOk, h, hdraft]
    · simp

theorem check_of_checkUsage {quota adding except}
    (h : s.checkUsage quota tenant adding except = .ok ()) :
    check quota tenant ((Usage.of tenant (decoded s.vms) except).plus adding) = .ok () := by
  simp only [checkUsage] at h
  split at h
  · cases h
  · cases hcheck : check quota tenant ((Usage.of tenant (decoded s.vms) except).plus adding) with
    | ok => rfl
    | error =>
      rw [hcheck] at h
      cases h

theorem count_ok {quota} (h : RoundOk s r) : ∀ t ∈ count s r quota, TaskOk s t := by
  simp only [count]
  split
  · rename_i body hbody
    split
    · rename_i hcheck
      simp only [mem_singleton, forall_eq]
      refine ⟨h, fun body' hbody' => ⟨quota, rfl, fun _ body'' hbody'' => ?_⟩⟩
      obtain rfl : body = body'' := by simpa [hbody] using hbody''
      exact check_of_checkUsage hcheck
    · simp
  · simp

theorem new_ok (h : env s event = some (s', new)) : ∀ t ∈ new, TaskOk s' t := by
  intro t ht
  cases env_began h with
  | request _ _ hnew =>
    rcases hnew t ht with ⟨a, rfl⟩ | ⟨a, body, pool, rfl, hdraft⟩
    · trivial
    · simp [TaskOk, hdraft]
  | wrote => cases ht

theorem next_write {judged} (h : task s (.write r judged) input = some (s', next)) :
    ∀ u ∈ next, ∃ a left, u = .admitting a left := by
  have hnext : (write s r).2 = next := congrArg snd (some.inj h)
  intro u hu
  rw [← hnext, write] at hu
  split at hu
  · cases hu
  · dsimp only at hu
    split at hu
    · exact ⟨_, _, mem_singleton.mp hu⟩
    · cases hu

theorem next_ok (hs : Ok s)
    (hok : TaskOk s t) (h : task s t input = some (s', next)) : ∀ u ∈ next, TaskOk s' u := by
  cases t with
  | admitting a left =>
    cases h
    exact admitting_ok hs a left
  | judge =>
    cases h
    exact judge_ok hok
  | count =>
    cases h
    exact count_ok hok
  | write =>
    intro u hu
    obtain ⟨a, left, rfl⟩ := next_write h u hu
    trivial
  | update =>
    cases h
    simp

theorem outline : program.Outline (Guard.all State Task Event Unit) Ok TaskOk where
  env hs _ h :=
    have heffect : Effect _ _ := fun tenant => .inl (env_quiet h tenant)
    ⟨heffect.ok hs, new_ok h, fun _ ht => ht.keep heffect⟩
  task hs hok _ h :=
    have heffect := task_effect hok h
    ⟨heffect.ok hs, next_ok hs hok h, fun _ hu => hu.keep heffect⟩

theorem usage_pass_atMost {fence body} (hbody : a.draft = .vm body)
    (htenant : body.tenant = some tenant) (hfree : a.resourceVersion = none → s.held a = none) :
    (usage tenant (s.pass a fence)).AtMost
      ((Usage.of tenant (decoded s.vms) a.except).plus (Capacity.wantedBySpec body.vm)) := by
  have hvms : (s.pass a fence).vms = s.vms.put a.name s.next (some body) := by
    simp [State.pass, put, hbody]
  -- a create counts every VM, and there is none under its name
  have hexcept : ∀ x : Axis, x.held tenant (some a.name) s.vms = x.held tenant a.except s.vms := by
    intro x
    cases hrev : a.resourceVersion with
    | none =>
      have habsent : s.vms.cell a.name = none := by
        simpa [held, hbody] using hfree hrev
      simpa [Request.except, hrev] using x.held_of_absent habsent
    | some => simp [Request.except, hrev]
  refine Quota.Usage.atMost_iff.mpr fun x => ?_
  have hcounted : x.counted tenant none a.name ⟨s.next, some body⟩ =
      x.share (Capacity.wantedBySpec body.vm) := by
    simp [Axis.counted, htenant]
  rw [usage, hvms, x.used_of, x.held_put, hcounted, hexcept, x.used_plus, x.used_of]
  omega

theorem usage_pass_volume {body pool} (hbody : a.draft = .volume body pool) (fence tenant) :
    usage tenant (s.pass a fence) = usage tenant s := by
  simp [usage, State.pass, put, hbody]

theorem write_raises {judged} (hok : TaskOk s (.write r judged))
    (hraises : ¬ (usage tenant (write s r).1).AtMost (usage tenant s)) :
    ∃ quota, judged = some quota ∧ r.tenant = tenant ∧
      check quota tenant (usage tenant (write s r).1) = .ok () := by
  obtain ⟨hround, hjudged⟩ := hok
  rcases write_cases s r with hsame | ⟨hpass, hunmoved, hfree⟩
  · rw [hsame] at hraises
    exact absurd (Quiet.refl tenant s).usage_atMost hraises
  · rw [hpass] at hraises ⊢
    cases hdraft : r.request.draft with
    | volume =>
      rw [usage_pass_volume hdraft] at hraises
      exact absurd (Quiet.refl tenant s).usage_atMost hraises
    | vm body =>
      obtain ⟨quota, rfl, hfits⟩ := hjudged body hdraft
      have howner : body.tenant = some r.tenant := by
        simpa [Request.tenant, hdraft] using hround.tenant
      by_cases htenant : r.tenant = tenant
      · subst htenant
        exact ⟨quota, rfl, rfl, Quota.check_of_atMost (usage_pass_atMost hdraft howner hfree)
          (hfits hunmoved body hdraft)⟩
      · have hquiet := pass_quiet (s := s) hround.tenant hround.key htenant
        exact absurd hquiet.usage_atMost hraises

theorem task_raises (hok : TaskOk s t) (h : task s t input = some (s', next))
    (hraises : ¬ (usage tenant s').AtMost (usage tenant s)) :
    ∃ r quota, t = .write r (some quota) ∧ r.tenant = tenant ∧
      check quota tenant (usage tenant s') = .ok () := by
  rcases task_cases h with rfl | ⟨r, judged, rfl, rfl⟩ | ⟨a, rfl, rfl⟩
  · exact absurd (Quiet.refl tenant _).usage_atMost hraises
  · obtain ⟨quota, rfl, htenant, hcheck⟩ := write_raises hok hraises
    exact ⟨r, quota, rfl, htenant, hcheck⟩
  · exact absurd (update_quiet hok tenant).usage_atMost hraises

section Unchanged

variable (tenant : String) (quota : TenantQuota)

def keepsQuota : Guard State Task Event Unit where
  env _ event :=
    match event with
    | .putTenant name written => name = tenant → written = quota
    | _ => True
  task _ _ _ := True

instance (s event) : Decidable ((keepsQuota tenant quota).env s event) := by
  cases event <;> dsimp only [keepsQuota] <;> infer_instance

instance (s t input) : Decidable ((keepsQuota tenant quota).task s t input) := .isTrue trivial

def HasQuota (s : State) : Prop := ∀ v, s.tenants.cell tenant = some v → v.val = quota

def ReadQuota : Task → Prop
  | .count r read => r.tenant = tenant → read = quota
  | .write r judged => ∀ read, judged = some read → r.tenant = tenant → read = quota
  | _ => True

end Unchanged

variable {tenant : String} {quota : TenantQuota}

theorem env_hasQuota (hs : HasQuota tenant quota s) (hguard : (keepsQuota tenant quota).env s event)
    (h : env s event = some (s', new)) : HasQuota tenant quota s' := by
  intro v hv
  rw [env_tenants h] at hv
  cases event with
  | putTenant name =>
    by_cases hname : tenant = name
    · subst hname
      rw [tenantsAfter, Table.cell_put_self] at hv
      cases hv
      exact hguard rfl
    · rw [tenantsAfter, Table.cell_put_ne _ hname] at hv
      exact hs v hv
  | deleteTenant => exact hs v (Table.cell_of_remove hv).2
  | _ => exact hs v hv

theorem task_tenants (h : task s t input = some (s', next)) : s'.tenants = s.tenants := by
  rcases task_cases h with rfl | ⟨r, judged, rfl, rfl⟩ | ⟨a, rfl, rfl⟩
  · rfl
  · rcases write_cases s r with hsame | ⟨hpass, -, -⟩
    · rw [hsame]
    · rw [hpass]
      exact tenants_put s r.request
  · rw [update]
    split
    · rfl
    · split
      · exact tenants_put s a
      · rfl

theorem new_readQuota (h : env s event = some (s', new)) : ∀ t ∈ new, ReadQuota tenant quota t := by
  intro t ht
  cases env_began h with
  | request _ _ hnew =>
    rcases hnew t ht with ⟨a, rfl⟩ | ⟨a, body, pool, rfl, -⟩ <;> trivial
  | wrote => cases ht

theorem judge_readQuota (hs : HasQuota tenant quota s) (r) :
    ∀ t ∈ judge s r, ReadQuota tenant quota t := by
  simp only [judge]
  split
  · split
    · simp
    · rename_i v hv
      have hread : r.tenant = tenant → v.val = quota := fun h => hs v (h ▸ hv)
      split <;> simpa [ReadQuota] using hread
  · split <;> simp [ReadQuota]

theorem next_readQuota (hs : HasQuota tenant quota s) (ht : ReadQuota tenant quota t)
    (h : task s t input = some (s', next)) : ∀ u ∈ next, ReadQuota tenant quota u := by
  cases t with
  | admitting a left =>
    cases h
    cases left with
    | zero => simp [admitting]
    | succ =>
      simp only [admitting]
      split
      · simp [ReadQuota]
      · split <;> simp [ReadQuota]
  | judge r =>
    cases h
    exact judge_readQuota hs r
  | count =>
    cases h
    simp only [count]
    split
    · split
      · simpa [ReadQuota] using ht
      · simp
    · simp
  | write =>
    intro u hu
    obtain ⟨a, left, rfl⟩ := next_write h u hu
    trivial
  | update =>
    cases h
    simp

theorem quota_outline : program.Outline (keepsQuota tenant quota)
    (fun s => Ok s ∧ HasQuota tenant quota s)
    (fun s t => TaskOk s t ∧ ReadQuota tenant quota t) where
  env hs hguard h := by
    obtain ⟨hok, hnew, hkeep⟩ := outline.env hs.1 trivial h
    exact ⟨⟨hok, env_hasQuota hs.2 hguard h⟩, fun t ht => ⟨hnew t ht, new_readQuota h t ht⟩,
      fun t ht => ⟨hkeep t ht.1, ht.2⟩⟩
  task hs ht _ h := by
    obtain ⟨hok, hnext, hkeep⟩ := outline.task hs.1 ht.1 trivial h
    refine ⟨⟨hok, ?_⟩, fun u hu => ⟨hnext u hu, next_readQuota hs.2 ht.2 h u hu⟩,
      fun u hu => ⟨hkeep u hu.1, hu.2⟩⟩
    rw [HasQuota, task_tenants h]
    exact hs.2

variable (tenant quota) in
def Within (s : State) : Prop := check quota tenant (usage tenant s) = .ok ()

theorem within_outline : program.Outline (keepsQuota tenant quota)
    (fun s => (Ok s ∧ HasQuota tenant quota s) ∧ Within tenant quota s)
    (fun s t => TaskOk s t ∧ ReadQuota tenant quota t) where
  env hs hguard h := by
    obtain ⟨hshared, htasks⟩ := quota_outline.env hs.1 hguard h
    exact ⟨⟨hshared, Quota.check_of_atMost (env_quiet h tenant).usage_atMost hs.2⟩, htasks⟩
  task {s t input s' next} hs ht hguard h := by
    obtain ⟨hshared, htasks⟩ := quota_outline.task hs.1 ht hguard h
    refine ⟨⟨hshared, ?_⟩, htasks⟩
    by_cases hraises : (usage tenant s').AtMost (usage tenant s)
    · exact Quota.check_of_atMost hraises hs.2
    · obtain ⟨r, judged, rfl, htenant, hcheck⟩ := task_raises ht.1 h hraises
      obtain rfl : judged = quota := ht.2 judged rfl htenant
      exact hcheck

theorem writeUnder_of_passed (hround : RoundOk s r)
    (hpassed : s.passes r.fence.key ≠ r.fence.passes) :
    (s.writeUnder r.request r.fence).1 ≠ .written ∧ (s.writeUnder r.request r.fence).2 = s := by
  rcases writeUnder_cases s r.request r.fence with hrefused | ⟨-, hunmoved, -⟩
  · exact hrefused
  · exact absurd (hround.passes hunmoved) hpassed

/-- Any number of requests, deletions and reconcilers run side by side from any store. While nobody
changes the quota of a tenant, a usage within it stays within it; and a fenced write whose fence was
passed since it was read is not written and leaves object and fence as they are. -/
theorem usage_stays_within_quota {s : State} {ms ms' : List (Move Event Unit)}
    {w w' : World State Task} (hs : Ok s) (hquota : HasQuota tenant quota s)
    (hmeets : program.RunMeets (keepsQuota tenant quota) ⟨s, []⟩ ms)
    (hrun : program.run ⟨s, []⟩ ms = some w)
    (hmeets' : program.RunMeets (keepsQuota tenant quota) w ms')
    (hrun' : program.run w ms' = some w') :
    (Within tenant quota w.shared → Within tenant quota w'.shared) ∧
      ∀ r judged, .write r judged ∈ w.tasks →
        w.shared.passes r.fence.key ≠ r.fence.passes →
          (w.shared.writeUnder r.request r.fence).1 ≠ .written ∧
            (w.shared.writeUnder r.request r.fence).2 = w.shared := by
  have hw : Holds _ _ w := quota_outline.run ⟨⟨hs, hquota⟩, by simp⟩ hmeets hrun
  constructor
  · intro hwithin
    exact (within_outline.run ⟨⟨hw.1, hwithin⟩, hw.2⟩ hmeets' hrun').1.2
  · intro r judged hr hpassed
    exact writeUnder_of_passed (hw.2 _ hr).1.1 hpassed

def upTo (vms : Nat) : TenantQuota := ⟨some (.clamp vms), none, none⟩

def oneVm : State where
  next := 1
  tenants := (∅ : Table String TenantQuota).put "t" 0 (upTo 1)
  vms := ∅
  volumes := ∅
  fences := ∅
  passed := []

theorem oneVm_ok : Ok oneVm := fun _ => zero_lt_one

def small : AgentSpec := ⟨some (.clamp 2), some (.clamp 512), []⟩

def raced : List (Move Event Unit) :=
  [.env (.createVm "a" "t" small false), .env (.createVm "b" "t" small false), .task 0 (),
    .task 1 (), .task 0 (), .task 1 (), .task 0 (), .task 1 (), .task 0 ()]

def racedOn : List (Move Event Unit) := [.task 0 (), .task 0 (), .task 0 (), .task 0 ()]

theorem usage_stays_within_quota_raced : ∃ w w' r judged,
    program.run ⟨oneVm, []⟩ raced = some w ∧ w.tasks = [.write r judged] ∧
      program.run w racedOn = some w' ∧ w'.tasks = [] ∧ Within "t" (upTo 1) w'.shared ∧
      (w.shared.writeUnder r.request r.fence).2 = w.shared := by
  have hquota : HasQuota "t" (upTo 1) oneVm := by
    rintro v ⟨⟩
    rfl
  have hmeets : program.RunMeets (keepsQuota "t" (upTo 1)) ⟨oneVm, []⟩ raced := by decide
  refine ⟨_, _, _, _, rfl, rfl, rfl, rfl, ?_, ?_⟩
  · exact (usage_stays_within_quota oneVm_ok hquota hmeets rfl (by decide)
      (show program.run _ racedOn = some _ from rfl)).1 rfl
  · exact ((usage_stays_within_quota oneVm_ok hquota hmeets rfl (by decide)
      (show program.run _ racedOn = some _ from rfl)).2 _ _ (mem_singleton.mpr rfl)
      (by decide)).2

def outdated (s : State) : Task → Bool
  | .write r (some judged) =>
    (s.tenants.cell r.tenant).any fun v => Quota.lowered judged v.val
  | _ => false

def judgedInForce : Guard State Task Event Unit where
  env _ _ := True
  task s t _ := outdated s t = false

instance (s event) : Decidable (judgedInForce.env s event) := .isTrue trivial

instance (s t input) : Decidable (judgedInForce.task s t input) :=
  inferInstanceAs (Decidable (outdated s t = false))

/--
A step that raises the usage of a tenant leaves it within the quota the store has for the
tenant then, however the requests and the writes of the tenant interleave, unless the quota
was lowered after the round read it.
-/
theorem raise_within_stored_quota {s : State} {ms : List (Move Event Unit)} {m : Move Event Unit}
    {w w' : World State Task} {tenant : String} {stored : Versioned TenantQuota} (hs : Ok s)
    (hrun : program.run ⟨s, []⟩ ms = some w) (hforce : judgedInForce.Meets w m)
    (hstep : program.step w m = some w') (hstored : w.shared.tenants.cell tenant = some stored)
    (hraises : ¬ (usage tenant w'.shared).AtMost (usage tenant w.shared)) :
    check stored.val tenant (usage tenant w'.shared) = .ok () := by
  have hw : Holds _ _ w := outline.run ⟨hs, by simp⟩ (runMeets_all _ _) hrun
  rcases program.step_cases hstep with ⟨event, new, -, henv, -⟩ |
    ⟨index, input, t, next, rfl, ht, htask, -⟩ | ⟨index, -, hsame, -⟩
  · exact absurd (env_quiet henv tenant).usage_atMost hraises
  · have htask' : task w.shared t input = some (w'.shared, next) := htask
    obtain ⟨r, judged, rfl, rfl, hcheck⟩ :=
      task_raises (hw.2 t (mem_of_getElem? ht)) htask' hraises
    have hkept : Quota.lowered judged stored.val = false := by
      simpa [judgedInForce, outdated, hstored] using hforce _ ht
    exact Quota.check_of_not_lowered hkept hcheck
  · rw [hsame] at hraises
    exact absurd (Quiet.refl tenant w.shared).usage_atMost hraises

def judgedBefore (quota : TenantQuota) : List (Move Event Unit) :=
  [.env (.createVm "a" "t" small false), .task 0 (), .task 0 (), .task 0 (),
    .env (.putTenant "t" quota)]

theorem raise_within_stored_quota_raised : ∃ w w' stored,
    program.run ⟨oneVm, []⟩ (judgedBefore (upTo 2)) = some w ∧
      program.step w (.task 0 ()) = some w' ∧ w.shared.tenants.cell "t" = some stored ∧
      check stored.val "t" (usage "t" w'.shared) = .ok () :=
  ⟨_, _, _, rfl, rfl, rfl, raise_within_stored_quota oneVm_ok
    (show program.run _ (judgedBefore (upTo 2)) = some _ from rfl)
    (show judgedInForce.Meets _ (.task 0 ()) by decide) rfl rfl (by decide)⟩

/-- The fence does not move when the quota is lowered, and the VM is admitted over it. -/
theorem admitted_over_lowered_quota : ∃ w w' stored,
    program.run ⟨oneVm, []⟩ (judgedBefore (upTo 0)) = some w ∧
      program.step w (.task 0 ()) = some w' ∧ w.shared.tenants.cell "t" = some stored ∧
      stored.val = upTo 0 ∧ ¬ (usage "t" w'.shared).AtMost (usage "t" w.shared) ∧
      check stored.val "t" (usage "t" w'.shared) =
        .error "tenant t would hold 1 vms, and its quota is 0" :=
  ⟨_, _, _, rfl, rfl, rfl, rfl, by decide, rfl⟩

end MeisterStack.CloudController.Admission
