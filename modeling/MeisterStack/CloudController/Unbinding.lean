import MeisterStack.ClusterController.Unbinding
import MeisterStack.CloudController.BindingSafety

/-!
# Which binding an unbinding write hits

The cloud's drain and evacuation release `spec.clusterName` as the cluster tier clears
`spec.nodeName`: in a `mutate_if` that does not look at the binding it finds.
-/

namespace MeisterStack.CloudController.Unbinding

open Foundation ControllerApi
open CloudController.Binding
open ClusterController.Unbinding renaming tier → nodeTier, binding → nodeBinding,
  stopped → stoppedNode

def bindingsMade : Observer State Task Event Input (List String) where
  env _ _ made := made
  task s t input made :=
    match t, input with
    | .bind vm cluster, .go _ => if s.cell.standsAt vm.rev then cluster :: made else made
    | _, _ => made

def binding (s : State × List String) : Assignment String :=
  ⟨s.1.cell.bind fun v => v.val.spec.clusterName, s.2⟩

def releases (t : Dated Task (Reading String)) : Option String :=
  match t.task with
  | .evacuating mark => some mark.origin
  | .draining => t.began.value
  | _ => none

def tier : Clearing (State × List String) Task Event Input String where
  program := program.observed bindingsMade
  assignment := binding
  target := releases

def ListedOn (r : Reading String) : Task → Prop
  | .pass vm => vm.val.spec.clusterName = r.value
  | .evacuating mark => r.value = some mark.origin
  | _ => True

variable {s : State} {made : List String} {vm : Vm}

theorem binding_put {v} (hv : s.cell = some v)
    (hspec : vm.spec.clusterName = v.val.spec.clusterName) :
    binding (s.put vm, made) = binding (s, made) := by
  simp [binding, State.put, Slot.write, hv, hspec]

theorem next_put_unbound
    (hspec : vm.spec.clusterName = none) : (binding (s, made)).Next (binding (s.put vm, made)) := by
  have hclear : binding (s.put vm, made) = ⟨none, (binding (s, made)).made⟩ := by
    simp [binding, State.put, Slot.write, hspec]
  rw [hclear]
  exact .cleared

theorem next_mutate {edit} (h : ∀ v : Vm, (edit v).spec.clusterName = v.spec.clusterName) :
    (binding (s, made)).Next (binding (s.mutate edit, made)) := by
  have hkept : binding (s.mutate edit, made) = binding (s, made) :=
    mutate_rule (P := fun s' => binding (s', made) = binding (s, made)) rfl
      fun v hv => binding_put hv (h v.val)
  rw [hkept]
  exact .kept

variable {t : Task} {x : Input}

theorem bindingsMade_task
    (h : ∀ vm cluster, t ≠ .bind vm cluster) : bindingsMade.task s t x made = made := by
  dsimp only [bindingsMade]
  split
  · exact absurd rfl (h _ _)
  · rfl

variable {s' : State}

theorem next_of_effect (h : Effect s t x s') (ht : ∀ vm cluster, t ≠ .bind vm cluster) (made) :
    (binding (s, made)).Next (binding (s', made)) := by
  cases h with
  | idle | acks => exact .kept
  | forgot listed r => exact next_mutate fun v => by rw [(forgetUnbound_spec r v).1]
  | ingested listed r now phase reason message =>
    exact next_mutate fun v => by rw [(ingestPhases_spec r phase reason message v).1]
  | recorded _ now edit hrecords hedit => exact next_mutate hedit.spec
  | stamped => exact next_mutate fun _ => rfl
  | released _ now edit hreleases hedit =>
    exact mutate_rule (P := fun s' => (binding (s, made)).Next (binding (s', made))) .kept
      fun v _ => next_put_unbound (hedit.spec v.val)
  | bound => exact absurd rfl (ht _ _)
  | removed => exact .cleared

variable {next : List Task}

theorem next_of_task (h : task s t x = some (s', next)) (made) :
    (binding (s, made)).Next (binding (s', bindingsMade.task s t x made)) := by
  by_cases hbind : ∃ vm cluster, t = .bind vm cluster
  · obtain ⟨vm, cluster, rfl⟩ := hbind
    cases x with
    | go =>
      dsimp only [task, bindingsMade] at h ⊢
      split at h <;> rename_i hstands <;> cases h
      · rw [if_pos hstands]
        exact .assigned cluster
      · rw [if_neg hstands]
        exact .kept
    | _ => cases h
  · have ht : ∀ vm cluster, t ≠ .bind vm cluster := fun vm cluster heq => hbind ⟨vm, cluster, heq⟩
    rw [bindingsMade_task ht]
    exact next_of_effect (task_step h).1 ht made

theorem next_of_env {event new} (h : env s event = some (s', new)) (made) :
    (binding (s, made)).Next (binding (s', made)) ∧
      ∀ t ∈ new, ListedOn (binding (s, made)).read t := by
  obtain ⟨r, rfl, rfl⟩ | ⟨v, hv, heffect⟩ := env_effect h
  · have hkept : binding (s.hear r, made) = binding (s, made) := by simp [binding]
    rw [hkept]
    exact ⟨.kept, by simp [ListedOn]⟩
  · rcases heffect with ⟨rfl, rfl | rfl⟩ | ⟨-, rfl, rfl⟩ | ⟨vm, rfl, hspec, -, -, rfl⟩
    · exact ⟨.kept, by simp [ListedOn, Assignment.read, binding, hv]⟩
    · exact ⟨.kept, by simp [ListedOn]⟩
    · exact ⟨next_put_unbound rfl, by simp⟩
    · rw [binding_put hv hspec]
      exact ⟨.kept, by simp⟩

variable {r : Reading String}

theorem evacuates_origin {cluster mark} (h : evacuates vm cluster = some mark) :
    mark.origin = cluster := by
  have hfilter := (Option.filter_eq_some_iff.mp h).2
  simp only [Bool.and_eq_true, decide_eq_true_eq] at hfilter
  exact hfilter.1.1

theorem ListedOn.spawned {u} (ht : ListedOn r t) (h : Spawned s t u) : ListedOn r u := by
  cases h with
  | plain _ _ hplain =>
    cases u with
    | pass | evacuating => cases hplain
    | _ => trivial
  | evacuating vm cluster mark hcluster hmark =>
    have hvalue : r.value = some cluster := ht.symm.trans hcluster
    simp [ListedOn, hvalue, evacuates_origin hmark]
  | _ => trivial

theorem tier_sound : tier.Sound ListedOn where
  env := by
    rintro ⟨s, made⟩ event ⟨s', made'⟩ new h
    obtain ⟨henv, hmade⟩ := Program.observed_env h
    cases hmade
    exact next_of_env henv made
  task := by
    rintro ⟨s, made⟩ t x ⟨s', made'⟩ next r ht h
    obtain ⟨htask, hmade⟩ := Program.observed_task h
    cases hmade
    exact ⟨next_of_task htask made, fun u hu => ht.spawned ((task_step htask).2 u hu)⟩
  target := by
    intro t r x ht hx
    cases t <;> simp_all [tier, releases, ListedOn]

/--
Whatever ran before, an automatic unbind of either tier clears the binding to the node or
cluster it was decided about, unless the VM has been bound elsewhere since the listing.
-/
theorem unbind_clears_its_own (node : ClusterController.Holder.State)
    (cluster : State × List String) :
    (∀ ms w m, nodeTier.dated.run ⟨node, []⟩ ms = some w → nodeTier.undisturbed.Meets w m →
      nodeTier.ClearsOwn w m) ∧
    ∀ ms w m, tier.dated.run ⟨cluster, []⟩ ms = some w → tier.undisturbed.Meets w m →
      tier.ClearsOwn w m :=
  ⟨fun _ _ _ hrun hm => ClusterController.Unbinding.tier_sound.clearsOwn hrun hm,
    fun _ _ _ hrun hm => tier_sound.clearsOwn hrun hm⟩

def stopped : State × List String :=
  (⟨⟨1, some ⟨0, { guest with
    spec := { guest.spec with clusterName := some "c" }
    status := { guest.status with
      phase := ⟨.stopped, none, none⟩
      reported := some (.of "c" .stopped .unrecorded none 3)
      clusterName := some "c"
      observedAt := some 3 } }⟩⟩, [], none⟩, [])

def placedAnew : List (Move Event Input) :=
  [.env .drain, .env .release, .env (.status ⟨"c", true, none, 4⟩), .task 1 (.go 4),
    .task 1 (.go 4), .crash 1, .env .pass, .task 1 (.place "d"), .task 1 (.go 5)]

theorem unbind_clears_its_own_drained :
    (∃ w w', nodeTier.dated.run ⟨stoppedNode, []⟩ [.env (.of .drain)] = some w ∧
      nodeTier.dated.step w (.task 0 (.go 4)) = some w' ∧ (nodeBinding w.shared).now = some "a" ∧
      (nodeBinding w'.shared).now = none ∧ nodeTier.ClearsOwn w (.task 0 (.go 4))) ∧
    ∃ w w', tier.dated.run ⟨stopped, []⟩ [.env .drain] = some w ∧
      tier.dated.step w (.task 0 (.go 4)) = some w' ∧ (binding w.shared).now = some "c" ∧
      (binding w'.shared).now = none ∧ tier.ClearsOwn w (.task 0 (.go 4)) :=
  have hclears := unbind_clears_its_own stoppedNode stopped
  ⟨⟨_, _, rfl, rfl, rfl, rfl, hclears.1 [.env (.of .drain)] _ _ rfl (by decide)⟩,
    ⟨_, _, rfl, rfl, rfl, rfl, hclears.2 [.env .drain] _ _ rfl (by decide)⟩⟩

/-- The drains of both tiers take away the binding made after they listed the VM. -/
theorem unbind_clears_a_new_binding :
    (∃ w, nodeTier.dated.run ⟨stoppedNode, []⟩ ClusterController.Unbinding.placedAnew = some w ∧
      (nodeBinding w.shared).now = some "b" ∧ ¬nodeTier.ClearsOwn w (.task 0 (.go 6))) ∧
    ∃ w, tier.dated.run ⟨stopped, []⟩ placedAnew = some w ∧
      (binding w.shared).now = some "d" ∧ ¬tier.ClearsOwn w (.task 0 (.go 6)) :=
  ⟨⟨_, rfl, rfl, fun h => absurd (h 0 _ _ "a" _ rfl rfl rfl rfl "b" rfl rfl) (by decide)⟩,
    ⟨_, rfl, rfl, fun h => absurd (h 0 _ _ "c" _ rfl rfl rfl rfl "d" rfl rfl) (by decide)⟩⟩

end MeisterStack.CloudController.Unbinding
