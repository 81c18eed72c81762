import MeisterStack.Foundation.Assignment
import MeisterStack.ClusterController.HolderSafety
import MeisterStack.ClusterController.Migration

/-!
# Which binding an unbinding write hits at the cluster tier

The drain, an evacuation step and a `CannotServe` refusal clear `spec.nodeName` in a `mutate_if`
whose closure looks at nothing: the decision was taken on the VM as listed. A migration that ends is
added to the writers of `Holder` as an event.
-/

namespace MeisterStack.ClusterController.Unbinding

open Foundation ControllerApi Option
open MeisterStack.ClusterController.Holder hiding Event env program

inductive Event where
  | of (event : Holder.Event)
  | flip (target : String)

def env (s : State) (event : Event) : Option (State × List Task) :=
  match event with
  | .of event => Holder.env s event
  | .flip target =>
    s.cell.map fun v =>
      ((s.put (Migration.bindTo target v.val)).note (.bound target), [])

def made (log : List Fact) : List String :=
  log.filterMap fun fact =>
    match fact with
    | .bound node => some node
    | _ => none

def binding (s : State) : Assignment String :=
  ⟨s.cell.bind fun v => v.val.spec.nodeName, made s.log⟩

def unbinds (t : Dated Task (Reading String)) : Option String :=
  match t.task with
  | .refused node _ => some node
  | .evacuating mark => some mark.origin
  | .draining => t.began.value
  | _ => none

def tier : Clearing State Task Event Input String where
  program := ⟨env, task⟩
  assignment := binding
  target := unbinds

def ListedOn (r : Reading String) : Task → Prop
  | .pass vm => vm.val.spec.nodeName = r.value
  | .created _ node => r.value = some node
  | .refused node _ => r.value = some node
  | .evacuating mark => r.value = some mark.origin
  | _ => True

variable {s : State}

theorem binding_note {fact} (h : ∀ node, fact ≠ .bound node) :
    binding (s.note fact) = binding s := by
  cases fact <;> first | rfl | exact absurd rfl (h _)

variable {vm : Vm}

theorem binding_put {v} (hv : s.cell = some v) (hspec : vm.spec.nodeName = v.val.spec.nodeName) :
    binding (s.put vm) = binding s := by
  simp [binding, State.put, Slot.write, hv, hspec]

theorem next_put_unbound (hspec : vm.spec.nodeName = none) :
    (binding s).Next (binding (s.put vm)) := by
  have hclear : binding (s.put vm) = ⟨none, (binding s).made⟩ := by
    simp [binding, State.put, Slot.write, hspec]
  rw [hclear]
  exact .cleared

theorem next_mutate {edit} (h : ∀ v : Vm, (edit v).spec.nodeName = v.spec.nodeName) :
    (binding s).Next (binding (s.mutate edit)) := by
  have hkept : binding (s.mutate edit) = binding s :=
    mutate_rule (P := fun s' => binding s' = binding s) rfl fun v hv => binding_put hv (h v.val)
  rw [hkept]
  exact .kept

variable {s' : State} {x : Input}

theorem next_of_effect {t} (h : Effect s t x s') : (binding s).Next (binding s') := by
  cases h with
  | idle => exact .kept
  | heard | sent | refused | destroyed =>
    rw [binding_note (by simp)]
    exact .kept
  | forgot | ingested | answered | kicked =>
    refine next_mutate fun v => ?_
    simp only [forgetUnbound, ingestPhases, dispatchCreate, kick]
    split <;> rfl
  | unbound _ now edit ht hedit =>
    exact mutate_rule (P := fun s' => (binding s).Next (binding s')) .kept
      fun v _ => next_put_unbound (hedit.spec v.val)
  | bound vm node => exact .assigned node
  | removed => exact .cleared

theorem next_of_env {event new} (h : env s event = some (s', new)) :
    (binding s).Next (binding s') ∧ ∀ t ∈ new, ListedOn (binding s).read t := by
  cases event with
  | of =>
    obtain ⟨v, hv, heffect, hnew⟩ := env_effect h
    refine ⟨?_, fun t ht => ?_⟩
    · rcases heffect with rfl | ⟨-, rfl⟩ | ⟨vm, rfl, hspec, -⟩
      · exact .kept
      · exact next_put_unbound rfl
      · rw [binding_put hv hspec]
        exact .kept
    · rcases hnew t ht with rfl | rfl | rfl
      · trivial
      · simp [ListedOn, Assignment.read, binding, hv]
      · trivial
  | flip target =>
    obtain ⟨v, hv, ⟨⟩⟩ := map_eq_some_iff.mp h
    exact ⟨.assigned target, by simp⟩

theorem evacuates_origin {node mark} (h : evacuates vm node = some mark) : mark.origin = node := by
  have hfilter := (filter_eq_some_iff.mp h).2
  simp only [Bool.and_eq_true, decide_eq_true_eq] at hfilter
  exact hfilter.1.1

theorem pass_listedOn {vm next r} (hvm : vm.val.spec.nodeName = r.value)
    (h : pass s vm x = some (s', next)) : ∀ u ∈ next, ListedOn r u := by
  unfold Holder.pass at h
  split at h
  · split at h <;> cases h <;> simp [ListedOn]
  · split at h
    · split at h
      · cases h
        simp [ListedOn]
      · split at h <;> cases h
        simp [ListedOn]
    · rename_i node hnode
      split at h
      · split at h <;> cases h
        simp [ListedOn, ← hvm, hnode]
      · split at h <;> cases h
        simp [ListedOn]
      · split at h <;> cases h
        rename_i mark hmark
        simp [ListedOn, ← hvm, hnode, evacuates_origin hmark]
      · split at h <;> cases h
        simp [ListedOn]
      · cases h

theorem task_listedOn {t next r} (ht : ListedOn r t) (h : task s t x = some (s', next)) :
    ∀ u ∈ next, ListedOn r u := by
  unfold task at h
  split at h
  · cases h
    simp [ListedOn]
  · split at h <;> cases h <;> simp [ListedOn]
  · split at h <;> cases h <;> simp
  · exact pass_listedOn ht h
  · cases h
    simp [ListedOn]
  · cases h
    simpa [ListedOn] using ht
  · cases h
    simp [ListedOn]
  · cases h
    simp
  · cases h
    simp
  · cases h
    simp [ListedOn]
  · cases h
    simp
  · cases h
    simp
  · cases h
    simp
  · cases h
    simp
  · cases h
    simp
  · split at h <;> cases h <;> simp
  · cases h
    simp [ListedOn]
  · split at h <;> cases h <;> simp [ListedOn]
  · cases h

theorem tier_sound : tier.Sound ListedOn where
  env := next_of_env
  task ht h := ⟨next_of_effect (task_step h).1, task_listedOn ht h⟩
  target := by
    intro t r x ht hx
    cases t <;> simp_all [tier, unbinds, ListedOn]

def stopped : State :=
  ⟨⟨1, some ⟨0, { guest with
    spec := { guest.spec with nodeName := some "a" }
    status := { guest.status with
      phase := ⟨.stopped, none, none⟩
      reported := some (.of "a" .stopped .unrecorded none 3)
      nodeName := some "a"
      observedAt := some 3 } }⟩⟩, []⟩

def placedAnew : List (Move Event Input) :=
  [.env (.of .drain), .env (.of .unbind), .env (.of .list),
    .task 1 (.report ⟨"a", true, none, 4⟩), .task 2 (.go 4), .crash 2, .crash 1,
    .env (.of .pass), .task 1 (.place "b"), .task 1 (.go 5)]

end MeisterStack.ClusterController.Unbinding
