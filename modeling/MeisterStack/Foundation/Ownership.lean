import MeisterStack.Foundation.Program

/-!
# Tasks that own what they drew

A task may own a key that it drew fresh, such as a file name with a random part. No two tasks own
one key, so a step has to leave alone only the assertions of tasks that own other keys.
`OwnerOutline` is the proof rule of `Outline` with that restriction.
-/

namespace MeisterStack.Foundation

open List

namespace Program

variable {σ τ ε ι κ : Type*}

structure Owned (owns : τ → Option κ) (drawn : σ → κ → Prop) (w : World σ τ) : Prop where
  once : (w.tasks.filterMap owns).Nodup
  drawn : ∀ key ∈ w.tasks.filterMap owns, drawn w.shared key

def HandsOn (owns : τ → Option κ) (drawn : σ → κ → Prop) (s s' : σ) (own : Option κ)
    (next : List τ) : Prop :=
  next.filterMap owns = [] ∨
    ∃ key, next.filterMap owns = [key] ∧ (own = some key ∨ ¬drawn s key ∧ drawn s' key)

structure OwnerOutline (P : Program σ τ ε ι) (guard : Guard σ τ ε ι) (owns : τ → Option κ)
    (drawn : σ → κ → Prop) (shared : σ → Prop) (taskOk : σ → τ → Prop) : Prop where
  env : ∀ {s event s' new}, shared s → guard.env s event → P.env s event = some (s', new) →
    shared s' ∧ (∀ t ∈ new, owns t = none ∧ taskOk s' t) ∧ (∀ t, taskOk s t → taskOk s' t) ∧
      ∀ key, drawn s key → drawn s' key
  task : ∀ {s t input s' next}, shared s → taskOk s t → guard.task s t input →
    P.task s t input = some (s', next) →
      shared s' ∧ (∀ u ∈ next, taskOk s' u) ∧
      (∀ u, taskOk s u → (∀ key, owns u = some key → owns t ≠ some key) → taskOk s' u) ∧
      HandsOn owns drawn s s' (owns t) next ∧ ∀ key, drawn s key → drawn s' key

variable {P : Program σ τ ε ι} {guard : Guard σ τ ε ι} {owns : τ → Option κ}
  {drawn : σ → κ → Prop} {shared : σ → Prop} {taskOk : σ → τ → Prop}

theorem keys_perm (owns : τ → Option κ) {tasks : List τ} {index t} (ht : tasks[index]? = some t) :
    (tasks.filterMap owns).Perm
      ((owns t).toList ++
        (tasks.take index ++ tasks.drop (index + 1)).filterMap owns) := by
  have hlt := (List.getElem?_eq_some_iff.mp ht).1
  have hsplit : tasks = tasks.take index ++ t :: tasks.drop (index + 1) := by
    conv_lhs => rw [← take_append_drop index tasks, drop_eq_getElem_cons hlt]
    rw [(List.getElem?_eq_some_iff.mp ht).2]
  have hkeys : tasks.filterMap owns =
      (tasks.take index).filterMap owns ++
        ((owns t).toList ++ (tasks.drop (index + 1)).filterMap owns) := by
    conv_lhs => rw [hsplit, filterMap_append, filterMap_cons]
    cases owns t <;> rfl
  rw [hkeys, filterMap_append]
  exact perm_append_comm_assoc _ _ _

theorem OwnerOutline.step (outline : P.OwnerOutline guard owns drawn shared taskOk) {w w' m}
    (hw : Holds shared taskOk w) (ho : Owned owns drawn w) (hm : guard.Meets w m)
    (h : P.step w m = some w') : Holds shared taskOk w' ∧ Owned owns drawn w' := by
  obtain ⟨hshared, htasks⟩ := hw
  rcases P.step_cases h with ⟨event, new, rfl, henv, hnew⟩ |
    ⟨index, input, t, next, rfl, ht, htask, hnext⟩ | ⟨index, rfl, hs, herase⟩
  · obtain ⟨hs', hfresh, hkeep, hdrawn⟩ := outline.env hshared hm henv
    have hkeys : w'.tasks.filterMap owns = w.tasks.filterMap owns := by
      have hnone : new.filterMap owns = [] := by
        rw [filterMap_eq_nil_iff]
        exact fun t ht => (hfresh t ht).1
      rw [hnew, filterMap_append, hnone, append_nil]
    refine ⟨⟨hs', fun u hu => ?_⟩, hkeys ▸ ho.once, fun key hkey => hdrawn key (ho.drawn key ?_)⟩
    · rw [hnew, mem_append] at hu
      rcases hu with hu | hu
      · exact hkeep u (htasks u hu)
      · exact (hfresh u hu).2
    · rwa [← hkeys]
  · obtain ⟨hs', hfresh, hkeep, hhands, hdrawn⟩ := outline.task hshared
      (htasks t (mem_of_getElem? ht)) (hm t ht) htask
    have hperm := keys_perm owns ht
    have hrest : ∀ u ∈ w.tasks.take index ++ w.tasks.drop (index + 1), u ∈ w.tasks := by
      intro u hu
      rcases mem_append.mp hu with hu | hu
      · exact mem_of_mem_take hu
      · exact mem_of_mem_drop hu
    have honce := nodup_append.mp (hperm.nodup_iff.mp ho.once)
    have hkeys : (w'.tasks.filterMap owns).Perm (next.filterMap owns ++
        (w.tasks.take index ++ w.tasks.drop (index + 1)).filterMap owns) := by
      rw [hnext, filterMap_append, filterMap_append, filterMap_append,
        append_assoc]
      exact perm_append_comm_assoc _ _ _
    have hkept : ∀ u ∈ w.tasks.take index ++ w.tasks.drop (index + 1), taskOk w'.shared u := by
      refine fun u hu => hkeep u (htasks u (hrest u hu)) fun key hown hsame => ?_
      exact honce.2.2 key (by simp [hsame]) key (mem_filterMap.mpr ⟨u, hu, hown⟩) rfl
    refine ⟨⟨hs', fun u hu => ?_⟩, hkeys.nodup_iff.mpr ?_, fun key hkey => ?_⟩
    · rw [hnext, append_assoc, mem_append, mem_append] at hu
      rcases hu with hu | hu | hu
      · exact hkept u (mem_append_left _ hu)
      · exact hfresh u hu
      · exact hkept u (mem_append_right _ hu)
    · rcases hhands with hnil | ⟨key, hone, hkey⟩
      · rw [hnil]
        exact honce.2.1
      · rw [hone]
        refine nodup_cons.mpr ⟨fun hmem => ?_, honce.2.1⟩
        rcases hkey with hown | hundrawn
        · exact honce.2.2 key (by simp [hown]) key hmem rfl
        · exact hundrawn.1 (ho.drawn key (hperm.mem_iff.mpr (mem_append_right _ hmem)))
    · rcases mem_append.mp (hkeys.mem_iff.mp hkey) with hkey | hkey
      · rcases hhands with hnil | ⟨own, hone, hown | hnew⟩
        · rw [hnil] at hkey
          cases hkey
        · rw [hone, mem_singleton] at hkey
          subst hkey
          exact hdrawn key (ho.drawn key (hperm.mem_iff.mpr (by simp [hown])))
        · rw [hone, mem_singleton] at hkey
          subst hkey
          exact hnew.2
      · exact hdrawn key (ho.drawn key (hperm.mem_iff.mpr (mem_append_right _ hkey)))
  · refine ⟨⟨hs ▸ hshared, fun u hu => ?_⟩, ?_, fun key hkey => ?_⟩
    · rw [herase] at hu
      rw [hs]
      exact htasks u (mem_of_mem_eraseIdx hu)
    · rw [herase]
      exact ho.once.sublist ((eraseIdx_sublist _ _).filterMap owns)
    · rw [herase] at hkey
      rw [hs]
      exact ho.drawn key (((eraseIdx_sublist _ _).filterMap owns).subset hkey)

theorem OwnerOutline.run (outline : P.OwnerOutline guard owns drawn shared taskOk) {ms w w'}
    (hw : Holds shared taskOk w) (ho : Owned owns drawn w) (hm : P.RunMeets guard w ms)
    (h : P.run w ms = some w') : Holds shared taskOk w' ∧ Owned owns drawn w' := by
  induction ms generalizing w with
  | nil =>
    cases h
    exact ⟨hw, ho⟩
  | cons m ms ih =>
    obtain ⟨w1, hstep, hrest⟩ := P.run_cons h
    obtain ⟨hw1, ho1⟩ := outline.step hw ho hm.1 hstep
    exact ih hw1 ho1 (hm.2 w1 hstep) hrest

end Program

end MeisterStack.Foundation
