import MeisterStack.Foundation.Program
import MeisterStack.Foundation.Revision

/-!
# Calls on a shared store

A call is the rest of a procedure that works on a store through single operations: a read of one
key, a listing, or a transaction on one key under a compare of its revision. Anybody may commit
between two operations, any may fail, and the answer to a transaction may be lost after it landed. A
site is the store with the history of its commits.
-/

namespace MeisterStack.Foundation

open List Relation Table

structure Store (κ α : Type) where
  next : Nat
  objects : Table κ α

namespace Store

variable {κ α : Type} [DecidableEq κ] {s : Store κ α} {key key' : κ} {v : Versioned α}

def cell (s : Store κ α) (key : κ) : Cell α := s.objects.cell key

def commit (s : Store κ α) (key : κ) : Option α → Store κ α
  | some x => ⟨s.next + 1, s.objects.put key s.next x⟩
  | none => ⟨s.next + 1, s.objects.remove key⟩

@[simp] theorem commit_next (s : Store κ α) (key : κ) (new) :
    (s.commit key new).next = s.next + 1 := by
  cases new <;> rfl

@[simp] theorem cell_commit_self (s : Store κ α) (key : κ) (new : Option α) :
    (s.commit key new).cell key = new.map (⟨s.next, ·⟩) := by
  cases new with
  | none => exact cell_remove_self s.objects key
  | some x => exact cell_put_self s.objects key s.next x

theorem cell_commit_ne (s : Store κ α) (h : key' ≠ key) (new) :
    (s.commit key new).cell key' = s.cell key' := by
  cases new with
  | none => exact cell_remove_ne s.objects h
  | some x => exact cell_put_ne s.objects h s.next x

structure Sound (s : Store κ α) : Prop where
  pos : 0 < s.next
  stored : ∀ {key v}, s.cell key = some v → 0 < v.rev ∧ v.rev < s.next

def Knew (s : Store κ α) (key : κ) (v : Versioned α) : Prop :=
  0 < v.rev ∧ (s.cell key).Saw s.next v

theorem Sound.knew (h : s.Sound) (hv : s.cell key = some v) : s.Knew key v := by
  refine ⟨(h.stored hv).1, (h.stored hv).2, fun w hw _ => ?_⟩
  rw [hv] at hw
  exact (Option.some.inj hw).symm

theorem Knew.stands (h : s.Knew key v) (hrev : (s.cell key).revision = v.rev) :
    s.cell key = some v := by
  cases hc : s.cell key with
  | none =>
    rw [hc] at hrev
    exact absurd hrev h.1.ne
  | some w =>
    rw [hc] at hrev
    exact congrArg some (h.2.2 w hc hrev)

theorem Sound.commit (h : s.Sound) (key : κ) (new : Option α) : (s.commit key new).Sound where
  pos := by simp
  stored {key' v} hv := by
    rw [commit_next]
    by_cases hk : key' = key
    · subst hk
      rw [cell_commit_self] at hv
      cases new with
      | none => cases hv
      | some =>
        cases hv
        exact ⟨h.pos, Nat.lt_succ_self _⟩
    · rw [cell_commit_ne s hk] at hv
      exact ⟨(h.stored hv).1, (h.stored hv).2.trans (Nat.lt_succ_self _)⟩

theorem Knew.commit (h : s.Knew key v) (key' : κ) (new : Option α) :
    (s.commit key' new).Knew key v := by
  refine ⟨h.1, ?_⟩
  rw [commit_next]
  by_cases hk : key = key'
  · subst hk
    rw [cell_commit_self]
    cases new with
    | none => exact h.2.gone (Nat.le_succ _)
    | some x => exact h.2.write x
  · rw [cell_commit_ne s hk]
    exact h.2.mono (Nat.le_succ _)

end Store

inductive Reply (α : Type) where
  | landed (rev : Nat)
  | refused (found : Cell α)

inductive Call (κ α ε ρ : Type) where
  | ret (answer : ρ)
  | read (key : κ) (next : Except ε (Cell α) → Call κ α ε ρ)
  | list (next : Except ε (List (κ × Versioned α)) → Call κ α ε ρ)
  | txn (key : κ) (expect : Nat) (new : Option α) (next : Except ε (Reply α) → Call κ α ε ρ)

namespace Call

variable {κ α ε ρ ρ' : Type}

def bind : Call κ α ε ρ → (ρ → Call κ α ε ρ') → Call κ α ε ρ'
  | .ret answer, f => f answer
  | .read key next, f => .read key fun heard => (next heard).bind f
  | .list next, f => .list fun heard => (next heard).bind f
  | .txn key expect new next, f => .txn key expect new fun heard => (next heard).bind f

def map (f : ρ → ρ') (call : Call κ α ε ρ) : Call κ α ε ρ' :=
  call.bind fun answer => .ret (f answer)

end Call

inductive Heard (ε : Type) where
  | answer
  | failed (why : ε)
  | lost (why : ε)

structure Commit (ω κ α : Type) where
  who : Option ω
  key : κ
  new : Option α
  store : Store κ α

def Commit.found {ω κ α : Type} [DecidableEq κ] (c : Commit ω κ α) : Cell α := c.store.cell c.key

structure Pending (ω κ α ε ρ : Type) where
  request : ω
  began : Nat
  own : List (Commit ω κ α)
  rest : Call κ α ε ρ

structure Answered (ω κ α ρ : Type) where
  request : ω
  began : Nat
  ended : Nat
  own : List (Commit ω κ α)
  answer : ρ

structure Site (ω κ α ρ : Type) where
  store : Store κ α
  commits : List (Commit ω κ α)
  answers : List (Answered ω κ α ρ)

namespace Site

variable {ω κ α ρ : Type} [DecidableEq κ] {s s' : Site ω κ α ρ}

def of (store : Store κ α) : Site ω κ α ρ := ⟨store, [], []⟩

def moments (s : Site ω κ α ρ) : List (Store κ α) := s.commits.map Commit.store ++ [s.store]

def commit (s : Site ω κ α ρ) (who : Option ω) (key : κ) (new : Option α) : Site ω κ α ρ :=
  { s with
    store := s.store.commit key new
    commits := s.commits ++ [⟨who, key, new, s.store⟩] }

def answer (s : Site ω κ α ρ) (a : Answered ω κ α ρ) : Site ω κ α ρ :=
  { s with answers := s.answers ++ [a] }

@[simp] theorem commit_store (s : Site ω κ α ρ) (who) (key : κ) (new) :
    (s.commit who key new).store = s.store.commit key new := rfl

@[simp] theorem moments_commit (s : Site ω κ α ρ) (who) (key : κ) (new) :
    (s.commit who key new).moments = s.moments ++ [s.store.commit key new] := by
  simp [moments, commit]

omit [DecidableEq κ] in
theorem moments_now (s : Site ω κ α ρ) : s.moments[s.commits.length]? = some s.store := by
  simp [moments]

def Since (s : Site ω κ α ρ) (began : Nat) (was : Store κ α → Prop) : Prop :=
  ∃ i store, began ≤ i ∧ s.moments[i]? = some store ∧ was store

omit [DecidableEq κ] in
theorem since_now {began} {was : Store κ α → Prop} (hle : began ≤ s.commits.length)
    (h : was s.store) : s.Since began was :=
  ⟨s.commits.length, s.store, hle, s.moments_now, h⟩

def During (s : Site ω κ α ρ) (began ended : Nat) (was : Store κ α → Prop) : Prop :=
  ∃ i store, began ≤ i ∧ i ≤ ended ∧ s.moments[i]? = some store ∧ was store

def Had (s : Site ω κ α ρ) (key : κ) (v : Versioned α) : Prop :=
  ∃ store ∈ s.moments, store.cell key = some v

instance [DecidableEq α] (s : Site ω κ α ρ) (key : κ) (v) : Decidable (s.Had key v) :=
  inferInstanceAs (Decidable (∃ store ∈ s.moments, store.cell key = some v))

structure Remembers (s : Site ω κ α ρ) : Prop where
  sound : s.store.Sound
  knew : ∀ {store key v}, store ∈ s.moments → store.cell key = some v → s.store.Knew key v

theorem Remembers.of {store} (h : store.Sound) :
    (Site.of store : Site ω κ α ρ).Remembers where
  sound := h
  knew {store' key v} hmem hv := by
    simp only [moments, Site.of, map_nil, nil_append, mem_singleton] at hmem
    subst hmem
    exact h.knew hv

theorem Remembers.commit (h : s.Remembers) (who) (key : κ) (new) :
    (s.commit who key new).Remembers where
  sound := h.sound.commit key new
  knew {store key' v} hmem hv := by
    rw [moments_commit, mem_append, mem_singleton] at hmem
    rcases hmem with hmem | rfl
    · exact (h.knew hmem hv).commit key new
    · exact (h.sound.commit key new).knew hv

def Chained (s : Site ω κ α ρ) : Prop :=
  ∀ i c, s.commits[i]? = some c → s.moments[i + 1]? = some (c.store.commit c.key c.new)

omit [DecidableEq κ] in
theorem moments_of_commit {i : Nat} {c} (h : s.commits[i]? = some c) :
    s.moments[i]? = some c.store := by
  have hlt := (List.getElem?_eq_some_iff.mp h).1
  rw [moments, List.getElem?_append_left (by simpa using hlt)]
  simp [h]

omit [DecidableEq κ] in
theorem moments_length (s : Site ω κ α ρ) : s.moments.length = s.commits.length + 1 := by
  simp [moments]

theorem chained_of (store) : (Site.of store : Site ω κ α ρ).Chained := by
  intro i c h
  simp [Site.of] at h

theorem Chained.commit (h : s.Chained) (who : Option ω) (key : κ) (new : Option α) :
    (s.commit who key new).Chained := by
  intro i c hc
  rw [moments_commit]
  rcases Nat.lt_or_ge i s.commits.length with hlt | hge
  · have hc' : s.commits[i]? = some c := by
      rwa [Site.commit, List.getElem?_append_left hlt] at hc
    rw [List.getElem?_append_left (by rw [moments_length]; omega)]
    exact h i c hc'
  · rw [Site.commit, List.getElem?_append_right hge] at hc
    obtain ⟨hi, rfl⟩ := List.getElem?_eq_some_iff.mp hc
    simp only [List.length_singleton] at hi
    rw [List.getElem?_append_right (by rw [moments_length]; omega), moments_length,
      show i + 1 - (s.commits.length + 1) = 0 by omega]
    simp

theorem Chained.keep (h : s.Chained) (holds : Store κ α → Prop) {i j : Nat}
    {store store'} (hij : i ≤ j) (hi : s.moments[i]? = some store)
    (hj : s.moments[j]? = some store') (hs : holds store)
    (hstep : ∀ k c, i ≤ k → k < j → s.commits[k]? = some c → holds c.store →
      holds (c.store.commit c.key c.new)) : holds store' := by
  induction j, hij using Nat.le_induction generalizing store' with
  | base =>
    rw [hi] at hj
    cases hj
    exact hs
  | succ j hij ih =>
    have hlt : j < s.commits.length := by
      have := (List.getElem?_eq_some_iff.mp hj).1
      rw [moments_length] at this
      omega
    obtain ⟨c, hc⟩ : ∃ c, s.commits[j]? = some c := ⟨_, List.getElem?_eq_getElem hlt⟩
    have hbefore : holds c.store := ih (moments_of_commit hc)
      fun k c hk hlt => hstep k c hk (hlt.trans (Nat.lt_succ_self j))
    rw [h j c hc] at hj
    cases hj
    exact hstep j c hij (Nat.lt_succ_self j) hc hbefore

end Site

/-- Which writes may land in a store, by whom. -/
abbrev WriteRule (ω κ α : Type) := Store κ α → Option ω → κ → Option α → Prop

/-- Which writes a call may attempt, at which revision. -/
abbrev AttemptRule (ω κ α : Type) := Store κ α → ω → κ → Nat → Option α → Prop

/-- What an answer is to say of the site and of the call's own commits. -/
abbrev Post (ω κ α A ρ : Type) := Site ω κ α A → List (Commit ω κ α) → ρ → Prop

/-- `post` after the call's own write has landed in `s`. -/
abbrev Post.Landed {ω κ α A ρ : Type} [DecidableEq κ] (post : Post ω κ α A ρ) (who : ω)
    (own : List (Commit ω κ α)) (s : Site ω κ α A) (key : κ) (new : Option α) (answer : ρ) : Prop :=
  post (s.commit (some who) key new) (own ++ [⟨some who, key, new, s.store⟩]) answer

section Interference

variable {ω κ α ε ρ ρ' A : Type} [DecidableEq κ]
  {legal : WriteRule ω κ α}

inductive Next (legal : WriteRule ω κ α) (s : Site ω κ α A) :
    Site ω κ α A → Prop
  | commit (who : Option ω) (key : κ) (new : Option α) (h : legal s.store who key new) :
      Next legal s (s.commit who key new)
  | answer (a : Answered ω κ α A) : Next legal s (s.answer a)

def Later (legal : WriteRule ω κ α) :
    Site ω κ α A → Site ω κ α A → Prop :=
  ReflTransGen (Next legal)

namespace Later

variable {s s' s'' : Site ω κ α A}

@[refl] theorem refl (s : Site ω κ α A) : Later legal s s := ReflTransGen.refl

theorem trans (h : Later legal s s') (h' : Later legal s' s'') : Later legal s s'' :=
  ReflTransGen.trans h h'

theorem next (h : Next legal s s') : Later legal s s' := ReflTransGen.single h

theorem keep (holds : Site ω κ α A → Prop) (h : Later legal s s') (hs : holds s)
    (hstep : ∀ {a b}, Next legal a b → holds a → holds b) : holds s' := by
  induction h with
  | refl => exact hs
  | tail _ hnext ih => exact hstep hnext ih

variable (h : Later legal s s')

include h

theorem knew {key v} (hs : s.store.Knew key v) : s'.store.Knew key v := by
  refine h.keep (fun s => s.store.Knew key v) hs fun hnext hk => ?_
  cases hnext with
  | commit who key' new => exact hk.commit key' new
  | answer => exact hk

theorem sound (hs : s.store.Sound) : s'.store.Sound := by
  refine h.keep (fun s => s.store.Sound) hs fun hnext hk => ?_
  cases hnext with
  | commit who key new => exact hk.commit key new
  | answer => exact hk

theorem moments : s.moments <+: s'.moments := by
  refine h.keep (fun s' => s.moments <+: s'.moments) prefix_rfl fun hnext hk => ?_
  cases hnext with
  | commit who key new _ =>
    rw [Site.moments_commit]
    exact hk.trans (prefix_append _ _)
  | answer => exact hk

theorem commits : s.commits <+: s'.commits := by
  refine h.keep (fun s' => s.commits <+: s'.commits) prefix_rfl fun hnext hk => ?_
  cases hnext with
  | commit who key new _ => exact hk.trans (prefix_append _ _)
  | answer => exact hk

theorem remembers (hs : s.Remembers) : s'.Remembers := by
  refine h.keep (fun s => s.Remembers) hs fun hnext hk => ?_
  cases hnext with
  | commit who key new => exact hk.commit who key new
  | answer => exact ⟨hk.sound, hk.knew⟩

theorem chained (hs : s.Chained) : s'.Chained := by
  refine h.keep (fun s => s.Chained) hs fun hnext hk => ?_
  cases hnext with
  | commit who key new => exact hk.commit who key new
  | answer => exact hk

theorem since {began} {was : Store κ α → Prop} (hs : s.Since began was) : s'.Since began was := by
  obtain ⟨i, store, hle, hi, hwas⟩ := hs
  obtain ⟨more, hmore⟩ := h.moments
  refine ⟨i, store, hle, ?_, hwas⟩
  rw [← hmore, List.getElem?_append_left (List.getElem?_eq_some_iff.mp hi).1]
  exact hi

theorem during {began} {was : Store κ α → Prop} (hs : s.Since began was) :
    s'.During began s.commits.length was := by
  obtain ⟨i, store, hle, hi, hwas⟩ := hs
  obtain ⟨more, hmore⟩ := h.moments
  have hlt := (List.getElem?_eq_some_iff.mp hi).1
  refine ⟨i, store, hle, ?_, ?_, hwas⟩
  · simp only [Site.moments, List.length_append, List.length_map, List.length_singleton] at hlt
    exact Nat.lt_succ_iff.mp hlt
  · rw [← hmore, List.getElem?_append_left hlt]
    exact hi

end Later

/--
Under every legal interference: what the call commits is legal, and it ends with
an answer that meets the postcondition, which is told the call's own commits.
A transaction is considered only where it meets the guard.
-/
def Call.Safe (legal : WriteRule ω κ α)
    (guard : AttemptRule ω κ α) (who : ω)
    (post : Post ω κ α A ρ) :
    Call κ α ε ρ → List (Commit ω κ α) → Site ω κ α A → Prop
  | .ret answer, own, s => ∀ s', Later legal s s' → post s' own answer
  | .read key next, own, s => ∀ s', Later legal s s' →
      (∀ why, (next (.error why)).Safe legal guard who post own s') ∧
      (next (.ok (s'.store.cell key))).Safe legal guard who post own s'
  | .list next, own, s => ∀ s', Later legal s s' →
      (∀ why, (next (.error why)).Safe legal guard who post own s') ∧
      (next (.ok s'.store.objects.list)).Safe legal guard who post own s'
  | .txn key expect new next, own, s => ∀ s', Later legal s s' →
      guard s'.store who key expect new →
      (∀ why, (next (.error why)).Safe legal guard who post own s') ∧
      ((s'.store.cell key).revision ≠ expect →
        (next (.ok (.refused (s'.store.cell key)))).Safe legal guard who post own s') ∧
      ((s'.store.cell key).revision = expect →
        legal s'.store (some who) key new ∧
        (∀ why, (next (.error why)).Safe legal guard who post
          (own ++ [⟨some who, key, new, s'.store⟩]) (s'.commit (some who) key new)) ∧
        (next (.ok (.landed s'.store.next))).Safe legal guard who post
          (own ++ [⟨some who, key, new, s'.store⟩]) (s'.commit (some who) key new))

def Stable (legal : WriteRule ω κ α)
    (post : Post ω κ α A ρ) : Prop :=
  ∀ ⦃s s' own answer⦄, Later legal s s' → post s own answer → post s' own answer

theorem Stable.comp {post : Post ω κ α A ρ}
    (h : Stable legal post) (f : ρ' → ρ) :
    Stable legal fun s own answer => post s own (f answer) :=
  fun _ _ _ _ hl hpost => h hl hpost

namespace Call.Safe

variable {guard : AttemptRule ω κ α} {who : ω}
  {post : Post ω κ α A ρ} {s s' : Site ω κ α A}
  {own : List (Commit ω κ α)}

theorem later {call : Call κ α ε ρ} (h : call.Safe legal guard who post own s)
    (hl : Later legal s s') : call.Safe legal guard who post own s' := by
  cases call with
  | ret | read | list | txn => exact fun s'' hl' => h s'' (hl.trans hl')

theorem stable (f : ρ' → Call κ α ε ρ) :
    Stable legal fun s own answer => (f answer).Safe legal guard who post own s :=
  fun _ _ _ _ hl h => h.later hl

theorem ret {answer} (hstable : Stable legal post) (h : post s own answer) :
    (Call.ret answer : Call κ α ε ρ).Safe legal guard who post own s :=
  fun _ hl => hstable hl h

theorem txn {key} {expect} {new} {next : Except ε (Reply α) → Call κ α ε ρ}
    (hlegal : ∀ s', Later legal s s' → guard s'.store who key expect new →
      (s'.store.cell key).revision = expect → legal s'.store (some who) key new)
    (hnext : ∀ s' own heard, Later legal s s' → (next heard).Safe legal guard who post own s') :
    (Call.txn key expect new next).Safe legal guard who post own s := by
  intro s' hl hguard
  refine ⟨fun why => hnext _ _ _ hl, fun _ => hnext _ _ _ hl, fun hrev => ?_⟩
  have hl' := hl.trans (.next (.commit (some who) key new (hlegal s' hl hguard hrev)))
  exact ⟨hlegal s' hl hguard hrev, fun why => hnext _ _ _ hl', hnext _ _ _ hl'⟩

theorem bind {call : Call κ α ε ρ'} {f} (h : call.Safe legal guard who
      (fun s own answer => (f answer).Safe legal guard who post own s) own s) :
    (call.bind f).Safe legal guard who post own s := by
  induction call generalizing own s with
  | ret => exact h s (.refl s)
  | read key next ih | list next ih =>
    intro s' hl
    obtain ⟨herror, hok⟩ := h s' hl
    exact ⟨fun why => ih _ (herror why), ih _ hok⟩
  | txn key expect new next ih =>
    intro s' hl hguard
    obtain ⟨herror, hrefused, hlanded⟩ := h s' hl hguard
    refine ⟨fun why => ih _ (herror why), fun hne => ih _ (hrefused hne), fun heq => ?_⟩
    obtain ⟨hlegal, hlost, hok⟩ := hlanded heq
    exact ⟨hlegal, fun why => ih _ (hlost why), ih _ hok⟩

theorem mono {call : Call κ α ε ρ} {post'} (h : call.Safe legal guard who post own s)
    (himp : ∀ s' own answer, Later legal s s' → post s' own answer → post' s' own answer) :
    call.Safe legal guard who post' own s := by
  induction call generalizing own s with
  | ret answer => exact fun s' hl => himp s' own answer hl (h s' hl)
  | read key next ih | list next ih =>
    intro s' hl
    obtain ⟨herror, hok⟩ := h s' hl
    have himp' := fun s'' own answer hl' => himp s'' own answer (hl.trans hl')
    exact ⟨fun why => ih _ (herror why) himp', ih _ hok himp'⟩
  | txn key expect new next ih =>
    intro s' hl hguard
    obtain ⟨herror, hrefused, hlanded⟩ := h s' hl hguard
    have himp' := fun s'' own answer hl' => himp s'' own answer (hl.trans hl')
    refine ⟨fun why => ih _ (herror why) himp', fun hne => ih _ (hrefused hne) himp', fun heq => ?_⟩
    obtain ⟨hlegal, hlost, hok⟩ := hlanded heq
    have hnext : Later legal s' (s'.commit (some who) key new) := .next (.commit _ _ _ hlegal)
    have himp'' := fun s'' own answer hl' => himp' s'' own answer (hnext.trans hl')
    exact ⟨hlegal, fun why => ih _ (hlost why) himp'', ih _ hok himp''⟩

theorem map {call : Call κ α ε ρ'} {f} (hstable : Stable legal post)
    (h : call.Safe legal guard who (fun s own answer => post s own (f answer)) own s) :
    (call.map f).Safe legal guard who post own s :=
  bind (h.mono fun _ _ _ _ hpost => ret hstable hpost)

end Call.Safe

end Interference

inductive SiteEvent (ω κ α : Type) where
  | write (key : κ) (new : Option α)
  | ask (request : ω)

structure System (ω κ α ε A : Type) where
  writes : Store κ α → κ → Option α → Bool
  begins : Site ω κ α A → ω → Option (Call κ α ε A)

namespace System

variable {ω κ α ε A : Type} [DecidableEq κ] (sys : System ω κ α ε A) (s : Site ω κ α A)

def env :
    SiteEvent ω κ α → Option (Site ω κ α A × List (Pending ω κ α ε A))
  | .write key new => if sys.writes s.store key new then some (s.commit none key new, []) else none
  | .ask request =>
    match sys.begins s request with
    | some call => some (s, [⟨request, s.commits.length, [], call⟩])
    | none => none

variable (p : Pending ω κ α ε A)

def land (key : κ) (new : Option α)
    (rest : Call κ α ε A) : Site ω κ α A × List (Pending ω κ α ε A) :=
  (s.commit (some p.request) key new,
    [{ p with own := p.own ++ [⟨some p.request, key, new, s.store⟩], rest := rest }])

def task (heard : Heard ε) :
    Option (Site ω κ α A × List (Pending ω κ α ε A)) :=
  match p.rest with
  | .ret answer => some (s.answer ⟨p.request, p.began, s.commits.length, p.own, answer⟩, [])
  | .read key next =>
    match heard with
    | .answer => some (s, [{ p with rest := next (.ok (s.store.cell key)) }])
    | .failed why | .lost why => some (s, [{ p with rest := next (.error why) }])
  | .list next =>
    match heard with
    | .answer => some (s, [{ p with rest := next (.ok s.store.objects.list) }])
    | .failed why | .lost why => some (s, [{ p with rest := next (.error why) }])
  | .txn key expect new next =>
    if (s.store.cell key).revision = expect then
      match heard with
      | .answer => some (land s p key new (next (.ok (.landed s.store.next))))
      | .lost why => some (land s p key new (next (.error why)))
      | .failed why => some (s, [{ p with rest := next (.error why) }])
    else
      match heard with
      | .answer => some (s, [{ p with rest := next (.ok (.refused (s.store.cell key))) }])
      | .failed why | .lost why => some (s, [{ p with rest := next (.error why) }])

def program : Program (Site ω κ α A) (Pending ω κ α ε A) (SiteEvent ω κ α) (Heard ε) :=
  ⟨sys.env, task⟩

def guarded (guard : AttemptRule ω κ α) :
    Guard (Site ω κ α A) (Pending ω κ α ε A) (SiteEvent ω κ α) (Heard ε) where
  env _ _ := True
  task s p _ :=
    match p.rest with
    | .txn key expect new _ => guard s.store p.request key expect new
    | _ => True

section Decidability

variable (guard : AttemptRule ω κ α)
  [∀ store who key expect new, Decidable (guard store who key expect new)]

instance (s event) :
    Decidable ((guarded guard : Guard (Site ω κ α A) (Pending ω κ α ε A) _ (Heard ε)).env s
      event) :=
  inferInstanceAs (Decidable True)

instance (s : Site ω κ α A) (p : Pending ω κ α ε A) (heard : Heard ε) :
    Decidable ((guarded guard).task s p heard) := by
  dsimp only [guarded]
  split <;> infer_instance

end Decidability

def unguarded (_ : Store κ α) (_ : ω) (_ : κ) (_ : Nat) (_ : Option α) : Prop := True

omit [DecidableEq κ] in
theorem unguarded_task (heard : Heard ε) :
    (guarded unguarded).task s p heard := by
  unfold guarded
  dsimp only
  split <;> trivial

theorem runMeets_unguarded (w moves) : sys.program.RunMeets (guarded unguarded) w moves := by
  induction moves generalizing w with
  | nil => trivial
  | cons move moves ih =>
    refine ⟨?_, fun w' _ => ih w'⟩
    cases move with
    | env | crash => trivial
    | task index heard => exact fun p _ => unguarded_task w.shared p heard

/--
The obligations of a system: an invariant that legal moves keep, outside writers
that are legal, and calls that are safe where they begin.
-/
structure Verified (legal : WriteRule ω κ α)
    (guard : AttemptRule ω κ α) (inv : Site ω κ α A → Prop)
    (post : ω → Nat → Post ω κ α A A) : Prop where
  keeps : ∀ {s s'}, inv s → Next legal s s' → inv s'
  writes : ∀ {s key new}, inv s → sys.writes s.store key new → legal s.store none key new
  begins : ∀ {s request call}, inv s → sys.begins s request = some call →
    call.Safe legal guard request (post request s.commits.length) [] s

def Owns (request : ω) (own : List (Commit ω κ α)) : Prop :=
  ∀ c ∈ own, c ∈ s.commits ∧ c.who = some request

structure Kept (legal : WriteRule ω κ α)
    (inv : Site ω κ α A → Prop)
    (post : ω → Nat → Post ω κ α A A)
    (s : Site ω κ α A) : Prop where
  invariant : inv s
  commits : ∀ c ∈ s.commits, legal c.store c.who c.key c.new
  answers : ∀ a ∈ s.answers, ∃ r, Later legal r s ∧ r.commits.length = a.ended ∧ inv r ∧
    post a.request a.began r a.own a.answer
  owned : ∀ a ∈ s.answers, Owns s a.request a.own

variable {sys} {legal : WriteRule ω κ α}
  {guard : AttemptRule ω κ α} {inv : Site ω κ α A → Prop}
  {post : ω → Nat → Post ω κ α A A} {s : Site ω κ α A}

theorem Owns.commit {request own} (h : Owns s request own) (who) (key : κ) (new) :
    Owns (s.commit who key new) request own :=
  fun c hc => ⟨mem_append_left _ (h c hc).1, (h c hc).2⟩

theorem Owns.land {request own} (h : Owns s request own) (key : κ) (new) :
    Owns (s.commit (some request) key new) request
      (own ++ [⟨some request, key, new, s.store⟩]) := by
  intro c hc
  rcases mem_append.mp hc with hc | hc
  · exact h.commit _ _ _ c hc
  · rw [mem_singleton.mp hc]
    exact ⟨by simp [Site.commit], rfl⟩

theorem Kept.commit (h : Kept legal inv post s) (keeps : ∀ {s s'}, inv s → Next legal s s' → inv s')
    {who key new} (hlegal : legal s.store who key new) :
    Kept legal inv post (s.commit who key new) where
  invariant := keeps h.invariant (.commit who key new hlegal)
  commits c hc := by
    rcases mem_append.mp hc with hc | hc
    · exact h.commits c hc
    · rw [mem_singleton.mp hc]
      exact hlegal
  answers a ha := by
    obtain ⟨r, hl, hrest⟩ := h.answers a ha
    exact ⟨r, hl.trans (.next (.commit who key new hlegal)), hrest⟩
  owned a ha := (h.owned a ha).commit who key new

variable {p : Pending ω κ α ε A}

theorem Kept.answer (h : Kept legal inv post s) (keeps : ∀ {s s'}, inv s → Next legal s s' → inv s')
    {answer} (hpost : post p.request p.began s p.own answer) (howns : Owns s p.request p.own) :
    Kept legal inv post (s.answer ⟨p.request, p.began, s.commits.length, p.own, answer⟩) where
  invariant := keeps h.invariant (.answer _)
  commits := h.commits
  answers a ha := by
    rcases mem_append.mp ha with ha | ha
    · obtain ⟨r, hl, hrest⟩ := h.answers a ha
      exact ⟨r, hl.trans (.next (.answer _)), hrest⟩
    · rw [mem_singleton.mp ha]
      exact ⟨s, .next (.answer _), rfl, h.invariant, hpost⟩
  owned a ha := by
    rcases mem_append.mp ha with ha | ha
    · exact h.owned a ha
    · rw [mem_singleton.mp ha]
      exact howns

structure PendingSafe (legal : WriteRule ω κ α)
    (guard : AttemptRule ω κ α)
    (post : ω → Nat → Post ω κ α A A)
    (s : Site ω κ α A) (p : Pending ω κ α ε A) : Prop where
  safe : p.rest.Safe legal guard p.request (post p.request p.began) p.own s
  owns : Owns s p.request p.own

theorem PendingSafe.commit (h : PendingSafe legal guard post s p) {who key new}
    (hlegal : legal s.store who key new) : PendingSafe legal guard post (s.commit who key new) p :=
  ⟨h.safe.later (.next (.commit who key new hlegal)), h.owns.commit who key new⟩

theorem PendingSafe.answer (h : PendingSafe legal guard post s p) (a) :
    PendingSafe legal guard post (s.answer a) p :=
  ⟨h.safe.later (.next (.answer a)), h.owns⟩

theorem task_cases {s' next heard} (hp : PendingSafe legal guard post s p)
    (hguard : (guarded guard).task s p heard) (h : task s p heard = some (s', next)) :
    (∃ answer, post p.request p.began s p.own answer ∧ next = [] ∧
      s' = s.answer ⟨p.request, p.began, s.commits.length, p.own, answer⟩) ∨
    (∃ q, PendingSafe legal guard post s q ∧ next = [q] ∧ s' = s) ∨
    (∃ q key new, legal s.store (some p.request) key new ∧
      PendingSafe legal guard post (s.commit (some p.request) key new) q ∧ next = [q] ∧
      s' = s.commit (some p.request) key new) := by
  obtain ⟨request, began, own, rest⟩ := p
  obtain ⟨hsafe, howns⟩ := hp
  cases rest with
  | ret answer =>
    cases h
    exact .inl ⟨answer, hsafe s (.refl s), rfl, rfl⟩
  | read | list =>
    obtain ⟨herror, hok⟩ := hsafe s (.refl s)
    cases heard <;> cases h
    · refine .inr (.inl ⟨_, ?_, rfl, rfl⟩)
      exact ⟨hok, howns⟩
    all_goals
      refine .inr (.inl ⟨_, ?_, rfl, rfl⟩)
      exact ⟨herror _, howns⟩
  | txn key expect new =>
    obtain ⟨herror, hrefused, hlanded⟩ := hsafe s (.refl s) hguard
    simp only [task] at h
    split at h
    · rename_i heq
      obtain ⟨hlegal, hlost, hok⟩ := hlanded heq
      cases heard <;> cases h
      · refine .inr (.inr ⟨_, key, new, hlegal, ?_, rfl, rfl⟩)
        exact ⟨hok, howns.land key new⟩
      · refine .inr (.inl ⟨_, ?_, rfl, rfl⟩)
        exact ⟨herror _, howns⟩
      · refine .inr (.inr ⟨_, key, new, hlegal, ?_, rfl, rfl⟩)
        exact ⟨hlost _, howns.land key new⟩
    · rename_i hne
      cases heard <;> cases h
      · refine .inr (.inl ⟨_, ?_, rfl, rfl⟩)
        exact ⟨hrefused hne, howns⟩
      all_goals
        refine .inr (.inl ⟨_, ?_, rfl, rfl⟩)
        exact ⟨herror _, howns⟩

theorem Verified.outline (h : sys.Verified legal guard inv post) :
    sys.program.Outline (guarded guard) (Kept legal inv post) (PendingSafe legal guard post) where
  env {s event s' new} hs _ henv := by
    cases event with
    | write =>
      simp only [program, env] at henv
      split at henv <;> cases henv
      rename_i hwrites
      have hlegal := h.writes hs.invariant hwrites
      exact ⟨hs.commit h.keeps hlegal, by simp, fun p hp => hp.commit hlegal⟩
    | ask =>
      simp only [program, env] at henv
      split at henv <;> cases henv
      rename_i call hcall
      refine ⟨hs, ?_, fun _ => id⟩
      rintro p hp
      rw [mem_singleton.mp hp]
      exact ⟨h.begins hs.invariant hcall, by simp [Owns]⟩
  task {s p heard s' next} hs hp hguard htask := by
    rcases task_cases hp hguard htask with ⟨answer, hpost, rfl, rfl⟩ | ⟨q, hq, rfl, rfl⟩ |
      ⟨q, key, new, hlegal, hq, rfl, rfl⟩
    · exact ⟨hs.answer h.keeps hpost hp.owns, by simp, fun u hu => hu.answer _⟩
    · exact ⟨hs, by simpa using hq, fun _ => id⟩
    · exact ⟨hs.commit h.keeps hlegal, by simpa using hq, fun u hu => hu.commit hlegal⟩

variable {w : World (Site ω κ α A) (Pending ω κ α ε A)}
  {moves : List (Move (SiteEvent ω κ α) (Heard ε))}

theorem Verified.run (h : sys.Verified legal guard inv post) {store} (hinv : inv (Site.of store))
    (hmeets : sys.program.RunMeets (guarded guard) ⟨Site.of store, []⟩ moves)
    (hrun : sys.program.run ⟨Site.of store, []⟩ moves = some w) : Kept legal inv post w.shared :=
  (h.outline.run ⟨⟨hinv, by simp [Site.of], by simp [Site.of], by simp [Site.of]⟩, by simp⟩
    hmeets hrun).1

theorem Verified.run_unguarded (h : sys.Verified legal unguarded inv post) {store}
    (hinv : inv (Site.of store)) (hrun : sys.program.run ⟨Site.of store, []⟩ moves = some w) :
    Kept legal inv post w.shared :=
  h.run hinv (sys.runMeets_unguarded _ moves) hrun

end System

end MeisterStack.Foundation
