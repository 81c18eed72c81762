import MeisterStack.Foundation.Machine

/-!
# Scripts

Programs that give a world one command at a time and go on with the answer. A command may fail,
and one that failed may have taken effect all the same: the fate of each is not the script's to
choose.
-/

namespace MeisterStack.Foundation

open List Option

inductive Script (C : Type) (R : C → Type) (ε α : Type) where
  | ret (a : α)
  | fail (e : ε)
  | call (c : C) (next : Option (R c) → Script C R ε α)

variable {C : Type} {R : C → Type} {ε ε' α β σ ι : Type}

namespace Script

def bind (m : Script C R ε α) (f : α → Script C R ε β) : Script C R ε β :=
  match m with
  | .ret a => f a
  | .fail e => .fail e
  | .call c next => .call c fun r => (next r).bind f

instance : Monad (Script C R ε) where
  pure := .ret
  bind := .bind

def ask (c : C) : Script C R ε (Option (R c)) := .call c .ret

def must (e : ε) (c : C) : Script C R ε (R c) :=
  .call c fun
    | some r => .ret r
    | none => .fail e

def attempt : Script C R ε α → Script C R ε (Except ε α)
  | .ret a => .ret (.ok a)
  | .fail e => .ret (.error e)
  | .call c next => .call c fun r => (next r).attempt

def mapError (f : ε → ε') : Script C R ε α → Script C R ε' α
  | .ret a => .ret a
  | .fail e => .fail (f e)
  | .call c next => .call c fun r => (next r).mapError f

def ofExcept : Except ε α → Script C R ε α
  | .ok a => .ret a
  | .error e => .fail e

def each (f : β → Script C R ε Unit) : List β → Script C R ε Unit
  | [] => .ret ()
  | x :: xs => (f x).bind fun _ => each f xs

def both (first second : Except ε Unit) : Except ε Unit := first.bind fun _ => second

def tryEach (f : β → Script C R ε Unit) : List β → Script C R ε Unit
  | [] => .ret ()
  | x :: xs => (f x).attempt.bind fun first =>
    (tryEach f xs).attempt.bind fun rest => ofExcept (both first rest)

def sift (f : β → Script C R ε Unit) : List β → Script C R ε (List β × List β)
  | [] => .ret ([], [])
  | x :: xs => (f x).attempt.bind fun outcome => (sift f xs).bind fun rest =>
    match outcome with
    | .ok _ => .ret (x :: rest.1, rest.2)
    | .error _ => .ret (rest.1, x :: rest.2)

end Script

structure Fate (ι : Type) where
  ok : Bool
  landed : Bool
  info : ι

structure Realm (C : Type) (R : C → Type) (σ ι : Type) where
  possible : C → σ → Bool
  effect : C → ι → σ → σ
  answer : (c : C) → ι → σ → R c

abbrev Oracle (C ι : Type) := Nat → C → Fate ι

structure Taken (C σ : Type) where
  command : C
  before : σ
  after : σ

namespace Realm

variable (W : Realm C R σ ι)

def perform (c : C) (fate : Fate ι) (s : σ) : Option (R c) × σ :=
  if W.possible c s then
    if fate.ok then (some (W.answer c fate.info s), W.effect c fate.info s)
    else (none, if fate.landed then W.effect c fate.info s else s)
  else (none, s)

def run (oracle : Oracle C ι) : Script C R ε α → σ → Except ε α × σ
  | .ret a, s => (.ok a, s)
  | .fail e, s => (.error e, s)
  | .call c next, s =>
    let r := W.perform c (oracle 0 c) s
    run (fun k => oracle (k + 1)) (next r.1) r.2

def trace (oracle : Oracle C ι) : Script C R ε α → σ → List (Taken C σ)
  | .ret _, _ => []
  | .fail _, _ => []
  | .call c next, s =>
    let r := W.perform c (oracle 0 c) s
    ⟨c, s, r.2⟩ :: trace (fun k => oracle (k + 1)) (next r.1) r.2

theorem perform_cases (c fate) (s : σ) :
    (∃ r, W.possible c s ∧ fate.ok ∧ r = W.answer c fate.info s ∧
      W.perform c fate s = (some r, W.effect c fate.info s)) ∨
    (W.possible c s ∧ fate.ok = false ∧ fate.landed ∧
      W.perform c fate s = (none, W.effect c fate.info s)) ∨
    ((W.possible c s = false ∨ fate.ok = false ∧ fate.landed = false) ∧
      W.perform c fate s = (none, s)) := by
  unfold perform
  cases W.possible c s <;> cases fate.ok <;> cases fate.landed <;> simp

theorem perform_keeps {keeps : σ → σ → Prop} {c s} (fate) (hrefl : keeps s s)
    (heffect : W.possible c s → keeps s (W.effect c fate.info s)) :
    keeps s (W.perform c fate s).2 := by
  obtain ⟨r, hpossible, -, -, h⟩ | ⟨hpossible, -, -, h⟩ | ⟨-, h⟩ := W.perform_cases c fate s
  · rw [h]
    exact heffect hpossible
  · rw [h]
    exact heffect hpossible
  · rw [h]
    exact hrefl

end Realm

structure Terms (C σ ι : Type) where
  may : C → Fate ι → Prop
  rely : σ → σ → Prop
  guar : C → σ → σ → Prop

namespace Terms

variable (T : Terms C σ ι) (W : Realm C R σ ι)

def Holds (post : α → σ → Prop) (stop : ε → σ → Prop) : Script C R ε α → σ → Prop
  | .ret a, s => ∀ s', T.rely s s' → post a s'
  | .fail e, s => ∀ s', T.rely s s' → stop e s'
  | .call c next, s => ∀ s', T.rely s s' → ∀ fate, T.may c fate →
      T.guar c s' (W.perform c fate s').2 ∧
        Holds post stop (next (W.perform c fate s').1) (W.perform c fate s').2

variable {T W} {post post' : α → σ → Prop} {stop stop' : ε → σ → Prop} {m : Script C R ε α} {s : σ}

theorem holds_must {c e} {post : R c → σ → Prop} (h : ∀ s', T.rely s s' → ∀ fate, T.may c fate →
      T.guar c s' (W.perform c fate s').2 ∧ ∀ s'', T.rely (W.perform c fate s').2 s'' →
        (∀ r, (W.perform c fate s').1 = some r → post r s'') ∧
          ((W.perform c fate s').1 = none → stop e s'')) : T.Holds W post stop (.must e c) s := by
  intro s' hrely fate hmay
  obtain ⟨hguar, hnext⟩ := h s' hrely fate hmay
  refine ⟨hguar, ?_⟩
  cases hr : (W.perform c fate s').1 with
  | some r => exact fun s'' hrely' => (hnext s'' hrely').1 r hr
  | none => exact fun s'' hrely' => (hnext s'' hrely').2 hr

theorem Holds.imp (h : T.Holds W post stop m s) (hpost : ∀ a s, post a s → post' a s)
    (hstop : ∀ e s, stop e s → stop' e s) : T.Holds W post' stop' m s := by
  induction m generalizing s with
  | ret a => exact fun s' hrely => hpost a s' (h s' hrely)
  | fail e => exact fun s' hrely => hstop e s' (h s' hrely)
  | call c next ih =>
    intro s' hrely fate hmay
    obtain ⟨hguar, hnext⟩ := h s' hrely fate hmay
    exact ⟨hguar, ih _ hnext⟩

theorem Holds.bind {f} {post' : β → σ → Prop} (h : T.Holds W post stop m s)
    (hrefl : ∀ s, T.rely s s)
    (hf : ∀ a s, post a s → T.Holds W post' stop (f a) s) : T.Holds W post' stop (m.bind f) s := by
  induction m generalizing s with
  | ret a => exact hf a s (h s (hrefl s))
  | fail => exact h
  | call c next ih =>
    intro s' hrely fate hmay
    obtain ⟨hguar, hnext⟩ := h s' hrely fate hmay
    exact ⟨hguar, ih _ hnext⟩

theorem Holds.attempt {post' : Except ε α → σ → Prop} (h : T.Holds W post stop m s)
    (hok : ∀ a s, post a s → post' (.ok a) s) (herror : ∀ e s, stop e s → post' (.error e) s) :
    T.Holds W post' stop' m.attempt s := by
  induction m generalizing s with
  | ret a => exact fun s' hrely => hok a s' (h s' hrely)
  | fail e => exact fun s' hrely => herror e s' (h s' hrely)
  | call c next ih =>
    intro s' hrely fate hmay
    obtain ⟨hguar, hnext⟩ := h s' hrely fate hmay
    exact ⟨hguar, ih _ hnext⟩

theorem Holds.mapError {f} {stop' : ε' → σ → Prop} (h : T.Holds W post stop m s)
    (hstop : ∀ e s, stop e s → stop' (f e) s) : T.Holds W post stop' (m.mapError f) s := by
  induction m generalizing s with
  | ret => exact h
  | fail e => exact fun s' hrely => hstop e s' (h s' hrely)
  | call c next ih =>
    intro s' hrely fate hmay
    obtain ⟨hguar, hnext⟩ := h s' hrely fate hmay
    exact ⟨hguar, ih _ hnext⟩

theorem Holds.rely {s'} (htrans : ∀ s1 s2 s3, T.rely s1 s2 → T.rely s2 s3 → T.rely s1 s3)
    (h : T.Holds W post stop m s) (hrely : T.rely s s') : T.Holds W post stop m s' := by
  cases m with
  | ret | fail | call => exact fun s'' hrely' => h s'' (htrans s s' s'' hrely hrely')

structure Within (T : Terms C σ ι) (D : σ → σ → Prop) : Prop where
  refl : ∀ s, D s s
  trans : ∀ s1 s2 s3, D s1 s2 → D s2 s3 → D s1 s3
  rely : ∀ s s', T.rely s s' → D s s'
  guar : ∀ c s s', T.guar c s s' → D s s'

variable {D : σ → σ → Prop}

theorem Holds.within (hD : T.Within D) (h : T.Holds W post stop m s) :
    T.Holds W (fun a s' => post a s' ∧ D s s') (fun e s' => stop e s' ∧ D s s') m s := by
  -- the state the script started in stays where it is, the one it has come to moves on
  suffices hfrom : ∀ s0, D s0 s →
      T.Holds W (fun a s' => post a s' ∧ D s0 s') (fun e s' => stop e s' ∧ D s0 s') m s from
    hfrom s (hD.refl s)
  intro s0 hs
  induction m generalizing s with
  | ret | fail => exact fun s' hrely => ⟨h s' hrely, hD.trans _ _ _ hs (hD.rely _ _ hrely)⟩
  | call c next ih =>
    intro s' hrely fate hmay
    obtain ⟨hguar, hnext⟩ := h s' hrely fate hmay
    have hs' := hD.trans _ _ _ hs (hD.rely _ _ hrely)
    exact ⟨hguar, ih _ hnext (hD.trans _ _ _ hs' (hD.guar _ _ _ hguar))⟩

theorem Holds.since (h : T.Holds W post stop m s) (hD : T.Within D) :
    T.Holds W (fun a s' => post a s' ∧ D s s') stop m s :=
  (h.within hD).imp (fun _ _ h => h) fun _ _ h => h.1

def Came (done failed : σ → Prop) : Except ε Unit → σ → Prop
  | .ok _ => done
  | .error _ => failed

theorem Holds.came {m} {done failed : σ → Prop}
    (h : T.Holds W (fun _ => done) (fun _ => failed) m s)
    (hD : T.Within D) : T.Holds W (fun r s' => Came done failed r s' ∧ D s s') stop m.attempt s :=
  (h.within hD).attempt (fun _ _ h => h) fun _ _ h => h

section Lists

variable {f : β → Script C R ε Unit} {xs : List β} {D : σ → σ → Prop} {done failed : β → σ → Prop}
  (hD : T.Within D) (hrefl : ∀ s, T.rely s s)
  (hdone : ∀ x s s', D s s' → done x s → done x s')
  (hfailed : ∀ x s s', D s s' → failed x s → failed x s')
  (hf : ∀ x ∈ xs, ∀ s', D s s' → T.Holds W (fun _ => done x) (fun _ => failed x) (f x) s')

include hD hrefl hdone hfailed hf

theorem holds_tryEach :
    T.Holds W (fun _ s' => ∀ x ∈ xs, done x s') (fun _ s' => ∀ x ∈ xs, done x s' ∨ failed x s')
      (Script.tryEach f xs) s := by
  induction xs generalizing s with
  | nil => exact fun s' _ => by simp
  | cons x xs ih =>
    refine ((hf x (.head xs) s (hD.refl s)).came hD).bind hrefl fun first s1 h1 => ?_
    have hrest := ih fun y hy s' h' => hf y (.tail x hy) s' (hD.trans _ _ _ h1.2 h')
    refine (hrest.came hD).bind hrefl fun rest s2 h2 => ?_
    have hdone' : ∀ y s', T.rely s2 s' → done y s2 → done y s' :=
      fun y s' hrely => hdone y _ _ (hD.rely _ _ hrely)
    have hfailed' : ∀ y s', T.rely s2 s' → failed y s2 → failed y s' :=
      fun y s' hrely => hfailed y _ _ (hD.rely _ _ hrely)
    cases first with
    | error =>
      intro s' hrely
      have hx := hfailed' x s' hrely (hfailed x _ _ h2.2 h1.1)
      refine forall_mem_cons.mpr ⟨.inr hx, fun y hy => ?_⟩
      cases rest with
      | ok => exact .inl (hdone' y s' hrely (h2.1 y hy))
      | error => exact (h2.1 y hy).imp (hdone' y s' hrely) (hfailed' y s' hrely)
    | ok _ =>
      have hx s' hrely := hdone' x s' hrely (hdone x _ _ h2.2 h1.1)
      cases rest with
      | ok _ =>
        exact fun s' hrely => forall_mem_cons.mpr
          ⟨hx s' hrely, fun y hy => hdone' y s' hrely (h2.1 y hy)⟩
      | error _ =>
        exact fun s' hrely => forall_mem_cons.mpr ⟨.inl (hx s' hrely),
          fun y hy => (h2.1 y hy).imp (hdone' y s' hrely) (hfailed' y s' hrely)⟩

theorem holds_sift :
    T.Holds W (fun r s' => ∀ x ∈ xs, done x s' ∨ x ∈ r.2 ∧ failed x s') stop
      (Script.sift f xs) s := by
  induction xs generalizing s with
  | nil => exact fun s' _ => by simp
  | cons x xs ih =>
    refine ((hf x (.head xs) s (hD.refl s)).came hD).bind hrefl fun first s1 h1 => ?_
    have hrest := ih fun y hy s' h' => hf y (.tail x hy) s' (hD.trans _ _ _ h1.2 h')
    refine (hrest.since hD).bind hrefl fun rest s2 h2 => ?_
    have hkeep : ∀ y s', T.rely s2 s' → done y s2 ∨ y ∈ rest.2 ∧ failed y s2 →
        done y s' ∨ y ∈ rest.2 ∧ failed y s' := fun y s' hrely h =>
      h.imp (hdone y _ _ (hD.rely _ _ hrely))
        fun h => ⟨h.1, hfailed y _ _ (hD.rely _ _ hrely) h.2⟩
    cases first with
    | ok _ =>
      intro s' hrely
      have hx := hdone x _ _ (hD.rely _ _ hrely) (hdone x _ _ h2.2 h1.1)
      exact forall_mem_cons.mpr ⟨.inl hx, fun y hy => hkeep y s' hrely (h2.1 y hy)⟩
    | error _ =>
      intro s' hrely
      have hx := hfailed x _ _ (hD.rely _ _ hrely) (hfailed x _ _ h2.2 h1.1)
      refine forall_mem_cons.mpr ⟨.inr ⟨.head _, hx⟩, fun y hy => ?_⟩
      exact (hkeep y s' hrely (h2.1 y hy)).imp_right fun h => ⟨.tail _ h.1, h.2⟩

end Lists

variable {oracle : Oracle C ι}

theorem Holds.run (hrefl : ∀ s, T.rely s s)
    (hmay : ∀ k c, T.may c (oracle k c)) (h : T.Holds W post stop m s) :
    (∀ a, (W.run oracle m s).1 = .ok a → post a (W.run oracle m s).2) ∧
      ∀ e, (W.run oracle m s).1 = .error e → stop e (W.run oracle m s).2 := by
  induction m generalizing s oracle with
  | ret => exact ⟨fun b hb => by cases hb; exact h s (hrefl s), by simp [Realm.run]⟩
  | fail => exact ⟨by simp [Realm.run], fun e' he => by cases he; exact h s (hrefl s)⟩
  | call c next ih =>
    exact ih _ (fun k => hmay (k + 1)) (h s (hrefl s) (oracle 0 c) (hmay 0 c)).2

theorem Holds.final {keeps : σ → Prop} (hrefl : ∀ s, T.rely s s)
    (hmay : ∀ k c, T.may c (oracle k c))
    (h : T.Holds W (fun _ => keeps) (fun _ => keeps) m s) : keeps (W.run oracle m s).2 := by
  have hrun := h.run hrefl hmay
  cases hresult : (W.run oracle m s).1 with
  | ok a => exact hrun.1 a hresult
  | error e => exact hrun.2 e hresult

theorem Holds.reported {reports : ε → Prop} {done : σ → Prop}
    (hrefl : ∀ s, T.rely s s) (hmay : ∀ k c, T.may c (oracle k c))
    (h : T.Holds W (fun _ => done) (fun e s => reports e ∨ done s) m s) :
    (∃ e, (W.run oracle m s).1 = .error e ∧ reports e) ∨ done (W.run oracle m s).2 := by
  have hrun := h.run hrefl hmay
  cases hresult : (W.run oracle m s).1 with
  | ok a => exact .inr (hrun.1 a hresult)
  | error e => exact (hrun.2 e hresult).imp_left fun hreports => ⟨e, rfl, hreports⟩

theorem Holds.trace (hrefl : ∀ s, T.rely s s)
    (hmay : ∀ k c, T.may c (oracle k c)) (h : T.Holds W post stop m s) :
    ∀ t ∈ W.trace oracle m s, T.guar t.command t.before t.after := by
  induction m generalizing s oracle with
  | ret | fail => simp [Realm.trace]
  | call c next ih =>
    obtain ⟨hguar, hnext⟩ := h s (hrefl s) (oracle 0 c) (hmay 0 c)
    simp only [Realm.trace, forall_mem_cons]
    exact ⟨hguar, ih _ (fun k => hmay (k + 1)) hnext⟩

end Terms

namespace Script

variable (P : C → Prop)

def Issues : Script C R ε α → Prop
  | .ret _ => True
  | .fail _ => True
  | .call c next => P c ∧ ∀ r, (next r).Issues

variable {P} {m : Script C R ε α}

theorem issues_bind {f : α → Script C R ε β} (hm : m.Issues P) (hf : ∀ a, (f a).Issues P) :
    (m >>= f).Issues P := by
  induction m with
  | ret a => exact hf a
  | fail => trivial
  | call c next ih => exact ⟨hm.1, fun r => ih r (hm.2 r)⟩

theorem issues_ask {c} (hc : P c) : (ask c : Script C R ε _).Issues P := ⟨hc, fun _ => trivial⟩

theorem issues_must {e c} (hc : P c) : (must e c : Script C R ε _).Issues P := by
  refine ⟨hc, fun r => ?_⟩
  cases r <;> trivial

theorem issues_attempt (hm : m.Issues P) : m.attempt.Issues P := by
  induction m with
  | ret | fail => trivial
  | call c next ih => exact ⟨hm.1, fun r => ih r (hm.2 r)⟩

theorem issues_mapError {f : ε → ε'} (hm : m.Issues P) : (m.mapError f).Issues P := by
  induction m with
  | ret | fail => trivial
  | call c next ih => exact ⟨hm.1, fun r => ih r (hm.2 r)⟩

@[simp] theorem issues_ofExcept (r) : (ofExcept r : Script C R ε α).Issues P := by
  cases r <;> trivial

variable {f : β → Script C R ε Unit} {xs : List β}

theorem issues_each (hf : ∀ x ∈ xs, (f x).Issues P) : (each f xs).Issues P := by
  induction xs with
  | nil => trivial
  | cons x xs ih => exact issues_bind (hf x (.head xs)) fun _ => ih fun y hy => hf y (.tail x hy)

theorem issues_tryEach (hf : ∀ x ∈ xs, (f x).Issues P) : (tryEach f xs).Issues P := by
  induction xs with
  | nil => trivial
  | cons x xs ih =>
    refine issues_bind (issues_attempt (hf x (.head xs))) fun first => ?_
    refine issues_bind (issues_attempt (ih fun y hy => hf y (.tail x hy))) fun rest => ?_
    exact issues_ofExcept _

theorem issues_sift (hf : ∀ x ∈ xs, (f x).Issues P) : (sift f xs).Issues P := by
  induction xs with
  | nil => trivial
  | cons x xs ih =>
    refine issues_bind (issues_attempt (hf x (.head xs))) fun outcome => ?_
    refine issues_bind (ih fun y hy => hf y (.tail x hy)) fun rest => ?_
    cases outcome <;> trivial

variable {W : Realm C R σ ι}

theorem Issues.holds {T : Terms C σ ι} {keeps : σ → Prop} (h : m.Issues P)
    (hrely : ∀ s s', T.rely s s' → keeps s → keeps s')
    (hstep : ∀ c s fate, P c → T.may c fate → keeps s →
      T.guar c s (W.perform c fate s).2 ∧ keeps (W.perform c fate s).2) {s} (hs : keeps s) :
    T.Holds W (fun _ => keeps) (fun _ => keeps) m s := by
  induction m generalizing s with
  | ret | fail => exact fun s' h' => hrely s s' h' hs
  | call c next ih =>
    intro s' h' fate hmay
    obtain ⟨hguar, hkeeps⟩ := hstep c s' fate h.1 hmay (hrely s s' h' hs)
    exact ⟨hguar, ih _ (h.2 _) hkeeps⟩

theorem Issues.trace (h : m.Issues P) (oracle) (s : σ) : ∀ t ∈ W.trace oracle m s, P t.command := by
  induction m generalizing oracle s with
  | ret | fail => simp [Realm.trace]
  | call c next ih =>
    simp only [Realm.trace, forall_mem_cons]
    exact ⟨h.1, ih _ (h.2 _) _ _⟩

def Ends (A B : C → Prop) : Script C R ε α → Prop
  | .ret _ => True
  | .fail _ => True
  | .call c next => (A c → ∀ r, (next r).Issues B) ∧ ∀ r, (next r).Ends A B

variable {A B : C → Prop}

theorem Issues.ends (h : m.Issues B) : m.Ends A B := by
  induction m with
  | ret | fail => trivial
  | call c next ih => exact ⟨fun _ => h.2, fun r => ih r (h.2 r)⟩

theorem ends_bind {f : α → Script C R ε β} (hm : m.Issues fun c => ¬A c)
    (hf : ∀ a, (f a).Ends A B) : (m >>= f).Ends A B := by
  induction m with
  | ret a => exact hf a
  | fail => trivial
  | call c next ih => exact ⟨fun hc => absurd hc hm.1, fun r => ih r (hm.2 r)⟩

theorem Ends.mapError {f : ε → ε'} (h : m.Ends A B) : (m.mapError f).Ends A B := by
  induction m with
  | ret | fail => trivial
  | call c next ih => exact ⟨fun hc r => issues_mapError (h.1 hc r), fun r => ih r (h.2 r)⟩

theorem Ends.trace (h : m.Ends A B) {oracle s before after t}
    (htrace : W.trace oracle m s = before ++ t :: after) (ht : A t.command) :
    ∀ t' ∈ after, B t'.command := by
  induction m generalizing oracle s before with
  | ret | fail => simp [Realm.trace] at htrace
  | call c next ih =>
    cases before with
    | nil =>
      obtain ⟨rfl, rfl⟩ := List.cons.inj htrace
      exact (h.1 ht _).trace _ _
    | cons _ => exact ih _ (h.2 _) (List.cons.inj htrace).2

end Script

structure Pair (C : Type) (R : C → Type) (ε1 α1 ε2 α2 σ : Type) where
  left : Script C R ε1 α1
  right : Script C R ε2 α2
  state : σ

inductive Turn (ι : Type) where
  | left (fate : Fate ι)
  | right (fate : Fate ι)

def Script.next : Script C R ε α → Option C
  | .call c _ => some c
  | _ => none

def Realm.advance (W : Realm C R σ ι) (fate : Fate ι) :
    Script C R ε α → σ → Option (Script C R ε α × σ)
  | .call c next, s => some (next (W.perform c fate s).1, (W.perform c fate s).2)
  | _, _ => none

def together {ε1 α1 ε2 α2 : Type} (W : Realm C R σ ι) :
    Machine (Pair C R ε1 α1 ε2 α2 σ) (Turn ι) where
  step p
    | .left fate =>
      (W.advance fate p.left p.state).map fun (m, s) => { p with left := m, state := s }
    | .right fate =>
      (W.advance fate p.right p.state).map fun (m, s) => { p with right := m, state := s }

def Pair.Meets {ε1 α1 ε2 α2 : Type} (A B : C → Fate ι → Prop) (p : Pair C R ε1 α1 ε2 α2 σ) :
    Turn ι → Prop
  | .left fate => ∀ c ∈ p.left.next, A c fate
  | .right fate => ∀ c ∈ p.right.next, B c fate

theorem Terms.Holds.advance {T : Terms C σ ι} {W} {post : α → σ → Prop}
    {stop : ε → σ → Prop} {m m' : Script C R ε α} {s s' fate} (h : T.Holds W post stop m s)
    (hrefl : ∀ s, T.rely s s) (hmay : ∀ c ∈ m.next, T.may c fate)
    (hstep : W.advance fate m s = some (m', s')) :
    ∃ c ∈ m.next, T.guar c s s' ∧ T.Holds W post stop m' s' := by
  cases m with
  | ret | fail => cases hstep
  | call c =>
    cases hstep
    exact ⟨c, rfl, h s (hrefl s) fate (hmay c rfl)⟩

section Together

variable {ε1 α1 ε2 α2 : Type} {W : Realm C R σ ι} {T1 T2 : Terms C σ ι}
  {p p' : Pair C R ε1 α1 ε2 α2 σ}
  {post1 : α1 → σ → Prop} {stop1 : ε1 → σ → Prop} {post2 : α2 → σ → Prop} {stop2 : ε2 → σ → Prop}

theorem holds_left {fates : List (Fate ι)} (hrefl : ∀ s, T1.rely s s)
    (hmay : ∀ c fate, T1.may c fate) (h : T1.Holds W post1 stop1 p.left p.state)
    (hrun : (together W).run p (fates.map .left) = some p') :
    T1.Holds W post1 stop1 p'.left p'.state ∧ p'.right = p.right := by
  induction fates generalizing p with
  | nil =>
    cases hrun
    exact ⟨h, rfl⟩
  | cons fate fates ih =>
    obtain ⟨p1, hstep, hrest⟩ := (together W).run_cons hrun
    obtain ⟨⟨m, s⟩, hadvance, rfl⟩ := map_eq_some_iff.mp hstep
    obtain ⟨c, -, -, h1⟩ := h.advance hrefl (fun c _ => hmay c fate) hadvance
    exact ih (p := ⟨m, p.right, s⟩) h1 hrest

theorem holds_together {A B : C → Fate ι → Prop} (h1 : T1.Holds W post1 stop1 p.left p.state)
    (h2 : T2.Holds W post2 stop2 p.right p.state) (hrefl1 : ∀ s, T1.rely s s)
    (hrefl2 : ∀ s, T2.rely s s)
    (htrans1 : ∀ s1 s2 s3, T1.rely s1 s2 → T1.rely s2 s3 → T1.rely s1 s3)
    (htrans2 : ∀ s1 s2 s3, T2.rely s1 s2 → T2.rely s2 s3 → T2.rely s1 s3)
    (hleft : ∀ c fate, A c fate → T1.may c fate ∧ ∀ s s', T1.guar c s s' → T2.rely s s')
    (hright : ∀ c fate, B c fate → T2.may c fate ∧ ∀ s s', T2.guar c s s' → T1.rely s s') {turns}
    (hmeets : (together W).RunMeets (Pair.Meets A B) p turns)
    (hrun : (together W).run p turns = some p') :
    T1.Holds W post1 stop1 p'.left p'.state ∧ T2.Holds W post2 stop2 p'.right p'.state := by
  let both (p : Pair C R ε1 α1 ε2 α2 σ) : Prop :=
    T1.Holds W post1 stop1 p.left p.state ∧ T2.Holds W post2 stop2 p.right p.state
  suffices hboth : both p' from hboth
  refine Machine.invariant (fun {p t p'} (h : both p) hmeets hstep => ?_) ⟨h1, h2⟩ hmeets hrun
  cases t with
  | left fate =>
    obtain ⟨⟨m, s⟩, hadvance, rfl⟩ := map_eq_some_iff.mp hstep
    obtain ⟨c, hc, hguar, hnext⟩ := h.1.advance hrefl1
      (fun c hc => (hleft c fate (hmeets c hc)).1) hadvance
    exact ⟨hnext, h.2.rely htrans2 ((hleft c fate (hmeets c hc)).2 _ _ hguar)⟩
  | right fate =>
    obtain ⟨⟨m, s⟩, hadvance, rfl⟩ := map_eq_some_iff.mp hstep
    obtain ⟨c, hc, hguar, hnext⟩ := h.2.advance hrefl2
      (fun c hc => (hright c fate (hmeets c hc)).1) hadvance
    exact ⟨h.1.rely htrans1 ((hright c fate (hmeets c hc)).2 _ _ hguar), hnext⟩

end Together

end MeisterStack.Foundation
