import Mathlib.Data.List.Basic

/-!
# Procedures that call the outside

A procedure runs over a state, one part after the other. For each call outside the next answer says
whether it went well; where no answer is left, it did.
-/

namespace MeisterStack.Foundation

def Procedure (σ α : Type) := σ → List Bool → Option α × σ × List Bool

namespace Procedure

variable {σ α β : Type}

instance : Monad (Procedure σ) where
  pure a := fun s answers => (some a, s, answers)
  bind m f := fun s answers =>
    match m s answers with
    | (some a, s', rest) => f a s' rest
    | (none, s', rest) => (none, s', rest)

def fail : Procedure σ α := fun s answers => (none, s, answers)

def current : Procedure σ σ := fun s answers => (some s, s, answers)

def change (f : σ → σ) : Procedure σ Unit := fun s answers => (some (), f s, answers)

def ask : Procedure σ Bool := fun s answers => (some (answers.headD true), s, answers.tail)

def check : Procedure σ Unit := do
  if ← ask then pure () else fail

variable (m : Procedure σ α)

def attempt : Procedure σ (Option α) := fun s answers =>
  match m s answers with
  | (result, s', rest) => (some result, s', rest)

def each (f : β → Procedure σ Unit) : List β → Procedure σ Unit
  | [] => pure ()
  | x :: xs => do
      f x
      each f xs

def result (s : σ) (answers : List Bool) : Option α := (m s answers).1

def final (s : σ) (answers : List Bool) : σ := (m s answers).2.1

theorem bind_cases (m) (f : α → Procedure σ β) (s : σ) (answers) :
    (m.result s answers = none ∧ (m >>= f).result s answers = none ∧
      (m >>= f).final s answers = m.final s answers) ∨
    ∃ a rest, m.result s answers = some a ∧
      (m >>= f).result s answers = (f a).result (m.final s answers) rest ∧
      (m >>= f).final s answers = (f a).final (m.final s answers) rest := by
  rcases hrun : m s answers with ⟨_ | a, s', rest⟩
  · exact .inl (by simp [result, final, bind, hrun])
  · exact .inr ⟨a, rest, by simp [result, final, bind, hrun]⟩

theorem current_bind_result (f : σ → Procedure σ β) (s : σ) (answers) :
    (current >>= f).result s answers = (f s).result s answers := rfl

theorem current_bind_final (f : σ → Procedure σ β) (s : σ) (answers) :
    (current >>= f).final s answers = (f s).final s answers := rfl

theorem check_then (f : Unit → Procedure σ β) (s : σ) (answers) :
    (check >>= f) s answers =
      if answers.headD true then f () s answers.tail else (none, s, answers.tail) := by
  cases answers with
  | nil => rfl
  | cons ok => cases ok <;> rfl

theorem check_bind (f : Unit → Procedure σ β) (s : σ) (answers) :
    ((check >>= f).result s answers = none ∧ (check >>= f).final s answers = s) ∨
    ∃ rest, (check >>= f).result s answers = (f ()).result s rest ∧
      (check >>= f).final s answers = (f ()).final s rest := by
  simp only [result, final, check_then]
  split_ifs
  · exact .inr ⟨_, rfl, rfl⟩
  · exact .inl ⟨rfl, rfl⟩

theorem headD_of_all {answers : List Bool} (h : false ∉ answers) :
    answers.headD true = true ∧ false ∉ answers.tail := by
  cases answers with
  | nil => exact ⟨rfl, h⟩
  | cons ok => cases ok <;> simp_all

/-- The procedure answers where every call outside goes well. -/
def Smooth : Prop :=
  ∀ s answers, false ∉ answers → ∃ a s' rest, m s answers = (some a, s', rest) ∧ false ∉ rest

section Smooth

theorem smooth_pure (a : α) : Smooth (pure a : Procedure σ α) := fun _ _ h => ⟨_, _, _, rfl, h⟩

theorem smooth_change (f : σ → σ) : Smooth (change f) := fun _ _ h => ⟨_, _, _, rfl, h⟩

theorem smooth_current : Smooth (current : Procedure σ σ) := fun _ _ h => ⟨_, _, _, rfl, h⟩

theorem smooth_bind {m} {f : α → Procedure σ β} (hm : Smooth m) (hf : ∀ a, Smooth (f a)) :
    Smooth (m >>= f) := by
  intro s answers h
  obtain ⟨a, s', rest, hrun, hrest⟩ := hm s answers h
  simp only [bind, hrun]
  exact hf a s' rest hrest

theorem smooth_check : Smooth (check : Procedure σ Unit) := by
  intro s answers h
  obtain ⟨hhead, htail⟩ := headD_of_all h
  exact ⟨(), s, answers.tail, by simp only [check, bind, ask, hhead]; rfl, htail⟩

theorem smooth_each {f} {xs : List β} (hf : ∀ x, Smooth (f x : Procedure σ Unit)) :
    Smooth (each f xs) := by
  induction xs with
  | nil => exact smooth_pure ()
  | cons x xs ih => exact smooth_bind (hf x) fun _ => ih

theorem Smooth.result {m : Procedure σ α} (hm : Smooth m) {s answers} (h : false ∉ answers) :
    ∃ a, m.result s answers = some a := by
  obtain ⟨a, s', rest, hrun, -⟩ := hm s answers h
  exact ⟨a, congrArg Prod.fst hrun⟩

end Smooth

def Keeps (R : σ → σ → Prop) (m : Procedure σ α) : Prop := ∀ s answers, R s (m.final s answers)

section Keeps

variable {R : σ → σ → Prop}

theorem keeps_change {f} (h : ∀ s, R s (f s)) : Keeps R (change f) := fun s _ => h s

theorem Keeps.imp {R' : σ → σ → Prop} {m : Procedure σ α} (h : Keeps R m)
    (himp : ∀ s t, R s t → R' s t) : Keeps R' m :=
  fun s answers => himp _ _ (h s answers)

section

variable [Std.Refl R]

theorem keeps_pure (a : α) : Keeps R (pure a) := fun s _ => Std.Refl.refl s

theorem keeps_fail : Keeps R (fail : Procedure σ α) := fun s _ => Std.Refl.refl s

theorem keeps_current : Keeps R current := fun s _ => Std.Refl.refl s

theorem keeps_ask : Keeps R ask := fun s _ => Std.Refl.refl s

end

variable [IsTrans σ R]

theorem keeps_bind {m} {f : α → Procedure σ β} (hm : Keeps R m)
    (hf : ∀ a, Keeps R (f a)) : Keeps R (m >>= f) := by
  intro s answers
  rcases bind_cases m f s answers with ⟨-, -, hfinal⟩ | ⟨a, rest, -, -, hfinal⟩
  · rw [hfinal]
    exact hm s answers
  · rw [hfinal]
    exact IsTrans.trans _ _ _ (hm s answers) (hf a _ rest)

theorem keeps_asked {m} {f : Bool → Procedure σ β} (hm : Keeps R m) (hno : Keeps R (f false))
    (hyes : Keeps R (f true)) : Keeps R (m >>= f) :=
  keeps_bind hm fun ok => ok.casesOn hno hyes

variable [Std.Refl R]

theorem keeps_check : Keeps R check :=
  keeps_asked keeps_ask keeps_fail (keeps_pure ())

theorem keeps_each {f} {xs : List β} (hf : ∀ x ∈ xs, Keeps R (f x)) :
    Keeps R (each f xs) := by
  induction xs with
  | nil => exact keeps_pure ()
  | cons x xs ih =>
    exact keeps_bind (hf x (by simp)) fun _ => ih fun y hy => hf y (by simp [hy])

end Keeps

def Ensures (R : σ → σ → Prop) (m : Procedure σ α) : Prop :=
  ∀ s answers a, m.result s answers = some a → R s (m.final s answers)

section Ensures

variable {R : σ → σ → Prop} {m : Procedure σ α}

theorem Keeps.ensures (h : Keeps R m) : Ensures R m :=
  fun s answers _ _ => h s answers

theorem bind_ok {f} {s} {answers} {b : β}
    (h : (m >>= f).result s answers = some b) :
    ∃ a rest, m.result s answers = some a ∧ (f a).result (m.final s answers) rest = some b ∧
      (m >>= f).final s answers = (f a).final (m.final s answers) rest := by
  rcases bind_cases m f s answers with ⟨-, hnone, -⟩ | ⟨a, rest, ha, hresult, hfinal⟩
  · exact absurd (hnone.symm.trans h) (by simp)
  · exact ⟨a, rest, ha, hresult.symm.trans h, hfinal⟩

theorem ensures_bind [IsTrans σ R] {f : α → Procedure σ β} (hm : Ensures R m)
    (hf : ∀ a, Ensures R (f a)) : Ensures R (m >>= f) := by
  intro s answers b hok
  obtain ⟨a, rest, ha, hb, hfinal⟩ := bind_ok hok
  rw [hfinal]
  exact IsTrans.trans _ _ _ (hm s answers a ha) (hf a _ rest b hb)

theorem ensures_each [Std.Refl R] [IsTrans σ R] {f} {xs : List β}
    (hf : ∀ x ∈ xs, Ensures R (f x)) : Ensures R (each f xs) := by
  induction xs with
  | nil => exact (keeps_pure ()).ensures
  | cons x xs ih =>
    exact ensures_bind (hf x (by simp)) fun _ => ih fun y hy => hf y (by simp [hy])

end Ensures

def Reaches (D : σ → Prop) (m : Procedure σ α) : Prop := Ensures (fun _ t => D t) m

section Reaches

variable {R : σ → σ → Prop} {D : σ → Prop} {m : Procedure σ α} {f : α → Procedure σ β}

theorem Reaches.then (stable : ∀ s t, R s t → D s → D t) (hm : Reaches D m)
    (hf : ∀ a, Keeps R (f a)) : Reaches D (m >>= f) := by
  intro s answers b hok
  obtain ⟨a, rest, ha, -, hfinal⟩ := bind_ok hok
  rw [hfinal]
  exact stable _ _ (hf a _ rest) (hm s answers a ha)

theorem reaches_next (hf : ∀ a, Reaches D (f a)) : Reaches D (m >>= f) := by
  intro s answers b hok
  obtain ⟨a, rest, -, hb, hfinal⟩ := bind_ok hok
  rw [hfinal]
  exact hf a _ rest b hb

theorem reaches_current {f : σ → Procedure σ β}
    (h : ∀ s answers b, (f s).result s answers = some b → D ((f s).final s answers)) :
    Reaches D (current >>= f) := h

theorem reaches_each [Std.Refl R] [IsTrans σ R] (stable : ∀ s t, R s t → D s → D t)
    {f} {xs : List β} {x} (hx : x ∈ xs) (hreaches : Reaches D (f x))
    (keeps : ∀ y ∈ xs, Keeps R (f y)) : Reaches D (each f xs) := by
  induction xs with
  | nil => cases hx
  | cons y ys ih =>
    have hys : ∀ z ∈ ys, Keeps R (f z) := fun z hz => keeps z (List.mem_cons_of_mem y hz)
    rcases List.mem_cons.mp hx with rfl | hx
    · exact Reaches.then stable hreaches fun _ => keeps_each hys
    · exact reaches_next fun _ => ih hx hys

end Reaches

/-! ## Pre- and postconditions of one run

`Ends m s post stop`: started in `s`, the procedure answers with `post`, or it stops early,
refused or cut off between two calls, and the state it leaves has `stop`. -/

def Ends (s : σ) (post : α → σ → Prop) (stop : σ → Prop) : Prop :=
  ∀ answers, match m.result s answers with
    | some a => post a (m.final s answers)
    | none => stop (m.final s answers)

section Ends

variable {s : σ} {post : α → σ → Prop} {stop : σ → Prop}

@[simp] theorem ends_pure {a} : Ends (pure a) s post stop ↔ post a s :=
  ⟨fun h => h [], fun h _ => h⟩

@[simp] theorem ends_fail : Ends (fail : Procedure σ α) s post stop ↔ stop s :=
  ⟨fun h => h [], fun h _ => h⟩

@[simp] theorem ends_change {f} {post : Unit → σ → Prop} :
    Ends (change f) s post stop ↔ post () (f s) :=
  ⟨fun h => h [], fun h _ => h⟩

@[simp] theorem ends_current_bind {f} :
    Ends (current >>= f) s post stop ↔ Ends (f s) s post stop := Iff.rfl

@[simp] theorem ends_change_bind {g f} :
    Ends (change g >>= f) s post stop ↔ Ends (f ()) (g s) post stop := Iff.rfl

@[simp] theorem ends_ask_bind {f} : Ends (ask >>= f) s post stop ↔ ∀ ok, Ends (f ok) s post stop :=
  ⟨fun h ok answers => h (ok :: answers), fun h answers => h (answers.headD true) answers.tail⟩

@[simp] theorem ends_check_bind {f} :
    Ends (check >>= f) s post stop ↔ stop s ∧ Ends (f ()) s post stop := by
  constructor
  · intro h
    exact ⟨h [false], fun answers => h (true :: answers)⟩
  · rintro ⟨hstop, hf⟩ answers
    rcases check_bind f s answers with ⟨hresult, hfinal⟩ | ⟨rest, hresult, hfinal⟩
    · rw [hresult, hfinal]
      exact hstop
    · rw [hresult, hfinal]
      exact hf rest

theorem Ends.imp {m} {post' : α → σ → Prop} (h : Ends m s post stop)
    (himp : ∀ a t, post a t → post' a t) : Ends m s post' stop := by
  intro answers
  have hm := h answers
  cases hresult : m.result s answers with
  | none => simpa [hresult] using hm
  | some a =>
    rw [hresult] at hm
    exact himp a _ hm

theorem Ends.bind {m} {f : β → Procedure σ α}
    (h : Ends m s (fun b t => Ends (f b) t post stop) stop) : Ends (m >>= f) s post stop := by
  intro answers
  have hm := h answers
  rcases bind_cases m f s answers with ⟨hnone, hresult, hfinal⟩ | ⟨b, rest, hb, hresult, hfinal⟩
  · rw [hnone] at hm
    rw [hresult, hfinal]
    exact hm
  · rw [hb] at hm
    rw [hresult, hfinal]
    exact hm rest

theorem Ends.final {m : Procedure σ α} (h : Ends m s (fun _ => stop) stop) (answers) :
    stop (m.final s answers) := by
  have hm := h answers
  split at hm <;> exact hm

end Ends

end Procedure

end MeisterStack.Foundation
