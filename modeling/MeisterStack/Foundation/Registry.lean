import MeisterStack.Foundation.Revision

/-!
# Objects that are told apart by a uid

A table whose objects carry a uid that is drawn once, when the object is made. An object may be
edited in place, removed, and followed by another one under the same key.
-/

namespace MeisterStack.Foundation

open Table List

structure Identity (α υ : Type*) where
  uid : α → υ
  Keeps : α → α → Prop
  refl : ∀ x, Keeps x x
  trans : ∀ {x y z}, Keeps x y → Keeps y z → Keeps x z
  uid_eq : ∀ {x y}, Keeps x y → uid y = uid x

structure Registry (κ α υ : Type*) where
  table : Table κ α
  drawn : List υ

namespace Registry

variable {κ α υ : Type*} [DecidableEq κ] (I : Identity α υ)

inductive Change (r : Registry κ α υ) : Registry κ α υ → Prop
  | same : Change r r
  | made {k : κ} {rev : Nat} {x : α} : r.table.cell k = none → I.uid x ∉ r.drawn →
      Change r ⟨r.table.put k rev x, I.uid x :: r.drawn⟩
  | edited {k : κ} {rev : Nat} {v : Versioned α} {x : α} : r.table.cell k = some v →
      I.Keeps v.val x → Change r ⟨r.table.put k rev x, r.drawn⟩
  | removed {k : κ} : Change r ⟨r.table.remove k, r.drawn⟩
  -- a uid is drawn for an object of another table
  | drew {u : υ} : Change r ⟨r.table, u :: r.drawn⟩

variable {I} {r r' : Registry κ α υ} {k : κ} {v : Versioned α}

theorem Change.cell (h : Change I r r') (hv : r'.table.cell k = some v) :
    (∃ v0, r.table.cell k = some v0 ∧ I.Keeps v0.val v.val) ∨
      r.table.cell k = none ∧ I.uid v.val ∉ r.drawn ∧ r'.drawn = I.uid v.val :: r.drawn := by
  cases h with
  | same | drew => exact .inl ⟨v, hv, I.refl _⟩
  | @made k' rev x habsent hfresh =>
    rcases cell_put_cases hv with ⟨rfl, rfl⟩ | ⟨-, hv⟩
    · exact .inr ⟨habsent, hfresh, rfl⟩
    · exact .inl ⟨v, hv, I.refl _⟩
  | @edited k' rev v' x hv' hkeeps =>
    rcases cell_put_cases hv with ⟨rfl, rfl⟩ | ⟨-, hv⟩
    · exact .inl ⟨v', hv', hkeeps⟩
    · exact .inl ⟨v, hv, I.refl _⟩
  | removed => exact .inl ⟨v, (cell_of_remove hv).2, I.refl _⟩

variable {u : υ}

theorem Change.before (h : Change I r r') (hv : r'.table.cell k = some v) (hu : u ∈ r.drawn)
    (huid : I.uid v.val = u) : ∃ v0, r.table.cell k = some v0 ∧ I.Keeps v0.val v.val := by
  rcases h.cell hv with hold | ⟨-, hfresh, -⟩
  · exact hold
  · rw [huid] at hfresh
    exact absurd hu hfresh

theorem Change.drawn_subset (h : Change I r r') (hu : u ∈ r.drawn) : u ∈ r'.drawn := by
  cases h with
  | made | drew => exact mem_cons_of_mem _ hu
  | _ => exact hu

def Drawn (I : Identity α υ) (r : Registry κ α υ) : Prop :=
  ∀ k v, r.table.cell k = some v → I.uid v.val ∈ r.drawn

theorem Change.drawn (h : Change I r r') (hr : Drawn I r) : Drawn I r' := by
  intro k v hv
  rcases h.cell hv with ⟨v0, hv0, hkeeps⟩ | ⟨-, -, hdrawn⟩
  · rw [I.uid_eq hkeeps]
    exact h.drawn_subset (hr k v0 hv0)
  · rw [hdrawn]
    exact mem_cons_self

def Stored (I : Identity α υ) (r : Registry κ α υ) (u : υ) : Prop :=
  ∃ k v, r.table.cell k = some v ∧ I.uid v.val = u

theorem Change.stored (h : Change I r r') (hu : u ∈ r.drawn) (hstored : Stored I r' u) :
    Stored I r u := by
  obtain ⟨k, v, hv, rfl⟩ := hstored
  obtain ⟨v0, hv0, hkeeps⟩ := h.before hv hu rfl
  exact ⟨k, v0, hv0, (I.uid_eq hkeeps).symm⟩

def Is (I : Identity α υ) (r : Registry κ α υ) (k : κ) (x : α) : Prop :=
  I.uid x ∈ r.drawn ∧ ∀ k' v, r.table.cell k' = some v → I.uid v.val = I.uid x →
    k' = k ∧ I.Keeps x v.val

variable {x : α}

theorem Change.is (h : Change I r r') (hx : Is I r k x) : Is I r' k x := by
  refine ⟨h.drawn_subset hx.1, fun k' v hv huid => ?_⟩
  obtain ⟨v0, hv0, hkeeps⟩ := h.before hv hx.1 huid
  rw [I.uid_eq hkeeps] at huid
  obtain ⟨rfl, hkept⟩ := hx.2 k' v0 hv0 huid
  exact ⟨rfl, I.trans hkept hkeeps⟩

theorem is_made (hr : Drawn I r) {rev} (hfresh : I.uid x ∉ r.drawn) :
    Is I ⟨r.table.put k rev x, I.uid x :: r.drawn⟩ k x := by
  refine ⟨mem_cons_self, fun k' v hv huid => ?_⟩
  rcases cell_put_cases hv with ⟨rfl, rfl⟩ | ⟨-, hv⟩
  · exact ⟨rfl, I.refl _⟩
  · have hdrawn := hr k' v hv
    rw [huid] at hdrawn
    exact absurd hdrawn hfresh

def Distinct (I : Identity α υ) (r : Registry κ α υ) : Prop :=
  ∀ k k' v v', r.table.cell k = some v → r.table.cell k' = some v' →
    I.uid v.val = I.uid v'.val → k = k'

theorem Change.distinct (h : Change I r r') (hdrawn : Drawn I r) (hr : Distinct I r) :
    Distinct I r' := by
  intro k k' v v' hv hv' huid
  cases h with
  | same | drew => exact hr k k' v v' hv hv' huid
  | removed => exact hr k k' v v' (cell_of_remove hv).2 (cell_of_remove hv').2 huid
  | made habsent hfresh =>
    rcases cell_put_cases hv with ⟨rfl, rfl⟩ | ⟨-, hold⟩
    · rcases cell_put_cases hv' with ⟨rfl, -⟩ | ⟨-, hv'⟩
      · rfl
      · rw [huid] at hfresh
        exact absurd (hdrawn k' v' hv') hfresh
    · rcases cell_put_cases hv' with ⟨rfl, rfl⟩ | ⟨-, hv'⟩
      · rw [← huid] at hfresh
        exact absurd (hdrawn k v hold) hfresh
      · exact hr k k' v v' hold hv' huid
  | edited hw hkeeps =>
    rcases cell_put_cases hv with ⟨rfl, rfl⟩ | ⟨-, hold⟩
    · rcases cell_put_cases hv' with ⟨rfl, -⟩ | ⟨-, hv'⟩
      · rfl
      · exact hr k k' _ v' hw hv' ((I.uid_eq hkeeps).symm.trans huid)
    · rcases cell_put_cases hv' with ⟨rfl, rfl⟩ | ⟨-, hv'⟩
      · exact hr k k' v _ hold hw (huid.trans (I.uid_eq hkeeps))
      · exact hr k k' v v' hold hv' huid

theorem is_of_cell (hdrawn : Drawn I r) (hr : Distinct I r)
    (hv : r.table.cell k = some v) : Is I r k v.val := by
  refine ⟨hdrawn k v hv, fun k' v' hv' huid => ?_⟩
  obtain rfl := hr k' k v' v hv' hv huid
  rw [hv] at hv'
  cases hv'
  exact ⟨rfl, I.refl _⟩

theorem Is.not_stored (h : Is I r k x)
    (hgone : ∀ v, r.table.cell k = some v → I.uid v.val ≠ I.uid x) : ¬Stored I r (I.uid x) := by
  rintro ⟨k', v, hv, huid⟩
  obtain ⟨rfl, -⟩ := h.2 k' v hv huid
  exact hgone v hv huid

theorem Is.not_stored_remove (h : Is I r k x) :
    ¬Stored I ⟨r.table.remove k, r.drawn⟩ (I.uid x) := by
  apply (Change.removed.is h).not_stored
  intro v hv
  exact absurd rfl (cell_of_remove hv).1

variable (I) in
inductive Commit (r : Registry κ α υ) (next : Nat) : Registry κ α υ → Nat → Prop
  | same {next' : Nat} : next ≤ next' → Commit r next r next'
  | made {k : κ} {x : α} : r.table.cell k = none → I.uid x ∉ r.drawn →
      Commit r next ⟨r.table.put k next x, I.uid x :: r.drawn⟩ (next + 1)
  | edited {k : κ} {v : Versioned α} {x : α} : r.table.cell k = some v → I.Keeps v.val x →
      Commit r next ⟨r.table.put k next x, r.drawn⟩ (next + 1)
  | removed {k : κ} : Commit r next ⟨r.table.remove k, r.drawn⟩ (next + 1)
  | drew {u : υ} {next' : Nat} : next ≤ next' → Commit r next ⟨r.table, u :: r.drawn⟩ next'

variable {next next' : Nat} (h : Commit I r next r' next')

include h

theorem Commit.change : Change I r r' := by
  cases h with
  | same => exact .same
  | made habsent hfresh => exact .made habsent hfresh
  | edited hv hkeeps => exact .edited hv hkeeps
  | removed => exact .removed
  | drew => exact .drew

theorem Commit.next_le : next ≤ next' := by
  cases h with
  | same hle | drew hle => exact hle
  | made | edited | removed => exact Nat.le_succ next

theorem Commit.below (hr : r.table.Below next) :
    r'.table.Below next' := by
  cases h with
  | same hle | drew hle => exact hr.mono hle
  | made | edited => exact hr.put _ _
  | removed => exact (hr.remove _).mono (Nat.le_succ next)

theorem Commit.saw
    (hv : (r.table.cell k).Saw next v) : (r'.table.cell k).Saw next' v := by
  cases h with
  | same hle | drew hle => exact hv.mono hle
  | made | edited => exact saw_put hv _
  | removed => exact (saw_remove hv).mono (Nat.le_succ next)

theorem Commit.stood
    (hv : r'.table.cell k = some v) (hrev : v.rev < next) : r.table.cell k = some v := by
  cases h with
  | same | drew => exact hv
  | made | edited => exact (cell_of_put hv hrev).2
  | removed => exact (cell_of_remove hv).2

structure Sound (I : Identity α υ) (r : Registry κ α υ) (next : Nat) : Prop where
  below : r.table.Below next
  drawn : Drawn I r
  distinct : Distinct I r

theorem Commit.sound (hr : Sound I r next) : Sound I r' next' :=
  ⟨h.below hr.below, h.change.drawn hr.drawn, h.change.distinct hr.drawn hr.distinct⟩

omit h

theorem Sound.saw (hr : Sound I r next)
    (hv : r.table.cell k = some v) : (r.table.cell k).Saw next v :=
  (hr.below k).saw hv

theorem Sound.is (hr : Sound I r next) (hv : r.table.cell k = some v) : Is I r k v.val :=
  is_of_cell hr.drawn hr.distinct hv

def count (r : Registry κ α υ) (q : α → Bool) : Nat :=
  r.table.total fun _ v => if q v.val then 1 else 0

omit [DecidableEq κ] in
theorem length_filter_list (r : Registry κ α υ) (q : α → Bool) :
    ((r.table.list.map fun e => e.2.val).filter q).length = r.count q := by
  simp only [count, Table.total]
  induction r.table.list with
  | nil => rfl
  | cons e l ih =>
    simp only [map_cons, sum_cons, filter_cons, ← ih]
    split <;> simp [Nat.add_comm]

private theorem indicator_le {p q : Bool} (h : p → q) :
    (if p then 1 else 0) ≤ if q then 1 else 0 := by
  cases p with
  | false => simp
  | true => simp [h rfl]

theorem count_le_count {q q'} (h : ∀ k v, r.table.cell k = some v → q' v.val → q v.val) :
    r.count q' ≤ r.count q :=
  total_le_total fun k v hv => indicator_le (h k v hv)

theorem Change.count_le (h : Change I r r') {q q'}
    (hold : ∀ k v v0, r'.table.cell k = some v → r.table.cell k = some v0 →
      I.Keeps v0.val v.val → q' v.val → q v0.val)
    (hnew : ∀ k v, r'.table.cell k = some v → I.uid v.val ∉ r.drawn → q' v.val = false) :
    r'.count q' ≤ r.count q := by
  cases h with
  | same | drew => exact count_le_count fun k v hv hq => hold k v v hv hv (I.refl _) hq
  | @made k rev x habsent hfresh =>
    have hzero := hnew k ⟨rev, x⟩ (cell_put_self _ _ _ _) hfresh
    have hrest : r.count q' ≤ r.count q := by
      apply count_le_count
      intro k' v hv hq
      have hne : k' ≠ k := by
        rintro rfl
        rw [habsent] at hv
        cases hv
      exact hold k' v v ((cell_put_ne _ hne _ _).trans hv) hv (I.refl _) hq
    simp only [count] at hrest ⊢
    rw [total_put_of_none _ habsent]
    simpa [hzero] using hrest
  | @edited k rev v0 x hv0 hkeeps =>
    simp only [count]
    rw [total_put, total_remove _ hv0]
    apply Nat.add_le_add
    · exact indicator_le (hold k ⟨rev, x⟩ v0 (cell_put_self _ _ _ _) hv0 hkeeps)
    · apply total_le_total
      intro k' v hv
      obtain ⟨hne, hv⟩ := cell_of_remove hv
      exact indicator_le (hold k' v v ((cell_put_ne _ hne _ _).trans hv) hv (I.refl _))
  | @removed k =>
    have hrest : (r.table.remove k).total (fun _ v => if q' v.val then 1 else 0) ≤
        (r.table.remove k).total fun _ v => if q v.val then 1 else 0 :=
      total_le_total fun k' v hv =>
        indicator_le (hold k' v v hv (cell_of_remove hv).2 (I.refl _))
    have hsplit := total_split (fun _ v => if q v.val then 1 else 0) r.table k
    simp only [count]
    omega

end Registry

end MeisterStack.Foundation
