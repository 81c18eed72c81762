import MeisterStack.Foundation.Program
import Mathlib.Data.Finset.Card
import Mathlib.Data.String.Basic

/-!
# The enforced revocation list

A process reads its list of revoked serials again when the file's modification time or size has
moved. Looking, comparing, reading, taking the stamp, judging and putting the list in force are
separate steps.
-/

namespace MeisterStack.ControllerApi.Revocations

open Foundation List Option

structure Crl where
  serials : List String
  number : Option Nat
  deriving DecidableEq

abbrev Stamp := Option Nat × Option Nat

/-- One content of the file: why it cannot be read, or the list it is. -/
structure Version where
  content : String ⊕ Crl
  mtime : Option Nat
  size : Nat
  deriving DecidableEq

def isHexDigit (c : Char) : Bool :=
  '0' ≤ c && c ≤ '9' || 'a' ≤ c && c ≤ 'f' || 'A' ≤ c && c ≤ 'F'

def dropPadding : List Char → List Char
  | '0' :: '0' :: c :: rest => dropPadding (c :: rest)
  | chars => chars

def normaliseSerial (serial : String) : String :=
  let out := (serial.toList.filter isHexDigit).map Char.toLower
  String.ofList (dropPadding (if out.length % 2 = 1 then '0' :: out else out))

structure RevocationList where
  serials : Finset String
  number : Option Nat
  stamp : Stamp
  deriving DecidableEq

def listOf (crl : Crl) (stamp : Stamp) : RevocationList :=
  ⟨(crl.serials.map normaliseSerial).toFinset, crl.number, stamp⟩

def stampOf : Option Version → Stamp
  | some v => (v.mtime, some v.size)
  | none => (none, none)

inductive Reload where
  | tooSoon | unchanged
  | loaded (serials : Nat) (number : Option Nat)
  | failed (why : String)
  deriving DecidableEq

/-- `enforced` and `versions` have the newest first; the later entries are history. -/
structure State where
  path : String
  file : Option Version
  versions : List Version
  started : Bool
  checked : Option Int
  enforced : List RevocationList
  deriving DecidableEq

variable (path : String)

def State.start (file : Option Version) : State :=
  ⟨path, file, file.toList, false, none, []⟩

inductive Event where
  | replace (file : Option Version)
  | load (now : Int)
  | refresh (now : Int)

/-- A call of `load_at` or `refresh_at` on its way: `compare` has the file as its metadata was
taken, `write` the list it was judged against. -/
inductive Task where
  | stat (now : Int)
  | compare (now : Int) (file : Option Version)
  | read (now : Int) (loading : Bool)
  | stamp (now : Int) (loading : Bool) (crl : Crl)
  | judge (fresh : RevocationList)
  | write (held fresh : RevocationList)
  | done (answer : Reload)
  deriving DecidableEq

def reloadSecs : Int := 30

def env (s : State) : Event → Option (State × List Task)
  | .replace file => some ({ s with file, versions := file.toList ++ s.versions }, [])
  | .load now => if s.started then none else some ({ s with started := true }, [.read now true])
  | .refresh now =>
    if s.enforced = [] then none
    else if s.checked.any fun last => now - last < reloadSecs then some (s, [.done .tooSoon])
    else some ({ s with checked := some now }, [.stat now])

def contentOf (s : State) : String ⊕ Crl :=
  match s.file with
  | some v => v.content
  | none => .inl ("reading the revocation list " ++ s.path)

def refusal (held fresh : RevocationList) : Option String :=
  match held.number, fresh.number with
  | some heldN, some freshN =>
    if freshN < heldN then
      some (s!"{path} carries crl number {freshN}, older than the {heldN} already enforced; " ++
        "a revocation list that goes backwards is refused")
    else if heldN = freshN ∧ held.serials ≠ fresh.serials then
      some (s!"{path} carries crl number {heldN}, the same as the list already enforced, but " ++
        "different content; a crl number is refused as a distinguisher once it repeats")
    else none
  | _, _ => none

def loaded (list : RevocationList) : Task := .done (.loaded list.serials.card list.number)

def task (s : State) (t : Task) (_ : Unit) : Option (State × List Task) :=
  match t with
  | .stat now => some (s, [.compare now s.file])
  | .compare now file =>
    match s.enforced with
    | [] => none
    | held :: _ =>
      if (stampOf file).1.isSome ∧ held.stamp.1.isSome ∧ stampOf file = held.stamp then
        some (s, [.done .unchanged])
      else some (s, [.read now false])
  | .read now loading =>
    match contentOf s with
    | .inl why => some (s, [.done (.failed why)])
    | .inr crl => some (s, [.stamp now loading crl])
  | .stamp now loading crl =>
    let fresh := listOf crl (stampOf s.file)
    if loading then some ({ s with enforced := [fresh], checked := some now }, [loaded fresh])
    else some (s, [.judge fresh])
  | .judge fresh =>
    match s.enforced with
    | [] => none
    | held :: _ =>
      match refusal s.path held fresh with
      | some why => some (s, [.done (.failed why)])
      | none => some (s, [.write held fresh])
  | .write _ fresh => some ({ s with enforced := fresh :: s.enforced }, [loaded fresh])
  | .done _ => none

def program : Program State Task Event Unit := ⟨env, task⟩

def begin (file : Option Version) : World State Task := ⟨.start path file, []⟩

/-! ## Numbers -/

def Ahead (later earlier : RevocationList) : Prop :=
  ∀ n m, later.number = some n → earlier.number = some m →
    m ≤ n ∧ (m = n → later.serials = earlier.serials)

/-- A list is put in force over the one it was judged against, and none without a number over one
that has it. -/
def judgedInPlace : Guard State Task Event Unit where
  env _ _ := True
  task s t _ := match t with
    | .write held fresh =>
      s.enforced.head? = some held ∧ (held.number.isSome → fresh.number.isSome)
    | _ => True

/-- Every list a load has put in force, and those without numbers before those with. -/
structure Ordered (s : State) : Prop where
  ahead : s.enforced.Pairwise Ahead
  numbered : ∀ l rest, s.enforced = l :: rest → l.number = none → ∀ e ∈ rest, e.number = none

def Judged : Task → Prop
  | .write held fresh => Ahead fresh held
  | _ => True

variable {s s' : State} {t : Task} {next : List Task} {held fresh : RevocationList}
  {path : String} {file : Option Version} {w : World State Task}
  {moves : List (Move Event Unit)}

theorem ahead_of_refusal (h : refusal path held fresh = none) : Ahead fresh held := by
  intro n m hn hm
  simp only [refusal, hn, hm] at h
  grind

theorem Ordered.cons {past} (h : Ordered s) (hs : s.enforced = held :: past)
    (hahead : Ahead fresh held) (hnumber : held.number.isSome → fresh.number.isSome) :
    Ordered { s with enforced := fresh :: s.enforced } := by
  obtain ⟨hpair, hnumbered⟩ := h
  simp only [hs, pairwise_cons] at hpair
  refine ⟨?_, fun l rest heq hl e he => ?_⟩
  · simp only [hs, pairwise_cons]
    refine ⟨fun e he => ?_, hpair⟩
    rcases mem_cons.mp he with rfl | he
    · exact hahead
    · intro n k hn hk
      -- the list in force has a number, for an earlier one has
      obtain ⟨m, hm⟩ := ne_none_iff_exists'.mp fun hnone =>
        by simp [hnumbered held past hs hnone e he] at hk
      have hlast := hahead n m hn hm
      have hprev := hpair.1 e he m k hm hk
      exact ⟨hprev.1.trans hlast.1, fun hkn => by
        rw [hlast.2 (by omega), hprev.2 (by omega)]⟩
  · simp only [cons.injEq] at heq
    obtain ⟨rfl, rfl⟩ := heq
    have hheld : held.number = none := by simpa [hl] using hnumber
    rw [hs] at he
    rcases mem_cons.mp he with rfl | he
    · exact hheld
    · exact hnumbered held past hs hheld e he

theorem task_enforced (h : task s t () = some (s', next)) :
    s'.enforced = s.enforced ∨
      ∃ l, next = [loaded l] ∧ (s'.enforced = [l] ∨ s'.enforced = l :: s.enforced) := by
  cases t with
  | write => grind [task]
  | stamp now loading => cases loading <;> grind [task]
  | _ => grind [task]

theorem orderedOutline : program.Outline judgedInPlace Ordered fun _ => Judged where
  env := by
    intro s event s' new hs _ h
    have henforced : s'.enforced = s.enforced ∧ ∀ t ∈ new, Judged t := by
      cases event <;> simp only [program, env] at h <;> grind [Judged]
    exact ⟨⟨henforced.1 ▸ hs.1, henforced.1 ▸ hs.2⟩, henforced.2, fun _ ht => ht⟩
  task := by
    intro s t input s' next hs ht hguard h
    refine ⟨?_, ?_, fun _ hu => hu⟩
    · cases t with
      | write =>
        obtain ⟨past, hpast⟩ := head?_eq_some_iff.mp hguard.1
        cases h
        exact hs.cons hpast ht hguard.2
      | stamp now loading =>
        cases loading with
        | true =>
          cases h
          exact ⟨by simp, by simp +contextual⟩
        | false =>
          cases h
          exact hs
      | _ =>
        have hsame : s' = s := by
          simp only [program, task] at h
          grind
        exact hsame ▸ hs
    · cases t with
      | judge =>
        simp only [program, task] at h
        grind [Judged, ahead_of_refusal]
      | _ =>
        simp only [program, task] at h
        grind [Judged, loaded]

/-- Over a life of the process the numbers in force do not fall and repeat only with the same
serials, where the steps are taken as said; and the step that changes the list is the last of a
refresh that says so. -/
theorem revocation_never_goes_back (hmeets : program.RunMeets judgedInPlace (begin path file) moves)
    (hrun : program.run (begin path file) moves = some w) :
    w.shared.enforced.Pairwise Ahead ∧
      ∀ s t s' next, task s t () = some (s', next) → s'.enforced ≠ s.enforced →
        ∃ l, next = [loaded l] := by
  refine ⟨(orderedOutline.run ⟨⟨.nil, by simp [begin, State.start]⟩, by simp [begin]⟩ hmeets
    hrun).1.ahead, fun s t s' next h hne => ?_⟩
  obtain ⟨l, hnext, -⟩ := (task_enforced h).resolve_left hne
  exact ⟨l, hnext⟩

instance (s e) : Decidable (judgedInPlace.env s e) := .isTrue trivial

instance (s t i) : Decidable (judgedInPlace.task s t i) :=
  by induction t using Task.casesOn <;> dsimp only [judgedInPlace] <;> infer_instance

def numberedAt (number : Option Nat) (mtime : Nat) : Option Version :=
  some ⟨.inr ⟨[], number⟩, some mtime, 0⟩

def loads : List (Move Event Unit) := [.env (.load 0), .task 0 (), .task 0 ()]

/-- A refresh from its start to its end, the `index`-th call of the process. -/
def refreshes (index : Nat) (now : Int) (file : Option Version) : List (Move Event Unit) :=
  [.env (.replace file), .env (.refresh now)] ++ replicate 6 (.task index ())

theorem revocation_never_goes_back_renewed :
    ∃ w, program.run (begin "" (numberedAt (some 1) 0))
        (loads ++ refreshes 1 30 (numberedAt (some 2) 1)) = some w ∧
      w.shared.enforced.Pairwise Ahead :=
  have hrun := some_get (x := program.run (begin "" (numberedAt (some 1) 0))
    (loads ++ refreshes 1 30 (numberedAt (some 2) 1))) (by decide +kernel)
  ⟨_, hrun.symm, (revocation_never_goes_back (by decide +kernel) hrun.symm).1⟩

/-- A list without a number comes between, and the next is compared with that one only. -/
theorem number_falls_over_unnumbered :
    (program.run (begin "" (numberedAt (some 5) 0))
      (loads ++ refreshes 1 30 (numberedAt none 1) ++ refreshes 2 60 (numberedAt (some 3) 2))).map
        (fun w => w.shared.enforced.map (·.number)) = some [some 3, none, some 5] := by
  decide +kernel

/-! ## Stamps -/

/-- Every replacement has a stamp of its own, and where the stamp of a content is taken the file
has that content. -/
def stampedInPlace : Guard State Task Event Unit where
  env s e := match e with
    | .replace file => ∀ v ∈ file, ∀ u ∈ s.versions, stampOf (some u) ≠ stampOf (some v)
    | _ => True
  task s t _ := match t with
    | .stamp _ _ crl => ∀ v ∈ s.file, v.content = .inr crl
    | _ => True

def Vouched (versions : List Version) (l : RevocationList) : Prop :=
  l.stamp.1.isSome → ∃ v ∈ versions, ∃ crl, stampOf (some v) = l.stamp ∧ v.content = .inr crl ∧
    l = listOf crl l.stamp

structure Stamped (s : State) : Prop where
  alone : (s.versions.map fun v => stampOf (some v)).Nodup
  known : ∀ v ∈ s.file, v ∈ s.versions
  vouched : ∀ l ∈ s.enforced, Vouched s.versions l

def Seen (s : State) : Task → Prop
  | .compare _ file => ∀ v ∈ file, v ∈ s.versions
  | .judge fresh | .write _ fresh => Vouched s.versions fresh
  | _ => True

theorem Vouched.mono {vs us l} (h : Vouched vs l) (hsub : vs ⊆ us) : Vouched us l := fun hl =>
  let ⟨v, hv, rest⟩ := h hl
  ⟨v, hsub hv, rest⟩

theorem Seen.mono (h : Seen s t) (hsub : s.versions ⊆ s'.versions) : Seen s' t := by
  cases t with
  | compare => exact fun v hv => hsub (h v hv)
  | judge | write => exact Vouched.mono h hsub
  | _ => trivial

theorem Seen.same (hsame : s'.versions = s.versions) : ∀ t, Seen s t → Seen s' t :=
  fun _ h => h.mono (hsame ▸ Subset.refl _)

theorem vouched_listOf (hs : Stamped s) {crl} (h : ∀ v ∈ s.file, v.content = .inr crl) :
    Vouched s.versions (listOf crl (stampOf s.file)) := by
  intro hsome
  cases hfile : s.file with
  | none => simp [listOf, stampOf, hfile] at hsome
  | some v => exact ⟨v, hs.known v hfile, crl, rfl, h v hfile, rfl⟩

theorem stampedOutline : program.Outline stampedInPlace Stamped Seen where
  env := by
    intro s event s' new hs hguard h
    cases event with
    | replace file =>
      cases h
      have hsub : s.versions ⊆ file.toList ++ s.versions := subset_append_right ..
      refine ⟨⟨?_, fun v hv => mem_append_left _ (mem_toList.mpr hv),
        fun l hl => (hs.vouched l hl).mono hsub⟩, by simp, fun t ht => Seen.mono ht hsub⟩
      cases file with
      | none => exact hs.alone
      | some v =>
        have hfresh : ∀ u ∈ s.versions, stampOf (some u) ≠ stampOf (some v) := hguard v rfl
        simpa [hs.alone] using hfresh
    | load =>
      simp only [program, env] at h
      split at h <;> cases h
      exact ⟨⟨hs.1, hs.2, hs.3⟩, by simp [Seen], Seen.same rfl⟩
    | refresh =>
      simp only [program, env] at h
      split at h
      · cases h
      · split at h
        · cases h
          exact ⟨hs, by simp [Seen], fun _ ht => ht⟩
        · cases h
          exact ⟨⟨hs.1, hs.2, hs.3⟩, by simp [Seen], Seen.same rfl⟩
  task := by
    intro s t input s' next hs ht hguard h
    cases t with
    | write =>
      cases h
      refine ⟨⟨hs.1, hs.2, fun l hl => ?_⟩, by simp [Seen, loaded], Seen.same rfl⟩
      rcases mem_cons.mp hl with rfl | hl
      · exact ht
      · exact hs.vouched l hl
    | stamp now loading =>
      have hvouched := vouched_listOf hs hguard
      cases loading with
      | true =>
        cases h
        exact ⟨⟨hs.1, hs.2, by simpa using hvouched⟩, by simp [Seen, loaded], Seen.same rfl⟩
      | false =>
        cases h
        exact ⟨hs, by simpa [Seen] using hvouched, fun _ hu => hu⟩
    | _ =>
      have hsame : s' = s ∧ ∀ u ∈ next, Seen s u := by
        simp only [program, task] at h
        grind [Seen, hs.known]
      exact ⟨hsame.1 ▸ hs, hsame.1 ▸ hsame.2, fun _ hu => hsame.1 ▸ hu⟩

/-- A refresh that finds nothing changed compares the file, as its metadata was, with a list that
is the parse of its content. -/
theorem unchanged_means_current (hmeets : program.RunMeets stampedInPlace (begin path file) moves)
    (hrun : program.run (begin path file) moves = some w) {n : Int} {seen : Option Version}
    (hmem : .compare n seen ∈ w.tasks)
    (hstep : task w.shared (.compare n seen) () = some (s', [.done .unchanged])) :
    ∃ v crl stamp, seen = some v ∧ v.content = .inr crl ∧
      s'.enforced.head? = some (listOf crl stamp) := by
  have hstart : Stamped (State.start path file) :=
    ⟨by cases file <;> simp [State.start], by simp [State.start], by simp [State.start]⟩
  obtain ⟨hs, htasks⟩ := stampedOutline.run ⟨hstart, by simp [begin]⟩ hmeets hrun
  have hseen : ∀ v ∈ seen, v ∈ w.shared.versions := htasks _ hmem
  simp only [task] at hstep
  split at hstep
  · cases hstep
  · rename_i held rest henforced
    split at hstep <;> cases hstep
    rename_i hsame
    cases seen with
    | none => simp [stampOf] at hsame
    | some v =>
      obtain ⟨u, hu, crl, hstamp, hcontent, hlist⟩ :=
        hs.vouched held (by simp [henforced]) hsame.2.1
      obtain rfl : u = v := inj_on_of_nodup_map hs.alone hu (hseen v rfl)
        (hstamp.trans hsame.2.2.symm)
      exact ⟨u, crl, held.stamp, rfl, hcontent, by rw [henforced, ← hlist]; rfl⟩

instance (s e) : Decidable (stampedInPlace.env s e) :=
  by induction e using Event.casesOn <;> dsimp only [stampedInPlace] <;> infer_instance

instance (s t i) : Decidable (stampedInPlace.task s t i) :=
  by induction t using Task.casesOn <;> dsimp only [stampedInPlace] <;> infer_instance

theorem unchanged_means_current_still :
    ∃ w, program.run (begin "" (numberedAt (some 1) 0))
        (loads ++ [.env (.refresh 30), .task 1 ()]) = some w ∧
      ∃ v crl stamp, numberedAt (some 1) 0 = some v ∧ v.content = .inr crl ∧
        w.shared.enforced.head? = some (listOf crl stamp) :=
  have hrun := some_get (x := program.run (begin "" (numberedAt (some 1) 0))
    (loads ++ [.env (.refresh 30), .task 1 ()])) (by decide +kernel)
  ⟨_, hrun.symm, unchanged_means_current (n := 30) (by decide +kernel) hrun.symm
    (by decide +kernel) (by decide +kernel)⟩

/-- The file is replaced after the content of the second list is read: the list in force is the
second, under the stamp of the third, and the next look finds nothing changed. -/
theorem unchanged_under_foreign_stamp :
    (program.run (begin "" (numberedAt (some 1) 0)) (loads ++
      [.env (.replace (numberedAt (some 2) 1)), .env (.refresh 30), .task 1 (), .task 1 (),
        .task 1 (), .env (.replace (numberedAt (some 3) 2)), .task 1 (), .task 1 (), .task 1 (),
        .env (.refresh 60), .task 2 (), .task 2 ()])).map
      (fun w => (w.tasks[2]?, w.shared.file, w.shared.enforced.head?.map (·.number))) =
    some (some (.done .unchanged), numberedAt (some 3) 2, some (some 2)) := by
  decide +kernel

end MeisterStack.ControllerApi.Revocations
