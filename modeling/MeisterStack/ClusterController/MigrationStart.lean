import MeisterStack.ControllerApi.Migration
import MeisterStack.ControllerApi.StoreCalls

/-!
# Asking for a migration

A migration record comes to be by the command of the cloud or by the drain of a node. Both treat one
error of the store as the same question asked twice. The store answers a create of a taken name with
`AlreadyExists` or `Terminating`; the error both expect, `Conflict`, is the answer to an update.
-/

namespace MeisterStack.ClusterController.MigrationStart

open Foundation Option Site System
open ControllerApi

inductive Key where
  | vm (name : String)
  | migration (name : String)
  deriving DecidableEq

structure Guest where
  cloudUid : Option String
  tenant : Option String

structure Record where
  uid : String
  tenant : String
  vm : String
  targetNode : Option String
  kind : VmMigrationPhaseKind
  deleting : Bool

inductive Stored where
  | vm (guest : Guest)
  | migration (record : Record)

def Stored.deleting : Stored → Bool
  | .vm _ => false
  | .migration record => record.deleting

def errorText : StoreError → String
  | .notFound subject => s!"object not found: {subject}"
  | .alreadyExists subject => s!"object already exists: {subject}"
  | .terminating subject => s!"object is being deleted: {subject}"
  | .conflict message | .invalid message => message
  | .fault (.backend message) => s!"etcd: {message}"
  | .fault (.timeout what) => s!"etcd {what} did not answer in time"
  | .fault (.undecodable message) => message

def checkName (name : String) : Option StoreError :=
  let wrong (why : String) : Option StoreError :=
    let quoted := name.quote
    some (.invalid s!"invalid object: metadata.name {quoted} {why}")
  let alphanumeric (c : Char) : Bool := c.isAlpha || c.isDigit
  if name.isEmpty then some (.invalid "invalid object: metadata.name must be set")
  else if name.utf8ByteSize > 63 then
    let bytes := name.utf8ByteSize
    wrong s!"is {bytes} bytes; at most 63 are allowed"
  else if !name.toList.all fun c => c.isLower || c.isDigit || c == '-' then
    wrong ("may hold only lowercase letters, digits and '-' (it is a dns label: it becomes an " ++
      "etcd key, a file name and part of an interface name)")
  else if !name.toList.head?.any alphanumeric || !name.toList.getLast?.any alphanumeric then
    wrong "must start and end with a letter or a digit"
  else none

inductive StartError where
  | said (text : String)
  | refused (text : String)
  | store (why : StoreError)

abbrev StartCall := Call Key Stored Fault (Except StartError Unit)

def createThen (name : String) (record : Record)
    (next : Except StoreError Unit → StartCall) : StartCall :=
  match checkName name with
  | some why => next (.error why)
  | none =>
    .txn (.migration name) 0 (some (.migration record)) fun
      | .error why => next (.error (.fault why))
      | .ok (.landed _) => next (.ok ())
      | .ok (.refused found) =>
        next (.error (if found.any fun v => v.val.deleting then
          .terminating s!"vmmigrations/{name}" else .alreadyExists s!"vmmigrations/{name}"))

def created : Except StoreError Unit → StartCall
  | .ok () => .ret (.ok ())
  | .error (.conflict _) => .ret (.ok ())
  | .error why => .ret (.error (.store why))

structure CloudCommand where
  name : String
  vm : String
  cloudUid : String
  targetNode : Option String
  admission : Except Fault (Option String)
  uid : String

def CloudCommand.record (c : CloudCommand) (guest : Guest) : Record :=
  ⟨c.uid, guest.tenant.getD "", c.vm, c.targetNode, .pending, false⟩

def notHere (vm : String) (why : StoreError) : StartError :=
  let text := errorText why
  .said s!"vm {vm} is not on this cluster: {text}"

def startFromTheCloud (c : CloudCommand) : StartCall :=
  .read (.vm c.vm) fun
    | .error why => .ret (.error (notHere c.vm (.fault why)))
    | .ok (some ⟨_, .vm guest⟩) =>
      if guest.cloudUid ≠ some c.cloudUid then
        .ret (.error (.refused
          s!"vm {c.vm} on this cluster is not the cloud's vm {c.cloudUid}"))
      else
        match c.admission with
        | .error why => .ret (.error (.store (.fault why)))
        | .ok (some why) => .ret (.error (.refused why))
        | .ok none => createThen c.name (c.record guest) created
    | .ok (some ⟨_, .migration _⟩) =>
      .ret (.error (notHere c.vm (.fault (.undecodable "not a vm"))))
    | .ok none => .ret (.error (notHere c.vm (.notFound s!"vms/{c.vm}")))

structure Drain where
  vm : String
  tenant : Option String
  stamp : String
  uid : String

def Drain.name (d : Drain) : String := s!"{d.vm}-{d.stamp}"

def Drain.record (d : Drain) : Record :=
  ⟨d.uid, d.tenant.getD "", d.vm, none, .pending, false⟩

def underWay (vm : String) (listed : List (Key × Versioned Stored)) : Bool :=
  listed.any fun e =>
    match e.2.val with
    | .migration m => m.vm = vm && !m.kind.isFinal
    | .vm _ => false

def startForDrain (d : Drain) : StartCall :=
  .list fun
    | .error why => .ret (.error (.store (.fault why)))
    | .ok listed =>
      if underWay d.vm listed then .ret (.ok ())
      else createThen d.name d.record created

inductive Request where
  | cloud (command : CloudCommand)
  | drain (drain : Drain)

def Request.name : Request → String
  | .cloud c => c.name
  | .drain d => d.name

abbrev StartSite := Site Request Key Stored (Except StartError Unit)

def others (store : Store Key Stored) : Key → Option Stored → Bool
  | .vm _, some (.vm _) => true
  | .vm _, none => true
  | .migration name, some (.migration new) =>
    (store.cell (.migration name)).any fun v =>
      match v.val with
      | .migration old => old.uid = new.uid && old.vm = new.vm
      | .vm _ => false
  | _, _ => false

def system : System Request Key Stored Fault (Except StartError Unit) where
  writes := others
  begins _
    | .cloud c => some (startFromTheCloud c)
    | .drain d => some (startForDrain d)

def FreeName (store : Store Key Stored) (_ : Request) (key : Key) (_ : Nat)
    (_ : Option Stored) : Prop :=
  store.cell key = none

instance (store request key expect new) : Decidable (FreeName store request key expect new) :=
  inferInstanceAs (Decidable (store.cell key = none))

inductive Legal (store : Store Key Stored) : Option Request → Key → Option Stored → Prop
  | vm (name : String) (new : Option Stored) : Legal store none (.vm name) new
  | edited (name : String) (v : Versioned Stored) (old new : Record)
      (hcell : store.cell (.migration name) = some v) (hold : v.val = .migration old)
      (huid : new.uid = old.uid) (hvm : new.vm = old.vm) :
      Legal store none (.migration name) (some (.migration new))
  | created (request : Request) (record : Record)
      (hcell : store.cell (.migration request.name) = none) :
      Legal store (some request) (.migration request.name) (some (.migration record))

variable {store : Store Key Stored}

theorem Legal.migration {who key new name v old} (h : Legal store who key new)
    (hc : store.cell (.migration name) = some v) (hold : v.val = .migration old) :
    ∃ v' record, (store.commit key new).cell (.migration name) = some v' ∧
      v'.val = .migration record ∧ record.uid = old.uid ∧ record.vm = old.vm := by
  by_cases hk : Key.migration name = key
  · subst hk
    cases h with
    | edited _ v' old' new hcell hold' huid hvm =>
      rw [hc] at hcell
      cases hcell
      rw [hold] at hold'
      cases hold'
      exact ⟨_, new, Store.cell_commit_self .., rfl, huid, hvm⟩
    | created request record hcell =>
      rw [hc] at hcell
      cases hcell
  · exact ⟨v, old, by rw [Store.cell_commit_ne store hk]; exact hc, hold, rfl, rfl⟩

section Safety

variable {s : StartSite} {own : List (Commit Request Key Stored)} {request : Request}
  {guard : AttemptRule Request Key Stored}
  {post : Post Request Key Stored (Except StartError Unit) (Except StartError Unit)}

theorem free_of_revision {key} (hs : store.Sound) (hrev : (store.cell key).revision = 0) :
    store.cell key = none := by
  cases hc : store.cell key with
  | none => rfl
  | some =>
    rw [hc] at hrev
    exact absurd hrev (hs.stored hc).1.ne'

theorem created_conflictless {why} (h : ∀ message, why ≠ .conflict message) :
    created (.error why) = .ret (.error (.store why)) := by
  cases why <;> first | rfl | exact absurd rfl (h _)

theorem createThen_safe {record} (hstable : Stable Legal post) (hs : s.store.Sound)
    (hinvalid : ∀ message, checkName request.name = some (.invalid message) →
      post s own (.error (.store (.invalid message))))
    (hfault : ∀ s' own' why, Later Legal s s' → post s' own' (.error (.store (.fault why))))
    (htaken : ∀ s' why, Later Legal s s' →
      guard s'.store request (.migration request.name) 0 (some (.migration record)) →
      s'.store.cell (.migration request.name) ≠ none → post s' own (.error (.store why)))
    (hok : ∀ s' c, Later Legal s s' → post s' (own ++ [c]) (.ok ())) :
    (createThen request.name record created).Safe Legal guard request post own s := by
  unfold createThen
  split
  · rename_i why hwhy
    obtain ⟨message, rfl⟩ : ∃ message, why = .invalid message := by
      unfold checkName at hwhy
      dsimp only at hwhy
      repeat' split at hwhy
      all_goals first | exact ⟨_, (some.inj hwhy).symm⟩ | cases hwhy
    exact .ret hstable (hinvalid message hwhy)
  · intro s' hl hguard
    refine ⟨fun why => .ret hstable (hfault s' own why hl), fun hne => ?_, fun hrev => ?_⟩
    · have htaken' : s'.store.cell (.migration request.name) ≠ none := by
        intro hnone
        rw [hnone] at hne
        exact hne rfl
      dsimp only
      rw [created_conflictless (by split <;> simp)]
      exact .ret hstable (htaken s' _ hl hguard htaken')
    · have hlegal := Legal.created request record (free_of_revision (hl.sound hs) hrev)
      have hnext : Later Legal s (s'.commit (some request) (.migration request.name)
          (some (.migration record))) := hl.trans (.next (.commit _ _ _ hlegal))
      exact ⟨hlegal, fun why => .ret hstable (hfault _ _ why hnext), .ret hstable (hok _ _ hnext)⟩

end Safety

def Unanswered (answer : Except StartError Unit) : Prop :=
  ∃ why, answer = .error (.store (.fault why)) ∨
    ∃ vm, answer = .error (notHere vm (.fault why))

def HoldsVm (vm cloudUid : String) (store : Store Key Stored) : Prop :=
  ∃ v guest, store.cell (.vm vm) = some v ∧ v.val = .vm guest ∧ guest.cloudUid = some cloudUid

def Barred (s : StartSite) (began : Nat) : Request → Prop
  | .cloud c => checkName c.name ≠ none ∨ c.admission ≠ .ok none ∨
      s.Since began fun store => ¬ HoldsVm c.vm c.cloudUid store
  | .drain d => checkName d.name ≠ none

def Taken (guard : AttemptRule Request Key Stored)
    (request : Request) (store : Store Key Stored) : Prop :=
  ∃ record, guard store request (.migration request.name) 0 (some (.migration record)) ∧
    store.cell (.migration request.name) ≠ none

def Meets (guard : AttemptRule Request Key Stored)
    (request : Request) (began : Nat) (s : StartSite) (_ : List (Commit Request Key Stored))
    (answer : Except StartError Unit) : Prop :=
  answer = .ok () ∨ Unanswered answer ∨ Barred s began request ∨
    s.Since began (Taken guard request)

variable {s : StartSite}

theorem Barred.later {s' began request} (h : Barred s began request) (hl : Later Legal s s') :
    Barred s' began request := by
  cases request with
  | cloud => exact h.imp_right fun h => h.imp_right hl.since
  | drain => exact h

theorem meets_stable (guard request began) : Stable Legal (Meets guard request began) :=
  fun _ _ _ _ hl h => h.imp_right fun h => h.imp_right fun h =>
    h.imp (fun h => h.later hl) hl.since

theorem not_holdsVm_of_vm {vm cloudUid rev guest} (hc : store.cell (.vm vm) = some ⟨rev, .vm guest⟩)
    (hne : guest.cloudUid ≠ some cloudUid) : ¬ HoldsVm vm cloudUid store := by
  rintro ⟨v, guest', hv, hval, huid⟩
  rw [hc] at hv
  cases hv
  cases hval
  exact hne huid

section Answers

variable {s : StartSite} {request : Request} {began : Nat}
  {guard : AttemptRule Request Key Stored}

theorem createThen_meets {record own} (hs : s.store.Sound) (hle : began ≤ s.commits.length)
    (hbarred : checkName request.name ≠ none → Barred s began request) :
    (createThen request.name record created).Safe Legal guard request
      (Meets guard request began) own s := by
  refine createThen_safe (meets_stable guard request began) hs ?_ ?_ ?_ ?_
  · intro message hname
    exact .inr (.inr (.inl (hbarred (by simp [hname]))))
  · intro s' own' why _
    exact .inr (.inl ⟨why, .inl rfl⟩)
  · intro s' why hl hg htaken
    have hle' := hle.trans hl.commits.length_le
    exact .inr (.inr (.inr (since_now hle' ⟨record, hg, htaken⟩)))
  · intro s' c _
    exact .inl rfl

theorem startFromTheCloud_meets (c) (hs : s.store.Sound) (hle : began ≤ s.commits.length) :
    (startFromTheCloud c).Safe Legal guard (.cloud c) (Meets guard (.cloud c) began) [] s := by
  intro s' hl
  have hstable := meets_stable guard (.cloud c) began
  have hle' := hle.trans hl.commits.length_le
  have hmissing (h : ¬ HoldsVm c.vm c.cloudUid s'.store) {answer : Except StartError Unit} :
      Meets guard (.cloud c) began s' [] answer :=
    .inr (.inr (.inl (.inr (.inr (since_now hle' h)))))
  refine ⟨fun why => .ret hstable (.inr (.inl ⟨why, .inr ⟨c.vm, rfl⟩⟩)), ?_⟩
  rcases hc : s'.store.cell (.vm c.vm) with _ | ⟨rev, guest | record⟩
  · refine .ret hstable (hmissing ?_)
    rintro ⟨v, guest, hv, -⟩
    rw [hc] at hv
    cases hv
  · dsimp only
    split
    · rename_i hne
      exact .ret hstable (hmissing (not_holdsVm_of_vm hc hne))
    · split
      · rename_i why hadmission
        exact .ret hstable (.inr (.inl ⟨why, .inl rfl⟩))
      · rename_i why hadmission
        exact .ret hstable (.inr (.inr (.inl (.inr (.inl (by simp [hadmission]))))))
      · exact createThen_meets (hl.sound hs) hle' .inl
  · refine .ret hstable (hmissing ?_)
    rintro ⟨v, guest, hv, hval, -⟩
    rw [hc] at hv
    cases hv
    cases hval

theorem startForDrain_meets (d) (hs : s.store.Sound) (hle : began ≤ s.commits.length) :
    (startForDrain d).Safe Legal guard (.drain d) (Meets guard (.drain d) began) [] s := by
  intro s' hl
  have hstable := meets_stable guard (.drain d) began
  refine ⟨fun why => .ret hstable (.inr (.inl ⟨why, .inl rfl⟩)), ?_⟩
  dsimp only
  split
  · exact .ret hstable (.inl rfl)
  · exact createThen_meets (hl.sound hs) (hle.trans hl.commits.length_le) id

end Answers

structure Inv (s : StartSite) : Prop where
  remembers : s.Remembers
  chained : s.Chained

theorem Inv.next {s'} (h : Inv s) (hn : Next Legal s s') : Inv s' where
  remembers := (Later.next hn).remembers h.remembers
  chained := (Later.next hn).chained h.chained

theorem verified (guard) :
    system.Verified Legal guard Inv (Meets guard) where
  keeps := Inv.next
  writes {s key new} _ h := by
    rcases key with name | name
    · exact .vm name new
    · rcases new with _ | (guest | new)
      · cases h
      · cases h
      · simp only [system, others] at h
        obtain ⟨⟨rev, old⟩, hc, hsame⟩ := any_eq_true _ _ |>.mp h
        cases old with
        | vm => cases hsame
        | migration old =>
          simp only [Bool.and_eq_true, decide_eq_true_eq] at hsame
          exact .edited name ⟨rev, .migration old⟩ old new hc rfl hsame.1.symm hsame.2.symm
  begins {s request call} hs h := by
    cases request with
    | cloud c =>
      cases h
      exact startFromTheCloud_meets c hs.remembers.sound le_rfl
    | drain d =>
      cases h
      exact startForDrain_meets d hs.remembers.sound le_rfl

def Stands (name : String) (record : Record) (store : Store Key Stored) : Prop :=
  ∃ v stood, store.cell (.migration name) = some v ∧ v.val = .migration stood ∧
    stood.uid = record.uid ∧ stood.vm = record.vm

section OneRecord

variable {s : StartSite} {i j : Nat} {c c' : Commit Request Key Stored} {request : Request}
  {store : Store Key Stored}

theorem Legal.stands {who key new name record} (h : Legal store who key new)
    (hs : Stands name record store) : Stands name record (store.commit key new) := by
  obtain ⟨v, stood, hc, hval, huid, hvm⟩ := hs
  obtain ⟨v', stood', hc', hval', huid', hvm'⟩ := h.migration hc hval
  exact ⟨v', stood', hc', hval', huid'.trans huid, hvm'.trans hvm⟩

theorem Legal.creates {request key new} (h : Legal store (some request) key new) :
    ∃ record, key = .migration request.name ∧ new = some (.migration record) ∧
      store.cell (.migration request.name) = none := by
  cases h with
  | created request record hcell => exact ⟨record, rfl, rfl, hcell⟩

theorem stands_commit (name record) :
    Stands name record (store.commit (.migration name) (some (.migration record))) :=
  ⟨_, record, Store.cell_commit_self .., rfl, rfl, rfl⟩

theorem stands_later (hs : s.Chained) (hlegal : ∀ c ∈ s.commits, Legal c.store c.who c.key c.new)
    (hc : s.commits[i]? = some c) (hwho : c.who = some request) (hij : i < j)
    (hj : s.moments[j]? = some store) :
    ∃ record, c.key = .migration request.name ∧ c.new = some (.migration record) ∧
      Stands request.name record store := by
  have hcreates := hlegal c (List.mem_of_getElem? hc)
  rw [hwho] at hcreates
  obtain ⟨record, hkey, hnew, -⟩ := hcreates.creates
  refine ⟨record, hkey, hnew, hs.keep (Stands request.name record) hij (hs i c hc) hj ?_ ?_⟩
  · rw [hkey, hnew]
    exact stands_commit request.name record
  · intro k c' _ _ hc' hstands
    exact (hlegal c' (List.mem_of_getElem? hc')).stands hstands

theorem not_created_later (hs : s.Chained)
    (hlegal : ∀ c ∈ s.commits, Legal c.store c.who c.key c.new) (hc : s.commits[i]? = some c)
    (hc' : s.commits[j]? = some c') (hwho : c.who ≠ none) (hwho' : c'.who ≠ none)
    (hkey : c.key = c'.key) : ¬ i < j := by
  intro hij
  obtain ⟨request, hwho⟩ := ne_none_iff_exists'.mp hwho
  obtain ⟨request', hwho'⟩ := ne_none_iff_exists'.mp hwho'
  obtain ⟨record, hkey1, -, v, -, hv, -⟩ :=
    stands_later hs hlegal hc hwho hij (moments_of_commit hc')
  have hcreates := hlegal c' (List.mem_of_getElem? hc')
  rw [hwho'] at hcreates
  obtain ⟨-, hkey2, -, hfree⟩ := hcreates.creates
  rw [← hkey2, ← hkey, hkey1, hv] at hfree
  cases hfree

end OneRecord

def Granted (s : StartSite) (began ended : Nat) : Request → Prop
  | .cloud c => checkName c.name = none ∧ c.admission = .ok none ∧
      ¬ s.During began ended fun store => ¬ HoldsVm c.vm c.cloudUid store
  | .drain d => checkName d.name = none

theorem Granted.not_barred {r began request} (h : Granted s began r.commits.length request)
    (hl : Later Legal r s) : ¬ Barred r began request := by
  cases request with
  | cloud =>
    obtain ⟨hname, hadmission, hholds⟩ := h
    rintro (hbad | hbad | hbad)
    · exact hbad hname
    · exact hbad hadmission
    · exact hholds (hl.during hbad)
  | drain => exact fun hbad => hbad h

/--
A name gets one record, whoever asks for it and how often, and the record stays. Where no
create is carried out while its name is taken, every request that is to be granted is.
-/
theorem asking_twice_is_asking_once {store : Store Key Stored} (hstore : store.Sound)
    {moves : List (Move (SiteEvent Request Key Stored) (Heard Fault))}
    {w : World StartSite (Pending Request Key Stored Fault (Except StartError Unit))}
    (hrun : system.program.run ⟨of store, []⟩ moves = some w) :
    (∀ (i j : Nat) (c c' : Commit Request Key Stored),
      w.shared.commits[i]? = some c → w.shared.commits[j]? = some c' →
      c.who ≠ none → c'.who ≠ none → c.key = c'.key → i = j) ∧
    (∀ c ∈ w.shared.commits, ∀ request, c.who = some request → ∃ record,
      c.key = .migration request.name ∧ c.new = some (.migration record) ∧
      Stands request.name record w.shared.store) ∧
    (system.program.RunMeets (guarded FreeName) ⟨of store, []⟩ moves →
      ∀ a ∈ w.shared.answers, Granted w.shared a.began a.ended a.request →
        a.answer = .ok () ∨ Unanswered a.answer) := by
  have hinit : Inv (of store) := ⟨.of hstore, chained_of store⟩
  have hkept := (verified unguarded).run_unguarded hinit hrun
  have hs := hkept.invariant.chained
  refine ⟨fun i j c c' hc hc' hwho hwho' hkey => ?_, fun c hc request hwho => ?_,
    fun hmeets a ha hgranted => ?_⟩
  · rcases Nat.lt_trichotomy i j with hij | hij | hij
    · exact absurd hij (not_created_later hs hkept.commits hc hc' hwho hwho' hkey)
    · exact hij
    · exact absurd hij (not_created_later hs hkept.commits hc' hc hwho' hwho hkey.symm)
  · obtain ⟨i, hi⟩ := List.mem_iff_getElem?.mp hc
    exact stands_later hs hkept.commits hi hwho (List.getElem?_eq_some_iff.mp hi).1
      w.shared.moments_now
  · obtain ⟨r, hl, hended, -, hok | hfault | hbarred | ⟨-, st, -, -, record, hfree, htaken⟩⟩ :=
      ((verified FreeName).run hinit hmeets hrun).answers a ha
    · exact .inl hok
    · exact .inr hfault
    · rw [← hended] at hgranted
      exact absurd hbarred (hgranted.not_barred hl)
    · exact absurd hfree htaken

def oneVm : Store Key Stored :=
  ⟨2, Table.put (∅ : Table Key Stored) (.vm "v") 1 (.vm ⟨some "cloud-uid", some "t"⟩)⟩

theorem oneVm_sound : oneVm.Sound where
  pos := by decide
  stored h := by
    rcases Table.cell_put_cases h with ⟨-, rfl⟩ | ⟨-, h⟩
    · decide
    · cases h

def delivery (uid : String) : Request := .cloud ⟨"m", "v", "cloud-uid", none, .ok none, uid⟩

def drainOfSecond (uid : String) : Request := .drain ⟨"v", some "t", "20260101t000000", uid⟩

def oneAfterOther (first second : Request) :
    List (Move (SiteEvent Request Key Stored) (Heard Fault)) :=
  [.env (.ask first), .task 0 .answer, .task 0 .answer, .task 0 .answer,
    .env (.ask second), .task 0 .answer, .task 0 .answer, .task 0 .answer]

def bothRead (first second : Request) :
    List (Move (SiteEvent Request Key Stored) (Heard Fault)) :=
  [.env (.ask first), .env (.ask second), .task 0 .answer, .task 1 .answer,
    .task 0 .answer, .task 0 .answer, .task 0 .answer, .task 0 .answer]

/-- The second delivery of a command whose record stands is answered with an error, and so is
the drain of the replica that comes second in the same second. -/
theorem second_asking_fails :
    (∃ w, system.program.run ⟨of oneVm, []⟩
        (oneAfterOther (delivery "a") (delivery "b")) = some w ∧
      w.shared.answers.map (·.answer) =
        [.ok (), .error (.store (.alreadyExists "vmmigrations/m"))]) ∧
    ∃ w, system.program.run ⟨of oneVm, []⟩
        (bothRead (drainOfSecond "a") (drainOfSecond "b")) = some w ∧
      w.shared.answers.map (·.answer) =
        [.ok (), .error (.store (.alreadyExists "vmmigrations/v-20260101t000000"))] :=
  ⟨⟨_, rfl, rfl⟩, ⟨_, rfl, rfl⟩⟩

def drainSeesIt : List (Move (SiteEvent Request Key Stored) (Heard Fault)) :=
  [.env (.ask (delivery "a")), .task 0 .answer, .task 0 .answer, .task 0 .answer,
    .env (.ask (drainOfSecond "b")), .task 0 .answer, .task 0 .answer]

theorem asking_twice_of_drain :
    ∃ w, system.program.run ⟨of oneVm, []⟩ drainSeesIt = some w ∧
      w.shared.answers.map (·.answer) = [.ok (), .ok ()] ∧
      (∀ c ∈ w.shared.commits, ∀ request, c.who = some request → ∃ record,
        c.key = .migration request.name ∧ c.new = some (.migration record) ∧
        Stands request.name record w.shared.store) ∧
      ∀ a ∈ w.shared.answers, Granted w.shared a.began a.ended a.request →
        a.answer = .ok () ∨ Unanswered a.answer := by
  have hmeets : system.program.RunMeets (guarded FreeName) ⟨of oneVm, []⟩
      drainSeesIt := by decide
  obtain ⟨-, hstands, hgranted⟩ := asking_twice_is_asking_once oneVm_sound
    (rfl : system.program.run _ drainSeesIt = some _)
  exact ⟨_, rfl, rfl, hstands, hgranted hmeets⟩

end MeisterStack.ClusterController.MigrationStart
