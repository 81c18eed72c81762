import MeisterStack.Foundation.History
import MeisterStack.Foundation.Revision

/-!
# Lists in a cluster's report

`build_status` lists the VMs, volumes, snapshots and routers of the cluster and flags each list as
complete where a count of the keys, read after the list, comes to the same number. `list` drops what
it cannot decode. A revision of the store is a moment.
-/

namespace MeisterStack.ClusterController.StatusReport

open Foundation List

inductive Kind where
  | vm | volume | snapshot | router
  deriving DecidableEq

structure Object where
  managedByCloud : Bool
  cloudUid : Option String
  decodes : Bool

abbrev Objects := Table (Kind × String) Object

variable (objects : Objects) (kind : Kind)

def ofKind : List Object :=
  (objects.list.filter fun e => e.1.1 = kind).map fun e => e.2.val

def count : Nat := (ofKind objects kind).length

def list : List Object :=
  (ofKind objects kind).filter Object.decodes

structure Listing where
  uids : List String
  complete : Bool

def nameOne (listing : Listing) (o : Object) : Listing :=
  match o.cloudUid with
  | some uid => { listing with uids := listing.uids ++ [uid] }
  -- it cannot be named in the cloud's words, which costs the list its completeness
  | none => { listing with complete := false }

def reportCloud (objects : List Object) (complete : Bool) : Listing :=
  (objects.filter Object.managedByCloud).foldl nameOne ⟨[], complete⟩

structure ClusterStatus where
  vms : Listing
  volumes : Listing
  snapshots : Listing
  routers : Listing

def ClusterStatus.of (status : ClusterStatus) : Kind → Listing
  | .vm => status.vms
  | .volume => status.volumes
  | .snapshot => status.snapshots
  | .router => status.routers

structure Report where
  status : ClusterStatus
  began : Nat
  ended : Nat

structure State where
  next : Nat
  objects : Objects
  sent : List Report

structure Build where
  began : Nat
  status : ClusterStatus

inductive Task where
  | list (b : Build) (kind : Kind)
  -- `keys` is the number of keys in the answer to the listing, which `list` drops
  | count (b : Build) (kind : Kind) (listed : List Object) (keys : Nat)

inductive Input where
  | go
  | fail

inductive Event where
  | build
  | put (kind : Kind) (name : String) (o : Object)
  | delete (kind : Kind) (name : String)

def noStatus : ClusterStatus := ⟨⟨[], false⟩, ⟨[], false⟩, ⟨[], false⟩, ⟨[], false⟩⟩

def env (s : State) : Event → Option (State × List Task)
  | .build => some (s, [.list ⟨s.next, noStatus⟩ .vm])
  | .put kind name o =>
    some ({ s with next := s.next + 1, objects := s.objects.put (kind, name) s.next o }, [])
  | .delete kind name => do
      let _ ← s.objects.cell (kind, name)
      return ({ s with next := s.next + 1, objects := s.objects.remove (kind, name) }, [])

def Build.record (b : Build) (listing : Listing) : Kind → Build
  | .vm => { b with status := { b.status with vms := listing } }
  | .volume => { b with status := { b.status with volumes := listing } }
  | .snapshot => { b with status := { b.status with snapshots := listing } }
  | .router => { b with status := { b.status with routers := listing } }

def Kind.following : Kind → Option Kind
  | .vm => some .volume
  | .volume => some .snapshot
  | .snapshot => some .router
  | .router => none

def task (s : State) : Task → Input → Option (State × List Task)
  | .list b kind, .go => some (s, [.count b kind (list s.objects kind) (count s.objects kind)])
  | .count b kind listed _, .go =>
    let b := b.record (reportCloud listed (listed.length = count s.objects kind)) kind
    match kind.following with
    | some kind => some (s, [.list b kind])
    | none => some ({ s with sent := ⟨b.status, b.began, s.next⟩ :: s.sent }, [])
  | _, .fail => some (s, [])

def program : Program State Task Event Input := ⟨env, task⟩

def history : Observer State Task Event Input (List Objects) where
  env s event past :=
    match event with
    | .build => past
    | .put _ _ _ | .delete _ _ => past ++ [s.objects]
  task _ _ _ past := past

def recorded : Program (State × List Objects) Task Event Input := program.observed history

variable (s : State × List Objects)

def State.at (rev : Nat) : Option Objects :=
  (s.2 ++ [s.1.objects])[rev]?

def Names (listing : Listing) (objects : Objects) (kind : Kind) : Prop :=
  ∀ name v, objects.cell (kind, name) = some v → v.val.managedByCloud →
    ∃ uid ∈ listing.uids, v.val.cloudUid = some uid

variable {objects : Objects} {kind : Kind}

theorem mem_ofKind {name v} (h : objects.cell (kind, name) = some v) :
    v.val ∈ ofKind objects kind := by
  simp only [ofKind, List.mem_map, mem_filter, decide_eq_true_eq]
  exact ⟨((kind, name), v), ⟨Table.mem_list.mpr h, rfl⟩, rfl⟩

theorem foldl_nameOne (objects : List Object) (listing : Listing) :
    (∀ uid ∈ listing.uids, uid ∈ (objects.foldl nameOne listing).uids) ∧
      ((objects.foldl nameOne listing).complete → listing.complete ∧
        ∀ o ∈ objects, ∃ uid ∈ (objects.foldl nameOne listing).uids, o.cloudUid = some uid) := by
  induction objects generalizing listing with
  | nil => simp
  | cons o objects ih =>
    rw [foldl_cons]
    obtain ⟨hkept, hnamed⟩ := ih (nameOne listing o)
    cases huid : o.cloudUid with
    | none =>
      simp only [nameOne, huid] at hkept hnamed ⊢
      exact ⟨hkept, fun hcomplete => absurd (hnamed hcomplete).1 (by simp)⟩
    | some uid =>
      simp only [nameOne, huid] at hkept hnamed ⊢
      refine ⟨fun u hu => hkept u (mem_append_left _ hu), fun hcomplete => ?_⟩
      refine ⟨(hnamed hcomplete).1, fun o' ho' => ?_⟩
      rcases mem_cons.mp ho' with rfl | ho'
      · exact ⟨uid, hkept uid (by simp), huid⟩
      · exact (hnamed hcomplete).2 o' ho'

theorem names_of_complete {complete : Bool}
    (hall : complete → (list objects kind).length = count objects kind)
    (h : (reportCloud (list objects kind) complete).complete) :
    Names (reportCloud (list objects kind) complete) objects kind := by
  obtain ⟨hcomplete, hnamed⟩ := (foldl_nameOne _ _).2 h
  have hdecodes : ∀ o ∈ ofKind objects kind, o.decodes :=
    List.length_filter_eq_length_iff.mp (hall hcomplete)
  intro name v hv hmanaged
  have hmem := mem_ofKind hv
  apply hnamed
  simp only [list, mem_filter]
  exact ⟨⟨hmem, hdecodes _ hmem⟩, hmanaged⟩

theorem length_list_le (objects kind) : (list objects kind).length ≤ count objects kind :=
  List.length_filter_le _ _

def noFewerKeys : Guard (State × List Objects) Task Event Input where
  env _ _ := True
  task s t _ :=
    match t with
    | .list _ _ => True
    | .count _ kind _ keys => keys ≤ count s.1.objects kind

instance (s event) : Decidable (noFewerKeys.env s event) := .isTrue trivial

instance (s t input) : Decidable (noFewerKeys.task s t input) := by
  cases t <;> dsimp only [noFewerKeys] <;> infer_instance

def During (began ended : Nat) (holds : Objects → Prop) : Prop :=
  ∃ rev objects, began ≤ rev ∧ rev ≤ ended ∧ State.at s rev = some objects ∧ holds objects

def StatusOk (status : ClusterStatus) (began ended : Nat) : Prop :=
  ∀ kind, (status.of kind).complete →
    During s began ended fun objects => Names (status.of kind) objects kind

structure Sound (s : State × List Objects) : Prop where
  length : s.2.length = s.1.next
  sent : ∀ r ∈ s.1.sent, StatusOk s r.status r.began r.ended

def TaskOk : Task → Prop
  | .list b _ => b.began ≤ s.1.next ∧ StatusOk s b.status b.began s.1.next
  | .count b kind listed keys =>
    b.began ≤ s.1.next ∧ StatusOk s b.status b.began s.1.next ∧
      During s b.began s.1.next fun objects =>
        listed = list objects kind ∧ keys = count objects kind

structure Later (s s' : State × List Objects) : Prop where
  next : s.1.next ≤ s'.1.next
  past : ∀ rev objects, State.at s rev = some objects → State.at s' rev = some objects

variable {s s' : State × List Objects}

theorem During.keep (hlater : Later s s') {began ended ended'} {holds : Objects → Prop}
    (hended : ended ≤ ended') (h : During s began ended holds) : During s' began ended' holds := by
  obtain ⟨rev, objects, hbegan, hrev, hat, hholds⟩ := h
  exact ⟨rev, objects, hbegan, hrev.trans hended, hlater.past rev objects hat, hholds⟩

theorem StatusOk.keep (hlater : Later s s') {status began ended ended'} (hended : ended ≤ ended')
    (h : StatusOk s status began ended) : StatusOk s' status began ended' :=
  fun kind hcomplete => (h kind hcomplete).keep hlater hended

theorem TaskOk.keep (hlater : Later s s') {t} (h : TaskOk s t) : TaskOk s' t := by
  cases t with
  | list => exact ⟨h.1.trans hlater.next, h.2.keep hlater hlater.next⟩
  | count =>
    exact ⟨h.1.trans hlater.next, h.2.1.keep hlater hlater.next, h.2.2.keep hlater hlater.next⟩

theorem at_next (h : s.2.length = s.1.next) : State.at s s.1.next = some s.1.objects := by
  simp [State.at, ← h]

theorem later_write :
    Later s ({ s.1 with next := s.1.next + 1, objects }, s.2 ++ [s.1.objects]) := by
  refine ⟨Nat.le_succ _, fun rev objects hat => ?_⟩
  exact (List.getElem?_append_left (List.getElem?_eq_some_iff.mp hat).1).trans hat

theorem later_sent {sent} : Later s ({ s.1 with sent }, s.2) :=
  ⟨le_rfl, fun _ _ hat => hat⟩

theorem Sound.keep (hs : Sound s) (hlater : Later s s')
    (hlength : s'.2.length = s'.1.next) (hsent : s'.1.sent = s.1.sent) : Sound s' := by
  refine ⟨hlength, fun r hr => ?_⟩
  rw [hsent] at hr
  exact (hs.sent r hr).keep hlater le_rfl

theorem env_sound {event new} (hs : Sound s) (h : recorded.env s event = some (s', new)) :
    Sound s' ∧ Later s s' ∧ ∀ t ∈ new, TaskOk s' t := by
  obtain ⟨hstep, hpast⟩ := Program.observed_env h
  obtain ⟨state, past⟩ := s'
  dsimp only at hstep hpast
  subst hpast
  cases event with
  | build =>
    cases hstep
    refine ⟨hs, ⟨le_rfl, fun _ _ hat => hat⟩, fun t ht => ?_⟩
    rw [mem_singleton.mp ht]
    refine ⟨le_rfl, fun kind hcomplete => ?_⟩
    cases kind <;> cases hcomplete
  | put =>
    cases hstep
    exact ⟨hs.keep later_write (by simp [history, hs.length]) rfl, later_write, by simp⟩
  | delete =>
    obtain ⟨v, hv, ⟨⟩⟩ := Option.bind_eq_some_iff.mp hstep
    exact ⟨hs.keep later_write (by simp [history, hs.length]) rfl, later_write, by simp⟩

theorem of_record (b : Build) (listing kind other) :
    (b.record listing kind).status.of other =
      if other = kind then listing else b.status.of other := by
  cases kind <;> cases other <;> rfl

theorem began_record (b : Build) (listing kind) : (b.record listing kind).began = b.began := by
  cases kind <;> rfl

theorem recorded_ok {b listed keys} (ht : TaskOk s (.count b kind listed keys))
    (hguard : keys ≤ count s.1.objects kind) :
    let b' := b.record (reportCloud listed (listed.length = count s.1.objects kind)) kind
    StatusOk s b'.status b'.began s.1.next := by
  intro b' other hcomplete
  have hof : b'.status.of other = _ := of_record b _ kind other
  have hbegan : b'.began = b.began := began_record b _ kind
  rw [hof] at hcomplete
  simp only [hof, hbegan]
  split at hcomplete
  · rename_i hkind
    subst hkind
    rw [if_pos rfl]
    obtain ⟨rev, objects, hfrom, hto, hat, rfl, rfl⟩ := ht.2.2
    refine ⟨rev, objects, hfrom, hto, hat, names_of_complete (fun hsame => ?_) hcomplete⟩
    -- the count came to the length of the list and not to less than the keys of the listing
    simp only [decide_eq_true_eq] at hsame
    have hle := length_list_le objects other
    omega
  · rename_i hkind
    rw [if_neg hkind]
    exact ht.2.1 other hcomplete

theorem task_sound {t input next} (hs : Sound s) (ht : TaskOk s t)
    (hguard : noFewerKeys.task s t input) (h : recorded.task s t input = some (s', next)) :
    Sound s' ∧ Later s s' ∧ ∀ u ∈ next, TaskOk s' u := by
  obtain ⟨hstep, hpast⟩ := Program.observed_task h
  obtain ⟨state, past⟩ := s'
  dsimp only at hstep hpast
  subst hpast
  cases input with
  | fail =>
    cases t <;> cases hstep <;> exact ⟨hs, ⟨le_rfl, fun _ _ hat => hat⟩, by simp⟩
  | go =>
    cases t with
    | list =>
      cases hstep
      refine ⟨hs, ⟨le_rfl, fun _ _ hat => hat⟩, fun u hu => ?_⟩
      rw [mem_singleton.mp hu]
      exact ⟨ht.1, ht.2, s.1.next, s.1.objects, ht.1, le_rfl, at_next hs.length, rfl, rfl⟩
    | count =>
      have hok := recorded_ok ht hguard
      dsimp only at hok
      simp only [program, task] at hstep
      split at hstep <;> cases hstep
      · refine ⟨hs, ⟨le_rfl, fun _ _ hat => hat⟩, fun u hu => ?_⟩
        rw [mem_singleton.mp hu]
        refine ⟨?_, hok⟩
        rw [began_record]
        exact ht.1
      · refine ⟨⟨hs.length, fun r hr => ?_⟩, later_sent, by simp⟩
        rcases mem_cons.mp hr with rfl | hr
        · exact hok.keep later_sent le_rfl
        · exact (hs.sent r hr).keep later_sent le_rfl

theorem outline : recorded.Outline noFewerKeys Sound TaskOk where
  env hs _ h := by
    obtain ⟨hs', hlater, hnew⟩ := env_sound hs h
    exact ⟨hs', hnew, fun t ht => ht.keep hlater⟩
  task hs ht hguard h := by
    obtain ⟨hs', hlater, hnext⟩ := task_sound hs ht hguard h
    exact ⟨hs', hnext, fun u hu => hu.keep hlater⟩

/-- Builds of reports run beside deletes and writes of objects, in forms that this replica decodes
or not. A list that is flagged complete names, at some moment of the build, the cloud uid of every
object of the kind that the cloud manages and that is stored at that moment: provided no fewer keys
of the kind are counted than the listing before the count had. -/
theorem complete_list_names_all {s : State} {past : List Objects} {ms : List (Move Event Input)}
    {w : World (State × List Objects) Task} (hpast : past.length = s.next) (hsent : s.sent = [])
    (hmeets : recorded.RunMeets noFewerKeys ⟨(s, past), []⟩ ms)
    (hrun : recorded.run ⟨(s, past), []⟩ ms = some w) (r : Report) (hr : r ∈ w.shared.1.sent)
    (kind : Kind) (hcomplete : (r.status.of kind).complete) :
    ∃ rev objects, r.began ≤ rev ∧ rev ≤ r.ended ∧ State.at w.shared rev = some objects ∧
      ∀ name v, objects.cell (kind, name) = some v → v.val.managedByCloud →
        ∃ uid ∈ (r.status.of kind).uids, v.val.cloudUid = some uid := by
  have hstart : Sound (s, past) := ⟨hpast, by simp [hsent]⟩
  exact (outline.run ⟨hstart, by simp⟩ hmeets hrun).1.sent r hr kind hcomplete

def readable (uid : String) : Object := ⟨true, some uid, true⟩

def unreadable (uid : String) : Object := ⟨true, some uid, false⟩

def restOfBuild : List (Move Event Input) :=
  [.task 0 .go, .task 0 .go, .task 0 .go, .task 0 .go, .task 0 .go, .task 0 .go, .task 0 .go]

def madeBetween : List (Move Event Input) :=
  [.env (.put .vm "a" (readable "ua")), .env (.put .volume "v" (readable "uv")), .env .build,
    .task 0 .go, .env (.put .vm "b" (unreadable "ub"))] ++ restOfBuild

def betweenReport : Report :=
  ⟨⟨⟨["ua"], false⟩, ⟨["uv"], true⟩, ⟨[], true⟩, ⟨[], true⟩⟩, 2, 3⟩

theorem complete_list_names_all_between :
    ∃ w, recorded.run ⟨(⟨0, ∅, []⟩, []), []⟩ madeBetween = some w ∧
      w.shared.1.sent = [betweenReport] ∧ ∃ rev objects, 2 ≤ rev ∧ rev ≤ 3 ∧
        State.at w.shared rev = some objects ∧ Names ⟨["uv"], true⟩ objects .volume := by
  have hmeets : recorded.RunMeets noFewerKeys ⟨(⟨0, ∅, []⟩, []), []⟩ madeBetween := by decide
  refine ⟨_, rfl, rfl, ?_⟩
  exact complete_list_names_all rfl rfl hmeets rfl betweenReport mem_cons_self .volume rfl

def deletedBetween : List (Move Event Input) :=
  [.env (.put .vm "b" (unreadable "ub")), .env (.put .vm "a" (readable "ua")), .env .build,
    .task 0 .go, .env (.delete .vm "a")] ++ restOfBuild

/-- The list is flagged complete, and a VM that is stored from before the build to after it is not
in it. -/
theorem complete_list_misses_vm :
    ∃ w r, recorded.run ⟨(⟨0, ∅, []⟩, []), []⟩ deletedBetween = some w ∧
    w.shared.1.sent = [r] ∧ r.began = 2 ∧ r.ended = 3 ∧ r.status.vms = ⟨["ua"], true⟩ ∧
    (∃ objects, State.at w.shared 2 = some objects ∧
      objects.cell (.vm, "b") = some ⟨0, unreadable "ub"⟩) ∧
    ∃ objects, State.at w.shared 3 = some objects ∧
      objects.cell (.vm, "b") = some ⟨0, unreadable "ub"⟩ :=
  ⟨_, _, rfl, rfl, rfl, rfl, rfl, ⟨_, rfl, rfl⟩, ⟨_, rfl, rfl⟩⟩

end MeisterStack.ClusterController.StatusReport
