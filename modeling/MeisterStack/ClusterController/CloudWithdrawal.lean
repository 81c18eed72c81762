import MeisterStack.ControllerApi.GuardedDeletion
import MeisterStack.ControllerApi.Volume

/-!
# Withdrawals of the cloud

The cloud takes an object of its own back from a cluster: a destroy marks it for teardown, a delete
removes a record nothing owns bytes for, a release removes a volume's record and keeps its bytes.
Each reads the name, judges what it found by the cloud uid, and writes against that judgement.
-/

namespace MeisterStack.ClusterController.CloudWithdrawal

open Foundation Call.Safe Bool Site
open ControllerApi
open ControllerApi.Resource

variable {β : Type}

inductive Failure where
  | store (why : StoreError)
  | said (text : String)

abbrev CommandCall (β ρ : Type) := Call String (Object β) Fault (Except Failure ρ)

section

variable (cloudUid : String)

def theClouds (obj : Object β) : Bool := obj.cloudUid = some cloudUid

def answerUnwritten {ρ : Type} (T : Resource β) (name : String)
    (settled : Option (Object β) → Option ρ) (doing : String) : CommandCall β ρ :=
  (T.get name).bind fun
    | .ok current => answer (some current.val)
    | .error (.notFound _) => answer none
    | .error why => .ret (.error (.store why))
where
  answer (now : Option (Object β)) : CommandCall β ρ :=
    match settled now with
    | some result => .ret (.ok result)
    | none =>
      .ret (.error (.said s!"{T.subject name} changed while it was {doing}; not {doing} yet"))

def deleted : Option (Object β) → Option Unit
  | some obj => if theClouds cloudUid obj then none else some ()
  | none => some ()

def deleteCloudRecord (T : Resource β) (name : String) (checked : Versioned (Object β))
    (cloudUid : String) : CommandCall β Unit :=
  (T.finishDelete name checked (theClouds cloudUid)).bind fun
    | .error why => .ret (.error (.store why))
    | .ok true => .ret (.ok ())
    | .ok false => answerUnwritten T name (deleted cloudUid) "deleted"

inductive Teardown where
  | marked
  | nothingLeft

def teardownEdit (now : Instant) (obj : Object β) : Object β × Bool :=
  (if theClouds cloudUid obj && obj.metadata.deletionTimestamp.isNone then
      { obj with metadata := { obj.metadata with deletionTimestamp := some now } }
    else obj, theClouds cloudUid obj)

def settledTeardown : Option (Object β) → Option Teardown
  | some obj =>
    if theClouds cloudUid obj then
      if obj.metadata.deletionTimestamp.isSome then some .marked else none
    else some .nothingLeft
  | none => some .nothingLeft

def markForTeardown (T : Resource β) (name : String) (checked : Versioned (Object β))
    (cloudUid : String) (now : Instant) : CommandCall β Teardown :=
  (T.mutateIf name checked.val.uid (teardownEdit cloudUid now)).bind fun
    | .ok (_, true) => .ret (.ok .marked)
    | .ok (_, false) | .error (.conflict _) | .error (.notFound _) =>
      answerUnwritten T name (settledTeardown cloudUid) "marked for teardown"
    | .error why => .ret (.error (.store why))

def stillAttached (name holder : String) : Failure :=
  .said s!"volume {name} is still attached to vm {holder} here"

def unattached (attachedTo : β → Option String) (obj : Object β) : Bool :=
  theClouds cloudUid obj && (attachedTo obj.body).isNone

end

def afterRelease (T : Resource β) (name cloudUid : String) (attachedTo : β → Option String) :
    Except StoreError Bool → CommandCall β Unit
  | .error why => .ret (.error (.store why))
  | .ok true => .ret (.ok ())
  | .ok false =>
    (T.get name).bind fun
      | .error (.notFound _) => .ret (.ok ())
      | .ok obj =>
        if theClouds cloudUid obj.val then
          match attachedTo obj.val.body with
          | some holder => .ret (.error (stillAttached name holder))
          | none =>
            .ret (.error (.said
              s!"volume {name} changed while it was released; not released yet"))
        else .ret (.ok ())
      | .error why => .ret (.error (.store why))

def releaseRecord (T : Resource β) (name : String) (checked : Versioned (Object β))
    (cloudUid : String) (attachedTo : β → Option String) : CommandCall β Unit :=
  (T.releaseAndDelete name checked volumeReleaseFinalizer (unattached cloudUid attachedTo)).bind
    (afterRelease T name cloudUid attachedTo)

def handle (T : Resource β) (name cloudUid : String)
    (act : Versioned (Object β) → CommandCall β Unit) : CommandCall β Unit :=
  (T.get name).bind fun
    | .error (.notFound _) => .ret (.ok ())
    | .error why => .ret (.error (.store why))
    | .ok current => if theClouds cloudUid current.val then act current else .ret (.ok ())

def noted : Except Failure Teardown → Except Failure Unit
  | .ok _ => .ok ()
  | .error why => .error why

def handleDestroy (T : Resource β) (name cloudUid : String) (now : Instant) :
    CommandCall β Unit :=
  handle T name cloudUid fun current =>
    if current.val.metadata.deletionTimestamp.isSome then .ret (.ok ())
    else (markForTeardown T name current cloudUid now).map noted

def handleDelete (T : Resource β) (name cloudUid : String) : CommandCall β Unit :=
  handle T name cloudUid fun current => deleteCloudRecord T name current cloudUid

def handleReleaseVolume (T : Resource β) (name cloudUid : String)
    (attachedTo : β → Option String) : CommandCall β Unit :=
  handle T name cloudUid fun current =>
    match attachedTo current.val.body with
    | some holder => .ret (.error (stillAttached name holder))
    | none => releaseRecord T name current cloudUid attachedTo

inductive Request (β : Type) where
  | markForTeardown (name cloudUid : String) (checked : Versioned (Object β)) (now : Instant)
  | deleteCloudRecord (name cloudUid : String) (checked : Versioned (Object β))
  | releaseRecord (name cloudUid : String) (checked : Versioned (Object β))
  | destroy (name cloudUid : String) (now : Instant)
  | delete (name cloudUid : String)
  | releaseVolume (name cloudUid : String)

namespace Request

def name : Request β → String
  | markForTeardown name .. | deleteCloudRecord name .. | releaseRecord name ..
  | destroy name .. | delete name .. | releaseVolume name .. => name

def cloudUid : Request β → String
  | markForTeardown _ uid .. | deleteCloudRecord _ uid .. | releaseRecord _ uid ..
  | destroy _ uid .. | delete _ uid | releaseVolume _ uid => uid

def checked : Request β → Option (Versioned (Object β))
  | markForTeardown _ _ obj _ | deleteCloudRecord _ _ obj | releaseRecord _ _ obj => some obj
  | _ => none

def call (T : Resource β) (attachedTo : β → Option String) :
    Request β → Call String (Object β) Fault (Except Failure Unit)
  | markForTeardown name uid obj now =>
    (CloudWithdrawal.markForTeardown T name obj uid now).map noted
  | deleteCloudRecord name uid obj => CloudWithdrawal.deleteCloudRecord T name obj uid
  | releaseRecord name uid obj => CloudWithdrawal.releaseRecord T name obj uid attachedTo
  | destroy name uid now => handleDestroy T name uid now
  | delete name uid => handleDelete T name uid
  | releaseVolume name uid => handleReleaseVolume T name uid attachedTo

end Request

abbrev WithdrawalSite (β : Type) := Site (Request β) String (Object β) (Except Failure Unit)

def system (T : Resource β) (attachedTo : β → Option String) [DecidableEq β] :
    System (Request β) String (Object β) Fault (Except Failure Unit) where
  writes _ _ _ := true
  begins s request :=
    if request.checked.all fun obj => s.Had request.name obj then
      some (request.call T attachedTo)
    else none

def Withdrawn (request : Request β) (store : Store String (Object β)) : Prop :=
  ∀ obj, store.cell request.name = some obj → obj.val.cloudUid = some request.cloudUid →
    obj.val.metadata.deletionTimestamp.isSome

structure Permits (T : Resource β) (request : Request β) (store : Store String (Object β))
    (key : String) (new : Option (Object β)) : Prop where
  key : key = request.name
  found : ∃ obj, store.cell request.name = some obj ∧
    (new = some (T.encode obj.val) ∨ obj.val.cloudUid = some request.cloudUid)

def Legal (T : Resource β) (store : Store String (Object β)) (who : Option (Request β))
    (key : String) (new : Option (Object β)) : Prop :=
  ∀ request, who = some request → Permits T request store key new

variable {ρ : Type}

def Meets (request : Request β) (began : Nat) (s : WithdrawalSite β)
    (_ : List (Commit (Request β) String (Object β))) : Except Failure ρ → Prop
  | .ok _ => s.Since began (Withdrawn request)
  | .error _ => True

theorem meets_stable (T) (request : Request β) (began) :
    Stable (Legal T) (Meets (ρ := ρ) request began) := by
  intro s s' own answer hl h
  cases answer with
  | ok => exact hl.since h
  | error => trivial

section Safety

variable {T : Resource β} {request : Request β} {began : Nat} {s s' : WithdrawalSite β}
  {own : List (Commit (Request β) String (Object β))}
  {store : Store String (Object β)} {obj : Versioned (Object β)}

theorem legal_of_cloud (hc : store.cell request.name = some obj)
    (huid : theClouds request.cloudUid obj.val) (new) :
    Legal T store (some request) request.name new := by
  rintro _ ⟨⟩
  exact ⟨rfl, obj, hc, .inr (of_decide_eq_true huid)⟩

theorem legal_edit {new} (hc : store.cell request.name = some obj)
    (hother : ¬theClouds request.cloudUid obj.val → new = obj.val) :
    Legal T store (some request) request.name (some (T.encode new)) := by
  by_cases hours : theClouds request.cloudUid obj.val
  · exact legal_of_cloud hc hours _
  · rw [hother hours]
    rintro _ ⟨⟩
    exact ⟨rfl, obj, hc, .inl rfl⟩

theorem began_le (hle : began ≤ s.commits.length) (hl : Later (Legal T) s s') :
    began ≤ s'.commits.length :=
  hle.trans hl.commits.length_le

theorem withdrawn_of_none (h : store.cell request.name = none) : Withdrawn request store := by
  intro obj hobj
  rw [h] at hobj
  cases hobj

theorem withdrawn_of_other (hc : store.cell request.name = some obj)
    (hother : theClouds request.cloudUid obj.val = false) : Withdrawn request store := by
  intro obj' hobj huid
  rw [hc] at hobj
  cases hobj
  exact absurd huid (of_decide_eq_false hother)

theorem withdrawn_of_marked (hc : store.cell request.name = some obj)
    (hmarked : obj.val.metadata.deletionTimestamp.isSome) : Withdrawn request store := by
  intro obj' hobj _
  rw [hc] at hobj
  cases hobj
  exact hmarked

/-- The call answers as `Meets` asks, from a site that has seen `began` commits. -/
abbrev Serves (T : Resource β) (request : Request β) (began : Nat)
    (own : List (Commit (Request β) String (Object β))) (s : WithdrawalSite β)
    (call : CommandCall β ρ) : Prop :=
  call.Safe (Legal T) System.unguarded request (Meets request began) own s

theorem serves_error (why) : Serves (ρ := ρ) T request began own s (.ret (.error why)) :=
  .ret (meets_stable T request began) trivial

theorem serves_ok {result : ρ} (hle : began ≤ s.commits.length)
    (hl : Later (Legal T) s s') (h : Withdrawn request s'.store) :
    Serves T request began own s' (.ret (.ok result)) :=
  .ret (meets_stable T request began) (since_now (began_le hle hl) h)

theorem answerUnwritten_meets {settled : Option (Object β) → Option ρ}
    {doing} (hle : began ≤ s.commits.length)
    (hsettled : ∀ (store : Store String (Object β)) result,
      settled ((store.cell request.name).map (·.val)) = some result → Withdrawn request store) :
    Serves T request began own s (answerUnwritten T request.name settled doing) := by
  have hanswer (s' : WithdrawalSite β) (hl : Later (Legal T) s s') (now : Option (Object β))
      (hnow : (s'.store.cell request.name).map (·.val) = now) :
      Serves T request began own s' (answerUnwritten.answer T request.name settled doing now) := by
    unfold answerUnwritten.answer
    cases hs : settled now with
    | none => exact serves_error _
    | some result =>
      exact serves_ok hle hl (hsettled s'.store result (by rw [hnow, hs]))
  refine .bind (get_safe (stable _) (fun _ _ _ => serves_error _)
    (fun s' hl hc => ?_) fun s' obj hl hc => ?_)
  · exact hanswer s' hl none (by rw [hc]; rfl)
  · exact hanswer s' hl (some obj.val) (by rw [hc]; rfl)

theorem withdrawn_of_deleted (store result)
    (h : deleted request.cloudUid ((store.cell request.name).map (·.val)) = some result) :
    Withdrawn request store := by
  intro obj hc huid
  simp [hc, deleted, theClouds, huid] at h

theorem withdrawn_of_settled (store result)
    (h : settledTeardown request.cloudUid ((store.cell request.name).map (·.val)) = some result) :
    Withdrawn request store := by
  intro obj hc huid
  by_contra hmarked
  simp [hc, settledTeardown, theClouds, huid, hmarked] at h

variable {checked : Versioned (Object β)}

theorem deleteCloudRecord_meets (hs : s.store.Sound)
    (hle : began ≤ s.commits.length) (hknew : s.store.Knew request.name checked) :
    Serves T request began own s (deleteCloudRecord T request.name checked request.cloudUid) := by
  refine .bind (finishDeleteLoop_safe (stable _) _ hknew rfl ?_)
  exact {
    sound := hs
    fault := fun _ _ _ => serves_error _
    left := fun s' hl => answerUnwritten_meets (began_le hle hl) withdrawn_of_deleted
    permitted := fun _ _ _ hc _ hours _ => legal_of_cloud hc hours none
    lost := fun _ _ _ _ _ _ _ _ => serves_error _
    removed := fun s' obj hl hc _ hours _ => serves_ok hle
      (hl.trans (.next (.commit _ _ _ (legal_of_cloud hc hours none))))
      (withdrawn_of_none (by simp)) }

variable {now : Instant}

theorem legal_teardown (hc : store.cell request.name = some obj) :
    Legal T store (some request) request.name
      (some (T.encode (teardownEdit request.cloudUid now obj.val).1)) :=
  legal_edit hc fun hours => by simp [teardownEdit, hours]

theorem teardownEdit_marked {cloudUid} (now) {obj : Object β}
    (hours : theClouds cloudUid obj) :
    (teardownEdit cloudUid now obj).1.metadata.deletionTimestamp.isSome := by
  cases hmark : obj.metadata.deletionTimestamp <;> simp [teardownEdit, hours, hmark]

theorem markForTeardown_meets (hs : s.store.Sound) (hle : began ≤ s.commits.length) :
    Serves T request began own s (markForTeardown T request.name checked request.cloudUid now) := by
  have hunwritten (s' : WithdrawalSite β) (own' : List (Commit (Request β) String (Object β)))
      (hl : Later (Legal T) s s') :
      Serves T request began own' s'
        (answerUnwritten T request.name (settledTeardown request.cloudUid) "marked for teardown") :=
    answerUnwritten_meets (began_le hle hl) withdrawn_of_settled
  refine .bind (mutateLoop_safe (stable _) _ ?_)
  exact {
    sound := hs
    fault := fun _ _ _ => serves_error _
    missing := fun s' hl _ => hunwritten s' own hl
    other := fun s' _ hl _ _ => hunwritten s' own hl
    spent := fun s' hl => hunwritten s' own hl
    permitted := fun _ _ _ hc _ _ => legal_teardown hc
    lost := fun _ _ _ _ _ _ _ => serves_error _
    written := fun s' obj hl hc _ _ => by
      have hlater : Later (Legal T) s (s'.commit (some request) request.name
          (some (T.encode (teardownEdit request.cloudUid now obj.val).1))) :=
        hl.trans (.next (.commit _ _ _ (legal_teardown hc)))
      cases hours : theClouds request.cloudUid obj.val with
      | false =>
        simp only [teardownEdit, hours] at hlater ⊢
        exact hunwritten _ _ hlater
      | true =>
        have hmarked := teardownEdit_marked now hours
        simp only [teardownEdit, hours] at hlater hmarked ⊢
        exact serves_ok hle hlater (withdrawn_of_marked (Store.cell_commit_self ..) hmarked) }

variable {attachedTo : β → Option String}

theorem afterRelease_meets (hle : began ≤ s.commits.length) :
    Serves T request began own s
      (afterRelease T request.name request.cloudUid attachedTo (.ok false)) := by
  refine .bind (get_safe (stable _) (fun _ _ _ => serves_error _)
    (fun s' hl hc => ?_) fun s' obj hl hc => ?_)
  · exact serves_ok hle hl (withdrawn_of_none hc)
  · dsimp only
    split
    · split <;> exact serves_error _
    · rename_i hother
      exact serves_ok hle hl (withdrawn_of_other hc (eq_false_iff.mpr hother))

theorem legal_take {finalizer} (hc : store.cell request.name = some obj) :
    Legal T store (some request) request.name
      (some (T.encode (takeEdit finalizer (unattached request.cloudUid attachedTo) obj.val))) :=
  legal_edit hc fun hours => by simp [takeEdit, unattached, hours]

theorem releaseRecord_meets (hs : s.store.Sound) (hle : began ≤ s.commits.length) :
    Serves T request began own s
      (releaseRecord T request.name checked request.cloudUid attachedTo) := by
  have hkept (s' : WithdrawalSite β) (own' : List (Commit (Request β) String (Object β)))
      (hl : Later (Legal T) s s') :
      Serves T request began own' s'
        (afterRelease T request.name request.cloudUid attachedTo (.ok false)) :=
    afterRelease_meets (began_le hle hl)
  have hlater {s' : WithdrawalSite β} {obj : Versioned (Object β)}
      (hl : Later (Legal T) s s') (hc : s'.store.cell request.name = some obj) :
      Later (Legal T) s (s'.commit (some request) request.name
        (some (T.encode (takeEdit volumeReleaseFinalizer
          (unattached request.cloudUid attachedTo) obj.val)))) :=
    hl.trans (.next (.commit _ _ _ (legal_take hc)))
  have hcloud {finalizer : String} {obj : Object β}
      (h : releasable finalizer (unattached request.cloudUid attachedTo) obj) :
      theClouds request.cloudUid obj := by
    simp only [releasable, unattached, and_eq_true] at h
    exact h.1.1
  refine .bind (.bind (takeFinalizer_safe (stable _) ?_))
  exact {
    sound := hs
    fault := fun _ _ _ => .ret (stable _) (serves_error _)
    moved := fun s' hl => .ret (stable _) (hkept s' own hl)
    permitted := fun _ _ _ hc _ _ => legal_take hc
    lost := fun _ _ _ _ _ _ _ => .ret (stable _) (serves_error _)
    declined := fun s' obj hl hc _ _ _ => .ret (stable _) (hkept _ _ (hlater hl hc))
    took := fun s' obj hl hc _ _ _ => by
      have hsound := (hlater hl hc).sound hs
      refine finishDeleteLoop_safe (stable _) _
        (hsound.knew (Store.cell_commit_self ..)) rfl ?_
      exact {
        sound := hsound
        fault := fun _ _ _ => serves_error _
        left := fun s'' hl' => hkept s'' _ ((hlater hl hc).trans hl')
        permitted := fun _ _ _ hc' _ hours _ => legal_of_cloud hc' (hcloud hours) none
        lost := fun _ _ _ _ _ _ _ _ => serves_error _
        removed := fun s'' obj' hl' hc' _ hours _ => serves_ok hle
          (((hlater hl hc).trans hl').trans
            (.next (.commit _ _ _ (legal_of_cloud hc' (hcloud hours) none))))
          (withdrawn_of_none (by simp)) } }

theorem handle_meets {act} (hle : began ≤ s.commits.length)
    (hact : ∀ s' obj, Later (Legal T) s s' → s'.store.cell request.name = some obj →
      Serves T request began own s' (act obj)) :
    Serves T request began own s (handle T request.name request.cloudUid act) := by
  refine .bind (get_safe (stable _) (fun _ _ _ => serves_error _)
    (fun s' hl hc => ?_) fun s' obj hl hc => ?_)
  · exact serves_ok hle hl (withdrawn_of_none hc)
  · dsimp only
    split
    · exact hact s' obj hl hc
    · rename_i hother
      exact serves_ok hle hl (withdrawn_of_other hc (eq_false_iff.mpr hother))

theorem noted_meets (hs : s.store.Sound) (hle : began ≤ s.commits.length) :
    Serves T request began own s
      ((markForTeardown T request.name checked request.cloudUid now).map noted) := by
  refine .map (meets_stable T request began)
    ((markForTeardown_meets hs hle).mono fun s' own' result _ h => ?_)
  cases result with
  | ok => exact h
  | error => trivial

theorem call_safe (hs : s.store.Sound)
    (hchecked : ∀ obj, request.checked = some obj → s.store.Knew request.name obj) :
    Serves T request s.commits.length [] s (request.call T attachedTo) := by
  cases request with
  | markForTeardown => exact noted_meets hs le_rfl
  | deleteCloudRecord name uid obj => exact deleteCloudRecord_meets hs le_rfl (hchecked obj rfl)
  | releaseRecord => exact releaseRecord_meets hs le_rfl
  | destroy =>
    refine handle_meets le_rfl fun s' obj hl hc => ?_
    split
    · rename_i hmarked
      exact serves_ok le_rfl hl (withdrawn_of_marked hc hmarked)
    · exact noted_meets (hl.sound hs) (began_le le_rfl hl)
  | delete =>
    exact handle_meets le_rfl fun s' obj hl hc => deleteCloudRecord_meets (hl.sound hs)
      (began_le le_rfl hl) ((hl.sound hs).knew hc)
  | releaseVolume =>
    refine handle_meets le_rfl fun s' obj hl hc => ?_
    split
    · exact serves_error _
    · exact releaseRecord_meets (hl.sound hs) (began_le le_rfl hl)

end Safety

theorem verified (T) (attachedTo : β → Option String) [DecidableEq β] :
    (system T attachedTo).Verified (Legal T) System.unguarded Remembers Meets where
  keeps hs hnext := (Later.next hnext).remembers hs
  writes _ _ := by rintro _ ⟨⟩
  begins {s request call} hs h := by
    simp only [system] at h
    split at h <;> cases h
    rename_i hall
    refine call_safe hs.sound fun obj hobj => ?_
    rw [hobj, Option.all_some, decide_eq_true_eq] at hall
    obtain ⟨store, hstore, hcell⟩ := hall
    exact hs.knew hstore hcell

/-- In every interleaving: a command that succeeded for a name and a cloud uid saw a moment
at which the name held no unmarked object of that uid; and whatever a command deletes or
writes carries that uid, but for an object it writes back as it found it. -/
theorem withdrawal_definite_and_precise (T : Resource β) (attachedTo : β → Option String)
    [DecidableEq β] {store : Store String (Object β)} (hstore : store.Sound)
    {moves : List (Move (SiteEvent (Request β) String (Object β)) (Heard Fault))}
    {w : World (WithdrawalSite β)
      (Pending (Request β) String (Object β) Fault (Except Failure Unit))}
    (hrun : (system T attachedTo).program.run ⟨of store, []⟩ moves = some w) :
    (∀ a ∈ w.shared.answers, a.answer = .ok () →
      w.shared.During a.began a.ended (Withdrawn a.request)) ∧
    ∀ c ∈ w.shared.commits, ∀ request, c.who = some request →
      c.key = request.name ∧ ∃ obj, c.found = some obj ∧
        (c.new = some (T.encode obj.val) ∨ obj.val.cloudUid = some request.cloudUid) := by
  have hkept := (verified T attachedTo).run_unguarded (.of hstore) hrun
  refine ⟨fun a ha hok => ?_, fun c hc request hwho => ?_⟩
  · obtain ⟨r, hl, hended, -, hmeets⟩ := hkept.answers a ha
    rw [hok] at hmeets
    exact hended ▸ hl.during hmeets
  · obtain ⟨hkey, obj, hobj, hfound⟩ := hkept.commits c hc request hwho
    exact ⟨hkey, obj, by rw [Commit.found, hkey]; exact hobj, hfound⟩

def disk (uid cloudUid : String) : Object (Option String) :=
  ⟨⟨uid, none, [volumeReleaseFinalizer], some cloudUid⟩, none⟩

def disks : Resource (Option String) := ⟨"volumes", fun _ body => body⟩

def oneDisk : Store String (Object (Option String)) :=
  ⟨2, Table.put (∅ : Table String (Object (Option String))) "a" 1 (disk "u1" "c1")⟩

theorem oneDisk_sound : oneDisk.Sound where
  pos := by decide
  stored {key v} h := by
    rcases Table.cell_put_cases h with ⟨-, rfl⟩ | ⟨-, h⟩
    · decide
    · cases h

def destroyRun : List (Move (SiteEvent (Request (Option String)) String (Object (Option String)))
    (Heard Fault)) :=
  [.env (.ask (.destroy "a" "c1" 7)), .task 0 .answer, .task 0 .answer, .env (.write "a" none),
    .env (.write "a" (some (disk "u2" "c2"))), .task 0 .answer, .task 0 .answer,
    .task 0 .answer, .task 0 .answer]

theorem withdrawal_of_recreated :
    ∃ w, (system disks id).program.run ⟨of oneDisk, []⟩ destroyRun = some w ∧
      w.shared.answers.map (·.answer) = [.ok ()] ∧
      ∀ a ∈ w.shared.answers, a.answer = .ok () →
        w.shared.During a.began a.ended (Withdrawn a.request) := by
  refine ⟨_, rfl, rfl, ?_⟩
  exact (withdrawal_definite_and_precise disks id oneDisk_sound
    (rfl : (system disks id).program.run _ destroyRun = some _)).1

end MeisterStack.ClusterController.CloudWithdrawal
