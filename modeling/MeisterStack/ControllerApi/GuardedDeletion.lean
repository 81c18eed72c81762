import MeisterStack.ControllerApi.Deletion
import MeisterStack.ControllerApi.StoreCalls

/-!
# Guarded deletion under interference

The deletes of `deletion.rs`, operation by operation, against each other and other writers of the
same names. What each removes is the object it judged, at a revision its verdict held for, and the
boolean it returns says whether its own delete removed it.
-/

namespace MeisterStack.ControllerApi.Resource

open Foundation

variable {β : Type} (T : Resource β)

def finishDeleteLoop (name uid : String) (concluded : Object β → Bool) :
    Nat → Versioned (Object β) → StoreCall β Bool
  | 0, _ => .ret (.ok false)
  | left + 1, current =>
    if concluded current.val then
      (T.deleteIf name current.rev).bind fun
        | .ok () => .ret (.ok true)
        | .error (.conflict _) =>
          (T.get name).bind fun
            | .ok fresh =>
              if fresh.val.uid = uid then finishDeleteLoop name uid concluded left fresh
              else .ret (.ok false)
            | .error (.notFound _) => .ret (.ok false)
            | .error why => .ret (.error why)
        | .error why => .ret (.error why)
    else .ret (.ok false)

variable (name : String) (checked : Versioned (Object β))

def finishDelete
    (concluded : Object β → Bool) : StoreCall β Bool :=
  T.finishDeleteLoop name checked.val.uid concluded finishDeleteAttempts checked

variable (created : Versioned (Object β))

def isGone : StoreCall β Bool :=
  (T.get name).bind fun
    | .ok current => .ret (.ok (current.val.uid ≠ created.val.uid))
    | .error (.notFound _) => .ret (.ok true)
    | .error why => .ret (.error why)

def keptChanging : StoreError :=
  .conflict s!"{T.subject name} kept changing while it was taken back and is still there"

def takeBackCreated : StoreCall β Unit :=
  (T.finishDelete name created fun _ => true).bind fun
    | .error why => .ret (.error why)
    | .ok true => .ret (.ok ())
    | .ok false =>
      (T.isGone name created).bind fun
        | .error why => .ret (.error why)
        | .ok true => .ret (.ok ())
        | .ok false => .ret (.error (T.keptChanging name))

inductive TakenBack where
  | gone
  | marked

def mark (now : Instant) (obj : Object β) : Object β :=
  { obj with metadata := { obj.metadata with
      deletionTimestamp := some (obj.metadata.deletionTimestamp.getD now) } }

def takeBackOrMark
    (deletable : Object β → Bool) (now : Instant) : StoreCall β TakenBack :=
  (T.finishDelete name created deletable).bind fun
    | .error why => .ret (.error why)
    | .ok true => .ret (.ok .gone)
    | .ok false =>
      (T.mutateIf name created.val.uid fun obj => (mark now obj, ())).bind fun
        | .ok _ => .ret (.ok .marked)
        | .error why =>
          (T.isGone name created).bind fun
            | .error why' => .ret (.error why')
            | .ok true => .ret (.ok .gone)
            | .ok false => .ret (.error why)

variable (finalizer : String)

def withoutFinalizer (obj : Object β) : Object β :=
  { obj with metadata := { obj.metadata with
      finalizers := obj.metadata.finalizers.filter (· ≠ finalizer) } }

def takeFinalizer
    (still : Object β → Bool) : StoreCall β (Option (Versioned (Object β))) :=
  (T.mutateIf name checked.val.uid fun obj =>
      (if still obj then withoutFinalizer finalizer obj else obj, still obj)).bind fun
    | .ok (written, true) => .ret (.ok (some written))
    | .ok (_, false) => .ret (.ok none)
    | .error (.conflict _) | .error (.notFound _) => .ret (.ok none)
    | .error why => .ret (.error why)

def releasable (still : Object β → Bool) (obj : Object β) : Bool :=
  still obj && !obj.metadata.finalizers.contains finalizer

def finishRelease (written : Versioned (Object β)) (finalizer : String)
    (still : Object β → Bool) : StoreCall β Bool :=
  T.finishDelete name written (releasable finalizer still)

def releaseAndDelete
    (still : Object β → Bool) : StoreCall β Bool :=
  (T.takeFinalizer name checked finalizer still).bind fun
    | .error why => .ret (.error why)
    | .ok none => .ret (.ok false)
    | .ok (some written) => T.finishRelease name written finalizer still

section Rules

variable {T} {ω A : Type} {name uid : String} {who : ω}
  {legal : WriteRule ω String (Object β)}
  {guard : AttemptRule ω String (Object β)}
  {s s' : Site ω String (Object β) A} {own : List (Commit ω String (Object β))}

structure FinishRule (name : String) (who : ω) (uid : String) (concluded : Object β → Bool)
    (legal : WriteRule ω String (Object β))
    (guard : AttemptRule ω String (Object β))
    (post : Post ω String (Object β) A (Except StoreError Bool))
    (own : List (Commit ω String (Object β))) (s : Site ω String (Object β) A) : Prop where
  sound : s.store.Sound
  fault : ∀ s' why, Later legal s s' → post s' own (.error (.fault why))
  left : ∀ s', Later legal s s' → post s' own (.ok false)
  permitted : ∀ s' obj, Later legal s s' → s'.store.cell name = some obj →
    obj.val.uid = uid → concluded obj.val →
    guard s'.store who name obj.rev none → legal s'.store (some who) name none
  lost : ∀ s' obj why, Later legal s s' → s'.store.cell name = some obj →
    obj.val.uid = uid → concluded obj.val → guard s'.store who name obj.rev none →
    post.Landed who own s' name none (.error (.fault why))
  removed : ∀ s' obj, Later legal s s' → s'.store.cell name = some obj →
    obj.val.uid = uid → concluded obj.val → guard s'.store who name obj.rev none →
    post.Landed who own s' name none (.ok true)

variable {concluded : Object β → Bool}
  {post : Post ω String (Object β) A (Except StoreError Bool)}

theorem FinishRule.later (h : FinishRule name who uid concluded legal guard post own s)
    (hl : Later legal s s') : FinishRule name who uid concluded legal guard post own s' where
  sound := hl.sound h.sound
  fault s'' why hl' := h.fault s'' why (hl.trans hl')
  left s'' hl' := h.left s'' (hl.trans hl')
  permitted s'' obj hl' := h.permitted s'' obj (hl.trans hl')
  lost s'' obj why hl' := h.lost s'' obj why (hl.trans hl')
  removed s'' obj hl' := h.removed s'' obj (hl.trans hl')

theorem finishDeleteLoop_safe (hstable : Stable legal post) (left) {current}
    (hknew : s.store.Knew name current) (huid : current.val.uid = uid)
    (h : FinishRule name who uid concluded legal guard post own s) :
    (T.finishDeleteLoop name uid concluded left current).Safe legal guard who post own s := by
  induction left generalizing s current with
  | zero => exact .ret hstable (h.left s (.refl s))
  | succ left ih =>
    unfold finishDeleteLoop
    split
    · rename_i hconcluded
      refine .bind fun s' hl hguard => ?_
      refine ⟨fun why => ?_, fun _ => ?_, fun hrev => ?_⟩
      · exact .ret (Call.Safe.stable _) (.ret hstable (h.fault s' why hl))
      · refine .ret (Call.Safe.stable _) (.bind (get_safe (Call.Safe.stable _)
          (fun s'' why hl' => ?_) (fun s'' hl' _ => ?_) fun s'' fresh hl' hc => ?_))
        · exact .ret hstable (h.fault s'' why (hl.trans hl'))
        · exact .ret hstable (h.left s'' (hl.trans hl'))
        · dsimp only
          split
          · rename_i hfresh
            have hlater := hl.trans hl'
            exact ih ((hlater.sound h.sound).knew hc) hfresh (h.later hlater)
          · exact .ret hstable (h.left s'' (hl.trans hl'))
      · have hc := (hl.knew hknew).stands hrev
        refine ⟨h.permitted s' current hl hc huid hconcluded hguard, fun why => ?_, ?_⟩
        · exact .ret (Call.Safe.stable _)
            (.ret hstable (h.lost s' current why hl hc huid hconcluded hguard))
        · exact .ret (Call.Safe.stable _)
            (.ret hstable (h.removed s' current hl hc huid hconcluded hguard))
    · exact .ret hstable (h.left s (.refl s))

def takeEdit (still : Object β → Bool) (obj : Object β) : Object β :=
  if still obj then withoutFinalizer finalizer obj else obj

structure TakeRule (T : Resource β) (name : String) (who : ω) (uid finalizer : String)
    (still : Object β → Bool)
    (legal : WriteRule ω String (Object β))
    (guard : AttemptRule ω String (Object β))
    (post : Post ω String (Object β) A (Except StoreError (Option (Versioned (Object β)))))
    (own : List (Commit ω String (Object β))) (s : Site ω String (Object β) A) : Prop where
  sound : s.store.Sound
  fault : ∀ s' why, Later legal s s' → post s' own (.error (.fault why))
  moved : ∀ s', Later legal s s' → post s' own (.ok none)
  permitted : ∀ s' obj, Later legal s s' → s'.store.cell name = some obj →
    obj.val.uid = uid →
    guard s'.store who name obj.rev (some (T.encode (takeEdit finalizer still obj.val))) →
    legal s'.store (some who) name (some (T.encode (takeEdit finalizer still obj.val)))
  lost : ∀ s' obj why, Later legal s s' → s'.store.cell name = some obj →
    obj.val.uid = uid →
    guard s'.store who name obj.rev (some (T.encode (takeEdit finalizer still obj.val))) →
    post.Landed who own s' name (some (T.encode (takeEdit finalizer still obj.val)))
      (.error (.fault why))
  declined : ∀ s' obj, Later legal s s' → s'.store.cell name = some obj →
    obj.val.uid = uid → still obj.val = false →
    guard s'.store who name obj.rev (some (T.encode (takeEdit finalizer still obj.val))) →
    post.Landed who own s' name (some (T.encode (takeEdit finalizer still obj.val)))
      (.ok none)
  took : ∀ s' obj, Later legal s s' → s'.store.cell name = some obj →
    obj.val.uid = uid → still obj.val →
    guard s'.store who name obj.rev (some (T.encode (takeEdit finalizer still obj.val))) →
    post.Landed who own s' name (some (T.encode (takeEdit finalizer still obj.val)))
      (.ok (some ⟨s'.store.next, T.encode (takeEdit finalizer still obj.val)⟩))

theorem takeFinalizer_safe {finalizer still post} (hstable : Stable legal post) {checked}
    (h : TakeRule T name who checked.val.uid finalizer still legal guard post own s) :
    (T.takeFinalizer name checked finalizer still).Safe legal guard who post own s := by
  refine .bind (mutateLoop_safe (Call.Safe.stable _) _ ?_)
  exact {
    sound := h.sound
    fault := fun s' why hl => .ret hstable (h.fault s' why hl)
    missing := fun s' hl _ => .ret hstable (h.moved s' hl)
    other := fun s' obj hl _ _ => .ret hstable (h.moved s' hl)
    spent := fun s' hl => .ret hstable (h.moved s' hl)
    permitted := fun s' obj hl hc hours => h.permitted s' obj hl hc (by simpa using hours)
    lost := fun s' obj why hl hc hours hguard =>
      .ret hstable (h.lost s' obj why hl hc (by simpa using hours) hguard)
    written := fun s' obj hl hc hours hguard => by
      have huid : obj.val.uid = checked.val.uid := by simpa using hours
      cases hstill : still obj.val with
      | false =>
        have := h.declined s' obj hl hc huid hstill hguard
        simp only [takeEdit, hstill] at this ⊢
        exact .ret hstable this
      | true =>
        have := h.took s' obj hl hc huid hstill hguard
        simp only [takeEdit, hstill] at this ⊢
        exact .ret hstable this }

theorem isGone_safe (hstable : Stable legal post) {created}
    (hfault : ∀ s' why, Later legal s s' → post s' own (.error (.fault why)))
    (hhere : ∀ s' obj, Later legal s s' → s'.store.cell name = some obj →
      obj.val.uid = created.val.uid → post s' own (.ok false)) (hgone : ∀ s', Later legal s s' →
      (∀ obj, s'.store.cell name = some obj → obj.val.uid ≠ created.val.uid) →
      post s' own (.ok true)) : (T.isGone name created).Safe legal guard who post own s := by
  refine .bind (get_safe (Call.Safe.stable _) (fun s' why hl => ?_) (fun s' hl hc => ?_)
    fun s' obj hl hc => ?_)
  · exact .ret hstable (hfault s' why hl)
  · exact .ret hstable (hgone s' hl fun obj hobj => by rw [hc] at hobj; cases hobj)
  · refine .ret hstable ?_
    by_cases huid : obj.val.uid = created.val.uid
    · simpa [huid] using hhere s' obj hl hc huid
    · have := hgone s' hl fun obj' hobj => by
        rw [hc] at hobj
        cases hobj
        exact huid
      simpa [huid] using this

end Rules

end MeisterStack.ControllerApi.Resource

namespace MeisterStack.ControllerApi.GuardedDeletion

open Foundation
open ControllerApi.Resource

variable {β : Type}

inductive Request (β : Type) where
  | finishDelete (name : String) (checked : Versioned (Object β)) (concluded : Object β → Bool)
  | takeFinalizer (name : String) (checked : Versioned (Object β)) (finalizer : String)
      (still : Object β → Bool)
  | finishRelease (name : String) (written : Versioned (Object β)) (finalizer : String)
      (still : Object β → Bool)
  | releaseAndDelete (name : String) (checked : Versioned (Object β)) (finalizer : String)
      (still : Object β → Bool)
  | takeBackCreated (name : String) (created : Versioned (Object β))
  | takeBackOrMark (name : String) (created : Versioned (Object β))
      (deletable : Object β → Bool) (now : Instant)

namespace Request

def name : Request β → String
  | finishDelete name .. | takeFinalizer name .. | finishRelease name ..
  | releaseAndDelete name .. | takeBackCreated name .. | takeBackOrMark name .. => name

def judged : Request β → Versioned (Object β)
  | finishDelete _ obj _ | takeFinalizer _ obj _ _ | finishRelease _ obj _ _
  | releaseAndDelete _ obj _ _ | takeBackCreated _ obj | takeBackOrMark _ obj _ _ => obj

def verdict : Request β → Object β → Bool
  | finishDelete _ _ concluded => concluded
  | takeFinalizer .. => fun _ => false
  | finishRelease _ _ finalizer still => releasable finalizer still
  | releaseAndDelete _ _ finalizer still => releasable finalizer still
  | takeBackCreated .. => fun _ => true
  | takeBackOrMark _ _ deletable _ => deletable

end Request

inductive Outcome (β : Type) where
  | removed (result : Except StoreError Bool)
  | took (result : Except StoreError (Option (Versioned (Object β))))
  | takenBack (result : Except StoreError Unit)
  | backOrMarked (result : Except StoreError TakenBack)

abbrev DeletionSite (β : Type) := Site (Request β) String (Object β) (Outcome β)

variable (T : Resource β)

def Request.call : Request β → Call String (Object β) Fault (Outcome β)
  | .finishDelete name checked concluded => (T.finishDelete name checked concluded).map .removed
  | .takeFinalizer name checked finalizer still =>
    (T.takeFinalizer name checked finalizer still).map .took
  | .finishRelease name written finalizer still =>
    (T.finishRelease name written finalizer still).map .removed
  | .releaseAndDelete name checked finalizer still =>
    (T.releaseAndDelete name checked finalizer still).map .removed
  | .takeBackCreated name created => (T.takeBackCreated name created).map .takenBack
  | .takeBackOrMark name created deletable now =>
    (T.takeBackOrMark name created deletable now).map .backOrMarked

def system [DecidableEq β] :
    System (Request β) String (Object β) Fault (Outcome β) where
  writes _ _ _ := true
  begins s request :=
    if s.Had request.name request.judged then
      some (request.call T)
    else none

structure Permits (request : Request β) (store : Store String (Object β)) (key : String)
    (new : Option (Object β)) : Prop where
  key : key = request.name
  found : ∃ obj, store.cell request.name = some obj ∧
    obj.val.uid = request.judged.val.uid ∧ (new = none → request.verdict obj.val) ∧
    ∀ x, new = some x → x.uid = obj.val.uid

def Legal (store : Store String (Object β)) (who : Option (Request β)) (key : String)
    (new : Option (Object β)) : Prop :=
  ∀ request, who = some request → Permits request store key new

variable (request : Request β)

def Absent (store : Store String (Object β)) : Prop :=
  ∀ obj, store.cell request.name = some obj → obj.val.uid ≠ request.judged.val.uid

def Meets (began : Nat) (s : DeletionSite β)
    (own : List (Commit (Request β) String (Object β))) : Outcome β → Prop
  | .removed (.ok result) => result ↔ ∃ c ∈ own, c.new = none
  | .took (.ok (some written)) =>
    written.val.uid = request.judged.val.uid ∧
      s.Since began fun store => store.cell request.name = some written
  | .takenBack (.ok ()) => s.Since began (Absent request)
  | .backOrMarked (.ok .gone) => s.Since began (Absent request)
  | .backOrMarked (.ok .marked) =>
    s.Since began fun store => ∃ obj, store.cell request.name = some obj ∧
      obj.val.uid = request.judged.val.uid ∧ obj.val.metadata.deletionTimestamp.isSome
  | _ => True

theorem meets_stable (began : Nat) : Stable Legal (Meets request began) := by
  intro s s' own answer hl h
  unfold Meets at h ⊢
  split at h <;> first | exact h | exact hl.since h | exact ⟨h.1, hl.since h.2⟩

section Safety

variable {T : Resource β} {request : Request β} {s s' : DeletionSite β}
  {own : List (Commit (Request β) String (Object β))} {store : Store String (Object β)}
  {obj : Versioned (Object β)}

theorem legal_remove (hc : store.cell request.name = some obj)
    (huid : obj.val.uid = request.judged.val.uid) (hverdict : request.verdict obj.val) :
    Legal store (some request) request.name none := by
  rintro _ ⟨⟩
  exact ⟨rfl, obj, hc, huid, fun _ => hverdict, fun x hx => by cases hx⟩

variable (request) in
theorem legal_write {x} (hc : store.cell request.name = some obj)
    (huid : obj.val.uid = request.judged.val.uid) (hx : x.uid = obj.val.uid) :
    Legal store (some request) request.name (some x) := by
  rintro _ ⟨⟩
  refine ⟨rfl, obj, hc, huid, ?_, ?_⟩
  · rintro ⟨⟩
  · rintro _ ⟨⟩
    exact hx

variable {post : Post (Request β) String (Object β) (Outcome β) (Except StoreError Bool)}

theorem finishDelete_meets (hstable : Stable Legal post) (hs : s.store.Sound) {current}
    (hknew : s.store.Knew request.name current) (huid : current.val.uid = request.judged.val.uid)
    (hfault : ∀ s' own' why, Later Legal s s' → post s' own' (.error (.fault why)))
    (hleft : ∀ s', Later Legal s s' → post s' own (.ok false))
    (hremoved : ∀ s' c, Later Legal s s' → c.new = none →
      (∀ obj, s'.store.cell request.name ≠ some obj) → post s' (own ++ [c]) (.ok true)) :
    (T.finishDelete request.name current request.verdict).Safe Legal System.unguarded request
      post own s := by
  have hgone (s' : DeletionSite β) (obj : Versioned (Object β)) :
      (s'.commit (some request) request.name none).store.cell request.name ≠ some obj := by
    simp
  have hlater {s' : DeletionSite β} {obj : Versioned (Object β)} (hl : Later Legal s s')
      (hc : s'.store.cell request.name = some obj) (hobj : obj.val.uid = current.val.uid)
      (hverdict : request.verdict obj.val) :
      Later Legal s (s'.commit (some request) request.name none) :=
    hl.trans (.next (.commit _ _ _ (legal_remove hc (hobj.trans huid) hverdict)))
  have rule : FinishRule request.name request current.val.uid request.verdict Legal System.unguarded
      post own s := {
    sound := hs
    fault := fun s' why hl => hfault s' own why hl
    left := hleft
    permitted := fun s' obj _ hc hobj hverdict _ => legal_remove hc (hobj.trans huid) hverdict
    lost := fun s' obj why hl hc hobj hverdict _ => hfault _ _ why (hlater hl hc hobj hverdict)
    removed := fun s' obj hl hc hobj hverdict _ =>
      hremoved _ _ (hlater hl hc hobj hverdict) rfl (hgone s') }
  exact finishDeleteLoop_safe hstable _ hknew rfl rule

theorem takeFinalizer_meets {finalizer still post} (hstable : Stable Legal post)
    (hs : s.store.Sound)
    (hfault : ∀ s' own' why, Later Legal s s' → post s' own' (.error (.fault why)))
    (hmoved : ∀ s' own', Later Legal s s' → (∀ c ∈ own', c ∈ own ∨ c.new ≠ none) →
      post s' own' (.ok none)) (htook : ∀ s' c written, Later Legal s s' → c.new ≠ none →
      s'.store.cell request.name = some written →
      written.val.uid = request.judged.val.uid → post s' (own ++ [c]) (.ok (some written))) :
    (T.takeFinalizer request.name request.judged finalizer still).Safe Legal System.unguarded
      request post own s := by
  have huid (obj : Object β) : (T.encode (takeEdit finalizer still obj)).uid = obj.uid := by
    unfold takeEdit
    split <;> rfl
  have hlater {s' : DeletionSite β} {obj : Versioned (Object β)} (hl : Later Legal s s')
      (hc : s'.store.cell request.name = some obj) (hobj : obj.val.uid = request.judged.val.uid) :
      Later Legal s (s'.commit (some request) request.name
        (some (T.encode (takeEdit finalizer still obj.val)))) :=
    hl.trans (.next (.commit _ _ _ (legal_write request hc hobj (huid obj.val))))
  have rule : TakeRule T request.name request request.judged.val.uid finalizer still Legal
      System.unguarded post own s := {
    sound := hs
    fault := fun s' why hl => hfault s' own why hl
    moved := fun s' hl => hmoved s' own hl fun c hc => .inl hc
    permitted := fun s' obj _ hc hobj _ => legal_write request hc hobj (huid obj.val)
    lost := fun s' obj why hl hc hobj _ => hfault _ _ why (hlater hl hc hobj)
    declined := fun s' obj hl hc hobj _ _ => hmoved _ _ (hlater hl hc hobj) fun c hmem => by
      rcases List.mem_append.mp hmem with h | h
      · exact .inl h
      · rw [List.mem_singleton.mp h]
        exact .inr (by simp)
    took := fun s' obj hl hc hobj _ _ => htook _ _ _ (hlater hl hc hobj) (by simp) (by simp)
      ((huid obj.val).trans hobj) }
  exact takeFinalizer_safe hstable rule

variable (request) in
theorem isGone_meets (hstable : Stable Legal post)
    (hfault : ∀ s' why, Later Legal s s' → post s' own (.error (.fault why)))
    (hhere : ∀ s', Later Legal s s' → post s' own (.ok false))
    (hgone : ∀ s', Later Legal s s' → Absent request s'.store → post s' own (.ok true)) :
    (T.isGone request.name request.judged).Safe Legal System.unguarded request post own s :=
  isGone_safe hstable hfault (fun s' _ hl _ _ => hhere s' hl) hgone

theorem began_le (hl : Later Legal s s') : s.commits.length ≤ s'.commits.length :=
  hl.commits.length_le

theorem absent_of_none (h : ∀ obj, store.cell request.name ≠ some obj) : Absent request store :=
  fun obj hobj => absurd hobj (h obj)

theorem not_removed : (false) ↔
    ∃ c ∈ ([] : List (Commit (Request β) String (Object β))), c.new = none := by
  simp

section TakeBackOrMark

variable {name : String} {created : Versioned (Object β)} {deletable : Object β → Bool}
  {now : Instant} {began : Nat}

theorem backOrMarked_stable : Stable Legal fun (s : DeletionSite β) own result =>
    Meets (.takeBackOrMark name created deletable now) began s own (.backOrMarked result) :=
  (meets_stable (.takeBackOrMark name created deletable now) began).comp .backOrMarked

theorem lookedAtAgain_safe (why) (hle : began ≤ s.commits.length) :
    ((T.isGone name created).bind fun
      | .error why' => .ret (.error why')
      | .ok true => .ret (.ok .gone)
      | .ok false => .ret (.error why)).Safe Legal System.unguarded
      (.takeBackOrMark name created deletable now)
      (fun s own result =>
        Meets (.takeBackOrMark name created deletable now) began s own (.backOrMarked result))
      own s := by
  refine .bind (isGone_meets (.takeBackOrMark name created deletable now) (Call.Safe.stable _)
    (fun _ _ _ => .ret backOrMarked_stable trivial)
    (fun _ _ => .ret backOrMarked_stable trivial) fun s' hl habsent => ?_)
  exact .ret backOrMarked_stable (Site.since_now (hle.trans (began_le hl)) habsent)

theorem takeBackOrMark_safe (hs : s.store.Sound) (hknew : s.store.Knew name created) :
    (T.takeBackOrMark name created deletable now).Safe Legal System.unguarded
      (.takeBackOrMark name created deletable now)
      (fun s' own result => Meets (.takeBackOrMark name created deletable now) s.commits.length
        s' own (.backOrMarked result)) [] s := by
  refine .bind (finishDelete_meets (Call.Safe.stable _) hs hknew rfl
    (fun _ _ _ _ => .ret backOrMarked_stable trivial) (fun s' hl => ?_) fun s' c hl _ hgone => ?_)
  · have hmark {s'' : DeletionSite β} {obj : Versioned (Object β)}
        (hc : s''.store.cell name = some obj) (hours : decide (obj.val.uid = created.val.uid)) :
        Legal s''.store (some (.takeBackOrMark name created deletable now)) name
          (some (T.encode (mark now obj.val))) :=
      legal_write (.takeBackOrMark name created deletable now) hc (of_decide_eq_true hours) rfl
    refine .bind (mutateLoop_safe (Call.Safe.stable _) _
      { sound := hl.sound hs
        fault := fun s'' why hl' => lookedAtAgain_safe _ (began_le (hl.trans hl'))
        missing := fun s'' hl' _ => lookedAtAgain_safe _ (began_le (hl.trans hl'))
        other := fun s'' _ hl' _ _ => lookedAtAgain_safe _ (began_le (hl.trans hl'))
        spent := fun s'' hl' => lookedAtAgain_safe _ (began_le (hl.trans hl'))
        permitted := fun _ _ _ hc hours _ => hmark hc hours
        lost := fun s'' obj why hl' hc hours _ => lookedAtAgain_safe _
          (began_le ((hl.trans hl').trans (.next (.commit _ _ _ (hmark hc hours)))))
        written := fun s'' obj hl' hc hours _ => .ret backOrMarked_stable (Site.since_now
          (began_le ((hl.trans hl').trans (.next (.commit _ _ _ (hmark hc hours)))))
          ⟨_, Store.cell_commit_self .., of_decide_eq_true hours, rfl⟩) })
  · exact .ret backOrMarked_stable (Site.since_now (began_le hl) (absent_of_none hgone))

end TakeBackOrMark

theorem call_safe (hs : s.store.Sound) (hknew : s.store.Knew request.name request.judged) :
    (request.call T).Safe Legal System.unguarded request (Meets request s.commits.length) [] s := by
  have hstable := meets_stable request s.commits.length
  have hremoved := hstable.comp .removed
  cases request with
  | finishDelete | finishRelease =>
    refine .map hstable (finishDelete_meets hremoved hs hknew rfl (fun _ _ _ _ => trivial)
      (fun _ _ => not_removed) fun s' c _ hc _ => ?_)
    simp [Meets, hc]
  | takeFinalizer =>
    refine .map hstable (takeFinalizer_meets (hstable.comp .took) hs
      (fun _ _ _ _ => trivial) (fun _ _ _ _ => trivial) fun s' c written hl _ hc huid => ?_)
    exact ⟨huid, Site.since_now (began_le hl) hc⟩
  | releaseAndDelete =>
    refine .map hstable (.bind (takeFinalizer_meets (Call.Safe.stable _) hs
      (fun _ _ _ _ => .ret hremoved trivial) (fun s' own' _ hown => .ret hremoved ?_)
      fun s' c written hl hc hcell huid => ?_))
    · simp only [Meets, Bool.false_eq_true, false_iff]
      rintro ⟨c, hc, hnone⟩
      exact (hown c hc).elim (by simp) (· hnone)
    · refine finishDelete_meets hremoved (hl.sound hs) ((hl.sound hs).knew hcell) huid
        (fun _ _ _ _ => trivial) (fun _ _ => ?_) fun s'' c' _ hc' _ => ?_
      · simpa [Meets] using hc
      · simp [Meets, hc']
  | takeBackCreated name created =>
    have hback := hstable.comp .takenBack
    refine .map hstable (.bind (finishDelete_meets (Call.Safe.stable _) hs hknew rfl
      (fun _ _ _ _ => .ret hback trivial) (fun s' hl => ?_) fun s' c hl _ hgone => ?_))
    · refine .bind (isGone_meets (.takeBackCreated name created) (Call.Safe.stable _)
        (fun _ _ _ => .ret hback trivial) (fun _ _ => .ret hback trivial)
        fun s'' hl' habsent => .ret hback ?_)
      exact Site.since_now (began_le (hl.trans hl')) habsent
    · exact .ret hback (Site.since_now (began_le hl) (absent_of_none hgone))
  | takeBackOrMark =>
    exact .map hstable (takeBackOrMark_safe hs hknew)

end Safety

theorem verified [DecidableEq β] :
    (system T).Verified Legal System.unguarded Site.Remembers Meets where
  keeps hs hnext := (Later.next hnext).remembers hs
  writes _ _ := by rintro _ ⟨⟩
  begins {s request call} hs h := by
    simp only [system] at h
    split at h <;> cases h
    rename_i hmem
    obtain ⟨store, hstore, hcell⟩ := hmem
    exact call_safe hs.sound (hs.knew hstore hcell)

/-- In every interleaving: what a call removed is the object that was judged, at a revision
the verdict held for; the boolean is true exactly when the call's own delete removed it; the
revision a finalizer was taken off is one of the judged object; and a create taken back was
not under its name at some moment of the call. -/
theorem guarded_deletion (T : Resource β) [DecidableEq β] {store : Store String (Object β)}
    (hstore : store.Sound)
    {moves : List (Move (SiteEvent (Request β) String (Object β)) (Heard Fault))}
    {w : World (DeletionSite β) (Pending (Request β) String (Object β) Fault (Outcome β))}
    (hrun : (system T).program.run ⟨Site.of store, []⟩ moves = some w) :
    (∀ c ∈ w.shared.commits, ∀ request, c.who = some request → c.new = none →
      c.key = request.name ∧ ∃ obj, c.found = some obj ∧
        obj.val.uid = request.judged.val.uid ∧ request.verdict obj.val) ∧
    ∀ a ∈ w.shared.answers,
      (∀ c ∈ a.own, c ∈ w.shared.commits ∧ c.who = some a.request) ∧
      (∀ result, a.answer = .removed (.ok result) →
        (result ↔ ∃ c ∈ a.own, c.new = none)) ∧
      (∀ written, a.answer = .took (.ok (some written)) →
        written.val.uid = a.request.judged.val.uid) ∧
      (a.answer = .takenBack (.ok ()) ∨ a.answer = .backOrMarked (.ok .gone) →
        w.shared.During a.began a.ended (Absent a.request)) := by
  have hkept := (verified T).run_unguarded (.of hstore) hrun
  refine ⟨fun c hc request hwho hnone => ?_, fun a ha => ⟨hkept.owned a ha, ?_⟩⟩
  · obtain ⟨hkey, obj, hobj, huid, hverdict, -⟩ := hkept.commits c hc request hwho
    exact ⟨hkey, obj, by rw [Commit.found, hkey]; exact hobj, huid, hverdict hnone⟩
  obtain ⟨r, hl, hended, -, hmeets⟩ := hkept.answers a ha
  refine ⟨fun result h => ?_, fun written h => ?_, ?_⟩
  · rw [h] at hmeets
    exact hmeets
  · rw [h] at hmeets
    exact hmeets.1
  · rintro (h | h)
    all_goals
      rw [h] at hmeets
      exact hended ▸ hl.during hmeets

def thing (finalizers : List String) : Object Unit := ⟨⟨"u1", none, finalizers, none⟩, ()⟩

def things : Resource Unit := ⟨"things", fun _ body => body⟩

def oneThing : Store String (Object Unit) :=
  ⟨2, Table.put (∅ : Table String (Object Unit)) "a" 1 (thing ["f"])⟩

theorem oneThing_sound : oneThing.Sound where
  pos := by decide
  stored {key v} h := by
    rcases Table.cell_put_cases h with ⟨-, rfl⟩ | ⟨-, h⟩
    · decide
    · cases h

def releaseRun : List (Move (SiteEvent (Request Unit) String (Object Unit)) (Heard Fault)) :=
  [.env (.ask (.releaseAndDelete "a" ⟨1, thing ["f"]⟩ "f" fun _ => true)), .task 0 .answer,
    .env (.write "a" (some (thing ["f", "g"]))), .task 0 .answer, .task 0 .answer,
    .task 0 .answer, .task 0 .answer, .task 0 .answer]

theorem guarded_deletion_race :
    ∃ w, (system things).program.run ⟨Site.of oneThing, []⟩ releaseRun = some w ∧
      w.shared.answers.map (·.answer) = [.removed (.ok true)] ∧
      ∀ a ∈ w.shared.answers, ∀ result, a.answer = .removed (.ok result) →
        (result ↔ ∃ c ∈ a.own, c.new = none) := by
  refine ⟨_, rfl, rfl, fun a ha => ?_⟩
  exact ((guarded_deletion things oneThing_sound
    (rfl : (system things).program.run _ releaseRun = some _)).2 a ha).2.1

end MeisterStack.ControllerApi.GuardedDeletion
