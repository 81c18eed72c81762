import MeisterStack.ControllerApi.Phase
import MeisterStack.Foundation.Call

/-!
# The operations of the store, one round trip each

`get`, `update`, `delete_if`, and the read-modify-write loops `mutate` and `mutate_if` over an
arbitrary resource: its metadata, and a body that only the resource and its `settle` look into.
Every write settles the object before it is encoded.
-/

namespace MeisterStack.ControllerApi

open Foundation Call.Safe

inductive Fault where
  | backend (message : String)
  | timeout (what : String)
  | undecodable (message : String)

inductive StoreError where
  | notFound (subject : String)
  | alreadyExists (subject : String)
  | terminating (subject : String)
  | conflict (message : String)
  | invalid (message : String)
  | fault (why : Fault)

structure Metadata where
  uid : String
  deletionTimestamp : Option Instant
  finalizers : List String
  /-- The label that names the cloud object this one stands for. -/
  cloudUid : Option String
  deriving DecidableEq

structure Object (β : Type) where
  metadata : Metadata
  body : β
  deriving DecidableEq

def Object.uid {β : Type} (obj : Object β) : String := obj.metadata.uid

def Object.cloudUid {β : Type} (obj : Object β) : Option String := obj.metadata.cloudUid

structure Resource (β : Type) where
  resource : String
  settle : Metadata → β → β

namespace Resource

variable {β γ : Type} (T : Resource β)

def encode (obj : Object β) : Object β := { obj with body := T.settle obj.metadata obj.body }

abbrev StoreCall (β ρ : Type) := Call String (Object β) Fault (Except StoreError ρ)

def subject (name : String) : String := s!"{T.resource}/{name}"

def concurrentWrite (name : String) : StoreError :=
  .conflict s!"resource version conflict on {T.subject name} (concurrent write)"

def recreated (name : String) : StoreError :=
  .conflict s!"resource version conflict on {T.subject name} (recreated under the same name)"

def retriesExhausted (name : String) : StoreError :=
  .conflict s!"resource version conflict on {T.subject name} (retries exhausted)"

def get (name : String) : StoreCall β (Versioned (Object β)) :=
  .read name fun
    | .error why => .ret (.error (.fault why))
    | .ok none => .ret (.error (.notFound (T.subject name)))
    | .ok (some obj) => .ret (.ok obj)

def update (name : String) (rev : Nat) (obj : Object β) : StoreCall β (Versioned (Object β)) :=
  .txn name rev (some (T.encode obj)) fun
    | .error why => .ret (.error (.fault why))
    | .ok (.refused _) => .ret (.error (T.concurrentWrite name))
    | .ok (.landed written) => .ret (.ok ⟨written, T.encode obj⟩)

def create (name : String) (obj : Object β) : StoreCall β (Versioned (Object β)) :=
  .txn name 0 (some (T.encode obj)) fun
    | .error why => .ret (.error (.fault why))
    | .ok (.refused found) =>
      .ret (.error (if found.any (·.val.metadata.deletionTimestamp.isSome)
        then .terminating (T.subject name) else .alreadyExists (T.subject name)))
    | .ok (.landed written) => .ret (.ok ⟨written, T.encode obj⟩)

def deleteIf (name : String) (rev : Nat) : StoreCall β Unit :=
  .txn name rev none fun
    | .error why => .ret (.error (.fault why))
    | .ok (.refused _) => .ret (.error (T.concurrentWrite name))
    | .ok (.landed _) => .ret (.ok ())

def mutateAttempts : Nat := 8

def mutateLoop (name : String) (ours : Object β → Bool) (edit : Object β → Object β × γ) :
    Nat → StoreCall β (Versioned (Object β) × γ)
  | 0 => .ret (.error (T.retriesExhausted name))
  | left + 1 =>
    (T.get name).bind fun
      | .error why => .ret (.error why)
      | .ok obj =>
        if ours obj.val then
          (T.update name obj.rev (edit obj.val).1).bind fun
            | .ok written => .ret (.ok (written, (edit obj.val).2))
            | .error (.conflict _) => mutateLoop name ours edit left
            | .error why => .ret (.error why)
        else .ret (.error (T.recreated name))

def mutate (name : String) (edit : Object β → Object β × γ) :
    StoreCall β (Versioned (Object β) × γ) :=
  T.mutateLoop name (fun _ => true) edit mutateAttempts

def mutateIf (name uid : String) (edit : Object β → Object β × γ) :
    StoreCall β (Versioned (Object β) × γ) :=
  T.mutateLoop name (fun obj => obj.uid = uid) edit mutateAttempts

section Rules

variable {T} {ω A ρ : Type} {name : String} {who : ω}
  {legal : WriteRule ω String (Object β)}
  {guard : AttemptRule ω String (Object β)}
  {s s' : Site ω String (Object β) A} {own : List (Commit ω String (Object β))}

theorem get_safe {post} (hstable : Stable legal post)
    (hfault : ∀ s' why, Later legal s s' → post s' own (.error (.fault why)))
    (hnone : ∀ s', Later legal s s' → s'.store.cell name = none →
      post s' own (.error (.notFound (T.subject name))))
    (hsome : ∀ s' obj, Later legal s s' → s'.store.cell name = some obj → post s' own (.ok obj)) :
    (T.get name).Safe legal guard who post own s := by
  intro s' hl
  refine ⟨fun why => .ret hstable (hfault s' why hl), ?_⟩
  cases hc : s'.store.cell name with
  | none => exact .ret hstable (hnone s' hl hc)
  | some obj => exact .ret hstable (hsome s' obj hl hc)

section Write

variable {post : Post ω String (Object β) A (Except StoreError (Versioned (Object β)))}
  {obj : Object β}

theorem update_safe {rev} (hstable : Stable legal post)
    (hpost : ∀ s' own answer, Later legal s s' → post s' own answer)
    (hlegal : ∀ s', Later legal s s' → guard s'.store who name rev (some (T.encode obj)) →
      (s'.store.cell name).revision = rev → legal s'.store (some who) name (some (T.encode obj))) :
    (T.update name rev obj).Safe legal guard who post own s := by
  refine .txn hlegal fun s' own heard hl => ?_
  rcases heard with _ | _ | _ <;> exact .ret hstable (hpost _ _ _ hl)

theorem create_safe (hstable : Stable legal post)
    (hpost : ∀ s' own answer, Later legal s s' → post s' own answer)
    (hlegal : ∀ s', Later legal s s' → guard s'.store who name 0 (some (T.encode obj)) →
      (s'.store.cell name).revision = 0 → legal s'.store (some who) name (some (T.encode obj))) :
    (T.create name obj).Safe legal guard who post own s := by
  refine .txn hlegal fun s' own heard hl => ?_
  rcases heard with _ | _ | _ <;> exact .ret hstable (hpost _ _ _ hl)

end Write

structure MutateRule (T : Resource β) (name : String) (who : ω) (ours : Object β → Bool)
    (edit : Object β → Object β × γ)
    (legal : WriteRule ω String (Object β))
    (guard : AttemptRule ω String (Object β))
    (post : Post ω String (Object β) A (Except StoreError (Versioned (Object β) × γ)))
    (own : List (Commit ω String (Object β))) (s : Site ω String (Object β) A) : Prop where
  sound : s.store.Sound
  fault : ∀ s' why, Later legal s s' → post s' own (.error (.fault why))
  missing : ∀ s', Later legal s s' → s'.store.cell name = none →
    post s' own (.error (.notFound (T.subject name)))
  other : ∀ s' obj, Later legal s s' → s'.store.cell name = some obj → ours obj.val = false →
    post s' own (.error (T.recreated name))
  spent : ∀ s', Later legal s s' → post s' own (.error (T.retriesExhausted name))
  permitted : ∀ s' obj, Later legal s s' → s'.store.cell name = some obj → ours obj.val →
    guard s'.store who name obj.rev (some (T.encode (edit obj.val).1)) →
    legal s'.store (some who) name (some (T.encode (edit obj.val).1))
  lost : ∀ s' obj why, Later legal s s' → s'.store.cell name = some obj → ours obj.val →
    guard s'.store who name obj.rev (some (T.encode (edit obj.val).1)) →
    post.Landed who own s' name (some (T.encode (edit obj.val).1)) (.error (.fault why))
  written : ∀ s' obj, Later legal s s' → s'.store.cell name = some obj → ours obj.val →
    guard s'.store who name obj.rev (some (T.encode (edit obj.val).1)) →
    post.Landed who own s' name (some (T.encode (edit obj.val).1))
      (.ok (⟨s'.store.next, T.encode (edit obj.val).1⟩, (edit obj.val).2))

variable {ours : Object β → Bool} {edit : Object β → Object β × γ}
  {post : Post ω String (Object β) A (Except StoreError (Versioned (Object β) × γ))}

theorem MutateRule.later (h : MutateRule T name who ours edit legal guard post own s)
    (hl : Later legal s s') : MutateRule T name who ours edit legal guard post own s' where
  sound := hl.sound h.sound
  fault s'' why hl' := h.fault s'' why (hl.trans hl')
  missing s'' hl' := h.missing s'' (hl.trans hl')
  other s'' obj hl' := h.other s'' obj (hl.trans hl')
  spent s'' hl' := h.spent s'' (hl.trans hl')
  permitted s'' obj hl' := h.permitted s'' obj (hl.trans hl')
  lost s'' obj why hl' := h.lost s'' obj why (hl.trans hl')
  written s'' obj hl' := h.written s'' obj (hl.trans hl')

theorem mutateLoop_safe (hstable : Stable legal post) (left : Nat)
    (h : MutateRule T name who ours edit legal guard post own s) :
    (T.mutateLoop name ours edit left).Safe legal guard who post own s := by
  induction left generalizing s with
  | zero => exact .ret hstable (h.spent s (.refl s))
  | succ left ih =>
    refine .bind (get_safe (stable _) (fun s' why hl => ?_) (fun s' hl hc => ?_)
      fun s' obj hl hc => ?_)
    · exact .ret hstable (h.fault s' why hl)
    · exact .ret hstable (h.missing s' hl hc)
    dsimp only
    have hknew : s'.store.Knew name obj := (hl.sound h.sound).knew hc
    split
    · rename_i hours
      refine .bind fun s'' hl' hguard => ?_
      have hlater := hl.trans hl'
      refine ⟨fun why => ?_, fun _ => ?_, fun hrev => ?_⟩
      · exact .ret (stable _) (.ret hstable (h.fault s'' why hlater))
      · exact .ret (stable _) (ih (h.later hlater))
      -- The revision still stands, so the object is the one that was read.
      have hc' := (hl'.knew hknew).stands hrev
      refine ⟨h.permitted s'' obj hlater hc' hours hguard, fun why => ?_, ?_⟩
      · exact .ret (stable _) (.ret hstable (h.lost s'' obj why hlater hc' hours hguard))
      · exact .ret (stable _) (.ret hstable (h.written s'' obj hlater hc' hours hguard))
    · rename_i hours
      exact .ret hstable (h.other s' obj hl hc (by simpa using hours))

end Rules

end Resource

end MeisterStack.ControllerApi
