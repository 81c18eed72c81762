import Mathlib.Data.Rat.Defs
import Mathlib.Data.List.Basic

/-!
# JSON documents

Values with integers, fractions and objects that list their members in the order of the keys, each
key once. Equality is that of parsed documents: a fraction is its value, and an object its members.
A patch is merged by RFC 7386.
-/

namespace MeisterStack.Foundation

open List

inductive Json where
  | null
  | bool (b : Bool)
  | num (n : Int)
  | float (value : ℚ)
  | str (s : String)
  | arr (items : List Json)
  | obj (members : List (String × Json))

namespace Json

mutual

def same : Json → Json → Bool
  | .null, .null => true
  | .bool a, .bool b => a == b
  | .num a, .num b => a == b
  | .float a, .float b => a == b
  | .str a, .str b => a == b
  | .arr xs, .arr ys => sameItems xs ys
  | .obj xs, .obj ys => sameMembers xs ys
  | _, _ => false

def sameItems : List Json → List Json → Bool
  | [], [] => true
  | x :: xs, y :: ys => x.same y && sameItems xs ys
  | _, _ => false

def sameMembers : List (String × Json) → List (String × Json) → Bool
  | [], [] => true
  | (k, x) :: xs, (l, y) :: ys => k == l && x.same y && sameMembers xs ys
  | _, _ => false

end

mutual

theorem same_iff : ∀ a b : Json, a.same b ↔ a = b
  | .null, b => by cases b <;> simp [same]
  | .bool a, b => by cases b <;> simp [same]
  | .num a, b => by cases b <;> simp [same]
  | .float a, b => by cases b <;> simp [same]
  | .str a, b => by cases b <;> simp [same]
  | .arr xs, b => by cases b <;> simp [same, sameItems_iff xs]
  | .obj xs, b => by cases b <;> simp [same, sameMembers_iff xs]

theorem sameItems_iff : ∀ xs ys : List Json, sameItems xs ys ↔ xs = ys
  | [], ys => by cases ys <;> simp [sameItems]
  | x :: xs, ys => by cases ys <;> simp [sameItems, same_iff x, sameItems_iff xs]

theorem sameMembers_iff : ∀ xs ys : List (String × Json), sameMembers xs ys ↔ xs = ys
  | [], ys => by cases ys <;> simp [sameMembers]
  | (k, x) :: xs, ys => by
      cases ys <;> simp [sameMembers, same_iff x, sameMembers_iff xs, Prod.ext_iff]

end

instance : DecidableEq Json := fun a b => decidable_of_iff (a.same b) (same_iff a b)

variable (doc : Json)

def get (key : String) : Option Json :=
  match doc with
  | .obj members => members.lookup key
  | _ => none

def asArray : Json → Option (List Json)
  | .arr items => some items
  | _ => none

def asStr : Json → Option String
  | .str s => some s
  | _ => none

def isObject : Json → Bool
  | .obj _ => true
  | _ => false

def members : Json → List (String × Json)
  | .obj members => members
  | _ => []

def items (key : String) : List Json := ((doc.get key).bind asArray).getD []

def segments (path : String) : List String := (path.toList.splitOn '.').map String.ofList

def atPath (path : String) : Json :=
  ((segments path).foldlM (fun (here : Json) (step : String) => here.get step) doc).getD .null

def optional (key : String) (value : Option Json) : List (String × Json) :=
  (value.map fun v => (key, v)).toList

@[simp] theorem lookup_optional (key key' value) :
    (optional key' value).lookup key = if key = key' then value else none := by
  cases value with
  | none => simp [optional]
  | some =>
    by_cases h : key = key'
    · simp [optional, h]
    · have hne : (key == key') = false := by simpa using h
      simp [optional, lookup_cons, h, hne]

def insert (key : String) (value : Json) : List (String × Json) → List (String × Json)
  | [] => [(key, value)]
  | (k, v) :: rest =>
    if k = key then (key, value) :: rest
    else if key < k then (key, value) :: (k, v) :: rest
    else (k, v) :: insert key value rest

def erase (key : String) (members : List (String × Json)) : List (String × Json) :=
  members.filter (·.1 ≠ key)

variable {key key' : String}

theorem lookup_insert_ne (h : key' ≠ key) (value members) :
    (insert key value members).lookup key' = members.lookup key' := by
  have hkey : (key' == key) = false := by simpa using h
  induction members with
  | nil => simp [insert, lookup_cons, hkey]
  | cons member rest ih =>
    obtain ⟨k, v⟩ := member
    simp only [insert]
    split
    · rename_i hk
      subst hk
      simp [lookup_cons, hkey]
    · split
      · simp [lookup_cons, hkey]
      · simp only [lookup_cons, ih]

def modifyMember (key : String) (edit : Json → Json) :
    List (String × Json) → List (String × Json)
  | [] => []
  | (k, v) :: rest =>
    if k = key then (k, edit v) :: rest else (k, v) :: modifyMember key edit rest

def modify (key : String) (edit : Json → Json) : Json → Json
  | .obj members => .obj (modifyMember key edit members)
  | doc => doc

def onArray (edit : List Json → List Json) : Json → Json
  | .arr items => .arr (edit items)
  | doc => doc

def modifyArray (key : String) (edit : List Json → List Json) : Json → Json :=
  modify key (onArray edit)

theorem modifyMember_comm (h : key ≠ key') (edit edit' : Json → Json) (members) :
    modifyMember key' edit' (modifyMember key edit members) =
      modifyMember key edit (modifyMember key' edit' members) := by
  induction members with
  | nil => rfl
  | cons member rest ih =>
    obtain ⟨k, v⟩ := member
    by_cases hk : k = key
    · subst hk
      simp [modifyMember, h]
    · by_cases hk' : k = key'
      · subst hk'
        simp [modifyMember, hk]
      · simp [modifyMember, hk, hk', ih]

theorem modify_comm (h : key ≠ key') (edit edit' : Json → Json) (doc : Json) :
    (doc.modify key edit).modify key' edit' = (doc.modify key' edit').modify key edit := by
  cases doc with
  | obj members => exact congrArg obj (modifyMember_comm h edit edit' members)
  | _ => rfl

theorem modifyMember_eq_self {edit look members}
    (hlook : ∀ v, members.lookup key = some v → look (edit v) = look v → edit v = v)
    (h : modifyMember key look (modifyMember key edit members) = modifyMember key look members) :
    modifyMember key edit members = members := by
  induction members with
  | nil => rfl
  | cons member rest ih =>
    obtain ⟨k, v⟩ := member
    by_cases hk : k = key
    · subst hk
      simp only [modifyMember, if_true, List.cons.injEq, Prod.mk.injEq, true_and, and_true] at h ⊢
      exact hlook v (by simp) h
    · have hkey : (key == k) = false := by simpa using Ne.symm hk
      simp only [modifyMember, if_neg hk, List.cons.injEq, true_and] at h ⊢
      exact ih (fun w hw => hlook w (by simpa [lookup_cons, hkey] using hw)) h

theorem modify_eq_self {edit look} {doc : Json}
    (hlook : ∀ v, doc.get key = some v → look (edit v) = look v → edit v = v)
    (h : (doc.modify key edit).modify key look = doc.modify key look) :
    doc.modify key edit = doc := by
  cases doc with
  | obj => exact congrArg obj (modifyMember_eq_self hlook (obj.inj h))
  | _ => rfl

mutual

def mergePatch (target : Json) : Json → Json
  | .obj fields => .obj (mergeMembers target.members fields)
  | patch => patch

def mergeMembers (map : List (String × Json)) : List (String × Json) → List (String × Json)
  | [] => map
  | (key, .null) :: rest => mergeMembers (erase key map) rest
  | (key, value) :: rest =>
    mergeMembers (insert key (mergePatch ((map.lookup key).getD .null) value) map) rest

end

end Json

end MeisterStack.Foundation
