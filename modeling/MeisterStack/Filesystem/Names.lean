import Mathlib.Data.List.TakeDrop
import Mathlib.Data.List.TakeWhile
import Mathlib.Data.List.Count

/-!
# File names in a pool

A pool directory holds volumes `<id>.raw`, snapshots `<id>.snap`, and their staging files, which
name their host and a nonce. `classify` is how the sweep reads a name.
-/

namespace MeisterStack.Filesystem

open List

abbrev Name := List Char

def isHexDigit (c : Char) : Bool :=
  c.isDigit || ('a' ≤ c && c ≤ 'f') || ('A' ≤ c && c ≤ 'F')

variable (s : Name)

def isNonce : Bool := s.length = 32 && s.all isHexDigit

def isTag : Bool :=
  !s.isEmpty && s.all fun c => c.isAlphanum || c = '-' || c = '_'

structure Uuid where
  text : Name
  nonempty : text.isEmpty = false
  digits : text.all (fun c => isHexDigit c || c = '-')

structure HostTag where
  text : Name
  valid : isTag text
  deriving DecidableEq

structure Nonce where
  text : Name
  valid : isNonce text

inductive Object where
  | volume (id : Uuid)
  | snapshot (id : Uuid)

def rawSuffix : Name := ['.', 'r', 'a', 'w']
def snapSuffix : Name := ['.', 's', 'n', 'a', 'p']
def snapTmp : Name := ['.', 's', 'n', 'a', 'p', '.', 't', 'm', 'p']
def volumeTmp : Name := ['.', 't', 'm', 'p']
def probePrefix : Name :=
  ['.', 'm', 'e', 'i', 's', 't', 'e', 'r', '-', 'r', 'e', 'f', 'l', 'i', 'n', 'k', '-',
    'p', 'r', 'o', 'b', 'e', '-']
def clockPrefix : Name :=
  ['.', 'm', 'e', 'i', 's', 't', 'e', 'r', '-', 'c', 'l', 'o', 'c', 'k', '-']

namespace Object

def id : Object → Uuid
  | volume id | snapshot id => id

def path : Object → Name
  | volume id => id.text ++ rawSuffix
  | snapshot id => id.text ++ snapSuffix

def tmp : Object → Name
  | volume _ => volumeTmp
  | snapshot _ => snapTmp

def staging (o : Object) (host : HostTag) (nonce : Nonce) : Name :=
  o.id.text ++ o.tmp ++ '.' :: host.text ++ '.' :: nonce.text

def legacy (o : Object) : Name := o.id.text ++ o.tmp

end Object

def splitOnce : Option (Name × Name) :=
  match s.span (· != '.') with
  | (_, []) => none
  | (before, _ :: after) => some (before, after)

def rsplitOnce : Option (Name × Name) :=
  (splitOnce s.reverse).map fun r => (r.2.reverse, r.1.reverse)

variable (o : Object) (name : Name)

def stagedFor : Bool :=
  match name.dropPrefix? (o.id.text ++ o.tmp ++ ['.']) with
  | none => false
  | some rest => (splitOnce rest).any fun r => isTag r.1 && isNonce r.2

inductive Leftover where
  | snapshotCopy (host : Option Name)
  | volumeBuild (host : Name)
  | probe (host : Option Name)
  | clock (host : Name)

def Leftover.owner : Leftover → Option Name
  | snapshotCopy host | probe host => host
  | volumeBuild host | clock host => some host

def classifyProbe (rest : Name) : Option Leftover :=
  match (rest.dropSuffix? ['.', 's', 'r', 'c']).or (rest.dropSuffix? ['.', 'd', 's', 't']) with
  | none => none
  | some stem =>
    match splitOnce stem with
    | some (tag, n) => if isTag tag && isNonce n then some (.probe (some tag)) else none
    -- `<pid>.src`, from before the names carried their host
    | none => if !stem.isEmpty && stem.all Char.isDigit then some (.probe none) else none

def classifyClock (rest : Name) : Option Leftover :=
  (splitOnce rest).bind fun r =>
    if isTag r.1 && isNonce r.2 then some (.clock r.1) else none

def classifyStaging : Option Leftover :=
  (rsplitOnce name).bind fun r => (rsplitOnce r.1).bind fun q =>
    if isNonce r.2 && isTag q.2 then
      if snapTmp.isSuffixOf q.1 then some (.snapshotCopy (some q.2))
      else if volumeTmp.isSuffixOf q.1 then some (.volumeBuild q.2)
      else none
    else none

def classify : Option Leftover :=
  match name.dropPrefix? probePrefix with
  | some rest => classifyProbe rest
  | none =>
    match name.dropPrefix? clockPrefix with
    | some rest => classifyClock rest
    | none =>
      (classifyStaging name).or
        (((name.dropSuffix? snapTmp).filter fun id => !id.isEmpty && !id.contains '.').map
          fun _ => .snapshotCopy none)

variable {s : Name}

theorem not_mem_dot {p} (h : s.all p) (hdot : p '.' = false) : '.' ∉ s := by
  intro hmem
  rw [all_eq_true] at h
  rw [h '.' hmem] at hdot
  cases hdot

variable (id : Uuid)

theorem Uuid.no_dot : '.' ∉ id.text := not_mem_dot id.digits (by decide)

theorem ne_dot (h : '.' ∉ s) : ∀ c ∈ s, (c != '.') :=
  fun _ hc => bne_iff_ne.mpr fun heq => h (heq ▸ hc)

theorem splitOnce_none (h : '.' ∉ s) : splitOnce s = none := by
  have hrest : s.dropWhile (· != '.') = [] := dropWhile_eq_nil_iff.mpr (ne_dot h)
  simp [splitOnce, span_eq_takeWhile_dropWhile, hrest]

theorem splitOnce_append {before after} (h : '.' ∉ before) :
    splitOnce (before ++ '.' :: after) = some (before, after) := by
  have hbefore : (before ++ '.' :: after).takeWhile (· != '.') = before := by
    rw [takeWhile_append_of_pos (ne_dot h)]
    simp
  have hrest : (before ++ '.' :: after).dropWhile (· != '.') = '.' :: after := by
    rw [dropWhile_append_of_pos (ne_dot h)]
    simp
  simp [splitOnce, span_eq_takeWhile_dropWhile, hbefore, hrest]

theorem rsplitOnce_none (h : '.' ∉ s) : rsplitOnce s = none := by
  simp [rsplitOnce, splitOnce_none (s := s.reverse) (by simpa using h)]

theorem rsplitOnce_append {before after} (h : '.' ∉ after) :
    rsplitOnce (before ++ '.' :: after) = some (before, after) := by
  have hrev : (before ++ '.' :: after).reverse = after.reverse ++ '.' :: before.reverse := by simp
  rw [rsplitOnce, hrev, splitOnce_append (by simpa using h)]
  simp

theorem dropPrefix_text (rest head) :
    (id.text ++ rest).dropPrefix? ('.' :: head) = none := by
  have hdot := id.no_dot
  cases htext : id.text with
  | nil =>
    have hne := id.nonempty
    rw [htext] at hne
    cases hne
  | cons c =>
    rw [htext] at hdot
    have hc : (c == '.') = false := beq_false_of_ne fun h => hdot (by simp [h])
    simp [dropPrefix?, hc]

theorem classify_text {id : Uuid} {extension} (hdot : '.' ∉ extension)
    (hend : ∀ stem, id.text ++ '.' :: extension ≠ stem ++ snapTmp) :
    classify (id.text ++ '.' :: extension) = none := by
  have hsuffix : (id.text ++ '.' :: extension).dropSuffix? snapTmp = none := by
    rw [Option.eq_none_iff_forall_ne_some]
    intro stem hstem
    obtain ⟨found, hsplit, hfound⟩ := dropSuffix?_eq_some_iff.mp hstem
    exact hend stem (by rw [hsplit, eq_of_beq hfound])
  simp [classify, probePrefix, clockPrefix, dropPrefix_text, classifyStaging,
    rsplitOnce_append hdot, rsplitOnce_none id.no_dot, hsuffix]

theorem classify_path : classify o.path = none := by
  cases o with
  | volume | snapshot =>
    refine classify_text (by decide) fun stem h => ?_
    have hend := congrArg reverse h
    simp [snapTmp] at hend

theorem count_text : id.text.count '.' = 0 := count_eq_zero.mpr id.no_dot

theorem count_path : o.path.count '.' = 1 := by
  cases o <;> simp [Object.path, rawSuffix, snapSuffix, count_text]

variable (o o' : Object)

theorem staging_ne_path (host nonce) : o.staging host nonce ≠ o'.path := by
  intro h
  have hcount := congrArg (count '.') h
  rw [count_path] at hcount
  cases o <;> simp [Object.staging, Object.tmp, snapTmp, volumeTmp] at hcount <;> omega

theorem stagedFor_path : stagedFor o o'.path = false := by
  unfold stagedFor
  split
  · rfl
  · rename_i rest hrest
    -- A staging name has at least two dots, a published one has one.
    obtain ⟨found, hsplit, hfound⟩ := dropPrefix?_eq_some_iff.mp hrest
    have hcount := congrArg (count '.') hsplit
    rw [count_path, eq_of_beq hfound] at hcount
    cases o <;> simp [Object.tmp, snapTmp, volumeTmp] at hcount <;> omega

theorem legacy_ne_path : o.legacy ≠ o'.path := by
  intro h
  have hend := congrArg reverse h
  cases o <;> cases o' <;>
    simp [Object.legacy, Object.tmp, Object.path, volumeTmp, snapTmp, rawSuffix, snapSuffix] at hend

end MeisterStack.Filesystem
