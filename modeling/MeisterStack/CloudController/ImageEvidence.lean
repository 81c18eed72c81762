import Mathlib.Data.List.AList
import Mathlib.Data.Finset.Card
import Mathlib.Data.String.Basic

/-!
# What the cloud hears of an image

A cluster keeps the last word each node said about each image and whether the node's last report was
complete; the cloud takes the silence of a complete report for a missing file. A word is kept when
later reports no longer name the image, and then there is no silence to hear.
-/

namespace MeisterStack.CloudController.ImageEvidence

open List

structure ImageStateReport where
  name : String
  phase : String
  reason : String
  message : String
  node : String
  digest : String

structure ImageWord where
  phase : String
  reason : String
  message : String
  digest : String

structure NodeImages where
  node : String
  images : List ImageStateReport
  complete : Bool

/-! ## In the cluster -/

structure ImageView where
  said : AList fun _ : String × String => ImageWord
  complete : Finset String

namespace ImageView

def empty : ImageView := ⟨∅, ∅⟩

def wordOf (r : ImageStateReport) : ImageWord := ⟨r.phase, r.reason, r.message, r.digest⟩

variable (view : ImageView)

def observe (r : NodeImages) : ImageView where
  said := r.images.foldl (fun said i => said.insert (i.name, r.node) (wordOf i)) view.said
  complete := if r.complete then insert r.node view.complete else view.complete.erase r.node

def isComplete (node : String) : Bool := node ∈ view.complete

def before (a b : ImageStateReport) : Bool := a.name < b.name || a.name = b.name && a.node ≤ b.node

def report : List ImageStateReport :=
  (view.said.entries.map fun ⟨(name, node), word⟩ =>
    { name, phase := word.phase, reason := word.reason, message := word.message, node,
      digest := word.digest : ImageStateReport }).mergeSort before

end ImageView

/-! ## In the cloud -/

inductive ImagePhaseKind where
  | pending | ready | failed
  deriving DecidableEq

def ImagePhaseKind.parse : String → Option ImagePhaseKind
  | "Pending" => some .pending
  | "Ready" => some .ready
  | "Failed" => some .failed
  | _ => none

inductive ImageReason where
  | unrecorded | awaitingNode | notFound | notAFile | checksumMismatch | fetchFailed
  | digestMismatch
  deriving DecidableEq

namespace ImageReason

def parse : String → Option ImageReason
  | "Unrecorded" => some unrecorded
  | "AwaitingNode" => some awaitingNode
  | "NotFound" => some notFound
  | "NotAFile" => some notAFile
  | "ChecksumMismatch" => some checksumMismatch
  | "FetchFailed" => some fetchFailed
  | "DigestMismatch" => some digestMismatch
  | _ => none

def read (word : String) (message : Option String) : ImageReason × Option String :=
  if word = "" then (unrecorded, message)
  else match parse word with
    | some reason => (reason, message)
    | none => (unrecorded, some (match message with
        | some said => if said = "" then word else s!"{word}: {said}"
        | none => word))

end ImageReason

structure ImageNodeState where
  name : String
  cluster : String
  phase : ImagePhaseKind
  reason : ImageReason
  message : Option String
  digest : Option String
  deriving DecidableEq

def unlessEmpty (s : String) : Option String := if s = "" then none else some s

def stateOf (cluster : String) (line : ImageStateReport) : Option ImageNodeState :=
  match ImagePhaseKind.parse line.phase with
  | none => none
  | some phase =>
    if line.node = "" then none
    else
      let (reason, message) := ImageReason.read line.reason (unlessEmpty line.message)
      some ⟨line.node, cluster, phase, reason, message, unlessEmpty line.digest⟩

def missing (cluster name node : String) : ImageNodeState :=
  ⟨node, cluster, .failed, .notFound, some s!"{node} has no file named {name}", none⟩

def addMissing (cluster name : String) (mine : List ImageNodeState) (node : String) :
    List ImageNodeState :=
  if mine.any (·.name = node) then mine else mine ++ [missing cluster name node]

def sortedBefore (a b : ImageNodeState) : Bool :=
  a.cluster < b.cluster || a.cluster = b.cluster && a.name ≤ b.name

def linesOf (cluster name : String) (lines : List ImageStateReport) (complete : List String) :
    List ImageNodeState :=
  (complete.foldl (addMissing cluster name) (lines.filterMap (stateOf cluster))).mergeSort
    sortedBefore

structure Image where
  name : String
  url : Option String

def absenceWitnesses (image : Image) (complete : List String) : List String :=
  if image.url.isSome then [] else complete

/-- The lines of an image from the status a cluster builds, with the nodes its store lists. -/
def ingestImage (cluster : String) (image : Image) (view : ImageView) (nodes : List String) :
    List ImageNodeState :=
  linesOf cluster image.name (view.report.filter (·.name = image.name))
    (absenceWitnesses image (nodes.filter view.isComplete))

/-! ## From the reports to the lines -/

variable {view : ImageView} {r : NodeImages} {cluster image node : String}
  {mine : List ImageNodeState} {l : ImageNodeState} {nodes : List String}

/-- The last word a report has for an image. -/
def NodeImages.named (r : NodeImages) (image : String) : Option ImageWord :=
  (r.images.reverse.find? (·.name = image)).map ImageView.wordOf

def lineOf (cluster image node : String) (word : ImageWord) : Option ImageNodeState :=
  stateOf cluster ⟨image, word.phase, word.reason, word.message, node, word.digest⟩

theorem lookup_foldl_insert (images : List ImageStateReport) (n)
    (said : AList fun _ : String × String => ImageWord) :
    (images.foldl (fun said i => said.insert (i.name, n) (ImageView.wordOf i)) said).lookup
      (image, node) =
      if n = node then ((images.reverse.find? (·.name = image)).map ImageView.wordOf).or
        (said.lookup (image, node)) else said.lookup (image, node) := by
  induction images generalizing said with
  | nil => simp
  | cons i images ih =>
    rw [foldl_cons, ih, reverse_cons, find?_append]
    by_cases hkey : (image, node) = (i.name, n)
    · simp only [Prod.mk.injEq] at hkey
      obtain ⟨rfl, rfl⟩ := hkey
      cases images.reverse.find? (·.name = i.name) <;> simp
    · rw [AList.lookup_insert_ne hkey]
      split
      · have hname : i.name ≠ image := by grind
        cases images.reverse.find? (·.name = image) <;> simp [hname]
      · rfl

theorem lookup_observe : (view.observe r).said.lookup (image, node) =
    if r.node = node then (r.named image).or (view.said.lookup (image, node))
    else view.said.lookup (image, node) :=
  lookup_foldl_insert r.images r.node view.said

theorem mem_observe_complete : node ∈ (view.observe r).complete ↔
    if r.node = node then r.complete = true else node ∈ view.complete := by
  simp only [ImageView.observe]
  grind

theorem mem_foldl_addMissing (complete : List String) : l ∈ complete.foldl
    (addMissing cluster image) mine ↔ l ∈ mine ∨ ∃ n ∈ complete,
      (∀ m ∈ mine, m.name ≠ n) ∧ l = missing cluster image n := by
  induction complete generalizing mine with
  | nil => simp
  | cons n complete ih =>
    rw [foldl_cons, ih, addMissing]
    split
    · grind
    · simp only [mem_append, mem_singleton]
      grind [missing]

theorem stateOf_name {line} (h : stateOf cluster line = some l) : l.name = line.node := by
  grind [stateOf]

/-- The line of a node is that of the word kept for it, and where there is none it is missing if
the node's silence counts. -/
theorem mem_ingestImage {image} : (l ∈ ingestImage cluster image view nodes ∧
    l.name = node) ↔
    match (view.said.lookup (image.name, node)).bind (lineOf cluster image.name node) with
    | some line => l = line
    | none => l = missing cluster image.name node ∧ image.url = none ∧ node ∈ nodes ∧
        node ∈ view.complete := by
  have hmine : ∀ m : ImageNodeState, m ∈ (view.report.filter (·.name = image.name)).filterMap
      (stateOf cluster) ↔
      (view.said.lookup (image.name, m.name)).bind (lineOf cluster image.name m.name) = some m := by
    intro m
    simp only [mem_filterMap, mem_filter, ImageView.report, mem_mergeSort,
      mem_map, Option.bind_eq_some_iff]
    constructor
    · rintro ⟨line, ⟨⟨⟨⟨name, n⟩, word⟩, hword, rfl⟩, hname⟩, hm⟩
      obtain rfl : name = image.name := by simpa using hname
      have hn := stateOf_name hm
      exact ⟨word, AList.mem_lookup_iff.mpr (hn ▸ hword), hn ▸ hm⟩
    · rintro ⟨word, hword, hm⟩
      exact ⟨_, ⟨⟨_, AList.mem_lookup_iff.mp hword, rfl⟩, by simp⟩, hm⟩
  have hname : ∀ n m, (view.said.lookup (image.name, n)).bind (lineOf cluster image.name n) =
      some m → m.name = n := by
    intro n m h
    obtain ⟨word, -, hm⟩ := Option.bind_eq_some_iff.mp h
    exact stateOf_name hm
  have hwitness : ∀ n, n ∈ absenceWitnesses image (nodes.filter view.isComplete) ↔
      image.url = none ∧ n ∈ nodes ∧ n ∈ view.complete := by
    intro n
    cases h : image.url <;> simp [absenceWitnesses, h, ImageView.isComplete]
  simp only [ingestImage, linesOf, mem_mergeSort, mem_foldl_addMissing, hmine, hwitness]
  split <;> grind [missing]

/-! ## The last report of a node -/

/-- The line of a node is the word of its last report or, where that does not name the image, the
image is missing. -/
def SaysLast (cluster : String) (image : Image) (r : NodeImages) (lines : List ImageNodeState) :
    Prop :=
  match r.named image.name with
  | some word => ∃ line, lineOf cluster image.name r.node word = some line ∧
      ∀ l, l ∈ lines ∧ l.name = r.node ↔ l = line
  | none => ∀ l, l ∈ lines ∧ l.name = r.node ↔ l = missing cluster image.name r.node

theorem view_last (image history) {after} (hlast : ∀ x ∈ after, x.node ≠ r.node) :
    let view := (history ++ r :: after).foldl ImageView.observe .empty
    let old := history.foldl ImageView.observe .empty
    view.said.lookup (image, r.node) = (r.named image).or (old.said.lookup (image, r.node)) ∧
      (r.node ∈ view.complete ↔ r.complete) := by
  induction after using List.reverseRecOn with
  | nil => simp [foldl_append, lookup_observe, mem_observe_complete]
  | append_singleton after x ih =>
    have hx : x.node ≠ r.node := hlast x (by simp)
    have ih := ih fun y hy => hlast y (by simp [hy])
    simp only [← cons_append, ← append_assoc, foldl_append, foldl_cons,
      foldl_nil, lookup_observe, mem_observe_complete, hx, if_false] at ih ⊢
    exact ih

/-- After a complete last report the cloud has its word or the silence exactly where it can read
the word, and where an image no longer named was never named in a word it could read, or only as
missing. After an incomplete one every line is a word the node said. -/
theorem image_absence_reaches_cloud (cluster : String) (image : Image) (nodes : List String)
    (history after : List NodeImages) (r : NodeImages) (hpath : image.url = none)
    (hlast : ∀ x ∈ after, x.node ≠ r.node) :
    let lines := ingestImage cluster image
      ((history ++ r :: after).foldl ImageView.observe .empty) nodes
    let kept := (history.foldl ImageView.observe .empty).said.lookup (image.name, r.node)
    let read := lineOf cluster image.name r.node
    (r.complete → (SaysLast cluster image r lines ↔
      match r.named image.name with
      | some word => (read word).isSome
      | none => kept.bind read = some (missing cluster image.name r.node) ∨
          kept.bind read = none ∧ r.node ∈ nodes)) ∧
    (r.complete = false → ∀ l ∈ lines, l.name = r.node →
      ((r.named image.name).or kept).bind read = some l) := by
  intro lines kept read
  obtain ⟨hlookup, hcomplete⟩ := view_last image.name history hlast
  have hmem : ∀ l, (l ∈ lines ∧ l.name = r.node) ↔ _ := fun l => mem_ingestImage
  simp only [hlookup, hcomplete, hpath, true_and] at hmem
  refine ⟨fun hr => ?_, fun hr l hl hname => ?_⟩
  · simp only [SaysLast, hmem, hr, and_true]
    cases hnamed : r.named image.name with
    | some word =>
      simp only [Option.some_or, Option.bind_some]
      cases hline : read word <;> simp [read] at hline ⊢ <;> simp [hline]
    | none =>
      simp only [Option.none_or]
      cases hline : kept.bind read with
      | none => simp
      | some line =>
        simp only [Option.some.injEq, reduceCtorEq, false_and, or_false]
        exact ⟨fun h => (h line).mp rfl, fun h l => by rw [h]⟩
  · have hline := (hmem l).mp ⟨hl, hname⟩
    simp only [hr, Bool.false_eq_true, and_false] at hline
    grind

def path : Image := ⟨"disk", none⟩

def inFull (node : String) (phases : List (String × String)) : NodeImages :=
  ⟨node, phases.map fun (image, phase) => ⟨image, phase, "", "", "", ""⟩, true⟩

theorem image_absence_reaches_cloud_unnamed :
    SaysLast "c" path (inFull "n" []) (ingestImage "c" path
      ([inFull "m" [("disk", "Ready")], inFull "n" []].foldl ImageView.observe .empty) ["n"]) :=
  ((image_absence_reaches_cloud "c" path ["n"] [inFull "m" [("disk", "Ready")]] [] (inFull "n" [])
    rfl (by simp)).1 rfl).mpr (.inr (by decide +kernel))

/-- The file is removed and the node's complete report no longer names it: the cloud still hears
that it is ready. -/
theorem removed_image_stays_ready :
    ingestImage "c" path ([inFull "n" [("disk", "Ready")], inFull "n" []].foldl ImageView.observe
      .empty) ["n"] = [⟨"n", "c", .ready, .unrecorded, none, none⟩] := by
  decide +kernel

end MeisterStack.CloudController.ImageEvidence
