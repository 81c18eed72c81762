import MeisterStack.Foundation.Ownership
import MeisterStack.Filesystem.Pool

/-!
# What happens to a published file

The sweep, the removal of other objects and staging files never touch a published file. The rename
does: it replaces whatever stands under the path, and the look that found nothing may be long past.
So the file is kept as long as no attempt is overtaken between its look and its rename.
-/

namespace MeisterStack.Filesystem

open Foundation List Function Option Disk Task

def Unpublishable (name : Name) : Prop := ∀ o : Object, name ≠ o.path

structure OpenAs (disk : Disk Name File) (tmp : Name) (file : Nat) : Prop where
  below : file < disk.next
  only : ∀ name, disk.entry name = some file → name = tmp

variable {tmp : Name} {file : Nat}

theorem openAs_of_entry {disk} (h : disk.entry tmp = some file) : OpenAs disk tmp file :=
  ⟨disk.below h, fun _ hname => disk.unique hname h⟩

def Stage.file? : Stage → Option Nat
  | .copying c => some c.file
  | .setLen file => some file
  | _ => none

def Task.owns : Task → Option Name
  | .stage _ tmp _ => some tmp
  | _ => none

inductive Change (d : Disk Name File) (tmp path : Name) (stage : Stage) (input : Input) :
    Disk Name File → Prop
  | same : Change d tmp path stage input d
  | created (d' : Disk Name File) (file : Nat) : d.Created tmp d' file →
      Change d tmp path stage input d'
  | wrote (file : Nat) (change : File → File) : OpenAs d tmp file →
      Change d tmp path stage input (d.edit file change)
  | renamed (d' : Disk Name File) : stage = .rename → input = .go → d.Renamed tmp path d' →
      Change d tmp path stage input d'
  | unlinked : Change d tmp path stage input (d.unlink tmp)

def Continues (tmp : Name) (d : Disk Name File) (out : Outcome) : Prop :=
  ∀ stage, out = .next stage → ∀ file, stage.file? = some file → OpenAs d tmp file

variable {s : State} {path : Name} {stage : Stage} {input : Input} {d : Disk Name File}
  {out : Outcome}

theorem startCopy_spec {firstCall source} (h : startCopy s tmp firstCall source = (d, out)) :
    Change s.disk tmp path stage input d ∧ Continues tmp d out := by
  cases h
  have hcreated := s.disk.created_create tmp ⟨[], s.clock⟩
  refine ⟨.created _ _ hcreated, ?_⟩
  rintro stage ⟨⟩ file ⟨⟩
  exact openAs_of_entry hcreated.here

theorem openAndCopy_spec {firstCall source} (h : openAndCopy s tmp firstCall source = (d, out)) :
    Change s.disk tmp path stage input d ∧ Continues tmp d out := by
  have hfailed : Change s.disk tmp path stage input s.disk ∧
      Continues tmp s.disk (.next .removeFile) := ⟨.same, by rintro stage ⟨⟩ file ⟨⟩⟩
  unfold openAndCopy at h
  split at h
  · exact startCopy_spec h
  · split at h
    · exact startCopy_spec h
    · cases h
      exact hfailed
  all_goals
    cases h
    exact hfailed

theorem beginWriting_spec {source} (h : beginWriting s tmp source = (d, out)) :
    Change s.disk tmp path stage input d ∧ Continues tmp d out := by
  unfold beginWriting at h
  split at h
  · cases h
    exact ⟨.created _ _ (s.disk.created_create _ _), by rintro stage ⟨⟩ file ⟨⟩⟩
  · cases h
    exact ⟨.created _ _ (s.disk.created_create _ _), by rintro stage ⟨⟩ file ⟨⟩⟩
  · exact openAndCopy_spec h

theorem copyChunk_spec {c n} (hopen : OpenAs s.disk tmp c.file)
    (h : copyChunk s c n = some (d, out)) :
    Change s.disk tmp path stage input d ∧ Continues tmp d out := by
  unfold copyChunk at h
  dsimp only at h
  split at h
  · cases h
    exact ⟨.same, by rintro stage ⟨⟩ file ⟨⟩⟩
  · split at h <;> cases h
    refine ⟨.wrote _ _ hopen, ?_⟩
    rintro stage ⟨⟩ file ⟨⟩
    exact ⟨hopen.below, hopen.only⟩

theorem advance_spec {a} (hopen : ∀ file, stage.file? = some file → OpenAs s.disk tmp file)
    (h : advance s a tmp stage input = some (d, out)) :
    Change s.disk tmp a.path stage input d ∧ Continues tmp d out := by
  have hplain : ∀ next : Stage, next.file? = none → Continues tmp s.disk (.next next) := by
    rintro next hnext stage ⟨⟩ file hfile
    cases hnext.symm.trans hfile
  unfold advance at h
  split at h
  · exact beginWriting_spec (some.inj h)
  · split at h <;> cases h
    refine ⟨.same, hplain _ ?_⟩
    unfold afterCopy
    split <;> rfl
  · split at h
    · cases h
    · exact copyChunk_spec (hopen _ rfl) h
  · split at h
    · cases h
    · split at h
      · exact openAndCopy_spec (some.inj h)
      · cases h
        exact ⟨.same, hplain _ rfl⟩
  · split at h <;> cases h
    · rename_i file hfile
      exact ⟨.wrote _ _ (openAs_of_entry hfile), by rintro stage ⟨⟩ file ⟨⟩⟩
    · exact ⟨.same, hplain _ rfl⟩
  · split at h <;> cases h
    · rename_i file hfile
      refine ⟨.same, ?_⟩
      rintro stage ⟨⟩ file ⟨⟩
      exact openAs_of_entry hfile
    · exact ⟨.same, hplain _ rfl⟩
  · split at h <;> cases h
    exact ⟨.wrote _ _ (hopen _ rfl), by rintro stage ⟨⟩ file ⟨⟩⟩
  · cases h
    exact ⟨.same, hplain _ rfl⟩
  · split at h <;> cases h
    · rename_i hrename
      exact ⟨.renamed _ rfl rfl (renamed_rename hrename), by rintro stage ⟨⟩⟩
    · exact ⟨.same, hplain _ rfl⟩
  · cases h
    exact ⟨.unlinked, by rintro stage ⟨⟩⟩
  · cases h
    exact ⟨.same, by rintro stage ⟨⟩⟩
  · cases h
    exact ⟨.same, hplain _ rfl⟩
  · cases h

theorem Change.openAs {d' tmp'} (h : Change d tmp path stage input d') (hne : tmp' ≠ tmp)
    (hopen : OpenAs d tmp' file) : OpenAs d' tmp' file := by
  cases h with
  | same => exact hopen
  | created _ made hcreated =>
    refine ⟨Nat.lt_of_lt_of_le hopen.below hcreated.grows, fun name hname => ?_⟩
    by_cases htmp : name = tmp
    · subst htmp
      cases hcreated.here.symm.trans hname
      rcases hcreated.made with hold | ⟨-, rfl⟩
      · exact absurd (hopen.only name hold).symm hne
      · exact absurd hopen.below (Nat.lt_irrefl _)
    · exact hopen.only name ((hcreated.elsewhere name htmp).symm.trans hname)
  | wrote => exact ⟨hopen.below, hopen.only⟩
  | renamed _ _ _ hrenamed =>
    obtain ⟨moved, hfrom, hto⟩ := hrenamed.moved
    refine ⟨hrenamed.next ▸ hopen.below, fun name hname => ?_⟩
    have hmoved : moved ≠ file := fun heq => hne (hopen.only tmp (heq ▸ hfrom)).symm
    by_cases hpath : name = path
    · subst hpath
      cases hto.symm.trans hname
      exact absurd rfl hmoved
    · by_cases htmp : name = tmp
      · subst htmp
        cases (hrenamed.gone hpath).symm.trans hname
      · exact hopen.only name ((hrenamed.elsewhere name htmp hpath).symm.trans hname)
  | unlinked => exact ⟨hopen.below, fun name hname => hopen.only name (entry_of_unlink hname)⟩

variable {p : Name}

theorem Change.keeps {d'} (h : Change d tmp path stage input d') (hp : d.entry p = some file)
    (htmp : p ≠ tmp) (hpath : stage = .rename → input = .go → (d.entry tmp).isSome → p ≠ path) :
    d'.entry p = some file ∧ d'.files file = d.files file := by
  cases h with
  | same => exact ⟨hp, rfl⟩
  | created _ made hcreated =>
    refine ⟨(hcreated.elsewhere p htmp).trans hp, hcreated.kept file ?_⟩
    rintro rfl
    rcases hcreated.made with hold | ⟨-, rfl⟩
    · exact htmp (d.unique hp hold)
    · exact d.entry_ne_next p hp
  | wrote written change hopen =>
    refine ⟨hp, d.edit_files_of_ne ?_ _⟩
    rintro rfl
    exact htmp (hopen.only p hp)
  | renamed _ hstage hinput hrenamed =>
    obtain ⟨moved, hfrom, -⟩ := hrenamed.moved
    have hother := hpath hstage hinput (by simp [hfrom])
    exact ⟨(hrenamed.elsewhere p htmp hother).trans hp, by rw [hrenamed.files]⟩
  | unlinked => exact ⟨(d.unlink_entry_of_ne htmp).trans hp, rfl⟩

inductive Effect (s : State) : Task → Input → State → Prop
  | idle (t input s') : s'.disk = s.disk → s'.published = s.published → Effect s t input s'
  | staged (a tmp stage input s') : Change s.disk tmp a.path stage input s'.disk →
      s'.published = s.published → Effect s (.stage a tmp stage) input s'
  | answered (o) : Effect s (.answer o) .go
      { s with published := update s.published o.path (s.disk.entry o.path) }
  | removed (o name rest) : Effect s (.remove o (name :: rest)) .go
      { s with
        disk := s.disk.unlink name
        published := if name = o.path then update s.published o.path none
          else s.published }
  | swept (w name) : Effect s (.unlink w name) .go { s with disk := s.disk.unlink name }

def TaskOk (s : State) : Task → Prop
  | .stage _ tmp stage => Unpublishable tmp ∧
      ∀ file, stage.file? = some file → OpenAs s.disk tmp file
  | .remove o doomed => ∀ name ∈ doomed, name = o.path ∨ Unpublishable name
  | .judge _ name _ _ | .secondLook _ name _ _ | .unlink _ name => Unpublishable name
  | _ => True

variable {s' : State} {t : Task}

def Kept (s : State) : Prop :=
  ∀ p file, s.published p = some file → s.disk.entry p = some file ∧ ∃ o : Object, p = o.path

def overtaken (s : State) (t : Task) (input : Input) : Bool :=
  match t, input with
  | .stage a tmp .rename, .go => (s.disk.entry tmp).isSome && (s.published a.path).isSome
  | _, _ => false

def notOvertaken : Guard State Task Event Input where
  env _ _ := True
  task s t input := overtaken s t input = false

instance (s event) : Decidable (notOvertaken.env s event) := .isTrue trivial

instance (s t input) : Decidable (notOvertaken.task s t input) :=
  inferInstanceAs (Decidable (overtaken s t input = false))

theorem Effect.keeps (h : Effect s t input s') (hs : Kept s) (ht : TaskOk s t)
    (hg : notOvertaken.task s t input) (hp : s.published p = some file) :
    (s'.published p = some file ∧ s'.disk.entry p = some file ∧
      s'.disk.files file = s.disk.files file) ∨
    ∃ o rest, t = .remove o (o.path :: rest) ∧ p = o.path ∧ s'.published p = none := by
  obtain ⟨hentry, o, rfl⟩ := hs p file hp
  cases h with
  | idle _ _ _ hdisk hpublished =>
    rw [hdisk, hpublished]
    exact .inl ⟨hp, hentry, rfl⟩
  | staged a tmp stage _ _ hchange hpublished =>
    have hkeeps := hchange.keeps hentry (ht.1 o).symm fun hstage hinput hsome hpath => by
      subst hstage hinput
      have hover : overtaken s (.stage a tmp .rename) .go := by
        simp [overtaken, hsome, ← hpath, hp]
      cases hover.symm.trans hg
    exact .inl ⟨hpublished ▸ hp, hkeeps⟩
  | answered o' =>
    refine .inl ⟨?_, hentry, rfl⟩
    by_cases hpath : o.path = o'.path
    · rw [hpath]
      simpa [hpath] using hentry
    · simpa [update_of_ne hpath] using hp
  | removed o' name rest =>
    by_cases hname : name = o.path
    · subst hname
      rcases ht o.path (by simp) with hpath | hprivate
      · exact .inr ⟨o', rest, by rw [hpath], hpath, by simp [hpath]⟩
      · exact absurd rfl (hprivate o)
    · refine .inl ⟨?_, (unlink_entry_of_ne _ (Ne.symm hname)).trans hentry, rfl⟩
      dsimp only
      split
      · rename_i hpath
        rw [update_of_ne fun heq => hname (hpath.trans heq.symm)]
        exact hp
      · exact hp
  | swept =>
    exact .inl ⟨hp, (unlink_entry_of_ne _ (ht o).symm).trans hentry, rfl⟩

theorem Effect.kept (h : Effect s t input s')
    (hs : Kept s) (ht : TaskOk s t) (hg : notOvertaken.task s t input) : Kept s' := by
  have hold : ∀ p file, s.published p = some file → s'.published p = some file →
      s'.disk.entry p = some file ∧ ∃ o : Object, p = o.path := by
    intro p file hp hp'
    rcases h.keeps hs ht hg hp with ⟨-, hentry, -⟩ | ⟨o, rest, -, -, hnone⟩
    · exact ⟨hentry, (hs p file hp).2⟩
    · cases hnone.symm.trans hp'
  intro p file hp'
  cases h with
  | idle _ _ _ hdisk hpublished | staged _ _ _ _ _ hchange hpublished =>
    exact hold p file (hpublished ▸ hp') hp'
  | answered o =>
    by_cases hpath : p = o.path
    · subst hpath
      exact ⟨by simpa using hp', o, rfl⟩
    · exact hold p file (by simpa [update_of_ne hpath] using hp') hp'
  | removed o =>
    refine hold p file ?_ hp'
    dsimp only at hp'
    split at hp'
    · by_cases hpath : p = o.path
      · subst hpath
        simp at hp'
      · simpa [update_of_ne hpath] using hp'
    · exact hp'
  | swept => exact hold p file hp' hp'

theorem Effect.taskOk {u} (h : Effect s t input s') (hu : TaskOk s u)
    (hother : ∀ name, u.owns = some name → t.owns ≠ some name) : TaskOk s' u := by
  cases u with
  | stage a tmp =>
    refine ⟨hu.1, fun file hfile => ?_⟩
    have hopen := hu.2 file hfile
    cases h with
    | idle _ _ _ hdisk => rwa [hdisk]
    | staged a' tmp' _ _ _ hchange =>
      exact hchange.openAs (fun heq => hother tmp rfl (congrArg some heq.symm)) hopen
    | answered => exact hopen
    | removed | swept =>
      exact ⟨hopen.below, fun name hname => hopen.only name (entry_of_unlink hname)⟩
  | remove | judge | secondLook | unlink | look | check | answer | sweep => exact hu

theorem unpublishable_of_classify {name kind} (h : classify name = some kind) :
    Unpublishable name := by
  rintro o rfl
  cases (classify_path o).symm.trans h

theorem sweepOne_spec (s p name rest) :
    (sweepOne s p name rest).owns = none ∧ TaskOk s (sweepOne s p name rest) := by
  unfold sweepOne
  split
  · rename_i hkind hfile
    have hname := unpublishable_of_classify hkind
    split
    · split
      · exact ⟨rfl, trivial⟩
      · exact ⟨rfl, hname⟩
    · exact ⟨rfl, hname⟩
  · exact ⟨rfl, trivial⟩

def Drawn (s : State) (name : Name) : Prop := name ∈ s.drawn

theorem drawn_of_eq (h : s'.drawn = s.drawn) (name) (hname : Drawn s name) : Drawn s' name := by
  rwa [Drawn, h]

structure Handed (s s' : State) (t : Task) (next : List Task) : Prop where
  known : ∀ u ∈ next, TaskOk s' u
  handsOn : Program.HandsOn owns Drawn s s' t.owns next
  drawn : ∀ name, Drawn s name → Drawn s' name

theorem handed_nil (hdrawn : s'.drawn = s.drawn) : Handed s s' t [] :=
  ⟨by simp, .inl rfl, drawn_of_eq hdrawn⟩

theorem handed_one {u} (hdrawn : s'.drawn = s.drawn) (howns : u.owns = none ∨ u.owns = t.owns)
    (hu : TaskOk s' u) : Handed s s' t [u] := by
  refine ⟨by simpa using hu, ?_, drawn_of_eq hdrawn⟩
  cases hkey : u.owns with
  | none => exact .inl (by simp [hkey])
  | some name =>
    refine .inr ⟨name, by simp [hkey], .inl ?_⟩
    rcases howns with hnone | hsame
    · cases hnone.symm.trans hkey
    · exact hsame.symm.trans hkey

theorem task_step {next} (ht : TaskOk s t) (h : task s t input = some (s', next)) :
    Effect s t input s' ∧ Handed s s' t next := by
  have hidle : s'.disk = s.disk → s'.published = s.published → Effect s t input s' :=
    .idle t input s'
  unfold task at h
  split at h
  · split at h <;> cases h <;> exact ⟨hidle rfl rfl, handed_one rfl (.inl rfl) trivial⟩
  · cases h
    refine ⟨hidle rfl rfl, ?_⟩
    split
    · exact handed_one rfl (.inl rfl) trivial
    · exact handed_nil rfl
  · split at h
    · dsimp only at h
      split at h <;> cases h
      rename_i hfresh
      refine ⟨hidle rfl rfl, ?_, .inr ⟨_, rfl, .inr ⟨hfresh, mem_cons_self⟩⟩,
        fun _ hname => mem_cons_of_mem _ hname⟩
      simp only [mem_singleton, forall_eq]
      exact ⟨fun o => staging_ne_path _ _ _ _, by rintro file ⟨⟩⟩
    · cases h
      exact ⟨hidle rfl rfl, handed_nil rfl⟩
  · cases h
    exact ⟨hidle rfl rfl, handed_nil rfl⟩
  · obtain ⟨⟨d, out⟩, hadvance, heq⟩ := map_eq_some_iff.mp h
    obtain ⟨hchange, hcontinues⟩ := advance_spec ht.2 hadvance
    dsimp only at heq
    split at heq <;> cases heq <;> refine ⟨.staged _ _ _ _ _ hchange rfl, ?_⟩
    · exact handed_one rfl (.inr rfl) ⟨ht.1, hcontinues _ rfl⟩
    · exact handed_one rfl (.inl rfl) trivial
    · exact handed_nil rfl
  · cases h
    exact ⟨.answered _, handed_nil rfl⟩
  · cases h
    exact ⟨hidle rfl rfl, handed_nil rfl⟩
  · cases h
    exact ⟨.removed _ _ _,
      handed_one rfl (.inl rfl) fun name hname => ht name (mem_cons_of_mem _ hname)⟩
  · cases h
    exact ⟨hidle rfl rfl, handed_nil rfl⟩
  · cases h
    exact ⟨hidle rfl rfl, handed_nil rfl⟩
  · cases h
    obtain ⟨howns, hok⟩ := sweepOne_spec s _ _ _
    exact ⟨hidle rfl rfl, handed_one rfl (.inl howns) hok⟩
  · split at h <;> cases h <;> refine ⟨hidle rfl rfl, ?_⟩
    · exact handed_one rfl (.inl rfl) ht
    · exact handed_one rfl (.inl rfl) trivial
    · exact handed_one rfl (.inl rfl) trivial
    · split
      · exact handed_one rfl (.inl rfl) trivial
      · exact handed_one rfl (.inl rfl) ht
  · cases h
    refine ⟨hidle rfl rfl, ?_⟩
    split
    · exact handed_one rfl (.inl rfl) ht
    · exact handed_one rfl (.inl rfl) trivial
  · cases h
    exact ⟨.swept _ _, handed_one rfl (.inl rfl) trivial⟩
  · cases h
    exact ⟨hidle rfl rfl, handed_one rfl (.inl rfl) trivial⟩
  · cases h

theorem env_effect {event new} (h : env s event = some (s', new)) :
    (∀ t ∈ new, t.owns = none ∧ TaskOk s' t) ∧ s'.drawn = s.drawn ∧
      s'.disk.entry = s.disk.entry ∧ s'.disk.next = s.disk.next ∧
      ∀ p, s'.published p = s.published p ∨
        s'.published p = none ∧ ∃ o listing, event = .remove o listing ∧ p = o.path := by
  unfold env at h
  split at h
  · cases h
    exact ⟨by simp [owns, TaskOk], rfl, rfl, rfl, fun _ => .inl rfl⟩
  · rename_i o listing
    cases h
    refine ⟨?_, rfl, rfl, rfl, fun p => ?_⟩
    · simp only [mem_singleton, forall_eq]
      refine ⟨rfl, fun name hname => ?_⟩
      rcases mem_append.mp hname with hstaged | hname
      · refine .inr fun o' hpath => ?_
        rw [hpath, mem_filter, stagedFor_path] at hstaged
        cases hstaged.2
      · rcases mem_pair.mp hname with rfl | rfl
        · exact .inr (legacy_ne_path o)
        · exact .inl rfl
    · by_cases hpath : p = o.path
      · exact .inr ⟨by simp [hpath], o, listing, rfl, hpath⟩
      · exact .inl (by simp [update_of_ne hpath])
  · cases h
    exact ⟨by simp [owns, TaskOk], rfl, rfl, rfl, fun _ => .inl rfl⟩
  · split at h
    · split at h <;> cases h
      exact ⟨by simp, rfl, rfl, rfl, fun _ => .inl rfl⟩
    · cases h
  all_goals
    cases h
    exact ⟨by simp, rfl, rfl, rfl, fun _ => .inl rfl⟩

theorem keptOutline : program.OwnerOutline notOvertaken owns Drawn Kept TaskOk where
  env := by
    intro s event s' new hs _ h
    obtain ⟨hnew, hdrawn, hentry, hnext, hpublished⟩ := env_effect h
    refine ⟨fun p file hp => ?_, hnew, fun t ht => ?_, drawn_of_eq hdrawn⟩
    · rcases hpublished p with hsame | ⟨hnone, -⟩
      · rw [hentry]
        exact hs p file (hsame ▸ hp)
      · cases hnone.symm.trans hp
    · cases t with
      | stage =>
        refine ⟨ht.1, fun file hfile => ?_⟩
        have hopen := ht.2 file hfile
        exact ⟨hnext ▸ hopen.below, hentry ▸ hopen.only⟩
      | remove | judge | secondLook | unlink | look | check | answer | sweep => exact ht
  task := by
    intro s t input s' next hs ht hg h
    obtain ⟨heffect, hhanded⟩ := task_step ht h
    exact ⟨heffect.kept hs ht hg, hhanded.known, fun u hu hother => heffect.taskOk hu hother,
      hhanded.handsOn, hhanded.drawn⟩

def sparing (p : Name) : Guard State Task Event Input where
  env _ event :=
    match event with
    | .remove o _ => o.path ≠ p
    | _ => True
  task _ t _ :=
    match t with
    | .remove o _ => o.path ≠ p
    | _ => True

instance (p s event) : Decidable ((sparing p).env s event) := by
  cases event <;> dsimp only [sparing] <;> infer_instance

instance (p s t input) : Decidable ((sparing p).task s t input) := by
  cases t <;> dsimp only [sparing] <;> infer_instance

def written (file : Nat) (bytes : List UInt8) : List (Move Event Input) → List UInt8
  | [] => bytes
  | .env (.guest f offset data) :: ms =>
    written file (if f = file then writeAt offset data bytes else bytes) ms
  | _ :: ms => written file bytes ms

structure StillThere (w w' : World State Task) (p : Name) (file : Nat)
    (ms : List (Move Event Input)) : Prop where
  published : w'.shared.published p = some file
  entry : w'.shared.disk.entry p = some file
  bytes : (w'.shared.disk.files file).bytes =
    written file (w.shared.disk.files file).bytes ms

theorem env_stillThere {event new} (hs : Kept s) (hp : s.published p = some file)
    (hspared : (sparing p).env s event) (h : env s event = some (s', new)) :
    s'.published p = some file ∧ s'.disk.entry p = some file ∧
      (s'.disk.files file).bytes =
        written file (s.disk.files file).bytes [Move.env event (ι := Input)] := by
  obtain ⟨-, -, hentry, -, hpublished⟩ := env_effect h
  have hp' : s'.published p = some file := by
    rcases hpublished p with hsame | ⟨-, o, listing, rfl, hpath⟩
    · exact hsame.trans hp
    · exact absurd hpath.symm hspared
  refine ⟨hp', hentry ▸ (hs p file hp).1, ?_⟩
  unfold env at h
  split at h
  · cases h
    rfl
  · cases h
    rfl
  · cases h
    rfl
  · split at h
    · rename_i touched _
      split at h <;> cases h
      by_cases hfile : file = touched
      · subst hfile
        simp [edit, written]
      · simp [edit_files_of_ne _ hfile, written]
    · cases h
  · cases h
    rfl
  · rename_i target offset data
    cases h
    by_cases hfile : target = file
    · subst hfile
      simp [State.write, edit, written]
    · simp [State.write, edit_files_of_ne _ (Ne.symm hfile), written, hfile]

variable {w w' : World State Task}

theorem stillThere_step {m} (hw : Program.Holds Kept TaskOk w)
    (hp : w.shared.published p = some file)
    (hg : notOvertaken.Meets w m) (hspared : (sparing p).Meets w m)
    (h : program.step w m = some w') : StillThere w w' p file [m] := by
  rcases program.step_cases h with ⟨event, new, rfl, henv, -⟩ |
    ⟨index, input, t, next, rfl, ht, htask, -⟩ | ⟨index, rfl, hs, -⟩
  · obtain ⟨hp', hentry, hbytes⟩ := env_stillThere hw.1 hp hspared henv
    exact ⟨hp', hentry, hbytes⟩
  · have htOk := hw.2 t (mem_of_getElem? ht)
    rcases (task_step htOk htask).1.keeps hw.1 htOk (hg t ht) hp with
      ⟨hp', hentry, hfiles⟩ | ⟨o, rest, rfl, hpath, -⟩
    · exact ⟨hp', hentry, by rw [hfiles]; rfl⟩
    · exact absurd hpath.symm (hspared _ ht)
  · exact ⟨hs ▸ hp, hs ▸ (hw.1 p file hp).1, by rw [hs]; rfl⟩

theorem written_cons (file bytes m ms) :
    written file bytes (m :: ms) = written file (written file bytes [m]) ms := by
  cases m with
  | env event => cases event <;> rfl
  | task | crash => rfl

theorem stillThere_run {ms} (hw : Program.Holds Kept TaskOk w) (ho : Program.Owned owns Drawn w)
    (hp : w.shared.published p = some file) (hmeets : program.RunMeets notOvertaken w ms)
    (hspared : program.RunMeets (sparing p) w ms) (h : program.run w ms = some w') :
    StillThere w w' p file ms := by
  induction ms generalizing w with
  | nil =>
    cases h
    exact ⟨hp, (hw.1 p file hp).1, rfl⟩
  | cons m ms ih =>
    obtain ⟨w1, hstep, hrest⟩ := program.run_cons h
    have hfirst := stillThere_step hw hp hmeets.1 hspared.1 hstep
    obtain ⟨hw1, ho1⟩ := keptOutline.step hw ho hmeets.1 hstep
    have hlast := ih hw1 ho1 hfirst.published (hmeets.2 w1 hstep) (hspared.2 w1 hstep) hrest
    exact ⟨hlast.published, hlast.entry, by rw [hlast.bytes, hfirst.bytes, ← written_cons]⟩

def pool (disk : Disk Name File) (clock : Nat) (drawn : List Name) : World State Task :=
  ⟨⟨disk, clock, [], drawn, fun _ => none⟩, []⟩

/--
A file that was answered to a `provision`, `provision_from` or `snapshot` stays under its
path, with the bytes its guests wrote, until it is deprovisioned or dropped, in every run
in which no attempt is overtaken.
-/
theorem published_file_kept {disk : Disk Name File} {clock : Nat} {drawn : List Name}
    {ms ms' : List (Move Event Input)} {w w' : World State Task} {p : Name} {file : Nat}
    (hmeets : program.RunMeets notOvertaken (pool disk clock drawn) ms)
    (hrun : program.run (pool disk clock drawn) ms = some w) (hp : w.shared.published p = some file)
    (hmeets' : program.RunMeets notOvertaken w ms') (hspared : program.RunMeets (sparing p) w ms')
    (hrun' : program.run w ms' = some w') : StillThere w w' p file ms' := by
  have hkept : Kept (pool disk clock drawn).shared := by
    rintro p file ⟨⟩
  obtain ⟨hw, ho⟩ := keptOutline.run ⟨hkept, by simp [pool]⟩ ⟨by simp [pool], by simp [pool]⟩
    hmeets hrun
  exact stillThere_run hw ho hp hmeets' hspared hrun'

def emptyDisk : Disk Name File where
  entry _ := none
  files _ := ⟨[], 0⟩
  next := 0
  below := by rintro name file ⟨⟩
  unique := by rintro name name' file ⟨⟩

def attemptOn (host : HostTag) : Attempt :=
  ⟨⟨host, 0⟩, .provision ⟨['5'], rfl, by decide⟩ none 2⟩

def hostA : HostTag := ⟨['a'], by decide⟩
def hostB : HostTag := ⟨['b'], by decide⟩
def nonce (digit : Char) (h : isNonce (replicate 32 digit)) : Nonce :=
  ⟨replicate 32 digit, h⟩

def goesThrough (index : Nat) (digit : Char) (h : isNonce (replicate 32 digit)) :
    List (Move Event Input) :=
  [.task index (.draw (nonce digit h)), .task index .go, .task index .go, .task index .go,
    .task index .go, .task index .go, .task index .go]

def answeredOnA : List (Move Event Input) :=
  .env (.call (attemptOn hostA)) :: .task 0 .go :: goesThrough 0 '0' (by decide)

def askedAgain : List (Move Event Input) :=
  [.env (.guest 0 1 [7]), .env (.start ⟨hostB, 0⟩ [(attemptOn hostA).path]), .task 0 .go,
    .task 0 .go, .env (.call (attemptOn hostB)), .task 0 .go, .task 0 .go]

theorem published_file_kept_asked_again :
    ∃ w w', program.run (pool emptyDisk 0 []) answeredOnA = some w ∧
      program.run w askedAgain = some w' ∧
      w.shared.published (attemptOn hostA).path = some 0 ∧
      StillThere w w' (attemptOn hostA).path 0 askedAgain ∧
      (w'.shared.disk.files 0).bytes = [0, 7] := by
  refine ⟨_, _, rfl, rfl, rfl, ?_, rfl⟩
  exact published_file_kept
    (by decide : program.RunMeets notOvertaken (pool emptyDisk 0 []) answeredOnA) rfl rfl
    (by decide) (by decide) rfl

def answeredOnB : List (Move Event Input) :=
  [.env (.call (attemptOn hostA)), .task 0 .go, .env (.call (attemptOn hostB)), .task 1 .go] ++
    goesThrough 1 '1' (by decide) ++ [.env (.guest 0 1 [7])]

/-- The late attempt of `a` renames its blank file over the one the guest has written to. -/
theorem published_file_replaced :
    ∃ w w', program.run (pool emptyDisk 0 []) answeredOnB = some w ∧
      program.run w (goesThrough 0 '0' (by decide)) = some w' ∧
      w.shared.published (attemptOn hostA).path = some 0 ∧
      (w.shared.disk.files 0).bytes = [0, 7] ∧
      program.RunMeets (sparing (attemptOn hostA).path) w (goesThrough 0 '0' (by decide)) ∧
      w'.shared.disk.entry (attemptOn hostA).path = some 1 ∧
      (w'.shared.disk.files 1).bytes = [0, 0] ∧
      ¬StillThere w w' (attemptOn hostA).path 0 (goesThrough 0 '0' (by decide)) := by
  refine ⟨_, _, rfl, rfl, rfl, rfl, by decide, rfl, rfl, fun h => ?_⟩
  exact absurd h.entry (by decide)

end MeisterStack.Filesystem
