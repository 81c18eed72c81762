import Mathlib.Data.List.Infix
import Mathlib.Data.List.MinMax
import Mathlib.Data.List.Nodup
import Mathlib.Data.Prod.Lex

/-!
# The voice of a cluster

A cluster dials in with several sessions, and one of them speaks for it: the newest that has sent a
status lately, or where none has, the newest. Its list is the evidence that the cloud tears down on.
-/

namespace MeisterStack.CloudController.Voice

open List Function

abbrev DateTime := Int

def muteAfterSecs : Int := 30

structure ClusterStatus where
  vms : List String
  vmsComplete : Bool
  routers : List String
  routersComplete : Bool

structure Report where
  time : DateTime
  uids : List String
  routers : Option (List String)
  deriving DecidableEq

def Report.ofStatus (time : DateTime) (status : ClusterStatus) : Report where
  time := time
  uids := status.vms
  routers := if status.routersComplete then some status.routers else none

structure Session where
  cluster : String
  hello : DateTime
  lastStatus : Option DateTime
  report : Option Report

def Session.talking (session : Session) (now : DateTime) : Bool :=
  session.lastStatus.any fun t => decide ((now - t).tdiv 1000000000 ≤ muteAfterSecs)

structure SessionRegistry where
  sessions : List (Nat × Session)
  nextId : Nat
  nodup : (sessions.map Prod.fst).Nodup
  fresh : ∀ entry ∈ sessions, entry.1 < nextId

namespace SessionRegistry

variable (reg : SessionRegistry)

def empty : SessionRegistry := ⟨[], 0, nodup_nil, by simp⟩

variable (id : Nat)

def get : Option Session :=
  (reg.sessions.find? fun entry => entry.1 = id).map Prod.snd

def remove : SessionRegistry where
  sessions := reg.sessions.filter fun entry => entry.1 ≠ id
  nextId := reg.nextId
  nodup := reg.nodup.sublist (filter_sublist.map _)
  fresh entry h := reg.fresh entry (mem_of_mem_filter h)

def insert (session : Session) : SessionRegistry where
  sessions := (reg.nextId, session) :: reg.sessions
  nextId := reg.nextId + 1
  nodup := by
    refine nodup_cons.mpr ⟨fun h => ?_, reg.nodup⟩
    obtain ⟨entry, hentry, hid⟩ := mem_map.mp h
    exact absurd hid (Nat.ne_of_lt (reg.fresh entry hentry))
  fresh entry h := by
    rcases mem_cons.mp h with rfl | h
    · exact Nat.lt_succ_self _
    · exact Nat.lt_succ_of_lt (reg.fresh entry h)

def change (f : Session → Session) (entry : Nat × Session) : Nat × Session :=
  if entry.1 = id then (entry.1, f entry.2) else entry

theorem change_fst (id) (f : Session → Session) (entry) : (change id f entry).1 = entry.1 := by
  unfold change
  split_ifs <;> rfl

def modify (f : Session → Session) : SessionRegistry where
  sessions := reg.sessions.map (change id f)
  nextId := reg.nextId
  nodup := by
    have hkeys : Prod.fst ∘ change id f = Prod.fst := funext (change_fst id f)
    rw [map_map, hkeys]
    exact reg.nodup
  fresh entry h := by
    obtain ⟨old, hold, rfl⟩ := mem_map.mp h
    rw [change_fst]
    exact reg.fresh old hold

instance (priority := high) : LinearOrder (DateTime ×ₗ Nat) :=
  @Prod.Lex.instLinearOrder DateTime Nat Int.instLinearOrder Nat.instLinearOrder

instance (priority := high) : Preorder (DateTime ×ₗ Nat) :=
  (inferInstance : LinearOrder (DateTime ×ₗ Nat)).toPreorder

def newest (entries : List (Nat × Session)) : Option Nat :=
  (entries.argmax fun entry => toLex (entry.2.hello, entry.1)).map Prod.fst

def speaker (cluster : String) (now : DateTime) : Option Nat :=
  let mine := reg.sessions.filter fun entry => entry.2.cluster = cluster
  (newest (mine.filter fun entry => entry.2.talking now)).or (newest mine)

def reportAt (cluster : String) (now : DateTime) : Option Report :=
  (reg.speaker cluster now).bind fun id => (reg.get id).bind Session.report

def openSession (previous : Option Nat) (cluster : String) (time : DateTime) :
    Nat × SessionRegistry :=
  let kept := match previous with
    | none => reg
    | some id => reg.remove id
  (kept.nextId, kept.insert ⟨cluster, time, none, none⟩)

def recordReport (status : ClusterStatus) (time : DateTime) :
    Bool × SessionRegistry :=
  match reg.get id with
  | none => (false, reg)
  | some session =>
    let stamped := reg.modify id fun s => { s with lastStatus := some time }
    if stamped.speaker session.cluster time = some id then
      let report := if status.vmsComplete then some (Report.ofStatus time status) else none
      (true, stamped.modify id fun s => { s with report := report })
    else (false, stamped.modify id fun s => { s with report := none })

def closeSession : Option String × SessionRegistry :=
  match reg.get id with
  | none => (none, reg)
  | some gone =>
    let kept := reg.remove id
    if kept.sessions.any fun entry => entry.2.cluster = gone.cluster then (none, kept)
    else (some gone.cluster, kept)

end SessionRegistry

inductive Event where
  | openSession (previous : Option Nat) (cluster : String)
  | recordReport (id : Nat) (status : ClusterStatus)
  | closeSession (id : Nat)

def Event.isStatusOf (id : Nat) : Event → Bool
  | .recordReport id' _ => id' = id
  | _ => false

abbrev History := List (DateTime × Event)

def step (reg : SessionRegistry) : DateTime × Event → SessionRegistry
  | (time, .openSession previous cluster) => (reg.openSession previous cluster time).2
  | (time, .recordReport id status) => (reg.recordReport id status time).2
  | (_, .closeSession id) => (reg.closeSession id).2

variable (history : History)

def after : SessionRegistry := history.foldl step .empty

@[simp]
theorem after_concat (history e) : after (history ++ [e]) = step (after history) e := by
  simp [after]

namespace SessionRegistry

variable {reg : SessionRegistry} {id : Nat} {session : Session}

theorem get_of_mem (h : (id, session) ∈ reg.sessions) : reg.get id = some session := by
  have hsome : (reg.sessions.find? fun entry => entry.1 = id).isSome :=
    find?_isSome.mpr ⟨(id, session), h, by simp⟩
  obtain ⟨entry, hfound⟩ := Option.isSome_iff_exists.mp hsome
  have hid : entry.1 = id := by simpa using find?_some hfound
  have heq : entry = (id, session) :=
    inj_on_of_nodup_map reg.nodup (mem_of_find?_eq_some hfound) h hid
  simp [get, hfound, heq]

theorem ne_of_get_none (h : reg.get id = none) : ∀ entry ∈ reg.sessions, entry.1 ≠ id := by
  simpa [get] using h

theorem mem_modify {f entry} (h : entry ∈ (reg.modify id f).sessions) :
    (∃ old, (id, old) ∈ reg.sessions ∧ entry = (id, f old)) ∨
      (entry.1 ≠ id ∧ entry ∈ reg.sessions) := by
  obtain ⟨⟨id', old⟩, hold, rfl⟩ := mem_map.mp h
  unfold change
  split_ifs with hid
  · cases hid
    exact .inl ⟨old, hold, rfl⟩
  · exact .inr ⟨hid, hold⟩

theorem modify_modify (reg : SessionRegistry) (id) (f g : Session → Session) :
    (reg.modify id f).modify id g = reg.modify id (g ∘ f) := by
  have hchange : change id g ∘ change id f = change id (g ∘ f) := by
    funext entry
    simp only [comp_apply, change]
    split_ifs <;> rfl
  simp only [modify, map_map, hchange]

theorem argmax_map {α β : Type*} [LinearOrder β] {f : α → β} {g : α → α}
    (h : ∀ a, f (g a) = f a) (l : List α) : (l.map g).argmax f = (l.argmax f).map g := by
  induction l with
  | nil => rfl
  | cons a l ih =>
    rw [map_cons, argmax_cons, argmax_cons, ih]
    cases l.argmax f with
    | none => rfl
    | some =>
      simp only [Option.map_some, h]
      split_ifs <;> rfl

theorem speaker_modify_report (report cluster now) :
    (reg.modify id fun s => { s with report := report }).speaker cluster now =
      reg.speaker cluster now := by
  let g := change id fun s => { s with report := report }
  have hsame : ∀ entry, (g entry).1 = entry.1 ∧ (g entry).2.cluster = entry.2.cluster ∧
      (g entry).2.hello = entry.2.hello ∧
      (g entry).2.talking now = entry.2.talking now := by
    intro entry
    simp only [g, change]
    split_ifs <;> exact ⟨rfl, rfl, rfl, rfl⟩
  have hnewest : ∀ entries, newest (entries.map g) = newest entries := by
    intro entries
    unfold newest
    rw [argmax_map (fun entry => by rw [(hsame entry).1, (hsame entry).2.2.1]), Option.map_map]
    exact congrArg (Option.map · _) (funext fun entry => (hsame entry).1)
  simp only [speaker, modify]
  rw [filter_map, filter_map, hnewest, hnewest]
  simp only [comp_def, g] at hsame ⊢
  simp only [hsame]

theorem newest_mem {entries} (h : newest entries = some id) :
    ∃ session, (id, session) ∈ entries := by
  obtain ⟨⟨id', session⟩, hmax, rfl⟩ := Option.map_eq_some_iff.mp h
  exact ⟨session, argmax_mem hmax⟩

theorem speaker_mem {cluster now} (h : reg.speaker cluster now = some id) :
    ∃ session, (id, session) ∈ reg.sessions ∧ session.cluster = cluster := by
  have hmine : ∃ session,
      (id, session) ∈ reg.sessions.filter fun entry => entry.2.cluster = cluster := by
    rcases Option.or_eq_some_iff.mp h with htalking | ⟨-, hany⟩
    · obtain ⟨session, hsession⟩ := newest_mem htalking
      exact ⟨session, mem_of_mem_filter hsession⟩
    · exact newest_mem hany
  obtain ⟨session, hsession⟩ := hmine
  obtain ⟨hmem, hcluster⟩ := mem_filter.mp hsession
  exact ⟨session, hmem, by simpa using hcluster⟩

theorem speaker_of_alone {home}
    (h : reg.sessions.map (fun entry => (entry.1, entry.2.cluster)) = [(id, home)]) (cluster now) :
    reg.speaker cluster now = if home = cluster then some id else none := by
  obtain ⟨⟨id', session⟩, hsessions, hentry⟩ := map_eq_singleton_iff.mp h
  cases hentry
  by_cases hcluster : session.cluster = cluster <;>
    by_cases htalking : session.talking now = true <;>
    simp [speaker, newest, hsessions, hcluster, htalking]

end SessionRegistry

def Heard (cluster : String) (id : Nat) (report : Report) : Prop :=
  ∃ before status later,
    history = before ++ (report.time, .recordReport id status) :: later ∧
    status.vmsComplete ∧ report = .ofStatus report.time status ∧
    (after (before ++ [(report.time, .recordReport id status)])).speaker cluster report.time =
      some id ∧
    ∀ e ∈ later, e.2.isStatusOf id = false

def Sourced (reg : SessionRegistry) : Prop :=
  ∀ entry ∈ reg.sessions, ∀ report, entry.2.report = some report →
    Heard history entry.2.cluster entry.1 report

section Sourced

variable {history : History} {reg : SessionRegistry} {cluster : String} {id : Nat}
  {report : Report} {time : DateTime}

theorem Heard.concat (h : Heard history cluster id report) {e} (he : e.2.isStatusOf id = false) :
    Heard (history ++ [e]) cluster id report := by
  obtain ⟨before, status, later, rfl, hcomplete, hreport, hspeaker, hlast⟩ := h
  refine ⟨before, status, later ++ [e], by simp, hcomplete, hreport, hspeaker, fun e' he' => ?_⟩
  rcases mem_append.mp he' with h' | h'
  · exact hlast e' h'
  · rwa [mem_singleton.mp h']

variable (h : Sourced history reg)

include h

theorem Sourced.remove (id) : Sourced history (reg.remove id) :=
  fun entry hentry => h entry (mem_of_mem_filter hentry)

theorem Sourced.insert (session) (hnone : session.report = none) :
    Sourced history (reg.insert session) := by
  intro entry hentry report hreport
  rcases mem_cons.mp hentry with rfl | hold
  · rw [hnone] at hreport
    cases hreport
  · exact h entry hold report hreport

theorem Sourced.concat {e} (he : ∀ id, e.2.isStatusOf id = false) : Sourced (history ++ [e]) reg :=
  fun entry hentry report hreport => (h entry hentry report hreport).concat (he entry.1)

theorem Sourced.openSession (previous cluster) :
    Sourced (history ++ [(time, .openSession previous cluster)])
      (reg.openSession previous cluster time).2 := by
  refine Sourced.concat ?_ fun _ => rfl
  cases previous with
  | none => exact h.insert _ rfl
  | some id => exact (h.remove id).insert _ rfl

theorem Sourced.closeSession (id) :
    Sourced (history ++ [(time, .closeSession id)]) (reg.closeSession id).2 := by
  refine Sourced.concat ?_ fun _ => rfl
  unfold SessionRegistry.closeSession
  split
  · exact h
  · dsimp only
    split_ifs <;> exact h.remove id

theorem Sourced.modify {session} (hget : reg.get id = some session) {status f}
    (hcluster : (f session).cluster = session.cluster)
    (hreport : ∀ report, (f session).report = some report →
      Heard (history ++ [(time, .recordReport id status)]) session.cluster id report) :
    Sourced (history ++ [(time, .recordReport id status)]) (reg.modify id f) := by
  intro entry hentry report hsome
  rcases SessionRegistry.mem_modify hentry with ⟨old, hold, rfl⟩ | ⟨hid, hold⟩
  · obtain rfl : old = session := by
      simpa [hget] using (SessionRegistry.get_of_mem hold).symm
    dsimp only at hsome ⊢
    rw [hcluster]
    exact hreport report hsome
  · refine (h entry hold report hsome).concat ?_
    simpa [Event.isStatusOf] using Ne.symm hid

omit h

theorem Sourced.recordReport (h : Sourced history (after history)) (status) :
    Sourced (history ++ [(time, .recordReport id status)])
      ((after history).recordReport id status time).2 := by
  cases hget : (after history).get id with
  | none =>
    simp only [SessionRegistry.recordReport, hget]
    intro entry hentry report hreport
    refine (h entry hentry report hreport).concat ?_
    simpa [Event.isStatusOf] using Ne.symm (SessionRegistry.ne_of_get_none hget entry hentry)
  | some session =>
    by_cases hspeaks : ((after history).modify id fun s =>
        { s with lastStatus := some time }).speaker session.cluster time = some id
    · have hstep : ((after history).recordReport id status time).2 =
          ((after history).modify id fun s => { s with lastStatus := some time }).modify id
            fun s => { s with
              report := if status.vmsComplete then some (.ofStatus time status) else none } := by
        simp only [SessionRegistry.recordReport, hget, if_pos hspeaks]
      rw [hstep, SessionRegistry.modify_modify]
      refine h.modify hget rfl fun report hsome => ?_
      obtain ⟨hcomplete, rfl⟩ : status.vmsComplete ∧ .ofStatus time status = report := by
        simpa using hsome
      refine ⟨history, status, [], rfl, hcomplete, rfl, ?_, by simp⟩
      rw [after_concat]
      dsimp only [step, Report.ofStatus]
      rw [hstep, SessionRegistry.speaker_modify_report]
      exact hspeaks
    · simp only [SessionRegistry.recordReport, hget, if_neg hspeaks]
      rw [SessionRegistry.modify_modify]
      exact h.modify hget rfl fun report hsome => nomatch hsome

theorem after_sourced (history) : Sourced history (after history) := by
  induction history using reverseRecOn with
  | nil =>
    intro entry hentry
    cases hentry
  | append_singleton history e ih =>
    rw [after_concat]
    obtain ⟨time, event⟩ := e
    cases event with
    | openSession previous cluster => exact ih.openSession previous cluster
    | recordReport id status => exact ih.recordReport status
    | closeSession id => exact ih.closeSession id

theorem reportAt_heard {now} (h : (after history).reportAt cluster now = some report) :
    ∃ id, (after history).speaker cluster now = some id ∧ Heard history cluster id report := by
  obtain ⟨id, hspeaker, hget⟩ := Option.bind_eq_some_iff.mp h
  obtain ⟨session, hsession, hreport⟩ := Option.bind_eq_some_iff.mp hget
  obtain ⟨mine, hmine, rfl⟩ := SessionRegistry.speaker_mem hspeaker
  obtain rfl : mine = session := by
    simpa [hsession] using (SessionRegistry.get_of_mem hmine).symm
  exact ⟨id, hspeaker, after_sourced history _ hmine report hreport⟩

end Sourced

structure Moment (done rest : History) (now last : DateTime) : Prop where
  done_le : ∀ e ∈ done, e.1 ≤ now
  le_rest : ∀ e ∈ rest, now ≤ e.1
  le_last : now ≤ last

def HeardAgain (now : DateTime) : Prop :=
  ∀ cluster id had lost since t1 t2, history = had ++ lost ++ since →
    Moment had (lost ++ since) t1 now → Moment (had ++ lost) since t2 now → t1 ≤ t2 →
    (after had).speaker cluster t1 = some id →
    (after (had ++ lost)).speaker cluster t2 ≠ some id →
    (after history).speaker cluster now = some id →
    -- with or without the voice, but after it had the voice
    ∃ e ∈ lost ++ since, e.2.isStatusOf id

theorem moment_of_ordered {before later e now}
    (h : ((before ++ e :: later).map Prod.fst ++ [now]).Pairwise (· ≤ ·)) :
    Moment (before ++ [e]) later e.1 now := by
  simp only [map_append, map_cons, append_assoc, cons_append,
    pairwise_append, pairwise_cons, mem_append, mem_map, mem_cons] at h
  refine ⟨fun e' he' => ?_, fun e' he' => ?_, ?_⟩
  · rcases mem_append.mp he' with h' | h'
    · exact h.2.2 e'.1 ⟨e', h', rfl⟩ e.1 (.inl rfl)
    · rw [mem_singleton.mp h']
  · exact h.2.1.1 e'.1 (.inl ⟨e', he', rfl⟩)
  · exact h.2.1.1 now (.inr (.inl rfl))

/-- Where every session that has lost the voice is heard before it has it again, a report is
the last status of the session that speaks, with the whole list, and that session has spoken at
every instant since; one that lost the voice has no report but from a status sent after that. -/
theorem reportAt_spoken_since (history : History) (cluster : String) (now : DateTime)
    (hordered : (history.map Prod.fst ++ [now]).Pairwise (· ≤ ·)) (hheard : HeardAgain history now)
    (report : Report) (h : (after history).reportAt cluster now = some report) :
    ∃ id before status later,
      history = before ++ (report.time, .recordReport id status) :: later ∧
      (after history).speaker cluster now = some id ∧
      status.vmsComplete ∧ report = .ofStatus report.time status ∧
      (∀ e ∈ later, e.2.isStatusOf id = false) ∧
      (∀ since rest t, later = since ++ rest →
        Moment (before ++ (report.time, .recordReport id status) :: since) rest t now →
        (after (before ++ (report.time, .recordReport id status) :: since)).speaker cluster t =
          some id) ∧
      ∀ lost since t, history = lost ++ since → Moment lost since t now →
        (after lost).speaker cluster t ≠ some id →
        (report.time, .recordReport id status) ∈ since := by
  obtain ⟨id, hspeaker, before, status, later, hhistory, hcomplete, hreport, hspoke, hlast⟩ :=
    reportAt_heard h
  let sent : DateTime × Event := (report.time, .recordReport id status)
  have hsent : Moment (before ++ [sent]) later report.time now := by
    rw [hhistory] at hordered
    exact moment_of_ordered hordered
  -- had it lost the voice since, it would have been heard again, and the report would be younger
  have hsince : ∀ since rest t, later = since ++ rest →
      Moment (before ++ sent :: since) rest t now →
      (after (before ++ sent :: since)).speaker cluster t = some id := by
    intro since rest t hlater hmoment
    by_contra hlost
    have hsplit : before ++ sent :: since = before ++ [sent] ++ since := by simp
    have hle : report.time ≤ t := hmoment.done_le sent (by simp)
    rw [hlater] at hsent
    rw [hsplit] at hmoment hlost
    obtain ⟨e, he, hstatus⟩ := hheard cluster id (before ++ [sent]) since rest report.time t
      (by rw [hhistory, hlater]; simp [sent]) hsent hmoment hle hspoke hlost hspeaker
    have hfalse := hlast e (hlater ▸ he)
    rw [hstatus] at hfalse
    cases hfalse
  refine ⟨id, before, status, later, hhistory, hspeaker, hcomplete, hreport, hlast, hsince, ?_⟩
  intro lost since t hparts hmoment hlost
  rw [hhistory] at hparts
  rcases append_eq_append_iff.mp hparts with ⟨mid, rfl, hmid⟩ | ⟨mid, -, rfl⟩
  · cases mid with
    | nil =>
      rw [nil_append] at hmid
      exact hmid ▸ mem_cons_self ..
    | cons e mid =>
      obtain ⟨rfl, hlater⟩ := cons_eq_cons.mp hmid
      exact absurd (hsince mid since t hlater hmoment) hlost
  · simp

def seconds (n : Int) : DateTime := n * 1000000000

def fullStatus (vms : List String) : ClusterStatus := ⟨vms, true, [], true⟩

def displacedHistory : History :=
  [(seconds 0, .openSession none "c1"), (seconds 1, .openSession none "c1"),
    (seconds 10, .recordReport 0 (fullStatus ["vm-a"])),
    (seconds 12, .recordReport 1 (fullStatus ["vm-a", "vm-b"])),
    (seconds 20, .closeSession 1)]

def heardHistory : History :=
  displacedHistory ++ [(seconds 26, .recordReport 0 (fullStatus ["vm-c"]))]

theorem heardHistory_heardAgain (now) : HeardAgain heardHistory now := by
  intro cluster id had lost since t1 t2 hparts _ _ _ hspoke hlost hspeaks
  -- the session that is left speaks, whatever the time is
  have halone := @SessionRegistry.speaker_of_alone (after heardHistory) 0 "c1" (by decide) cluster
  rw [halone] at hspeaks
  obtain rfl : id = 0 := by
    split_ifs at hspeaks
    exact (Option.some.inj hspeaks).symm
  rw [append_assoc, heardHistory] at hparts
  rcases append_eq_append_iff.mp hparts with ⟨mid, -, hmid⟩ | ⟨mid, -, hmid⟩
  · rcases append_eq_singleton_iff.mp hmid.symm with ⟨rfl, hrest⟩ | ⟨rfl, hrest⟩
    · exact ⟨_, hrest ▸ mem_singleton_self _, by decide⟩
    · obtain ⟨rfl, rfl⟩ := append_eq_nil_iff.mp hrest
      have hall : heardHistory = had := by simpa [heardHistory] using hparts
      rw [append_nil, ← hall] at hlost
      exact absurd ((halone t2).trans hspeaks) hlost
  · exact ⟨_, hmid ▸ mem_append_right _ (mem_singleton_self _), by decide⟩

/-- A session that is displaced and has the voice again is heard before its list counts. -/
theorem reportAt_spoken_since_heard :
    (after heardHistory).reportAt "c1" (seconds 30) = some (.ofStatus (seconds 26)
      (fullStatus ["vm-c"])) ∧
    ∃ id, (after heardHistory).speaker "c1" (seconds 30) = some id ∧
      ∃ before status later, heardHistory =
        before ++ (seconds 26, .recordReport id status) :: later := by
  have hreport : (after heardHistory).reportAt "c1" (seconds 30) =
      some (.ofStatus (seconds 26) (fullStatus ["vm-c"])) := by decide
  obtain ⟨id, before, status, later, hhistory, hspeaker, -⟩ :=
    reportAt_spoken_since heardHistory "c1" (seconds 30) (by decide) (heardHistory_heardAgain _) _
      hreport
  exact ⟨hreport, id, hspeaker, before, status, later, hhistory⟩

/-- The voice returns to a session with the report it held when it lost the voice: the older session
reports, the newer one takes the voice with a status of its own and closes, and the cloud reads the
older session's list again. -/
theorem voice_returns_with_report :
    (displacedHistory.map Prod.fst ++ [seconds 25]).Pairwise (· ≤ ·) ∧
      (after (displacedHistory.take 3)).speaker "c1" (seconds 10) = some 0 ∧
      (after (displacedHistory.take 4)).speaker "c1" (seconds 12) = some 1 ∧
      (after displacedHistory).speaker "c1" (seconds 25) = some 0 ∧
      (∀ e ∈ displacedHistory.drop 3, e.2.isStatusOf 0 = false) ∧
      (after displacedHistory).reportAt "c1" (seconds 25) =
        some (.ofStatus (seconds 10) (fullStatus ["vm-a"])) := by
  decide

end MeisterStack.CloudController.Voice
