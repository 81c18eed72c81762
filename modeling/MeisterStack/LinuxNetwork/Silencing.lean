import MeisterStack.LinuxNetwork.Commands
import Mathlib.Data.List.Dedup
import Mathlib.Data.List.TakeWhile

/-!
# Nobody answers

What a silencing pass leaves behind. No command of it makes a leg answer, so a leg that still
answers at the end answered all the time, and was in every list the pass could read.
-/

namespace MeisterStack.LinuxNetwork

open Foundation Option Uuid Command Text Terms Script
open Script (ask must attempt each tryEach)

theorem firstWord_of_forall {text} (hne : text.toList ≠ [])
    (hwhite : ∀ c ∈ text.toList, isWhiteSpace c = false) : firstWord text = some text := by
  have hdrop : text.toList.dropWhile isWhiteSpace = text.toList := by
    rw [List.dropWhile_eq_self_iff]
    intro hpos hfirst
    simp [hwhite _ (List.getElem_mem hpos)] at hfirst
  have htake : text.toList.takeWhile (fun c => !isWhiteSpace c) = text.toList := by
    rw [List.takeWhile_eq_self_iff]
    exact fun c hc => by simp [hwhite c hc]
  simp [firstWord, hdrop, htake, hne]

theorem firstWord_idem {line word} (h : firstWord line = some word) :
    firstWord word = some word := by
  simp only [firstWord] at h
  split at h <;> cases h
  rename_i hne
  refine firstWord_of_forall (by simpa using hne) fun c hc => ?_
  have hword := List.mem_takeWhile_imp (String.toList_ofList ▸ hc)
  simpa using hword

theorem isWhiteSpace_write (id : RouterId) : ∀ c ∈ id.write, isWhiteSpace c = false := by
  have hdigit : ∀ d, isWhiteSpace (hexChar d) = false := by decide
  intro c hc
  obtain rfl | hc := mem_write hc
  · decide
  · obtain ⟨d, -, rfl⟩ := List.mem_map.mp hc
    exact hdigit d

theorem toList_routerNetns (id) : (routerNetns id).toList = netnsPrefix.toList ++ id.write := by
  simp [routerNetns, toString]

structure Plain (netns : String) : Prop where
  word : firstWord netns = some netns
  canonical : ∀ id, netnsRouterId netns = some id → netns = routerNetns id

theorem netnsRouterId_routerNetns (id) : netnsRouterId (routerNetns id) = some id := by
  have hdrop : (netnsPrefix.toList ++ id.write).dropPrefix? netnsPrefix.toList = some id.write :=
    List.dropPrefix?_eq_some_iff.mpr ⟨_, rfl, by simp⟩
  rw [netnsRouterId, toList_routerNetns, hdrop, bind_some, read_write]

theorem startsWith_routerNetns (id) : startsWith netnsPrefix (routerNetns id) := by
  rw [startsWith, toList_routerNetns, List.isPrefixOf_iff_prefix]
  exact List.prefix_append _ _

theorem plain_routerNetns (id) : Plain (routerNetns id) where
  word := by
    have hstart : ∀ c ∈ netnsPrefix.toList, isWhiteSpace c = false := by
      simp [netnsPrefix, isWhiteSpace]
    refine firstWord_of_forall (by simp [toList_routerNetns, netnsPrefix]) fun c hc => ?_
    rw [toList_routerNetns, List.mem_append] at hc
    exact hc.elim (hstart c) (isWhiteSpace_write id c)
  canonical id' hid := by
    rw [netnsRouterId_routerNetns, Option.some.injEq] at hid
    rw [hid]

theorem mem_inOrder {id ids} : id ∈ inOrder ids ↔ id ∈ ids := by
  rw [inOrder, List.mem_dedup, List.mem_insertionSort]

def Command.silencing : Command → Prop
  | .setArp _ _ mode => mode = arpIgnore false
  | .storeRecord _ => True
  | c => c.harmless

variable {c : Command}

theorem Command.harmless.silencing (h : c.harmless) : c.silencing := by
  cases c <;> first | exact h | exact h.elim

theorem Command.silencing.quiet (h : c.silencing) (host) : c.quiet host := by
  cases c <;> first | exact h | exact trivial | exact h.elim

def Accepts (T : Terms Command Host Info) (c : Command) : Prop :=
  ∀ fate, T.may c fate → fate.ok

structure Silences (T : Terms Command Host Info) : Prop where
  within : T.Within Shrinks
  refl : ∀ h, T.rely h h
  guar : ∀ c fate h, c.silencing → T.may c fate → T.guar c h (world.perform c fate h).2

variable {T : Terms Command Host Info} {h : Host} {netns : String} {l : Leg}

theorem not_answers_setArp (info) :
    ¬(effect (.setArp netns l (arpIgnore false)) info h).Answers netns l := by
  rintro ⟨mode, hmode, hne⟩
  simp only [effect, Host.leg_modify, if_true, Netns.leg_setLeg, mem_def,
    bind_eq_some_iff] at hmode
  obtain ⟨n, -, hleg⟩ := hmode
  exact hne (by simpa using hleg.symm)

theorem Host.Answers.lookup (hans : h.Answers netns l) : ∃ n, h.netns.lookup netns = some n ∧
    l ∈ n.legs := by
  obtain ⟨mode, hmode, -⟩ := hans
  simp only [Host.leg, mem_def, bind_eq_some_iff] at hmode
  obtain ⟨n, hn, hleg⟩ := hmode
  refine ⟨n, hn, List.mem_filter.mpr ⟨?_, by simp [hleg]⟩⟩
  cases l <;> simp [routerLegs]

def Silent (netns : String) (h : Host) : Prop := ∀ l, ¬h.Answers netns l

def Reduced (T : Terms Command Host Info) (netns : String) (h : Host) : Prop :=
  ∀ l, Accepts T (.linkShow netns) → Accepts T (.setArp netns l (arpIgnore false)) →
    ¬h.Answers netns l

variable {h' : Host}

theorem Silent.mono (hsilent : Silent netns h) (hshrinks : Shrinks h h') :
    Silent netns h' := fun l hans => hsilent l (hshrinks netns l hans)

theorem Reduced.mono (hreduced : Reduced T netns h) (hshrinks : Shrinks h h') :
    Reduced T netns h' :=
  fun l hlook hset hans => hreduced l hlook hset (hshrinks netns l hans)

theorem Silent.reduced (hsilent : Silent netns h) : Reduced T netns h := fun l _ _ => hsilent l

variable (hT : Silences T)

include hT

theorem setArp_holds (h : Host) :
    T.Holds world (fun _ h' => ¬h'.Answers netns l)
      (fun _ h' => Accepts T (.setArp netns l (arpIgnore false)) → ¬h'.Answers netns l)
      (need (.setArp netns l (arpIgnore false))) h := by
  refine holds_must fun h1 _ fate hmay => ⟨hT.guar _ _ _ rfl hmay, fun h2 hrely => ?_⟩
  have hshrinks := hT.within.rely _ _ hrely
  obtain ⟨r, -, -, -, hp⟩ | ⟨-, hok, -, hp⟩ | ⟨himpossible, hp⟩ :=
    world.perform_cases (.setArp netns l (arpIgnore false)) fate h1
  · rw [hp] at hshrinks ⊢
    exact ⟨fun _ _ hans => not_answers_setArp fate.info (hshrinks _ _ hans), by simp⟩
  · rw [hp]
    exact ⟨by simp, fun _ haccepts => by simp [haccepts fate hmay] at hok⟩
  · rw [hp] at hshrinks ⊢
    refine ⟨by simp, fun _ haccepts hans => ?_⟩
    obtain ⟨mode, hmode, -⟩ := hshrinks _ _ hans
    rcases himpossible with himpossible | ⟨hok, -⟩
    · simp [world, possible, mem_def.mp hmode] at himpossible
    · simp [haccepts fate hmay] at hok

theorem setArpMode_holds (legs) (h : Host) :
    T.Holds world (fun _ h' => ∀ l ∈ legs, ¬h'.Answers netns l)
      (fun _ h' => ∀ l ∈ legs, Accepts T (.setArp netns l (arpIgnore false)) →
        ¬h'.Answers netns l) (setArpMode netns legs false) h := by
  have hkeep : ∀ (l : Leg) (h h' : Host), Shrinks h h' → ¬h.Answers netns l → ¬h'.Answers netns l :=
    fun l h h' hshrinks hsilent hans => hsilent (hshrinks netns l hans)
  have hleg : ∀ l h', T.Holds world (fun _ h' => ¬h'.Answers netns l)
      (fun _ h' => Accepts T (.setArp netns l (arpIgnore false)) → ¬h'.Answers netns l)
      (do let _ ← need (.setArp netns l (arpIgnore false))) h' := by
    intro l h'
    refine (setArp_holds hT h').bind hT.refl fun _ h1 hsilent => ?_
    exact fun h2 hrely => hkeep l _ _ (hT.within.rely _ _ hrely) hsilent
  refine (holds_tryEach hT.within hT.refl hkeep ?_ fun l _ h' _ => hleg l h').imp ?_ ?_
  · exact fun l h h' hshrinks hrefused haccepts => hkeep l h h' hshrinks (hrefused haccepts)
  · exact fun _ _ hdone => hdone
  · exact fun _ h' hdone l hl haccepts => (hdone l hl).elim id fun hrefused => hrefused haccepts

theorem silenceLegs_holds (netns) (h : Host) :
    T.Holds world (fun _ => Silent netns) (fun _ => Reduced T netns) (silenceLegs netns) h := by
  have hlook : T.Holds world (fun legs h' => ∀ l, h'.Answers netns l → l ∈ legs)
      (fun _ => Reduced T netns) (need (.linkShow netns)) h := by
    refine holds_must fun h1 _ fate hmay => ⟨hT.guar _ _ _ trivial hmay, fun h2 hrely => ?_⟩
    rw [perform_harmless (c := .linkShow netns) trivial] at hrely
    have hshrinks := hT.within.rely _ _ hrely
    obtain ⟨r, -, -, rfl, hp⟩ | ⟨-, hok, -, hp⟩ | ⟨himpossible, hp⟩ :=
      world.perform_cases (.linkShow netns) fate h1
    · rw [hp]
      refine ⟨fun r hr l hans => ?_, by simp⟩
      obtain ⟨n, hn, hl⟩ := (hshrinks _ _ hans).lookup
      cases hr
      simpa [world, answer, hn] using hl
    · rw [hp]
      exact ⟨by simp, fun _ l haccepts => by simp [haccepts fate hmay] at hok⟩
    · rw [hp]
      refine ⟨by simp, fun _ l haccepts _ hans => ?_⟩
      obtain ⟨n, hn, -⟩ := (hshrinks _ _ hans).lookup
      rcases himpossible with himpossible | ⟨hok, -⟩
      · simp [world, possible, hn] at himpossible
      · simp [haccepts fate hmay] at hok
  refine hlook.bind hT.refl fun legs h1 hlegs => ?_
  refine ((setArpMode_holds hT legs h1).within hT.within).imp ?_ ?_
  · rintro _ h' ⟨hdone, hshrinks⟩ l hans
    exact hdone l (hlegs l (hshrinks netns l hans)) hans
  · rintro _ h' ⟨hdone, hshrinks⟩ l - haccepts hans
    exact hdone l (hlegs l (hshrinks netns l hans)) haccepts hans

theorem Silences.holds {α : Type} {m : Act α} (hm : m.Issues silencing)
    (h : Host) : T.Holds world (fun _ _ => True) (fun _ _ => True) m h :=
  hm.holds (fun _ _ _ _ => trivial) (fun c h fate hc hmay _ => ⟨hT.guar c fate h hc hmay, trivial⟩)
    trivial

theorem silenceNetnsAndRecord_holds (id) {live}
    (habsent : ∀ names, live = some names → routerNetns id ∉ names → Silent (routerNetns id) h) :
    T.Holds world (fun _ => Silent (routerNetns id)) (fun _ => Reduced T (routerNetns id))
      (silenceNetnsAndRecord id live) h := by
  have hkernel : T.Holds world (fun _ => Silent (routerNetns id))
      (fun _ => Reduced T (routerNetns id)) (if live.any (routerNetns id ∉ ·) then pure ()
        else silenceLegs (routerNetns id) : Act Unit) h := by
    split
    · rename_i hlive
      obtain ⟨names, rfl, hnot⟩ := (any_eq_true _ _).mp hlive
      exact fun h' hrely => (habsent _ rfl (by simpa using hnot)).mono (hT.within.rely _ _ hrely)
    · exact silenceLegs_holds hT _ h
  refine (hkernel.came hT.within).bind hT.refl fun kernel h1 hcame => ?_
  have hissues := withdrawClaim_issues (fun _ => harmless.silencing) (fun _ => trivial) id
    activeClaim
  refine ((hT.holds hissues h1).came hT.within).bind hT.refl fun record h2 hrecord => ?_
  cases kernel with
  | error =>
    exact fun h3 hrely => (hcame.1.mono hrecord.2).mono (hT.within.rely _ _ hrely)
  | ok _ =>
    have hsilent := hcame.1.mono hrecord.2
    cases record with
    | ok _ => exact fun h3 hrely => hsilent.mono (hT.within.rely _ _ hrely)
    | error _ => exact fun h3 hrely => (hsilent.mono (hT.within.rely _ _ hrely)).reduced

theorem silenceUnnamed_holds (unnamed) (h : Host) :
    T.Holds world (fun _ h' => ∀ netns ∈ unnamed, Silent netns h')
      (fun _ h' => ∀ netns ∈ unnamed, Reduced T netns h') (silenceUnnamed unnamed) h := by
  have hsift : T.Holds world
      (fun r h' => ∀ netns ∈ unnamed, Silent netns h' ∨ netns ∈ r.2 ∧ Reduced T netns h')
      (fun _ h' => ∀ netns ∈ unnamed, Reduced T netns h') (sift silenceLegs unnamed) h :=
    holds_sift hT.within hT.refl (fun _ _ _ hshrinks hsilent => hsilent.mono hshrinks)
      (fun _ _ _ hshrinks hreduced => hreduced.mono hshrinks)
      fun netns _ h' _ => silenceLegs_holds hT netns h'
  refine hsift.bind hT.refl fun outcomes h1 hdone => ?_
  split
  · rename_i hnone
    intro h2 hrely netns hnetns
    obtain hsilent | ⟨hfailed, -⟩ := hdone netns hnetns
    · exact hsilent.mono (hT.within.rely _ _ hrely)
    · simp [hnone] at hfailed
  · intro h2 hrely netns hnetns
    refine Reduced.mono ?_ (hT.within.rely _ _ hrely)
    exact (hdone netns hnetns).elim Silent.reduced And.right

omit hT

def Reached (live records : Except Fault (List String)) (netns : String) : Prop :=
  (∃ names, live = .ok names) ∧ startsWith netnsPrefix netns ∨
    ∃ files id, records = .ok files ∧ id ∈ files.filterMap parse ∧ netns = routerNetns id

def Left (T : Terms Command Host Info) (live records : Except Fault (List String))
    (kept : List RouterId) (h : Host) : Prop :=
  ∀ netns, Plain netns → Reached live records netns →
    Reduced T netns h ∨ ∃ id ∈ kept, netnsRouterId netns = some id

def Lists (h : Host) (names : List String) : Prop :=
  ∀ netns l, h.Answers netns l → startsWith netnsPrefix netns →
    firstWord netns = some netns → netns ∈ names

def Accounted (kept failed : List RouterId) (h : Host) : Prop :=
  ∀ netns l, h.Answers netns l → startsWith netnsPrefix netns → Plain netns →
    ∃ id, netnsRouterId netns = some id ∧ (id ∈ kept ∨ id ∈ failed)

section Targets

variable {live records : Except Fault (List String)} {kept failed : List RouterId}
  {names : List String}

abbrev targetsOf (live records : Except Fault (List String)) : List RouterId × List String :=
  silencingTargets (records.toOption.getD []) (live.toOption.getD [])

theorem mem_targets_of_live {id} (hlive : live = .ok names) (hid : netnsRouterId netns = some id)
    (hnetns : netns ∈ names) : id ∈ (targetsOf live records).1 := by
  subst hlive
  rw [targetsOf, silencingTargets, mem_inOrder, List.mem_append]
  exact .inr (List.mem_filterMap.mpr ⟨netns, hnetns, hid⟩)

theorem mem_targets_of_record {files id} (hrecords : records = .ok files)
    (hid : id ∈ files.filterMap parse) : id ∈ (targetsOf live records).1 := by
  subst hrecords
  rw [targetsOf, silencingTargets, mem_inOrder, List.mem_append]
  exact .inl hid

theorem mem_unnamed (hlive : live = .ok names) (hid : netnsRouterId netns = none)
    (hnetns : netns ∈ names) : netns ∈ (targetsOf live records).2 := by
  subst hlive
  exact List.mem_filter.mpr ⟨hnetns, by simp [hid]⟩

theorem Left.mono {h'} (hleft : Left T live records kept h) (hshrinks : Shrinks h h') :
    Left T live records kept h' :=
  fun netns hplain hreached => (hleft netns hplain hreached).imp_left fun hr => hr.mono hshrinks

theorem Accounted.mono {h'} (haccounted : Accounted kept failed h) (hshrinks : Shrinks h h') :
    Accounted kept failed h' :=
  fun netns l hans => haccounted netns l (hshrinks netns l hans)

theorem Lists.silent {h'} (hlists : Lists h names) (hshrinks : Shrinks h h')
    (hstarts : startsWith netnsPrefix netns) (hword : firstWord netns = some netns)
    (hnot : netns ∉ names) : Silent netns h' :=
  fun l hans => hnot (hlists netns l (hshrinks netns l hans) hstarts hword)

variable {h' : Host}
  (hlive : ∀ names, live = .ok names → Lists h names) (hshrinks : Shrinks h h')
  (hrouters : ∀ id ∈ (targetsOf live records).1,
    id ∉ kept → Silent (routerNetns id) h' ∨ id ∈ failed ∧ Reduced T (routerNetns id) h')

include hlive hshrinks hrouters

theorem left_of_done
    (hunnamed : ∀ netns ∈ (targetsOf live records).2, Reduced T netns h') :
    Left T live records kept h' := by
  have htarget : ∀ id ∈ (targetsOf live records).1,
      Reduced T (routerNetns id) h' ∨ ∃ id' ∈ kept, netnsRouterId (routerNetns id) = some id' := by
    intro id hid
    by_cases hkept : id ∈ kept
    · exact .inr ⟨id, hkept, netnsRouterId_routerNetns id⟩
    · exact .inl ((hrouters id hid hkept).elim Silent.reduced And.right)
  rintro netns hplain (⟨⟨names, hnames⟩, hstarts⟩ | ⟨files, id, hfiles, hid, rfl⟩)
  · by_cases hmem : netns ∈ names
    · cases hname : netnsRouterId netns with
      | none => exact .inl (hunnamed netns (mem_unnamed hnames hname hmem))
      | some id =>
        have heq := hplain.canonical id hname
        have hdone := htarget id (mem_targets_of_live hnames hname hmem)
        rwa [← heq, hname] at hdone
    · exact .inl ((hlive names hnames).silent hshrinks hstarts hplain.word hmem).reduced
  · exact htarget id (mem_targets_of_record hfiles hid)

theorem accounted_of_done (hnames : live = .ok names)
    (hunnamed : ∀ netns ∈ (targetsOf live records).2, Silent netns h') :
    Accounted kept failed h' := by
  intro netns l hans hstarts hplain
  have hmem := hlive names hnames netns l (hshrinks netns l hans) hstarts hplain.word
  cases hname : netnsRouterId netns with
  | none => exact absurd hans (hunnamed netns (mem_unnamed hnames hname hmem) l)
  | some id =>
    have heq := hplain.canonical id hname
    by_cases hkept : id ∈ kept
    · exact ⟨id, rfl, .inl hkept⟩
    · obtain hsilent | ⟨hfailed, -⟩ :=
        hrouters id (mem_targets_of_live hnames hname hmem) hkept
      · exact absurd (heq ▸ hans) (hsilent l)
      · exact ⟨id, rfl, .inr hfailed⟩

end Targets

variable {live : Except Fault (List String)}

theorem silenceEach_holds (hT : Silences T)
    (hlive : ∀ names, live = .ok names → Lists h names) (ids)
    {stop : Fault → Host → Prop} :
    T.Holds world (fun r h' => ∀ id ∈ ids,
      Silent (routerNetns id) h' ∨ id ∈ r.2 ∧ Reduced T (routerNetns id) h') stop
      (silenceEach live.toOption ids) h := by
  refine holds_sift hT.within hT.refl (fun _ _ _ hshrinks hsilent => hsilent.mono hshrinks)
    (fun _ _ _ hshrinks hreduced => hreduced.mono hshrinks) fun id _ h' hshrinks => ?_
  refine silenceNetnsAndRecord_holds hT id fun names hnames hnot => ?_
  obtain rfl : live = .ok names := by
    cases live with
    | ok => simpa [Except.toOption] using hnames
    | error => cases hnames
  exact (hlive names rfl).silent hshrinks (startsWith_routerNetns id)
    (plain_routerNetns id).word hnot

variable {records : Except Fault (List String)}

theorem silenceAll_holds (hT : Silences T) {kept}
    (hlive : ∀ names, live = .ok names → Lists h names) :
    T.Holds world
      (fun outcome h' => outcome.kept = kept ∧ Accounted kept outcome.failed h' ∧
        Left T live records kept h')
      (fun _ h' => Left T live records kept h') (silenceAll live records kept) h := by
  refine ((silenceEach_holds hT hlive _).since hT.within).bind hT.refl fun outcomes h1 h1' => ?_
  refine ((silenceUnnamed_holds hT _ h1).came hT.within).bind hT.refl fun unnamed h2 h2' => ?_
  have hshrinks : Shrinks h h2 := h1'.2.trans h2'.2
  have hrouters : ∀ id ∈ (targetsOf live records).1, id ∉ kept →
      Silent (routerNetns id) h2 ∨ id ∈ outcomes.2 ∧ Reduced T (routerNetns id) h2 := by
    intro id hid hkept
    have hdone := h1'.1 id (List.mem_filter.mpr ⟨hid, by simpa using hkept⟩)
    exact hdone.imp (fun hs => hs.mono h2'.2) fun hr => ⟨hr.1, hr.2.mono h2'.2⟩
  have hleft : Left T live records kept h2 := by
    refine left_of_done hlive hshrinks hrouters ?_
    cases unnamed with
    | ok => exact fun netns hnetns => (h2'.1 netns hnetns).reduced
    | error => exact h2'.1
  have hstay : ∀ h3, T.rely h2 h3 → Left T live records kept h3 :=
    fun h3 hrely => hleft.mono (hT.within.rely _ _ hrely)
  -- each list that was not read stops the pass here, and so does a namespace without a router
  cases live with
  | error => exact hstay
  | ok =>
    cases records with
    | error => exact hstay
    | ok =>
      cases unnamed with
      | error => exact hstay
      | ok _ =>
        intro h3 hrely
        have haccounted := accounted_of_done hlive hshrinks hrouters rfl h2'.1
        exact ⟨rfl, haccounted.mono (hT.within.rely _ _ hrely), hstay h3 hrely⟩

theorem lists_listedNetns (h : Host) : Lists h (listedNetns h.netns.keys) := by
  intro netns l hans hstarts hword
  obtain ⟨n, hn, -⟩ := hans.lookup
  have hkey : netns ∈ h.netns.keys := AList.mem_keys.mpr (AList.lookup_isSome.mp (by simp [hn]))
  exact List.mem_filter.mpr ⟨List.mem_filterMap.mpr ⟨netns, hkey, hword⟩, hstarts⟩

theorem Lists.mono {names} (hlists : Lists h names) (hshrinks : Shrinks h h') : Lists h' names :=
  fun netns l hans => hlists netns l (hshrinks netns l hans)

section Pass

variable (hT : Silences T)
  (htrans : ∀ h1 h2 h3 : Host, T.rely h1 h2 → T.rely h2 h3 → T.rely h1 h3)

include hT htrans

theorem look_holds {c} (hc : c.silencing) (hlook : ∀ info h, effect c info h = h)
    (hpossible : ∀ h, possible c h) {e : Fault} :
    T.Holds world
      (fun r h' => ∃ h1 fate, T.rely h h1 ∧ T.rely h1 h' ∧ T.may c fate ∧ fate.ok ∧
        r = answer c fate.info h1)
      (fun _ h' => T.rely h h' ∧ ¬Accepts T c) (must e c) h := by
  refine holds_must fun h1 hrely fate hmay => ⟨hT.guar _ _ _ hc hmay, fun h2 hrely' => ?_⟩
  obtain ⟨r, -, hok, rfl, hp⟩ | ⟨-, hok, -, hp⟩ | ⟨himpossible, hp⟩ := world.perform_cases c fate h1
  · rw [hp] at hrely' ⊢
    replace hrely' : T.rely h1 h2 := (hlook fate.info h1) ▸ hrely'
    refine ⟨fun r hr => ⟨h1, fate, hrely, hrely', hmay, hok, ?_⟩, by simp⟩
    simpa [world] using hr.symm
  · rw [hp] at hrely' ⊢
    replace hrely' : T.rely h1 h2 := (hlook fate.info h1) ▸ hrely'
    refine ⟨by simp, fun _ => ⟨htrans _ _ _ hrely hrely', fun hacc => ?_⟩⟩
    simp [hacc fate hmay] at hok
  · rw [hp] at hrely' ⊢
    refine ⟨by simp, fun _ => ⟨htrans _ _ _ hrely hrely', fun hacc => ?_⟩⟩
    rcases himpossible with himpossible | ⟨hok, -⟩
    · simp [world, hpossible] at himpossible
    · simp [hacc fate hmay] at hok

theorem netnsPresent_holds :
    T.Holds world (fun names h' => T.rely h h' ∧ Lists h' names)
      (fun _ h' => T.rely h h' ∧ ¬Accepts T .netnsList) netnsPresent h := by
  refine (look_holds hT htrans (c := .netnsList) trivial (fun _ _ => rfl) fun _ => rfl).bind
    hT.refl fun lines h1 hlines => ?_
  obtain ⟨h0, fate, hrely, hrely', -, -, rfl⟩ := hlines
  intro h2 hrely''
  refine ⟨htrans _ _ _ hrely (htrans _ _ _ hrely' hrely''), ?_⟩
  exact (lists_listedNetns h0).mono (hT.within.rely _ _ (htrans _ _ _ hrely' hrely''))

variable {stop : Fault → Host → Prop}

theorem readRecord_holds (stem) :
    T.Holds world
      (fun file h' => T.rely h h' ∧ ∀ f, file = some f → ∃ h1 fate, T.rely h h1 ∧
        T.may (.readRecord stem) fate ∧ fate.ok ∧ f = readFile h1 stem) stop
      (readRecord stem) h := by
  intro h1 hrely fate hmay
  refine ⟨hT.guar _ _ _ trivial hmay, fun h2 hrely' => ?_⟩
  obtain ⟨r, -, hok, rfl, hp⟩ | ⟨-, -, -, hp⟩ | ⟨-, hp⟩ :=
    world.perform_cases (.readRecord stem) fate h1
  · rw [hp] at hrely' ⊢
    refine ⟨htrans _ _ _ hrely hrely', fun f hf => ⟨h1, fate, hrely, hmay, hok, ?_⟩⟩
    simpa [world, answer] using hf.symm
  all_goals
    rw [hp] at hrely' ⊢
    exact ⟨htrans _ _ _ hrely hrely', by simp⟩

theorem routersNobodyTakesOver_holds {K : RouterId → Prop}
    (hkept : ∀ h1, T.rely h h1 → ∀ stem id fate, parse stem = some id →
      T.may (.readRecord stem) fate → fate.ok →
      keepsAnswering (readFile h1 stem) → K id) (files) :
    T.Holds world (fun kept h' => T.rely h h' ∧ ∀ id ∈ kept, K id) stop
      (routersNobodyTakesOver files) h := by
  induction files generalizing h with
  | nil => exact fun h' hrely => ⟨hrely, by simp⟩
  | cons stem files ih =>
    cases hstem : parse stem with
    | none =>
      simp only [routersNobodyTakesOver, hstem]
      exact ih hkept
    | some id =>
      simp only [routersNobodyTakesOver, hstem]
      refine (readRecord_holds hT htrans stem).bind hT.refl fun file h1 hfile => ?_
      have hrest := ih fun h2 hrely => hkept h2 (htrans _ _ _ hfile.1 hrely)
      refine hrest.bind hT.refl fun kept h2 hrest h3 hrely => ?_
      refine ⟨htrans _ _ _ hfile.1 (htrans _ _ _ hrest.1 hrely), ?_⟩
      split
      · rename_i hany
        obtain ⟨f, rfl, hkeeps⟩ := (any_eq_true _ _).mp hany
        obtain ⟨h0, fate, hrely0, hmay, hok, rfl⟩ := hfile.2 f rfl
        have hid := hkept h0 hrely0 stem id fate hstem hmay hok hkeeps
        exact List.forall_mem_cons.mpr ⟨hid, hrest.2⟩
      · exact hrest.2

def Reachable (T : Terms Command Host Info) (h : Host) (netns : String) : Prop :=
  Accepts T .netnsList ∧ startsWith netnsPrefix netns ∨
    Accepts T .recordFiles ∧ ∃ id, netns = routerNetns id ∧
      ∀ h1, T.rely h h1 → id ∈ h1.records.keys.filterMap parse

def Swept (T : Terms Command Host Info) (h : Host) (K : RouterId → Prop) (h' : Host) : Prop :=
  ∀ netns, Plain netns → Reachable T h netns →
    Reduced T netns h' ∨ ∃ id, K id ∧ netnsRouterId netns = some id

theorem fallSilent_holds {K : RouterId → Prop}
    (hkept : ∀ h1, T.rely h h1 → ∀ stem id fate, parse stem = some id →
      T.may (.readRecord stem) fate → fate.ok →
      keepsAnswering (readFile h1 stem) → K id) :
    T.Holds world
      (fun outcome h' => Accounted outcome.kept outcome.failed h' ∧ (∀ id ∈ outcome.kept, K id) ∧
        Swept T h K h')
      (fun _ h' => Swept T h K h') fallSilent h := by
  have hnames : T.Holds world
      (fun live h' => T.rely h h' ∧ (∀ names, live = .ok names → Lists h' names) ∧
        (Accepts T .netnsList → ∃ names, live = .ok names))
      (fun _ h' => Swept T h K h') netnsPresent.attempt h :=
    (netnsPresent_holds hT htrans).attempt
      (fun names h' hl => ⟨hl.1, fun _ heq => by cases heq; exact hl.2, fun _ => ⟨names, rfl⟩⟩)
      fun e h' hl => ⟨hl.1, by simp, fun haccepts => absurd haccepts hl.2⟩
  refine hnames.bind hT.refl fun live h1 hlive => ?_
  have hfiles : T.Holds world
      (fun records h' => T.rely h1 h' ∧ (Accepts T .recordFiles →
        ∃ h0, T.rely h1 h0 ∧ records = .ok h0.records.keys))
      (fun _ h' => Swept T h K h') (need .recordFiles).attempt h1 := by
    refine (look_holds hT htrans (c := .recordFiles) trivial (fun _ _ => rfl) fun _ => rfl).attempt
      ?_ fun e h' hl => ⟨hl.1, fun haccepts => absurd haccepts hl.2⟩
    rintro files h' ⟨h0, fate, hrely, hrely', -, -, rfl⟩
    exact ⟨htrans _ _ _ hrely hrely', fun _ => ⟨h0, hrely, rfl⟩⟩
  refine hfiles.bind hT.refl fun records h2 hrecords => ?_
  have hto2 := htrans _ _ _ hlive.1 hrecords.1
  refine (routersNobodyTakesOver_holds hT htrans
    (fun h3 hrely => hkept h3 (htrans _ _ _ hto2 hrely)) _).bind hT.refl fun kept h3 hkept3 => ?_
  have hlists : ∀ names, live = .ok names → Lists h3 names := fun names hnames =>
    (hlive.2.1 names hnames).mono
      (hT.within.rely _ _ (htrans _ _ _ hrecords.1 hkept3.1))
  have hK : ∀ id ∈ inOrder kept, K id := fun id hid => hkept3.2 id (mem_inOrder.mp hid)
  have hswept : ∀ h', Left T live records (inOrder kept) h' → Swept T h K h' := by
    intro h' hleft netns hplain hreach
    refine (hleft netns hplain ?_).imp_right fun ⟨id, hid, hname⟩ => ⟨id, hK id hid, hname⟩
    rcases hreach with ⟨haccepts, hstarts⟩ | ⟨haccepts, id, rfl, hid⟩
    · exact .inl ⟨hlive.2.2 haccepts, hstarts⟩
    · obtain ⟨h0, hrely, hfiles⟩ := hrecords.2 haccepts
      exact .inr ⟨_, id, hfiles, hid h0 (htrans _ _ _ hlive.1 hrely), rfl⟩
  refine (silenceAll_holds hT hlists).imp ?_ fun _ h' hleft => hswept h' hleft
  rintro outcome h' ⟨hkept', haccounted, hleft⟩
  exact ⟨hkept' ▸ haccounted, hkept' ▸ hK, hswept h' hleft⟩

end Pass

variable (oracle : Oracle Command Info)

def alone : Terms Command Host Info where
  may c fate := ∃ k, oracle k c = fate
  rely h h' := h' = h
  guar _ h h' := Shrinks h h'

theorem may_alone (oracle k c) :
    (alone oracle).may c (oracle k c) := ⟨k, rfl⟩

theorem silences_alone (oracle) : Silences (alone oracle) where
  within :=
    { refl := Shrinks.refl
      trans := fun _ _ _ h h' => h.trans h'
      rely := fun h _ heq => heq ▸ Shrinks.refl h
      guar := fun _ _ _ hshrinks => hshrinks }
  refl _ := rfl
  guar _ fate _ hc _ := shrinks_perform (hc.quiet _) fate

def ReadAsKept (h : Host) (id : RouterId) : Prop :=
  ∃ stem spec, parse stem = some id ∧ h.records.lookup stem = some (some spec) ∧
    spec.active ∧ spec.soleGateway ∧ ∃ k, (oracle k (.readRecord stem)).ok

def InAList (h : Host) (netns : String) : Prop :=
  (∀ k, (oracle k .netnsList).ok) ∧ startsWith netnsPrefix netns ∨
    (∀ k, (oracle k .recordFiles).ok) ∧
      ∃ id, netns = routerNetns id ∧ id ∈ h.records.keys.filterMap parse

structure LeavesNobody (oracle : Oracle Command Info) (h : Host) : Prop where
  kept : ∀ outcome, (world.run oracle fallSilent h).1 = .ok outcome →
    ∀ id ∈ outcome.kept, ReadAsKept oracle h id
  complete : ∀ outcome, (world.run oracle fallSilent h).1 = .ok outcome →
    outcome.complete → ∀ netns l, (world.run oracle fallSilent h).2.Answers netns l →
      startsWith netnsPrefix netns → ∃ id ∈ outcome.kept, netnsRouterId netns = some id
  reached : ∀ netns l, InAList oracle h netns → (∀ k, (oracle k (.linkShow netns)).ok) →
    (∀ k, (oracle k (.setArp netns l (arpIgnore false))).ok) →
    (world.run oracle fallSilent h).2.Answers netns l →
      ∃ id, ReadAsKept oracle h id ∧ netnsRouterId netns = some id

theorem accepts_alone {oracle} (hok : ∀ k, (oracle k c).ok) : Accepts (alone oracle) c := by
  rintro _ ⟨k, rfl⟩
  exact hok k

theorem reachable_alone {oracle} (hin : InAList oracle h netns) :
    Reachable (alone oracle) h netns := by
  refine hin.imp (fun hl => ⟨accepts_alone hl.1, hl.2⟩) fun hl => ⟨accepts_alone hl.1, ?_⟩
  obtain ⟨id, hnetns, hid⟩ := hl.2
  exact ⟨id, hnetns, fun h1 heq => heq ▸ hid⟩

theorem fallSilent_alone (oracle) (h : Host) :
    (alone oracle).Holds world
      (fun outcome h' => Accounted outcome.kept outcome.failed h' ∧
        (∀ id ∈ outcome.kept, ReadAsKept oracle h id) ∧
        Swept (alone oracle) h (ReadAsKept oracle h) h')
      (fun _ h' => Swept (alone oracle) h (ReadAsKept oracle h) h') fallSilent h := by
  refine fallSilent_holds (silences_alone oracle) (fun _ _ _ h1 h2 => h2.trans h1) ?_
  rintro _ rfl stem id fate hstem ⟨k, rfl⟩ hok hkeeps
  unfold readFile at hkeeps
  split at hkeeps
  · cases hkeeps
  · cases hkeeps
  · rename_i spec hspec
    simp only [keepsAnswering, Bool.and_eq_true] at hkeeps
    exact ⟨stem, spec, hstem, hspec, hkeeps.1, hkeeps.2, k, hok⟩

theorem leavesNobody_of_plain
    (hplain : ∀ netns l, h.Answers netns l → startsWith netnsPrefix netns → Plain netns) (oracle) :
    LeavesNobody oracle h := by
  have hrun := ((fallSilent_alone oracle h).within (silences_alone oracle).within).run
    (silences_alone oracle).refl (may_alone oracle)
  have hswept : Swept (alone oracle) h (ReadAsKept oracle h) (world.run oracle fallSilent h).2 ∧
      Shrinks h (world.run oracle fallSilent h).2 :=
    (((fallSilent_alone oracle h).within (silences_alone oracle).within).imp
      (fun _ _ hp => ⟨hp.1.2.2, hp.2⟩) fun _ _ hp => hp).final (silences_alone oracle).refl
      (may_alone oracle)
  refine ⟨fun outcome hok => (hrun.1 outcome hok).1.2.1, ?_, ?_⟩
  · intro outcome hok hcomplete netns l hans hstarts
    obtain ⟨id, hid, hkept | hfailed⟩ := (hrun.1 outcome hok).1.1 netns l hans hstarts
      (hplain netns l (hswept.2 netns l hans) hstarts)
    · exact ⟨id, hkept, hid⟩
    · rw [Silencing.complete, List.isEmpty_iff] at hcomplete
      simp [hcomplete] at hfailed
  · intro netns l hin hlook hset hans
    have hstarts : startsWith netnsPrefix netns := by
      rcases hin with ⟨-, hstarts⟩ | ⟨-, id, rfl, -⟩
      · exact hstarts
      · exact startsWith_routerNetns id
    obtain hreduced | hkept := hswept.1 netns (hplain netns l (hswept.2 netns l hans) hstarts)
      (reachable_alone hin)
    · exact absurd hans (hreduced l (accepts_alone hlook) (accepts_alone hset))
    · exact hkept

def Command.spares (netns : String) : Command → Prop
  | .setArp netns' _ mode => netns' ≠ netns ∧ mode = arpIgnore false
  | c => c.silencing

theorem answers_spared (hc : c.spares netns) (fate) (hans : h.Answers netns l) :
    (world.perform c fate h).2.Answers netns l := by
  refine answers_perform ?_ ?_ fate hans
  · rintro rfl
    exact hc
  · rintro rfl
    exact hc.1 rfl

def sparing (netns : String) (l : Leg) : Terms Command Host Info where
  may _ _ := True
  rely h h' := h' = h
  guar _ h h' := h.Answers netns l → h'.Answers netns l

theorem spared_holds {α : Type} {m : Act α} (hm : m.Issues (spares netns))
    (hans : h.Answers netns l) :
    (sparing netns l).Holds world (fun _ h' => h'.Answers netns l) (fun _ h' => h'.Answers netns l)
      m h :=
  hm.holds (fun _ _ heq hans => heq ▸ hans)
    (fun _ _ fate hc _ hans => ⟨fun _ => answers_spared hc fate hans, answers_spared hc fate hans⟩)
    hans

theorem Command.harmless.spares (h : c.harmless) : c.spares netns := by
  cases c <;> first | exact h | exact h.elim

theorem silenceAll_spares {kept} (hrouter : ∀ id, routerNetns id ≠ netns)
    (hunnamed : ∀ names, live = .ok names → netns ∈ names → (netnsRouterId netns).isSome) :
    (silenceAll live records kept).Issues (spares netns) := by
  refine silenceAll_issues (fun _ hc => hc.spares) kept (fun id _ => ⟨hrouter id, rfl⟩) ?_
    fun _ => trivial
  rintro name hlisted hname -
  refine ⟨?_, rfl⟩
  rintro rfl
  cases live with
  | error => simp [Except.toOption] at hlisted
  | ok names =>
    have hsome := hunnamed names rfl hlisted
    simp [isSome_iff_ne_none.mp hsome] at hname

theorem fallSilent_spares (hans : h.Answers netns l) (hplain : ¬Plain netns) :
    (sparing netns l).Holds world (fun _ h' => h'.Answers netns l) (fun _ h' => h'.Answers netns l)
      fallSilent h := by
  have hrouter : ∀ id, routerNetns id ≠ netns := fun id heq => hplain (heq ▸ plain_routerNetns id)
  have hpresent : (sparing netns l).Holds world
      (fun names h' => h'.Answers netns l ∧ (netns ∈ names → (netnsRouterId netns).isSome))
      (fun _ h' => h'.Answers netns l) netnsPresent h := by
    have hlist : (need .netnsList).Issues (spares netns) := issues_must trivial
    refine (spared_holds hlist hans).bind (fun _ => rfl) fun lines h1 hans1 h2 heq =>
      ⟨heq ▸ hans1, fun hmem => ?_⟩
    -- a first word is its own, so only the name of a router is left to be wrong
    obtain ⟨line, -, hline⟩ := List.mem_filterMap.mp (List.mem_filter.mp hmem).1
    by_contra hnone
    refine hplain ⟨firstWord_idem hline, fun id hid => absurd (by simp [hid]) hnone⟩
  have hnames : (sparing netns l).Holds world
      (fun live h' => h'.Answers netns l ∧
        ∀ names, live = .ok names → netns ∈ names → (netnsRouterId netns).isSome)
      (fun _ h' => h'.Answers netns l) netnsPresent.attempt h :=
    hpresent.attempt (fun names h' hp => ⟨hp.1, fun _ heq => by cases heq; exact hp.2⟩)
      fun _ _ hans => ⟨hans, by simp⟩
  refine hnames.bind (fun _ => rfl) fun live h1 hlive => ?_
  have hfiles : (need .recordFiles).Issues (spares netns) := issues_must trivial
  refine (spared_holds (issues_attempt hfiles) hlive.1).bind (fun _ => rfl)
    fun records h2 hans2 => ?_
  refine (spared_holds (routersNobodyTakesOver_issues (fun _ hc => hc.spares) _) hans2).bind
    (fun _ => rfl) fun kept h3 hans3 => ?_
  exact spared_holds (silenceAll_spares hrouter hlive.2) hans3

def blind : Oracle Command Info := fun _ c =>
  ⟨match c with
    | .readRecord _ => false
    | _ => true, false, ⟨0, none, none, "", none⟩⟩

/-- The pass leaves nobody answering exactly where every namespace that answers is listed under its
own name, which is that of the router it reads as. -/
theorem fall_silent_leaves_nobody (h : Host) :
    (∀ oracle, LeavesNobody oracle h) ↔
      ∀ netns l, h.Answers netns l → startsWith netnsPrefix netns → Plain netns := by
  refine ⟨fun hleaves netns l hans hstarts => ?_, leavesNobody_of_plain⟩
  by_contra hplain
  have hstill : (world.run blind fallSilent h).2.Answers netns l :=
    (fallSilent_spares hans hplain).final (fun _ => rfl) fun _ _ => trivial
  obtain ⟨id, ⟨stem, -, -, -, -, -, k, hread⟩, -⟩ := (hleaves blind).reached netns l
    (.inl ⟨fun _ => rfl, hstarts⟩) (fun _ => rfl) (fun _ => rfl) hstill
  cases hread

def oneNamespace (netns : String) : Host := ⟨AList.singleton netns ⟨0, some 0, some 0⟩, ∅⟩

/-- The namespace reads as a router, whose own name nobody has: the pass is complete, and the
namespace answers. -/
theorem capitals_keep_answering :
    (world.run blind fallSilent
      (oneNamespace "meister-rt-AAAAAAAA-AAAA-AAAA-AAAA-AAAAAAAAAAAA")).1 =
        .ok ⟨[⟨List.replicate 32 10, rfl⟩], [], []⟩ ∧
    (world.run blind fallSilent
      (oneNamespace "meister-rt-AAAAAAAA-AAAA-AAAA-AAAA-AAAAAAAAAAAA")).2.Answers
        "meister-rt-AAAAAAAA-AAAA-AAAA-AAAA-AAAAAAAAAAAA" .external := by
  decide +kernel

end MeisterStack.LinuxNetwork
