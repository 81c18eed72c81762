import MeisterStack.ControllerApi.StoreCalls

/-!
# Imported namespaces

A pool of imported namespaces hands each out whole, through the claim table in its status. `assign`
writes its decision against the revision it read; `give_back` drops the claims of one volume in a
read-modify-write; other writers leave both lists alone.
-/

namespace MeisterStack.ClusterController.Namespaces

open Foundation List Store Site Prod Bool Call.Safe System
open ControllerApi
open ControllerApi.Resource

structure Namespace where
  nqn : String
  sizeGib : Nat
  deriving DecidableEq

structure NamespacePool where
  namespaces : List Namespace
  allowLocalClaims : Bool
  deriving DecidableEq

abbrev Claims := List (String × String)

structure ImportPool where
  params : Option NamespacePool
  claims : Claims
  deriving DecidableEq

structure ImportVolume where
  uid : String
  pool : String
  sizeGib : Nat

def poolOf (pool : ImportPool) : Option NamespacePool :=
  pool.params.filter fun parsed => !parsed.namespaces.isEmpty && !parsed.allowLocalClaims

def insertClaim (nqn uid : String) : Claims → Claims
  | [] => [(nqn, uid)]
  | (key, held) :: rest =>
    if nqn < key then (nqn, uid) :: (key, held) :: rest
    else if nqn = key then (nqn, uid) :: rest
    else (key, held) :: insertClaim nqn uid rest

def claimed (claims : Claims) (nqn : String) : Bool := claims.any fun claim => claim.1 = nqn

inductive Choice where
  | held (nqn : String)
  | take (nqn : String)
  | refuse (why : String)

def choose (pool : NamespacePool) (claims : Claims) (volume : ImportVolume) : Choice :=
  match claims.find? fun claim => claim.2 = volume.uid with
  | some (nqn, _) => .held nqn
  | none =>
    match pool.namespaces.find? fun ns =>
        !claimed claims ns.nqn && !(ns.sizeGib < volume.sizeGib : Bool) with
    | some ns => .take ns.nqn
    | none =>
      let assigned := (pool.namespaces.filter fun ns => claimed claims ns.nqn).length
      let all := pool.namespaces.length
      .refuse (s!"no free namespace in pool {volume.pool} holds {volume.sizeGib} GiB; " ++
        s!"{assigned} of {all} are assigned")

def retries : Nat := 8

def pools : Resource ImportPool := ⟨"storagepools", fun _ pool => pool⟩

def withClaims (claims : Claims) (obj : Object ImportPool) : Object ImportPool :=
  { obj with body := { obj.body with claims := claims } }

abbrev Assignment := Except String (Option String)

def assignLoop (volume : ImportVolume) : Nat → StoreCall ImportPool Assignment
  | 0 =>
    .ret (.ok (.error (s!"pool {volume.pool} is being written by so many replicas at once " ++
      s!"that a namespace could not be assigned in {retries} attempts")))
  | left + 1 =>
    (pools.get volume.pool).bind fun
      | .error why => .ret (.error why)
      | .ok pool =>
        match poolOf pool.val.body with
        | none => .ret (.ok (.ok none))
        | some parsed =>
          match choose parsed pool.val.body.claims volume with
          | .held nqn => .ret (.ok (.ok (some nqn)))
          | .refuse why => .ret (.ok (.error why))
          | .take nqn =>
            (pools.update volume.pool pool.rev (withClaims
              (insertClaim nqn volume.uid pool.val.body.claims) pool.val)).bind fun
              | .ok _ => .ret (.ok (.ok (some nqn)))
              | .error (.conflict _) => assignLoop volume left
              | .error why => .ret (.error why)

def assign (volume : ImportVolume) : StoreCall ImportPool Assignment := assignLoop volume retries

def retained (uid : String) (claims : Claims) : Claims := claims.filter fun claim => claim.2 ≠ uid

def giveBack (volume : ImportVolume) : StoreCall ImportPool Unit :=
  (pools.mutate volume.pool fun obj =>
    (withClaims (retained volume.uid obj.body.claims) obj, ())).map fun _ => .ok ()

section Claims

variable {nqn uid : String} {claims : Claims}

theorem insertClaim_perm (h : claimed claims nqn = false) :
    (insertClaim nqn uid claims).Perm ((nqn, uid) :: claims) := by
  induction claims with
  | nil => exact .refl _
  | cons claim rest ih =>
    obtain ⟨key, held⟩ := claim
    simp only [claimed, any_cons, or_eq_false_iff, decide_eq_false_iff_not] at h
    unfold insertClaim
    split
    · exact .refl _
    · rw [if_neg (fun heq => h.1 heq.symm)]
      exact ((ih h.2).cons (key, held)).trans (.swap ..)

theorem mem_insertClaim (h : claimed claims nqn = false) {claim} :
    claim ∈ insertClaim nqn uid claims ↔ claim = (nqn, uid) ∨ claim ∈ claims := by
  rw [(insertClaim_perm h).mem_iff, mem_cons]

theorem not_mem_of_free (h : claimed claims nqn = false) (uid) : (nqn, uid) ∉ claims := by
  intro hmem
  simp only [claimed, any_eq_false, decide_eq_true_eq] at h
  exact h _ hmem rfl

structure Unique (claims : Claims) : Prop where
  nqns : (claims.map fst).Nodup
  uids : (claims.map snd).Nodup

theorem Unique.insertClaim (h : Unique claims) (hnqn : claimed claims nqn = false)
    (huid : ∀ claim ∈ claims, claim.2 ≠ uid) : Unique (insertClaim nqn uid claims) := by
  have hperm : (Namespaces.insertClaim nqn uid claims).Perm ((nqn, uid) :: claims) :=
    insertClaim_perm hnqn
  refine ⟨(hperm.map fst).nodup_iff.mpr ?_, (hperm.map snd).nodup_iff.mpr ?_⟩
  · refine nodup_cons.mpr ⟨fun hmem => ?_, h.nqns⟩
    obtain ⟨claim, hclaim, rfl⟩ := List.mem_map.mp hmem
    exact not_mem_of_free hnqn claim.2 hclaim
  · refine nodup_cons.mpr ⟨fun hmem => ?_, h.uids⟩
    obtain ⟨claim, hclaim, heq⟩ := List.mem_map.mp hmem
    exact huid claim hclaim heq

theorem Unique.retained (h : Unique claims) : Unique (retained uid claims) :=
  ⟨h.nqns.sublist (List.filter_sublist.map _), h.uids.sublist (List.filter_sublist.map _)⟩

theorem Unique.nqn_eq {nqn'} (h : Unique claims) (hmem : (nqn, uid) ∈ claims)
    (hmem' : (nqn', uid) ∈ claims) : nqn = nqn' :=
  congrArg fst (inj_on_of_nodup_map h.uids hmem hmem' rfl)

variable {pool : NamespacePool} {volume : ImportVolume} {why : String}

theorem choose_held (h : choose pool claims volume = .held nqn) : (nqn, volume.uid) ∈ claims := by
  unfold choose at h
  split at h
  · rename_i nqn' held hfind
    cases h
    have hheld : held = volume.uid := by simpa using find?_some hfind
    exact hheld ▸ mem_of_find?_eq_some hfind
  · split at h <;> cases h

theorem choose_unheld (h : ∀ nqn, choose pool claims volume ≠ .held nqn) :
    ∀ claim ∈ claims, claim.2 ≠ volume.uid := by
  unfold choose at h
  split at h
  · exact absurd rfl (h _)
  · rename_i hfind
    simpa using hfind

theorem choose_take (h : choose pool claims volume = .take nqn) :
    claimed claims nqn = false ∧
      ∃ ns ∈ pool.namespaces, ns.nqn = nqn ∧ volume.sizeGib ≤ ns.sizeGib := by
  unfold choose at h
  split at h
  · cases h
  · split at h <;> cases h
    rename_i ns hfind
    have hns := find?_some hfind
    simp only [and_eq_true, not_eq_true', decide_eq_false_iff_not, not_lt] at hns
    exact ⟨hns.1, ns, mem_of_find?_eq_some hfind, rfl, hns.2⟩

end Claims

inductive Request where
  | assign (volume : ImportVolume)
  | giveBack (volume : ImportVolume)

inductive Outcome where
  | assigned (result : Except StoreError Assignment)
  | gaveBack (result : Except StoreError Unit)

abbrev PoolStore := Store String (Object ImportPool)

abbrev PoolSite := Site Request String (Object ImportPool) Outcome

def others (store : PoolStore) (key : String) : Option (Object ImportPool) → Bool
  | some new =>
    match store.cell key with
    | some obj => new.body = obj.val.body
    | none => new.body.claims = []
  | none => false

def system : System Request String (Object ImportPool) Fault Outcome where
  writes := others
  begins _
    | .assign volume => some ((assign volume).map .assigned)
    | .giveBack volume => some ((giveBack volume).map .gaveBack)

inductive Legal (store : PoolStore) : Option Request → String → Option (Object ImportPool) → Prop
  | created (key : String) (new : Object ImportPool) (hcell : store.cell key = none)
      (hnew : new.body.claims = []) : Legal store none key (some new)
  | edited (key : String) (obj : Versioned (Object ImportPool)) (new : Object ImportPool)
      (hcell : store.cell key = some obj) (hnew : new.body = obj.val.body) :
      Legal store none key (some new)
  | taken (volume : ImportVolume) (obj : Versioned (Object ImportPool)) (parsed : NamespacePool)
      (nqn : String) (hcell : store.cell volume.pool = some obj)
      (hpool : poolOf obj.val.body = some parsed)
      (hchoice : choose parsed obj.val.body.claims volume = .take nqn) :
      Legal store (some (.assign volume)) volume.pool
        (some (withClaims (insertClaim nqn volume.uid obj.val.body.claims) obj.val))
  | returned (volume : ImportVolume) (obj : Versioned (Object ImportPool))
      (hcell : store.cell volume.pool = some obj) :
      Legal store (some (.giveBack volume)) volume.pool
        (some (withClaims (retained volume.uid obj.val.body.claims) obj.val))

def Claimed (pool nqn uid : String) (store : PoolStore) : Prop :=
  ∃ obj, store.cell pool = some obj ∧ (nqn, uid) ∈ obj.val.body.claims

def Unclaimed (pool uid : String) (store : PoolStore) : Prop :=
  ∃ obj, store.cell pool = some obj ∧ ∀ nqn, (nqn, uid) ∉ obj.val.body.claims

def Unassigned (pool : String) (store : PoolStore) : Prop :=
  ∃ obj, store.cell pool = some obj ∧ poolOf obj.val.body = none

def AllUnique (store : PoolStore) : Prop :=
  ∀ key obj, store.cell key = some obj → Unique obj.val.body.claims

variable {nqn : String}

theorem unheld_of_take {pool claims volume} (h : choose pool claims volume = .take nqn) :
    ∀ claim ∈ claims, claim.2 ≠ volume.uid :=
  choose_unheld fun nqn' hheld => by rw [h] at hheld; cases hheld

variable {store : PoolStore} {key : String}

theorem AllUnique.put {new} (hs : AllUnique store) (hnew : Unique new.body.claims) :
    AllUnique (store.commit key (some new)) := by
  intro key' obj hobj
  by_cases hk : key' = key
  · subst hk
    rw [cell_commit_self] at hobj
    cases hobj
    exact hnew
  · rw [cell_commit_ne store hk] at hobj
    exact hs key' obj hobj

variable {new : Option (Object ImportPool)}

theorem Legal.allUnique {who} (h : Legal store who key new) (hs : AllUnique store) :
    AllUnique (store.commit key new) := by
  cases h with
  | created _ new _ hnew =>
    refine hs.put ?_
    rw [hnew]
    exact ⟨nodup_nil, nodup_nil⟩
  | edited key obj new hcell hnew =>
    refine hs.put ?_
    rw [hnew]
    exact hs key obj hcell
  | taken volume obj parsed nqn hcell hpool hchoice =>
    exact hs.put ((hs _ obj hcell).insertClaim (choose_take hchoice).1 (unheld_of_take hchoice))
  | returned volume obj hcell => exact hs.put (hs _ obj hcell).retained

def GivesBack (pool uid : String) (c : Commit Request String (Object ImportPool)) : Prop :=
  ∃ volume, c.who = some (.giveBack volume) ∧ volume.pool = pool ∧ volume.uid = uid

variable {pool : String} {obj : Versioned (Object ImportPool)}

theorem Legal.cell {who} (h : Legal store who key new) (hc : store.cell pool = some obj) :
    ∃ obj', (store.commit key new).cell pool = some obj' ∧
      obj'.val.body.params = obj.val.body.params ∧
      ∀ nqn uid, (nqn, uid) ∈ obj.val.body.claims →
        (∀ volume, who = some (.giveBack volume) → volume.pool = pool → volume.uid ≠ uid) →
        (nqn, uid) ∈ obj'.val.body.claims := by
  by_cases hk : pool = key
  · subst hk
    cases h with
    | created _ new hcell => rw [hc] at hcell; cases hcell
    | edited _ obj' new hcell hnew =>
      rw [hc] at hcell
      cases hcell
      exact ⟨_, cell_commit_self .., congrArg ImportPool.params hnew,
        fun nqn uid hmem _ => by simpa [hnew] using hmem⟩
    | taken volume obj' parsed nqn' hcell hpool hchoice =>
      rw [hc] at hcell
      cases hcell
      exact ⟨_, cell_commit_self .., rfl, fun nqn uid hmem _ =>
        (mem_insertClaim (choose_take hchoice).1).mpr (.inr hmem)⟩
    | returned volume obj' hcell =>
      rw [hc] at hcell
      cases hcell
      exact ⟨_, cell_commit_self .., rfl, fun nqn uid hmem hkept =>
        mem_filter.mpr ⟨hmem, by simpa using (hkept volume rfl rfl).symm⟩⟩
  · rw [cell_commit_ne store hk]
    exact ⟨obj, hc, rfl, fun _ _ hmem _ => hmem⟩

def Holding (pool nqn uid : String) (store : PoolStore) : Prop :=
  ∃ obj, store.cell pool = some obj ∧ (nqn, uid) ∈ obj.val.body.claims ∧
    (poolOf obj.val.body).isSome

variable {c : Commit Request String (Object ImportPool)} {uid : String}

theorem Legal.claimed (h : Legal c.store c.who c.key c.new) (hkept : ¬ GivesBack pool uid c)
    (hs : Claimed pool nqn uid c.store) : Claimed pool nqn uid (c.store.commit c.key c.new) := by
  obtain ⟨obj, hc, hmem⟩ := hs
  obtain ⟨obj', hc', -, hclaims⟩ := h.cell hc
  exact ⟨obj', hc', hclaims nqn uid hmem fun volume hwho hpool huid =>
    hkept ⟨volume, hwho, hpool, huid⟩⟩

theorem Legal.holding (h : Legal c.store c.who c.key c.new) (hkept : ¬ GivesBack pool uid c)
    (hs : Holding pool nqn uid c.store) : Holding pool nqn uid (c.store.commit c.key c.new) := by
  obtain ⟨obj, hc, hmem, hpool⟩ := hs
  obtain ⟨obj', hc', hparams, hclaims⟩ := h.cell hc
  refine ⟨obj', hc', hclaims nqn uid hmem fun volume hwho hpool huid =>
    hkept ⟨volume, hwho, hpool, huid⟩, ?_⟩
  unfold poolOf at hpool ⊢
  rw [hparams]
  exact hpool

def Meets (request : Request) (began : Nat) (s : PoolSite)
    (_ : List (Commit Request String (Object ImportPool))) : Outcome → Prop
  | .assigned result =>
    match request, result with
    | .assign volume, .ok (.ok (some nqn)) => s.Since began (Claimed volume.pool nqn volume.uid)
    | .assign volume, .ok (.ok none) => s.Since began (Unassigned volume.pool)
    | .assign volume, .ok (.error _) => s.Since began (Unclaimed volume.pool volume.uid)
    | .assign volume, .error (.notFound _) =>
      s.Since began fun store => store.cell volume.pool = none
    | .assign _, .error (.fault _) => True
    | _, _ => False
  | .gaveBack _ => True

theorem meets_stable (request began) : Stable Legal (Meets request began) := by
  intro s s' own answer hl h
  unfold Meets at h ⊢
  split at h
  · split at h <;> first | exact hl.since h | exact h
  · trivial

section Safety

variable {s : PoolSite} {own : List (Commit Request String (Object ImportPool))} {began : Nat}
  {volume : ImportVolume}

theorem unclaimed_of_unheld {store parsed} (hc : store.cell volume.pool = some obj)
    (h : ∀ nqn, choose parsed obj.val.body.claims volume ≠ .held nqn) :
    Unclaimed volume.pool volume.uid store :=
  ⟨obj, hc, fun _ hmem => choose_unheld h _ hmem rfl⟩

theorem began_le {s s' : PoolSite} (hle : began ≤ s.commits.length) (hl : Later Legal s s') :
    began ≤ s'.commits.length :=
  hle.trans hl.commits.length_le

theorem assignLoop_safe (left) (hs : s.store.Sound) (hle : began ≤ s.commits.length)
    (hspent : left = 0 → s.Since began (Unclaimed volume.pool volume.uid)) :
    (assignLoop volume left).Safe Legal unguarded (.assign volume)
      (fun s own result => Meets (.assign volume) began s own (.assigned result)) own s := by
  have hstable : Stable Legal fun s own result =>
      Meets (.assign volume) began s own (.assigned result) :=
    fun _ _ _ _ => @meets_stable (.assign volume) began _ _ _ _
  induction left generalizing s with
  | zero => exact .ret hstable (hspent rfl)
  | succ left ih =>
    refine .bind (get_safe (stable _) (fun _ _ _ => .ret hstable trivial)
      (fun s' hl hc => ?_) fun s' obj hl hc => ?_)
    · exact .ret hstable (since_now (began_le hle hl) hc)
    dsimp only
    split
    · rename_i hpool
      exact .ret hstable (since_now (began_le hle hl) ⟨obj, hc, hpool⟩)
    · rename_i parsed hpool
      split
      · rename_i nqn hchoice
        exact .ret hstable (since_now (began_le hle hl) ⟨obj, hc, choose_held hchoice⟩)
      · rename_i why hchoice
        exact .ret hstable (since_now (began_le hle hl)
          (unclaimed_of_unheld hc fun nqn hheld => by rw [hchoice] at hheld; cases hheld))
      · rename_i nqn hchoice
        have hunclaimed : s'.Since began (Unclaimed volume.pool volume.uid) :=
          since_now (began_le hle hl)
            (unclaimed_of_unheld hc fun nqn hheld => by rw [hchoice] at hheld; cases hheld)
        refine .bind fun s'' hl' _ => ?_
        have hlater := hl.trans hl'
        refine ⟨fun why => ?_, fun _ => ?_, fun hrev => ?_⟩
        · exact .ret (stable _) (.ret hstable trivial)
        · exact .ret (stable _)
            (ih (hlater.sound hs) (began_le hle hlater) fun _ => hl'.since hunclaimed)
        -- The table that was decided on is the one that is written to.
        have hc' := (hl'.knew ((hl.sound hs).knew hc)).stands hrev
        have hlegal := Legal.taken volume obj parsed nqn hc' hpool hchoice
        refine ⟨hlegal, fun why => ?_, ?_⟩
        · exact .ret (stable _) (.ret hstable trivial)
        · refine .ret (stable _) (.ret hstable (since_now
            (began_le hle (hlater.trans (.next (.commit _ _ _ hlegal)))) ?_))
          exact ⟨_, cell_commit_self ..,
            (mem_insertClaim (choose_take hchoice).1).mpr (.inl rfl)⟩

theorem giveBack_safe (hs : s.store.Sound) :
    (giveBack volume).Safe Legal unguarded (.giveBack volume)
      (fun s own result => Meets (.giveBack volume) began s own (.gaveBack result)) own s := by
  refine .map (fun _ _ _ _ _ _ => trivial) (mutateLoop_safe (fun _ _ _ _ _ _ => trivial) _ ?_)
  exact {
    sound := hs
    fault := fun _ _ _ => trivial
    missing := fun _ _ _ => trivial
    other := fun _ _ _ _ _ => trivial
    spent := fun _ _ => trivial
    permitted := fun _ obj _ hc _ _ => .returned volume obj hc
    lost := fun _ _ _ _ _ _ _ => trivial
    written := fun _ _ _ _ _ _ => trivial }

end Safety

structure Inv (s : PoolSite) : Prop where
  remembers : s.Remembers
  chained : s.Chained
  unique : ∀ store ∈ s.moments, AllUnique store

theorem Inv.next {s s'} (h : Inv s) (hnext : Next Legal s s') : Inv s' where
  remembers := (Later.next hnext).remembers h.remembers
  chained := (Later.next hnext).chained h.chained
  unique := by
    cases hnext with
    | commit who key new hlegal =>
      intro store hmem
      rw [moments_commit, mem_append, mem_singleton] at hmem
      rcases hmem with hmem | rfl
      · exact h.unique store hmem
      · refine hlegal.allUnique (h.unique s.store ?_)
        exact mem_append_right _ (mem_singleton.mpr rfl)
    | answer => exact h.unique

theorem verified : system.Verified Legal unguarded Inv Meets where
  keeps := Inv.next
  writes {s key new} _ h := by
    cases new with
    | none => cases h
    | some new =>
      simp only [system, others] at h
      split at h
      · rename_i obj hc
        exact .edited key obj new hc (of_decide_eq_true h)
      · rename_i hc
        exact .created key new hc (of_decide_eq_true h)
  begins {s request call} hs h := by
    cases request with
    | assign =>
      cases h
      exact .map (meets_stable _ _) (assignLoop_safe _ hs.remembers.sound le_rfl
        fun h => by cases h)
    | giveBack =>
      cases h
      exact .map (meets_stable _ _) (giveBack_safe hs.remembers.sound)

section History

variable {s : PoolSite} {pool nqn nqn' uid uid' : String} {i j : Nat}

def NotGivenBack (s : PoolSite) (pool uid : String) (i j : Nat) : Prop :=
  ∀ k c, i ≤ k → k < j → s.commits[k]? = some c → ¬ GivesBack pool uid c

variable {store store' : PoolStore}

theorem AllUnique.nqn_eq (hs : AllUnique store)
    (h : Claimed pool nqn uid store) (h' : Claimed pool nqn' uid store) : nqn = nqn' := by
  obtain ⟨obj, hc, hmem⟩ := h
  obtain ⟨obj', hc', hmem'⟩ := h'
  rw [hc] at hc'
  cases hc'
  exact (hs pool obj hc).nqn_eq hmem hmem'

section Kept

variable (hlegal : ∀ c ∈ s.commits, Legal c.store c.who c.key c.new) (hij : i ≤ j)
  (hi : s.moments[i]? = some store) (hj : s.moments[j]? = some store')
  (hkept : NotGivenBack s pool uid i j)

include hlegal hij hi hj hkept

theorem claimed_later (hs : s.Chained) (h : Claimed pool nqn uid store) :
    Claimed pool nqn uid store' :=
  hs.keep (Claimed pool nqn uid) hij hi hj h fun k c hik hkj hc hholds =>
    (hlegal c (mem_of_getElem? hc)).claimed (hkept k c hik hkj hc) hholds

theorem holding_later (hs : s.Chained) (h : Holding pool nqn uid store) :
    Holding pool nqn uid store' :=
  hs.keep (Holding pool nqn uid) hij hi hj h fun k c hik hkj hc hholds =>
    (hlegal c (mem_of_getElem? hc)).holding (hkept k c hik hkj hc) hholds

theorem same_nqn (hs : Inv s) (h : Claimed pool nqn uid store)
    (h' : Claimed pool nqn' uid store') : nqn = nqn' :=
  (hs.unique store' (mem_of_getElem? hj)).nqn_eq
    (claimed_later hlegal hij hi hj hkept hs.chained h) h'

end Kept

theorem answer_of_holding {a : Answered Request String (Object ImportPool) Outcome} {result}
    {volume} {r} (hs : Inv s)
    (hlegal : ∀ c ∈ s.commits, Legal c.store c.who c.key c.new) (hl : Later Legal r s)
    (hended : r.commits.length = a.ended)
    (hmeets : Meets (.assign volume) a.began r a.own (.assigned result))
    (hnow : ∀ store, s.moments[a.began]? = some store → Holding volume.pool nqn volume.uid store)
    (hkept : NotGivenBack s volume.pool volume.uid a.began a.ended) :
    result = .ok (.ok (some nqn)) ∨ ∃ why, result = .error (.fault why) := by
  -- Whatever moment the answer was read off, the volume was holding the namespace then.
  have hthen {was : PoolStore → Prop} (h : r.Since a.began was) :
      ∃ store, was store ∧ Holding volume.pool nqn volume.uid store ∧
        store ∈ s.moments := by
    obtain ⟨i, store, hle, hi, hstore, hwas⟩ := hl.during h
    have hlt := (List.getElem?_eq_some_iff.mp hstore).1
    obtain ⟨first, hfirst⟩ : ∃ first, s.moments[a.began]? = some first :=
      ⟨_, List.getElem?_eq_getElem (hle.trans_lt hlt)⟩
    refine ⟨store, hwas, ?_, mem_of_getElem? hstore⟩
    exact holding_later hlegal hle hfirst hstore
      (fun k c hk hki => hkept k c hk (hki.trans_le (hended ▸ hi))) hs.chained (hnow first hfirst)
  match result, hmeets with
  | .ok (.ok (some nqn')), h =>
    obtain ⟨store, hclaimed, ⟨obj, hc, hmem, -⟩, hin⟩ := hthen h
    have := (hs.unique store hin).nqn_eq ⟨obj, hc, hmem⟩ hclaimed
    exact .inl (by rw [this])
  | .ok (.ok none), h =>
    obtain ⟨store, ⟨obj, hc, hnone⟩, ⟨obj', hc', -, hsome⟩, -⟩ := hthen h
    rw [hc] at hc'
    cases hc'
    rw [hnone] at hsome
    cases hsome
  | .ok (.error why), h =>
    obtain ⟨store, ⟨obj, hc, hnone⟩, ⟨obj', hc', hmem, -⟩, -⟩ := hthen h
    rw [hc] at hc'
    cases hc'
    exact absurd hmem (hnone nqn)
  | .error (.notFound _), h =>
    obtain ⟨store, hnone, ⟨obj', hc', -⟩, -⟩ := hthen h
    rw [hnone] at hc'
    cases hc'
  | .error (.fault why), _ => exact .inr ⟨why, rfl⟩

end History

structure Takes (c : Commit Request String (Object ImportPool)) (volume : ImportVolume)
    (ns : Namespace) : Prop where
  key : c.key = volume.pool
  listed : ∃ obj parsed, c.found = some obj ∧ poolOf obj.val.body = some parsed ∧
    ns ∈ parsed.namespaces ∧
    c.new = some (withClaims (insertClaim ns.nqn volume.uid obj.val.body.claims) obj.val)
  large : volume.sizeGib ≤ ns.sizeGib

theorem Legal.takes {volume} (h : Legal c.store c.who c.key c.new)
    (hwho : c.who = some (.assign volume)) :
    ∃ ns, Takes c volume ns ∧ ∀ uid, ¬ Claimed volume.pool ns.nqn uid c.store := by
  obtain ⟨who, key, new, store⟩ := c
  cases hwho
  cases h with
  | taken _ obj parsed nqn hcell hpool hchoice =>
    obtain ⟨hfree, ns, hmem, rfl, hsize⟩ := choose_take hchoice
    refine ⟨ns, ⟨rfl, ⟨obj, parsed, hcell, hpool, hmem, rfl⟩, hsize⟩, ?_⟩
    rintro uid ⟨obj', hcell', hclaim⟩
    rw [hcell] at hcell'
    cases hcell'
    exact not_mem_of_free hfree uid hclaim

structure Got (a : Answered Request String (Object ImportPool) Outcome) (pool uid nqn : String) :
    Prop where
  asked : ∃ volume, a.request = .assign volume ∧ volume.pool = pool ∧ volume.uid = uid
  got : a.answer = .assigned (.ok (.ok (some nqn)))

theorem Got.claimed {s a} (h : Got a pool uid nqn) (hs : Kept Legal Inv Meets s)
    (ha : a ∈ s.answers) : s.During a.began a.ended (Claimed pool nqn uid) := by
  obtain ⟨volume, hrequest, rfl, rfl⟩ := h.asked
  obtain ⟨r, hl, hended, -, hmeets⟩ := hs.answers a ha
  rw [hrequest, h.got] at hmeets
  exact hended ▸ hl.during hmeets

/-- In every interleaving of assignments, returns and other writers: claims are unique in both
directions; an assignment takes a namespace that is large enough and free, so that whoever held it
gave it back; two calls that were told namespaces for one volume were told the same, unless a claim
of it was given back between them; and a call made while the volume holds a namespace is told that
one, or that the store failed. -/
theorem namespace_assignment {store : PoolStore} (hstore : store.Sound) (hunique : AllUnique store)
    {moves : List (Move (SiteEvent Request String (Object ImportPool)) (Heard Fault))}
    {w : World PoolSite (Pending Request String (Object ImportPool) Fault Outcome)}
    (hrun : system.program.run ⟨of store, []⟩ moves = some w) :
    (∀ store ∈ w.shared.moments, AllUnique store) ∧
    (∀ (k : Nat) c volume, w.shared.commits[k]? = some c → c.who = some (.assign volume) →
      ∃ ns, Takes c volume ns ∧ ∀ (i : Nat) store uid, i ≤ k →
        w.shared.moments[i]? = some store → Claimed volume.pool ns.nqn uid store →
        ¬ NotGivenBack w.shared volume.pool uid i k) ∧
    (∀ a ∈ w.shared.answers, ∀ b ∈ w.shared.answers, ∀ pool uid nqn nqn',
      Got a pool uid nqn → Got b pool uid nqn' →
      NotGivenBack w.shared pool uid (min a.began b.began) (max a.ended b.ended) →
        nqn = nqn') ∧
    ∀ a ∈ w.shared.answers, ∀ volume nqn result, a.request = .assign volume →
      a.answer = .assigned result →
      (∀ store, w.shared.moments[a.began]? = some store →
        Holding volume.pool nqn volume.uid store) →
      NotGivenBack w.shared volume.pool volume.uid a.began a.ended →
        result = .ok (.ok (some nqn)) ∨ ∃ why, result = .error (.fault why) := by
  have hinit : Inv (of store) :=
    ⟨.of hstore, chained_of store, by simpa [moments, of] using hunique⟩
  have hkept := verified.run_unguarded hinit hrun
  have hs := hkept.invariant
  refine ⟨hs.unique, fun k c volume hc hwho => ?_,
    fun a ha b hb pool uid nqn nqn' hga hgb hnot => ?_,
    fun a ha volume nqn result hrequest hanswer hnow hnot => ?_⟩
  · obtain ⟨ns, htakes, hfree⟩ := (hkept.commits c (mem_of_getElem? hc)).takes hwho
    refine ⟨ns, htakes, fun i store uid hik hi hclaimed hnot => hfree uid ?_⟩
    exact claimed_later hkept.commits hik hi (moments_of_commit hc) hnot hs.chained hclaimed
  · obtain ⟨i, store1, hai, hia, hi, h1⟩ := hga.claimed hkept ha
    obtain ⟨j, store2, hbj, hjb, hj, h2⟩ := hgb.claimed hkept hb
    have hbetween {k l : Nat} (hk : min a.began b.began ≤ k) (hl : l ≤ max a.ended b.ended) :
        NotGivenBack w.shared pool uid k l :=
      fun k' c hkk' hk'l => hnot k' c (hk.trans hkk') (hk'l.trans_le hl)
    rcases Nat.le_total i j with hij | hji
    · exact same_nqn hkept.commits hij hi hj (hbetween (by omega) (by omega)) hs h1 h2
    · exact (same_nqn hkept.commits hji hj hi (hbetween (by omega) (by omega)) hs h2 h1).symm
  · obtain ⟨r, hl, hended, -, hmeets⟩ := hkept.answers a ha
    rw [hrequest, hanswer] at hmeets
    exact answer_of_holding hs hkept.commits hl hended hmeets hnow hnot

def twoNamespaces : PoolStore :=
  ⟨2, Table.put (∅ : Table String (Object ImportPool)) "p" 1
    ⟨⟨"pool", none, [], none⟩, ⟨some ⟨[⟨"n1", 10⟩, ⟨"n2", 40⟩], false⟩, []⟩⟩⟩

theorem twoNamespaces_cell
    (h : twoNamespaces.cell key = some obj) :
    obj = ⟨1, ⟨⟨"pool", none, [], none⟩, ⟨some ⟨[⟨"n1", 10⟩, ⟨"n2", 40⟩], false⟩, []⟩⟩⟩ := by
  rcases Table.cell_put_cases h with ⟨-, h⟩ | ⟨-, h⟩
  · exact h
  · cases h

theorem twoNamespaces_sound : twoNamespaces.Sound where
  pos := by decide
  stored h := by
    rw [twoNamespaces_cell h]
    decide

def assignRun : List (Move (SiteEvent Request String (Object ImportPool)) (Heard Fault)) :=
  [.env (.ask (.assign ⟨"u1", "p", 5⟩)), .env (.ask (.assign ⟨"u2", "p", 5⟩)),
    .task 0 .answer, .task 1 .answer, .task 0 .answer, .task 1 .answer, .task 0 .answer,
    .task 0 .answer, .task 0 .answer, .task 0 .answer,
    .env (.ask (.assign ⟨"u1", "p", 5⟩)), .task 0 .answer, .task 0 .answer]

def toldNamespace : Outcome → Option String
  | .assigned (.ok (.ok nqn)) => nqn
  | _ => none

theorem namespace_assignment_race :
    ∃ w, system.program.run ⟨of twoNamespaces, []⟩ assignRun = some w ∧
      w.shared.answers.map (fun a => toldNamespace a.answer) =
        [some "n1", some "n2", some "n1"] ∧
      ∀ store ∈ w.shared.moments, AllUnique store := by
  have hunique : AllUnique twoNamespaces := by
    intro key obj h
    rw [twoNamespaces_cell h]
    exact ⟨nodup_nil, nodup_nil⟩
  exact ⟨_, rfl, rfl, (namespace_assignment twoNamespaces_sound hunique
    (rfl : system.program.run _ assignRun = some _)).1⟩

end MeisterStack.ClusterController.Namespaces
