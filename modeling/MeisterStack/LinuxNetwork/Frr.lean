import Mathlib.Data.Finset.Sort
import Mathlib.Data.String.Basic

/-!
# Announced prefixes

The routes a node announces, through a fragment the BGP daemon merges into what it has. A prefix
leaves the daemon only by a line of its own, and the lines are computed from the set of the last
apply that succeeded.
-/

namespace MeisterStack.LinuxNetwork.Frr

open List

structure Neighbor where
  address : String
  remoteAsn : Nat

structure BgpConfig where
  asn : Nat
  routerId : String
  neighbors : List Neighbor
  evpn : Bool

inductive Line where
  | text (s : String)
  | network (route : String)
  | noNetwork (route : String)

def heading (cfg : BgpConfig) : List Line :=
  [.text "! meisterstack: generated, do not edit", .text s!"router bgp {cfg.asn}",
    .text s!" bgp router-id {cfg.routerId}", .text " no bgp ebgp-requires-policy",
    .text " no bgp network import-check"] ++
  cfg.neighbors.map (fun n => .text s!" neighbor {n.address} remote-as {n.remoteAsn}") ++
  [.text " address-family ipv4 unicast"] ++
  cfg.neighbors.map fun n => .text s!"  neighbor {n.address} activate"

def closing (cfg : BgpConfig) : List Line :=
  [.text " exit-address-family"] ++
  (if cfg.evpn then [.text " address-family l2vpn evpn"] ++
    cfg.neighbors.map (fun n => .text s!"  neighbor {n.address} activate") ++
    [.text "  advertise-all-vni", .text " exit-address-family"] else []) ++
  [.text "exit"]

def routes (s : Finset String) : List String := s.sort (· ≤ ·)

def fragment (cfg : BgpConfig) (announced withdrawn : Finset String) : List Line :=
  heading cfg ++ (routes announced).map .network ++ (routes withdrawn).map .noNetwork ++
    closing cfg

/-- The daemon's networks beside the set the driver keeps. -/
structure State where
  announced : Finset String
  frr : Finset String

def State.fresh : State := ⟨∅, ∅⟩

def merge (frr : Finset String) : Line → Finset String
  | .text _ => frr
  | .network route => insert route frr
  | .noNetwork route => frr.erase route

/-- How the apply of a call goes: the fragment is not written, or read whole, or only some lines
of it before the shell fails or is out of time. -/
inductive Fate where
  | unwritten
  | applied
  | failed (lines : Nat)

structure Call where
  want : Finset String
  fate : Fate

def announce (cfg : BgpConfig) (s : State) (call : Call) : Bool × State :=
  if s.announced = call.want then (true, s)
  else
    let lines := fragment cfg call.want (s.announced \ call.want)
    match call.fate with
    | .unwritten => (false, s)
    | .applied => (true, ⟨call.want, lines.foldl merge s.frr⟩)
    | .failed n => (false, { s with frr := (lines.take n).foldl merge s.frr })

/-- What holds at each call of a run. -/
def Each (cfg : BgpConfig) (P : State → Call → Prop) : State → List Call → Prop
  | _, [] => True
  | s, call :: calls => P s call ∧ Each cfg P (announce cfg s call).2 calls

def AsAsked (cfg : BgpConfig) (s : State) (call : Call) : Prop :=
  (announce cfg s call).1 → (announce cfg s call).2.frr = call.want

/-- Where the call succeeds, the daemon has what the driver believes, or the call asks for another
set that takes in all it has beyond that. -/
def Level (cfg : BgpConfig) (s : State) (call : Call) : Prop :=
  (announce cfg s call).1 →
    s.frr = s.announced ∨ call.want ≠ s.announced ∧ s.frr \ s.announced ⊆ call.want

def FailsClean (cfg : BgpConfig) (s : State) (call : Call) : Prop :=
  (announce cfg s call).1 = false → (announce cfg s call).2.frr = s.frr

variable {cfg : BgpConfig} {s : State} {call : Call} {calls : List Call}

@[simp] theorem foldl_text {α : Type*} (l : List α) (f : α → String) (frr) :
    (l.map fun x => Line.text (f x)).foldl merge frr = frr := by
  induction l <;> simp_all [merge]

@[simp] theorem foldl_network (l : List String) (frr) :
    (l.map Line.network).foldl merge frr = frr ∪ l.toFinset := by
  induction l generalizing frr with
  | nil => simp
  | cons route l ih =>
    simp only [map_cons, foldl_cons, merge, ih, toFinset_cons]
    grind

@[simp] theorem foldl_noNetwork (l : List String) (frr) :
    (l.map Line.noNetwork).foldl merge frr = frr \ l.toFinset := by
  induction l generalizing frr with
  | nil => simp
  | cons route l ih =>
    simp only [map_cons, foldl_cons, merge, ih, toFinset_cons]
    grind

theorem foldl_fragment (cfg : BgpConfig) (announced withdrawn frr : Finset String) :
    (fragment cfg announced withdrawn).foldl merge frr = (frr ∪ announced) \ withdrawn := by
  cases h : cfg.evpn <;> simp [fragment, heading, closing, routes, foldl_append, merge, h]

theorem asAsked_iff_level : AsAsked cfg s call ↔ Level cfg s call := by
  refine imp_congr_right fun hok => ?_
  by_cases hsame : s.announced = call.want
  · simp [announce, hsame]
  · cases hfate : call.fate with
    | applied =>
      simp only [announce, hsame, hfate, if_false, foldl_fragment]
      grind
    | unwritten | failed => simp [announce, hsame, hfate] at hok

theorem each_congr {P Q : State → Call → Prop} (h : ∀ s call, P s call ↔ Q s call) :
    Each cfg P s calls ↔ Each cfg Q s calls := by
  induction calls generalizing s with
  | nil => rfl
  | cons call calls ih => simp only [Each, h, ih]

/-- From level to level, where the calls that fail leave the daemon as it was. -/
theorem each_asAsked (hlevel : s.frr = s.announced) (h : Each cfg (FailsClean cfg) s calls) :
    Each cfg (AsAsked cfg) s calls := by
  induction calls generalizing s with
  | nil => trivial
  | cons call calls ih =>
    have hasked : AsAsked cfg s call := asAsked_iff_level.mpr fun _ => .inl hlevel
    refine ⟨hasked, ih ?_ h.2⟩
    have hclean := h.1
    simp only [AsAsked, FailsClean, announce] at hasked hclean ⊢
    grind

/-- A run of calls announces what was asked exactly where each call that succeeds finds the daemon
level, and it does so wherever no failed call changed the daemon's networks. -/
theorem announced_as_asked (cfg : BgpConfig) (calls : List Call) :
    (Each cfg (AsAsked cfg) .fresh calls ↔ Each cfg (Level cfg) .fresh calls) ∧
      (Each cfg (FailsClean cfg) .fresh calls → Each cfg (AsAsked cfg) .fresh calls) :=
  ⟨each_congr fun _ _ => asAsked_iff_level, each_asAsked rfl⟩

def lab : BgpConfig := ⟨65000, "10.0.0.1", [], false⟩

theorem announced_as_asked_retried :
    Each lab (AsAsked lab) .fresh [⟨{"a"}, .failed 3⟩, ⟨{"a"}, .applied⟩, ⟨{"b"}, .applied⟩] :=
  (announced_as_asked lab _).2 (by simp only [Each, FailsClean]; decide +kernel)

/-- A shell out of time after the line of a prefix: when nothing is asked for any more, the driver
has nothing to do and the daemon announces the prefix for ever. -/
theorem prefix_left_announced : ¬ Each lab (AsAsked lab) .fresh
    [⟨{"a"}, .failed 7⟩, ⟨∅, .applied⟩] := by
  have hok : (announce lab (announce lab .fresh ⟨{"a"}, .failed 7⟩).2 ⟨∅, .applied⟩).1 := by
    decide +kernel
  intro h
  have hfrr := h.2.1 hok
  revert hfrr
  decide +kernel

end MeisterStack.LinuxNetwork.Frr
