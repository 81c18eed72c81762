import MeisterStack.ControllerApi.Scheduler
import MeisterStack.Foundation.Text

/-!
# Claims on one snapshot

A claim is judged against the claims listed before it in the order of their revisions. The revision
is a text of the store; one that is no number sorts last.
-/

namespace MeisterStack.ControllerApi

open Foundation List

structure ListedReservation where
  resourceVersion : String
  reservation : CapacityReservation
  deriving DecidableEq

namespace ListedReservation

def i64Max : Int := 9223372036854775807

def parseI64 (text : String) : Option Int :=
  match text.toList with
  | '-' :: digits => ((Text.decimal digits).filter (· ≤ 9223372036854775808)).map fun n => -n
  | chars => (Text.unsigned 9223372036854775808 chars).map Int.ofNat

def madeAt (r : ListedReservation) : Int × String :=
  ((parseI64 r.resourceVersion).getD i64Max, r.reservation.name)

def before (a b : Int × String) : Bool := a.1 < b.1 || a.1 = b.1 && a.2 < b.2

abbrev queue := ControllerApi.queue reservation fun r r' => before r.madeAt r'.madeAt

def holds (room : Capacity) (mine : ListedReservation) (held : List ListedReservation) : Bool :=
  holdsBehind reservation (fun r r' => before r.madeAt r'.madeAt) mine held room

variable {room : Capacity} {held held' : List ListedReservation} {mine r : ListedReservation}

theorem before_iff {a b} : before a b ↔ toLex a < toLex b := by
  simp [before, Prod.Lex.toLex_lt_toLex]

theorem plus_right_comm (a b c : Capacity) : (a.plus b).plus c = (a.plus c).plus b := by
  simp only [Capacity.plus, Sat.add, Sat.clamp, Capacity.mk.injEq, Sat.mk.injEq]
  omega

theorem holds_perm (h : held.Perm held') : holds room mine held' = holds room mine held := by
  have hqueue : (queue mine held).Perm (queue mine held') := (h.filter _).filter _
  have hcomm : RightCommutative fun (sum : Capacity) (r : ListedReservation) =>
      sum.plus r.reservation.size := ⟨fun a b c => plus_right_comm a _ _⟩
  simp only [holds, holdsBehind, hqueue.foldl_eq]

theorem add_le_of_holds (d : Dimension) (h : holds room mine held)
    (hpos : 0 < d.of mine.reservation.size) :
    ((queue mine held).map fun r => d.of r.reservation.size).sum + d.of mine.reservation.size ≤
      d.of room := by
  have hfits := d.of_fitsIn h
  simp only [d.of_minus, d.of_foldl_plus, d.of_none, Nat.zero_add] at hfits
  simp only [queue]
  have hmax := d.of_le room
  omega

/-- The claims of a node that hold on one snapshot fit in its room together, and which they are
does not depend on the order of the list. -/
theorem holding_claims_fit (room : Capacity) (node : String) (held : List ListedReservation)
    (hnames : (held.map fun r => r.reservation.name).Nodup) (d : Dimension) :
    ((held.filter fun r => r.reservation.node = node && holds room r held).map fun r =>
      d.of r.reservation.size).sum ≤ d.of room ∧
    ∀ held', held.Perm held' → ∀ mine, holds room mine held' = holds room mine held := by
  refine ⟨?_, fun held' hperm mine => holds_perm hperm⟩
  have hnodup : held.Nodup := hnames.of_map _
  have hinj : ∀ x ∈ held, ∀ y ∈ held, x.reservation.name = y.reservation.name → x = y :=
    fun x hx y hy => inj_on_of_nodup_map hnames hx hy
  rw [← sum_toFinset _ (hnodup.filter _)]
  refine sum_le_of_queue (fun r => toLex r.madeAt)
    (held.toFinset.filter fun r => r.reservation.node = node) (fun r hr => ?_)
    (fun x hx y hy heq => ?_) fun r hr hpos => ?_
  · simp_all
  · refine hinj x ?_ y ?_ (congrArg (fun k => (ofLex k).2) heq)
    · simp_all
    · simp_all
  · have hr' : (r ∈ held ∧ r.reservation.node = node) ∧ holds room r held := by
      simpa [and_assoc] using hr
    refine le_trans (Nat.add_le_add_right ?_ _) (add_le_of_holds d hr'.2 hpos)
    rw [queue, ControllerApi.queue, ← sum_toFinset _ ((hnodup.filter _).filter _)]
    refine Finset.sum_le_sum_of_subset fun q hq => ?_
    simp only [Finset.mem_filter, mem_toFinset] at hq
    have hne : q.reservation.name ≠ r.reservation.name := fun hname => by
      rw [hinj q hq.1.1 r hr'.1.1 hname] at hq
      exact lt_irrefl _ hq.2
    simp [hq.1.1, hq.1.2, hr'.1.2, hne, before_iff.mpr hq.2]

/-- A claim of two for a room of three; only the first to be made holds. -/
def twoVcpus (resourceVersion name : String) : ListedReservation :=
  ⟨resourceVersion, ⟨name, "n", "", "", .placement, "", "", ⟨.clamp 2, .zero⟩⟩⟩

theorem holding_claims_fit_late :
    holds ⟨.clamp 3, .zero⟩ (twoVcpus "7" "b") [twoVcpus "x" "a", twoVcpus "7" "b"] ∧
      (([twoVcpus "x" "a", twoVcpus "7" "b"].filter fun r => r.reservation.node = "n" &&
        holds ⟨.clamp 3, .zero⟩ r [twoVcpus "x" "a", twoVcpus "7" "b"]).map fun r =>
          Dimension.vcpus.of r.reservation.size).sum ≤ 3 :=
  ⟨by decide +kernel, (holding_claims_fit ⟨.clamp 3, .zero⟩ "n" [twoVcpus "x" "a", twoVcpus "7" "b"]
    (by decide +kernel) .vcpus).1⟩

end ListedReservation

end MeisterStack.ControllerApi
