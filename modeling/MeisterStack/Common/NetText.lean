import MeisterStack.Common.Net
import MeisterStack.Foundation.Text

/-!
# The text of addresses and ranges

How both tiers read an IPv4 address and a range of them, and how they write a range down.
An octet is written without leading zeros.
-/

namespace MeisterStack.Common

open Foundation.Text String Bool

structure Ipv4Addr where
  a : Fin 256
  b : Fin 256
  c : Fin 256
  d : Fin 256
  deriving DecidableEq

namespace Ipv4Addr

variable (addr : Ipv4Addr)

def toNat : Nat :=
  addr.a * 2 ^ 24 + addr.b * 2 ^ 16 + addr.c * 2 ^ 8 + addr.d

theorem toNat_lt : addr.toNat < 2 ^ 32 := by
  unfold toNat
  omega

def ofNat (n : Nat) : Ipv4Addr :=
  ⟨Fin.ofNat 256 (n / 2 ^ 24), Fin.ofNat 256 (n / 2 ^ 16), Fin.ofNat 256 (n / 2 ^ 8),
    Fin.ofNat 256 n⟩

def display : String := s!"{addr.a}.{addr.b}.{addr.c}.{addr.d}"

def readOctet (text : List Char) : Option (Fin 256) :=
  if text.length ≤ 3 ∧ (text.length ≤ 1 ∨ text.head? ≠ some '0') then
    (decimal text).bind fun n => if h : n < 256 then some ⟨n, h⟩ else none
  else none

def fromStr (text : List Char) : Option Ipv4Addr :=
  match text.splitOn '.' with
  | [a, b, c, d] => do
      some ⟨← readOctet a, ← readOctet b, ← readOctet c, ← readOctet d⟩
  | _ => none

end Ipv4Addr

inductive RangeError where
  | empty
  | malformed (text : String)
  | inverted (text : String)
  | prefixTooLong (text : String)
  deriving DecidableEq

def RangeError.display (escape : Char → String) : RangeError → String
  | .empty => "an address range cannot be empty"
  | .malformed text =>
    quoted escape text ++ " is not an address range; write a cidr (10.255.0.0/16), " ++
      "a single address (203.0.113.7) or a range (203.0.113.8-203.0.113.11)"
  | .inverted text => quoted escape text ++ " ends before it starts"
  | .prefixTooLong text => quoted escape text ++ " has a prefix length above 32"

namespace Ipv4Range

def parseAddr (part whole : List Char) : Except RangeError Ipv4Addr :=
  match Ipv4Addr.fromStr (trim part) with
  | some addr => .ok addr
  | none => .error (.malformed (ofList whole))

def single (addr : Ipv4Addr) : Ipv4Range :=
  ⟨addr.toNat, addr.toNat, false, Nat.le_refl _, addr.toNat_lt⟩

def fromStr (s : String) : Except RangeError Ipv4Range :=
  let text := trim s.toList
  if text = [] then .error .empty
  else
    match splitOnce '-' text with
    | some (a, b) => do
        let start ← parseAddr a text
        let last ← parseAddr b text
        if h : start.toNat ≤ last.toNat then
          .ok ⟨start.toNat, last.toNat, false, h, last.toNat_lt⟩
        else .error (.inverted (ofList text))
    | none =>
      match splitOnce '/' text with
      | some (addr, len) => do
          let addr ← parseAddr addr text
          match unsigned (2 ^ 32) (trim len) with
          | none => .error (.malformed (ofList text))
          | some len =>
            -- an address is in range, so only the length can be too long
            match ofCidr addr.toNat len with
            | none => .error (.prefixTooLong (ofList text))
            | some range => .ok range
      | none => do
          let addr ← parseAddr text text
          .ok (single addr)

def readable (entries : List String) : List Ipv4Range :=
  entries.filterMap fun entry => (fromStr entry).toOption

def covers (r other : Ipv4Range) : Bool := r.start ≤ other.start && other.last ≤ r.last

def toCidr (r : Ipv4Range) : Option String :=
  if r.isCidr then
    some ((Ipv4Addr.ofNat r.start).display ++ "/" ++ toString (32 - r.len.log2))
  else none

def display (r : Ipv4Range) : String :=
  if r.start = r.last then (Ipv4Addr.ofNat r.start).display
  else (Ipv4Addr.ofNat r.start).display ++ "-" ++ (Ipv4Addr.ofNat r.last).display

variable {r : Ipv4Range} {addr : Nat}

theorem contains_iff : r.contains addr ↔ r.start ≤ addr ∧ addr ≤ r.last := by
  simp [contains]

theorem not_contains_of_not_overlaps {other} (h : r.overlaps other = false)
    (haddr : r.contains addr) : other.contains addr = false := by
  by_contra hother
  simp only [not_eq_false, contains_iff] at haddr hother
  simp only [overlaps, and_eq_false_iff, decide_eq_false_iff_not] at h
  omega

theorem contains_of_covers {other} (h : r.covers other) (haddr : other.contains addr) :
    r.contains addr := by
  simp only [covers, and_eq_true, decide_eq_true_eq] at h
  rw [contains_iff] at haddr ⊢
  omega

end Ipv4Range

end MeisterStack.Common
