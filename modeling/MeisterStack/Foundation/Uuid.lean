import MeisterStack.Foundation.Text
import Mathlib.Data.List.SplitLengths

/-!
# UUIDs

Identifiers of thirty-two hexadecimal digits. An identifier is written in one way, with small
letters and in groups, and read in four: without the groups, with them, in braces and as a URN, each
in either case.
-/

namespace MeisterStack.Foundation

open List Option

namespace Text

def hexDigit (c : Char) : Option (Fin 16) :=
  if '0' ≤ c ∧ c ≤ '9' then some (Fin.ofNat 16 (c.toNat - '0'.toNat))
  else if 'a' ≤ c ∧ c ≤ 'f' then some (Fin.ofNat 16 (c.toNat - 'a'.toNat + 10))
  else if 'A' ≤ c ∧ c ≤ 'F' then some (Fin.ofNat 16 (c.toNat - 'A'.toNat + 10))
  else none

def hexChar (d : Fin 16) : Char := "0123456789abcdef".toList.getD d.val '0'

theorem hexDigit_hexChar : ∀ d, hexDigit (hexChar d) = some d := by decide

theorem mapM_hexDigit (digits : List (Fin 16)) :
    (digits.map hexChar).mapM hexDigit = some digits := by
  induction digits with
  | nil => rfl
  | cons d digits ih => simp [hexDigit_hexChar, ih]

end Text

open Text

structure Uuid where
  digits : List (Fin 16)
  complete : digits.length = 32
  deriving DecidableEq

namespace Uuid

def ofDigits (digits : List (Fin 16)) : Option Uuid :=
  if h : digits.length = 32 then some ⟨digits, h⟩ else none

def groups : List Nat := [8, 4, 4, 4, 12]

variable (text : List Char)

def readSimple : Option Uuid := (text.mapM hexDigit).bind ofDigits

def readHyphenated : Option Uuid :=
  let parts := text.splitOn '-'
  if parts.map length = groups then readSimple parts.flatten else none

def unbraced : List Char → Option (List Char)
  | '{' :: rest => if rest.getLast? = some '}' then some rest.dropLast else none
  | _ => none

def read : Option Uuid :=
  (readHyphenated text).or <| (readSimple text).or <|
    ((unbraced text).bind readHyphenated).or <|
      (text.dropPrefix? "urn:uuid:".toList).bind readHyphenated

def parse (text : String) : Option Uuid := read text.toList

def write (u : Uuid) : List Char :=
  ['-'].intercalate (groups.splitLengths (u.digits.map hexChar))

instance : ToString Uuid := ⟨fun u => String.ofList u.write⟩

theorem hyphen_not_mem (digits : List (Fin 16)) : '-' ∉ digits.map hexChar := by
  have hchar : ∀ d, hexChar d ≠ '-' := by decide
  simpa [eq_comm] using fun d _ => hchar d

theorem splitOn_write (u : Uuid) :
    u.write.splitOn '-' = groups.splitLengths (u.digits.map hexChar) := by
  have hflat : (groups.splitLengths (u.digits.map hexChar)).flatten = u.digits.map hexChar :=
    flatten_splitLengths _ _ (by simp [u.complete, groups])
  refine splitOn_intercalate '-' (fun part hpart hyphen => ?_) (by simp [groups])
  exact hyphen_not_mem u.digits (hflat ▸ mem_flatten_of_mem hpart hyphen)

theorem read_write (u) : read u.write = some u := by
  have hlength : (u.digits.map hexChar).length = groups.sum := by simp [u.complete, groups]
  have hread : readHyphenated u.write = some u := by
    simp only [readHyphenated, splitOn_write,
      map_splitLengths_length _ _ hlength.ge, flatten_splitLengths _ _ hlength.le,
      readSimple, mapM_hexDigit, if_true, bind_some, ofDigits, u.complete, dif_pos]
  rw [read, hread, some_or]

theorem mem_write {u : Uuid} {c} (h : c ∈ u.write) : c = '-' ∨ c ∈ u.digits.map hexChar := by
  simp only [write, groups, splitLengths, intercalate, intersperse,
    flatten_cons, flatten_nil, mem_append, mem_singleton, not_mem_nil,
    or_false] at h
  have htake : ∀ n l, c ∈ take n l → c ∈ l := fun _ _ => mem_of_mem_take
  have hdrop : ∀ n (l : List Char), c ∈ l.drop n → c ∈ l := fun _ _ => mem_of_mem_drop
  grind

@[simp] theorem parse_toString (u) : parse (toString u) = some u := by
  simp [parse, toString, read_write]

theorem toString_injective : Function.Injective (toString : Uuid → String) := by
  intro u v h
  simpa using congrArg parse h

end Uuid

end MeisterStack.Foundation
