/-
**Identifiers, as Postgres reads and prints them.**

A `uuid` is printed in one way, in lower case with four hyphens, and read in many: digits of either case,
a hyphen after any two bytes, braces around it.
-/

import Mathlib

namespace Iterabase.Data

structure Uuid where
  bytes : List (Fin 16 × Fin 16)
  size : bytes.length = 16
  deriving DecidableEq

namespace Uuid

def digit (d : Fin 16) : Char := Char.ofNat (if d.val < 10 then 48 + d.val else 87 + d.val)

def nibble (c : Char) : Option (Fin 16) :=
  if '0' ≤ c ∧ c ≤ '9' then some (Fin.ofNat 16 (c.toNat - 48))
  else if 'a' ≤ c ∧ c ≤ 'f' then some (Fin.ofNat 16 (c.toNat - 87))
  else if 'A' ≤ c ∧ c ≤ 'F' then some (Fin.ofNat 16 (c.toNat - 55))
  else none

/-- The bytes as they are printed: a hyphen before the last 12, 10, 8 and 6. -/
def printBytes : List (Fin 16 × Fin 16) → List Char
  | [] => []
  | (x, y) :: rest =>
      digit x :: digit y :: if rest.length ∈ [12, 10, 8, 6] then '-' :: printBytes rest else printBytes rest

def skipHyphen : List Char → List Char
  | '-' :: cs => cs
  | cs => cs

/-- Read this many bytes; a hyphen may stand where an even number of them is left. -/
def readBytes : Nat → List Char → Option (List (Fin 16 × Fin 16) × List Char)
  | 0, cs => some ([], cs)
  | n + 1, a :: b :: cs => do
      let x ← nibble a
      let y ← nibble b
      let (bytes, rest) ← readBytes n (if n % 2 = 0 ∧ 0 < n then skipHyphen cs else cs)
      return ((x, y) :: bytes, rest)
  | _ + 1, _ => none

theorem readBytes_length {n : Nat} {cs rest : List Char} {bytes : List (Fin 16 × Fin 16)}
    (read : readBytes n cs = some (bytes, rest)) : bytes.length = n := by
  induction n generalizing cs bytes with
  | zero =>
    cases read
    rfl
  | succ n ih =>
    match cs with
    | [] => cases read
    | [_] => cases read
    | a :: b :: cs =>
      simp only [readBytes, Option.bind_eq_bind, Option.bind_eq_some_iff] at read
      obtain ⟨x, _, y, _, ⟨bytes', rest'⟩, read, same⟩ := read
      cases same
      rw [List.length_cons, ih read]

def ofBytes (closing : List Char) (cs : List Char) : Option Uuid :=
  match read : readBytes 16 cs with
  | some (bytes, rest) => if rest = closing then some ⟨bytes, readBytes_length read⟩ else none
  | none => none

def read (text : String) : Option Uuid :=
  match text.toList with
  | '\x7b' :: cs => ofBytes ['\x7d'] cs
  | cs => ofBytes [] cs

def text (id : Uuid) : String := String.ofList (printBytes id.bytes)

/-- One artifact under two spellings. -/
example : read "0190A0B0-0000-7000-8000-00000000000C" = read "\x7b0190a0b000007000800000000000000c\x7d" := by
  decide +kernel

end Uuid

end Iterabase.Data
