/-
**Durations, as `time.ParseDuration` reads them.**

A duration is a signed count of nanoseconds, written as a sequence of decimal numbers with units.

* `milliseconds_pos_iff` — it is positive from one millisecond on.
-/

import Mathlib

namespace Iterabase.Data

def millisecond : Int := 1000000

/-- `Milliseconds`: truncated towards zero. -/
def milliseconds (d : Int) : Int := d.tdiv millisecond

theorem milliseconds_pos_iff {d : Int} : 0 < milliseconds d ↔ millisecond ≤ d := by
  unfold milliseconds millisecond
  rcases Int.le_total 0 d with nonneg | negative
  · rw [Int.tdiv_eq_ediv_of_nonneg nonneg]
    omega
  have mirrored : d.tdiv 1000000 = -(-d / 1000000) := by
    rw [← Int.tdiv_eq_ediv_of_nonneg (by omega), Int.neg_tdiv, Int.neg_neg]
  omega

def digit (c : Char) : Nat := c.toNat - '0'.toNat

/-- `leadingInt`: the digits in front, unless they exceed 2^63. -/
def leadingInt : List Char → Nat → Option (Nat × List Char)
  | c :: rest, x =>
      if c.isDigit then
        if 2 ^ 63 / 10 < x then none
        else if 2 ^ 63 < x * 10 + digit c then none
        else leadingInt rest (x * 10 + digit c)
      else some (x, c :: rest)
  | [], x => some (x, [])

/-- `leadingFraction`: the digits in front as a number over a power of ten; digits that do not fit are
dropped. -/
def leadingFraction : List Char → Nat → Nat → Bool → Nat × Nat × List Char
  | c :: rest, x, scale, overflow =>
      if c.isDigit then
        if overflow ∨ (2 ^ 63 - 1) / 10 < x ∨ 2 ^ 63 < x * 10 + digit c then
          leadingFraction rest x scale true
        else leadingFraction rest (x * 10 + digit c) (scale * 10) false
      else (x, scale, c :: rest)
  | [], x, scale, _ => (x, scale, [])

def unitOf (unit : List Char) : Option Nat :=
  match String.ofList unit with
  | "ns" => some 1
  | "us" | "µs" | "μs" => some 1000
  | "ms" => some 1000000
  | "s" => some 1000000000
  | "m" => some 60000000000
  | "h" => some 3600000000000
  | _ => none

def endsUnit (c : Char) : Bool := c = '.' || c.isDigit

def parseElement (fraction : Nat → Nat → Nat → Nat) (s : List Char) : Option (Nat × List Char) := do
  -- the first character is a digit or a point
  guard (s.head?.any endsUnit)
  let (v, afterInt) ← leadingInt s 0
  let pre := afterInt.length ≠ s.length
  let (f, scale, afterFraction, post) :=
    match afterInt with
    | '.' :: digits =>
        let (f, scale, rest) := leadingFraction digits 0 1 false
        (f, scale, rest, decide (rest.length ≠ digits.length))
    | _ => (0, 1, afterInt, false)
  guard (pre ∨ post)
  let unit ← unitOf (afterFraction.takeWhile fun c => !endsUnit c)
  guard (v ≤ 2 ^ 63 / unit)
  let v := if 0 < f then v * unit + fraction f unit scale else v * unit
  guard (v ≤ 2 ^ 63)
  return (v, afterFraction.dropWhile fun c => !endsUnit c)

/-- The elements of a duration, with as many rounds as there are characters. -/
def parseElements (fraction : Nat → Nat → Nat → Nat) : Nat → List Char → Nat → Option Nat
  | _, [], d => some d
  | 0, _ :: _, _ => none
  | rounds + 1, s, d => do
      let (v, rest) ← parseElement fraction s
      let d := (d + v) % 2 ^ 64
      guard (d ≤ 2 ^ 63)
      parseElements fraction rounds rest d

def parseDuration (fraction : Nat → Nat → Nat → Nat) (text : String) : Option Int :=
  let (neg, s) :=
    match text.toList with
    | '-' :: rest => (true, rest)
    | '+' :: rest => (false, rest)
    | s => (false, s)
  if s = ['0'] then some 0
  else if s = [] then none
  else do
    let d ← parseElements fraction s.length s 0
    if neg then return -d
    else if 2 ^ 63 - 1 < d then none
    else return d

example : parseDuration (fun _ _ _ => 0) "500us" = some 500000 := by decide +kernel

end Iterabase.Data
