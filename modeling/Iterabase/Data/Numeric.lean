/-
**The decimal arithmetic of Postgres**, for numbers that are not negative.

A `numeric` is a number of units and the count of its decimals. A product is exact. A quotient is rounded
to decimals that the division chooses by the size of its operands, and a column rounds it again to its
own decimals.

* `roundDiv` — a quotient, rounded half up.
* `Numeric.mul`, `Numeric.div`, `Numeric.rescale` — a product, a quotient, and what a column makes of it.
* `Numeric.rescale_div` — **a quotient in a column has been rounded twice.**
-/

import Mathlib

namespace Iterabase.Data

/-! ### Rounding -/

def roundDiv (a b : Nat) : Nat := (2 * a + b) / (2 * b)

section Rounding

variable {a b k m : Nat}

theorem le_roundDiv (positive : 0 < b) : m ≤ roundDiv a b ↔ m * (2 * b) ≤ 2 * a + b :=
  Nat.le_div_iff_mul_le (by omega)

theorem lt_succ_roundDiv (positive : 0 < b) : 2 * a + b < (roundDiv a b + 1) * (2 * b) := by
  by_contra reached
  exact absurd ((le_roundDiv positive).mpr (Nat.not_lt.mp reached)) (Nat.not_succ_le_self _)

theorem roundDiv_one (a : Nat) : roundDiv a 1 = a := by
  unfold roundDiv
  omega

theorem roundDiv_mul_right (a b : Nat) {c : Nat} (positive : 0 < c) :
    roundDiv (a * c) (b * c) = roundDiv a b := by
  have numerator : 2 * (a * c) + b * c = (2 * a + b) * c := by ring
  have denominator : 2 * (b * c) = 2 * b * c := by ring
  unfold roundDiv
  rw [numerator, denominator, Nat.mul_div_mul_right _ _ positive]

/-- What the second rounding compares, for an even number of parts. -/
theorem le_roundDiv_twice {h : Nat} (positive : 0 < b) (some : 0 < h) :
    m + 1 ≤ roundDiv (roundDiv (a * (2 * h)) b) (2 * h) ↔ (2 * m + 1) * h * (2 * b) ≤ 4 * a * h + b := by
  rw [le_roundDiv (by omega)]
  have halves : (m + 1) * (2 * (2 * h)) ≤ 2 * roundDiv (a * (2 * h)) b + 2 * h ↔
      (2 * m + 1) * h ≤ roundDiv (a * (2 * h)) b := by
    constructor
    · intro le
      nlinarith
    · intro le
      nlinarith
  rw [halves, le_roundDiv positive]
  have parts : 2 * (a * (2 * h)) = 4 * a * h := by ring
  rw [parts]

/-- **Rounding twice loses nothing**: what is rounded up at once is rounded up. -/
theorem roundDiv_le_twice (positive : 0 < b) (some : 0 < k) (even : 2 ∣ k) :
    roundDiv a b ≤ roundDiv (roundDiv (a * k) b) k := by
  obtain ⟨h, rfl⟩ := even
  cases rounded : roundDiv a b with
  | zero => exact Nat.zero_le _
  | succ m =>
    have once : (m + 1) * (2 * b) ≤ 2 * a + b := (le_roundDiv positive).mp rounded.ge
    refine (le_roundDiv_twice positive (by omega)).mpr ?_
    have half : (2 * m + 1) * b ≤ 2 * a := by nlinarith
    nlinarith [Nat.mul_le_mul_right (2 * h) half]

/-- **Rounding twice gains one unit at most.** -/
theorem roundDiv_twice_le_succ (positive : 0 < b) (some : 0 < k) (even : 2 ∣ k) :
    roundDiv (roundDiv (a * k) b) k ≤ roundDiv a b + 1 := by
  obtain ⟨h, rfl⟩ := even
  by_contra above
  have twice := (le_roundDiv_twice (a := a) (h := h) (m := roundDiv a b + 1) positive (by omega)).mp
    (by omega)
  have once := lt_succ_roundDiv (a := a) positive
  nlinarith [Nat.mul_le_mul_left (4 * b) some, Nat.mul_le_mul_right (2 * h) once.le]

/-- **And none** where the parts are finer than the divisor. -/
theorem roundDiv_twice (positive : 0 < b) (even : 2 ∣ k) (fine : b < k) :
    roundDiv (roundDiv (a * k) b) k = roundDiv a b := by
  refine le_antisymm ?_ (roundDiv_le_twice positive (by omega) even)
  obtain ⟨h, rfl⟩ := even
  by_contra above
  have twice := (le_roundDiv_twice (a := a) (h := h) (m := roundDiv a b) positive (by omega)).mp
    (by omega)
  have once := lt_succ_roundDiv (a := a) positive
  have half : 2 * a + 1 ≤ (2 * roundDiv a b + 1) * b := by nlinarith
  nlinarith [Nat.mul_le_mul_right (2 * h) half]

end Rounding

/-! ### Numbers -/

/-- `units / 10 ^ scale`, printed with `scale` decimals. -/
structure Numeric where
  units : Nat
  scale : Nat

namespace Numeric

/-- The units, with decimals that fill their last group of four. -/
def aligned (x : Numeric) : Nat := x.units * 10 ^ ((4 - x.scale % 4) % 4)

/-- The weight of the first digit in base 10000. -/
def weight (x : Numeric) : Int :=
  if x.units = 0 then 0 else (Nat.log 10000 x.aligned : Int) - ((x.scale + 3) / 4 : Nat)

def firstDigit (x : Numeric) : Nat := x.aligned / 10000 ^ Nat.log 10000 x.aligned

def mul (x y : Numeric) : Numeric := ⟨x.units * y.units, x.scale + y.scale⟩

/-- The weight a quotient is taken to have. -/
def divWeight (x y : Numeric) : Int :=
  x.weight - y.weight - if x.firstDigit ≤ y.firstDigit then 1 else 0

/-- `select_div_scale`: 16 significant digits, and no fewer decimals than an operand has. -/
def divScale (x y : Numeric) : Nat :=
  min (max (max (16 - 4 * divWeight x y).toNat x.scale) y.scale) 1000

def div (x y : Numeric) : Numeric :=
  ⟨roundDiv (x.units * 10 ^ (divScale x y + y.scale)) (y.units * 10 ^ x.scale), divScale x y⟩

def rescale (x : Numeric) (scale : Nat) : Numeric :=
  if x.scale ≤ scale then ⟨x.units * 10 ^ (scale - x.scale), scale⟩
  else ⟨roundDiv x.units (10 ^ (x.scale - scale)), scale⟩

variable {x y : Numeric}

/-- The decimals of a quotient beyond those of its dividend. -/
theorem scale_le_divScale (printable : x.scale ≤ 1000) : x.scale ≤ divScale x y :=
  le_min (le_max_of_le_left (le_max_right _ _)) printable

/-- **A quotient by a whole number, in a column with the decimals of the dividend**, has been rounded
twice. -/
theorem rescale_div (printable : x.scale ≤ 1000) (whole : y.scale = 0) :
    ((x.div y).rescale x.scale).units =
    roundDiv (roundDiv (x.units * 10 ^ (divScale x y - x.scale)) y.units)
    (10 ^ (divScale x y - x.scale)) := by
  have wide := scale_le_divScale (y := y) printable
  have quotient : (x.div y).units = roundDiv (x.units * 10 ^ (divScale x y - x.scale)) y.units := by
    have split : x.units * 10 ^ (divScale x y + y.scale) =
        x.units * 10 ^ (divScale x y - x.scale) * 10 ^ x.scale := by
      rw [whole, Nat.mul_assoc, ← pow_add, Nat.add_zero, Nat.sub_add_cancel wide]
    unfold div
    rw [split]
    exact roundDiv_mul_right _ _ (Nat.pow_pos (by decide))
  unfold rescale
  split
  · rename_i narrow
    have same : divScale x y = x.scale := le_antisymm narrow wide
    rw [quotient, same, Nat.sub_self, pow_zero, roundDiv_one]
    change _ * 10 ^ (x.scale - divScale x y) = _
    rw [same, Nat.sub_self, pow_zero, Nat.mul_one]
  · rw [quotient]
    rfl

end Numeric

end Iterabase.Data
