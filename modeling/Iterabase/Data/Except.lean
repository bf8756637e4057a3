/-
**Computations that stop at an error.**

* `bind_ok`, `guard_ok` — what a computation that returned has passed, statement by statement.
* `forM_eq_ok`, `mapM_eq_ok` — the same for the loops.
-/

import Mathlib

namespace Iterabase.Data

variable {ε α β : Type} {x : Except ε α} {f : α → Except ε β} {a : α} {b : β} {err : ε}

theorem bind_ok : (x >>= f) = .ok b ↔ ∃ a, x = .ok a ∧ f a = .ok b := by
  cases x with
  | error | ok => simp [bind, Except.bind]

@[simp] theorem throw_ok : (throw err : Except ε α) = .ok a ↔ False := ⟨nofun, False.elim⟩

@[simp] theorem return_ok {a' : α} : (pure a : Except ε α) = .ok a' ↔ a = a' := Except.ok.injEq a a' ▸ .rfl

/-- A check that throws, and what follows it. -/
theorem guard_ok {p : Prop} [Decidable p] {x : Except ε β} :
    (if p then throw err >>= f else x) = .ok b ↔ ¬ p ∧ x = .ok b := by
  by_cases stops : p
  · simp [stops, bind_ok]
  · simp [stops]

theorem refused_ok {p : Prop} [Decidable p] {x : Except ε β} :
    (if p then .error err else x) = .ok b ↔ ¬ p ∧ x = .ok b := by
  by_cases stops : p
  · simp [stops]
  · simp [stops]

theorem forM_eq_ok {check : α → Except ε Unit} {items : List α} :
    items.forM check = .ok () ↔ ∀ item ∈ items, check item = .ok () := by
  induction items with
  | nil => simp
  | cons item rest ih =>
    rw [List.forall_mem_cons, ← ih]
    exact bind_ok.trans ⟨fun ⟨_, first, others⟩ => ⟨first, others⟩, fun ⟨first, others⟩ => ⟨(), first, others⟩⟩

theorem mapM_eq_ok {items : List α} {results : List β} :
    items.mapM f = .ok results ↔ List.Forall₂ (fun item result => f item = .ok result) items results := by
  induction items generalizing results with
  | nil => rw [List.mapM_nil, return_ok, List.forall₂_nil_left_iff, eq_comm]
  | cons item rest ih =>
    simp only [List.mapM_cons, bind_ok, return_ok, ih]
    cases results with
    | nil => simp
    | cons result results => simp

end Iterabase.Data
