/-
**Runs of an executable transition system.**

A system is a function `next : σ → μ → Option σ`: the state after a move, or `none` where the move
is not enabled. A run takes moves the guard `ok` admits.

* `Reach.invariant` — what holds at `s₀` and survives every admitted move holds at every reached
  state.
-/

import Mathlib

namespace Iterabase.Conc

open List Option

universe u v

variable {σ : Type u} {μ : Type v}

/-- The states some run of admitted moves reaches from `s₀`. -/
inductive Reach (next : σ → μ → Option σ) (ok : σ → μ → Prop) (s₀ : σ) : σ → Prop
  | start : Reach next ok s₀ s₀
  | move {s s' : σ} {m : μ} :
      Reach next ok s₀ s → ok s m → next s m = some s' → Reach next ok s₀ s'

namespace Reach

variable {next : σ → μ → Option σ} {ok : σ → μ → Prop} {s₀ s : σ}

theorem invariant {I : σ → Prop} (reached : Reach next ok s₀ s) (initial : I s₀)
    (step : ∀ s m s', I s → ok s m → next s m = some s' → I s') : I s := by
  induction reached with
  | start => exact initial
  | move _ admitted moved ih => exact step _ _ _ ih admitted moved

end Reach

/-- Run a list of moves, stopping at the first one that is not admitted or not enabled. -/
def replay (next : σ → μ → Option σ) (ok : σ → μ → Prop) [∀ s m, Decidable (ok s m)] :
    σ → List μ → Option σ
  | s, [] => some s
  | s, m :: rest => if ok s m then (next s m).bind (replay next ok · rest) else none

/-- **A replayed list of moves is a run.** -/
theorem Reach.of_replay {next : σ → μ → Option σ} {ok : σ → μ → Prop}
    [∀ s m, Decidable (ok s m)] {s₀ : σ} (moves : List μ) :
    ∀ {s s' : σ}, Reach next ok s₀ s → replay next ok s moves = some s' → Reach next ok s₀ s' := by
  induction moves with
  | nil =>
    intro s s' reached ran
    cases ran
    exact reached
  | cons m rest ih =>
    intro s s' reached ran
    simp only [replay] at ran
    split at ran
    · rename_i admitted
      obtain ⟨middle, moved, after⟩ := bind_eq_some_iff.mp ran
      exact ih (.move reached admitted moved) after
    · cases ran

/-- **A concrete run**: what holds after a replay holds at some reached state. -/
theorem reach_of_replay (next : σ → μ → Option σ) (ok : σ → μ → Prop) [∀ s m, Decidable (ok s m)]
    (s₀ : σ) (moves : List μ) (P : σ → Prop) [DecidablePred P]
    (ran : (replay next ok s₀ moves).any fun s => decide (P s)) : ∃ s, Reach next ok s₀ s ∧ P s := by
  rcases replayed : replay next ok s₀ moves with _ | s
  · rw [replayed] at ran
    cases ran
  · rw [replayed] at ran
    exact ⟨s, .of_replay moves .start replayed, of_decide_eq_true ran⟩

/-- The same, with what is proved of every run. -/
theorem reach_of_replay_and {next : σ → μ → Option σ} {ok : σ → μ → Prop} [∀ s m, Decidable (ok s m)]
    {s₀ : σ} (moves : List μ) {P Q : σ → Prop} [DecidablePred P]
    (ran : (replay next ok s₀ moves).any fun s => decide (P s))
    (proved : ∀ {s}, Reach next ok s₀ s → P s → Q s) : ∃ s, Reach next ok s₀ s ∧ P s ∧ Q s :=
  (reach_of_replay next ok s₀ moves P ran).imp fun _ reached => ⟨reached.1, reached.2, proved reached.1 reached.2⟩

theorem getElem?_concat_cases {l : List σ} {a b : σ} {i : Nat} (found : (l ++ [a])[i]? = some b) :
    l[i]? = some b ∨ i = l.length ∧ b = a := by
  rcases Nat.lt_or_ge i l.length with inside | outside
  · rw [getElem?_append_left inside] at found
    exact .inl found
  rw [getElem?_append_right outside, getElem?_singleton] at found
  split at found
  · exact .inr ⟨by omega, (some.inj found).symm⟩
  · cases found

theorem mem_modify {l : List σ} {i : Nat} {f : σ → σ} {b : σ} (member : b ∈ l.modify i f) :
    b ∈ l ∨ ∃ a, l[i]? = some a ∧ b = f a := by
  obtain ⟨j, found⟩ := mem_iff_getElem?.mp member
  rw [getElem?_modify] at found
  obtain ⟨a, old, same⟩ := map_eq_some_iff.mp found
  split at same
  · next place => exact .inr ⟨a, place ▸ old, same.symm⟩
  · exact .inl (same ▸ mem_of_getElem? old)

end Iterabase.Conc
