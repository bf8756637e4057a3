/-
**Tokens of a stream.**

`handleStreaming` turns the running totals that a backend reports into differences and hands them to a
`TPMBatcher` through a channel. `Add` does not wait: what finds the channel full is dropped, while the
reader goes on from the new total.

* `tokens_charged` — **where no `Add` finds the channel full, the largest total is charged.**
* `tokens_dropped` — a batcher that is slower than the stream.
-/

import Iterabase.Conc.Run
import Mathlib

namespace Iterabase.Proxy.Batcher

open Conc List

/-- An `int` of Go. -/
def int64 (n : Int) : Int := n.bmod (2 ^ 64)

inductive Loop
  | selecting
  /-- In `flush`, before the channel was found empty. -/
  | flushing
  | incrementing
  /-- `stopCh` was seen. -/
  | draining
  | done
  deriving DecidableEq

structure State where
  /-- The reader's total, and the totals of all chunks it has read. -/
  prevTotalTokens : Int := 0
  totals : List Int := []
  tokensCh : List Int := []
  pending : Int := 0
  loop : Loop := .selecting
  /-- `stopCh` is closed; `Stop` has returned. -/
  stopping : Bool := false
  returned : Bool := false
  /-- What was passed to `IncrementTPM`. -/
  charged : Int := 0

open State

inductive Move
  /-- The reader reads a chunk with usage. -/
  | chunk (totalTokens : Int)
  /-- The stream ends and `Stop` is called. -/
  | stop
  | receive
  | tick
  /-- One turn of the loop that empties the channel. -/
  | drain
  | incremented
  | stopSeen
  /-- `done` is closed: `Stop` charges what is left and returns. -/
  | finish

def State.add (s : State) (tokens : Int) : State :=
  if s.tokensCh.length < 256 then { s with tokensCh := s.tokensCh ++ [tokens] } else s

/-- A call of `IncrementTPM`, made with a positive amount only. -/
def State.increment (s : State) : State :=
  { s with charged := s.charged + if 0 < s.pending then s.pending else 0 }

def next (s : State) : Move → Option State
  | .chunk total =>
    if s.stopping ∨ total < -2 ^ 63 ∨ 2 ^ 63 ≤ total then none else
    let s := { s with totals := total :: s.totals }
    let delta := int64 (total - s.prevTotalTokens)
    some (if 0 < delta then { s.add delta with prevTotalTokens := total } else s)
  | .stop => if s.stopping then none else some { s with stopping := true }
  | .receive => match s.loop, s.tokensCh with
    | .selecting, tokens :: rest => some { s with tokensCh := rest, pending := int64 (s.pending + tokens) }
    | _, _ => none
  | .tick => if s.loop = .selecting then some { s with loop := .flushing } else none
  | .drain => match s.loop, s.tokensCh with
    | .flushing, [] => some { s.increment with loop := if 0 < s.pending then .incrementing else .selecting }
    | .draining, [] => some { s with loop := .done }
    | .flushing, tokens :: rest | .draining, tokens :: rest =>
      some { s with tokensCh := rest, pending := int64 (s.pending + tokens) }
    | _, _ => none
  | .incremented =>
    if s.loop = .incrementing then some { s with loop := .selecting, pending := 0 } else none
  | .stopSeen => if s.loop = .selecting ∧ s.stopping then some { s with loop := .draining } else none
  | .finish =>
    if s.loop = .done ∧ s.returned = false then
      some { s.increment with pending := 0, returned := true }
    else none

/-- `Add`, if it is called, finds room in the channel, and the difference to the largest total is an
`int`. -/
def Room (s : State) : Move → Prop
  | .chunk total => (s.prevTotalTokens < total → s.tokensCh.length < 256) ∧ -2 ^ 63 ≤ total - s.prevTotalTokens
  | _ => True

instance (s : State) (m : Move) : Decidable (Room s m) := by
  cases m <;> unfold Room <;> infer_instance

/-! ### The account -/

/-- What is pending and not yet charged. -/
def State.open_ (s : State) : Int := if s.loop = .incrementing then 0 else s.pending

/-- **Every token is charged, pending or in the channel.** -/
structure Account (s : State) : Prop where
  balance : s.charged + s.open_ + s.tokensCh.sum = s.prevTotalTokens
  largest : s.prevTotalTokens = s.totals.foldr max 0
  range : 0 ≤ s.prevTotalTokens ∧ s.prevTotalTokens < 2 ^ 63
  amounts : 0 ≤ s.charged ∧ 0 ≤ s.pending
  tokens : ∀ n ∈ s.tokensCh, 0 ≤ n
  stopping : s.loop = .draining ∨ s.loop = .done → s.stopping
  empty : s.loop = .done → s.tokensCh = []
  returned : s.returned → s.loop = .done ∧ s.pending = 0

theorem int64_eq {n : Int} (low : -2 ^ 63 ≤ n) (high : n < 2 ^ 63) : int64 n = n :=
  Int.bmod_eq_of_le_mul_two (by omega) (by omega)

namespace Account

variable {s s' : State}

section Account

variable (account : Account s)

include account

theorem chunk {total : Int} (room : Room s (.chunk total))
    (moved : next s (.chunk total) = some s') : Account s' := by
  simp only [next] at moved
  split at moved
  · cases moved
  rename_i reads
  simp only [not_or, Bool.not_eq_true] at reads
  obtain ⟨going, low, high⟩ := reads
  have before := account.range
  rw [int64_eq room.2 (by omega)] at moved
  have largest : max total s.prevTotalTokens = (total :: s.totals).foldr max 0 := by
    rw [foldr_cons, ← account.largest]
  split at moved <;> cases moved
  · next more =>
    have balance : s.charged + s.open_ + (s.tokensCh ++ [total - s.prevTotalTokens]).sum = total := by
      rw [sum_append, sum_singleton, ← add_assoc, account.balance]
      omega
    have tokens : ∀ n ∈ s.tokensCh ++ [total - s.prevTotalTokens], 0 ≤ n := by
      simp only [mem_append, mem_singleton]
      rintro n (old | rfl)
      · exact account.tokens n old
      · omega
    have range : 0 ≤ total ∧ total < 2 ^ 63 := by omega
    rw [max_eq_left (by omega)] at largest
    rw [add, if_pos (room.1 (by omega))]
    refine { account with balance, largest, range, tokens, empty := fun ended => ?_ }
    rw [account.stopping (.inr ended)] at going
    cases going
  · rw [max_eq_right (by omega)] at largest
    exact { account with largest }

theorem take {tokens : Int} {rest : List Int} (here : s.tokensCh = tokens :: rest)
    (free : s.loop ≠ .incrementing) :
    Account { s with tokensCh := rest, pending := int64 (s.pending + tokens) } := by
  have balance := account.balance
  have positive := account.tokens
  rw [here] at positive
  have left := sum_nonneg fun n member => positive n (.tail _ member)
  rw [open_, if_neg free, here, sum_cons] at balance
  obtain ⟨charged, pending⟩ := account.amounts
  have range := account.range
  have first := positive tokens (.head _)
  have unended : s.loop ≠ .done := fun ended => by cases here.symm.trans (account.empty ended)
  rw [int64_eq (by omega) (by omega)]
  have balance : s.charged + (if s.loop = .incrementing then 0 else s.pending + tokens) + rest.sum =
      s.prevTotalTokens := by
    rw [if_neg free]
    omega
  exact { account with
    balance, amounts := ⟨charged, Int.add_nonneg pending first⟩, tokens := fun n member => positive n (.tail _ member)
    empty := fun ended => absurd ended unended
    returned := fun returned => absurd (account.returned returned).1 unended }

/-- The goroutine, or `Stop`, goes on with the channel as it is. -/
theorem goes {loop : Loop} {charged pending : Int} {returned : Bool}
    (balance : charged + (if loop = .incrementing then 0 else pending) = s.charged + s.open_)
    (amounts : 0 ≤ charged ∧ 0 ≤ pending)
    (stopping : loop = .draining ∨ loop = .done → s.stopping)
    (empty : loop = .done → s.tokensCh = []) (returned_ : returned → loop = .done ∧ pending = 0) :
    Account { s with loop, charged, pending, returned } :=
  { account with
    balance := (congrArg (· + s.tokensCh.sum) balance).trans account.balance
    amounts, stopping, empty, returned := returned_ }

theorem increment : s.increment = { s with charged := s.charged + s.pending } := by
  have pending := account.amounts.2
  have same : (if 0 < s.pending then s.pending else 0) = s.pending := by split <;> omega
  rw [State.increment, same]

theorem not_returned (loop : s.loop ≠ .done) {P : Prop} (returned : s.returned) : P :=
  absurd (account.returned returned).1 loop

theorem step {m : Move} (room : Room s m) (moved : next s m = some s') : Account s' := by
  cases m with
  | chunk total => exact account.chunk room moved
  | stop =>
    simp only [next] at moved
    split at moved <;> cases moved
    exact { account with stopping := fun _ => rfl }
  | receive =>
    simp only [next] at moved
    split at moved
    · next loop here =>
      cases moved
      exact account.take here (by rw [loop]; nofun)
    · cases moved
  | tick =>
    simp only [next] at moved
    split at moved <;> cases moved
    next loop =>
      exact account.goes (by rw [open_, loop]; rfl) account.amounts nofun nofun
        (account.not_returned (by rw [loop]; nofun))
  | drain =>
    simp only [next] at moved
    split at moved
    · next loop empty =>
      cases moved
      obtain ⟨charged, pending⟩ := account.amounts
      rw [account.increment]
      split
      · exact account.goes (by simp [open_, loop]) ⟨Int.add_nonneg charged pending, pending⟩ nofun nofun
          (account.not_returned (by rw [loop]; nofun))
      · next none =>
        have none : s.pending = 0 := by omega
        exact account.goes (by simp [open_, loop, none]) ⟨Int.add_nonneg charged pending, pending⟩ nofun
          nofun (account.not_returned (by rw [loop]; nofun))
    · next loop empty =>
      cases moved
      exact account.goes (by rw [open_, loop]; rfl) account.amounts
        (fun _ => account.stopping (.inl loop)) (fun _ => empty) (account.not_returned (by rw [loop]; nofun))
    · next loop here =>
      cases moved
      exact account.take here (by rw [loop]; nofun)
    · next loop here =>
      cases moved
      exact account.take here (by rw [loop]; nofun)
    · cases moved
  | incremented =>
    simp only [next] at moved
    split at moved <;> cases moved
    next loop =>
      exact account.goes (by rw [open_, loop]; rfl) ⟨account.amounts.1, Int.le_refl _⟩ nofun nofun
        (account.not_returned (by rw [loop]; nofun))
  | stopSeen =>
    simp only [next] at moved
    split at moved <;> cases moved
    next both =>
      exact account.goes (by rw [open_, both.1]; rfl) account.amounts (fun _ => both.2) nofun
        (account.not_returned (by rw [both.1]; nofun))
  | finish =>
    simp only [next] at moved
    split at moved <;> cases moved
    next both =>
      obtain ⟨charged, pending⟩ := account.amounts
      rw [account.increment]
      exact account.goes (by simp [open_, both.1]) ⟨Int.add_nonneg charged pending, Int.le_refl _⟩
        (fun _ => account.stopping (.inr both.1)) (fun _ => account.empty both.1) fun _ => ⟨both.1, rfl⟩

end Account

end Account

/-- **Tokens are charged in full.** -/
theorem tokens_charged {s : State} (reached : Reach next Room {} s) (returned : s.returned) :
    s.charged = s.totals.foldr max 0 := by
  have account : Account s := reached.invariant
    ⟨rfl, rfl, by decide, by decide, nofun, nofun, nofun, nofun⟩
    fun _ _ _ account room moved => account.step room moved
  obtain ⟨ended, pending⟩ := account.returned returned
  have balance := account.balance
  rw [open_, if_neg (by rw [ended]; nofun), pending, account.empty ended] at balance
  rw [← account.largest, ← balance]
  simp

/-- A chunk whose tokens are received and flushed, one whose tokens `Stop` finds in the channel. -/
theorem tokens_charged_twice : ∃ s, Reach next Room {} s ∧ s.totals = [7, 3] ∧
    s.charged = s.totals.foldr max 0 := by
  obtain ⟨s, reached, totals, returned⟩ := reach_of_replay next Room {} [.chunk 3, .receive, .tick, .drain,
    .incremented, .chunk 7, .stop, .stopSeen, .drain, .drain, .finish]
    (fun s => s.totals = [7, 3] ∧ s.returned) (by decide +kernel)
  exact ⟨s, reached, totals, tokens_charged reached returned⟩

/-- **Tokens are dropped.** 257 chunks come while the goroutine does nothing, and the channel has room
for 256. -/
theorem tokens_dropped : ¬ ∀ s, Reach next (fun _ _ => True) {} s → s.returned →
    s.charged = s.totals.foldr max 0 := by
  intro claim
  obtain ⟨s, reached, returned, less⟩ := reach_of_replay next (fun _ _ => True) {}
    ((List.range 257).map (fun n => .chunk (n + 1)) ++ [.stop, .stopSeen] ++
      List.replicate 257 .drain ++ [.finish])
    (fun s => s.returned ∧ s.charged ≠ s.totals.foldr max 0) (by decide +kernel)
  exact less (claim s reached returned)

end Iterabase.Proxy.Batcher
