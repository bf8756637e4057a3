/-
**The tool runner's semaphore — how many executions hold a slot at once.**

`release` gives its slot back before the waiter it wakes takes it, in a later microtask.

* `Slots.bounded` — no more slots are held than there are, **as long as no call takes the slot that a
  woken waiter is about to take.**
* `Slots.barged` — a call in between makes two holders of one slot.
-/

import Iterabase.Gateway.Types

namespace Iterabase.Gateway

open Conc List Option

/-- `Semaphore`, with the executions that are past the queue. -/
structure Slots where
  maximum : Nat
  used : Nat := 0
  waiters : List InvocationID := []
  /-- Their promise is resolved; `acquire` has not resumed. -/
  woken : List InvocationID := []
  /-- `acquire` has returned. -/
  holding : List InvocationID := []
  /-- `module.invoke` was entered. -/
  invoking : List InvocationID := []

inductive Slots.Move
  /-- `execute`, up to its first suspension. -/
  | execute (id : InvocationID)
  | resume (id : InvocationID)
  | invoke (id : InvocationID)
  /-- The execution throws before `module.invoke`. -/
  | refuse (id : InvocationID)
  | settle (id : InvocationID)

namespace Slots

variable {n : Nat} {s s' : Slots} {m : Move}

def held (s : Slots) : Nat := s.holding.length + s.invoking.length

/-- The slots that are taken or about to be. -/
def due (s : Slots) : Nat := s.used + s.woken.length

/-- From `this.used++` on. -/
def take (s : Slots) (id : InvocationID) : Slots :=
  { s with used := s.used + 1, holding := s.holding ++ [id] }

def acquire (s : Slots) (id : InvocationID) : Slots :=
  if s.used ≥ s.maximum then { s with waiters := s.waiters ++ [id] } else s.take id

def release (s : Slots) : Slots :=
  { s with
    used := s.used - 1
    waiters := s.waiters.tail
    woken := s.woken ++ s.waiters.head?.toList }

/-- One microtask. -/
def next (s : Slots) : Move → Option Slots
  | .execute id => some (s.acquire id)
  | .resume id =>
      if id ∈ s.woken then some ({ s with woken := s.woken.erase id }.take id) else none
  | .invoke id =>
      if id ∈ s.holding then
        some { s with holding := s.holding.erase id, invoking := s.invoking ++ [id] }
      else none
  | .refuse id =>
      if id ∈ s.holding then some { s with holding := s.holding.erase id }.release else none
  | .settle id =>
      if id ∈ s.invoking then some { s with invoking := s.invoking.erase id }.release else none

/-- A call of `acquire` leaves the slots alone that woken waiters are about to take. -/
def Orderly (s : Slots) : Move → Prop
  | .execute _ => s.used < s.maximum → s.due < s.maximum
  | _ => True

instance (s : Slots) : (m : Move) → Decidable (s.Orderly m)
  | .execute _ => inferInstanceAs (Decidable (_ → _))
  | .resume _ | .invoke _ | .refuse _ | .settle _ => .isTrue trivial

/-- What holds in every run. -/
structure Sound (n : Nat) (s : Slots) : Prop where
  maximum : s.maximum = n
  used : s.used = s.held
  waiters : s.waiters ≠ [] → n ≤ s.due

/-- A release hands its slot to the first waiter. -/
theorem release_sound (maximum : s.maximum = n) (used : s.used = s.held + 1)
    (waiters : s.waiters ≠ [] → n ≤ s.due) :
    s.release.Sound n ∧ (s.due ≤ n → s.release.due ≤ n) := by
  rcases queue : s.waiters with _ | ⟨first, rest⟩
  · refine ⟨⟨maximum, by simp [release, held, used], fun more => ?_⟩, fun bounded => ?_⟩
    · simp [release, queue] at more
    · simp only [release, due, queue, head?_nil, toList_none, append_nil] at bounded ⊢
      omega
  · have handed : s.release.due = s.due := by
      simp only [release, due, queue, head?_cons, toList_some, length_append,
        length_singleton]
      omega
    refine ⟨⟨maximum, by simp [release, held, used], fun _ => ?_⟩, handed.trans_le⟩
    rw [handed]
    exact waiters (by simp [queue])

theorem next_sound (sound : s.Sound n) (moved : s.next m = some s') :
    s'.Sound n ∧ (s.Orderly m → s.due ≤ n → s'.due ≤ n) := by
  obtain ⟨maximum, used, waiters⟩ := sound
  cases m with
  | execute id =>
    cases moved
    unfold acquire
    split
    · rename_i full
      refine ⟨⟨maximum, used, fun _ => ?_⟩, fun _ bounded => bounded⟩
      simp only [due]
      omega
    · rename_i free
      refine ⟨⟨maximum, by simp [take, held, used]; omega, fun more => ?_⟩, fun orderly _ => ?_⟩
      · have := waiters more
        simp only [take, due] at this ⊢
        omega
      · have := orderly (by omega)
        simp only [take, due] at this ⊢
        omega
  | resume id =>
    simp only [next, ite_none_right_eq_some] at moved
    obtain ⟨member, ⟨⟩⟩ := moved
    have fewer := length_erase_of_mem member
    have some_woken := length_pos_of_mem member
    have same : ({ s with woken := s.woken.erase id }.take id).due = s.due := by
      simp only [take, due, fewer]
      omega
    refine ⟨⟨maximum, by simp [take, held, used]; omega, fun more => ?_⟩, fun _ bounded => ?_⟩
    · rw [same]
      exact waiters more
    · rw [same]
      exact bounded
  | invoke id =>
    simp only [next, ite_none_right_eq_some] at moved
    obtain ⟨member, ⟨⟩⟩ := moved
    have fewer := length_erase_of_mem member
    have some_holding := length_pos_of_mem member
    refine ⟨⟨maximum, ?_, waiters⟩, fun _ bounded => bounded⟩
    simp only [held, length_append, length_singleton] at used ⊢
    omega
  | refuse id | settle id =>
    simp only [next, ite_none_right_eq_some] at moved
    obtain ⟨member, ⟨⟩⟩ := moved
    have fewer := length_erase_of_mem member
    have some_held := length_pos_of_mem member
    refine (release_sound ?_ ?_ ?_).imp_right fun bounded _ => bounded
    · exact maximum
    · simp only [held] at used ⊢
      omega
    · exact waiters

/-! ### Every run -/

variable {ok : Slots → Move → Prop}

theorem reach_sound (reached : Reach next ok { maximum := n } s) : s.Sound n :=
  reached.invariant (I := Sound n) ⟨rfl, rfl, nofun⟩ fun _ _ _ sound _ moved => (next_sound sound moved).1

/-- **The concurrency bound**: at most `n` slots are held and at most `n` `module.invoke` calls run, where no
call takes the slot of a woken waiter; and a waiter always stays queued only while all slots are held or a
wake-up is pending. -/
theorem bounded (n : Nat) :
    (∀ s, Reach next Orderly { maximum := n } s → s.held ≤ n ∧ s.invoking.length ≤ n) ∧
      ∀ s, Reach next (fun _ _ => True) { maximum := n } s →
        s.waiters ≠ [] → s.held < n → s.woken ≠ [] := by
  constructor
  · intro s reached
    have inv := reached.invariant (I := fun s => s.Sound n ∧ s.due ≤ n)
      ⟨⟨rfl, rfl, nofun⟩, Nat.zero_le _⟩ fun s m s' inv orderly moved =>
        have kept := next_sound inv.1 moved
        ⟨kept.1, kept.2 orderly inv.2⟩
    have used := inv.1.used
    have due := inv.2
    simp only [Slots.due, held] at used due ⊢
    omega
  · intro s reached queued free asleep
    have sound := reach_sound reached
    have due := sound.waiters queued
    rw [Slots.due, asleep, length_nil, sound.used] at due
    omega

/-- With one slot, a waiter gets it after it was released. -/
theorem bounded_handover :
    (∃ s, Reach next Orderly { maximum := 1 } s ∧ (s.invoking = ["b"] ∧ s.waiters = ["c"]) ∧
      s.held ≤ 1) ∧
    ∃ s, Reach next (fun _ _ => True) { maximum := 1 } s ∧ (s.waiters ≠ [] ∧ s.held < 1) ∧
      s.woken ≠ [] :=
  ⟨reach_of_replay_and [.execute "a", .execute "b", .execute "c", .refuse "a", .resume "b", .invoke "b"]
    (by decide) fun reached _ => ((bounded 1).1 _ reached).1,
  reach_of_replay_and [.execute "a", .execute "b", .execute "c", .refuse "a"]
    (by decide) fun reached queued => (bounded 1).2 _ reached queued.1 queued.2⟩

/-- **A call between a release and the resumption of the waiter makes two holders of one slot.** -/
theorem barged : ∃ s, Reach next (fun _ _ => True) { maximum := 1 } s ∧ s.invoking = ["c", "b"] :=
  reach_of_replay _ _ _ [.execute "a", .execute "b", .refuse "a", .execute "c", .resume "b", .invoke "c",
    .invoke "b"] _ (by decide)

end Slots

end Iterabase.Gateway
