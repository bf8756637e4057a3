/-
**Breadth-first walks of a finite graph.**

The graph is a list of edges over any type. A walk takes vertices from a queue and appends the targets
it has not seen; each edge can append one vertex, so one round for each edge and one for the start are
enough for the queue to run empty.

* `walk` — the vertices a walk has seen at its end.
* `mem_walk_iff` — **they are the vertices that paths of edges reach.**
-/

import Mathlib

namespace Iterabase.Data

open List

variable {α : Type} [DecidableEq α]

def Edge (edges : List (α × α)) (a b : α) : Prop := (a, b) ∈ edges

def targets (edges : List (α × α)) (a : α) : List α := (edges.filter (·.1 = a)).map Prod.snd

variable {edges : List (α × α)}

theorem mem_targets {a b : α} : b ∈ targets edges a ↔ Edge edges a b := by
  simp only [targets, mem_map, mem_filter, decide_eq_true_eq, Edge]
  constructor
  · rintro ⟨⟨a', b'⟩, ⟨member, rfl⟩, rfl⟩
    exact member
  · exact fun member => ⟨(a, b), ⟨member, rfl⟩, rfl⟩

/-- Mark the vertices that were not seen, and append them to the queue. -/
def enqueue : List α → List α → List α → List α × List α
  | [], seen, queue => (seen, queue)
  | x :: rest, seen, queue =>
      if x ∈ seen then enqueue rest seen queue else enqueue rest (x :: seen) (queue ++ [x])

def walkLoop (edges : List (α × α)) : Nat → List α → List α → List α
  | 0, _, seen => seen
  | _ + 1, [], seen => seen
  | rounds + 1, current :: queue, seen =>
      let marked := enqueue (targets edges current) seen queue
      walkLoop edges rounds marked.2 marked.1

def walk (edges : List (α × α)) (start : α) : List α :=
  walkLoop edges (edges.length + 1) [start] [start]

/-! ### One round -/

/-- What marking does: exactly the given vertices are added, the new ones to both lists. -/
structure Marked (xs seen queue : List α) (marked : List α × List α) : Prop where
  seen_iff : ∀ x, x ∈ marked.1 ↔ x ∈ seen ∨ x ∈ xs
  queued : ∀ x ∈ marked.2, x ∈ queue ∨ x ∈ xs
  keeps : ∀ x ∈ queue, x ∈ marked.2
  fresh : ∀ x ∈ marked.1, x ∈ seen ∨ x ∈ marked.2

theorem enqueue_marked (xs seen queue : List α) : Marked xs seen queue (enqueue xs seen queue) := by
  induction xs generalizing seen queue with
  | nil => exact ⟨by simp [enqueue], fun x member => .inl member, fun x member => member,
      fun x member => .inl member⟩
  | cons y rest ih =>
    unfold enqueue
    by_cases known : y ∈ seen
    · rw [if_pos known]
      have step := ih seen queue
      refine ⟨fun x => ?_, fun x member => ?_, step.keeps, step.fresh⟩
      · rw [step.seen_iff, mem_cons]
        refine ⟨fun h => h.imp id .inr, fun h => ?_⟩
        rcases h with old | rfl | new
        · exact .inl old
        · exact .inl known
        · exact .inr new
      · exact (step.queued x member).imp id (mem_cons_of_mem y)
    · rw [if_neg known]
      have step := ih (y :: seen) (queue ++ [y])
      refine ⟨fun x => ?_, fun x member => ?_, fun x member => ?_, fun x member => ?_⟩
      · rw [step.seen_iff, mem_cons, mem_cons]
        tauto
      · rcases step.queued x member with old | new
        · rcases mem_append.mp old with old | last
          · exact .inl old
          · exact .inr (mem_cons.mpr (.inl (mem_singleton.mp last)))
        · exact .inr (mem_cons_of_mem y new)
      · exact step.keeps x (mem_append_left _ member)
      · rcases step.fresh x member with old | new
        · rcases mem_cons.mp old with rfl | old
          · exact .inr (step.keeps x (mem_append_right _ (mem_singleton_self x)))
          · exact .inl old
        · exact .inr new

/-- The rounds a walk may still need: the queue, and what may still enter it. -/
def debt (vertices : Finset α) (seen queue : List α) : Nat :=
  queue.length + (vertices \ seen.toFinset).card

variable {vertices : Finset α}

theorem enqueue_debt {xs : List α} (inside : ∀ x ∈ xs, x ∈ vertices) (seen queue : List α) :
    debt vertices (enqueue xs seen queue).1 (enqueue xs seen queue).2 = debt vertices seen queue := by
  induction xs generalizing seen queue with
  | nil => rfl
  | cons y rest ih =>
    have inside' : ∀ x ∈ rest, x ∈ vertices := fun x member => inside x (mem_cons_of_mem y member)
    unfold enqueue
    by_cases known : y ∈ seen
    · rw [if_pos known, ih inside']
    rw [if_neg known, ih inside']
    -- the new vertex leaves the unseen ones and enters the queue
    have unseen : y ∈ vertices \ seen.toFinset := by
      rw [Finset.mem_sdiff, mem_toFinset]
      exact ⟨inside y (.head _), known⟩
    have rest : vertices \ (y :: seen).toFinset = (vertices \ seen.toFinset).erase y := by
      ext x
      simp only [toFinset_cons, Finset.mem_sdiff, Finset.mem_insert, Finset.mem_erase]
      tauto
    have positive := Finset.card_pos.mpr ⟨y, unseen⟩
    simp only [debt, rest, Finset.card_erase_of_mem unseen, length_append, length_cons,
      length_nil]
    omega

/-! ### The whole walk -/

/-- What every round keeps: all that is seen is reached, and is expanded or waits in the queue. -/
structure Walking (edges : List (α × α)) (start : α) (queue seen : List α) : Prop where
  started : start ∈ seen
  waiting : ∀ x ∈ queue, x ∈ seen
  expanded : ∀ x ∈ seen, x ∈ queue ∨ ∀ y, Edge edges x y → y ∈ seen
  reached : ∀ x ∈ seen, Relation.ReflTransGen (Edge edges) start x

theorem Walking.round {start current : α} {queue seen : List α}
    (walking : Walking edges start (current :: queue) seen) :
    Walking edges start (enqueue (targets edges current) seen queue).2
    (enqueue (targets edges current) seen queue).1 := by
  have step := enqueue_marked (targets edges current) seen queue
  have here : current ∈ seen := walking.waiting current (.head _)
  refine ⟨(step.seen_iff start).mpr (.inl walking.started), fun x member => ?_, fun x member => ?_,
    fun x member => ?_⟩
  · rw [step.seen_iff]
    exact (step.queued x member).imp (fun old => walking.waiting x (.tail _ old)) id
  · rcases step.fresh x member with old | waits
    · rcases walking.expanded x old with queued | closed
      · rcases mem_cons.mp queued with rfl | queued
        · exact .inr fun y edge => (step.seen_iff y).mpr (.inr (mem_targets.mpr edge))
        · exact .inl (step.keeps x queued)
      · exact .inr fun y edge => (step.seen_iff y).mpr (.inl (closed y edge))
    · exact .inl waits
  · rcases (step.seen_iff x).mp member with old | new
    · exact walking.reached x old
    · exact (walking.reached current here).tail (mem_targets.mp new)

/-- A walk with enough rounds ends with an empty queue. -/
theorem Walking.loop {start : α}
    (inside : ∀ a b, Edge edges a b → b ∈ vertices) {rounds : Nat} {queue seen : List α}
    (walking : Walking edges start queue seen) (enough : debt vertices seen queue ≤ rounds) :
    Walking edges start [] (walkLoop edges rounds queue seen) := by
  induction rounds generalizing queue seen with
  | zero =>
    have empty : queue = [] := length_eq_zero_iff.mp (by unfold debt at enough; omega)
    rw [empty] at walking
    exact walking
  | succ rounds ih =>
    cases queue with
    | nil => exact walking
    | cons current queue =>
      refine ih walking.round ?_
      have same := enqueue_debt (fun x member => inside current x (mem_targets.mp member)) seen queue
      have popped : debt vertices seen (current :: queue) = debt vertices seen queue + 1 := by
        simp only [debt, length_cons]
        omega
      omega

/-- **A walk sees exactly what paths of edges reach.** -/
theorem mem_walk_iff (edges : List (α × α)) (start x : α) :
    x ∈ walk edges start ↔ Relation.ReflTransGen (Edge edges) start x := by
  have begun : Walking edges start [start] [start] :=
    ⟨mem_singleton_self start, fun x member => member, fun x member => .inl member,
      fun x member => by rw [mem_singleton.mp member]⟩
  have inside : ∀ a b, Edge edges a b → b ∈ (edges.map Prod.snd).toFinset := fun a b edge =>
    mem_toFinset.mpr (mem_map.mpr ⟨(a, b), edge, rfl⟩)
  have enough : debt (edges.map Prod.snd).toFinset [start] [start] ≤ edges.length + 1 := by
    have fewer := Finset.card_le_card
      (Finset.sdiff_subset (s := (edges.map Prod.snd).toFinset) (t := [start].toFinset))
    have distinct := toFinset_card_le (edges.map Prod.snd)
    rw [length_map] at distinct
    simp only [debt, length_cons, length_nil]
    omega
  have ended := begun.loop inside enough
  constructor
  · exact ended.reached x
  · intro path
    induction path with
    | refl => exact ended.started
    | tail _ edge ih =>
      rcases ended.expanded _ ih with queued | closed
      · cases queued
      · exact closed _ edge

end Iterabase.Data
