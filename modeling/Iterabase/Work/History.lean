/-
**An attempt is a bounded walk.**

What the tables of an attempt record, read in the order of `execution_seq`, is a walk through the graph
it was created with: from the entry node, along edges, with its visits numbered, and no longer than the
graph allows.

* `attempts_walk` — **every attempt in every state the engine reaches is such a walk.**
-/

import Iterabase.Work.Coherence

namespace Iterabase.Work

open Conc Workflow List NodeExecution

/-- The executions of an attempt, by `execution_seq`. -/
def State.executions (s : State) (attemptID : ID) : List NodeExecution :=
  (s.nodesOf attemptID).mergeSort fun m n => decide (m.executionSeq ≤ n.executionSeq)

/-- The rows of an attempt are a walk through its graph. -/
structure History (s : State) (a : Attempt) : Prop where
  /-- The positions are 1, 2, …, without gaps. -/
  numbered : (s.executions a.id).map executionSeq =
    List.range' 1 (s.executions a.id).length
  entry : (s.executions a.id).head?.any fun n => n.nodeKey = a.graph.entryNode
  /-- One transition leaves each execution but the last; it leads to the next one, along an edge. -/
  linked : ∀ i m n, (s.executions a.id)[i]? = some m → (s.executions a.id)[i + 1]? = some n →
    ∃ t ∈ s.transitions.rows, t.fromExecutionID = m.id ∧ t.toExecutionID = some n.id ∧
      ⟨m.nodeKey, t.outcome, n.nodeKey⟩ ∈ a.graph.edges ∧
      ∀ t' ∈ s.transitions.rows, t'.fromExecutionID = m.id → t' = t
  /-- The visits of a node are 1, 2, …, in the order of the executions. -/
  visits : ∀ key, ((s.executions a.id).filter fun n => n.nodeKey = key).map NodeExecution.visit =
    List.range' 1 ((s.executions a.id).filter fun n => n.nodeKey = key).length
  bounded : ((s.transitionsOf a.id).filter fun t => !t.terminal).length ≤ a.graph.maxTransitions ∧
    (s.executions a.id).length ≤ a.graph.maxTransitions + 1
  /-- A terminal transition is there iff the run has succeeded. -/
  succeeded : (∃ t ∈ s.transitionsOf a.id, t.terminal) ↔ a.run = .succeeded
  /-- It leaves the last execution, with an outcome that is declared terminal. -/
  last : ∀ t ∈ s.transitionsOf a.id, t.terminal → ∃ n, (s.executions a.id).getLast? = some n ∧
    t.fromExecutionID = n.id ∧ ⟨n.nodeKey, t.outcome⟩ ∈ a.graph.terminalOutcomes

/-! ### Walks, from their start -/

namespace Linked

variable {g : CanonicalGraph} {n : NodeExecution} {rest : List NodeExecution} {moves : List Transition}

section Linked

variable (linked : Linked g (n :: rest) moves)

include linked

theorem moves_length : moves.length = rest.length := by
  induction linked using Linked.along with
  | entry => rfl
  | step _ _ ih => rw [length_cons, length_cons, ih]

theorem seq_eq : n.executionSeq = rest.length + 1 := by
  induction linked using Linked.along with
  | entry here => exact here.2.2
  | step link _ ih =>
    obtain ⟨_, _, seq, _⟩ := link
    rw [seq, ih, length_cons]

theorem numbered :
    (n :: rest).reverse.map executionSeq = List.range' 1 (rest.length + 1) := by
  induction linked using Linked.along with
  | entry here =>
    rw [reverse_singleton, map_singleton, here.seq_eq]
    rfl
  | @step _ _ rest _ _ link _ ih =>
    rw [reverse_cons, map_append, ih, map_singleton, link.seq_eq, length_cons,
      show List.range' 1 (rest.length + 1 + 1) = _ from range'_1_concat, Nat.add_comm 1]

theorem visited (key : String) :
    ((n :: rest).reverse.filter fun m => m.nodeKey = key).map NodeExecution.visit =
    List.range' 1 ((n :: rest).filter fun m => m.nodeKey = key).length := by
  induction linked using Linked.along with
  | @entry n here =>
    obtain ⟨_, visit, _⟩ := here
    by_cases same : n.nodeKey = key <;> simp [same, visit]
  | @step n m rest _ _ link _ ih =>
    obtain ⟨_, _, _, visit, _⟩ := link
    rw [reverse_cons, filter_append, map_append, ih]
    by_cases same : n.nodeKey = key
    · simp [same, visit, range'_1_concat, Nat.add_comm 1]
    · simp [same]

theorem entry_key : ∃ m, (n :: rest).reverse.head? = some m ∧ m.nodeKey = g.entryNode := by
  induction linked using Linked.along with
  | entry here => exact ⟨_, rfl, here.1⟩
  | step _ _ ih =>
    obtain ⟨first, here, key⟩ := ih
    refine ⟨first, ?_, key⟩
    rw [reverse_cons, head?_append, here]
    rfl

theorem stepped {i : Nat} {k k' : NodeExecution} (first : (n :: rest).reverse[i]? = some k)
    (second : (n :: rest).reverse[i + 1]? = some k') :
    ∃ t ∈ moves, t.fromExecutionID = k.id ∧ t.toExecutionID = some k'.id ∧
    ⟨k.nodeKey, t.outcome, k'.nodeKey⟩ ∈ g.edges := by
  induction linked using Linked.along with
  | entry =>
    cases second
  | @step _ m rest t _ link _ ih =>
    obtain ⟨⟨_, leaves, enters, edge⟩, _⟩ := link
    rw [reverse_cons] at first second
    have total : (m :: rest).reverse.length = rest.length + 1 := by simp
    rcases Nat.lt_trichotomy (i + 1) (rest.length + 1) with inside | last | outside
    · -- both lie in the walk so far
      rw [getElem?_append_left (by omega)] at first second
      obtain ⟨t', member, step⟩ := ih first second
      exact ⟨t', .tail _ member, step⟩
    · -- the last step
      rw [getElem?_append_left (by omega)] at first
      rw [getElem?_append_right (by omega), total, last, Nat.sub_self] at second
      cases second
      have head : (m :: rest).reverse[i]? = some m := by
        rw [reverse_cons, getElem?_append_right (by rw [length_reverse]; omega),
          length_reverse, show i - rest.length = 0 by omega]
        rfl
      cases head.symm.trans first
      exact ⟨t, .head _, leaves, enters, edge⟩
    · rw [getElem?_append_right (by omega), total,
        getElem?_eq_none (by rw [length_singleton]; omega)] at second
      cases second

end Linked

end Linked

/-! ### The order of the executions -/

/-- Sorting the rows by position reverses them: the newest comes first in the table. -/
theorem executions_eq {s : State} {A : ID} {g : CanonicalGraph} {n : NodeExecution}
    {rest : List NodeExecution} {moves : List Transition} (nodes : s.nodesOf A = n :: rest)
    (linked : Linked g (n :: rest) moves) : s.executions A = (n :: rest).reverse := by
  have rising : (n :: rest).reverse.Pairwise fun k k' => k.executionSeq < k'.executionSeq := by
    rw [← pairwise_map, linked.numbered]
    exact pairwise_lt_range' 1
  unfold State.executions
  rw [nodes]
  have sorted : ((n :: rest).mergeSort fun k k' => decide (k.executionSeq ≤ k'.executionSeq)).Pairwise
      fun k k' => decide (k.executionSeq ≤ k'.executionSeq) = true := by
    refine pairwise_mergeSort (fun a b c first second => ?_) (fun a b => ?_) (n :: rest)
    · have first := of_decide_eq_true first
      have second := of_decide_eq_true second
      exact decide_eq_true (Nat.le_trans first second)
    · rcases Nat.le_total a.executionSeq b.executionSeq with le | le <;> simp [le]
  have perm := (mergeSort_perm (n :: rest) fun k k' : NodeExecution =>
    decide (k.executionSeq ≤ k'.executionSeq)).trans (reverse_perm _).symm
  refine perm.eq_of_pairwise ?_ sorted (rising.imp fun {k k'} less => decide_eq_true (Nat.le_of_lt less))
  intro k k' member member' below above
  have same : k.executionSeq = k'.executionSeq :=
    Nat.le_antisymm (of_decide_eq_true below) (of_decide_eq_true above)
  have distinct : ((n :: rest).reverse.map executionSeq).Nodup := by
    rw [linked.numbered]
    exact nodup_range'
  exact inj_on_of_nodup_map distinct (perm.mem_iff.mp member) member' same

/-! ### Every attempt -/

theorem Inv.history {lib : Library} {s : State} (inv : Inv lib s) {A : ID} {a : Attempt}
    (found : s.attempts.find A = some a) : History s a := by
  obtain rfl : a.id = A := Table.find_key found
  obtain ⟨v, here, graph, _, run⟩ := State.view_of_find found
  obtain ⟨n, rest, moves, course, ending, _⟩ := inv.sound here
  have linked := course.linked
  have bounded := course.bounded
  rw [graph] at linked bounded
  have ordered := executions_eq ((State.view_nodes here).symm.trans course.nodes) linked
  have length : (s.executions a.id).length = moves.length + 1 := by
    rw [ordered, length_reverse, length_cons, linked.moves_length]
  have transitions := State.view_transitions here
  have walked : ∀ t ∈ moves, t ∈ s.transitions.rows := by
    intro t member
    have inside : t ∈ v.transitions := by
      cases ending with
      | going _ same => rw [same]; exact member
      | reached _ _ last => rw [last]; exact .tail _ member
    rw [transitions] at inside
    exact (mem_filter.mp inside).1
  refine ⟨?_, ?_, fun i k k' first second => ?_, fun key => ?_, ⟨?_, ?_⟩, ?_, fun t member terminal => ?_⟩
  · rw [length, ordered, linked.numbered, linked.moves_length]
  · obtain ⟨m, first, key⟩ := linked.entry_key
    rw [ordered, first]
    exact decide_eq_true key
  · rw [ordered] at first second
    obtain ⟨t, member, leaves, enters, edge⟩ := linked.stepped first second
    refine ⟨t, walked t member, leaves, enters, edge, fun t' member' leaves' => ?_⟩
    exact inj_on_of_nodup_map s.transitions.distinct member' (walked t member)
      (leaves'.trans leaves.symm)
  · rw [ordered, linked.visited key, filter_reverse, length_reverse]
  · rw [← transitions]
    cases ending with
    | going _ same =>
      rw [same]
      exact le_trans (Int.ofNat_le.mpr (length_filter_le _ _)) bounded
    | reached t _ last terminal =>
      rw [last, filter_cons_of_neg (by simp [terminal])]
      exact le_trans (Int.ofNat_le.mpr (length_filter_le _ _)) bounded
  · omega
  · rw [← transitions, ← run]
    cases ending with
    | going running same =>
      rw [same]
      refine ⟨fun ⟨t, member, terminal⟩ => ?_, fun succeeded => absurd succeeded running⟩
      rw [linked.plain t member] at terminal
      cases terminal
    | reached t succeeded last terminal =>
      exact ⟨fun _ => succeeded, fun _ => ⟨t, by rw [last]; exact .head _, terminal⟩⟩
  · rw [← transitions] at member
    refine ⟨n, by rw [ordered, getLast?_reverse]; rfl, ?_⟩
    cases ending with
    | going _ same =>
      rw [same] at member
      rw [linked.plain t member] at terminal
      cases terminal
    | reached t' _ last _ leaves declared =>
      rw [last] at member
      rcases mem_cons.mp member with rfl | member
      · exact ⟨leaves, by rw [← graph]; exact declared⟩
      · rw [linked.plain t member] at terminal
        cases terminal

/-- **In every state the engine reaches, the rows of every attempt are a bounded walk.** -/
theorem attempts_walk (lib : Library) {c : Config Unit Input State}
    (reached : (engine lib).Reaches .free State.empty c) {id : ID} {a : Attempt}
    (found : c.shared.attempts.find id = some a) : History c.shared a :=
  (engine_inv reached).history found

/-- An approval that can be asked for again. -/
def repeating : CanonicalSpec :=
  { approval with
    graph := { approval.graph with
      nodes := approval.graph.nodes.map fun n => { n with
        outcomes := ["approve", "again"]
        humanGate := n.humanGate.map fun gate =>
          { gate with presentation := { outcomes := [text "Approve", text "Again"] } } }
      edges := [⟨"review", "again", "review"⟩] } }

def repeated : List (Move Input Request) := opening repeating {} ++ [
  .run 1 { blockerID := "b" },
  .start (.respondBlocker { blockerID := "b", actorIdentityID := "u", outcome := "again" }),
  .run 2 { nodeID := "n'" },
  .start (.prepareNode "a"),
  .run 3 { blockerID := "b'" },
  .start (.respondBlocker { blockerID := "b'", actorIdentityID := "u", outcome := "approve" }),
  .run 4 {}]

/-- A walk of two visits, which ends. -/
theorem attempts_walk_repeated :
    ∃ (c : Config Unit Input State) (a : Attempt), (engine lenient).Reaches .free State.empty c ∧
      a.run = .succeeded ∧ (c.shared.nodesOf a.id).map NodeExecution.visit = [2, 1] ∧
      History c.shared a := by
  obtain ⟨c, reached, a, found, succeeded, visits⟩ :=
    (engine lenient).reaches_of_replay .free State.empty repeated
      (fun s => ∃ a ∈ s.attempts.find "a", a.run = .succeeded ∧
        (s.nodesOf a.id).map NodeExecution.visit = [2, 1]) (by decide +kernel)
  exact ⟨c, a, reached, succeeded, visits, attempts_walk lenient reached found⟩

end Iterabase.Work
