/-
**Confirmations — a stale disclosure resolves nothing.**

`RespondBlocker` compares three sets in one transaction: what the blocker disclosed, what is to be
disclosed now, and what the customer confirms.

* `disclosure_exact` — **a confirmation is resolved only on the current set.**
-/

import Iterabase.Work.Consequences

namespace Iterabase.Work

open Conc Data Workflow List State Table
open Gateway (InvocationID Invocation)

variable {lib : Library} {input : Input} {s s' : State} {b : Blocker} {n node : NodeExecution}

/-- What is to be disclosed for a confirmation: the writes of the earlier visits that succeeded or whose
outcome is unknown. -/
def State.consequences (s : State) (b : Blocker) : List InvocationID :=
  match b.nodeExecutionID.bind s.nodes.find with
  | none => []
  | some n => ((s.earlierWrites n).filter fun inv =>
      inv.state = .succeeded ∨ inv.state = .outcomeUnknown).map Invocation.id

/-! ### Earlier visits -/

theorem Linked.earlier {g : CanonicalGraph} {m : NodeExecution} {rest : List NodeExecution}
    {moves : List Transition} (linked : Linked g (n :: rest) moves) (member : m ∈ rest)
    (key : m.nodeKey = n.nodeKey) : m.visit < n.visit := by
  rcases rest with _ | ⟨last, rest⟩
  · cases member
  rcases moves with _ | ⟨_, moves⟩
  · exact linked.elim
  obtain ⟨_, _, _, visit, before⟩ := linked
  have same : m ∈ (last :: rest).filter fun m => m.nodeKey = n.nodeKey :=
    mem_filter.mpr ⟨member, decide_eq_true key⟩
  have below := le_maximum (mem_map_of_mem (f := NodeExecution.visit) same)
  rw [before.visits] at below
  omega

/-- **What `consequencesForNodeTx` returns** for an open blocker are the writes of the earlier visits. -/
theorem Inv.consequences (inv : Inv lib s) (member : b ∈ s.blockers.rows) (opened : b.state = .opened)
    (node : b.nodeExecutionID = some n.id) (known : s.nodes.find n.id = some n) :
    s.consequencesForNode b.attemptID n.nodeKey n.id = s.consequences b := by
  obtain ⟨v, n', rest, view, _, nodes, own, found, _⟩ := inv.open_blocker member opened
  rw [← Option.some.inj (node.symm.trans own), known] at found
  cases found
  obtain ⟨moves, course, _⟩ := (inv.sound view).at nodes
  have inside : ∀ {m}, m ∈ n :: rest ↔ m ∈ s.nodes.rows ∧ m.attemptID = b.attemptID := by
    rw [← nodes, view_nodes view]
    exact mem_nodesOf
  simp only [State.consequencesForNode, State.consequences, own, Option.bind_some, known,
    State.earlierWrites, State.writesOf, filter_filter, (inside.mp (.head _)).2]
  refine congrArg _ (filter_congr fun row _ => ?_)
  rcases made : s.executionOf row with _ | m
  · simp
  have found := executionOf_found made
  have visits : m.attemptID = b.attemptID → m.nodeKey = n.nodeKey → (m.id ≠ n.id ↔ m.visit < n.visit) := by
    intro attempt key
    constructor
    · intro other
      rcases mem_cons.mp (inside.mpr ⟨find_mem found, attempt⟩) with rfl | earlier
      · exact absurd rfl other
      · exact course.linked.earlier earlier key
    · intro less same
      rw [same, known] at found
      cases found
      exact Nat.lt_irrefl _ less
  simp only [consequential, Option.any_some, Bool.decide_and, Bool.and_assoc, ne_eq]
  grind

/-! ### RespondBlocker -/

theorem Advances.blockers {itemID A : ID} {a : Attempt} {outcome : String}
    (advances : Advances lib input itemID A a node outcome s s') : s'.blockers = s.blockers := by
  cases advances with
  | completes _ inserted credited =>
    obtain ⟨_, _, rfl⟩ := insertTransition_ok inserted
    obtain ⟨_, _, rfl, _⟩ := creditValue_entered credited
    rfl
  | exhausts => rfl
  | proceeds _ _ _ _ placed moved =>
    obtain ⟨_, _, _, rfl⟩ := insertNode_ok placed
    obtain ⟨_, _, rfl⟩ := insertTransition_ok moved
    obtain ⟨_, handed⟩ := handOver_eq _ node input.nodeID
    rw [handed]
    rfl

/-- **A response that is not refused**: what is resolved was current, and what was stale is refreshed. -/
theorem Inv.respondBlocker {response : BlockerResponseInput} {answer : Responded} (inv : Inv lib s)
    (ran : respondBlocker lib input response s = .ok (answer, s')) :
    ∃ b, s.blockers.find b.id = some b ∧ b.state = .opened ∧
      (answer = .resolved ∧ (b.kind = consequenceConfirmation →
          (s.consequences b).Perm b.requiredConsequences ∧
          (s.consequences b).Perm response.confirmedInvocationIDs) ∧
        (∀ id ≠ b.id, s'.blockers.find id = s.blockers.find id) ∨
      b.kind = consequenceConfirmation ∧ ¬ (s.consequences b).Perm b.requiredConsequences ∧
        s' = s.setBlocker b.id (·.disclosing (s.consequences b)) (Blocker.disclosing_id _)) := by
  have others : ∀ b : Blocker, ∀ id ≠ b.id,
      (s.setBlocker b.id (·.answered response.outcome input.now) fun _ => rfl).blockers.find id =
        s.blockers.find id :=
    fun b id other => find_update_other (by exact fun _ => rfl) (fun _ => of_decide_eq_true) other
  cases respondBlocker_responds inv ran with
  | @discloses b n found opened kind node known stale =>
    have same := inv.consequences (find_mem found) opened node known
    simp only [same] at stale ⊢
    exact ⟨b, found, opened, .inr ⟨kind, stale, rfl⟩⟩
  | @confirms b n found opened node known disclosed confirmed =>
    rw [inv.consequences (find_mem found) opened node known] at disclosed confirmed
    exact ⟨b, found, opened, .inl ⟨rfl, fun _ => ⟨disclosed, confirmed⟩, others b⟩⟩
  | @answers b _ _ _ _ _ _ found opened kind _ _ _ _ _ linked advances =>
    obtain ⟨_, rfl⟩ := linkAll_eq linked
    refine ⟨b, found, opened, .inl ⟨rfl, fun same => absurd same kind, fun id other => ?_⟩⟩
    rw [advances.blockers]
    exact others b id other

section Step

variable (s s' : State)

end Step

end Iterabase.Work
