/-
**Which graphs can complete.**

`ValidateGraph` asks for a path from every node to a terminal outcome; the router stops after
`maxTransitions` edges. The validator does not compare the two.

* `completes_iff` — **an accepted graph can complete iff it has a completing path.**
-/

import Mathlib
import Iterabase.Work.Rows

namespace Iterabase.Work

open Conc Data Workflow List Option State Table Tx

/-! ### The engine under a list of outcomes -/

def NodeExecution.completed (n : NodeExecution) (outcome : String) : NodeExecution :=
  { n with state := .succeeded, completionOutcome := some outcome, reported := true, finished := true }

/-- The pending execution of an attempt is started, completes with an outcome, and is routed. -/
def advance (lib : Library) (A : ID) (input : Input) (outcome : String) : Transaction Unit := do
  let node ← .need (·.active A) .notFound
  .refuse (node.state ≠ .pending) (.invalidTransition "node state")
  let a ← .need (·.attempts.find A) .notFound
  .write (·.setRun A (· ∈ [.pending, .awaitingApproval]) .running)
  .write (·.setNode node.id (·.completed outcome) fun _ => rfl)
  let _ ← advanceGraph lib input a.workItemID A (node.completed outcome)

def follow (lib : Library) (A : ID) : List (Input × String) → Transaction Unit
  | [] => pure ()
  | (input, outcome) :: rest => do
      advance lib A input outcome
      follow lib A rest

/-- Some outcomes lead an attempt of this definition to success. -/
def Completes (lib : Library) (spec : CanonicalSpec) : Prop :=
  ∃ (input : Input) (request : StartInput) (steps : List (Input × String)) (s : State),
    input.definition = some spec ∧
    (start lib input request >>= fun _ => follow lib input.attemptID steps) State.empty = .ok ((), s) ∧
    ∃ a, s.attempts.find input.attemptID = some a ∧ a.run = .succeeded

/-- A way through the graph that the engine can go to its end. -/
structure CompletingPath (lib : Library) (g : CanonicalGraph) (path : List String) : Prop where
  entry : path.head? = some g.entryNode
  chain : path.IsChain (Edge g.pairs)
  ends : ∃ t ∈ g.terminalOutcomes, path.getLast? = some t.node
  short : path.length ≤ g.maxTransitions + 1
  stored : ∀ key ∈ path, ∃ d, findNode g key = some d ∧ Storable lib d

variable {g : CanonicalGraph} {spec : CanonicalSpec}

/-! ### What the engine has gone through -/

section Soundness

variable {lib : Library} {input : Input} {s s₀ s' : State} {A : ID} {v : View} {a : Attempt}

/-- The executions are those of nodes that can be stored. -/
def StoredNodes (lib : Library) (v : View) : Prop :=
  ∀ n ∈ v.nodes, ∃ d, findNode v.graph n.nodeKey = some d ∧ Storable lib d

def settled (s : State) (A : ID) (n : NodeExecution) (outcome : String) : State :=
  (s.setRun A (· ∈ [.pending, .awaitingApproval]) .running).setNode n.id (·.completed outcome) fun _ => rfl

theorem settled_changed (inv : Inv lib s) (here : s.view A = some v) {n : NodeExecution} {rest : List NodeExecution}
    (nodes : v.nodes = n :: rest)
    (pending : n.state = .pending) (outcome : String) : Changed A s (settled s A n outcome)
    { v with run := .running, nodes := n.completed outcome :: rest } := by
  obtain ⟨run, _, _⟩ := (inv.sound here).pending_run nodes pending
  exact ((Changed.refl here).setRun (· ∈ [.pending, .awaitingApproval]) .running
    (by rcases run with run | run <;> simp [run])).setNode nodes (·.completed outcome) (fun _ => rfl)
    (fun _ => rfl)

structure Walking (lib : Library) (g : CanonicalGraph) (A : ID) (s : State) : Prop where
  inv : Inv lib s
  stored : ∃ v, s.view A = some v ∧ v.graph = g ∧ StoredNodes lib v

theorem Walking.advance {outcome : String} {u : Unit} (walking : Walking lib g A s)
    (ran : advance lib A input outcome s = .ok (u, s')) : Walking lib g A s' := by
  obtain ⟨inv, v, here, rfl, stored⟩ := walking
  simp only [Work.advance, need_then, refuse_then, write_then] at ran
  obtain ⟨node, active, pending, a, found, ran⟩ := ran
  obtain ⟨_, s₁, advanced, ending⟩ := bind_ok.mp ran
  obtain ⟨_, rfl⟩ := pure_ok.mp ending
  have pending : node.state = .pending := not_not.mp pending
  have sound := inv.sound here
  have member : node ∈ v.nodes := by
    rw [view_nodes here]
    exact mem_of_find?_eq_some active
  obtain ⟨rest, nodes⟩ := sound.head member (by rw [pending]; rfl)
  obtain ⟨run, _, _⟩ := sound.pending_run nodes pending
  have changed := settled_changed inv here nodes pending outcome
  obtain ⟨a', outcome', found', same, fits, advances⟩ := advanceGraph_advances advanced
  cases same
  obtain ⟨_, here', graph, _, _⟩ := view_of_find found'
  cases changed.view.symm.trans here'
  obtain ⟨moves, between⟩ := sound.pass nodes pending (node.completed outcome) ⟨rfl, rfl, rfl, rfl⟩
    (by rw [show v.graph = a'.graph from graph]; exact fits) rfl
  obtain ⟨v', changed', same, item, sound', placed⟩ :=
    advances.moved (changed.log _ _ _ _) graph between rfl rfl
  have going : v.run.isTerminal = false := by rcases run with run | run <;> rw [run] <;> rfl
  refine ⟨inv.of_changed here going changed' same item sound', v', changed'.view, same, fun n inside => ?_⟩
  rw [same]
  rcases placed n inside with inside | ⟨valid, d, _, _, _, _, _, known, built⟩
  · rcases mem_cons.mp inside with rfl | inside
    · exact stored node member
    · exact stored n (by rw [nodes]; exact .tail _ inside)
  · exact ⟨d, known, storable_of_row built valid⟩

theorem Walking.follow {steps : List (Input × String)} {u : Unit}
    (walking : Walking lib g A s) (ran : follow lib A steps s = .ok (u, s')) : Walking lib g A s' := by
  induction steps generalizing s with
  | nil =>
    obtain ⟨_, rfl⟩ := pure_ok.mp ran
    exact walking
  | cons step rest ih =>
    obtain ⟨_, s₁, advanced, followed⟩ := bind_ok.mp ran
    exact ih (walking.advance advanced) followed

variable {request : StartInput}

theorem start_view {id : ID}
    (definition : input.definition = some spec)
    (ran : start lib input request State.empty = .ok (id, s')) :
    ∃ models d row, findNode spec.graph spec.graph.entryNode = some d ∧
      nodeRow lib input.nodeID input.attemptID d 1 1 models spec = .ok row ∧ row.violation = none ∧
      s'.view input.attemptID = some {
        graph := spec.graph, workItemID := input.itemID
        valueModel := resolveValueModel input.valueModels spec.valueModelRef, run := .pending,
        finished := false, nodes := [row], transitions := [], turns := [], blockers := [] } := by
  obtain ⟨known, _⟩ | ⟨spec', s₁, s₂, defined, _, inserted, created, rfl⟩ := start_starts ran
  · cases known
  cases definition.symm.trans defined
  obtain ⟨models, valueModel, d, row, valued, found, built, valid, changed⟩ :=
    createAttempt_changed ((Inv.initial lib).insertItem inserted).1 created
  obtain ⟨rfl, _⟩ := pure_ok.mp valued
  exact ⟨models, d, row, found, built, valid, changed.view⟩

theorem start_walking {id : ID} (definition : input.definition = some spec)
    (ran : start lib input request State.empty = .ok (id, s')) :
    Walking lib spec.graph input.attemptID s' := by
  obtain ⟨_, d, row, found, built, valid, view⟩ := start_view definition ran
  refine ⟨start_inv (.initial lib) ran, _, view, rfl, fun n member => ?_⟩
  cases mem_singleton.mp member
  refine ⟨d, ?_, storable_of_row built valid⟩
  rw [(nodeRow_ok built).2.2.1, findNode_key found]
  exact found

/-- **What the engine has completed was a completing path.** -/
theorem Walking.path (walking : Walking lib g A s)
    (found : s.attempts.find A = some a) (succeeded : a.run = .succeeded) :
    CompletingPath lib g ((s.executions A).map NodeExecution.nodeKey) := by
  obtain ⟨inv, v, here, rfl, stored⟩ := walking
  obtain ⟨v', here', graph, _, _⟩ := view_of_find found
  cases here.symm.trans here'
  obtain rfl : a.id = A := find_key found
  have history := inv.history found
  rw [graph]
  refine ⟨?_, ?_, ?_, ?_, ?_⟩
  · obtain ⟨n, first, key⟩ := (any_eq_true _ _).mp history.entry
    rw [head?_map, first, map_some, of_decide_eq_true key]
  · rw [isChain_iff_getElem]
    intro i inside
    rw [length_map] at inside
    rw [getElem_map, getElem_map]
    obtain ⟨t, _, _, _, edge, _⟩ := history.linked i _ _ (getElem?_eq_getElem (by omega))
      (getElem?_eq_getElem inside)
    exact mem_map.mpr ⟨_, edge, rfl⟩
  · obtain ⟨t, member, terminal⟩ := history.succeeded.mpr succeeded
    obtain ⟨n, last, _, declared⟩ := history.last t member terminal
    exact ⟨_, declared, by rw [getLast?_map, last]; rfl⟩
  · rw [length_map]
    exact history.bounded.2
  · intro key member
    obtain ⟨n, inside, rfl⟩ := mem_map.mp member
    rw [← graph]
    refine stored n ?_
    rw [view_nodes here]
    exact mem_mergeSort.mp inside

end Soundness

/-! ### What the engine can go through -/

section Completeness

variable {lib : Library} {input : Input} {s s₀ s' : State} {A itemID : ID} {v : View} {a : Attempt}
  {n node : NodeExecution} {rest : List NodeExecution} {outcome : String}

theorem Linked.leaves {moves : List Transition}
    (linked : Linked g (n :: rest) moves) : ∀ t ∈ moves, ∃ m ∈ rest, t.fromExecutionID = m.id := by
  induction linked using Linked.along with
  | entry => intro t member; cases member
  | step link _ ih =>
    obtain ⟨⟨_, leaves, _, _⟩, _⟩ := link
    intro t' member
    rcases mem_cons.mp member with rfl | member
    · exact ⟨_, .head _, leaves⟩
    · obtain ⟨m', inside, same⟩ := ih t' member
      exact ⟨m', .tail _ inside, same⟩

theorem Inv.transition_leaves (inv : Inv lib s) {t : Transition} (member : t ∈ s.transitions.rows) :
    ∃ m ∈ s.nodesOf t.attemptID, t.fromExecutionID = m.id := by
  have here : t ∈ s.transitionsOf t.attemptID := mem_filter.mpr ⟨member, decide_eq_true rfl⟩
  cases found : s.attempts.find t.attemptID with
  | none => rw [(inv.owned found).2.1] at here; cases here
  | some a =>
    obtain ⟨u, view, _⟩ := view_of_find found
    obtain ⟨k, rest, moves, course, ending, _⟩ := inv.sound view
    rw [← view_transitions view] at here
    rw [← view_nodes view, course.nodes]
    have walked : t ∈ moves → ∃ m ∈ k :: rest, t.fromExecutionID = m.id := by
      intro inside
      obtain ⟨m, early, same⟩ := course.linked.leaves t inside
      exact ⟨m, .tail _ early, same⟩
    cases ending with
    | going _ same =>
      rw [same] at here
      exact walked here
    | reached t' _ last _ leaves =>
      rw [last] at here
      rcases mem_cons.mp here with rfl | here
      · exact ⟨k, .head _, leaves⟩
      · exact walked here

theorem Inv.unleft (inv : Inv lib s) (here : s.view A = some v) (nodes : v.nodes = n :: rest)
    (pending : n.state = .pending) : s.transitions.find n.id = none := by
  cases found : s.transitions.find n.id with
  | none => rfl
  | some t =>
    exfalso
    have member := find_mem found
    have first : n ∈ s.nodesOf A := Inv.last_mem here nodes
    obtain ⟨m, inside, same⟩ := inv.transition_leaves member
    have equal : m = n := inj_on_of_nodup_map s.nodes.distinct (mem_nodesOf.mp inside).1
      (mem_nodesOf.mp first).1 (same.symm.trans (find_key found))
    subst equal
    have own : t.attemptID = A :=
      (mem_nodesOf.mp inside).2.symm.trans (mem_nodesOf.mp first).2
    obtain ⟨moves, course, ending, _⟩ := (inv.sound here).at nodes
    obtain ⟨run, _, _⟩ := (inv.sound here).pending_run nodes pending
    have walked : t ∈ moves := by
      have inside : t ∈ v.transitions := by
        rw [view_transitions here]
        exact mem_filter.mpr ⟨member, decide_eq_true own⟩
      cases ending with
      | going _ same => rw [← same]; exact inside
      | reached _ ended => rcases run with run | run <;> rw [run] at ended <;> cases ended
    obtain ⟨m', early, same'⟩ := course.linked.leaves t walked
    have distinct := s.nodesOf_distinct A
    rw [← view_nodes here, nodes] at distinct
    exact (nodup_cons.mp distinct).1
      (mem_map.mpr ⟨m', early, same'.symm.trans (find_key found)⟩)

theorem State.insertTransition_of_fresh {t : Transition}
    (fresh : s.transitions.find t.fromExecutionID = none) :
    ∃ transitions, s.insertTransition t = .ok { s with transitions := transitions } := by
  obtain ⟨transitions, inserted⟩ := insert_of_fresh fresh
  refine ⟨transitions, ?_⟩
  unfold insertTransition
  rw [inserted]
  rfl

theorem State.creditValue_of_unvalued (itemID : ID) (here : s.view A = some v)
    (unvalued : v.valueModel = none) : s.creditValue itemID A = .ok s := by
  obtain ⟨a, found, rfl⟩ := map_eq_some_iff.mp here
  have unvalued : a.valueModel = none := unvalued
  simp only [creditValue, found, unvalued]

theorem complete_ok (here : s.view A = some v) (unvalued : v.valueModel = none)
    (fresh : s.transitions.find node.id = none) :
    ∃ s', complete itemID A node outcome s = .ok (.succeeded, s') := by
  obtain ⟨transitions, inserted⟩ := insertTransition_of_fresh
    (s := (s.setRun A (fun _ => true) .succeeded).finishAttempt A none)
    (t := ⟨A, node.id, outcome, none, true⟩) fresh
  have finished := ((Changed.refl here).setRun (fun _ => true) .succeeded (.inl rfl)).finishAttempt none
  have credited := creditValue_of_unvalued itemID (finished.insertTransition rfl inserted).view
    unvalued
  exact ⟨_, write_then.mpr (write_then.mpr (attempt_then.mpr ⟨_, inserted,
    attempt_then.mpr ⟨_, credited, rfl⟩⟩))⟩

variable {d : CanonicalNode}

theorem proceed_ok {target : String} (found : findNode a.graph target = some d)
    (storable : Storable lib d) (kind : d.kind = nodeAgentTask ∨ d.kind = nodeHumanGate)
    (idle : s.active a.id = none) (unused : s.nodes.find input.nodeID = none)
    (fresh : s.transitions.find node.id = none) :
    ∃ s', proceed lib input a node outcome target s = .ok (.running, s') := by
  have name := findNode_key found
  subst name
  obtain ⟨s₁, stored⟩ : ∃ s₁, insertNodeExecution lib input.nodeID a.id d (s.nextVisit a.id d.key)
      (s.nextSeq a.id) a.models a.spec s = .ok ((), s₁) :=
    insertNodeExecution_of_storable storable kind idle unused
  obtain ⟨row, _, inserted⟩ := bind_ok.mp (attempt_ok.mp stored)
  obtain ⟨_, nodes, _, rfl⟩ := insertNode_ok inserted
  obtain ⟨links, handed⟩ := handOver_eq { s with nodes := nodes } node input.nodeID
  obtain ⟨transitions, left⟩ := insertTransition_of_fresh
    (s := { s with nodes := nodes, links := links })
    (t := ⟨a.id, node.id, outcome, some input.nodeID, false⟩) fresh
  refine ⟨({ s with nodes := nodes, links := links, transitions := transitions } : State).setRun a.id
    (· ∈ [.running, .awaitingApproval]) .running, need_then.mpr ⟨d, found, read_then.mpr
    (read_then.mpr (bind_ok.mpr ⟨(), _, stored, write_then.mpr ?_⟩))⟩⟩
  rw [handed]
  exact attempt_then.mpr ⟨_, left, rfl⟩

theorem advance_ok (input : Input) (outcome : String) (inv : Inv lib s) (here : s.view A = some v)
    (nodes : v.nodes = n :: rest) (pending : n.state = .pending)
    (declared : ∀ d, findNode v.graph n.nodeKey = some d → outcome ∈ d.outcomes) :
    ∃ itemID a, (settled s A n outcome).attempts.find A = some a ∧ a.graph = v.graph ∧ ∀ answer s',
    takeRoute lib input itemID A a (n.completed outcome) outcome (route a.graph n.nodeKey outcome)
    ((settled s A n outcome).log itemID A n.id (.nodeCompleted n.nodeKey n.visit outcome)) =
    .ok (answer, s') → advance lib A input outcome s = .ok ((), s') := by
  obtain ⟨a₀, found₀, _⟩ := map_eq_some_iff.mp here
  obtain ⟨a, found, same⟩ := map_eq_some_iff.mp (settled_changed inv here nodes pending outcome).view
  have graph : a.graph = v.graph := congrArg View.graph same
  refine ⟨a₀.workItemID, a, found, graph, fun answer s' routed => ?_⟩
  have active : s.active A = some n := by
    unfold active
    rw [← view_nodes here, nodes]
    exact find?_cons_of_pos (by rw [pending]; rfl)
  obtain ⟨_, course, _, _⟩ := (inv.sound here).at nodes
  obtain ⟨d, defined, kind, _⟩ := course.fits n (by rw [nodes]; exact .head _)
  refine need_then.mpr ⟨n, active, refuse_then.mpr ⟨not_not.mpr pending,
    need_then.mpr ⟨a₀, found₀, write_then.mpr (write_then.mpr
      (bind_ok.mpr ⟨answer, s', ?_, rfl⟩))⟩⟩⟩
  refine need_then.mpr ⟨outcome, rfl, need_then.mpr ⟨a, found, need_then.mpr ⟨d, ?_,
    refuse_then.mpr ⟨not_not.mpr (declared d defined), write_then.mpr routed⟩⟩⟩⟩
  rw [graph]
  change (findNode v.graph n.nodeKey).filter _ = _
  rw [defined, filter_some]
  exact if_pos (decide_eq_true kind)

theorem declared_of_declares (wellFormed : g.WellFormed) {key : String}
    (declares : g.declares key outcome = true) :
    ∀ d, findNode g key = some d → outcome ∈ d.outcomes := by
  intro d found
  obtain ⟨d', member, same⟩ := any_eq_true.mp declares
  obtain ⟨name, declared⟩ := of_decide_eq_true same
  have equal : d' = d := inj_on_of_nodup_map wellFormed.distinct member (findNode_mem found)
    (name.trans (findNode_key found).symm)
  rw [← equal]
  exact declared

theorem settled_idle (inv : Inv lib s) (here : s.view A = some v) (nodes : v.nodes = n :: rest)
    (pending : n.state = .pending) (outcome : String) : (settled s A n outcome).active A = none := by
  obtain ⟨_, course, _, _⟩ := (inv.sound here).at nodes
  have after := view_nodes (settled_changed inv here nodes pending outcome).view
  unfold active
  rw [← after, find?_eq_none]
  intro m member
  rcases mem_cons.mp member with rfl | member
  · simp [NodeExecution.completed, NodeState.isActive]
  · rw [course.linked.rest_succeeded m member]
    simp [NodeState.isActive]

/-- **A terminal outcome ends the walk.** -/
theorem advance_terminal (input : Input) (inv : Inv lib s) (here : s.view A = some v)
    (unvalued : v.valueModel = none) (nodes : v.nodes = n :: rest) (pending : n.state = .pending)
    (wellFormed : v.graph.WellFormed) (terminal : ⟨n.nodeKey, outcome⟩ ∈ v.graph.terminalOutcomes) :
    ∃ s', advance lib A input outcome s = .ok ((), s') ∧ ∃ a, s'.attempts.find A = some a ∧
    a.run = .succeeded := by
  obtain ⟨itemID, a, found, graph, go⟩ := advance_ok input outcome inv here nodes pending
    (declared_of_declares wellFormed (wellFormed.terminals _ terminal))
  have changed := (settled_changed inv here nodes pending outcome).log itemID A n.id
    (.nodeCompleted n.nodeKey n.visit outcome)
  have fresh := inv.unleft here nodes pending
  obtain ⟨s', ran⟩ : ∃ s', complete itemID A (n.completed outcome) outcome
      ((settled s A n outcome).log itemID A n.id (.nodeCompleted n.nodeKey n.visit outcome)) =
        .ok (.succeeded, s') := complete_ok changed.view unvalued fresh
  refine ⟨s', go .succeeded s' ?_, ?_⟩
  · rw [graph, route, if_pos (any_eq_true.mpr ⟨_, terminal, by simp⟩)]
    exact ran
  · simp only [complete, write_then, attempt_then, pure_ok] at ran
    obtain ⟨_, inserted, _, credited, _, rfl⟩ := ran
    obtain ⟨a', found', same⟩ := map_eq_some_iff.mp (completes_changed changed inserted credited).view
    exact ⟨a', found', congrArg View.run same⟩

/-- **An edge leads on**, as long as transitions are left. -/
theorem advance_edge (input : Input) (inv : Inv lib s) (here : s.view A = some v)
    (nodes : v.nodes = n :: rest) (pending : n.state = .pending) (wellFormed : v.graph.WellFormed)
    {e : CanonicalEdge} (edge : e ∈ v.graph.edges) (leaves : e.fromNode = n.nodeKey)
    (left : v.transitions.length < v.graph.maxTransitions) (next : findNode v.graph e.toNode = some d)
    (storable : Storable lib d) (unused : s.nodes.find input.nodeID = none) :
    ∃ s' v' row, advance lib A input e.outcome s = .ok ((), s') ∧ s'.view A = some v' ∧
    v'.graph = v.graph ∧ v'.valueModel = v.valueModel ∧
    v'.nodes = row :: n.completed e.outcome :: rest ∧ row.nodeKey = e.toNode ∧ row.state = .pending ∧
    v'.transitions.length = v.transitions.length + 1 := by
  have declares := (wellFormed.edges e edge).1
  rw [leaves] at declares
  obtain ⟨itemID, a, found, graph, go⟩ := advance_ok input e.outcome inv here nodes pending
    (declared_of_declares wellFormed declares)
  have changed := (settled_changed inv here nodes pending e.outcome).log itemID A n.id
    (.nodeCompleted n.nodeKey n.visit e.outcome)
  have own : a.id = A := find_key found
  subst own
  have routed : route a.graph n.nodeKey e.outcome = some (.node e.toNode) := by
    rw [graph, ← leaves]
    exact route_of_edge wellFormed edge
  have known : findNode a.graph e.toNode = some d := by rw [graph]; exact next
  have kind : d.kind = nodeAgentTask ∨ d.kind = nodeHumanGate :=
    (wellFormed.kinds d (findNode_mem next)).imp_right And.left
  have idle := settled_idle inv here nodes pending e.outcome
  have fresh := inv.unleft here nodes pending
  have unused : (settled s a.id n e.outcome).nodes.find input.nodeID = none := by
    have lookup := find_update s.nodes (fun m => m.id = n.id) (fun m => m.completed e.outcome)
      (fun _ => rfl) input.nodeID
    rw [unused] at lookup
    exact lookup
  obtain ⟨s', ran⟩ : ∃ s', proceed lib input a (n.completed e.outcome) e.outcome e.toNode
      ((settled s a.id n e.outcome).log itemID a.id n.id
        (.nodeCompleted n.nodeKey n.visit e.outcome)) = .ok (.running, s') :=
    proceed_ok known storable kind idle unused fresh
  have proceeded := ran
  simp only [proceed, need_then, read_then, write_then, insertNodeExecution, attempt_then,
    pure_ok] at proceeded
  obtain ⟨d', known', _, made, _, moved, _, rfl⟩ := proceeded
  obtain ⟨row, built, placed⟩ := bind_ok.mp made
  cases known.symm.trans known'
  obtain ⟨_, own, name, _, _, _, waiting, _⟩ := nodeRow_ok built
  have grown := proceeds_changed changed own (.inl rfl) placed moved
  refine ⟨_, _, row, go .running _ ?_, grown.view, rfl, rfl, rfl, name.trans (findNode_key known), waiting, rfl⟩
  -- the transitions that count are at most all of them
  rw [routed]
  refine read_then.mpr ?_
  rw [if_neg]
  · exact ran
  · have count := length_filter_le (fun t : Transition => !t.terminal)
      (((settled s a.id n e.outcome).log itemID a.id n.id
        (.nodeCompleted n.nodeKey n.visit e.outcome)).transitionsOf a.id)
    have total := congrArg List.length (view_transitions changed.view)
    rw [graph]
    dsimp only at total
    omega

theorem follow_of_path (wellFormed : g.WellFormed) {path : List String} :
    ∀ {s : State} {v : View} {n : NodeExecution} {rest : List NodeExecution}, Walking lib g A s →
    s.view A = some v → v.valueModel = none → v.nodes = n :: rest → n.state = .pending →
    (n.nodeKey :: path).IsChain (Edge g.pairs) →
    (∃ t ∈ g.terminalOutcomes, (n.nodeKey :: path).getLast? = some t.node) →
    v.transitions.length + path.length ≤ g.maxTransitions →
    (∀ key ∈ path, ∃ d, findNode g key = some d ∧ Storable lib d) → ∃ steps s',
    follow lib A steps s = .ok ((), s') ∧ ∃ a, s'.attempts.find A = some a ∧ a.run = .succeeded := by
  induction path with
  | nil =>
    intro s v n rest walking here unvalued nodes pending _ ends _ _
    obtain ⟨v', here', rfl, _⟩ := walking.stored
    cases here.symm.trans here'
    obtain ⟨t, terminal, last⟩ := ends
    have last : n.nodeKey = t.node := Option.some.inj last
    have terminal : ⟨n.nodeKey, t.outcome⟩ ∈ v.graph.terminalOutcomes := by
      rw [last]
      exact terminal
    obtain ⟨s', ran, done⟩ :=
      advance_terminal {} walking.inv here unvalued nodes pending wellFormed terminal
    exact ⟨[({}, t.outcome)], s', bind_ok.mpr ⟨(), s', ran, rfl⟩, done⟩
  | cons key path ih =>
    intro s v n rest walking here unvalued nodes pending chain ends short stored
    obtain ⟨v', here', rfl, _⟩ := walking.stored
    cases here.symm.trans here'
    obtain ⟨step, chain⟩ := isChain_cons_cons.mp chain
    obtain ⟨e, edge, same⟩ := mem_map.mp step
    obtain ⟨leaves, enters⟩ := Prod.mk.inj same
    obtain ⟨d, next, storable⟩ := stored key (.head _)
    rw [length_cons] at short
    obtain ⟨id, unused⟩ := Infinite.exists_notMem_finset (s.nodes.rows.map NodeExecution.id).toFinset
    have unused : s.nodes.find id = none := by
      cases found : s.nodes.find id with
      | none => rfl
      | some m =>
        exact absurd (mem_toFinset.mpr (mem_map.mpr
          ⟨m, find_mem found, find_key found⟩)) unused
    obtain ⟨s₁, v₁, row, ran, here₁, graph, value₁, nodes₁, name, pending₁, count⟩ :=
      advance_edge { nodeID := id } walking.inv here nodes pending wellFormed edge leaves
        (by omega) (by rw [enters]; exact next) storable unused
    have chain₁ : (row.nodeKey :: path).IsChain (Edge v.graph.pairs) := by
      rw [name, enters]
      exact chain
    obtain ⟨t, terminal, last⟩ := ends
    obtain ⟨steps, s', followed, done⟩ := ih (walking.advance ran) here₁ (value₁.trans unvalued) nodes₁
      pending₁ chain₁
      ⟨t, terminal, by rw [name, enters, ← last]; rfl⟩ (by rw [count]; push_cast; omega)
      fun k member => stored k (.tail _ member)
    exact ⟨({ nodeID := id }, e.outcome) :: steps, s', bind_ok.mpr ⟨(), s₁, ran, followed⟩, done⟩

theorem mapM_isSome {α β : Type} {f : α → Option β} {xs : List α} (all : ∀ x ∈ xs, ∃ y, f x = some y) :
    ∃ ys, xs.mapM f = some ys := by
  induction xs with
  | nil => exact ⟨[], rfl⟩
  | cons x rest ih =>
    obtain ⟨y, here⟩ := all x (.head _)
    obtain ⟨ys, there⟩ := ih fun x' member => all x' (.tail _ member)
    exact ⟨y :: ys, by rw [mapM_cons, here, there]; rfl⟩

theorem resolveModels_complete (spec : CanonicalSpec) :
    ∃ catalog models, resolveModels catalog spec = some models := by
  have listed : ∀ (refs : List String) (ref : String), ref ∈ refs →
      (refs.map fun ref => (ref, ({} : ModelSnapshot))).lookup ref = some {} := by
    intro refs ref member
    induction refs with
    | nil => cases member
    | cons r rest ih =>
      rw [map_cons, lookup_cons]
      split
      · rfl
      rename_i other
      refine ih ((mem_cons.mp member).resolve_left fun same => ?_)
      simp [same] at other
  refine ⟨((spec.graph.nodes.filter fun n => n.kind = nodeAgentTask).map (modelRefOf spec)).map
    fun ref => (ref, {}), mapM_isSome fun ref member => ⟨(ref, {}), ?_⟩⟩
  exact congrArg (Option.map fun model => (ref, model)) (listed _ ref member)

/-- **An attempt starts** where its entry node can be stored. -/
theorem start_ok (accepted : validateGraph lib spec = .ok ())
    (entry : findNode spec.graph spec.graph.entryNode = some d) (storable : Storable lib d) :
    ∃ input request id s, input.definition = some spec ∧ input.valueModels = [] ∧
    start lib input request State.empty = .ok (id, s) := by
  obtain ⟨catalog, models, resolved⟩ := resolveModels_complete spec
  let input : Input := {
    itemID := "i", attemptID := "a", nodeID := "n", definition := some spec, catalog := catalog }
  let request : StartInput := {
    actorIdentityID := "u", workflowKey := "w", workflowVersion := "1", idempotencyKey := "k"
    payloadHash := "h" }
  have kind : d.kind = nodeAgentTask ∨ d.kind = nodeHumanGate :=
    ((validateGraph_ok accepted).1.kinds d (findNode_mem entry)).imp_right And.left
  obtain ⟨items, item⟩ : ∃ items, State.empty.insertItem (newItem input request) =
    .ok { State.empty with items := items } := ⟨_, rfl⟩
  obtain ⟨attempts, attempt⟩ : ∃ attempts, ({ State.empty with items := items } : State).insertAttempt {
      models, spec, id := "a", workItemID := "i", number := 1, definitionKey := "w"
      definitionVersion := "1" } = .ok { State.empty with items := items, attempts := attempts } :=
    ⟨_, rfl⟩
  obtain ⟨s₁, stored⟩ : ∃ s₁, insertNodeExecution lib "n" "a" d 1 1 models spec
      { State.empty with items := items, attempts := attempts } = .ok ((), s₁) :=
    insertNodeExecution_of_storable (s := { State.empty with items := items, attempts := attempts })
      storable kind rfl rfl
  have resolves : resolveForAttempt lib input State.empty = .ok (spec, State.empty) := by
    refine need_then.mpr ⟨spec, rfl, ?_⟩
    rw [accepted]
    rfl
  have valued : attemptValueModel input (firstAttempt input request spec)
      { State.empty with items := items } = .ok (none, { State.empty with items := items }) := by
    refine pure_ok.mpr ⟨?_, rfl⟩
    unfold resolveValueModel
    split <;> rfl
  obtain ⟨s₂, created⟩ : ∃ s₂, createAttempt lib input (firstAttempt input request spec)
      { State.empty with items := items } = .ok ((), s₂) :=
    ⟨_, need_then.mpr ⟨models, resolved, bind_ok.mpr ⟨none, _, valued, attempt_then.mpr ⟨_,
      attempt, need_then.mpr ⟨d, entry, bind_ok.mpr ⟨(), s₁, stored, rfl⟩⟩⟩⟩⟩⟩
  refine ⟨input, request, "i", (s₂.setCurrent "i" "a").log "i" "a" none (.workItemCreated "w" []), rfl, rfl,
    refuse_then.mpr ⟨by simp [request], refuse_then.mpr ⟨by simp [request], refuse_then.mpr
      ⟨by simp [request], read_then.mpr ?_⟩⟩⟩⟩
  exact bind_ok.mpr ⟨spec, State.empty, resolves, attempt_then.mpr ⟨_, item,
    bind_ok.mpr ⟨(), s₂, created, rfl⟩⟩⟩

end Completeness

/-- **An accepted graph can complete iff it has a completing path.** -/
theorem completes_iff {lib : Library} {spec : CanonicalSpec}
    (accepted : validateGraph lib spec = .ok ()) :
    Completes lib spec ↔ ∃ path, CompletingPath lib spec.graph path := by
  constructor
  · rintro ⟨input, request, steps, s, definition, ran, a, found, succeeded⟩
    obtain ⟨_, s₁, started, followed⟩ := bind_ok.mp ran
    exact ⟨_, ((start_walking definition started).follow followed).path found succeeded⟩
  · rintro ⟨path, completing⟩
    cases path with
    | nil => cases completing.entry
    | cons key path =>
      obtain rfl : key = spec.graph.entryNode := Option.some.inj completing.entry
      obtain ⟨d, entry, storable⟩ := completing.stored _ (.head _)
      obtain ⟨input, request, id, s, definition, worthless, started⟩ := start_ok accepted entry storable
      obtain ⟨_, d', row, found, built, _, view⟩ := start_view definition started
      obtain ⟨_, _, name, _, _, _, pending, _⟩ := nodeRow_ok built
      have name : row.nodeKey = spec.graph.entryNode := name.trans (findNode_key found)
      have unvalued : resolveValueModel input.valueModels spec.valueModelRef = none := by
        rw [worthless, resolveValueModel]
        split <;> rfl
      have short := completing.short
      rw [length_cons] at short
      obtain ⟨steps, s', followed, done⟩ := follow_of_path (validateGraph_ok accepted).1
        (start_walking definition started) view unvalued rfl pending (by rw [name]; exact completing.chain)
        (by rw [name]; exact completing.ends) (by push_cast at short ⊢; simp only [length_nil]; omega)
        fun k member => completing.stored k (.tail _ member)
      exact ⟨input, request, steps, s', definition, bind_ok.mpr ⟨id, s, started, followed⟩, done⟩

theorem completes_drafting : validateGraph lenient (drafting "1s") = .ok () ∧
    Completes lenient (drafting "1s") := by
  have accepted : validateGraph lenient (drafting "1s") = .ok () := by decide +kernel
  refine ⟨accepted, (completes_iff accepted).mpr ⟨["draft", "send"], rfl, ?_, ?_, by decide, ?_⟩⟩
  · exact isChain_cons_cons.mpr ⟨.head _, .singleton _⟩
  · exact ⟨⟨"send", "done"⟩, .head _, rfl⟩
  · intro key member
    rcases mem_cons.mp member with rfl | member
    · exact ⟨_, rfl, .inl rfl⟩
    · cases mem_singleton.mp member
      exact ⟨_, rfl, .inr ⟨1000000000, by decide +kernel, by decide⟩⟩

/-- Three agent tasks in a row, with one transition. -/
def chain : CanonicalSpec where
  defaultModelRef := "m"
  graph := {
    entryNode := "a"
    maxTransitions := 1
    nodes := ["a", "b", "c"].map fun key => {
      key, label := text key, kind := nodeAgentTask, prompt := "p", outcomes := ["done"]
      outputSchema := some .emptyObject
      resultPresentation := if key = "c" then some { outcomes := [⟨"done", text "Done"⟩] } else none }
    edges := [⟨"a", "done", "b"⟩, ⟨"b", "done", "c"⟩]
    terminalOutcomes := [⟨"c", "done"⟩] }

theorem chain_long (path : List String) : ¬ CompletingPath lenient chain.graph path := by
  rintro ⟨entry, steps, ⟨t, terminal, last⟩, short, _⟩
  cases mem_singleton.mp terminal
  match path with
  | [] => cases entry
  | [key] =>
    cases entry
    exact absurd last (by decide)
  | [key, next] =>
    cases entry
    cases last
    exact absurd (isChain_cons_cons.mp steps).1 (by unfold Edge; decide)
  | _ :: _ :: _ :: rest =>
    have limit : chain.graph.maxTransitions = 1 := rfl
    simp only [length_cons] at short
    omega

/-- **Three tasks in a row with one transition are accepted, and no outcomes complete them.** -/
theorem chain_exhausted : validateGraph lenient chain = .ok () ∧ ¬ Completes lenient chain := by
  refine ⟨by decide +kernel, ?_⟩
  rintro ⟨input, request, steps, s, definition, ran, a, found, succeeded⟩
  obtain ⟨_, s₁, started, followed⟩ := bind_ok.mp ran
  exact chain_long _ (((start_walking definition started).follow followed).path found succeeded)

end Iterabase.Work
