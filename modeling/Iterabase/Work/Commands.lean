/-
**What the commands do.**

Once the invariant is known, each command has a few ways to go, and each of them is a chain of statements on
the rows of one execution: the last one of its attempt. What an invariant has to survive are these chains.

* `prepareNode_prepares`, … — **every command that commits goes one of them.**
-/

import Iterabase.Work.Sound

namespace Iterabase.Work

open Conc Data Workflow List State Table Tx Option
open Gateway (InvocationID)

def Event.confirmed : Event → List InvocationID
  | .consequenceRepetitionConfirmed invocationIDs => invocationIDs
  | _ => []

/-- Attempt `A` is at execution `n`. -/
structure At (s : State) (A : ID) (v : View) (n : NodeExecution) (rest : List NodeExecution) : Prop where
  here : s.view A = some v
  nodes : v.nodes = n :: rest

section Last

variable {s : State} {A : ID} {v : View} {n : NodeExecution} {rest : List NodeExecution}

theorem At.attempt (last : At s A v n rest) {a : Attempt} (member : a ∈ s.attempts.rows)
    (own : a.id = A) : a.run = v.run ∧ a.workItemID = v.workItemID := by
  obtain ⟨v', here', _, item, run⟩ := view_of_find (own ▸ find_of_mem member)
  cases last.here.symm.trans here'
  exact ⟨run.symm, item.symm⟩

end Last

/-! ### The ways -/

/-- `PrepareNode` does nothing, blocks the execution, or starts its turn. -/
inductive Prepares (s : State) (A : ID) : Prepared → State → Prop
  | nothing {answer : Prepared}
      (old : ∀ node t, answer = .dispatch node t → s.turns.find t.id = some t) : Prepares s A answer s
  | blocks {v : View} {n : NodeExecution} {rest : List NodeExecution} {b : Blocker} {event : Event}
      {s₁ : State} (last : At s A v n rest) (pending : n.state = .pending) (opened : b.state = .opened)
      (item : b.workItemID = v.workItemID) (own : b.attemptID = A) (node : b.nodeExecutionID = some n.id)
      (asks : Asks v.graph n.nodeKey b) (plain : event.confirmed = [])
      (inserted : s.insertBlocker b = .ok s₁) :
      Prepares s A (.waiting { n with state := .blocked })
        (((s₁.moveNode n.id (fun _ => true) .blocked).setRun A (· ∈ [.pending, .running])
          .awaitingApproval).log v.workItemID A n.id event)
  | starts {v : View} {n : NodeExecution} {rest : List NodeExecution} {d : CanonicalNode} {t : Turn}
      {s₁ : State} (last : At s A v n rest) (pending : n.state = .pending) (running : t.state = .running)
      (own : t.runID = A) (node : t.nodeExecutionID = n.id) (defined : findNode v.graph n.nodeKey = some d)
      (agent : d.kind ≠ nodeHumanGate)
      (free : ¬ (n.state = .pending ∧ 1 < n.visit ∧ d.kind = nodeAgentTask ∧
        s.consequencesForNode A n.nodeKey n.id ≠ [] ∧
        ¬ s.consequencesConfirmed n.id (s.consequencesForNode A n.nodeKey n.id)))
      (inserted : s.insertTurn t = .ok s₁) :
      Prepares s A (.dispatch { n with state := .running } t)
        (((s₁.moveNode n.id (· = .pending) .running).setRun A (· ∈ [.pending, .awaitingApproval])
          .running).log v.workItemID A n.id (.nodeStarted n.nodeKey n.visit))

/-- `RecordCompletionReport` writes to a running execution, and links the artifacts of the report to it. -/
structure Reports (s : State) (report : CompletionReport) (A : ID) (v : View) (n : NodeExecution)
    (rest : List NodeExecution) (s' : State) : Prop where
  last : At s A v n rest
  running : n.state = .running
  fits : Fits v.graph (n.withReport report)
  linked : (s.setNode n.id (·.withReport report) fun _ => rfl).linkAll v.workItemID A n.id reportRole
    report.artifactRefs = .ok s'

/-- The router ends the walk, gives it up, or goes on. -/
inductive Advances (lib : Library) (input : Input) (itemID A : ID) (a : Attempt) (node : NodeExecution)
    (outcome : String) (s : State) : State → Prop
  | completes {s₁ s₂ : State} (declared : ⟨node.nodeKey, outcome⟩ ∈ a.graph.terminalOutcomes)
      (inserted : ((s.setRun A (fun _ => true) .succeeded).finishAttempt A none).insertTransition
        ⟨A, node.id, outcome, none, true⟩ = .ok s₁)
      (credited : s₁.creditValue itemID A = .ok s₂) :
      Advances lib input itemID A a node outcome s (s₂.log itemID A node.id .workCompleted)
  | exhausts : Advances lib input itemID A a node outcome s (((s.setRun A (fun _ => true)
      .failed).finishAttempt A (some .transitionLimit)).log itemID A node.id .transitionLimit)
  | proceeds {target : String} {d : CanonicalNode} {row : NodeExecution} {s₁ s₂ : State}
      (edge : ⟨node.nodeKey, outcome, target⟩ ∈ a.graph.edges)
      (left : ((s.transitionsOf A).filter fun t => !t.terminal).length < a.graph.maxTransitions)
      (found : findNode a.graph target = some d)
      (built : nodeRow lib input.nodeID A d (s.nextVisit A target) (s.nextSeq A) a.models a.spec = .ok row)
      (placed : s.insertNode row = .ok s₁)
      (moved : (s₁.handOver node input.nodeID).insertTransition
        ⟨A, node.id, outcome, some input.nodeID, false⟩ = .ok s₂) :
      Advances lib input itemID A a node outcome s
        (s₂.setRun A (· ∈ [.running, .awaitingApproval]) .running)

/-- A turn that ends fails its attempt, or settles its execution, from which the router goes on. -/
inductive EndsTurn (lib : Library) (input : Input) (s : State) : State → Prop
  | fails {v : View} {n : NodeExecution} {rest : List NodeExecution} {t : Turn} {turnTo : TurnState}
      {runTo : RunState} {failure : Option Failure} (last : At s t.runID v n rest) (run : v.run = .running)
      (member : t ∈ v.turns) (running : t.state = .running) (ended : runTo = .failed ∨ runTo = .aborted)
      (settled : turnTo ≠ .running) :
      EndsTurn lib input s (((((s.setTurn t.id turnTo).setNode n.id
        (fun n => { n with state := .failed, finished := true }) fun _ => rfl).setRun t.runID
        (fun _ => true) runTo).finishAttempt t.runID failure).log v.workItemID t.runID n.id
          (.workFailed n.nodeKey))
  | settles {v : View} {n : NodeExecution} {rest : List NodeExecution} {t : Turn} {a : Attempt}
      {outcome : String} {s' : State} (last : At s t.runID v n rest) (run : v.run = .running)
      (member : t ∈ v.turns) (running : t.state = .running) (found : s.attempts.find t.runID = some a)
      (advances : Advances lib input v.workItemID t.runID a n outcome (((s.setTurn t.id .succeeded).setNode
        n.id (fun n => { n with state := .succeeded, finished := true }) fun _ => rfl).log v.workItemID
          t.runID n.id (.nodeCompleted n.nodeKey n.visit outcome)) s') :
      EndsTurn lib input s s'

theorem Blocker.disclosing_id (current : List InvocationID) (b : Blocker) :
    (b.disclosing current).id = b.id := by
  unfold disclosing
  split <;> rfl

/-- A response discloses another set, confirms it, or completes a human gate. -/
inductive Responds (lib : Library) (input : Input) (response : BlockerResponseInput) (s : State) :
    Responded → State → Prop
  | discloses {b : Blocker} {n : NodeExecution} (found : s.blockers.find b.id = some b)
      (opened : b.state = .opened) (kind : b.kind = consequenceConfirmation)
      (node : b.nodeExecutionID = some n.id) (known : s.nodes.find n.id = some n)
      (stale : ¬ (s.consequencesForNode b.attemptID n.nodeKey n.id).Perm b.requiredConsequences) :
      Responds lib input response s .refreshed (s.setBlocker b.id
        (·.disclosing (s.consequencesForNode b.attemptID n.nodeKey n.id)) (Blocker.disclosing_id _))
  | confirms {b : Blocker} {n : NodeExecution} (found : s.blockers.find b.id = some b)
      (opened : b.state = .opened) (node : b.nodeExecutionID = some n.id)
      (known : s.nodes.find n.id = some n)
      (disclosed : (s.consequencesForNode b.attemptID n.nodeKey n.id).Perm b.requiredConsequences)
      (confirmed : (s.consequencesForNode b.attemptID n.nodeKey n.id).Perm
        response.confirmedInvocationIDs) :
      Responds lib input response s .resolved ((((s.setBlocker b.id
        (·.answered response.outcome input.now) fun _ => rfl).moveNode n.id (· = .blocked) .pending).setRun
        b.attemptID (· = .awaitingApproval) .running).log b.workItemID b.attemptID n.id
          (.consequenceRepetitionConfirmed response.confirmedInvocationIDs))
  | answers {b : Blocker} {v : View} {n : NodeExecution} {rest : List NodeExecution} {a : Attempt}
      {s₁ s' : State} (found : s.blockers.find b.id = some b) (opened : b.state = .opened)
      (kind : b.kind ≠ consequenceConfirmation) (last : At s b.attemptID v n rest)
      (here : b ∈ v.blockers) (run : v.run = .awaitingApproval) (known : s.attempts.find b.attemptID = some a)
      (fits : Fits a.graph (n.answered response.outcome response.artifactRefs))
      (linked : ((s.setBlocker b.id (·.answered response.outcome input.now) fun _ => rfl).setNode n.id
        (·.answered response.outcome response.artifactRefs) fun _ => rfl).linkAll v.workItemID b.attemptID
        n.id (fun _ => "input") response.artifactRefs = .ok s₁)
      (advances : Advances lib input v.workItemID b.attemptID a
        (n.answered response.outcome response.artifactRefs) response.outcome
        ((s₁.log v.workItemID b.attemptID n.id (.blockerResolved n.nodeKey response.outcome)).log
          v.workItemID b.attemptID n.id (.nodeCompleted n.nodeKey n.visit response.outcome)) s') :
      Responds lib input response s .resolved s'

/-! ### The commands -/

theorem State.sorted_eq {ids ids' : List InvocationID} :
    State.sorted ids = State.sorted ids' ↔ ids.Perm ids' := by
  have sorted : ∀ ids, (State.sorted ids).Perm ids := perm_insertionSort _
  constructor
  · intro same
    exact (sorted ids).symm.trans (same ▸ sorted ids')
  · intro perm
    exact (((sorted ids).trans perm).trans (sorted ids').symm).eq_of_pairwise' (r := fun a b => a ≤ b)
      (pairwise_insertionSort _ _) (pairwise_insertionSort _ _)

section Commands

variable {lib : Library} {input : Input} {s s' : State} {A : ID}

theorem prepareNode_prepares (inv : Inv lib s) {answer : Prepared}
    (ran : prepareNode input A s = .ok (answer, s')) : Prepares s A answer s' := by
  simp only [prepareNode, need_then] at ran
  obtain ⟨n, active, ran⟩ := ran
  split at ran
  · obtain ⟨rfl, rfl⟩ := pure_ok.mp ran
    exact .nothing fun _ _ same => by cases same
  simp only [need_then, refuse_then, read_then] at ran
  obtain ⟨a, found, _, definition, defined, ran⟩ := ran
  obtain ⟨v, here, graph, item, _⟩ := view_of_find found
  have member : n ∈ v.nodes := by
    rw [view_nodes here]
    exact mem_of_find?_eq_some active
  have busy : n.state.isActive := (find?_eq_some_iff_append.mp active).1
  obtain ⟨rest, nodes⟩ := (inv.sound here).head member busy
  cases find_key found
  rw [← graph] at defined
  split at ran
  · rename_i repeated
    simp only [confirmConsequences, block, attempt_then, write_then, pure_ok, ← item] at ran
    obtain ⟨s₁, inserted, rfl, rfl⟩ := ran
    exact .blocks ⟨here, nodes⟩ repeated.1 rfl rfl rfl rfl (fun kind => absurd rfl kind) rfl inserted
  rename_i free
  split at ran
  · rename_i human
    split at ran
    · rename_i waiting
      simp only [need_then, askHuman, block, attempt_then, write_then, pure_ok, ← item] at ran
      obtain ⟨gate, _, s₁, inserted, rfl, rfl⟩ := ran
      exact .blocks ⟨here, nodes⟩ waiting rfl rfl rfl rfl (fun _ => ⟨definition, defined, rfl, human⟩) rfl
        inserted
    · obtain ⟨rfl, rfl⟩ := pure_ok.mp ran
      exact .nothing fun _ _ same => by cases same
  rename_i agent
  split at ran
  · simp only [need_then, pure_ok] at ran
    obtain ⟨t, there, rfl, rfl⟩ := ran
    refine .nothing fun _ _ same => ?_
    cases same
    exact find_of_mem (mem_of_find?_eq_some there)
  · rename_i idle
    simp only [startTurn, need_then, attempt_then, write_then, pure_ok, ← item] at ran
    obtain ⟨model, _, s₁, inserted, rfl, rfl⟩ := ran
    have pending : n.state = .pending := by
      cases state : n.state <;> simp_all [NodeState.isActive]
    exact .starts ⟨here, nodes⟩ pending rfl rfl rfl defined agent free inserted

variable {node : NodeExecution}

theorem recordCompletionReport_reports (inv : Inv lib s) {turnID : ID} {report : CompletionReport}
    {answer : Unit} (ran : recordCompletionReport lib input turnID report s = .ok (answer, s')) :
    ∃ A v n rest, Reports s report A v n rest s' := by
  simp only [recordCompletionReport, need_then, refuse_then, check_then, write_then,
    attempt_ok] at ran
  obtain ⟨_, turn, _, n, node, a, found, running, d, defined, declared, _, _, _, _, linked⟩ := ran
  obtain ⟨v, view, graph, item, _⟩ := view_of_find found
  have running : n.state = .running := not_not.mp running
  have member : n ∈ v.nodes := by
    rw [view_nodes view]
    exact mem_nodesOf.mpr ⟨find_mem node, rfl⟩
  obtain ⟨rest, nodes⟩ := (inv.sound view).head member (by rw [running]; rfl)
  obtain ⟨_, course, _, _⟩ := (inv.sound view).at nodes
  obtain ⟨d', found', kind, _⟩ := course.fits n member
  obtain ⟨defined, _⟩ := filter_eq_some_iff.mp defined
  rw [← graph] at defined
  cases found'.symm.trans defined
  rw [find_key found, ← item] at linked
  refine ⟨_, v, n, rest, ⟨view, nodes⟩, running, ⟨_, found', kind, fun outcome reported => ?_⟩, linked⟩
  cases reported
  exact not_not.mp declared

theorem advanceGraph_advances {itemID : ID} {answer : RunState}
    (ran : advanceGraph lib input itemID A node s = .ok (answer, s')) :
    ∃ a outcome, s.attempts.find A = some a ∧ node.completionOutcome = some outcome ∧
      Fits a.graph node ∧ Advances lib input itemID A a node outcome
        (s.log itemID A node.id (.nodeCompleted node.nodeKey node.visit outcome)) s' := by
  simp only [advanceGraph, need_then, refuse_then, write_then] at ran
  obtain ⟨outcome, reported, a, found, d, defined, declared, ran⟩ := ran
  obtain ⟨defined, kind⟩ := filter_eq_some_iff.mp defined
  refine ⟨a, outcome, found, reported, ⟨d, defined, of_decide_eq_true kind, fun outcome' same => ?_⟩, ?_⟩
  · cases reported.symm.trans same
    exact not_not.mp declared
  cases find_key found
  rcases routed : route a.graph node.nodeKey outcome with _ | (_ | target)
  · simp only [routed, takeRoute, fail_ok] at ran
  · simp only [routed, takeRoute, complete, write_then, attempt_then, pure_ok] at ran
    obtain ⟨s₁, inserted, s₂, credited, _, rfl⟩ := ran
    exact .completes (route_terminal routed) inserted credited
  simp only [routed, takeRoute, read_then] at ran
  split at ran
  · obtain ⟨_, rfl⟩ := ran
    exact .exhausts
  · rename_i left
    simp only [proceed, need_then, read_then, write_then, insertNodeExecution, attempt_then,
      pure_ok] at ran
    obtain ⟨d, target, s₁, made, s₂, moved, _, rfl⟩ := ran
    obtain ⟨row, built, placed⟩ := bind_ok.mp made
    exact .proceeds (route_node routed) (Int.not_le.mp left) target built placed moved

theorem completeTurn_ends (inv : Inv lib s) {turnID : ID} {reason : String} {failure : RawMessage}
    {answer : RunState} (ran : completeTurn lib input turnID reason failure s = .ok (answer, s')) :
    EndsTurn lib input s s' := by
  simp only [completeTurn, need_then, refuse_then] at ran
  obtain ⟨turn, present, n, node, a, found, running, ran⟩ := ran
  have running : turn.state = .running := not_not.mp running
  obtain ⟨v, rest, view, member, nodes, run⟩ := inv.running_turn (find_mem present) running node
  rw [inv.node_of_turn (find_mem present) node] at found
  obtain ⟨v', view', _, item, _⟩ := view_of_find found
  cases view.symm.trans view'
  split at ran
  · simp only [failTurn, write_then, pure_ok, ← item] at ran
    obtain ⟨_, rfl⟩ := ran
    exact .fails ⟨view, nodes⟩ run member running (by split <;> simp) (by split <;> simp)
  · simp only [write_then, ← item] at ran
    obtain ⟨a', outcome, found', _, _, advances⟩ := advanceGraph_advances ran
    exact .settles ⟨view, nodes⟩ run member running found' advances

theorem respondBlocker_responds (inv : Inv lib s) {response : BlockerResponseInput} {answer : Responded}
    (ran : respondBlocker lib input response s = .ok (answer, s')) :
    Responds lib input response s answer s' := by
  simp only [respondBlocker, need_then, refuse_then, check_then] at ran
  obtain ⟨_, b, present, opened, _, _, _, _, _, _, ran⟩ := ran
  have opened : b.state = .opened := not_not.mp opened
  have found : s.blockers.find b.id = some b := find_of_mem (find_mem present)
  obtain ⟨v, n, rest, view, here, nodes, node, known, _, run, _⟩ :=
    inv.open_blocker (find_mem present) opened
  split at ran
  · rename_i kind
    simp only [confirm, need_then, read_then, node, known, some.injEq, exists_eq_left'] at ran
    split at ran
    · rename_i stale
      obtain ⟨rfl, rfl⟩ := ran
      exact .discloses found opened kind node known fun perm => stale (sorted_eq.mpr perm.symm)
    rename_i disclosed
    simp only [resolveBlocker, refuse_then, write_then, pure_ok] at ran
    obtain ⟨confirmed, rfl, rfl⟩ := ran
    exact .confirms found opened node known (sorted_eq.mp (not_not.mp disclosed)).symm
      (sorted_eq.mp (not_not.mp confirmed))
  · rename_i kind
    simp only [resolveBlocker, write_then, need_then] at ran
    obtain ⟨nodeID, named, ran⟩ := ran
    cases node.symm.trans named
    obtain ⟨_, s₁, answered, done⟩ := bind_ok.mp ran
    obtain ⟨rfl, rfl⟩ := pure_ok.mp done
    obtain ⟨_, course, _, _⟩ := (inv.sound view).at nodes
    simp only [completeHumanNode, need_then, refuse_then, write_then, attempt_then,
      (course.blockers b here).1] at answered
    obtain ⟨n', again, _, s₂, linked, advanced⟩ := answered
    cases known.symm.trans again
    obtain ⟨a, outcome, owner, reported, fits, advances⟩ := advanceGraph_advances advanced
    cases reported
    obtain ⟨links, same⟩ := linkAll_eq linked
    refine .answers found opened kind ⟨view, nodes⟩ here run ?_ fits linked advances
    rw [same] at owner
    exact owner

theorem revise_revises {request : RevisionInput} {base : RevisionBase} {spec : CanonicalSpec}
    {u : Unit} (ran : revise lib input request base spec s = .ok (u, s')) :
    ∃ item current create s₁ number, s.items.find request.workItemID = some item ∧
      item.currentAttemptID = some base.currentAttemptID ∧
      s.attempts.find base.currentAttemptID = some current ∧ current.run = .succeeded ∧
      create.workItemID = request.workItemID ∧ create.spec = spec ∧
      createAttempt lib input create s = .ok ((), s₁) ∧
      s' = (s₁.setCurrent request.workItemID input.attemptID).log request.workItemID input.attemptID none
        (.revisionRequested request.feedbackID number) := by
  simp only [revise, need_then, refuse_then, read_then] at ran
  obtain ⟨item, found, same, current, present, done, _, ran⟩ := ran
  obtain ⟨_, s₁, created, ending⟩ := bind_ok.mp ran
  simp only [write_then, write_ok] at ending
  exact ⟨item, current, _, s₁, _, found, not_not.mp same, present, not_not.mp done, rfl, rfl, created,
    ending.symm⟩

theorem saveFeedback_saves {request : FeedbackInput} {u : Unit}
    (ran : saveFeedback input request s = .ok (u, s')) : ∃ f s₁ s₂, s.insertFeedback f = .ok s₁ ∧
    s₁.deductValue request.workItemID request.attemptID input.feedbackID = .ok s₂ ∧
    s' = s₂.log request.workItemID request.attemptID none (.feedbackRecorded request.category) := by
  simp only [saveFeedback, refuse_then, need_then, attempt_then, write_ok] at ran
  obtain ⟨_, _, _, _, _, s₁, inserted, s₂, deducted, rfl⟩ := ran
  exact ⟨_, s₁, s₂, inserted, deducted, rfl⟩

end Commands

end Iterabase.Work
