/-
**The work engine — statements.**

What the transactions of `internal/work` read and write. An insert checks the constraints of its table;
an update names the states it starts from.

* `State.nodesOf`, `State.active` — the executions of an attempt, the newest first, and the active one.
* `State.insertNode`, `State.insertTurn`, `State.insertBlocker`, … — inserts, with their unique indexes.
* `State.setNode`, `State.setRun`, … — updates.
* `route`, `findNode`, `nodeRow` — the lookups of the graph, and the row of an execution.
* `State.creditValue`, `State.deductValue` — the two entries an item may have in the value ledger.
-/

import Iterabase.Work.Types

namespace Iterabase.Work

open Conc Data Workflow
open Gateway (InvocationID Invocation)

/-! ### The graph -/

def findNode (graph : CanonicalGraph) (key : String) : Option CanonicalNode :=
  graph.nodes.find? fun n => n.key = key

inductive Destination
  | terminal
  | node (target : String)

/-- `route`: the terminal outcomes come first. -/
def route (graph : CanonicalGraph) (node outcome : String) : Option Destination :=
  if graph.terminalOutcomes.any fun t => t.node = node ∧ t.outcome = outcome then some .terminal
  else (graph.edges.find? fun e => e.fromNode = node ∧ e.outcome = outcome).map fun e =>
    .node e.toNode

/-- `validateInstance`: an absent value is an empty object, an absent schema accepts every value. -/
def validateInstance (lib : Library) (raw schema : RawMessage) : Bool :=
  let value : Option Json :=
    match raw with
    | .blank | .emptyObject => some (.object [])
    | .text value => value
  match value, schema with
  | none, _ => false
  | some _, .blank | some _, .emptyObject => true
  | some value, schema => lib.compiles schema && lib.conforms value schema

/-! ### Executions -/

/-- `timeout_ms` of an execution. -/
def nodeTimeout (lib : Library) (node : CanonicalNode) : Except Err (Option Int) :=
  if node.timeout = "" then .ok none
  else
    match parseDuration lib.fraction node.timeout with
    | none => .error (.invalidInput s!"invalid node timeout {quote node.timeout}")
    | some d =>
        if d ≤ 0 then .error (.invalidInput s!"invalid node timeout {quote node.timeout}")
        else .ok (some (milliseconds d))

def nodeRow (lib : Library) (id attemptID : ID) (node : CanonicalNode) (visit seq : Nat)
    (models : List (String × ModelSnapshot)) (spec : CanonicalSpec) : Except Err NodeExecution := do
  let modelRef := if node.modelRef = "" then spec.defaultModelRef else node.modelRef
  let modelSnapshot :=
    if node.kind = nodeAgentTask then some ((models.lookup modelRef).getD {}) else none
  let timeoutMS ← nodeTimeout lib node
  return {
    id, attemptID, visit, modelSnapshot, timeoutMS
    nodeKey := node.key
    executionSeq := seq
    kind := node.kind }

/-- The CHECK constraint of `runtime.node_executions` that a row violates. -/
def NodeExecution.violation (n : NodeExecution) : Option String :=
  if n.visit = 0 then some "node_executions_visit_check"
  else if n.executionSeq = 0 then some "node_executions_execution_seq_check"
  else if n.kind ≠ nodeAgentTask ∧ n.kind ≠ nodeHumanGate then some "node_executions_kind_check"
  else if n.timeoutMS.any (· ≤ 0) then some "node_executions_timeout_ms_check"
  else none

/-! ### Artifacts -/

/-- Two links under one key; a link without an execution is under none. -/
def ArtifactLink.clashes (l l' : ArtifactLink) : Bool :=
  l'.artifactID = l.artifactID ∧ l'.workItemID = l.workItemID ∧ l'.attemptID = l.attemptID ∧
    l'.nodeExecutionID = l.nodeExecutionID ∧ l.nodeExecutionID.isSome ∧ l'.role = l.role

/-- The id of an artifact as a parameter of a statement. -/
def ArtifactRef.uuid (ref : ArtifactRef) : Except Err Uuid :=
  match Uuid.read ref.artifactID with
  | none => .error (.infrastructure "invalid input syntax for type uuid")
  | some id => .ok id

/-! ### Value -/

/-- What a completion is worth, in millionths: the quotient is one of `numeric`, and the column rounds it
to six decimals. -/
def ValueModel.amount (model : ValueModel) : Nat :=
  (((Numeric.mul ⟨model.baselineSeconds, 0⟩ ⟨model.loadedHourlyCost, 6⟩).div ⟨3600, 0⟩).rescale 6).units

/-- The event that tells of an entry. -/
def ValueKind.event (kind : ValueKind) (currency : String) : Event :=
  match kind with
  | .completionCredit => .valueCredited currency
  | .feedbackDeduction => .valueDeducted currency

namespace State

variable (s : State)

def nodesOf (attemptID : ID) : List NodeExecution :=
  s.nodes.rows.filter fun n => n.attemptID = attemptID

def transitionsOf (attemptID : ID) : List Transition :=
  s.transitions.rows.filter fun t => t.attemptID = attemptID

/-- The pending, running or blocked execution of an attempt. -/
def active (attemptID : ID) : Option NodeExecution :=
  (s.nodesOf attemptID).find? fun n => n.state.isActive

def maximum (numbers : List Nat) : Nat := numbers.foldr max 0

def nextVisit (attemptID : ID) (key : String) : Nat :=
  maximum (((s.nodesOf attemptID).filter fun n => n.nodeKey = key).map NodeExecution.visit) + 1

def nextSeq (attemptID : ID) : Nat :=
  maximum ((s.nodesOf attemptID).map NodeExecution.executionSeq) + 1

def turnOf (nodeID : ID) : Option Turn :=
  s.turns.rows.find? fun t => t.nodeExecutionID = nodeID

/-! ### Inserts -/

/-- A row refused by a primary key. -/
def unique {α : Type} (name : String) : Option α → Except Err α
  | none => .error (.constraint name)
  | some table => .ok table

def insertNode (n : NodeExecution) : Except Err State :=
  match n.violation with
  | some name => .error (.constraint name)
  | none =>
      if (s.nodesOf n.attemptID).any fun m => m.nodeKey = n.nodeKey ∧ m.visit = n.visit then
        .error (.constraint "node_executions_attempt_id_node_key_visit_key")
      else if (s.nodesOf n.attemptID).any fun m => m.executionSeq = n.executionSeq then
        .error (.constraint "node_executions_attempt_id_execution_seq_key")
      else if n.state.isActive ∧ (s.active n.attemptID).isSome then
        .error (.constraint "idx_node_executions_one_active")
      else do
        let nodes ← unique "node_executions_pkey" (s.nodes.insert n)
        return { s with nodes := nodes }

/-- Insert a turn: one for an execution, one running in a session. -/
def insertTurn (t : Turn) : Except Err State :=
  if s.turns.rows.any fun t' => t'.nodeExecutionID = t.nodeExecutionID then
    .error (.constraint "idx_turns_node_execution")
  else if s.turns.rows.any fun t' => t'.runID = t.runID ∧ t'.state = .running then
    .error (.constraint "idx_turns_one_active_per_session")
  else do
    let turns ← unique "turns_pkey" (s.turns.insert t)
    return { s with turns := turns }

/-- Insert a blocker: one open for an item. -/
def insertBlocker (b : Blocker) : Except Err State :=
  if b.kind ∉ ["information", "decision", "approval", "artifact", consequenceConfirmation] then
    .error (.constraint "blockers_kind_check")
  else if s.blockers.rows.any fun b' => b'.workItemID = b.workItemID ∧ b'.state = .opened then
    .error (.constraint "idx_blockers_one_open_per_item")
  else do
    let blockers ← unique "blockers_pkey" (s.blockers.insert b)
    return { s with blockers := blockers }

def insertTransition (t : Transition) : Except Err State := do
  let transitions ← unique "graph_transitions_from_execution_id_key" (s.transitions.insert t)
  return { s with transitions := transitions }

def insertAttempt (a : Attempt) : Except Err State :=
  if s.attempts.rows.any fun a' => a'.workItemID = a.workItemID ∧ a'.number = a.number then
    .error (.constraint "attempts_work_item_id_number_key")
  else if a.revisionFeedbackID.isSome ∧
      s.attempts.rows.any fun a' => a'.revisionFeedbackID = a.revisionFeedbackID then
    .error (.constraint "idx_attempts_revision_feedback")
  else do
    let attempts ← unique "workflow_runs_pkey" (s.attempts.insert a)
    return { s with attempts := attempts }

def itemOf (identityID : ID) (workflowKey idempotencyKey : String) : Option WorkItem :=
  s.items.rows.find? fun i => i.startIdentityID = identityID ∧ i.workflowKey = workflowKey ∧
    i.startIdempotencyKey = idempotencyKey

def insertItem (i : WorkItem) : Except Err State :=
  if (s.itemOf i.startIdentityID i.workflowKey i.startIdempotencyKey).isSome then
    .error (.constraint "work_items_start_identity_id_workflow_key_start_idempotency_key")
  else do
    let items ← unique "work_items_pkey" (s.items.insert i)
    return { s with items := items }

def insertFeedback (f : Feedback) : Except Err State := do
  let feedback ← unique "feedback_pkey" (s.feedback.insert f)
  return { s with feedback := feedback }

/-- Link an artifact, unless it is linked so already. -/
def link (l : ArtifactLink) : State :=
  if s.links.any (l.clashes ·) then s else { s with links := l :: s.links }

/-- Link an artifact that is not linked so yet. -/
def insertLink (l : ArtifactLink) : Except Err State :=
  if s.links.any (l.clashes ·) then
    .error (.constraint "artifact_links_artifact_id_work_item_id_attempt_id_node_exe_key")
  else .ok { s with links := l :: s.links }

/-- `appendTimelineTx`. -/
def log (workItemID attemptID : ID) (nodeID : Option ID) (event : Event) : State :=
  { s with timeline := ⟨workItemID, attemptID, nodeID, event⟩ :: s.timeline }

/-! ### The value ledger -/

def entryOf (itemID : ID) (kind : ValueKind) : Option ValueEntry :=
  s.value.find? fun e => e.workItemID = itemID ∧ e.kind = kind

/-- Insert an entry, unless its item has one of the kind, and tell the timeline of it. An amount has at
most fourteen digits before its decimals. -/
def insertValue (itemID attemptID : ID) (feedbackID : Option ID) (kind : ValueKind)
    (amount : Int) (currency : String) (model : ValueModel) : Except Err State :=
  if 10 ^ 20 ≤ amount.natAbs then .error (.infrastructure "numeric field overflow")
  else if allowed : kind.allows amount feedbackID then
    if (s.entryOf itemID kind).isSome then .ok s
    else
      let entry : ValueEntry := {
        workItemID := itemID, attemptID, feedbackID, kind, amount, currency, model, allowed }
      .ok (State.log { s with value := entry :: s.value } itemID attemptID none (kind.event currency))
  else .error (.constraint "value_ledger_check")

def creditValue (itemID attemptID : ID) : Except Err State :=
  match s.attempts.find attemptID with
  | none => .error .notFound
  | some a =>
      match a.valueModel with
      | some model =>
          if a.number = 1 then
            s.insertValue itemID attemptID none .completionCredit model.amount model.currency model
          else .ok s
      | none => .ok s

def deductValue (itemID attemptID feedbackID : ID) : Except Err State :=
  match s.entryOf itemID .completionCredit with
  | none => .ok s
  | some credit => s.insertValue itemID attemptID feedbackID .feedbackDeduction (-credit.amount)
      credit.currency credit.model

/-! ### Updates -/

def setNode (id : ID) (f : NodeExecution → NodeExecution)
    (keeps : ∀ n, (f n).id = n.id) : State :=
  { s with nodes := s.nodes.update (fun n => n.id = id) f keeps }

def moveNode (id : ID) (allowed : NodeState → Bool) (state : NodeState) : State :=
  { s with
    nodes := s.nodes.update (fun n => n.id = id && allowed n.state)
      (fun n => { n with state := state }) fun _ => rfl }

def setTurn (id : ID) (state : TurnState) : State :=
  { s with
    turns := s.turns.update (fun t => t.id = id) (fun t => { t with state := state }) fun _ => rfl }

def setBlocker (id : ID) (f : Blocker → Blocker) (keeps : ∀ b, (f b).id = b.id) : State :=
  { s with blockers := s.blockers.update (fun b => b.id = id) f keeps }

def setRun (id : ID) (allowed : RunState → Bool) (state : RunState) : State :=
  { s with
    attempts := s.attempts.update (fun a => a.id = id && allowed a.run)
      (fun a => { a with run := state }) fun _ => rfl }

def finishAttempt (id : ID) (failure : Option Failure) : State :=
  { s with
    attempts := s.attempts.update (fun a => a.id = id)
      (fun a => { a with finished := true, customerFailure := failure.or a.customerFailure })
      fun _ => rfl }

def setCurrent (itemID attemptID : ID) : State :=
  { s with
    items := s.items.update (fun i => i.id = itemID)
      (fun i => { i with currentAttemptID := some attemptID }) fun _ => rfl }

/-! ### Consequences -/

/-- A write that had, or may have had, an effect. -/
def consequential (inv : Invocation) : Bool :=
  inv.effectClass ≠ .readOnly ∧ (inv.state = .succeeded ∨ inv.state = .outcomeUnknown)

def executionOf (inv : Invocation) : Option NodeExecution :=
  if inv.key.callerScope = .turn then
    (s.turns.find inv.key.callerScopeID).bind fun t => s.nodes.find t.nodeExecutionID
  else none

/-- `consequencesForNodeTx`: those of the other visits of a node. That each has a valid summary, or the
transaction fails (`validateConsequenceSummary`), is left out here. -/
def consequencesForNode (attemptID : ID) (nodeKey : String) (exclude : ID) :
    List InvocationID :=
  (s.ledger.rows.rows.filter fun inv => consequential inv && (s.executionOf inv).any fun n =>
    n.attemptID = attemptID ∧ n.nodeKey = nodeKey ∧ n.id ≠ exclude).map Invocation.id

/-- `consequencesForItemQuery`: those of all attempts of an item. -/
def consequencesForItem (itemID : ID) : List InvocationID :=
  (s.ledger.rows.rows.filter fun inv => consequential inv && (s.executionOf inv).any fun n =>
    (s.attempts.find n.attemptID).any fun a => a.workItemID = itemID).map Invocation.id

def sorted (ids : List InvocationID) : List InvocationID := ids.insertionSort (· ≤ ·)

def later (b b' : Blocker) : Blocker :=
  if b.resolvedAt.getD 0 < b'.resolvedAt.getD 0 then b' else b

/-- The confirmation of an execution that was resolved last. -/
def lastConfirmation (nodeID : ID) : Option Blocker :=
  match s.blockers.rows.filter fun b => b.nodeExecutionID = some nodeID ∧
      b.kind = consequenceConfirmation ∧ b.state = .resolved with
  | [] => none
  | b :: rest => some (rest.foldl later b)

def consequencesConfirmed (nodeID : ID) (current : List InvocationID) : Bool :=
  (s.lastConfirmation nodeID).any fun b => sorted b.requiredConsequences = sorted current

end State

end Iterabase.Work
