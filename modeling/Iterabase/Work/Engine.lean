/-
**The work engine — commands.**

`graph.go`, `commands.go` and the part of `store.go` that creates attempts: seven commands, each one
transaction, except that a revision is resolved before its transaction begins.

* `prepareNode`, `recordCompletionReport`, `completeTurn` — the drive of an attempt.
* `advanceGraph` — **the router**, after an agent task and after a human gate.
* `respondBlocker`, `saveFeedback`, `start`, `createRevision` — what customers do.
-/

import Iterabase.Work.Store

namespace Iterabase.Work

open Conc Data Workflow
open Gateway (InvocationID)

abbrev Transaction := Tx Err State

/-! ### PrepareNode -/

/-- What `PrepareNode` returns: an execution that waits, or one with a turn to assign. -/
inductive Prepared
  | waiting (node : NodeExecution)
  | dispatch (node : NodeExecution) (turn : Turn)

def block (a : Attempt) (node : NodeExecution) (event : Event) : Transaction Prepared := do
  .write (·.moveNode node.id (fun _ => true) .blocked)
  .write (·.setRun a.id (· ∈ [.pending, .running]) .awaitingApproval)
  .write (·.log a.workItemID a.id node.id event)
  return .waiting { node with state := .blocked }

/-- The confirmation that a repeated visit waits for. -/
def confirmConsequences (input : Input) (a : Attempt) (node : NodeExecution)
    (consequences : List InvocationID) : Transaction Prepared := do
  .attempt (·.insertBlocker {
    id := input.blockerID
    workItemID := a.workItemID
    attemptID := a.id
    nodeExecutionID := some node.id
    kind := consequenceConfirmation
    allowedOutcomes := ["confirmed"]
    requiredConsequences := consequences })
  block a node (.consequenceConfirmationRequired node.nodeKey consequences)

def askHuman (input : Input) (a : Attempt) (node : NodeExecution) (outcomes : List String)
    (gate : HumanGate) : Transaction Prepared := do
  .attempt (·.insertBlocker {
    id := input.blockerID
    workItemID := a.workItemID
    attemptID := a.id
    nodeExecutionID := some node.id
    kind := gate.type
    responseSchema := gate.responseSchema
    allowedOutcomes := outcomes })
  block a node (.workBlocked node.nodeKey gate.type)

def startTurn (input : Input) (a : Attempt) (node : NodeExecution) : Transaction Prepared := do
  let model ← .need (fun _ => node.modelSnapshot.filter (·.id ≠ ""))
    (.invalidInput s!"node {node.id} has no valid model snapshot")
  let turn : Turn := {
    id := input.turnID, runID := a.id, nodeExecutionID := node.id, model := model.id }
  .attempt (·.insertTurn turn)
  .write (·.moveNode node.id (· = .pending) .running)
  .write (·.setRun a.id (· ∈ [.pending, .awaitingApproval]) .running)
  .write (·.log a.workItemID a.id node.id (.nodeStarted node.nodeKey node.visit))
  return .dispatch { node with state := .running } turn

def prepareNode (input : Input) (attemptID : ID) : Transaction Prepared := do
  let node ← .need (·.active attemptID) .notFound
  if node.state = .blocked then return .waiting node
  else
    let a ← .need (·.attempts.find attemptID) .notFound
    .refuse (a.run ≠ .pending ∧ a.run ≠ .running) (.invalidTransition "attempt state")
    let definition ← .need (fun _ => findNode a.graph node.nodeKey) (.graph (.node node.nodeKey))
    let consequences ← .read (·.consequencesForNode attemptID node.nodeKey node.id)
    let confirmed ← .read (·.consequencesConfirmed node.id consequences)
    if node.state = .pending ∧ 1 < node.visit ∧ definition.kind = nodeAgentTask ∧
        consequences ≠ [] ∧ ¬ confirmed then
      confirmConsequences input a node consequences
    else if definition.kind = nodeHumanGate then
      if node.state = .pending then
        let gate ← .need (fun _ => definition.humanGate) (.graph (.node node.nodeKey))
        askHuman input a node definition.outcomes gate
      else return .waiting node
    else if node.state = .running then
      -- the execution has its turn already
      let turn ← .need (·.turnOf node.id) .notFound
      return .dispatch node turn
    else startTurn input a node

/-! ### Routing -/

def insertNodeExecution (lib : Library) (id attemptID : ID) (node : CanonicalNode) (visit seq : Nat)
    (models : List (String × ModelSnapshot)) (spec : CanonicalSpec) : Transaction Unit :=
  .attempt fun s => do
    let row ← nodeRow lib id attemptID node visit seq models spec
    s.insertNode row

/-- The links of an execution that the next one inherits: its inputs, and what it selected. -/
def inherits (node : NodeExecution) (l : ArtifactLink) : Bool :=
  l.attemptID = node.attemptID ∧ l.nodeExecutionID = some node.id ∧
    (l.role = "source" ∨ l.role = "input" ∨ node.artifactRefs.any fun ref =>
      ref.artifactID = l.artifactID.text)

/-- Hand the artifacts of an execution to the next one. The oldest link of an artifact is the one that is
copied. -/
def State.handOver (s : State) (node : NodeExecution) (nextID : ID) : State :=
  (s.links.reverse.filter (inherits node)).foldl
    (fun s l => s.link { l with nodeExecutionID := some nextID, role := "input" }) s

open State

def complete (itemID attemptID : ID) (node : NodeExecution) (outcome : String) :
    Transaction RunState := do
  .write (·.setRun attemptID (fun _ => true) .succeeded)
  .write (·.finishAttempt attemptID none)
  .attempt (·.insertTransition {
    attemptID, outcome
    fromExecutionID := node.id
    toExecutionID := none
    terminal := true })
  .attempt (·.creditValue itemID attemptID)
  .write (·.log itemID attemptID node.id .workCompleted)
  return .succeeded

def exhaust (itemID attemptID : ID) (node : NodeExecution) : Transaction RunState := do
  .write (·.setRun attemptID (fun _ => true) .failed)
  .write (·.finishAttempt attemptID (some .transitionLimit))
  .write (·.log itemID attemptID node.id .transitionLimit)
  return .failed

/-- One step of a walk. -/
def proceed (lib : Library) (input : Input) (a : Attempt) (node : NodeExecution)
    (outcome target : String) : Transaction RunState := do
  let next ← .need (fun _ => findNode a.graph target) (.graph (.target target))
  let visit ← .read (·.nextVisit a.id target)
  let seq ← .read (·.nextSeq a.id)
  insertNodeExecution lib input.nodeID a.id next visit seq a.models a.spec
  .write (·.handOver node input.nodeID)
  .attempt (·.insertTransition {
    outcome
    attemptID := a.id
    fromExecutionID := node.id
    toExecutionID := some input.nodeID
    terminal := false })
  .write (·.setRun a.id (· ∈ [.running, .awaitingApproval]) .running)
  return .running

/-- Go where a route leads. -/
def takeRoute (lib : Library) (input : Input) (itemID attemptID : ID) (a : Attempt)
    (node : NodeExecution) (outcome : String) : Option Destination → Transaction RunState
  | none => .fail (.graph (.route node.nodeKey outcome))
  | some .terminal => complete itemID attemptID node outcome
  | some (.node target) => do
      let moves ← .read fun s => ((s.transitionsOf attemptID).filter fun t => !t.terminal).length
      if a.graph.maxTransitions ≤ moves then exhaust itemID attemptID node
      else proceed lib input a node outcome target

def advanceGraph (lib : Library) (input : Input) (itemID attemptID : ID) (node : NodeExecution) :
    Transaction RunState := do
  let outcome ← .need (fun _ => node.completionOutcome)
    (.invalidTransition "node completion outcome is missing")
  let a ← .need (·.attempts.find attemptID) .notFound
  let definition ← .need (fun _ => (findNode a.graph node.nodeKey).filter fun n => n.kind = node.kind)
    (.graph (.node node.nodeKey))
  .refuse (outcome ∉ definition.outcomes) (.graph (.outcome outcome))
  .write (·.log itemID attemptID node.id (.nodeCompleted node.nodeKey node.visit outcome))
  takeRoute lib input itemID attemptID a node outcome (route a.graph node.nodeKey outcome)

/-! ### Turns -/

/-- An artifact of a report was published by its execution. -/
def checkReportArtifact (input : Input) (links : List ArtifactLink) (node : NodeExecution)
    (ref : ArtifactRef) : Except Err Unit := do
  if ref.artifactID = "" then .error (.invalidInput "artifactId is required")
  else if ref.role ≠ "" ∧ ref.role ≠ "output" ∧ ref.role ≠ "evidence" then
    .error (.invalidInput "artifact role is not allowed for complete_step")
  else if ref.metadata = .text none then .error (.invalidInput "artifact metadata must be valid JSON")
  else
    let id ← ref.uuid
    if id ∈ input.published ∧ links.any fun l =>
        l.artifactID = id ∧ l.attemptID = node.attemptID ∧ l.nodeExecutionID = some node.id then .ok ()
    else .error (.invalidInput "artifact is not an output published by this node")

/-- The link of an artifact to an execution. -/
def ArtifactRef.linkTo (ref : ArtifactRef) (itemID attemptID nodeID : ID) (role : String) (id : Uuid) :
    ArtifactLink where
  artifactID := id
  workItemID := itemID
  attemptID := attemptID
  nodeExecutionID := some nodeID
  role := role
  metadata := ref.metadata

def State.linkAll (s : State) (itemID attemptID nodeID : ID) (role : ArtifactRef → String)
    (refs : List ArtifactRef) : Except Err State :=
  refs.foldlM (fun s ref => do
    let id ← ref.uuid
    return s.link (ref.linkTo itemID attemptID nodeID (role ref) id)) s

def reportRole (ref : ArtifactRef) : String := if ref.role = "" then "output" else ref.role

def NodeExecution.withReport (n : NodeExecution) (report : CompletionReport) : NodeExecution :=
  { n with
    completionOutcome := some report.outcome
    completionSummary := some report.summary
    artifactRefs := report.artifactRefs
    reported := true }

def recordCompletionReport (lib : Library) (input : Input) (turnID : ID) (report : CompletionReport) :
    Transaction Unit := do
  .refuse (report.outcome = "" ∨ report.summary = "")
    (.invalidInput "outcome and summary are required")
  let turn ← .need (·.turns.find turnID) .notFound
  let node ← .need (·.nodes.find turn.nodeExecutionID) .notFound
  let a ← .need (·.attempts.find node.attemptID) .notFound
  .refuse (node.state ≠ .running) (.invalidTransition "node state")
  let definition ← .need
    (fun _ => (findNode a.graph node.nodeKey).filter fun n => n.kind = nodeAgentTask)
    (.invalidTransition "completion report is not for an agent node")
  .refuse (report.outcome ∉ definition.outcomes) (.invalidInput "outcome is not declared by node")
  .refuse (¬ validateInstance lib report.output (definition.outputSchema.getD .blank))
    (.invalidInput "output")
  .check fun s => report.artifactRefs.forM (checkReportArtifact input s.links node)
  .refuse node.reported (.conflict "complete_step already reported")
  .write (·.setNode node.id (·.withReport report) fun _ => rfl)
  .attempt (·.linkAll a.workItemID a.id node.id reportRole report.artifactRefs)

def nullable : RawMessage → Option Failure
  | .blank => none
  | raw => some (.reported raw)

/-- A turn that did not complete its node. -/
def failTurn (a : Attempt) (turn : Turn) (node : NodeExecution) (reason : String)
    (failure : RawMessage) : Transaction RunState := do
  let aborted := reason = "aborted"
  let runTo : RunState := if aborted then .aborted else .failed
  .write (·.setTurn turn.id (if aborted then .aborted else .failed))
  .write (·.setNode node.id (fun n => { n with state := .failed, finished := true }) fun _ => rfl)
  .write (·.setRun turn.runID (fun _ => true) runTo)
  .write (·.finishAttempt turn.runID (nullable failure))
  .write (·.log a.workItemID turn.runID node.id (.workFailed node.nodeKey))
  return runTo

def completeTurn (lib : Library) (input : Input) (turnID : ID) (reason : String)
    (failure : RawMessage) : Transaction RunState := do
  let turn ← .need (·.turns.find turnID) .notFound
  let node ← .need (·.nodes.find turn.nodeExecutionID) .notFound
  let a ← .need (·.attempts.find node.attemptID) .notFound
  .refuse (turn.state ≠ .running) (.invalidTransition "turn state")
  if reason ≠ "completed" ∨ node.completionOutcome = none ∨ node.reported = false then
    failTurn a turn node reason failure
  else
    .write (·.setTurn turn.id .succeeded)
    .write (·.setNode node.id (fun n => { n with state := .succeeded, finished := true }) fun _ => rfl)
    advanceGraph lib input a.workItemID turn.runID node

/-! ### Blockers -/

/-- What `RespondBlocker` committed: the blocker is resolved, or discloses a new set. -/
inductive Responded
  | resolved
  | refreshed

def NodeExecution.answered (n : NodeExecution) (outcome : String) (refs : List ArtifactRef) :
    NodeExecution :=
  { n with
    state := .succeeded
    completionOutcome := some outcome
    completionSummary := some "Human response received"
    artifactRefs := refs
    reported := true
    finished := true }

def completeHumanNode (lib : Library) (input : Input) (b : Blocker) (nodeID : ID) (outcome : String)
    (refs : List ArtifactRef) : Transaction RunState := do
  let node ← .need (·.nodes.find nodeID) .notFound
  .refuse (node.state ≠ .blocked) (.invalidTransition "human node state")
  .write (·.setNode nodeID (·.answered outcome refs) fun _ => rfl)
  .attempt (·.linkAll b.workItemID b.attemptID nodeID (fun _ => "input") refs)
  .write (·.log b.workItemID b.attemptID nodeID (.blockerResolved node.nodeKey outcome))
  advanceGraph lib input b.workItemID b.attemptID (node.answered outcome refs)

def Blocker.answered (b : Blocker) (outcome : String) (now : Int) : Blocker :=
  { b with state := .resolved, responseOutcome := some outcome, resolvedAt := some now }

/-- A blocker that discloses another set, while it is open. -/
def Blocker.disclosing (b : Blocker) (current : List InvocationID) : Blocker :=
  if b.state = .opened then { b with requiredConsequences := current } else b

def resolveBlocker (input : Input) (b : Blocker) (outcome : String) : Transaction Unit :=
  .write (·.setBlocker b.id (·.answered outcome input.now) fun _ => rfl)

/-- The response to a confirmation. A set that has changed is disclosed again. -/
def confirm (input : Input) (b : Blocker) (outcome : String) (confirmed : List InvocationID) :
    Transaction Responded := do
  let nodeID ← .need (fun _ => b.nodeExecutionID) (.invalidTransition "blocker has no node execution")
  let node ← .need (·.nodes.find nodeID) .notFound
  let current ← .read (·.consequencesForNode b.attemptID node.nodeKey nodeID)
  if sorted b.requiredConsequences ≠ sorted current then
    .write (·.setBlocker b.id (·.disclosing current) fun b => by
      unfold Blocker.disclosing
      split <;> rfl)
    return .refreshed
  else
    .refuse (sorted current ≠ sorted confirmed)
      (.confirmation "exact invocation set required")
    resolveBlocker input b outcome
    .write (·.moveNode nodeID (· = .blocked) .pending)
    .write (·.setRun b.attemptID (· = .awaitingApproval) .running)
    .write (·.log b.workItemID b.attemptID nodeID (.consequenceRepetitionConfirmed confirmed))
    return .resolved

/-- An artifact that a customer hands in is available. -/
def checkResponseArtifact (input : Input) (ref : ArtifactRef) : Except Err Unit := do
  if ref.artifactID = "" then .error (.invalidInput "artifactRefs artifactId is required")
  else if ref.metadata = .text none then .error (.invalidInput "artifactRefs metadata must be valid JSON")
  else
    let id ← ref.uuid
    if id ∈ input.available then .ok () else .error (.invalidInput "artifactRefs is not available")

def respondBlocker (lib : Library) (input : Input) (response : BlockerResponseInput) :
    Transaction Responded := do
  .refuse (response.blockerID = "" ∨ response.actorIdentityID = "" ∨ response.outcome = "")
    (.invalidInput "blocker, actor, and outcome are required")
  let b ← .need (·.blockers.find response.blockerID) .notFound
  .refuse (b.state ≠ .opened) (.invalidTransition "blocker state")
  .refuse (response.outcome ∉ b.allowedOutcomes) (.invalidInput "outcome is not allowed")
  .refuse (¬ validateInstance lib response.response b.responseSchema) (.invalidInput "response")
  .refuse (b.kind = "artifact" ∧ response.artifactRefs.isEmpty)
    (.invalidInput "artifact blocker requires artifactRefs")
  .refuse (b.kind ≠ "artifact" ∧ ¬ response.artifactRefs.isEmpty)
    (.invalidInput "artifactRefs are allowed only for artifact blockers")
  .check fun _ => response.artifactRefs.forM (checkResponseArtifact input)
  if b.kind = consequenceConfirmation then
    confirm input b response.outcome response.confirmedInvocationIDs
  else
    resolveBlocker input b response.outcome
    let nodeID ← .need (fun _ => b.nodeExecutionID)
      (.invalidTransition "blocker has no node execution")
    let _ ← completeHumanNode lib input b nodeID response.outcome response.artifactRefs
    return .resolved

/-! ### Attempts -/

def resolveModels (catalog : List (String × ModelSnapshot)) (spec : CanonicalSpec) :
    Option (List (String × ModelSnapshot)) :=
  ((spec.graph.nodes.filter fun n => n.kind = nodeAgentTask).map fun n =>
    if n.modelRef = "" then spec.defaultModelRef else n.modelRef).mapM fun ref =>
      (catalog.lookup ref).map fun model => (ref, model)

def resolveValueModel (models : List (String × ValueModel)) (ref : String) : Option ValueModel :=
  if ref = "" then none else models.lookup ref

structure CreateAttemptInput where
  workItemID : ID
  number : Nat
  definitionKey : String
  definitionVersion : String
  spec : CanonicalSpec
  sourceArtifacts : List ArtifactRef
  revisedFromAttemptID : Option ID := none
  revisionFeedbackID : Option ID := none
  consequenceConfirmation : List InvocationID := []

/-- The value model of a new attempt; a revision has that of the first attempt. -/
def attemptValueModel (input : Input) (create : CreateAttemptInput) : Transaction (Option ValueModel) :=
  match create.revisedFromAttemptID with
  | none => return resolveValueModel input.valueModels create.spec.valueModelRef
  | some _ => do
      let first ← .need (fun s => s.attempts.rows.find? fun a =>
        a.workItemID = create.workItemID ∧ a.number = 1) .notFound
      return first.valueModel

def State.linkSource (s : State) (input : Input) (itemID attemptID nodeID : ID) (ref : ArtifactRef) :
    Except Err State := do
  if ref.artifactID = "" then .error (.invalidInput "artifactId is required")
  else
    let id ← ref.uuid
    if id ∈ input.available then s.insertLink (ref.linkTo itemID attemptID nodeID "source" id)
    else .error (.invalidInput "source artifact is not available")

def createAttempt (lib : Library) (input : Input) (create : CreateAttemptInput) :
    Transaction Unit := do
  let models ← .need (fun _ => resolveModels input.catalog create.spec)
    (.invalidInput "model is unavailable")
  let valueModel ← attemptValueModel input create
  .attempt (·.insertAttempt {
    models, valueModel
    id := input.attemptID
    workItemID := create.workItemID
    number := create.number
    definitionKey := create.definitionKey
    definitionVersion := create.definitionVersion
    spec := create.spec
    revisedFromAttemptID := create.revisedFromAttemptID
    revisionFeedbackID := create.revisionFeedbackID
    consequenceConfirmation := create.consequenceConfirmation })
  let entry ← .need (fun _ => findNode create.spec.graph create.spec.graph.entryNode)
    (.invalidInput "graph entry node disappeared from immutable snapshot")
  insertNodeExecution lib input.nodeID input.attemptID entry 1 1 models create.spec
  .attempt fun s => create.sourceArtifacts.foldlM
    (·.linkSource input create.workItemID input.attemptID input.nodeID) s
  .write (·.log create.workItemID input.attemptID input.nodeID (.attemptCreated create.number))

/-- `resolveForAttempt`: a definition is validated again before it is used. -/
def resolveForAttempt (lib : Library) (input : Input) : Transaction CanonicalSpec := do
  let spec ← .need (fun _ => input.definition) (.invalidInput "workflow is unavailable")
  match validateGraph lib spec with
  | .error text => .fail (.invalidInput text)
  | .ok () => return spec

def start (lib : Library) (input : Input) (request : StartInput) : Transaction ID := do
  .refuse (request.actorIdentityID = "" ∨ request.workflowKey = "" ∨ request.idempotencyKey = "")
    (.invalidInput "actor, workflowKey, idempotency key, and title are required")
  .refuse (request.artifactRefs.any fun ref => ref.artifactID = "")
    (.invalidInput "artifactId is required")
  .refuse (request.artifactRefs.any fun ref => ref.role ≠ "" ∧ ref.role ≠ "source")
    (.invalidInput "work-item start artifacts must use role source")
  match ← .read (·.itemOf request.actorIdentityID request.workflowKey request.idempotencyKey) with
  | some item =>
      .refuse (item.startPayloadHash ≠ request.payloadHash)
        (.conflict "idempotency key reused with different payload")
      return item.id
  | none =>
      let spec ← resolveForAttempt lib input
      .attempt (·.insertItem {
        id := input.itemID
        workflowKey := request.workflowKey
        startIdentityID := request.actorIdentityID
        startIdempotencyKey := request.idempotencyKey
        startPayloadHash := request.payloadHash })
      createAttempt lib input {
        spec
        workItemID := input.itemID
        number := 1
        definitionKey := request.workflowKey
        definitionVersion := request.workflowVersion
        sourceArtifacts := request.artifactRefs }
      .write (·.setCurrent input.itemID input.attemptID)
      .write (·.log input.itemID input.attemptID none
        (.workItemCreated request.workflowKey request.artifactRefs))
      return input.itemID

def saveFeedback (input : Input) (request : FeedbackInput) : Transaction Unit := do
  .refuse (request.workItemID = "" ∨ request.attemptID = "" ∨ request.actorIdentityID = "" ∨
      request.category = "")
    (.invalidInput "item, attempt, actor, and category are required")
  .refuse (request.correctedResult matches .text none)
    (.invalidInput "correctedResult must be valid JSON")
  let a ← .need (fun s => (s.attempts.find request.attemptID).filter fun a =>
    a.workItemID = request.workItemID) .notFound
  .refuse (a.run ≠ .succeeded) (.invalidTransition "feedback requires a completed attempt")
  .attempt (·.insertFeedback {
    id := input.feedbackID
    workItemID := request.workItemID
    attemptID := request.attemptID
    category := request.category })
  .attempt (·.deductValue request.workItemID request.attemptID input.feedbackID)
  .write (·.log request.workItemID request.attemptID none (.feedbackRecorded request.category))

/-- What a revision is based on. -/
structure RevisionBase where
  definitionKey : String
  definitionVersion : String
  currentAttemptID : ID

/-- The read of `CreateRevision`: feedback on the current attempt of its item. -/
def revisionBase (request : RevisionInput) : Transaction RevisionBase := do
  .refuse (request.workItemID = "" ∨ request.actorIdentityID = "" ∨ request.feedbackID = "" ∨
      request.actionableGuidance = "")
    (.invalidInput "item, actor, feedback, and actionable guidance are required")
  let f ← .need (fun s => (s.feedback.find request.feedbackID).filter fun f =>
    f.workItemID = request.workItemID) .notFound
  let a ← .need (·.attempts.find f.attemptID) .notFound
  let _ ← .need (fun s => (s.items.find f.workItemID).filter fun i =>
    i.currentAttemptID = some f.attemptID) .notFound
  return ⟨a.definitionKey, a.definitionVersion, f.attemptID⟩

def State.sourceArtifacts (s : State) (itemID : ID) : List ArtifactRef :=
  ((s.links.filter fun l => l.workItemID = itemID ∧ l.role = "source").map fun l =>
    { artifactID := l.artifactID.text, role := "source", metadata := l.metadata }).dedup

def revise (lib : Library) (input : Input) (request : RevisionInput) (base : RevisionBase)
    (spec : CanonicalSpec) : Transaction Unit := do
  let item ← .need (·.items.find request.workItemID) .notFound
  .refuse (item.currentAttemptID ≠ some base.currentAttemptID) (.conflict "current attempt changed")
  let current ← .need (·.attempts.find base.currentAttemptID) .notFound
  .refuse (current.run ≠ .succeeded) (.invalidTransition "revision requires current item Done")
  let consequences ← .read (·.consequencesForItem request.workItemID)
  .refuse (sorted consequences ≠ sorted request.confirmedInvocationIDs)
    (.confirmation "exact invocation set required")
  let number ← .read fun s => maximum ((s.attempts.rows.filter fun a =>
    a.workItemID = request.workItemID).map Attempt.number) + 1
  let refs ← .read (·.sourceArtifacts request.workItemID)
  createAttempt lib input {
    spec, number
    workItemID := request.workItemID
    definitionKey := base.definitionKey
    definitionVersion := base.definitionVersion
    sourceArtifacts := refs
    revisedFromAttemptID := some base.currentAttemptID
    revisionFeedbackID := some request.feedbackID
    consequenceConfirmation := sorted request.confirmedInvocationIDs }
  .write (·.setCurrent request.workItemID input.attemptID)
  .write (·.log request.workItemID input.attemptID none (.revisionRequested request.feedbackID number))

/-! ### Artifacts -/

/-- `Scope`: where an artifact is published. -/
structure Scope where
  workItemID : ID
  attemptID : ID
  nodeExecutionID : Option ID

/-- `Finalize`, as far as the links go: an artifact is finalized once, and linked as an output. What is
linked somewhere has been finalized. -/
def publish (artifactID : Uuid) (scope : Scope) : Transaction Unit := do
  .refuse (scope.workItemID = "" ∨ scope.attemptID = "") (.invalidInput "incomplete work scope")
  let a ← .need (fun s => (s.attempts.find scope.attemptID).filter fun a =>
    a.workItemID = scope.workItemID) .unauthorized
  .check fun s => scope.nodeExecutionID.forM fun id =>
    if (s.nodes.find id).any fun n => n.attemptID = a.id then .ok () else .error .unauthorized
  let links ← .read (·.links)
  .refuse (links.any fun l => l.artifactID = artifactID) .notFound
  .attempt (·.insertLink {
    artifactID
    workItemID := scope.workItemID
    attemptID := scope.attemptID
    nodeExecutionID := scope.nodeExecutionID
    role := "output"
    metadata := .emptyObject })

/-! ### The system -/

abbrev Program := Prog Unit Input State

/-- A call of the store: it may fail before it had an effect, or after it committed. -/
def call {α : Type} (tx : Input → Transaction α) (input : Input) (s : State) : Except Err α × State :=
  match input.fault with
  | .none => (tx input).commit s
  | .before text => (.error (.infrastructure text), s)
  | .after text => (.error (.infrastructure text), ((tx input).commit s).2)

def store {α : Type} (tx : Input → Transaction α) : Program (Except Err α) :=
  .atomic () fun input s => some (call tx input s)

def createRevision (lib : Library) (request : RevisionInput) : Program Unit := do
  match ← store fun _ => revisionBase request with
  | .error _ => return ()
  | .ok base =>
      match ← store fun input => resolveForAttempt lib input with
      | .error _ => return ()
      | .ok spec => let _ ← store fun input => revise lib input request base spec

/-- The statements of the tool gateway on its ledger. -/
inductive LedgerStatement
  | insert (thread : Nat) (call : Gateway.Call) (id : InvocationID) (lease : Int)
  | markRunning (id : InvocationID) (lease : Int)
  | renewDispatchLease (id : InvocationID) (lease : Int)
  | finish (id : InvocationID) (state : Gateway.InvocationState)
      (result artifactRefs error : Option JsonText)
  | recoverReadOnly (now : Int)
  | recoverWrites (now : Int)

def LedgerStatement.apply (statement : LedgerStatement) (ledger : Gateway.Ledger) : Gateway.Ledger :=
  let s : Gateway.State := { ledger, conns := [], pool := [], channels := [], trace := [] }
  match statement with
  | .insert thread call id lease => (s.insertInvocation thread call id lease).2.ledger
  | .markRunning id lease => (s.markRunning id lease).2.ledger
  | .renewDispatchLease id lease => (s.renewDispatchLease id lease).2.ledger
  | .finish id state result refs error => (s.finishInvocation id state result refs error).2.ledger
  | .recoverReadOnly now => (s.recoverReadOnly now).ledger
  | .recoverWrites now => (s.recoverWrites now).ledger

inductive Request
  | start (request : StartInput)
  | prepareNode (attemptID : ID)
  | recordCompletionReport (turnID : ID) (report : CompletionReport)
  | completeTurn (turnID : ID) (reason : String) (failure : RawMessage)
  | respondBlocker (response : BlockerResponseInput)
  | saveFeedback (request : FeedbackInput)
  | createRevision (request : RevisionInput)
  /-- The artifact service finalizes what an execution published. -/
  | publish (artifactID : Uuid) (scope : Scope)
  | ledger (statement : LedgerStatement)

def once {α : Type} (tx : Input → Transaction α) : Program Unit := do
  let _ ← store tx

def startRequest (lib : Library) (request : Request) (_thread : Nat) (s : State) :
    Option (State × Program Unit) :=
  some (s, match request with
    | .start request => once fun input => start lib input request
    | .prepareNode attemptID => once fun input => prepareNode input attemptID
    | .recordCompletionReport turnID report =>
        once fun input => recordCompletionReport lib input turnID report
    | .completeTurn turnID reason failure =>
        once fun input => completeTurn lib input turnID reason failure
    | .respondBlocker response => once fun input => respondBlocker lib input response
    | .saveFeedback request => once fun input => saveFeedback input request
    | .createRevision request => createRevision lib request
    | .publish artifactID scope => once fun _ => publish artifactID scope
    | .ledger statement => once fun _ => .write fun s =>
        { s with ledger := statement.apply s.ledger })

/-- **The work engine.** Its state is durable. -/
def engine (lib : Library) : System Unit Input Request State where
  start := startRequest lib
  restart := id

def State.empty : State where
  items := .empty
  attempts := .empty
  nodes := .empty
  transitions := .empty
  turns := .empty
  blockers := .empty
  feedback := .empty
  value := []
  links := []
  timeline := []
  ledger := ⟨.empty, List.nodup_nil⟩

end Iterabase.Work
