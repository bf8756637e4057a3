/-
**The work engine — data.**

The tables of `work` and the graph part of `runtime`, and what the commands take. A timestamp that is
only tested for NULL is a flag. The row of an attempt carries the state of its run, which shares its id.
An artifact's id is a text where a request or a report names it, and a `uuid` where it is linked.

* `Attempt`, `NodeExecution`, `Transition`, `Turn`, `Blocker` — an attempt's walk through its graph.
* `ValueModel`, `ValueEntry` — the estimated value of an item, and the ledger of it.
-/

import Iterabase.Conc.Transaction
import Iterabase.Data.Numeric
import Iterabase.Data.Uuid
import Iterabase.Gateway.Store
import Iterabase.Workflow.Graph

namespace Iterabase.Work

open Conc Data Workflow
open Gateway (InvocationID)

abbrev ID := String

/-! ### Attempts -/

inductive RunState
  | pending
  | running
  | awaitingApproval
  | succeeded
  | failed
  | aborted
  deriving DecidableEq

def RunState.isTerminal : RunState → Bool
  | .succeeded | .failed | .aborted => true
  | .pending | .running | .awaitingApproval => false

/-- `modelSnapshot`, as far as a turn uses it. -/
structure ModelSnapshot where
  key : String := ""
  id : String := ""
  deriving DecidableEq

/-- Why an attempt failed, for the customer. -/
inductive Failure
  | transitionLimit
  | reported (summary : RawMessage)

/-- A row of `work.value_models`, as far as a snapshot of it is used. -/
structure ValueModel where
  id : ID
  currency : String
  baselineSeconds : Nat
  /-- In millionths. -/
  loadedHourlyCost : Nat
  deriving DecidableEq

structure Attempt where
  id : ID
  workItemID : ID
  number : Nat
  definitionKey : String
  definitionVersion : String
  /-- `graph_snapshot`, and the definition it was taken from. -/
  spec : CanonicalSpec
  /-- `models_snapshot`, by reference. -/
  models : List (String × ModelSnapshot)
  /-- `value_model_id` and `value_model_snapshot`, which are set together. -/
  valueModel : Option ValueModel := none
  revisedFromAttemptID : Option ID := none
  revisionFeedbackID : Option ID := none
  consequenceConfirmation : List InvocationID := []
  customerFailure : Option Failure := none
  finished : Bool := false
  run : RunState := .pending

def Attempt.graph (a : Attempt) : CanonicalGraph := a.spec.graph

structure WorkItem where
  id : ID
  workflowKey : String
  startIdentityID : ID
  startIdempotencyKey : String
  startPayloadHash : String
  currentAttemptID : Option ID := none

/-! ### Executions -/

inductive NodeState
  | pending
  | running
  | blocked
  | succeeded
  | failed
  deriving DecidableEq

/-- Pending, running or blocked. -/
def NodeState.isActive : NodeState → Bool
  | .pending | .running | .blocked => true
  | .succeeded | .failed => false

structure ArtifactRef where
  artifactID : String
  role : String := ""
  metadata : RawMessage := .blank
  deriving DecidableEq

structure NodeExecution where
  id : ID
  attemptID : ID
  nodeKey : String
  visit : Nat
  executionSeq : Nat
  kind : String
  modelSnapshot : Option ModelSnapshot := none
  timeoutMS : Option Int := none
  state : NodeState := .pending
  completionOutcome : Option String := none
  completionSummary : Option String := none
  artifactRefs : List ArtifactRef := []
  reported : Bool := false
  finished : Bool := false

/-- A row of `runtime.graph_transitions`, unique by the execution it leaves. -/
structure Transition where
  attemptID : ID
  fromExecutionID : ID
  outcome : String
  toExecutionID : Option ID
  terminal : Bool

inductive TurnState
  | running
  | succeeded
  | failed
  | aborted
  deriving DecidableEq

/-- A row of `runtime.turns` that is bound to a node execution. Its session is its run's, and so its
run's id. -/
structure Turn where
  id : ID
  runID : ID
  nodeExecutionID : ID
  model : String
  state : TurnState := .running

inductive BlockerState
  | opened
  | resolved
  deriving DecidableEq

structure Blocker where
  id : ID
  workItemID : ID
  attemptID : ID
  nodeExecutionID : Option ID
  kind : String
  responseSchema : RawMessage := .blank
  allowedOutcomes : List String
  /-- The ids of `required_consequences`. -/
  requiredConsequences : List InvocationID := []
  state : BlockerState := .opened
  responseOutcome : Option String := none
  resolvedAt : Option Int := none

/-- The kind of a generated confirmation. -/
def consequenceConfirmation : String := "consequence_confirmation"

structure Feedback where
  id : ID
  workItemID : ID
  attemptID : ID
  category : String

structure ArtifactLink where
  artifactID : Uuid
  workItemID : ID
  attemptID : ID
  nodeExecutionID : Option ID
  role : String
  metadata : RawMessage := .blank

/-! ### Value -/

inductive ValueKind
  | completionCredit
  | feedbackDeduction
  deriving DecidableEq

/-- The CHECK constraint of `work.value_ledger`: a credit is positive, a deduction is negative and names
its feedback. -/
def ValueKind.allows (kind : ValueKind) (amount : Int) (feedbackID : Option ID) : Bool :=
  match kind with
  | .completionCredit => 0 < amount ∧ feedbackID.isNone
  | .feedbackDeduction => amount < 0 ∧ feedbackID.isSome

structure ValueEntry where
  workItemID : ID
  attemptID : ID
  feedbackID : Option ID
  kind : ValueKind
  amount : Int
  currency : String
  /-- `value_model_id` and `formula_snapshot`. -/
  model : ValueModel
  allowed : kind.allows amount feedbackID

/-! ### The database -/

/-- `work.timeline_events`, by code. -/
inductive Event
  | workItemCreated (workflowKey : String) (artifactRefs : List ArtifactRef)
  | attemptCreated (number : Nat)
  | nodeStarted (nodeKey : String) (visit : Nat)
  | workBlocked (nodeKey type : String)
  | consequenceConfirmationRequired (nodeKey : String) (consequences : List InvocationID)
  | consequenceRepetitionConfirmed (invocationIDs : List InvocationID)
  | blockerResolved (nodeKey outcome : String)
  | nodeCompleted (nodeKey : String) (visit : Nat) (outcome : String)
  | valueCredited (currency : String)
  | valueDeducted (currency : String)
  | workCompleted
  | workFailed (nodeKey : String)
  | transitionLimit
  | feedbackRecorded (category : String)
  | revisionRequested (feedbackID : ID) (number : Nat)

structure TimelineEvent where
  workItemID : ID
  attemptID : ID
  nodeExecutionID : Option ID
  event : Event

/-- The database. The timeline starts with its newest event. -/
structure State where
  items : Table WorkItem.id
  attempts : Table Attempt.id
  nodes : Table NodeExecution.id
  transitions : Table Transition.fromExecutionID
  turns : Table Turn.id
  blockers : Table Blocker.id
  feedback : Table Feedback.id
  value : List ValueEntry
  links : List ArtifactLink
  timeline : List TimelineEvent
  ledger : Gateway.Ledger

/-! ### Commands -/

/-- `StartInput`, past the checks of its presentation; `payloadHash` is the hash of it. -/
structure StartInput where
  actorIdentityID : ID
  workflowKey : String
  workflowVersion : String
  idempotencyKey : String
  payloadHash : String
  artifactRefs : List ArtifactRef := []

structure CompletionReport where
  outcome : String
  summary : String
  output : RawMessage := .blank
  artifactRefs : List ArtifactRef := []

structure BlockerResponseInput where
  blockerID : ID
  actorIdentityID : ID
  outcome : String
  response : RawMessage := .blank
  artifactRefs : List ArtifactRef := []
  confirmedInvocationIDs : List InvocationID := []

structure FeedbackInput where
  workItemID : ID
  attemptID : ID
  actorIdentityID : ID
  category : String
  correctedResult : RawMessage := .blank

structure RevisionInput where
  workItemID : ID
  actorIdentityID : ID
  feedbackID : ID
  actionableGuidance : String
  confirmedInvocationIDs : List InvocationID := []

/-- A graph that does not fit its executions. -/
inductive GraphError
  /-- A node is missing, or has changed its kind. -/
  | node (key : String)
  | outcome (outcome : String)
  | route (key outcome : String)
  | target (key : String)
  deriving DecidableEq

/-- How a command fails. -/
inductive Err
  | notFound
  | conflict (text : String)
  | invalidTransition (text : String)
  | invalidInput (text : String)
  | confirmation (text : String)
  | unauthorized
  | graph (err : GraphError)
  | constraint (name : String)
  | infrastructure (text : String)
  deriving DecidableEq

/-- What the environment decides at a step: failures, generated ids, the clock, and what other parts
of the database hold. -/
structure Input where
  fault : Gateway.Fault := .none
  itemID : ID := ""
  attemptID : ID := ""
  nodeID : ID := ""
  turnID : ID := ""
  blockerID : ID := ""
  feedbackID : ID := ""
  now : Int := 0
  /-- The definition that is resolved. -/
  definition : Option CanonicalSpec := none
  /-- The available models of the catalog, by reference. -/
  catalog : List (String × ModelSnapshot) := []
  /-- The latest value models, by reference. -/
  valueModels : List (String × ValueModel) := []
  available : List Uuid := []
  /-- The available artifacts that a workflow published. -/
  published : List Uuid := []

end Iterabase.Work
