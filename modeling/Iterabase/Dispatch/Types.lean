/-
**Durable dispatch — the data.**

The rows dispatch reads and writes in Postgres, the messages of the Work stream, the live worker
connections, and the state all of them make up.

* `Assignment`, `Turn`, `Run`, `Step`, `NodeExecution` — rows of `runtime.*` with the columns the
  dispatch path reads.
* `TurnEvent`, `WorkerMessage`, `ControlMessage` — the Work stream.
-/

import Iterabase.Conc.Logic
import Iterabase.Conc.Table
import Mathlib

namespace Iterabase.Dispatch

open Conc

abbrev TurnID := String
abbrev RunID := String
abbrev PoolID := String
abbrev WorkerID := String
abbrev NodeID := String
abbrev StepID := String

/-! ### Rows -/

inductive AssignmentState
  | active
  | fenced
  | terminal
  deriving DecidableEq

/-- A row of `runtime.turn_assignments`; `turn_id` is its primary key. -/
structure Assignment where
  turnID : TurnID
  runID : RunID
  poolID : PoolID
  workerID : WorkerID
  fencingGeneration : Nat
  state : AssignmentState
  highestAppliedSequence : Nat
  deriving DecidableEq

inductive TurnState
  | running
  | succeeded
  | failed
  | aborted
  deriving DecidableEq

/-- A row of `runtime.turns`. A turn of a graph attempt names its node execution, any other turn may
name a step. -/
structure Turn where
  id : TurnID
  runID : RunID
  stepID : Option StepID := none
  nodeExecutionID : Option NodeID := none
  state : TurnState := .running

inductive RunState
  | pending
  | running
  | awaitingApproval
  | succeeded
  | failed
  | aborted
  deriving DecidableEq

def RunState.isTerminal : RunState → Bool
  | .succeeded | .failed | .aborted => true
  | _ => false

/-- A row of `runtime.workflow_runs`, with its pool from `runtime.run_pool_assignments`. -/
structure Run where
  id : RunID
  state : RunState := .running
  poolID : Option PoolID := none

inductive StepState
  | pending
  | running
  | succeeded
  | failed
  deriving DecidableEq

structure Step where
  id : StepID
  runID : RunID
  seq : Nat
  state : StepState

inductive NodeState
  | pending
  | running
  | blocked
  | succeeded
  | failed
  deriving DecidableEq

/-- A row of `runtime.node_executions`, with what the attempt's graph snapshot says of its node:
whether it is an agent task, and the outcomes it declares. -/
structure NodeExecution where
  id : NodeID
  attemptID : RunID
  state : NodeState := .running
  agentTask : Bool := true
  outcomes : List String := []
  completionOutcome : Option String := none
  completionSummary : Option String := none
  completionReported : Bool := false

structure WorkspaceCapacityState where
  poolID : PoolID
  creditGated : Bool
  storageAuthorized : Bool

def WorkspaceCapacityState.freshCreditGated (c : WorkspaceCapacityState) : Bool :=
  c.creditGated || !c.storageAuthorized

structure Pool where
  id : PoolID
  spiffeIDPrefix : String
  deriving DecidableEq

/-! ### The Work stream -/

/-- `v1.Outcome`; `unspecified` stands for every other value on the wire. -/
inductive Outcome
  | completed
  | failed
  | aborted
  | unspecified
  deriving DecidableEq

structure ArtifactRef where
  artifactID : String
  role : String
  metadataValid : Bool := true
  deriving DecidableEq

/-- `work.CompletionReport`. The output document is left to the environment, which says whether it
matches the node's schema. -/
structure CompletionReport where
  outcome : String
  summary : String
  artifactRefs : List ArtifactRef := []
  deriving DecidableEq

/-- The kinds of a `v1.TurnEvent`. `unknown` is an event with no kind this control plane knows. -/
inductive TurnEventKind
  | executionStarted
  | modelCallStarted
  | assistantMessage
  | modelCallFailed
  | modelRetryScheduled
  | modelRetryFinished
  | toolCallStarted
  | toolResult
  | compactionStarted
  | compactionFinished
  | harnessError
  | workerOutcome (outcome : Outcome)
  | stepCompletion (report : CompletionReport)
  | unknown
  deriving DecidableEq

structure TurnEvent where
  turnID : TurnID
  sequence : Nat
  kind : TurnEventKind
  deriving DecidableEq

/-- `v1.WorkspaceStatus`, its ratio an exact rational. -/
structure WorkspaceStatus where
  freeBytes : Nat
  capacityBytes : Nat
  freeRatio : Rat
  warning : Bool
  creditGated : Bool
  deriving DecidableEq

/-- Worker to control plane, after the Hello. -/
inductive WorkerMessage
  | ready
  | workspaceStatus (status : WorkspaceStatus)
  | heartbeat
  | turnEvent (event : TurnEvent)
  | tokenDelta
  deriving DecidableEq

inductive ControlMessage
  | welcome (fencingGeneration : Nat)
  | assignTurn (turnID : TurnID)
  | abortTurn (turnID : TurnID)
  | eventAck (turnID : TurnID) (throughSequence : Nat)
  | sessionEnd (runID : RunID)
  deriving DecidableEq

inductive RuntimeEvent
  | turnStarted
  | modelCallStarted
  | assistantMessage
  | modelCallFailed
  | modelRetryScheduled
  | modelRetryFinished
  | toolCallStarted
  | toolResult
  | stepCompletionReported
  | compactionStarted
  | compactionFinished
  | error
  | settled
  | stepStarted
  | stepSucceeded
  | stepFailed
  | runSucceeded
  | runFailed
  | runAborted

/-- A row of `runtime.events`. A streamed observation carries the worker's event as its payload. -/
structure EventRow where
  runID : RunID
  turnID : Option TurnID
  seq : Nat
  kind : RuntimeEvent
  payload : Option TurnEventKind

/-! ### Connections -/

/-- The fields of a `workerConn` that never change. `id` is the pointer: it tells two connections
apart even where a restarted process gives out a generation a second time. -/
structure ConnRef where
  id : Nat
  poolID : PoolID
  workerID : WorkerID
  gen : Nat
  deriving DecidableEq

/-- Where a connection's Work handler is: in its receive loop's `select`, or running some thread's
code, or gone. -/
inductive Loop
  | waiting
  | held (thread : Nat)
  | returned
  deriving DecidableEq

/-- `workerConn`. `registered` says that the pool's map holds this connection under its key, and
`inbox` holds what the worker has put on the stream and the loop has not yet taken. No code reads
`reservedBy`, the dispatcher that consumed the credit last. -/
structure WorkerConn where
  ref : ConnRef
  closed : Bool := false
  idle : Bool := false
  creditAdvertised : Bool := false
  activeTurn : TurnID := ""
  reservedBy : Option Nat := none
  workspaceObserved : Bool := false
  workspaceGated : Bool := true
  registered : Bool := false
  loop : Loop
  inbox : List WorkerMessage := []
  deriving DecidableEq

def WorkerConn.id (c : WorkerConn) : Nat := c.ref.id

/-! ### The trace -/

inductive Reason
  | completed
  | failed
  | aborted
  deriving DecidableEq

/-- What an observer of the streams and of the committed transactions sees. No code reads it. -/
inductive Obs
  | worker (w : ConnRef) (msg : WorkerMessage)
  | taken (w : ConnRef) (msg : WorkerMessage)
  /-- The service entered `stream.Send` with a message; an EventAck sent from `handleTurnEvent`
  carries the event it answers. -/
  | sent (w : ConnRef) (msg : ControlMessage) (answers : Option TurnEvent)
  | appended (w : ConnRef) (te : TurnEvent)
  | audited (w : ConnRef) (te : TurnEvent)
  /-- `AppendAfterTerminalEvent` found no row of the event's turn owned by the worker of `w`. -/
  | unowned (w : ConnRef) (te : TurnEvent)
  /-- `RecordCompletionReport` returned nil or a permanent error for the event. -/
  | projected (te : TurnEvent)
  | reported (turnID : TurnID)
  | settled (turnID : TurnID) (reason : Reason)
  | assigned (a : Assignment)
  /-- The dispatcher consumed the credit of `w`, as the connection was, for the turn. -/
  | picked (w : ConnRef) (turnID : TurnID) (dispatcher : Nat) (before : Option WorkerConn)
  /-- `releaseAssignmentFailure` of the turn met the connection `w` as it was. -/
  | restored (w : ConnRef) (turnID : TurnID) (deliveryAttempted : Bool) (before : Option WorkerConn)
  /-- The row of the turn was made for the connection `w`, whose credit `dispatcher` consumed last. -/
  | holds (w : ConnRef) (turnID : TurnID) (dispatcher : Option Nat)
  /-- `finishTurnOutcome` of `a` released the connection `w`, which was reserved for the turn. -/
  | released (w : ConnRef) (a : Assignment) (turnID : TurnID)
  /-- The reconnect fence of `w` ran. -/
  | fencedFor (w : ConnRef)
  /-- `grantCreditIfIdle` answered a Ready of `w`. -/
  | readyAnswered (w : ConnRef) (valid : Bool)
  deriving DecidableEq

/-! ### The state -/

structure State where
  assignments : Table Assignment.turnID := .empty
  turns : Table Turn.id := .empty
  runs : Table Run.id := .empty
  steps : Table Step.id := .empty
  /-- `work.attempts`: the runs that are graph attempts. -/
  attempts : List RunID := []
  nodes : Table NodeExecution.id := .empty
  pools : List Pool := []
  capacities : Table WorkspaceCapacityState.poolID := .empty
  events : List EventRow := []
  gen : Nat := 0
  conns : Table WorkerConn.id := .empty
  workspaceGated : List (PoolID × Bool) := []
  nextConn : Nat := 0
  trace : List Obs := []

/-- Sentinel errors of the dispatch, runtime and work stores, and of a connection. Every other
error is `infrastructure`. -/
inductive Err
  | infrastructure
  | notFound
  | poolStorageUnauthorized
  | alreadyAssigned
  | assignmentNotActive
  | sessionUIDUnavailable
  | sessionIdentityMismatch
  | outOfOrderSequence
  | conflict
  | invalidTransition
  | invalidInput
  | connClosed
  deriving DecidableEq

/-- What the environment decides at an action. -/
structure Input where
  /-- The store call or the stream's `Send` fails. -/
  fail : Bool := false
  /-- A store call that fails has committed: only its answer is lost. -/
  lost : Bool := false
  /-- Which of several candidates Go's map iteration, or Postgres, meets first. -/
  pick : Nat := 0
  /-- What `advanceGraphTx` returns: the run's state, or an error. -/
  advance : Option RunState := some .running
  outputValid : Bool := true
  /-- The report's artifacts are outputs this node published. -/
  artifactsAuthorized : Bool := true
  /-- Why `CreateAssignment` refuses the session, if it does. -/
  session : Option Err := none
  /-- The turn the run is to be driven by, and its node. -/
  turn : Turn := { id := "", runID := "" }
  node : Option NodeExecution := none

end Iterabase.Dispatch
