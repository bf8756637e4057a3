/-
**Durable dispatch — the store transactions.**

Each function is one transaction of `dispatch/store.go`, `runtime/store.go` or `work/graph.go`: what
it returns and the database after it commits. What fails for a reason outside the database is the
action that runs it (`Service`).

* `resolveActiveAssignment`, `createAssignment`, `fenceWhere` (with `fenceWorkerGeneration` and
  `fenceWorkerGenerationIf`), `terminalizeAssignment` — the assignment row's life.
* `appendTurnEvent`, `appendAfterTerminalEvent` — the two ways a worker's observation is committed.
-/

import Iterabase.Dispatch.Types

namespace Iterabase.Dispatch

open Conc

namespace State

variable (s : State)

def observe (o : Obs) : State := { s with trace := o :: s.trace }

/-! ### Assignments -/

def maxFencingGeneration : Nat :=
  s.assignments.rows.foldr (fun a highest => max a.fencingGeneration highest) 0

def resolveActiveAssignment (turnID : TurnID) : Except Err Assignment :=
  match s.assignments.find turnID with
  | some a => if a.state = .active then .ok a else .error .assignmentNotActive
  | none => .error .assignmentNotActive

/-- `PriorAssignmentForWorker`: rows are inserted in front, so the first one is the latest. -/
def priorAssignmentForWorker (poolID : PoolID) (workerID : WorkerID) :
    Except Err Assignment :=
  match s.assignments.rows.find? fun a => a.poolID = poolID ∧ a.workerID = workerID with
  | some a => .ok a
  | none => .error .notFound

/-- `CreateAssignment`. The session's identity checks are the environment's (`refused`). -/
def createAssignment (a : Assignment) (refused : Option Err) :
    Except Err Unit × State :=
  match refused with
  | some err => (.error err, s)
  | none =>
      match s.assignments.insert a with
      | none => (.error .alreadyAssigned, s)
      | some rows => (.ok (), { s with assignments := rows }.observe (.assigned a))

/-- Fence every row `p` selects. `UPDATE … RETURNING` read as one row gives any of them. -/
def fenceWhere (p : Assignment → Bool) (pick : Nat) : Except Err Assignment × State :=
  let hit := s.assignments.rows.filter p
  match hit[pick % hit.length]? with
  | none => (.error .notFound, s)
  | some a => (.ok { a with state := .fenced },
      { s with assignments := s.assignments.update p (fun r => { r with state := .fenced })
                                fun _ => rfl })

def activeFor (poolID : PoolID) (workerID : WorkerID) (a : Assignment) : Bool :=
  a.poolID = poolID ∧ a.workerID = workerID ∧ a.state = .active

def fenceWorkerGeneration (poolID : PoolID) (workerID : WorkerID) (pick : Nat) :
    Except Err Assignment × State :=
  s.fenceWhere (activeFor poolID workerID) pick

def activeForGen (poolID : PoolID) (workerID : WorkerID) (gen : Nat) (a : Assignment) : Bool :=
  a.poolID = poolID ∧ a.workerID = workerID ∧ a.state = .active ∧ a.fencingGeneration = gen

def fenceWorkerGenerationIf (poolID : PoolID) (workerID : WorkerID) (gen : Nat)
    (pick : Nat) : Except Err Assignment × State :=
  s.fenceWhere (activeForGen poolID workerID gen) pick

/-- `TerminalizeAssignment`: a row that is already terminal stays as it is. -/
def terminalizeAssignment (turnID : TurnID) : State :=
  { s with assignments := s.assignments.update (fun a => a.turnID = turnID)
                            (fun a => { a with state := .terminal }) fun _ => rfl }

/-! ### Observations -/

def nextSeq (runID : RunID) : Nat :=
  (s.events.filter fun e => e.runID = runID).foldr (fun e highest => max e.seq highest) 0 + 1

def appendEvent (runID : RunID) (turnID : Option TurnID) (kind : RuntimeEvent)
    (payload : Option TurnEventKind) : State :=
  { s with events := ⟨runID, turnID, s.nextSeq runID, kind, payload⟩ :: s.events }

/-- Append the audit event of a locked row and advance its watermark. -/
def advanceWatermark (a : Assignment) (te : TurnEvent) (kind : RuntimeEvent) : State :=
  let s := s.appendEvent a.runID (some te.turnID) kind (some te.kind)
  { s with assignments := s.assignments.update (fun r => r.turnID = te.turnID)
                            (fun r => { r with highestAppliedSequence := te.sequence })
                            fun _ => rfl }

/-- The common tail of the two appends on the locked row `a`: a sequence at or below the watermark
is a replay, one past it is applied and traced as `o`, anything else is a gap. -/
def applySequence (a : Assignment) (te : TurnEvent) (kind : RuntimeEvent) (o : Obs) :
    Except Err Bool × State :=
  if te.sequence ≤ a.highestAppliedSequence then (.ok false, s)
  else if te.sequence ≠ a.highestAppliedSequence + 1 then (.error .outOfOrderSequence, s)
  else (.ok true, (s.advanceWatermark a te kind).observe o)

def appendTurnEvent (w : ConnRef) (te : TurnEvent) (kind : RuntimeEvent) :
    Except Err Bool × State :=
  match s.resolveActiveAssignment te.turnID with
  | .error err => (.error err, s)
  | .ok a => s.applySequence a te kind (.appended w te)

/-- `AppendAfterTerminalEvent`: the row may be in any state but must belong to the stream's
worker. -/
def appendAfterTerminalEvent (w : ConnRef) (te : TurnEvent) (kind : RuntimeEvent) :
    Except Err Bool × State :=
  match s.assignments.find te.turnID with
  | none => (.error .notFound, s.observe (.unowned w te))
  | some a =>
      if a.poolID = w.poolID ∧ a.workerID = w.workerID then
        s.applySequence a te kind (.audited w te)
      else (.error .notFound, s.observe (.unowned w te))

/-! ### Projections -/

def isGraphAttempt (runID : RunID) : Bool := runID ∈ s.attempts

def nodeOf (turnID : TurnID) : Option NodeExecution := do
  let turn ← s.turns.find turnID
  let nodeID ← turn.nodeExecutionID
  let node ← s.nodes.find nodeID
  if node.attemptID ∈ s.attempts then some node else none

/-- The checks of one artifact reference of a report. An empty role means `output`. -/
def artifactRefAllowed (ref : ArtifactRef) : Bool :=
  ref.artifactID ≠ "" ∧ (ref.role = "" ∨ ref.role = "output" ∨ ref.role = "evidence") ∧
    ref.metadataValid

/-- `RecordCompletionReport`, before its trace. -/
def recordReport (turnID : TurnID) (report : CompletionReport) (input : Input) :
    Except Err Unit × State :=
  if report.outcome = "" ∨ report.summary = "" then (.error .invalidInput, s)
  else
    match s.nodeOf turnID with
    | none => (.error .notFound, s)
    | some node =>
        if node.state ≠ .running then (.error .invalidTransition, s)
        else if !node.agentTask then (.error .invalidTransition, s)
        else if report.outcome ∉ node.outcomes then (.error .invalidInput, s)
        else if !input.outputValid then (.error .invalidInput, s)
        else if !(report.artifactRefs.all artifactRefAllowed && input.artifactsAuthorized) then
          (.error .invalidInput, s)
        else if node.completionReported then (.error .conflict, s)
        else (.ok (), { s with
          nodes := s.nodes.update (fun n => n.id = node.id)
            (fun n => { n with completionOutcome := some report.outcome,
                               completionSummary := some report.summary,
                               completionReported := true }) fun _ => rfl }.observe
            (.reported turnID))

/-- `RecordCompletionReport`. Every answer it gives without an infrastructure failure is final, so
the event counts as projected. -/
def recordCompletionReport (te : TurnEvent) (report : CompletionReport)
    (input : Input) : Except Err Unit × State :=
  let (answer, s) := s.recordReport te.turnID report input
  (answer, if input.fail then s else s.observe (.projected te))

def turnStateForReason : Reason → TurnState
  | .completed => .succeeded
  | .failed => .failed
  | .aborted => .aborted

def settleTurn (turnID : TurnID) (target : TurnState) (reason : Reason) : State :=
  { s with turns := s.turns.update (fun t => t.id = turnID) (fun t => { t with state := target })
                      fun _ => rfl }.observe (.settled turnID reason)

def setRun (runID : RunID) (allowed : RunState → Bool) (target : RunState) : State :=
  { s with runs := s.runs.update (fun r => r.id = runID ∧ allowed r.state)
                     (fun r => { r with state := target }) fun _ => rfl }

def setStep (stepID : StepID) (expected target : StepState) : State :=
  { s with steps := s.steps.update (fun st => st.id = stepID ∧ st.state = expected)
                      (fun st => { st with state := target }) fun _ => rfl }

def setNode (nodeID : NodeID) (target : NodeState) : State :=
  { s with nodes := s.nodes.update (fun n => n.id = nodeID) (fun n => { n with state := target })
                      fun _ => rfl }

/-- The run's pending step of the lowest `seq`. -/
def nextPendingStep (runID : RunID) : Option Step :=
  (s.steps.rows.filter fun st => st.runID = runID ∧ st.state = .pending).foldr
    (fun st best => match best with
      | none => some st
      | some b => if b.seq < st.seq then some b else some st) none

def advanceRunAfterSettle (runID : RunID) : Reason → RunState × State
  | .aborted =>
      (.aborted, (s.setRun runID (fun r => r = .running ∨ r = .awaitingApproval)
        .aborted).appendEvent runID none .runAborted none)
  | .failed =>
      (.failed, (s.setRun runID (fun r => r = .running ∨ r = .awaitingApproval)
        .failed).appendEvent runID none .runFailed none)
  | .completed =>
      match s.nextPendingStep runID with
      | none => (.succeeded, (s.setRun runID (fun r => r = .running) .succeeded).appendEvent runID
          none .runSucceeded none)
      | some st => (.running, (s.setStep st.id .pending .running).appendEvent runID none
          .stepStarted none)

def settleStep (turn : Turn) (reason : Reason) : State :=
  match turn.stepID with
  | none => s
  | some stepID =>
      if stepID = "" then s
      else if reason = .completed then
        (s.setStep stepID .running .succeeded).appendEvent turn.runID none .stepSucceeded none
      else (s.setStep stepID .running .failed).appendEvent turn.runID none .stepFailed none

def settleTurnAndAdvance (turnID : TurnID) (reason : Reason) :
    Except Err RunState × State :=
  match s.turns.find turnID with
  | none => (.error .notFound, s)
  | some turn =>
      if turn.state ≠ .running then (.error .invalidTransition, s)
      else
        let s := (s.settleTurn turnID (turnStateForReason reason) reason).appendEvent turn.runID
          (some turnID) .settled none
        let (runState, s) := (s.settleStep turn reason).advanceRunAfterSettle turn.runID reason
        (.ok runState, s)

/-- `work.CompleteTurn`. Where the node has a report and the worker completed, the graph advances as
the environment says (`advance`), and an error of that rolls the transaction back. -/
def completeTurn (turnID : TurnID) (reason : Reason) (advance : Option RunState) :
    Except Err RunState × State :=
  match s.turns.find turnID, s.nodeOf turnID with
  | some turn, some node =>
      if turn.state ≠ .running then (.error .invalidTransition, s)
      else if reason ≠ .completed ∨ node.completionOutcome = none ∨ !node.completionReported then
        let (target, runTarget) : TurnState × RunState :=
          if reason = .aborted then (.aborted, .aborted) else (.failed, .failed)
        (.ok runTarget, ((s.settleTurn turnID target reason).setNode node.id .failed).setRun turn.runID
          (fun _ => true) runTarget)
      else
        match advance with
        | none => (.error .infrastructure, s)
        | some runState =>
            (.ok runState, ((s.settleTurn turnID .succeeded reason).setNode node.id
              .succeeded).setRun turn.runID (fun _ => true) runState)
  | _, _ => (.error .notFound, s)

def settle (isGraph : Bool) (turnID : TurnID) (reason : Reason)
    (advance : Option RunState) : Except Err RunState × State :=
  if isGraph then s.completeTurn turnID reason advance else s.settleTurnAndAdvance turnID reason

/-! ### Pools -/

/-- `ResolvePoolBySpiffePrefix`: the longest registered prefix of the worker's SPIFFE id. -/
def resolvePoolBySpiffePrefix (spiffeID : String) : Except Err Pool :=
  let hit := s.pools.filter fun p => p.spiffeIDPrefix.toList.isPrefixOf spiffeID.toList
  match hit.foldr (fun p best => match best with
      | none => some p
      | some b => if p.spiffeIDPrefix.length < b.spiffeIDPrefix.length then some b else some p)
      none with
  | some p => .ok p
  | none => .error .notFound

def poolForRun (runID : RunID) : Except Err PoolID :=
  match (s.runs.find runID).bind Run.poolID with
  | none => .error .notFound
  | some poolID =>
      match s.capacities.find poolID with
      | some c => if c.storageAuthorized then .ok poolID else .error .poolStorageUnauthorized
      | none => .error .poolStorageUnauthorized

/-- `ObserveWorkspaceCapacity`: one pool's 20–25 percent hysteresis. -/
def observeWorkspaceCapacity (poolID : PoolID) (ratio : Rat) :
    WorkspaceCapacityState × State :=
  match s.capacities.find poolID with
  | none =>
      let fresh : WorkspaceCapacityState := ⟨poolID, ratio < 1 / 4, false⟩
      (fresh, match s.capacities.insert fresh with
        | some rows => { s with capacities := rows }
        | none => s)
  | some c =>
      let gated := if ratio ≤ 1 / 5 then true else if 1 / 4 ≤ ratio then false else c.creditGated
      ({ c with creditGated := gated }, { s with
        capacities := s.capacities.update (fun r => r.poolID = poolID)
          (fun r => { r with creditGated := gated }) fun _ => rfl })

end State

end Iterabase.Dispatch
