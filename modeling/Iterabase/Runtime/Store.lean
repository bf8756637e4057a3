/-
**The runtime store — runs, steps, turns, and the event log.**

`runtime/store.go`. Every transition changes rows and appends its event in one transaction.

* `Run`, `Step`, `Turn`, `Event`, `State` — the tables. Of a timestamp no operation reads anything.
* `transitionRun`, `transitionStep` — a checked transition of one row, with its event; `startRun`,
  `succeedStep` and the others are its members.
* `startTurn`, `settleTurn`, `settleTurnAndAdvance` — the turns. The last one does not look at how many
  rows its later updates match.
* `listEvents` — the log of a run in the order of its numbers.
* `Op`, `next` — one operation of the store as a move.
-/

import Iterabase.Conc.Run
import Iterabase.Conc.Table
import Iterabase.Conc.Transaction
import Mathlib

namespace Iterabase.Runtime

open Conc Tx

abbrev RunID := String
abbrev StepID := String
abbrev TurnID := String
abbrev SessionID := String

/-! ### Rows -/

inductive RunState
  | pending
  | running
  | awaitingApproval
  | succeeded
  | failed
  | aborted
  deriving DecidableEq

inductive StepState
  | pending
  | running
  | succeeded
  | failed
  | skipped
  deriving DecidableEq

inductive TurnState
  | pending
  | running
  | succeeded
  | failed
  | aborted
  deriving DecidableEq

structure Run where
  id : RunID
  sessionID : SessionID
  state : RunState := .pending

structure Step where
  id : StepID
  runID : RunID
  seq : Nat
  state : StepState := .pending

structure Turn where
  id : TurnID
  runID : RunID
  stepID : Option StepID
  sessionID : SessionID
  model : Option String
  state : TurnState := .pending

inductive Reason
  | completed
  | failed
  | aborted
  deriving DecidableEq

/-- The kinds of `events`. A kind that a worker streams changes no state. -/
inductive EventKind
  | turnStarted
  | settled
  | stepStarted
  | stepSucceeded
  | stepFailed
  | stepSkipped
  | runStarted
  | runSucceeded
  | runFailed
  | runAborted
  | runAwaitingApproval
  | runResumed
  | streamed (kind : String)

inductive Payload
  | empty
  | model (name : String)
  | settled (reason : Reason) (messageCount : Nat)

structure Event where
  runID : RunID
  turnID : Option TurnID
  stepID : Option StepID
  seq : Nat
  kind : EventKind
  payload : Payload

structure State where
  runs : Table Run.id := .empty
  steps : Table Step.id := .empty
  turns : Table Turn.id := .empty
  events : List Event := []

/-- How an operation fails. A violated constraint is an error with no sentinel. -/
inductive Err
  | notFound
  | invalidRunTransition (state : RunState)
  | invalidStepTransition (state : StepState)
  | invalidTurnTransition (state : TurnState)
  | constraint (name : String)
  deriving DecidableEq

abbrev StoreTx := Tx Err State

namespace State

variable (s : State)

/-! ### The log -/

def eventsOf (runID : RunID) : List Event := s.events.filter fun e => e.runID = runID

def nextSeq (runID : RunID) : Nat :=
  (s.eventsOf runID).foldr (fun e highest => max e.seq highest) 0 + 1

def appendEventTx (runID : RunID) (turnID : Option TurnID) (stepID : Option StepID)
    (kind : EventKind) (payload : Payload) : State :=
  { s with events := ⟨runID, turnID, stepID, s.nextSeq runID, kind, payload⟩ :: s.events }

def listEvents (runID : RunID) : List Event :=
  (s.eventsOf runID).reverse.insertionSort fun e e' => e.seq ≤ e'.seq

/-! ### Updates -/

def setRun (id : RunID) (allowed : List RunState) (target : RunState) : State :=
  { s with
    runs := s.runs.update (fun r => r.id = id ∧ r.state ∈ allowed)
      (fun r => { r with state := target }) fun _ => rfl }

def setStep (id : StepID) (allowed : List StepState) (target : StepState) : State :=
  { s with
    steps := s.steps.update (fun st => st.id = id ∧ st.state ∈ allowed)
      (fun st => { st with state := target }) fun _ => rfl }

def setTurn (id : TurnID) (target : TurnState) : State :=
  { s with
    turns := s.turns.update (fun t => t.id = id ∧ t.state = .running)
      (fun t => { t with state := target }) fun _ => rfl }

/-- `idx_run_steps_one_running`: a run has another running step. -/
def otherRunning (st : Step) : Bool :=
  s.steps.rows.any fun other => other.id ≠ st.id ∧ other.runID = st.runID ∧ other.state = .running

/-- `idx_turns_one_active_per_session`: a session has an active turn. -/
def sessionBusy (sessionID : SessionID) : Bool :=
  s.turns.rows.any fun t => t.sessionID = sessionID ∧ (t.state = .pending ∨ t.state = .running)

/-- `NextPendingStep`: the pending step of the lowest number. -/
def nextPendingStep (runID : RunID) : Option Step :=
  ((s.steps.rows.filter fun st => st.runID = runID ∧ st.state = .pending).insertionSort
    fun st st' => st.seq ≤ st'.seq).head?

end State

open State

/-! ### Runs -/

/-- A step of the plan of a new run, with the id the database gives it. -/
structure StepInput where
  id : StepID
  seq : Nat

def insertStep (runID : RunID) (step : StepInput) : StoreTx Unit :=
  attempt fun s =>
    if s.steps.rows.any fun st => st.runID = runID ∧ st.seq = step.seq then
      .error (.constraint "run_steps_run_id_seq_key")
    else
      match s.steps.insert ⟨step.id, runID, step.seq, .pending⟩ with
      | none => .error (.constraint "run_steps_pkey")
      | some steps => .ok { s with steps := steps }

/-- `CreateRun`, with the id the database gives the run. -/
def createRun (id : RunID) (sessionID : SessionID) (steps : List StepInput) : StoreTx Run := do
  let run : Run := ⟨id, sessionID, .pending⟩
  attempt fun s =>
    match s.runs.insert run with
    | none => .error (.constraint "workflow_runs_pkey")
    | some runs => .ok { s with runs := runs }
  steps.forM (insertStep id)
  return run

def transitionRun (id : RunID) (allowed : List RunState) (target : RunState) (kind : EventKind) :
    StoreTx Run := do
  let run ← need (fun s => s.runs.find id) .notFound
  refuse (run.state ∉ allowed) (.invalidRunTransition run.state)
  write fun s => (s.setRun id allowed target).appendEventTx run.id none none kind .empty
  return { run with state := target }

def startRun (id : RunID) : StoreTx Run := transitionRun id [.pending] .running .runStarted

def succeedRun (id : RunID) : StoreTx Run := transitionRun id [.running] .succeeded .runSucceeded

def failRun (id : RunID) : StoreTx Run :=
  transitionRun id [.running, .awaitingApproval] .failed .runFailed

def abortRun (id : RunID) : StoreTx Run :=
  transitionRun id [.running, .awaitingApproval] .aborted .runAborted

def awaitApproval (id : RunID) : StoreTx Run :=
  transitionRun id [.running] .awaitingApproval .runAwaitingApproval

def resumeFromApproval (id : RunID) : StoreTx Run :=
  transitionRun id [.awaitingApproval] .running .runResumed

/-! ### Steps -/

def transitionStep (id : StepID) (allowed : List StepState) (target : StepState) (kind : EventKind) :
    StoreTx Step := do
  let st ← need (fun s => s.steps.find id) .notFound
  refuse (st.state ∉ allowed) (.invalidStepTransition st.state)
  let busy ← read fun s => s.otherRunning st
  refuse (target = .running ∧ busy) (.constraint "idx_run_steps_one_running")
  write fun s => (s.setStep id allowed target).appendEventTx st.runID none (some st.id) kind .empty
  return { st with state := target }

def startStep (id : StepID) : StoreTx Step := transitionStep id [.pending] .running .stepStarted

def succeedStep (id : StepID) : StoreTx Step := transitionStep id [.running] .succeeded .stepSucceeded

def failStep (id : StepID) : StoreTx Step := transitionStep id [.running] .failed .stepFailed

def skipStep (id : StepID) : StoreTx Step := transitionStep id [.pending] .skipped .stepSkipped

/-! ### Turns -/

def nullable (s : String) : Option String := if s = "" then none else some s

def startTurn (id : TurnID) (runID : RunID) (stepID model : String) : StoreTx Turn := do
  let run ← need (fun s => s.runs.find runID) .notFound
  let turn : Turn := ⟨id, runID, nullable stepID, run.sessionID, nullable model, .running⟩
  attempt fun s =>
    if (turn.stepID.any fun stepID => (s.steps.find stepID).isNone) then
      .error (.constraint "turns_step_id_fkey")
    else if s.sessionBusy run.sessionID then .error (.constraint "idx_turns_one_active_per_session")
    else
      match s.turns.insert turn with
      | none => .error (.constraint "turns_pkey")
      | some turns => .ok { s with turns := turns }
  write fun s => s.appendEventTx runID (some id) (nullable stepID) .turnStarted (.model model)
  return turn

def turnStateForReason : Reason → TurnState
  | .completed => .succeeded
  | .failed => .failed
  | .aborted => .aborted

/-- The running turn becomes what its reason says, with its `settled` event. -/
def settle (id : TurnID) (reason : Reason) (messageCount : Nat) : StoreTx Turn := do
  let turn ← need (fun s => s.turns.find id) .notFound
  refuse (turn.state ≠ .running) (.invalidTurnTransition turn.state)
  write fun s => (s.setTurn id (turnStateForReason reason)).appendEventTx turn.runID (some turn.id)
    turn.stepID .settled (.settled reason messageCount)
  return { turn with state := turnStateForReason reason }

def settleTurn (id : TurnID) (reason : Reason) (messageCount : Nat) : StoreTx Turn :=
  settle id reason messageCount

/-- The step transition of `SettleTurnAndAdvance`: the event is appended whether or not the update
matched a row. -/
def State.settleStep (s : State) (runID : RunID) (stepID : StepID) (reason : Reason) : State :=
  let (target, kind) : StepState × EventKind :=
    if reason = .completed then (.succeeded, .stepSucceeded) else (.failed, .stepFailed)
  (s.setStep stepID [.running] target).appendEventTx runID none (some stepID) kind .empty

def State.endRun (s : State) (runID : RunID) (target : RunState) (kind : EventKind) : State :=
  (s.setRun runID [.running, .awaitingApproval] target).appendEventTx runID none none kind .empty

def advanceRunAfterSettle (runID : RunID) : Reason → StoreTx RunState
  | .aborted => do
      write fun s => s.endRun runID .aborted .runAborted
      return .aborted
  | .failed => do
      write fun s => s.endRun runID .failed .runFailed
      return .failed
  | .completed => do
      match ← read fun s => s.nextPendingStep runID with
      | none =>
          write fun s =>
            (s.setRun runID [.running] .succeeded).appendEventTx runID none none .runSucceeded .empty
          return .succeeded
      | some st =>
          let busy ← read fun s => s.otherRunning st
          refuse busy (.constraint "idx_run_steps_one_running")
          write fun s =>
            (s.setStep st.id [.pending] .running).appendEventTx runID none (some st.id) .stepStarted .empty
          return .running

def settleTurnAndAdvance (id : TurnID) (reason : Reason) : StoreTx RunState := do
  let turn ← settle id reason 0
  write fun s =>
    match turn.stepID with
    | none => s
    | some stepID => if stepID = "" then s else s.settleStep turn.runID stepID reason
  advanceRunAfterSettle turn.runID reason

/-! ### Streamed events -/

def appendEvent (runID : RunID) (turnID stepID : String) (kind : String) : StoreTx Unit := do
  let _ ← need (fun s => s.runs.find runID) (.constraint "events_run_id_fkey")
  write fun s => s.appendEventTx runID (nullable turnID) (nullable stepID) (.streamed kind) .empty

/-! ### Moves -/

inductive Op
  | createRun (id : RunID) (sessionID : SessionID) (steps : List StepInput)
  | startRun (id : RunID)
  | succeedRun (id : RunID)
  | failRun (id : RunID)
  | abortRun (id : RunID)
  | awaitApproval (id : RunID)
  | resumeFromApproval (id : RunID)
  | startStep (id : StepID)
  | succeedStep (id : StepID)
  | failStep (id : StepID)
  | skipStep (id : StepID)
  | startTurn (id : TurnID) (runID : RunID) (stepID model : String)
  | settleTurn (id : TurnID) (reason : Reason) (messageCount : Nat)
  | settleTurnAndAdvance (id : TurnID) (reason : Reason)
  | appendEvent (runID : RunID) (turnID stepID kind : String)

/-- The database after an operation; a failed one is rolled back. -/
def State.perform (s : State) : Op → State
  | .createRun id sessionID steps => ((createRun id sessionID steps).commit s).2
  | .startRun id => ((startRun id).commit s).2
  | .succeedRun id => ((succeedRun id).commit s).2
  | .failRun id => ((failRun id).commit s).2
  | .abortRun id => ((abortRun id).commit s).2
  | .awaitApproval id => ((awaitApproval id).commit s).2
  | .resumeFromApproval id => ((resumeFromApproval id).commit s).2
  | .startStep id => ((startStep id).commit s).2
  | .succeedStep id => ((succeedStep id).commit s).2
  | .failStep id => ((failStep id).commit s).2
  | .skipStep id => ((skipStep id).commit s).2
  | .startTurn id runID stepID model => ((startTurn id runID stepID model).commit s).2
  | .settleTurn id reason messageCount => ((settleTurn id reason messageCount).commit s).2
  | .settleTurnAndAdvance id reason => ((settleTurnAndAdvance id reason).commit s).2
  | .appendEvent runID turnID stepID kind => ((appendEvent runID turnID stepID kind).commit s).2

def next (s : State) (op : Op) : Option State := some (s.perform op)

end Iterabase.Runtime
