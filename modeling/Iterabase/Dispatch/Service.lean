/-
**Durable dispatch — the service.**

The TurnEvent path of `service.go` as programs of atomic actions: a store transaction, which may
fail, a critical section of a connection or of the pool, or a send.

* `store`, `query`, `locally`, `send` — the four kinds of action.
* `commitTurnTerminal`, with `terminalizeTurnLoss` and `terminalizeTurnOutcome` — settle the turn and
  terminalize its assignment, in two transactions.
* `handleTurnEvent` — resolve, append, project, ACK, and then clean up after an outcome.
-/

import Iterabase.Dispatch.WorkerPool

namespace Iterabase.Dispatch

open Conc

/-! ### Actions -/

inductive FenceCause
  | workerLoss
  | leaseExpired
  | cancel (turnID : TurnID)
  | sendFailed

/-- The program points that a run may be constrained at. -/
inductive Label
  | resolveEvent (w : ConnRef) (te : TurnEvent)
  | append (w : ConnRef) (te : TurnEvent)
  | audit (w : ConnRef) (te : TurnEvent)
  | record (te : TurnEvent)
  | settle (turnID : TurnID) (reason : Reason)
  | register (poolID : PoolID) (workerID : WorkerID)
  | reconnectFence (w : ConnRef)
  | fence (cause : FenceCause) (poolID : PoolID) (workerID : WorkerID) (gen : Nat)
  | send (w : ConnRef) (msg : ControlMessage)
  | prepare (runID : RunID)
  | create (w : ConnRef) (a : Assignment)
  | release (w : ConnRef) (a : Assignment)
  | restore (w : ConnRef) (turnID : TurnID) (deliveryAttempted : Bool) (dispatcher : Nat)
  | capacity (w : ConnRef) (status : WorkspaceStatus)
  | publish (w : ConnRef) (gated : Bool)
  | sync (states : List WorkspaceCapacityState)
  | other

abbrev Program := Prog Label Input State

/-- What a store call answers and leaves: the transaction's result, or a failure, before the transaction
had an effect or after it committed. -/
def State.call {α : Type} (s : State) (input : Input) (result : Except Err α × State) :
    Except Err α × State :=
  if input.fail then (.error .infrastructure, if input.lost then result.2 else s) else result

def store {α : Type} (label : Label) (tx : Input → State → Except Err α × State) :
    Program (Except Err α) :=
  .atomic label fun input s => some (s.call input (tx input s))

def query {α : Type} (label : Label) (read : State → Except Err α) : Program (Except Err α) :=
  store label fun _ s => (read s, s)

def locally {α : Type} (f : Input → State → α × State) (label : Label := .other) : Program α :=
  .atomic label fun input s => some (f input s)

/-- `workerConn.send`: a closed connection refuses; a message that enters the stream may still be
reported as failed. -/
def send (w : ConnRef) (msg : ControlMessage) (answers : Option TurnEvent := none) :
    Program (Except Err Unit) :=
  .atomic (.send w msg) fun input s =>
    (s.conns.find w.id).map fun c =>
      if c.closed then (.error .connClosed, s)
      else (if input.fail then .error .infrastructure else .ok (), s.observe (.sent w msg answers))

def markClosed (w : ConnRef) : Program Unit :=
  locally fun _ s => ((), s.modifyConn w WorkerConn.markClosed fun _ => rfl)

/-! ### Terminalization -/

/-- `commitTurnTerminal`. The run state is `none` where the turn was settled before. -/
def commitTurnTerminal (a : Assignment) (reason : Reason) :
    Program (Except Err (Option RunState)) := do
  match ← query .other fun s => .ok (s.isGraphAttempt a.runID) with
  | .error err => return .error err
  | .ok isGraph =>
      let settled ← store (.settle a.turnID reason) fun input s =>
        s.settle isGraph a.turnID reason input.advance
      let terminalize := store .other fun _ s => (.ok (), s.terminalizeAssignment a.turnID)
      match settled with
      | .ok runState =>
          match ← terminalize with
          | .error err => return .error err
          | .ok () => return .ok (some runState)
      | .error .invalidTransition =>
          match ← terminalize with
          | .error err => return .error err
          | .ok () => return .ok none
      | .error err => return .error err

def terminalizeTurnLoss (a : Assignment) : Program (Except Err (Option RunState)) :=
  commitTurnTerminal a .aborted

/-- The reason a worker's outcome settles its turn with. -/
def reasonOf : Outcome → Reason
  | .completed => .completed
  | .failed => .failed
  | .aborted => .aborted
  | .unspecified => .failed

def terminalizeTurnOutcome (a : Assignment) (outcome : Outcome) :
    Program (Except Err (Option RunState)) :=
  commitTurnTerminal a (reasonOf outcome)

/-- `sendSessionEnd`. The session and its UID are looked up before the message is sent. -/
def sendSessionEnd (w : ConnRef) (a : Assignment) : Program Unit := do
  match ← query .other fun _ => .ok () with
  | .error _ => return ()
  | .ok () => let _ ← send w (.sessionEnd a.runID)

def finishTurnOutcome (a : Assignment) (runState : Option RunState) : Program Unit := do
  match ← locally fun _ s => (s.get a.poolID a.workerID, s) with
  | none => return ()
  | some w =>
      locally (fun _ s => ((), s.releaseFor w a)) (.release w a)
      if runState.any RunState.isTerminal then sendSessionEnd w a

/-! ### TurnEvent handling -/

/-- The runtime event kind `turnEventToRuntime` maps an event to; `none` is its empty kind. -/
def turnEventToRuntime : TurnEventKind → Option RuntimeEvent
  | .executionStarted => some .turnStarted
  | .modelCallStarted => some .modelCallStarted
  | .assistantMessage => some .assistantMessage
  | .modelCallFailed => some .modelCallFailed
  | .modelRetryScheduled => some .modelRetryScheduled
  | .modelRetryFinished => some .modelRetryFinished
  | .toolCallStarted => some .toolCallStarted
  | .toolResult => some .toolResult
  | .compactionStarted => some .compactionStarted
  | .compactionFinished => some .compactionFinished
  | .harnessError => some .error
  | .workerOutcome _ => some .settled
  | .stepCompletion _ => some .stepCompletionReported
  | .unknown => none

def TurnEventKind.report : TurnEventKind → Option CompletionReport
  | .stepCompletion report => some report
  | _ => none

def TurnEventKind.outcome : TurnEventKind → Option Outcome
  | .workerOutcome outcome => some outcome
  | _ => none

/-- `ack`: a cumulative EventAck through the event's own sequence. -/
def ack (w : ConnRef) (te : TurnEvent) : Program (Except Err Unit) :=
  send w (.eventAck te.turnID te.sequence) (some te)

def appendAfterTerminal (w : ConnRef) (te : TurnEvent) : Program (Except Err Unit) := do
  match turnEventToRuntime te.kind with
  | none => return .ok ()
  | some kind =>
      match ← store (.audit w te) fun _ s => s.appendAfterTerminalEvent w te kind with
      | .ok _ => return .ok ()
      | .error .notFound => return .ok ()
      | .error err => return .error err

/-- The after-terminal branch of `handleTurnEvent`: audit, then ACK. -/
def auditAndAck (w : ConnRef) (te : TurnEvent) : Program (Except Err Unit) := do
  match ← appendAfterTerminal w te with
  | .error err => return .error err
  | .ok () => ack w te

/-- A report's answer that `handleTurnEvent` does not retry. -/
def permanent (err : Err) : Bool :=
  err = .conflict ∨ err = .invalidInput ∨ err = .invalidTransition ∨ err = .notFound

def projectCompletion (te : TurnEvent) : Program (Except Err Unit) := do
  match te.kind.report with
  | none => return .ok ()
  | some report =>
      match ← store (.record te) fun input s => s.recordCompletionReport te report input with
      | .ok () => return .ok ()
      | .error err => if permanent err then return .ok () else return .error err

def projectOutcome (a : Assignment) (te : TurnEvent) :
    Program (Except Err (Option RunState)) := do
  match te.kind.outcome with
  | none => return .ok none
  | some outcome => terminalizeTurnOutcome a outcome

/-- The end of `handleTurnEvent`, the same on its deduplicated and its applied branch: ACK, then the
connected worker's cleanup after an outcome. -/
def ackAndFinish (w : ConnRef) (te : TurnEvent) (a : Assignment) (runState : Option RunState) :
    Program (Except Err Unit) := do
  match ← ack w te with
  | .error err => return .error err
  | .ok () =>
      let _ ← (if te.kind.outcome.isSome then finishTurnOutcome a runState else pure ())
      return .ok ()

def handleTurnEvent (w : ConnRef) (te : TurnEvent) : Program (Except Err Unit) := do
  if te.turnID = "" then return .error .infrastructure
  else
    match ← query (.resolveEvent w te) fun s => s.resolveActiveAssignment te.turnID with
    | .error .assignmentNotActive => auditAndAck w te
    | .error err => return .error err
    | .ok a =>
        if a.workerID ≠ w.workerID ∨ a.fencingGeneration ≠ w.gen then return .ok ()
        else
          match turnEventToRuntime te.kind with
          | none => ack w te
          | some kind =>
              match ← store (.append w te) fun _ s => s.appendTurnEvent w te kind with
              | .error .assignmentNotActive => auditAndAck w te
              | .error err => return .error err
              | .ok _ =>
                  match ← projectCompletion te with
                  | .error err => return .error err
                  | .ok () =>
                      match ← projectOutcome a te with
                      | .error err => return .error err
                      | .ok runState => ackAndFinish w te a runState

end Iterabase.Dispatch
