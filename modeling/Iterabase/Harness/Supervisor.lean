/-
**Harness — the supervisor.**

`supervisor.ts`. An async method runs without interruption between two awaits, so a run of the
supervisor is an interleaving of such segments over the fields the methods share. A field `Stage` of
each `handleAssignTurn` invocation says at which await it is suspended; its turn is the one of the
assignment, whatever `this.turn` holds by then.

* `sendChildEvent`, `sendTerminal`, `emitOutcome`, `failTurn` — the appends to the shared outbox.
* `handleAssignTurn`, `materialized`, `discovered`, `childEvent`, `childExited`, `acked` — the segments
  of a turn's handler; `childRpc` — one frame of `dispatchChildRpc`.
* `connect`, `opened`, `onControl`, `failClosed`, `closed` — the segments of `run`.
-/

import Iterabase.Harness.Outbox

namespace Iterabase.Harness

open Conc Option
open Dispatch (TurnID TurnEvent TurnEventKind Outcome CompletionReport WorkspaceStatus
  WorkerMessage)

/-! ### Data -/

/-- `AssignTurn`, with the fields the supervisor's own decisions read. -/
structure AssignTurn where
  turnID : TurnID
  nodeExecutionID : String := ""
  completionOutcomes : List String := []
  deriving DecidableEq

inductive ControlMessage
  | welcome
  | assignTurn (assignment : AssignTurn)
  | abortTurn (turnID : TurnID)
  | eventAck (turnID : TurnID) (throughSequence : Nat)
  | sessionEnd (sandboxID : String)
  deriving DecidableEq

inductive ChildEvent
  | event (payload : TurnEventKind)
  | tokenDelta

inductive ChildRpcRequest
  | modelRequest
  | toolCall
  | publishArtifact
  | cancel
  | stepCompletion (report : CompletionReport)
  | auditBacklogOverflow

/-- What a turn's code may throw. `other` is every error `failTurn` has no message for, a write to a
closed log among them. -/
inductive TurnError
  | sandbox
  | overflow
  | protocol
  | other
  deriving DecidableEq

/-- `TurnCtx`. Its `acked` promise is in `State.resolved`. -/
structure TurnCtx where
  ref : TurnRef
  aborted : Bool := false
  completionReported : Bool := false

structure PendingReplay where
  turnID : TurnID
  events : List TurnEvent
  lastSeq : Nat
  wal : TurnID

/-- The await a `handleAssignTurn` invocation is suspended at. -/
inductive Stage
  | materializing
  | discovering
  /-- The next frame of `child.events`. -/
  | draining
  | exiting
  /-- `rpcDone`, with the child's result. -/
  | joining (outcome : Outcome)
  /-- The `acked` promise it found in `this.turn`. -/
  | acking (turn : TurnRef)
  | returned
  deriving DecidableEq

/-- Where the child's RPC dispatcher is. -/
inductive RpcLoop
  | absent
  | running
  | ended
  deriving DecidableEq

/-- A `handleAssignTurn` invocation and the RPC dispatcher of its child. -/
structure Handler where
  turn : TurnRef
  assignment : AssignTurn
  stage : Stage
  rpc : RpcLoop := .absent

/-- Some continuation of the turn may still run. -/
def Handler.live (h : Handler) : Bool := h.stage ≠ .returned ∨ h.rpc = .running

/-- The await `run` is suspended at. -/
inductive RunLoop
  /-- The start, or the sleep before the next attempt. -/
  | reconnecting
  | opening
  /-- The next message of the control stream. -/
  | serving
  /-- `failClosed`, waiting for the child to end. -/
  | closing
  | returned
  deriving DecidableEq

/-- A Work stream of the supervisor, by number. -/
structure Stream where
  id : Nat
  closed : Bool := false

inductive Producer
  | handler (turn : TurnRef)
  /-- The turn's child, through its audit or its RPC channel. -/
  | child (turn : TurnRef)
  /-- `failClosed`, giving up the turn it finds active. -/
  | failClosed (turn : TurnRef)
  deriving DecidableEq

def Producer.turn : Producer → TurnRef
  | .handler turn | .child turn | .failClosed turn => turn

/-- A continuation of a turn, as opposed to `failClosed`. -/
def Producer.ofTurn : Producer → Bool
  | .handler _ | .child _ => true
  | .failClosed _ => false

/-- What an observer of the process sees. No code reads it. -/
inductive Obs
  | appended (outbox : TurnRef) (te : TurnEvent) (producer : Producer)
  | sent (stream : Nat) (msg : WorkerMessage)
  /-- A handler of the second turn ended the heartbeat of the first. -/
  | stopped (heartbeat : TurnRef) (turn : TurnRef)
  /-- A handler of the second turn dropped the child of the first. -/
  | cleared (child : TurnRef) (turn : TurnRef)
  /-- A continuation of the second turn moved on the `WorkerState` of the first. -/
  | settled (active : Option TurnRef) (turn : TurnRef)
  deriving DecidableEq

/-- The fields of a `Supervisor`, the continuations that wait, and the logs on disk. -/
structure State where
  bound : Nat
  state : WorkerState := {}
  stream : Option Stream := none
  turn : Option TurnCtx := none
  outbox : Option EventOutbox := none
  currentChild : Option TurnRef := none
  /-- The turn the heartbeat timer was started for. -/
  heartbeat : Option TurnRef := none
  running : Bool := true
  pendingReplay : List PendingReplay := []
  workspaceStatus : Option WorkspaceStatus := none
  loop : RunLoop := .reconnecting
  /-- Every invocation so far; its position is the id of its turn. -/
  handlers : List Handler := []
  /-- The turns whose `acked` promise has resolved. -/
  resolved : List TurnRef := []
  /-- The number of `drain` calls waiting for the child to end. -/
  drains : Nat := 0
  /-- An exception nobody catches has ended the process. -/
  crashed : Bool := false
  wals : Table Wal.turnID := .empty
  /-- The assignment accepted last, and the number of streams so far. -/
  latest : Option TurnRef := none
  streams : Nat := 0
  trace : List Obs := []

namespace State

variable (s : State)

def observe (o : Obs) : State := { s with trace := o :: s.trace }

/-- Add what is observed of a turn that is held. -/
def note (held : Option TurnRef) (o : TurnRef → Obs) : State :=
  match held with
  | none => s
  | some turn => s.observe (o turn)

def crash : State := { s with crashed := true }

def aborted : Bool := s.turn.any TurnCtx.aborted

def setHandler (i : Nat) (h : Handler) : State :=
  { s with handlers := s.handlers.set i h }

/-- `stream.send`: a closed stream takes nothing. -/
def send (msg : WorkerMessage) : State :=
  match s.stream with
  | none => s
  | some stream => if stream.closed then s else s.observe (.sent stream.id msg)

/-! ### Appends -/

def writeWal (turnID : TurnID) (record : WalRecord) : State :=
  { s with
    wals := s.wals.update (fun wal => wal.turnID = turnID)
      (fun wal => { wal with records := wal.records ++ [record] }) fun _ => rfl }

def unlinkWal (turnID : TurnID) : State :=
  { s with
    wals := ⟨s.wals.rows.filter fun wal => wal.turnID ≠ turnID,
      s.wals.distinct.sublist (List.filter_sublist.map _)⟩ }

/-- `appendTerminal` of the current outbox: sequence, write, buffer. A closed log fails the write
after the sequence is taken. -/
def appendTerminal (o : EventOutbox) (payload : TurnEventKind) (producer : Producer) :
    Except TurnError TurnEvent × State :=
  if o.closed then (.error .other, { s with outbox := some { o with sequence := o.sequence + 1 } })
  else
    let te := o.event payload
    (.ok te, ({ s with outbox := some (o.appendTerminal payload) }.writeWal o.turn.turnID
      (.event te.sequence te)).observe (.appended o.turn te producer))

/-- `markFinal` of an outcome, then the send. -/
def sendEvent (te : TurnEvent) : State :=
  match te.kind with
  | .workerOutcome _ =>
      { s with outbox := s.outbox.map (EventOutbox.markFinal · te.sequence) }.send (.turnEvent te)
  | _ => s.send (.turnEvent te)

def sendTerminal (payload : TurnEventKind) (producer : Producer) :
    Except TurnError Unit × State :=
  match s.outbox with
  | none => (.ok (), s)
  | some o =>
      match s.appendTerminal o payload producer with
      | (.error err, s) => (.error err, s)
      | (.ok te, s) => (.ok (), s.sendEvent te)

/-- `sendChildEvent`: the bound is checked first. -/
def sendChildEvent (payload : TurnEventKind) (producer : Producer) :
    Except TurnError Unit × State :=
  if s.outbox.any fun o => o.bound ≤ o.buffer.length then (.error .overflow, s)
  else s.sendTerminal payload producer

/-- `onChildExited`, whose error `emitOutcome` swallows. -/
def onChildExited (turn : TurnRef) : State :=
  match s.state.onChildExited with
  | none => s
  | some st => { s with state := st }.observe (.settled s.state.activeTurn turn)

def emitOutcome (outcome : Outcome) (producer : Producer) :
    Except TurnError Unit × State :=
  if s.outbox.isNone then (.ok (), s)
  else
    match s.sendTerminal (.workerOutcome outcome) producer with
    | (.error err, s) => (.error err, s)
    | (.ok (), s) => (.ok (), s.onChildExited producer.turn)

def failTurn (err : TurnError) (producer : Producer) : Except TurnError Unit × State :=
  if err = .sandbox ∨ err = .overflow then
    match s.sendTerminal .harnessError producer with
    | (.error err, s) => (.error err, s)
    | (.ok (), s) => s.emitOutcome .failed producer
  else s.emitOutcome .failed producer

/-- `abortActiveTurn`. The signal to the child, and to the calls the handler waits for, is the
environment's. -/
def abortActiveTurn : State :=
  { s with turn := s.turn.map fun ctx => { ctx with aborted := true } }

def fatal : State := { s with state := s.state.fatal }

def maybeAdvertiseCredit : State :=
  if s.pendingReplay ≠ [] ∨ s.workspaceStatus.any WorkspaceStatus.creditGated then s
  else
    match s.state.advertiseCredit with
    | none => s
    | some st => { s with state := st }.send .ready

def sendWorkspaceStatus : State :=
  match s.workspaceStatus with
  | none => s
  | some status => s.send (.workspaceStatus status)

/-! ### The handler of a turn -/

/-- The `finally` block of `handleAssignTurn`. -/
def cleanUp (h : Handler) : State :=
  { (s.note s.heartbeat (.stopped · h.turn)).note s.currentChild (.cleared · h.turn) with
    heartbeat := none, currentChild := none }

/-- From the `finally` block to the wait for `this.turn.acked`; no turn there is a TypeError. -/
def finish (i : Nat) (h : Handler) : State :=
  let s := s.cleanUp h
  match s.turn with
  | none => (s.setHandler i { h with stage := .returned }).crash
  | some ctx => s.setHandler i { h with stage := .acking ctx.ref }

/-- The `catch` block and what follows it. An error of `failTurn` leaves the method. -/
def handlerFails (i : Nat) (h : Handler) (err : TurnError) : State :=
  match s.failTurn err (.handler h.turn) with
  | (.error _, s) => ((s.cleanUp h).setHandler i { h with stage := .returned }).crash
  | (.ok (), s) => s.finish i h

/-- What the environment decides about an assignment or a SessionEnd. `sandbox`: the error of
`resolveSandbox` or `validatePoolScope`. -/
structure Setup where
  sandbox : Option TurnError := none
  workingDir : Option TurnError := none
  reaps : Bool := true

/-- The `try` block of an accepted assignment up to its first await. -/
def setUp (i : Nat) (h : Handler) (setup : Setup) : State :=
  match setup.sandbox with
  | some err => s.handlerFails i h err
  | none =>
      match s.sendChildEvent .executionStarted (.handler h.turn) with
      | (.error err, s) => s.handlerFails i h err
      | (.ok (), s) =>
          match setup.workingDir with
          | some err => s.handlerFails i h err
          | none => s

/-- An accepted assignment: its handler, and the new `this.turn`. -/
def takeOn (st : WorkerState) (h : Handler) : State :=
  { s with
    state := st
    turn := some { ref := h.turn }
    latest := some h.turn
    handlers := s.handlers ++ [h] }

/-- `new EventOutbox`: the log is opened for appending. -/
def openOutbox (turn : TurnRef) : State :=
  { s with
    outbox := some { turn := turn, bound := s.bound }
    wals := (s.wals.insert ⟨turn.turnID, []⟩).getD s.wals }

def startHeartbeat (turn : TurnRef) : State := { s with heartbeat := some turn }

def handleAssignTurn (assignment : AssignTurn) (setup : Setup) : State :=
  let turn : TurnRef := ⟨s.handlers.length, assignment.turnID⟩
  match s.state.onAssignTurn turn with
  | none => s.fatal
  | some st =>
      let h : Handler := ⟨turn, assignment, .materializing, .absent⟩
      let s := s.takeOn st h
      if validateTurnID assignment.turnID then
        ((s.openOutbox turn).startHeartbeat turn).setUp turn.id h setup
      else (s.setHandler turn.id { h with stage := .returned }).crash

def materialized (i : Nat) (h : Handler) (ok : Bool) : State :=
  if !ok ∨ s.aborted then s.handlerFails i h .sandbox
  else s.setHandler i { h with stage := .discovering }

/-- How discovery and the launch of the child end. -/
inductive Discovery
  | failed
  | discovered (launch : Option TurnError)

/-- `discover` has returned: the child is launched, and its RPC dispatcher starts. -/
def discovered (i : Nat) (h : Handler) (answer : Discovery) : State :=
  match answer with
  | .failed => s.handlerFails i h .sandbox
  | .discovered launch =>
      if s.aborted then s.handlerFails i h .sandbox
      else
        match launch with
        | some err => s.handlerFails i h err
        | none =>
            { s with currentChild := some h.turn }.setHandler i
              { h with stage := .draining, rpc := .running }

def childEvent (i : Nat) (h : Handler) (ev : ChildEvent) : State :=
  if s.aborted then s.setHandler i { h with stage := .exiting }
  else
    match ev with
    | .tokenDelta => s.send .tokenDelta
    | .event payload =>
        match s.sendChildEvent payload (.child h.turn) with
        | (.error err, s) => s.handlerFails i h err
        | (.ok (), s) => s

/-- `rpcDone` has resolved after the child's result. -/
def joined (i : Nat) (h : Handler) (outcome : Outcome) : State :=
  match s.emitOutcome outcome (.handler h.turn) with
  | (.error err, s) => s.handlerFails i h err
  | (.ok (), s) => s.finish i h

def acked (i : Nat) (h : Handler) : State :=
  let s := s.setHandler i { h with stage := .returned }
  match s.state.onOutcomeAcked with
  | none => { s with turn := none }
  | some st => ({ s with state := st, turn := none, outbox := none }.observe
      (.settled s.state.activeTurn h.turn)).maybeAdvertiseCredit

/-! ### The RPC dispatcher of a child -/

def acceptsCompletion (assignment : AssignTurn) (report : CompletionReport) : Bool :=
  assignment.nodeExecutionID ≠ "" ∧ report.outcome ∈ assignment.completionOutcomes ∧
    s.turn.any fun ctx => !ctx.completionReported

def reportCompletion : State :=
  { s with turn := s.turn.map fun ctx => { ctx with completionReported := true } }

/-- One frame of `dispatchChildRpc`. An error leaves the loop, and its promise swallows it. -/
def childRpc (i : Nat) (h : Handler) (req : ChildRpcRequest) : State :=
  let ends (s : State) := s.setHandler i { h with rpc := .ended }
  if s.aborted then ends s
  else
    match req with
    | .auditBacklogOverflow => s.abortActiveTurn
    | .stepCompletion report =>
        if s.acceptsCompletion h.assignment report then
          match s.reportCompletion.sendChildEvent (.stepCompletion report) (.child h.turn) with
          | (.error _, s) => ends s
          | (.ok (), s) => s
        else ends (s.failTurn .protocol (.child h.turn)).2
    | _ => s

/-! ### The run loop -/

/-- `failClosed` up to its await. -/
def failClosed : State :=
  { s.abortActiveTurn with heartbeat := none, loop := .closing }

def onEventAck (turnID : TurnID) (through : Nat) : State :=
  match s.pendingReplay.find? fun r => r.turnID = turnID with
  | some r =>
      if through > r.lastSeq then s.fatal
      else if through < r.lastSeq then s
      else
        let rest := s.pendingReplay.eraseP fun r => r.turnID = turnID
        ({ s with pendingReplay := rest }.unlinkWal r.wal).maybeAdvertiseCredit
  | none =>
      match s.turn, s.outbox with
      | some ctx, some o =>
          if ctx.ref.turnID ≠ turnID then s.fatal
          else
            match o.ack through with
            | none => s.fatal
            | some (done, o') =>
                let s := if o'.ackedSeq = o.ackedSeq then s
                  else { s with outbox := some o' }.writeWal o.turn.turnID (.ack through)
                if done then { s with resolved := ctx.ref :: s.resolved }.unlinkWal o.turn.turnID
                else s
      | _, _ => s.fatal

def handleSessionEnd (sandboxID : String) (setup : Setup) : State :=
  if s.state.hasActiveTurn ∨ sandboxID = "" ∨ !setup.reaps then s.fatal else s

def onControl (msg : ControlMessage) (setup : Setup) : State :=
  match msg with
  | .welcome => s
  | .assignTurn assignment => s.handleAssignTurn assignment setup
  | .abortTurn turnID =>
      if s.turn.any fun ctx => ctx.ref.turnID = turnID then s.abortActiveTurn else s
  | .eventAck turnID through => s.onEventAck turnID through
  | .sessionEnd sandboxID => s.handleSessionEnd sandboxID setup

/-- The phase in which the control loop ends. -/
def ending : Bool := s.state.phase = .draining ∨ s.state.phase = .fatal

def control (msg : ControlMessage) (setup : Setup) : State :=
  let s := s.onControl msg setup
  if s.ending then { s with loop := .returned } else s

def streamEnds (failed : Bool) : State :=
  if s.state.phase = .fatal ∨ (s.ending ∧ !failed) then { s with loop := .returned }
  else s.failClosed

/-- `connectAndServe` up to its await; `transport` says whether the credentials could be read. -/
def connect (transport : Bool) : State :=
  if !s.running ∨ s.ending then { s with loop := .returned }
  else if !transport then s.failClosed
  else
    match s.state.onConnecting with
    | none => s.failClosed
    | some st => { s with state := st, loop := .opening }

def replayPending : State :=
  (s.pendingReplay.flatMap PendingReplay.events).foldl (fun s te => s.send (.turnEvent te)) s

def opened : State :=
  let s := { s with stream := some ⟨s.streams, false⟩, streams := s.streams + 1 }
  match s.state.onWelcome with
  | none => s.failClosed
  | some st =>
      { s with state := st, loop := .serving }.sendWorkspaceStatus.replayPending.maybeAdvertiseCredit

/-- The end of `failClosed`, with the turn given up. -/
def loseStream : State :=
  let s := { s with
    resolved := (s.turn.map TurnCtx.ref).toList ++ s.resolved
    turn := none
    state := .onStreamLost }
  if s.running then { s with loop := .reconnecting } else { s with loop := .returned }

/-- `failClosed` after its await. An error of the append ends the process. -/
def closed : State :=
  match s.outbox, s.turn with
  | some o, some ctx =>
      match s.appendTerminal o (.workerOutcome .aborted) (.failClosed ctx.ref) with
      | (.error _, s) => s.crash
      | (.ok te, s) =>
          let replay : PendingReplay := ⟨ctx.ref.turnID, (o.appendTerminal te.kind).unacked,
            o.sequence + 1, o.turn.turnID⟩
          { s with pendingReplay := s.pendingReplay ++ [replay], outbox := none }.loseStream
  | _, _ => s.loseStream

def drain : State :=
  { s.abortActiveTurn with running := false, state := s.state.beginDrain, drains := s.drains + 1 }

def drained : State :=
  { s with
    drains := s.drains - 1
    stream := s.stream.map fun stream => { stream with closed := true } }

def updateWorkspaceStatus (status : WorkspaceStatus) : State :=
  let s := { s with workspaceStatus := some status }.sendWorkspaceStatus
  if status.creditGated then s else s.maybeAdvertiseCredit

/-- `EventOutbox.recover`: the logs with events to replay; the others are deleted. -/
def recover (wals : List Wal) : List PendingReplay :=
  (wals.filter fun wal => replayWal wal.records ≠ []).map fun wal =>
    ⟨wal.turnID, replayWal wal.records,
      ((replayWal wal.records).getLast?.map TurnEvent.sequence).getD 0, wal.turnID⟩

/-- A new process over the logs on disk, with its first look at the workspace. -/
def restart (status : Option WorkspaceStatus) : State where
  bound := s.bound
  workspaceStatus := status
  pendingReplay := recover s.wals.rows
  handlers := s.handlers.map fun h => { h with stage := .returned, rpc := .ended }
  wals := ⟨s.wals.rows.filter fun wal => replayWal wal.records ≠ [],
    s.wals.distinct.sublist (List.filter_sublist.map _)⟩
  latest := s.latest
  streams := s.streams
  trace := s.trace

end State

/-! ### The process -/

inductive Move
  | connect (transport : Bool)
  | opened
  | openFailed
  | control (msg : ControlMessage) (setup : State.Setup)
  | streamEnds (failed : Bool)
  | closed
  | drain
  | drained
  | updateWorkspaceStatus (status : WorkspaceStatus)
  | beat
  | materialized (turn : Nat) (ok : Bool)
  | discovered (turn : Nat) (answer : State.Discovery)
  | childEvent (turn : Nat) (ev : ChildEvent)
  | eventsEnd (turn : Nat)
  | childResult (turn : Nat) (outcome : Outcome)
  | rpcDone (turn : Nat)
  | childRpc (turn : Nat) (req : ChildRpcRequest)
  | rpcEnds (turn : Nat)
  | acked (turn : Nat)
  | restart (status : Option WorkspaceStatus)

namespace State

/-- The next segment of the handler `i`, if it is suspended where the move continues. -/
def resume (s : State) (i : Nat) (segment : Handler → Option State) : Option State :=
  (s.handlers[i]?).bind segment

def step (s : State) : Move → Option State
  | .connect transport => if s.loop = .reconnecting then some (s.connect transport) else none
  | .opened => if s.loop = .opening then some s.opened else none
  | .openFailed => if s.loop = .opening then some s.failClosed else none
  | .control msg setup => if s.loop = .serving then some (s.control msg setup) else none
  | .streamEnds failed => if s.loop = .serving then some (s.streamEnds failed) else none
  | .closed => if s.loop = .closing then some s.closed else none
  | .drain => some s.drain
  | .drained => if s.drains > 0 then some s.drained else none
  | .updateWorkspaceStatus status => some (s.updateWorkspaceStatus status)
  | .beat => if s.heartbeat.isSome then some (s.send .heartbeat) else none
  | .materialized i ok => s.resume i fun h =>
      if h.stage = .materializing then some (s.materialized i h ok) else none
  | .discovered i answer => s.resume i fun h =>
      if h.stage = .discovering then some (s.discovered i h answer) else none
  | .childEvent i ev => s.resume i fun h =>
      if h.stage = .draining then some (s.childEvent i h ev) else none
  | .eventsEnd i => s.resume i fun h =>
      if h.stage = .draining then some (s.setHandler i { h with stage := .exiting }) else none
  | .childResult i outcome => s.resume i fun h =>
      if h.stage = .exiting then some (s.setHandler i { h with stage := .joining outcome }) else none
  | .rpcDone i => s.resume i fun h =>
      match h.stage with
      | .joining outcome => if h.rpc = .ended then some (s.joined i h outcome) else none
      | _ => none
  | .childRpc i req => s.resume i fun h =>
      if h.rpc = .running then some (s.childRpc i h req) else none
  | .rpcEnds i => s.resume i fun h =>
      if h.rpc = .running then some (s.setHandler i { h with rpc := .ended }) else none
  | .acked i => s.resume i fun h =>
      match h.stage with
      | .acking turn => if turn ∈ s.resolved then some (s.acked i h) else none
      | _ => none
  | .restart status => some (s.restart status)

end State

def Move.isRestart : Move → Bool
  | .restart _ => true
  | _ => false

/-- One move of the supervisor. A process that has ended can only be started again. -/
def next (s : State) (m : Move) : Option State :=
  if s.crashed && !m.isRestart then none else s.step m

/-- What a move does, by the continuation it resumes. -/
inductive Resumes (s : State) : Move → State → Prop
  | connect {transport : Bool} : s.loop = .reconnecting →
      Resumes s (.connect transport) (s.connect transport)
  | opened : s.loop = .opening → Resumes s .opened s.opened
  | openFailed : s.loop = .opening → Resumes s .openFailed s.failClosed
  | control {msg : ControlMessage} {setup : State.Setup} : s.loop = .serving →
      Resumes s (.control msg setup) (s.control msg setup)
  | streamEnds {failed : Bool} : s.loop = .serving →
      Resumes s (.streamEnds failed) (s.streamEnds failed)
  | closed : s.loop = .closing → Resumes s .closed s.closed
  | drain : Resumes s .drain s.drain
  | drained : Resumes s .drained s.drained
  | updateWorkspaceStatus {status : WorkspaceStatus} :
      Resumes s (.updateWorkspaceStatus status) (s.updateWorkspaceStatus status)
  | beat : Resumes s .beat (s.send .heartbeat)
  | materialized {i : Nat} {h : Handler} {ok : Bool} : s.handlers[i]? = some h →
      h.stage = .materializing → Resumes s (.materialized i ok) (s.materialized i h ok)
  | discovered {i : Nat} {h : Handler} {answer : State.Discovery} : s.handlers[i]? = some h →
      h.stage = .discovering → Resumes s (.discovered i answer) (s.discovered i h answer)
  | childEvent {i : Nat} {h : Handler} {ev : ChildEvent} : s.handlers[i]? = some h →
      h.stage = .draining → Resumes s (.childEvent i ev) (s.childEvent i h ev)
  | eventsEnd {i : Nat} {h : Handler} : s.handlers[i]? = some h → h.stage = .draining →
      Resumes s (.eventsEnd i) (s.setHandler i { h with stage := .exiting })
  | childResult {i : Nat} {h : Handler} {outcome : Outcome} : s.handlers[i]? = some h →
      h.stage = .exiting →
      Resumes s (.childResult i outcome) (s.setHandler i { h with stage := .joining outcome })
  | rpcDone {i : Nat} {h : Handler} {outcome : Outcome} : s.handlers[i]? = some h →
      h.stage = .joining outcome → h.rpc = .ended → Resumes s (.rpcDone i) (s.joined i h outcome)
  | childRpc {i : Nat} {h : Handler} {req : ChildRpcRequest} : s.handlers[i]? = some h →
      h.rpc = .running → Resumes s (.childRpc i req) (s.childRpc i h req)
  | rpcEnds {i : Nat} {h : Handler} : s.handlers[i]? = some h → h.rpc = .running →
      Resumes s (.rpcEnds i) (s.setHandler i { h with rpc := .ended })
  | acked {i : Nat} {h : Handler} {turn : TurnRef} : s.handlers[i]? = some h →
      h.stage = .acking turn → Resumes s (.acked i) (s.acked i h)

/-- A move of a process resumes one continuation, or starts a new process. -/
theorem next_cases {s s' : State} {m : Move} (moved : next s m = some s') :
    (s.crashed = false ∧ Resumes s m s') ∨ ∃ status, s' = s.restart status := by
  unfold next at moved
  split at moved
  · cases moved
  rename_i runs
  have pending : ∀ {i : Nat} {segment : Handler → Option State}, s.resume i segment = some s' →
      ∃ h, s.handlers[i]? = some h ∧ segment h = some s' := bind_eq_some_iff.mp
  have enabled : ∀ {P : Prop} [Decidable P] {after : State},
      (if P then some after else none) = some s' → P ∧ s' = after := by
    intro P _ after moved
    obtain ⟨holds, same⟩ := ite_none_right_eq_some.mp moved
    exact ⟨holds, (some.inj same).symm⟩
  cases m with
  | restart status =>
    cases moved
    exact .inr ⟨status, rfl⟩
  | _ =>
    refine .inl ⟨by simpa [Move.isRestart] using runs, ?_⟩
    first
    | cases moved; constructor
    | obtain ⟨holds, rfl⟩ := enabled moved
      constructor
      try exact holds
    | obtain ⟨h, found, ran⟩ := pending moved
      first
      | obtain ⟨holds, rfl⟩ := enabled ran
        constructor <;> assumption
      | split at ran
        · obtain ⟨holds, rfl⟩ := enabled ran
          constructor <;> assumption
        · cases ran

def State.Initial (s : State) : Prop :=
  ∃ bound status, s = { bound := bound, workspaceStatus := status }

def worker : State := { bound := 4 }

theorem worker_initial : worker.Initial := ⟨4, none, rfl⟩

def arm : List Move := [.connect true, .opened]

/-- A turn of a node whose completion may be reported as done. -/
def nodeTurn : AssignTurn := { turnID := "t", nodeExecutionID := "node", completionOutcomes := ["done"] }

end Iterabase.Harness
