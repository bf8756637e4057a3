/-
**Durable dispatch — the Work handler, the paths that fence, and the system.**

* `fenceOldGeneration`, `handleWorkerLoss`, `expireLease`, `cancelTurn` — the paths that fence an
  assignment and settle its turn as worker loss.
* `work`, `serve`, `teardown` — the Work handler: up to its receive loop, one round of the loop, and
  its deferred cleanup. A connection's handler is one goroutine; `Loop.held` is the thread that runs
  it, so a round starts only while the loop is `waiting`.
* `service` — the system they make up. A restart re-seeds the generation counter from the durable
  rows and drops every connection.
-/

import Iterabase.Dispatch.Service

namespace Iterabase.Dispatch

open Conc

/-! ### Fencing -/

/-- `FenceWorkerGenerationIf`, then `terminalizeTurnLoss` of the row it returned. Answers whether a
row was fenced. -/
def fenceAndTerminalize (cause : FenceCause) (poolID : PoolID) (workerID : WorkerID) (gen : Nat) :
    Program Bool := do
  match ← store (.fence cause poolID workerID gen) fun input s =>
      s.fenceWorkerGenerationIf poolID workerID gen input.pick with
  | .error _ => return false
  | .ok a =>
      let _ ← terminalizeTurnLoss a
      return true

/-- `fenceOldGeneration`: the fence is unconditional, and any failure fails the connection. -/
def fenceOldGeneration (w : ConnRef) (old : Option ConnRef) : Program (Except Err Unit) := do
  let closeOld : Program Unit := match old with
    | none => pure ()
    | some o => markClosed o
  match ← store (.reconnectFence w) fun input s =>
      let (answer, s) := s.fenceWorkerGeneration w.poolID w.workerID input.pick
      (answer, s.observe (.fencedFor w)) with
  | .ok a =>
      match ← terminalizeTurnLoss a with
      | .error err =>
          closeOld
          return .error err
      | .ok _ =>
          closeOld
          return .ok ()
  | .error .notFound =>
      closeOld
      return .ok ()
  | .error err =>
      closeOld
      return .error err

def activeTurnOf (w : ConnRef) : Program TurnID :=
  locally fun _ s => (((s.conns.find w.id).map WorkerConn.activeTurn).getD "", s)

def handleWorkerLoss (w : ConnRef) : Program Unit := do
  if (← activeTurnOf w) = "" then return ()
  else let _ ← fenceAndTerminalize .workerLoss w.poolID w.workerID w.gen

def expireLease (w : ConnRef) : Program Unit := do
  if (← activeTurnOf w) = "" then return ()
  else
    let fenced ← fenceAndTerminalize .leaseExpired w.poolID w.workerID w.gen
    if fenced then markClosed w else return ()

def abortServing (turnID : TurnID) : Program Unit := do
  match ← locally fun input s => (s.activeConn turnID input.pick, s) with
  | none => return ()
  | some w => let _ ← send w (.abortTurn turnID)

/-- `CancelTurn`, which a node timeout also runs. It settles the turn it resolved, whatever row the
fence returned. -/
def cancelTurn (turnID : TurnID) : Program Unit := do
  match ← query .other fun s => s.resolveActiveAssignment turnID with
  | .error _ => return ()
  | .ok a =>
      abortServing turnID
      match ← store (.fence (.cancel turnID) a.poolID a.workerID a.fencingGeneration) fun input s =>
          s.fenceWorkerGenerationIf a.poolID a.workerID a.fencingGeneration input.pick with
      | .error _ => return ()
      | .ok _ => let _ ← terminalizeTurnLoss a

/-! ### The Work handler -/

/-- The kind of a verified SPIFFE identity. -/
inductive IdentityKind
  | supervisor
  | runner
  deriving DecidableEq

structure Identity where
  kind : IdentityKind
  spiffeID : String
  poolUID : String
  workerID : WorkerID

structure Hello where
  poolID : String
  workerID : WorkerID

def setLoop (w : ConnRef) (loop : Loop) : Program Unit :=
  locally fun _ s => ((), s.modifyConn w (fun c => { c with loop := loop }) fun _ => rfl)

def teardown (w : ConnRef) : Program Unit := do
  markClosed w
  locally fun _ s => ((), s.remove w)
  handleWorkerLoss w
  setLoop w .returned

/-- `ackReconnectWatermark`, called with the certificate's pool UID. -/
def ackReconnectWatermark (w : ConnRef) (poolUID : String) (workerID : WorkerID) :
    Program Unit := do
  match ← query .other fun s => s.priorAssignmentForWorker poolUID workerID with
  | .error _ => return ()
  | .ok a => let _ ← send w (.eventAck a.turnID a.highestAppliedSequence)

def work (thread : Nat) (id : Identity) (hello : Hello) : Program Unit := do
  if id.kind ≠ .supervisor then return ()
  else if hello.poolID ≠ id.poolUID ∨ hello.workerID ≠ id.workerID then return ()
  else
    match ← query .other fun s => s.resolvePoolBySpiffePrefix id.spiffeID with
    | .error _ => return ()
    | .ok pool =>
        let w ← .atomic (.register pool.id id.workerID) fun _ s =>
          s.register pool.id id.workerID thread
        let old ← locally fun _ s => s.add w
        match ← fenceOldGeneration w old with
        | .error _ => teardown w
        | .ok () =>
            match ← send w (.welcome w.gen) with
            | .error _ => teardown w
            | .ok () =>
                ackReconnectWatermark w id.poolUID id.workerID
                setLoop w .waiting

def answerReady (w : ConnRef) : Program Bool :=
  .atomic .other fun _ s =>
    (s.conns.find w.id).map fun c =>
      (c.grantCreditIfIdle.1,
        (s.modifyConn w (fun c => c.grantCreditIfIdle.2) WorkerConn.grantCreditIfIdle_ref).observe
          (.readyAnswered w c.grantCreditIfIdle.1))

/-- Take in a workspace status: an invalid one, or one that cannot be persisted, ends the stream. -/
def handleWorkspaceStatus (w : ConnRef) (status : WorkspaceStatus) : Program Bool := do
  if validateWorkspaceStatus status then
    match ← store (.capacity w status) fun _ s =>
        let (capacity, s) := s.observeWorkspaceCapacity w.poolID status.freeRatio
        (.ok capacity, s) with
    | .error _ => return false
    | .ok capacity =>
        locally (fun _ s => ((), s.applyWorkspaceStatus w capacity.freshCreditGated))
          (.publish w capacity.freshCreditGated)
        return true
  else return false

def handleMessage (w : ConnRef) : WorkerMessage → Program Bool
  | .ready => answerReady w
  | .workspaceStatus status => handleWorkspaceStatus w status
  | .heartbeat => return true
  | .turnEvent te => do
      let _ ← handleTurnEvent w te
      return true
  | .tokenDelta => return true

def serve (w : ConnRef) (msg : WorkerMessage) : Program Unit := do
  if ← handleMessage w msg then setLoop w .waiting else teardown w

/-! ### Assigning turns -/

/-- The run's turn, which `PrepareNode` and `dispatchRun` find or start. -/
def State.prepareTurn (s : State) (runID : RunID) (input : Input) : Except Err Turn × State :=
  match s.turns.find input.turn.id with
  | some turn => if turn.runID = runID then (.ok turn, s) else (.error .notFound, s)
  | none =>
      if input.turn.id = "" ∨ input.turn.runID ≠ runID ∨ input.turn.state ≠ .running then
        (.error .notFound, s)
      else
        match s.turns.insert input.turn with
        | none => (.error .conflict, s)
        | some turns =>
            let nodes := (input.node.bind s.nodes.insert).getD s.nodes
            (.ok input.turn, { s with turns := turns, nodes := nodes })

/-- `assign` and `assignGraph`: whether AssignTurn entered the stream's send, and the error. What
they look up for the assignment's envelope may fail before the row is written. -/
def assign (turn : Turn) (poolID : PoolID) (w : ConnRef) : Program (Bool × Except Err Unit) := do
  match ← query .other fun _ => .ok () with
  | .error err => return (false, .error err)
  | .ok () =>
      let a : Assignment := ⟨turn.id, turn.runID, poolID, w.workerID, w.gen, .active, 0⟩
      match ← store (.create w a) fun input s => s.createAssignmentFor w a input.session with
      | .error err => return (false, .error err)
      | .ok () =>
          match ← send w (.assignTurn turn.id) with
          | .error err =>
              let _ ← fenceAndTerminalize .sendFailed poolID w.workerID w.gen
              return (true, .error err)
          | .ok () => return (true, .ok ())

def dispatchTurn (thread : Nat) (runID : RunID) (turn : Turn) : Program Unit := do
  match ← query .other fun s => s.resolveActiveAssignment turn.id with
  | .ok _ => return ()
  | .error _ =>
      match ← query .other fun s => s.poolForRun runID with
      | .error _ => return ()
      | .ok poolID =>
          match ← locally fun input s => s.reserve poolID turn.id thread input.pick with
          | none => return ()
          | some w =>
              match ← assign turn poolID w with
              | (_, .ok ()) => return ()
              | (deliveryAttempted, .error _) =>
                  locally (fun _ s => ((), s.restore w turn.id deliveryAttempted))
                    (.restore w turn.id deliveryAttempted thread)

/-- `dispatchRun` and `dispatchGraphRun`, from the run's turn on, run by `thread`. -/
def dispatchRun (thread : Nat) (runID : RunID) : Program Unit := do
  match ← store (.prepare runID) fun input s => s.prepareTurn runID input with
  | .error _ => return ()
  | .ok turn => dispatchTurn thread runID turn

/-- `syncWorkspaceCapacityState`: the reconciler's sweep over the durable gates. -/
def syncWorkspaceCapacityState : Program Unit := do
  match ← query .other fun s => .ok s.capacities.rows with
  | .error _ => return ()
  | .ok states => locally (fun _ s => ((), s.syncWorkspaceCapacity states)) (.sync states)

/-! ### The system -/

inductive Request
  | connect (id : Identity) (hello : Hello)
  | workerSends (conn : Nat) (msg : WorkerMessage)
  | receive (conn : Nat)
  /-- The receive loop ends: the stream failed, or the connection was closed. -/
  | close (conn : Nat)
  | cancelTurn (turnID : TurnID)
  | expireLease (conn : Nat)
  | dispatchRun (runID : RunID)
  | syncCapacity
  /-- The manager decides about a pool's storage. -/
  | authorizeStorage (poolID : PoolID) (authorized : Bool)

def State.enqueue (s : State) (w : ConnRef) (msg : WorkerMessage) : State :=
  (s.modifyConn w (fun c => { c with inbox := c.inbox ++ [msg] }) fun _ => rfl).observe
    (.worker w msg)

def State.hold (s : State) (w : ConnRef) (thread : Nat) (rest : List WorkerMessage) : State :=
  s.modifyConn w (fun c => { c with loop := .held thread, inbox := rest }) fun _ => rfl

def startRequest (request : Request) (thread : Nat) (s : State) :
    Option (State × Program Unit) :=
  match request with
  | .connect id hello => some (s, work thread id hello)
  | .workerSends conn msg =>
      match s.conns.find conn with
      | none => none
      | some c => if c.loop = .returned then none else some (s.enqueue c.ref msg, pure ())
  | .receive conn =>
      match s.conns.find conn with
      | none => none
      | some c =>
          match c.loop, c.inbox with
          | .waiting, msg :: rest =>
              some ((s.hold c.ref thread rest).observe (.taken c.ref msg), serve c.ref msg)
          | _, _ => none
  | .close conn =>
      match s.conns.find conn with
      | none => none
      | some c =>
          if c.loop = .waiting then some (s.hold c.ref thread c.inbox, teardown c.ref) else none
  | .cancelTurn turnID => some (s, cancelTurn turnID)
  | .expireLease conn => (s.conns.find conn).map fun c => (s, expireLease c.ref)
  | .dispatchRun runID => some (s, dispatchRun thread runID)
  | .syncCapacity => some (s, syncWorkspaceCapacityState)
  | .authorizeStorage poolID authorized => some ({ s with
      capacities := s.capacities.update (fun r => r.poolID = poolID)
        (fun r => { r with storageAuthorized := authorized }) fun _ => rfl }, pure ())

def restartService (s : State) : State :=
  { s with
    gen := s.maxFencingGeneration
    conns := .empty
    workspaceGated := s.capacities.rows.map fun c => (c.poolID, c.freshCreditGated) }

def service : System Label Input Request State where
  start := startRequest
  restart := restartService

/-- A state before the service has done anything: any runs, steps, nodes, pools and capacities. -/
structure State.Initial (s : State) : Prop where
  assignments : s.assignments = .empty
  turns : s.turns = .empty
  conns : s.conns = .empty
  trace : s.trace = []

end Iterabase.Dispatch
