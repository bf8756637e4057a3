/-
**Durable dispatch — worker connections and the one-credit protocol.**

The critical sections of `workerpool.go`: what each does to one `workerConn` under its lock, and what
the pool's map does to the connections it holds.

* `tryConsumeCredit`, `restoreCreditAfterPreDeliveryFailure`, `releaseTurn`, `grantCreditIfIdle`,
  `applyWorkspaceStatus` — one connection.
* `State.register`, `State.add`, `State.remove`, `State.pickIdle`, `State.activeConn`,
  `State.get` — the map. A connection is in the map when it is `registered`.
-/

import Iterabase.Dispatch.Store

namespace Iterabase.Dispatch

open Conc

namespace WorkerConn

variable (c : WorkerConn)

def tryConsumeCredit (turnID : TurnID) : Option WorkerConn :=
  if c.closed ∨ !c.idle ∨ !c.creditAdvertised ∨ c.activeTurn ≠ "" then none
  else some { c with idle := false, creditAdvertised := false, activeTurn := turnID }

/-- A connection whose credit the dispatcher `thread` consumes. -/
def consuming (turnID : TurnID) (thread : Nat) : WorkerConn :=
  { (c.tryConsumeCredit turnID).getD c with reservedBy := some thread }

theorem consuming_ref (turnID : TurnID) (thread : Nat) (c : WorkerConn) :
    (c.consuming turnID thread).ref = c.ref := by
  unfold consuming tryConsumeCredit
  split <;> rfl

def restoreCreditAfterPreDeliveryFailure (turnID : TurnID) : WorkerConn :=
  if c.closed ∨ c.activeTurn ≠ turnID then c
  else { c with activeTurn := "", creditAdvertised := true,
                idle := c.workspaceObserved && !c.workspaceGated }

theorem restoreCredit_ref (turnID : TurnID) :
    (c.restoreCreditAfterPreDeliveryFailure turnID).ref = c.ref := by
  unfold restoreCreditAfterPreDeliveryFailure
  split <;> rfl

def releaseTurn : WorkerConn := { c with activeTurn := "" }

def releaseAssignmentFailure (turnID : TurnID) (deliveryAttempted : Bool) :
    WorkerConn :=
  if deliveryAttempted then c.releaseTurn else c.restoreCreditAfterPreDeliveryFailure turnID

theorem releaseAssignmentFailure_ref (turnID : TurnID) (attempted : Bool) :
    (c.releaseAssignmentFailure turnID attempted).ref = c.ref := by
  unfold releaseAssignmentFailure
  split
  · rfl
  · exact restoreCredit_ref c turnID

/-- `grantCreditIfIdle`: whether the Ready is valid, and the connection after it. -/
def grantCreditIfIdle : Bool × WorkerConn :=
  if c.closed ∨ c.activeTurn ≠ "" ∨ !c.workspaceObserved then (false, c)
  else (true, { c with creditAdvertised := true, idle := !c.workspaceGated })

theorem grantCreditIfIdle_ref : c.grantCreditIfIdle.2.ref = c.ref := by
  unfold grantCreditIfIdle
  split <;> rfl

def applyWorkspaceStatus (gated observedByWorker : Bool) : WorkerConn :=
  { c with
    workspaceObserved := c.workspaceObserved || observedByWorker
    workspaceGated := gated
    idle := if c.activeTurn = "" then !gated && c.creditAdvertised else c.idle }

def markClosed : WorkerConn := { c with closed := true }

end WorkerConn

open WorkerConn

namespace State

variable (s : State)

def modifyConns (p : WorkerConn → Bool) (f : WorkerConn → WorkerConn)
    (keeps : ∀ c, (f c).ref = c.ref) : State :=
  { s with conns := s.conns.update p f fun c => congrArg ConnRef.id (keeps c) }

def modifyConn (w : ConnRef) (f : WorkerConn → WorkerConn)
    (keeps : ∀ c, (f c).ref = c.ref) : State :=
  s.modifyConns (fun c => c.id = w.id) f keeps

/-- The map holds this connection under the key `(poolID, workerID)`. -/
def underKey (poolID : PoolID) (workerID : WorkerID) (c : WorkerConn) : Bool :=
  c.registered ∧ c.ref.poolID = poolID ∧ c.ref.workerID = workerID

def get (poolID : PoolID) (workerID : WorkerID) : Option ConnRef :=
  (s.conns.rows.find? (underKey poolID workerID)).map ref

/-- Take the next generation and make a connection whose handler runs as `thread`. The pool's map
does not hold it yet. -/
def register (poolID : PoolID) (workerID : WorkerID) (thread : Nat) :
    Option (ConnRef × State) :=
  let w : ConnRef := ⟨s.nextConn, poolID, workerID, s.gen + 1⟩
  (s.conns.insert { ref := w, loop := .held thread }).map fun conns =>
    (w, { s with conns := conns, gen := s.gen + 1, nextConn := s.nextConn + 1 })

/-- The pool's workspace gate; a pool never observed is gated. -/
def poolGate (poolID : PoolID) : Bool :=
  ((s.workspaceGated.find? fun g => g.1 = poolID).map Prod.snd).getD true

/-- `add`: replace the connection under the key, and return it. -/
def add (w : ConnRef) : Option ConnRef × State :=
  let gate := s.poolGate w.poolID
  (s.get w.poolID w.workerID,
    s.modifyConns (fun c => underKey w.poolID w.workerID c || c.id = w.id)
      (fun c => if c.id = w.id then { c with registered := true, workspaceGated := gate }
                else { c with registered := false })
      fun c => by split <;> rfl)

/-- `remove`: a connection that was replaced is no longer in the map. -/
def remove (w : ConnRef) : State :=
  s.modifyConn w (fun c => { c with registered := false }) fun _ => rfl

/-- `pickIdle`: some connection of the pool whose credit can be consumed, by the dispatcher
`thread`. -/
def pickIdle (poolID : PoolID) (turnID : TurnID) (thread pick : Nat) :
    Option ConnRef × State :=
  let idle := s.conns.rows.filter fun c =>
    c.registered && c.ref.poolID = poolID && (c.tryConsumeCredit turnID).isSome
  match idle[pick % idle.length]? with
  | none => (none, s)
  | some c => (some c.ref, s.modifyConn c.ref (·.consuming turnID thread)
      (consuming_ref turnID thread))

def reserve (poolID : PoolID) (turnID : TurnID) (thread pick : Nat) :
    Option ConnRef × State :=
  match s.pickIdle poolID turnID thread pick with
  | (none, s') => (none, s')
  | (some w, s') => (some w, s'.observe (.picked w turnID thread (s.conns.find w.id)))

def restore (w : ConnRef) (turnID : TurnID) (deliveryAttempted : Bool) : State :=
  (s.modifyConn w (fun c => c.releaseAssignmentFailure turnID deliveryAttempted)
    fun c => releaseAssignmentFailure_ref c _ _).observe
    (.restored w turnID deliveryAttempted (s.conns.find w.id))

/-- `activeConn`: some open connection that holds the turn. -/
def activeConn (turnID : TurnID) (pick : Nat) : Option ConnRef :=
  let holding := s.conns.rows.filter fun c => c.registered ∧ c.activeTurn = turnID ∧ !c.closed
  (holding[pick % holding.length]?).map ref

def reservation (w : ConnRef) : TurnID :=
  ((s.conns.find w.id).map activeTurn).getD ""

/-- `releaseTurn` at the end of `finishTurnOutcome` of `a`. -/
def releaseFor (w : ConnRef) (a : Assignment) : State :=
  (s.modifyConn w releaseTurn fun _ => rfl).observe (.released w a (s.reservation w))

/-- `CreateAssignment` of a row for the connection `w`. -/
def createAssignmentFor (w : ConnRef) (a : Assignment) (refused : Option Err) :
    Except Err Unit × State :=
  match s.createAssignment a refused with
  | (.error err, s') => (.error err, s')
  | (.ok (), s') =>
      (.ok (), s'.observe (.holds w a.turnID ((s.conns.find w.id).bind reservedBy)))

/-- `syncWorkspaceCapacity`: the pool's map becomes what was read of the durable rows. -/
def syncWorkspaceCapacity (states : List WorkspaceCapacityState) : State :=
  { s with workspaceGated := states.map fun c => (c.poolID, c.freshCreditGated) }

/-- `applyWorkspaceStatus` of the pool: the durable decision reaches every worker of the pool, and
only the source has observed it. -/
def applyWorkspaceStatus (source : ConnRef) (gated : Bool) : State :=
  { s with workspaceGated := (source.poolID, gated) ::
             s.workspaceGated.filter fun g => g.1 ≠ source.poolID }.modifyConns
    (fun c => c.registered ∧ c.ref.poolID = source.poolID)
    (fun c => c.applyWorkspaceStatus gated (c.id = source.id)) fun _ => rfl

end State

def validateWorkspaceStatus (status : WorkspaceStatus) : Bool :=
  let ratio := status.freeRatio
  let computed := (status.freeBytes : Rat) / status.capacityBytes
  if status.capacityBytes = 0 ∨ status.capacityBytes < status.freeBytes then false
  else if ratio < 0 ∨ 1 < ratio ∨ 1 / 1000000 < ratio - computed ∨
      1 / 1000000 < computed - ratio then false
  else if status.warning ≠ decide (ratio < 1 / 4) then false
  else if ratio ≤ 1 / 5 ∧ !status.creditGated then false
  else if 1 / 4 ≤ ratio ∧ status.creditGated then false
  else true

end Iterabase.Dispatch
