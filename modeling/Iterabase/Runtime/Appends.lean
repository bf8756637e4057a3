/-
**Concurrent appends to the event log.**

The transactions of three packages append to `runtime.events`: the transitions of the runtime store
(`runtime/store.go`), `PrepareNode` of the work engine (`work/graph.go`), and the streamed events of a
worker, for an active turn and after its end (`dispatch/store.go`). Each runs at read committed,
statement by statement, takes the row locks its own statements take, and numbers its event by
`COALESCE(MAX(seq), 0) + 1` over what it sees.

* `transitionRun`, …, `prepareNode`, `appendTurnEvent`, `appendAfterTerminalEvent` — the transactions.
* `event_numbers_gapless` — **the committed numbers of a run are `1, …, n`.**
-/

import Iterabase.Conc.Numbering
import Iterabase.Dispatch.Types
import Iterabase.Runtime.Store
import Iterabase.Work.Types

namespace Iterabase.Runtime.Appends

open Conc List
open Dispatch (Assignment PoolID WorkerID)
open Work (NodeState)

/-! ### Rows -/

abbrev NodeID := String

/-- A row of `node_executions`, with the columns `PrepareNode` reads here. -/
structure Node where
  id : NodeID
  attemptID : RunID
  model : String
  state : NodeState := .pending

/-- A row of `events`, apart from its run and its number. -/
structure EventRow where
  turnID : Option TurnID
  stepID : Option StepID
  nodeExecutionID : Option NodeID
  kind : EventKind
  payload : Payload

structure Tables where
  runs : Table Run.id := .empty
  steps : Table Step.id := .empty
  turns : Table Turn.id := .empty
  nodes : Table Node.id := .empty
  assignments : Table Assignment.turnID := .empty

/-- What a transaction locks: rows, and entries of the partial unique indexes. -/
inductive Lock
  | run (id : RunID)
  | step (id : StepID)
  | turn (id : TurnID)
  | node (id : NodeID)
  | attempt (id : RunID)
  | assignment (turnID : TurnID)
  /-- `idx_run_steps_one_running`. -/
  | runningStep (runID : RunID)
  /-- `idx_turns_one_active_per_session`. -/
  | activeTurn (sessionID : SessionID)
  deriving DecidableEq

abbrev Database := Db RunID EventRow Lock Tables

abbrev AppendTx := Session RunID EventRow Lock Tables

namespace Tables

variable (d : Tables)

def setRun (id : RunID) (target : RunState) : Tables :=
  { d with
    runs := d.runs.update (fun r => r.id = id) (fun r => { r with state := target }) fun r => .refl r.id }

def setStep (id : StepID) (target : StepState) : Tables :=
  { d with
    steps := d.steps.update (fun st => st.id = id) (fun st => { st with state := target })
      fun st => .refl st.id }

def setTurn (id : TurnID) (target : TurnState) : Tables :=
  { d with
    turns := d.turns.update (fun t => t.id = id) (fun t => { t with state := target }) fun t => .refl t.id }

def setNode (id : NodeID) (target : NodeState) : Tables :=
  { d with
    nodes := d.nodes.update (fun n => n.id = id) (fun n => { n with state := target }) fun _ => rfl }

def advanceWatermark (turnID : TurnID) (seq : Nat) : Tables :=
  { d with
    assignments := d.assignments.update (fun a => a.turnID = turnID)
      (fun a => { a with highestAppliedSequence := seq }) fun _ => rfl }

def insertTurn (turn : Turn) : Tables :=
  { d with turns := (d.turns.insert turn).getD d.turns }

def insertRun (run : Run) : Tables :=
  { d with runs := (d.runs.insert run).getD d.runs }

def insertStep (st : Step) : Tables :=
  { d with steps := (d.steps.insert st).getD d.steps }

def runIn (id : RunID) (allowed : List RunState) : Option Run :=
  (d.runs.find id).filter fun r => r.state ∈ allowed

def stepIn (id : StepID) (allowed : List StepState) : Option Step :=
  (d.steps.find id).filter fun st => st.state ∈ allowed

def otherRunning (st : Step) : Bool :=
  d.steps.rows.any fun other => other.id ≠ st.id ∧ other.runID = st.runID ∧ other.state = .running

def sessionBusy (sessionID : SessionID) : Bool :=
  d.turns.rows.any fun t => t.sessionID = sessionID ∧ (t.state = .pending ∨ t.state = .running)

def nextPendingStep (runID : RunID) : Option Step :=
  ((d.steps.rows.filter fun st => st.runID = runID ∧ st.state = .pending).insertionSort
    fun st st' => st.seq ≤ st'.seq).head?

def activeNode (attemptID : RunID) : Option Node :=
  d.nodes.rows.find? fun n =>
    n.attemptID = attemptID ∧ n.state ∈ [NodeState.pending, .running, .blocked]

/-- The rows an event refers to exist. -/
def refers (runID : RunID) (row : EventRow) : Bool :=
  (d.runs.find runID).isSome ∧ row.turnID.all (fun id => (d.turns.find id).isSome) ∧
    row.stepID.all (fun id => (d.steps.find id).isSome) ∧
    row.nodeExecutionID.all (fun id => (d.nodes.find id).isSome)

end Tables

open Tables Session

/-! ### Statements -/

variable (t : Nat)

/-- The common `INSERT INTO runtime.events`, with its foreign keys. -/
def insertEvent (runID : RunID) (row : EventRow) : AppendTx Unit := do
  need t (fun d => if d.refers runID row then some () else none) fun _ => []
  append t runID row

def appendEventTx (runID : RunID) (turnID : Option TurnID) (stepID : Option StepID)
    (kind : EventKind) (payload : Payload) : AppendTx Unit :=
  insertEvent t runID ⟨turnID, stepID, none, kind, payload⟩

/-- `appendRuntimeEventTx` of the work engine. -/
def appendRuntimeEventTx (runID : RunID) (turnID : TurnID) (nodeID : NodeID)
    (kind : EventKind) (payload : Payload) : AppendTx Unit :=
  insertEvent t runID ⟨nullable turnID, none, nullable nodeID, kind, payload⟩

/-- Refuse where the tables do not allow something. -/
def require (allowed : Tables → Bool) (locks : List Lock) : AppendTx Unit :=
  need t (fun d => if allowed d then some () else none) fun _ => locks

/-- The locks of a change of a step from one state to another. -/
def stepLocks (st : Step) (target : StepState) : List Lock :=
  if st.state = .running ∨ target = .running then [.step st.id, .runningStep st.runID]
  else [.step st.id]

/-! ### The runtime store -/

/-- `CreateRun`: it appends no event. -/
def createRun (id : RunID) (sessionID : SessionID) (steps : List StepInput) :
    AppendTx Unit := do
  start t
  require t (fun d => (d.runs.find id).isNone) [.run id]
  update t (fun _ => true) [] fun d => d.insertRun ⟨id, sessionID, .pending⟩
  steps.forM fun step => do
    require t (fun d => (d.steps.find step.id).isNone ∧
      d.steps.rows.all fun st => st.runID = id → st.seq ≠ step.seq) [.step step.id]
    update t (fun _ => true) [] fun d => d.insertStep ⟨step.id, id, step.seq, .pending⟩
  commit t

def transitionRun (id : RunID) (allowed : List RunState) (target : RunState)
    (kind : EventKind) : AppendTx Unit := do
  start t
  let run ← need t (·.runIn id allowed) fun _ => [.run id]
  update t (fun _ => true) [] (·.setRun id target)
  appendEventTx t run.id none none kind .empty
  commit t

def transitionStep (id : StepID) (allowed : List StepState) (target : StepState)
    (kind : EventKind) : AppendTx Unit := do
  start t
  let st ← need t (·.stepIn id allowed) (stepLocks · target)
  require t (fun d => target = .running → !d.otherRunning st) []
  update t (fun _ => true) [] (·.setStep id target)
  appendEventTx t st.runID none (some st.id) kind .empty
  commit t

/-- `StartTurn`, with the id the database gives the turn. -/
def startTurn (id : TurnID) (runID : RunID) (stepID model : String) : AppendTx Unit := do
  start t
  let run ← need t (·.runs.find runID) fun _ => []
  require t (fun d => !d.sessionBusy run.sessionID ∧ (d.turns.find id).isNone)
    [.activeTurn run.sessionID, .turn id]
  update t (fun _ => true) []
    (·.insertTurn ⟨id, runID, nullable stepID, run.sessionID, nullable model, .running⟩)
  appendEventTx t runID (some id) (nullable stepID) .turnStarted (.model model)
  commit t

/-- The running turn becomes what its reason says, with its `settled` event. -/
def settle (id : TurnID) (reason : Reason) (messageCount : Nat) : AppendTx Turn := do
  let turn ← need t (fun d => (d.turns.find id).filter fun turn => turn.state = .running)
    fun turn => [.turn id, .activeTurn turn.sessionID]
  update t (fun _ => true) [] (·.setTurn id (turnStateForReason reason))
  appendEventTx t turn.runID (some turn.id) turn.stepID .settled (.settled reason messageCount)
  return turn

def settleTurn (id : TurnID) (reason : Reason) (messageCount : Nat) : AppendTx Unit := do
  start t
  let _ ← settle t id reason messageCount
  commit t

def settleStep (runID : RunID) (stepID : StepID) (reason : Reason) : AppendTx Unit := do
  let (target, kind) : StepState × EventKind :=
    if reason = .completed then (.succeeded, .stepSucceeded) else (.failed, .stepFailed)
  update t (fun d => (d.stepIn stepID [.running]).isSome) [.step stepID, .runningStep runID]
    (·.setStep stepID target)
  appendEventTx t runID none (some stepID) kind .empty

def endRun (runID : RunID) (target : RunState) (kind : EventKind) : AppendTx Unit := do
  update t (fun d => (d.runIn runID [.running, .awaitingApproval]).isSome) [.run runID]
    (·.setRun runID target)
  appendEventTx t runID none none kind .empty

def advanceRunAfterSettle (runID : RunID) : Reason → AppendTx Unit
  | .aborted => endRun t runID .aborted .runAborted
  | .failed => endRun t runID .failed .runFailed
  | .completed => do
      match ← need t (fun d => some (d.nextPendingStep runID)) fun _ => [] with
      | none =>
          update t (fun d => (d.runIn runID [.running]).isSome) [.run runID]
            (·.setRun runID .succeeded)
          appendEventTx t runID none none .runSucceeded .empty
      | some st =>
          require t (fun d => (d.stepIn st.id [.pending]).isSome → !d.otherRunning st) []
          update t (fun d => (d.stepIn st.id [.pending]).isSome)
            [.step st.id, .runningStep runID] (·.setStep st.id .running)
          appendEventTx t runID none (some st.id) .stepStarted .empty

def settleTurnAndAdvance (id : TurnID) (reason : Reason) : AppendTx Unit := do
  start t
  let turn ← settle t id reason 0
  match turn.stepID with
  | none => pure ()
  | some stepID => if stepID = "" then pure () else settleStep t turn.runID stepID reason
  advanceRunAfterSettle t turn.runID reason
  commit t

def appendEvent (runID : RunID) (turnID stepID kind : String) : AppendTx Unit := do
  start t
  appendEventTx t runID (nullable turnID) (nullable stepID) (.streamed kind) .empty
  commit t

/-! ### The work engine -/

/-- `PrepareNode`, with the id the database gives the turn. `waits`: what the checks of a re-entry and
of a human gate find in other tables. -/
def prepareNode (attemptID : RunID) (turnID : TurnID) (waits : Bool) : AppendTx Unit := do
  start t
  let node ← need t (·.activeNode attemptID) fun node => [.node node.id]
  if node.state = .blocked then commit t
  else
    let run ← need t (·.runIn attemptID [.pending, .running]) fun _ =>
      [.attempt attemptID, .run attemptID]
    if waits ∧ node.state = .pending then
      update t (fun _ => true) [] (·.setNode node.id .blocked)
      update t (fun _ => true) [] (·.setRun attemptID .awaitingApproval)
      commit t
    else if waits ∨ node.state = .running then commit t
    else
      require t (fun _ => node.model ≠ "") []
      require t (fun d => !d.sessionBusy run.sessionID ∧ (d.turns.find turnID).isNone)
        [.activeTurn run.sessionID, .turn turnID]
      update t (fun _ => true) []
        (·.insertTurn ⟨turnID, attemptID, none, run.sessionID, some node.model, .running⟩)
      update t (fun _ => true) [] (·.setNode node.id .running)
      update t (fun d => (d.runIn attemptID [.pending, .awaitingApproval]).isSome) []
        (·.setRun attemptID .running)
      appendRuntimeEventTx t attemptID turnID node.id .turnStarted (.model node.model)
      commit t

/-! ### Streamed events -/

/-- The end of both appends of a worker's event: only the next sequence is taken. -/
def takeEvent (a : Assignment) (workerSeq : Nat) (kind : String) : AppendTx Unit := do
  if workerSeq ≤ a.highestAppliedSequence then rollback t
  else if workerSeq ≠ a.highestAppliedSequence + 1 then rollback t
  else
    insertEvent t a.runID ⟨some a.turnID, none, none, .streamed kind, .empty⟩
    update t (fun _ => true) [] (·.advanceWatermark a.turnID workerSeq)
    commit t

def appendTurnEvent (turnID : TurnID) (workerSeq : Nat) (kind : String) : AppendTx Unit := do
  start t
  let a ← need t (fun d => (d.assignments.find turnID).filter fun a => a.state = .active)
    fun a => [.assignment a.turnID]
  takeEvent t a workerSeq kind

def appendAfterTerminalEvent (turnID : TurnID) (workerSeq : Nat) (kind : String)
    (poolID : PoolID) (workerID : WorkerID) : AppendTx Unit := do
  start t
  let a ← need t (fun d => (d.assignments.find turnID).filter fun a =>
    a.poolID = poolID ∧ a.workerID = workerID) fun a => [.assignment a.turnID]
  takeEvent t a workerSeq kind

/-! ### The system -/

inductive Request
  | createRun (id : RunID) (sessionID : SessionID) (steps : List StepInput)
  | transitionRun (id : RunID) (allowed : List RunState) (target : RunState) (kind : EventKind)
  | transitionStep (id : StepID) (allowed : List StepState) (target : StepState) (kind : EventKind)
  | startTurn (id : TurnID) (runID : RunID) (stepID model : String)
  | settleTurn (id : TurnID) (reason : Reason) (messageCount : Nat)
  | settleTurnAndAdvance (id : TurnID) (reason : Reason)
  | appendEvent (runID : RunID) (turnID stepID kind : String)
  | prepareNode (attemptID : RunID) (turnID : TurnID) (waits : Bool)
  | appendTurnEvent (turnID : TurnID) (workerSeq : Nat) (kind : String)
  | appendAfterTerminalEvent (turnID : TurnID) (workerSeq : Nat) (kind : String) (poolID : PoolID)
      (workerID : WorkerID)

def Request.program : Request → AppendTx Unit
  | .createRun id sessionID steps => Appends.createRun t id sessionID steps
  | .transitionRun id allowed target kind => Appends.transitionRun t id allowed target kind
  | .transitionStep id allowed target kind => Appends.transitionStep t id allowed target kind
  | .startTurn id runID stepID model => Appends.startTurn t id runID stepID model
  | .settleTurn id reason messageCount => Appends.settleTurn t id reason messageCount
  | .settleTurnAndAdvance id reason => Appends.settleTurnAndAdvance t id reason
  | .appendEvent runID turnID stepID kind => Appends.appendEvent t runID turnID stepID kind
  | .prepareNode attemptID turnID waits => Appends.prepareNode t attemptID turnID waits
  | .appendTurnEvent turnID workerSeq kind => Appends.appendTurnEvent t turnID workerSeq kind
  | .appendAfterTerminalEvent turnID workerSeq kind poolID workerID =>
      Appends.appendAfterTerminalEvent t turnID workerSeq kind poolID workerID

/-- Calls in any number and order. A restart rolls back what is open. -/
def system : System Unit Bool Request Database where
  start request t db := some (db, (request.program t).run >>= fun _ => .done ())
  restart db := { db with opened := .empty }

/-! ### Every action is a statement of its transaction -/

section Statements

variable {t : Nat}

theorem insertEvent_of (runID : RunID) (row : EventRow) : Of t (insertEvent t runID row) :=
  .bind .need fun _ => .append

theorem require_of (allowed : Tables → Bool) (locks : List Lock) :
    Of t (require t allowed locks) := .need

theorem createRun_of (id : RunID) (sessionID : SessionID) (steps : List StepInput) :
    Of t (createRun t id sessionID steps) := by
  refine .bind .start fun _ => .bind (require_of _ _) fun _ => .bind .update fun _ => .bind ?_
    fun _ => .commit
  induction steps with
  | nil => exact .pure ()
  | cons step rest ih =>
    exact .bind (.bind (require_of _ _) fun _ => .update) fun _ => ih

theorem transitionRun_of (id : RunID) (allowed : List RunState) (target : RunState)
    (kind : EventKind) : Of t (transitionRun t id allowed target kind) :=
  .bind .start fun _ => .bind .need fun _ => .bind .update fun _ => .bind (insertEvent_of _ _)
    fun _ => .commit

theorem transitionStep_of (id : StepID) (allowed : List StepState) (target : StepState)
    (kind : EventKind) : Of t (transitionStep t id allowed target kind) :=
  .bind .start fun _ => .bind .need fun _ => .bind (require_of _ _) fun _ => .bind .update
    fun _ => .bind (insertEvent_of _ _) fun _ => .commit

theorem startTurn_of (id : TurnID) (runID : RunID) (stepID model : String) :
    Of t (startTurn t id runID stepID model) :=
  .bind .start fun _ => .bind .need fun _ => .bind (require_of _ _) fun _ => .bind .update
    fun _ => .bind (insertEvent_of _ _) fun _ => .commit

theorem settle_of (id : TurnID) (reason : Reason) (messageCount : Nat) :
    Of t (settle t id reason messageCount) :=
  .bind .need fun _ => .bind .update fun _ => .bind (insertEvent_of _ _) fun _ => .pure _

theorem advanceRunAfterSettle_of (runID : RunID) (reason : Reason) :
    Of t (advanceRunAfterSettle t runID reason) := by
  cases reason with
  | aborted | failed => exact .bind .update fun _ => insertEvent_of _ _
  | completed =>
    refine .bind .need fun following => ?_
    cases following with
    | none => exact .bind .update fun _ => insertEvent_of _ _
    | some st => exact .bind (require_of _ _) fun _ => .bind .update fun _ => insertEvent_of _ _

theorem settleTurnAndAdvance_of (id : TurnID) (reason : Reason) :
    Of t (settleTurnAndAdvance t id reason) := by
  refine .bind .start fun _ => .bind (settle_of id reason 0) fun turn => ?_
  have rest : Of t (advanceRunAfterSettle t turn.runID reason >>= fun _ => commit t) :=
    .bind (advanceRunAfterSettle_of _ _) fun _ => .commit
  split
  · exact rest
  split
  · exact rest
  · exact .bind (.bind .update fun _ => insertEvent_of _ _) fun _ => rest

theorem prepareNode_of (attemptID : RunID) (turnID : TurnID) (waits : Bool) :
    Of t (prepareNode t attemptID turnID waits) := by
  refine .bind .start fun _ => .bind .need fun node => ?_
  split
  · exact .commit
  refine .bind .need fun run => ?_
  split
  · exact .bind .update fun _ => .bind .update fun _ => .commit
  split
  · exact .commit
  · exact .bind (require_of _ _) fun _ => .bind (require_of _ _) fun _ => .bind .update fun _ =>
      .bind .update fun _ => .bind .update fun _ => .bind (insertEvent_of _ _) fun _ => .commit

theorem takeEvent_of (a : Assignment) (workerSeq : Nat) (kind : String) :
    Of t (takeEvent t a workerSeq kind) := by
  unfold takeEvent
  split
  · exact .rollback
  split
  · exact .rollback
  · exact .bind (insertEvent_of _ _) fun _ => .bind .update fun _ => .commit

theorem program_of (request : Request) : Of t (request.program t) := by
  cases request with
  | createRun id sessionID steps => exact createRun_of id sessionID steps
  | transitionRun id allowed target kind => exact transitionRun_of id allowed target kind
  | transitionStep id allowed target kind => exact transitionStep_of id allowed target kind
  | startTurn id runID stepID model => exact startTurn_of id runID stepID model
  | settleTurn id reason messageCount =>
    exact .bind .start fun _ => .bind (settle_of id reason messageCount) fun _ => .commit
  | settleTurnAndAdvance id reason => exact settleTurnAndAdvance_of id reason
  | appendEvent runID turnID stepID kind =>
    exact .bind .start fun _ => .bind (insertEvent_of _ _) fun _ => .commit
  | prepareNode attemptID turnID waits => exact prepareNode_of attemptID turnID waits
  | appendTurnEvent _ workerSeq kind | appendAfterTerminalEvent _ workerSeq kind =>
    exact .bind .start fun _ => .bind .need fun a => takeEvent_of a workerSeq kind

end Statements

theorem system_appending : system.Appending where
  start started := by
    cases started
    exact ⟨rfl, .bind (program_of _) fun _ => trivial⟩
  restart _ := rfl

/-! ### The log -/

/-- The committed numbers of a run, in the order of their commits. -/
def seqs (db : Database) (runID : RunID) : List Nat := (numbers runID db.rows).reverse

/-- **The committed numbers of a run are `1, …, n`**, and what is committed changes only by a commit, which
adds the events and the writes of its own transaction. One that is rolled back has changed nothing. -/
theorem event_numbers_gapless (tables : Tables) {c : Config Unit Bool Database}
    (reached : system.Reaches .free { data := tables } c) :
    (∀ runID, seqs c.shared runID = List.range' 1 (seqs c.shared runID).length) ∧
      ∀ m c', system.next c m = some c' →
        (c'.shared.rows = c.shared.rows ∧ c'.shared.data = c.shared.data) ∨
        ∃ t input o, m = .run t input ∧ c.shared.opened.find t = some o ∧
          c'.shared.rows = o.inserted ++ c.shared.rows ∧ c'.shared.data = o.writes c.shared.data := by
  refine ⟨fun runID => ?_, fun m c' moved => system_appending.effects reached moved⟩
  have committed := (system_appending.gapless reached).committed runID
  unfold seqs
  rw [length_reverse]
  calc (numbers runID c.shared.rows).reverse
      = (List.range' 1 (count runID c.shared.rows)).reverse.reverse := congrArg reverse committed
    _ = List.range' 1 (numbers runID c.shared.rows).length := reverse_reverse _

def streaming : Tables where
  runs := ⟨[⟨"r", "s", .running⟩], by decide⟩
  turns := ⟨[⟨"t", "r", none, "s", none, .running⟩], by decide⟩
  assignments := ⟨[⟨"t", "r", "p", "w", 1, .active, 0⟩], by decide⟩

/-- A streamed event and a transition of the run take the same number. The event commits first, the
transition is rolled back, and its second try takes the next number. -/
def collision : List (Move Bool Request) :=
  [.start (.appendTurnEvent "t" 1 "assistant_message"),
    .start (.transitionRun "r" [.running] .awaitingApproval .runAwaitingApproval)] ++
  replicate 4 (.run 0 false) ++ replicate 5 (.run 1 false) ++
  replicate 3 (.run 0 false) ++ [.run 1 false] ++
  [.start (.transitionRun "r" [.running] .awaitingApproval .runAwaitingApproval)] ++
  replicate 7 (.run 2 false)

theorem event_numbers_gapless_collision : ∃ c, system.Reaches .free { data := streaming } c ∧
    (seqs c.shared "r" = [1, 2] ∧ (c.shared.data.runs.find "r").map Run.state = some .awaitingApproval) ∧
    ∀ runID, seqs c.shared runID = List.range' 1 (seqs c.shared runID).length := by
  exact reach_of_replay_and collision (by decide +kernel) fun reached _ =>
    (event_numbers_gapless streaming reached).1

end Iterabase.Runtime.Appends
