/-
**Durable dispatch — the actions of each function.**

A property of programs that a sequence has when its parts have it holds of a function if it holds of a
dozen kinds of action.

* `Reading P`, `Inner P`, `Plain P`, `Losing P`, `Ending P`, `Settling P`, `Background P` — `P` is such a
  property, and holds of the actions that any thread may take: those that read, with the release of a
  turn, with messages, with the end of a turn or the transactions it consists of, with all of them.
* one lemma per function of the service: `P` holds of it.
-/

import Iterabase.Dispatch.Work

namespace Iterabase.Dispatch

open Conc

variable {w : ConnRef} {te : TurnEvent} {runID : RunID}

/-! ### The actions by name -/

abbrev appendTx (w : ConnRef) (te : TurnEvent) (kind : RuntimeEvent) : Program (Except Err Bool) :=
  store (.append w te) fun _ s => s.appendTurnEvent w te kind

abbrev auditTx (w : ConnRef) (te : TurnEvent) (kind : RuntimeEvent) : Program (Except Err Bool) :=
  store (.audit w te) fun _ s => s.appendAfterTerminalEvent w te kind

abbrev recordTx (te : TurnEvent) (report : CompletionReport) : Program (Except Err Unit) :=
  store (.record te) fun input s => s.recordCompletionReport te report input

abbrev createTx (w : ConnRef) (a : Assignment) : Program (Except Err Unit) :=
  store (.create w a) fun input s => s.createAssignmentFor w a input.session

abbrev reconnectTx (w : ConnRef) : Program (Except Err Assignment) :=
  store (.reconnectFence w) fun input s =>
    ((s.fenceWorkerGeneration w.poolID w.workerID input.pick).1,
      (s.fenceWorkerGeneration w.poolID w.workerID input.pick).2.observe (.fencedFor w))

abbrev reserving (poolID : PoolID) (turnID : TurnID) (thread : Nat) : Program (Option ConnRef) :=
  locally fun input s => s.reserve poolID turnID thread input.pick

abbrev restoring (w : ConnRef) (turnID : TurnID) (attempted : Bool) (thread : Nat) : Program Unit :=
  locally (fun _ s => ((), s.restore w turnID attempted)) (.restore w turnID attempted thread)

abbrev releasing (w : ConnRef) (a : Assignment) : Program Unit :=
  locally (fun _ s => ((), s.releaseFor w a)) (.release w a)

abbrev removing (w : ConnRef) : Program Unit := locally fun _ s => ((), s.remove w)

abbrev publishing (w : ConnRef) (gated : Bool) : Program Unit :=
  locally (fun _ s => ((), s.applyWorkspaceStatus w gated)) (.publish w gated)

abbrev syncing (states : List WorkspaceCapacityState) : Program Unit :=
  locally (fun _ s => ((), s.syncWorkspaceCapacity states)) (.sync states)

/-! ### Properties of programs -/

abbrev ActionProp := (γ : Type) → Label → (Input → State → Option (γ × State)) → Prop

abbrev ProgramProp := ∀ {α : Type}, Program α → Prop

/-- `P` holds of a sequence whose parts it holds of. -/
structure Sequential (P : ProgramProp) : Prop where
  done : ∀ {α : Type} (value : α), P (.done value)
  bind : ∀ {α β : Type} {p : Program α} {f : α → Program β}, P p → (∀ value, P (f value)) →
    P (p >>= f)

abbrev Every (A : ActionProp) : ProgramProp := fun p => p.All A

theorem every_sequential (A : ActionProp) : Sequential (Every A) := ⟨.done, .bind⟩

/-- `P` holds of the actions that only read or close a connection. -/
structure Reading (P : ProgramProp) : Prop extends Sequential P where
  query : ∀ {α : Type} {label : Label} {read : State → Except Err α}, P (query label read)
  read : ∀ {α : Type} {f : Input → State → α}, P (locally fun input s => (f input s, s))
  markClosed : ∀ {w : ConnRef}, P (markClosed w)

/-- `P` also holds of the release of a connection's turn. -/
structure Inner (P : ProgramProp) : Prop extends Reading P where
  releaseTurn : ∀ {w : ConnRef} {a : Assignment},
    P (releasing w a)

/-- `P` also holds of the messages that do not speak for a connection's handler. -/
structure Plain (P : ProgramProp) : Prop extends Inner P where
  send : ∀ {w : ConnRef} {msg : ControlMessage}, (∀ gen, msg ≠ .welcome gen) → P (send w msg)

/-- `P` also holds of the end of a turn whose worker is lost. -/
structure Losing (P : ProgramProp) : Prop extends Reading P where
  lose : ∀ {cause : FenceCause} {poolID : PoolID} {workerID : WorkerID} {gen : Nat},
    P (fenceAndTerminalize cause poolID workerID gen)

/-- `P` holds of the transactions that end a turn. -/
structure Ending (P : ProgramProp) : Prop extends Reading P where
  settle : ∀ {isGraph : Bool} {turnID : TurnID} {reason : Reason},
    P (store (.settle turnID reason) fun input s =>
      s.settle isGraph turnID reason input.advance)
  terminalize : ∀ {turnID : TurnID},
    P (store .other fun _ s => (.ok (), s.terminalizeAssignment turnID) :
      Program (Except Err Unit))
  fence : ∀ {cause : FenceCause} {poolID : PoolID} {workerID : WorkerID} {gen : Nat},
    P (store (.fence cause poolID workerID gen) fun input s =>
      s.fenceWorkerGenerationIf poolID workerID gen input.pick)

/-- `P` holds of the actions that end a turn and release its connection. -/
structure Settling (P : ProgramProp) : Prop extends Inner P, Ending P

/-- `P` holds of the actions that do not speak for a connection's handler. -/
structure Background (P : ProgramProp) : Prop extends Plain P, Settling P

namespace Reading

variable {P : ProgramProp} (reading : Reading P)

include reading

theorem ackReconnectWatermark (w : ConnRef) (poolUID : String) (workerID : WorkerID)
    (acks : ∀ turnID n, P (send w (.eventAck turnID n))) :
    P (ackReconnectWatermark w poolUID workerID) := by
  refine reading.bind reading.query fun answer => ?_
  split
  · exact reading.done _
  · exact reading.bind (acks _ _) fun _ => reading.done _

theorem closeOld (old : Option ConnRef) :
    P (match old with
      | none => pure ()
      | some o => Dispatch.markClosed o : Program Unit) := by
  split
  · exact reading.done _
  · exact reading.markClosed

end Reading

namespace Inner

variable {P : ProgramProp} (inner : Inner P)

include inner

theorem finishTurnOutcome (a : Assignment) (runState : Option RunState)
    (ends : ∀ w, P (send w (.sessionEnd a.runID))) : P (finishTurnOutcome a runState) := by
  refine inner.bind inner.read fun found => ?_
  split
  · exact inner.done _
  refine inner.bind inner.releaseTurn fun _ => ?_
  split
  · refine inner.bind inner.query fun answer => ?_
    split
    · exact inner.done _
    · exact inner.bind (ends _) fun _ => inner.done _
  · exact inner.done _

theorem ackAndFinish (a : Assignment) (runState : Option RunState) (ack : P (ack w te))
    (ends : ∀ w, P (send w (.sessionEnd a.runID))) : P (ackAndFinish w te a runState) := by
  refine inner.bind ack fun answer => ?_
  split
  · exact inner.done _
  refine inner.bind ?_ fun _ => inner.done _
  split
  · exact inner.finishTurnOutcome _ _ ends
  · exact inner.done _

end Inner

variable {P : ProgramProp}

theorem Plain.ends (plain : Plain P) (w : ConnRef) : P (Dispatch.send w (.sessionEnd runID)) :=
  plain.send nofun

theorem Plain.acks (plain : Plain P) (turnID : TurnID) (n : Nat) :
    P (Dispatch.send w (.eventAck turnID n)) :=
  plain.send nofun

theorem Plain.aborts (plain : Plain P) {turnID : TurnID} (w : ConnRef) :
    P (Dispatch.send w (.abortTurn turnID)) :=
  plain.send nofun

theorem Plain.delivers (plain : Plain P) (turnID : TurnID) (w : ConnRef) :
    P (Dispatch.send w (.assignTurn turnID)) :=
  plain.send nofun

namespace Losing

variable {P : ProgramProp} (losing : Losing P)

include losing

theorem handleWorkerLoss (w : ConnRef) : P (handleWorkerLoss w) := by
  refine losing.bind losing.read fun turn => ?_
  split
  · exact losing.done _
  · exact losing.bind losing.lose fun _ => losing.done _

theorem expireLease (w : ConnRef) : P (expireLease w) := by
  refine losing.bind losing.read fun turn => ?_
  split
  · exact losing.done _
  refine losing.bind losing.lose fun fenced => ?_
  split
  · exact losing.markClosed
  · exact losing.done _

end Losing

namespace Ending

variable {P : ProgramProp} (ending : Ending P)

include ending

theorem commitTurnTerminal (a : Assignment) (reason : Reason) :
    P (commitTurnTerminal a reason) := by
  refine ending.bind ending.query fun answer => ?_
  cases answer with
  | error err => exact ending.done _
  | ok isGraph =>
    refine ending.bind ending.settle fun settled => ?_
    split
    · refine ending.bind ending.terminalize fun answer => ?_
      split <;> exact ending.done _
    · refine ending.bind ending.terminalize fun answer => ?_
      split <;> exact ending.done _
    · exact ending.done _

theorem projectOutcome (a : Assignment) (te : TurnEvent) : P (projectOutcome a te) := by
  unfold Dispatch.projectOutcome terminalizeTurnOutcome
  split
  · exact ending.done _
  · exact ending.commitTurnTerminal _ _

theorem losing : Losing P where
  toReading := ending.toReading
  lose := by
    intro cause poolID workerID gen
    refine ending.bind ending.fence fun answer => ?_
    split
    · exact ending.done _
    · exact ending.bind (ending.commitTurnTerminal _ _) fun _ => ending.done _

theorem cancelTurn (turnID : TurnID) (aborts : ∀ w, P (send w (.abortTurn turnID))) :
    P (cancelTurn turnID) := by
  refine ending.bind ending.query fun answer => ?_
  split
  · exact ending.done _
  refine ending.bind (ending.bind ending.read fun found => ?_) fun _ => ?_
  · split
    · exact ending.done _
    · exact ending.bind (aborts _) fun _ => ending.done _
  · refine ending.bind ending.fence fun answer => ?_
    split
    · exact ending.done _
    · exact ending.bind (ending.commitTurnTerminal _ _) fun _ => ending.done _

theorem fenceOldGeneration (old : Option ConnRef)
    (fence : P (reconnectTx w)) :
    P (fenceOldGeneration w old) := by
  refine ending.bind fence fun answer => ?_
  split
  · refine ending.bind (ending.commitTurnTerminal _ _) fun answer => ?_
    split <;> exact ending.bind (ending.closeOld old) fun _ => ending.done _
  · exact ending.bind (ending.closeOld old) fun _ => ending.done _
  · exact ending.bind (ending.closeOld old) fun _ => ending.done _

end Ending

variable {A : ActionProp}

theorem Ending.mono {A' : ActionProp} (ending : Ending (Every A))
    (weaker : ∀ {γ label run}, A γ label run → A' γ label run) : Ending (Every A') where
  toSequential := every_sequential A'
  query := ending.query.mono weaker
  read := ending.read.mono weaker
  markClosed := ending.markClosed.mono weaker
  settle := ending.settle.mono weaker
  terminalize := ending.terminalize.mono weaker
  fence := ending.fence.mono weaker

theorem projectCompletion_all
    (record : ∀ report, (recordTx te report).All A) : (projectCompletion te).All A := by
  unfold projectCompletion
  split
  · exact .done _
  refine .bind (record _) fun answer => ?_
  split
  · exact .done _
  · split <;> exact .done _

theorem appendAfterTerminal_all
    (audit : ∀ kind, (auditTx w te kind).All A) :
    (appendAfterTerminal w te).All A := by
  unfold appendAfterTerminal
  split
  · exact .done _
  · refine .bind (audit _) fun answer => ?_
    split <;> exact .done _

theorem handleTurnEvent_parts
    (query : (query (.resolveEvent w te) fun s => s.resolveActiveAssignment te.turnID).All A)
    (append : ∀ kind, (appendTx w te kind).All A)
    (audit : ∀ kind, (auditTx w te kind).All A)
    (record : ∀ report, (recordTx te report).All A)
    (ack : (ack w te).All A) (project : ∀ a, (projectOutcome a te).All A)
    (finish : ∀ a runState, (ackAndFinish w te a runState).All A) :
    (handleTurnEvent w te).All A := by
  have audits : (auditAndAck w te).All A := by
    refine .bind (appendAfterTerminal_all audit) fun answer => ?_
    split
    · exact .done _
    · exact ack
  unfold handleTurnEvent
  split
  · exact .done _
  refine .bind query fun answer => ?_
  split
  · exact audits
  · exact .done _
  split
  · exact .done _
  split
  · exact ack
  refine .bind (append _) fun answer => ?_
  split
  · exact audits
  · exact .done _
  refine .bind (projectCompletion_all record) fun answer => ?_
  split
  · exact .done _
  refine .bind (project _) fun answer => ?_
  split
  · exact .done _
  · exact finish _ _

theorem handleTurnEvent_all (settling : Settling (Every A))
    (append : ∀ kind, (appendTx w te kind).All A)
    (audit : ∀ kind, (auditTx w te kind).All A)
    (record : ∀ report, (recordTx te report).All A)
    (ack : (ack w te).All A) (ends : ∀ runID w, (send w (.sessionEnd runID)).All A) :
    (handleTurnEvent w te).All A :=
  handleTurnEvent_parts settling.query append audit record ack
    (fun a => settling.projectOutcome a te)
    fun _ _ => settling.toInner.ackAndFinish _ _ ack (ends _)

theorem handleWorkspaceStatus_all {status : WorkspaceStatus}
    (observe : (store (.capacity w status) fun _ s =>
      (.ok (s.observeWorkspaceCapacity w.poolID status.freeRatio).1,
        (s.observeWorkspaceCapacity w.poolID status.freeRatio).2) :
        Program (Except Err WorkspaceCapacityState)).All A)
    (apply : ∀ gated, (publishing w gated).All A) :
    (handleWorkspaceStatus w status).All A := by
  unfold handleWorkspaceStatus
  split
  · refine .bind observe fun answer => ?_
    split
    · exact .done _
    · exact .bind (apply _) fun _ => .done _
  · exact .done _

def rowFor (turn : Turn) (poolID : PoolID) (w : ConnRef) : Assignment :=
  ⟨turn.id, turn.runID, poolID, w.workerID, w.gen, .active, 0⟩

theorem assign_all (losing : Losing P) {turn : Turn} {poolID : PoolID}
    (delivers : P (send w (.assignTurn turn.id)))
    (create : P (createTx w (rowFor turn poolID w))) :
    P (assign turn poolID w) := by
  refine losing.bind losing.query fun answer => ?_
  split
  · exact losing.done _
  refine losing.bind create fun answer => ?_
  split
  · exact losing.done _
  refine losing.bind delivers fun answer => ?_
  split
  · exact losing.bind losing.lose fun _ => losing.done _
  · exact losing.done _

variable {thread : Nat}

theorem dispatchTurn_all (losing : Losing P)
    {turn : Turn} (delivers : ∀ w, P (send w (.assignTurn turn.id)))
    (pick : ∀ poolID, P (reserving poolID turn.id thread))
    (create : ∀ poolID w, P (createTx w (rowFor turn poolID w)))
    (release : ∀ w attempted, P (restoring w turn.id attempted thread)) :
    P (dispatchTurn thread runID turn) := by
  refine losing.bind losing.query fun answer => ?_
  split
  · exact losing.done _
  refine losing.bind losing.query fun answer => ?_
  split
  · exact losing.done _
  refine losing.bind (pick _) fun answer => ?_
  split
  · exact losing.done _
  refine losing.bind (assign_all losing (delivers _) (create _ _)) fun answer => ?_
  split
  · exact losing.done _
  · exact release _ _

theorem dispatchRun_all (losing : Losing P)
    (delivers : ∀ turnID w, P (send w (.assignTurn turnID)))
    (prepare : P (store (.prepare runID) fun input s => s.prepareTurn runID input))
    (pick : ∀ poolID turnID, P (reserving poolID turnID thread))
    (create : ∀ turn poolID w, P (createTx w (rowFor turn poolID w)))
    (release : ∀ w turnID attempted, P (restoring w turnID attempted thread)) :
    P (dispatchRun thread runID) := by
  refine losing.bind prepare fun answer => ?_
  split
  · exact losing.done _
  · exact dispatchTurn_all losing (delivers _) (fun _ => pick _ _) (fun _ => create _ _)
      fun _ => release _ _

theorem syncWorkspaceCapacityState_all (reading : Reading P)
    (sync : ∀ states, P (syncing states)) :
    P syncWorkspaceCapacityState := by
  refine reading.bind reading.query fun answer => ?_
  split
  · exact reading.done _
  · exact sync _

theorem teardown_all (losing : Losing P) (remove : P (removing w))
    (leave : P (setLoop w .returned)) : P (teardown w) := by
  refine losing.bind losing.markClosed fun _ => losing.bind remove fun _ => ?_
  exact losing.bind (losing.handleWorkerLoss w) fun _ => leave

theorem serve_all (losing : Losing P) {msg : WorkerMessage} (ready : P (answerReady w))
    (status : ∀ status, P (handleWorkspaceStatus w status))
    (event : ∀ te, P (handleTurnEvent w te))
    (remove : P (removing w)) (setLoop : ∀ loop, P (setLoop w loop))
    : P (serve w msg) := by
  refine losing.bind ?_ fun goesOn => ?_
  · cases msg with
    | ready => exact ready
    | workspaceStatus report => exact status report
    | heartbeat | tokenDelta => exact losing.done _
    | turnEvent te => exact losing.bind (event te) fun _ => losing.done _
  · split
    · exact setLoop _
    · exact teardown_all losing remove (setLoop _)

theorem work_all (losing : Losing P) {id : Identity}
    {hello : Hello}
    (register : ∀ poolID, P (.atomic (.register poolID id.workerID) fun _ s =>
      s.register poolID id.workerID thread : Program ConnRef))
    (add : ∀ w, P (locally fun _ s => s.add w))
    (fence : ∀ w old, P (fenceOldGeneration w old))
    (welcome : ∀ w : ConnRef, P (send w (.welcome w.gen)))
    (acks : ∀ w turnID n, P (send w (.eventAck turnID n)))
    (remove : ∀ w, P (removing w))
    (setLoop : ∀ w loop, P (setLoop w loop)) : P (work thread id hello) := by
  have close : ∀ w, P (teardown w) := fun w => teardown_all losing (remove w) (setLoop w _)
  unfold work
  split
  · exact losing.done _
  split
  · exact losing.done _
  refine losing.bind losing.query fun answer => ?_
  split
  · exact losing.done _
  refine losing.bind (register _) fun w => losing.bind (add w) fun old => ?_
  refine losing.bind (fence w old) fun answer => ?_
  split
  · exact close w
  refine losing.bind (welcome w) fun answer => ?_
  split
  · exact close w
  · exact losing.bind (losing.ackReconnectWatermark w _ _ (acks w)) fun _ => setLoop w _

/-! ### The dispatcher -/

/-- What a layer has to say at the joints of a dispatcher: a connection of the pool is `reserved` until
its row is `made`; AssignTurn was `tried` and may have failed, and then the turn is `fenced`. -/
structure DispatchOutline (R : Rules State) (L : Layer Label Input Request State) (t : Nat)
    (turn : Turn) (poolID : PoolID) where
  reserved : ConnRef → State → Prop
  made : ConnRef → State → Prop
  tried : ConnRef → State → Prop
  fenced : ConnRef → State → Prop
  reserve : ∀ {s}, Along R L t (reserving poolID turn.id t)
    (fun answer s => ∀ w, answer = some w → reserved w s) s
  check : ∀ {w s}, reserved w s → Along R L t (query .other fun _ => Except.ok ())
    (fun _ s => reserved w s) s
  create : ∀ {w s}, reserved w s → Along R L t
    (createTx w (rowFor turn poolID w))
    (fun answer s => (answer = .ok () → made w s) ∧ ∀ err, answer = .error err → reserved w s) s
  send : ∀ {w s}, made w s → Along R L t (send w (.assignTurn turn.id))
    (fun answer s => ∀ err, answer = .error err → tried w s) s
  fence : ∀ {w s}, tried w s → Along R L t
    (fenceAndTerminalize .sendFailed poolID w.workerID w.gen) (fun _ s => fenced w s) s
  giveBack : ∀ {w s}, reserved w s → Runs R L t (restoring w turn.id false t) s
  giveUp : ∀ {w s}, fenced w s → Runs R L t (restoring w turn.id true t) s

namespace DispatchOutline

variable {R : Rules State} {L : Layer Label Input Request State} {t : Nat} {turn : Turn}
  {poolID : PoolID} {w : ConnRef} {s : State}

theorem assign (outline : DispatchOutline R L t turn poolID)
    (reserved : outline.reserved w s) : Along R L t (assign turn poolID w)
      (fun answer s => ∀ err, answer.2 = .error err →
        if answer.1 then outline.fenced w s else outline.reserved w s) s := by
  refine (outline.check reserved).andThen fun answer s reserved => ?_
  split
  · exact fun _ _ => reserved
  refine (outline.create reserved).andThen fun answer s after => ?_
  split
  · rename_i err
    exact fun _ _ => after.2 err rfl
  refine (outline.send (after.1 rfl)).andThen fun answer s after => ?_
  split
  · rename_i err
    exact (outline.fence (after err rfl)).andThen fun _ s fenced _ _ => fenced
  · exact nofun

theorem along (outline : ∀ poolID, DispatchOutline R L t turn poolID)
    (asks : ∀ {α : Type} {read : State → Except Err α} {s}, Runs R L t (query .other read) s) :
    Runs R L t (dispatchTurn t runID turn) s := by
  refine asks.andThen fun answer s _ => ?_
  split
  · trivial
  refine asks.andThen fun answer s _ => ?_
  split
  · trivial
  rename_i poolID
  refine (outline poolID).reserve.andThen fun answer s picked => ?_
  split
  · trivial
  rename_i w
  refine ((outline poolID).assign (picked w rfl)).andThen fun answer s after => ?_
  split
  · trivial
  rename_i attempted err
  have here := after err rfl
  cases attempted with
  | false => exact (outline poolID).giveBack here
  | true => exact (outline poolID).giveUp here

end DispatchOutline

theorem startRequest_cases {P : Request → State → Program Unit → Prop} {t : Nat} {s s' : State}
    {request : Request} {p : Program Unit} (started : startRequest request t s = some (s', p))
    (connect : ∀ id hello, P (.connect id hello) s (work t id hello))
    (sends : ∀ (c : WorkerConn) msg, s.conns.find c.ref.id = some c →
      P (.workerSends c.ref.id msg) (s.enqueue c.ref msg) (pure ()))
    (receive : ∀ (c : WorkerConn) msg rest, s.conns.find c.ref.id = some c → c.loop = .waiting →
      c.inbox = msg :: rest → P (.receive c.ref.id)
        ((s.hold c.ref t rest).observe (.taken c.ref msg)) (serve c.ref msg))
    (close : ∀ c : WorkerConn, s.conns.find c.ref.id = some c → c.loop = .waiting →
      P (.close c.ref.id) (s.hold c.ref t c.inbox) (teardown c.ref))
    (cancel : ∀ turnID, P (.cancelTurn turnID) s (cancelTurn turnID))
    (expire : ∀ c : WorkerConn, s.conns.find c.ref.id = some c →
      P (.expireLease c.ref.id) s (expireLease c.ref))
    (dispatch : ∀ runID, P (.dispatchRun runID) s (dispatchRun t runID))
    (sync : P .syncCapacity s syncWorkspaceCapacityState)
    (authorize : ∀ poolID authorized, P (.authorizeStorage poolID authorized) { s with
      capacities := s.capacities.update (fun r => r.poolID = poolID)
        (fun r => { r with storageAuthorized := authorized }) fun _ => rfl } (pure ())) :
    P request s' p := by
  -- a connection is found under its own id
  have own : ∀ {k c}, s.conns.find k = some c → k = c.ref.id ∧ s.conns.find c.ref.id = some c :=
    fun found => ⟨(Table.find_key found).symm, Table.find_of_mem (Table.find_mem found)⟩
  cases request with
  | connect id hello =>
    cases started
    exact connect id hello
  | workerSends conn msg =>
    simp only [startRequest] at started
    split at started
    · cases started
    rename_i c found
    obtain ⟨rfl, found⟩ := own found
    split at started
    · cases started
    · cases started
      exact sends c msg found
  | receive conn =>
    simp only [startRequest] at started
    split at started
    · cases started
    rename_i c found
    obtain ⟨rfl, found⟩ := own found
    split at started
    · rename_i msg rest waiting holds
      cases started
      exact receive c msg rest found waiting holds
    · cases started
  | close conn =>
    simp only [startRequest] at started
    split at started
    · cases started
    rename_i c found
    obtain ⟨rfl, found⟩ := own found
    split at started
    · rename_i waiting
      cases started
      exact close c found waiting
    · cases started
  | cancelTurn turnID =>
    cases started
    exact cancel turnID
  | expireLease conn =>
    obtain ⟨c, found, made⟩ := Option.map_eq_some_iff.mp started
    cases made
    obtain ⟨rfl, found⟩ := own found
    exact expire c found
  | dispatchRun runID =>
    cases started
    exact dispatch runID
  | syncCapacity =>
    cases started
    exact sync
  | authorizeStorage poolID authorized =>
    cases started
    exact authorize poolID authorized

end Iterabase.Dispatch
