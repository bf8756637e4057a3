/-
**The tool gateway — InvokeTool, its runners, and the recovery sweep.**

`service.go` and `runnerpool.go` as programs of atomic actions: a store call, which may fail before or
after it committed, a critical section of the pool or of a connection, or a send.

* `beginInvocation`, `renewDispatchLease`, `dispatch` — the steps of an attempt.
* `finishFailed`, `classifyAmbiguous`, `finishFromResult` — the three ways a call commits its row.
* `dispatchWithRetry`, `invokeTool` — **the execution path**, from the ledger on.
* `gateway` — the system: any number of calls, runners that register, report and drop, sweeps, and
  restarts of the process.
-/

import Iterabase.Gateway.Store

namespace Iterabase.Gateway

open Conc Data

abbrev Program := Prog Unit Input State

/-! ### Actions -/

def store {α : Type} (tx : Input → State → Except Err α × State) : Program (Except Err α) :=
  .atomic () fun input s => some (match input.fault with
    | .none => tx input s
    | .before text => (.error (.infrastructure text), s)
    | .after text => (.error (.infrastructure text), (tx input s).2))

/-- A critical section of the process, or a check whose answer is the environment's. -/
def locally {α : Type} (f : Input → State → α × State) : Program α :=
  .atomic () fun input s => some (f input s)

/-! ### The pool -/

namespace State

variable (s : State)

def serves (name digest : String) (i : Nat) : Bool :=
  s.conns[i]?.any fun rc => (name, digest) ∈ rc.tools

/-- `pick`: the first connection that serves the version. -/
def pick (name digest : String) : Option Nat := s.pool.find? (s.serves name digest)

def modifyConn (i : Nat) (f : RunnerConn → RunnerConn) : State :=
  { s with conns := s.conns.modify i f }

def makeChannel (id : InvocationID) : State :=
  { s with channels := s.channels ++ [{ invocationID := id }] }

/-- A closed connection takes no more messages. -/
def isClosed (i : Nat) : Bool := s.conns[i]?.all RunnerConn.closed

/-- The entry of `dispatch`: a new channel, pending under the invocation. -/
def enter (i : Nat) (id : InvocationID) : Option Nat × State :=
  if s.isClosed i then (none, s)
  else
    (some s.channels.length,
      (s.makeChannel id).modifyConn i fun rc =>
        { rc with pending := (id, s.channels.length) :: rc.pending.filter (·.1 ≠ id) })

def leave (i : Nat) (id : InvocationID) : State :=
  s.modifyConn i fun rc => { rc with pending := rc.pending.filter (·.1 ≠ id) }

def offer (ch : Nat) (result : DispatchResult) : State :=
  { s with channels := s.channels.modify ch fun c => { c with result := c.result.or (some result) } }

def deliver (i : Nat) (id : InvocationID) (result : DispatchResult) : State :=
  match (s.conns[i]?).bind fun rc => rc.pending.find? (·.1 = id) with
  | none => s
  | some (_, ch) => s.offer ch result

end State

/-- `send` with an Invoke: a closed connection refuses, and what enters the stream may still be
reported as failed. -/
def sendInvoke (thread : Nat) (call : Call) (i : Nat) (invoke : Invoke) : Program Bool :=
  locally fun input s =>
    if s.isClosed i then (false, s)
    else (!input.sendFails, s.observe (.invoked thread call i invoke))

def dispatchTimeout (cfg : Config) (tv : ToolVersion) : Int :=
  if 0 < tv.timeoutMS then tv.timeoutMS else cfg.defaultTimeout

/-- The `select` of `dispatch`. -/
def await (ch : Nat) (timeout : Int) : Program DispatchResult :=
  .atomic () fun input s =>
    match input.wait with
    | .result => ((s.channels[ch]?).bind Channel.result).map fun result => (result, s)
    | .timeout => if 0 < timeout then some (.streamLost, s) else none
    | .cancelled => some (.streamLost, s)

def dispatch (cfg : Config) (thread : Nat) (call : Call) (i : Nat) (invoke : Invoke) :
    Program DispatchResult := do
  match ← locally fun _ s => s.enter i invoke.invocationID with
  | none => return .streamLost
  | some ch =>
      let sent ← sendInvoke thread call i invoke
      let result ← if sent then await ch (dispatchTimeout cfg call.tv) else pure .streamLost
      locally fun _ s => ((), s.leave i invoke.invocationID)
      return result

/-- `dispatchToRunner`; no runner is `ErrNoRunner`. -/
def dispatchToRunner (cfg : Config) (thread : Nat) (call : Call) (invoke : Invoke) :
    Program (Option DispatchResult) := do
  match ← locally fun _ s => (s.pick call.tv.name call.tv.digest, s) with
  | none => return none
  | some i =>
      let result ← dispatch cfg thread call i invoke
      return some result

/-! ### The ledger -/

/-- `BeginInvocation`: the row, and whether this call inserted it. -/
def beginInvocation (cfg : Config) (thread : Nat) (call : Call) :
    Program (Except Err (Invocation × Bool)) := do
  match ← store fun input s => s.insertInvocation thread call input.uuid
      (input.now + dispatchTimeout cfg call.tv + cfg.dispatchLease) with
  | .error err => return .error err
  | .ok inserted =>
      store fun _ s =>
        match inserted with
        | none =>
            match s.getInvocationByKey call.key with
            | .error err => (.error err, s)
            | .ok inv => (.ok (inv, false), s.observe (.begun thread call inv.id false))
        | some id =>
            match s.getInvocation id with
            | .error err => (.error err, s)
            | .ok inv => (.ok (inv, true), s.observe (.begun thread call inv.id true))

/-- A lease that was established. -/
def renewing (thread : Nat) (id : InvocationID) :
    Except Err Unit × State → Except Err Unit × State
  | (.ok (), s) => (.ok (), s.observe (.renewed thread id))
  | (.error err, s) => (.error err, s)

/-- `renewDispatchLease`: the first attempt marks the row running, a later one renews it. -/
def renewDispatchLease (cfg : Config) (thread : Nat) (call : Call) (id : InvocationID) :
    Program (Except Err Unit) := do
  let lease := fun input : Input => input.now + dispatchTimeout cfg call.tv + cfg.dispatchLease
  match ← store fun input s => renewing thread id (s.markRunning id (lease input)) with
  | .ok () => return .ok ()
  | .error .invalidTransition =>
      store fun input s => renewing thread id (s.renewDispatchLease id (lease input))
  | .error err => return .error err

/-! ### Terminal outcomes -/

abbrev Answer := Except Err (Path × InvokeResponse)

def ambiguousState : EffectClass → InvocationState
  | .readOnly => .failed
  | .idempotentWrite | .nonIdempotentWrite => .outcomeUnknown

def ambiguousResponse (id : InvocationID) (effectClass : EffectClass) (reason : String) :
    InvokeResponse :=
  { invocationID := id
    state := if effectClass = .readOnly then .failed else .outcomeUnknown
    error := some { code := "outcome_unknown", message := reason, retryability := .unknown } }

/-- Commit the terminal columns of the row, and only then answer. -/
def finish (id : InvocationID) (state : InvocationState)
    (result artifactRefs error : Option JsonText) (path : Path) (resp : InvokeResponse) :
    Program Answer := do
  match ← store fun _ s => s.finishInvocation id state result artifactRefs error with
  | .error err => return .error err
  | .ok () => return .ok (path, resp)

def classifyAmbiguous (id : InvocationID) (tv : ToolVersion) (reason : String) : Program Answer :=
  finish id (ambiguousState tv.effectClass) none (some (marshalJSON (.array [])))
    (some (marshalJSON (ambiguousJSON tv.effectClass reason))) (.ambiguous tv.effectClass reason)
    (ambiguousResponse id tv.effectClass reason)

def finishFailed (id : InvocationID) (err : ErrorDetail) : Program Answer :=
  finish id .failed none (some (marshalJSON (.array []))) (some (marshalJSON err.json)) (.failed err)
    { invocationID := id, state := .failed, error := some err }

def Report.result (r : Report) : Option JsonText :=
  match r.state, r.resultJSON with
  | .succeeded, none => some (marshalJSON (.object []))
  | .succeeded, some bytes => if bytes.length = 0 then some (marshalJSON (.object [])) else some bytes.text
  | _, bytes => bytes.map ResultBytes.text

/-- Why a successful report cannot be committed as it is. -/
def Report.flaw (cfg : Config) (r : Report) (denied : Option ArtifactDenial) : Option String :=
  match r.state, denied with
  | .succeeded, some denial =>
      some ("runner returned unauthorized or non-canonical artifact reference: " ++ denial.text)
  | .succeeded, none =>
      let length := (r.resultJSON.map ResultBytes.length).getD 0
      if cfg.inlineLimit < length then some "runner result exceeds inline limit (use artifact refs)"
      else if length ≠ 0 ∧ (r.resultJSON.bind fun bytes => bytes.text.value).isNone then
        some "runner reported succeeded with malformed JSON result"
      else none
  | _, _ => none

def Report.refs (r : Report) :
    List ArtifactRef := parseArtifactRefs (r.artifactRefs.bind JsonText.value)

def reportResponse (id : InvocationID) (r : Report) : InvokeResponse :=
  if r.state = .succeeded then
    { invocationID := id, state := .succeeded, resultJSON := r.result.bind JsonText.value,
      artifactOutputRefs := r.refs }
  else
    { invocationID := id, state := .failed, artifactOutputRefs := r.refs,
      error := some { code := "tool_failed", message := "tool execution failed",
                      retryability := .unknown } }

/-- `finishFromResult`. The references are checked only where there are some. -/
def finishFromResult (cfg : Config) (id : InvocationID) (tv : ToolVersion) (r : Report) :
    Program Answer := do
  let denied ← locally fun input s =>
    (if r.state = .succeeded ∧ r.refs ≠ [] then input.artifacts else none, s)
  match r.flaw cfg denied with
  | some reason => classifyAmbiguous id tv reason
  | none => finish id r.state r.result r.artifactRefs r.errorDetail (.reported r) (reportResponse id r)

def abortAfterLeaseFailure (id : InvocationID) (tv : ToolVersion) (reason : String) :
    Program Answer := do
  match ← store fun _ s => (s.getInvocation id, s) with
  | .error _ => classifyAmbiguous id tv reason
  | .ok inv =>
      if inv.state.isTerminal then return .ok (.committed, invocationToResponse inv)
      else classifyAmbiguous id tv reason

/-! ### The execution path -/

def upstreamKey (call : Call) (id : InvocationID) : String :=
  if call.tv.effectClass = .idempotentWrite then id else call.idempotencyKey

def canRetry (tv : ToolVersion) (id : InvocationID) : Bool :=
  tv.effectClass = .readOnly ∨
    (tv.effectClass = .idempotentWrite ∧ tv.idempotencyProof ≠ "" ∧ id ≠ "")

def attempts (cfg : Config) (tv : ToolVersion) (id : InvocationID) : Nat :=
  if canRetry tv id then (if cfg.retryMaxAttempts < 1 then 1 else cfg.retryMaxAttempts.toNat) else 1

def dispatchLoop (cfg : Config) (thread : Nat) (call : Call) (id : InvocationID) :
    Nat → Program Answer
  | 0 => classifyAmbiguous id call.tv "retry budget exhausted"
  | left + 1 => do
      match ← renewDispatchLease cfg thread call id with
      | .error err =>
          abortAfterLeaseFailure id call.tv
            ("dispatch lease not established/renewed: " ++ err.text)
      | .ok () =>
          match ← dispatchToRunner cfg thread call ⟨id, upstreamKey call id⟩ with
          | none => classifyAmbiguous id call.tv "no runner available for dispatch"
          | some .streamLost =>
              if canRetry call.tv id ∧ left ≠ 0 then dispatchLoop cfg thread call id left
              else classifyAmbiguous id call.tv "runner stream lost / context cancelled after send"
          | some (.reported report) => finishFromResult cfg id call.tv report

def dispatchWithRetry (cfg : Config) (thread : Nat) (call : Call) (id : InvocationID) :
    Program Answer :=
  dispatchLoop cfg thread call id (attempts cfg call.tv id)

/-- The part of `InvokeTool` that runs for the call that inserted the row. -/
def execute (cfg : Config) (thread : Nat) (call : Call) (id : InvocationID) : Program Answer := do
  if ← locally fun _ s => ((s.pick call.tv.name call.tv.digest).isSome, s) then
    match ← locally fun input s => (input.credentials, s) with
    | some message => finishFailed id {
        code := "credential_resolution_failed", message := message, retryability := .nonRetryable }
    | none => dispatchWithRetry cfg thread call id
  else finishFailed id {
    code := "tool_unavailable"
    message := "no live runner for the pinned tool version"
    retryability := .retryable }

/-- `InvokeTool`, from the ledger on. -/
def invokeTool (cfg : Config) (thread : Nat) (call : Call) : Program Unit := do
  match ← beginInvocation cfg thread call with
  | .error _ => return ()
  | .ok (inv, false) =>
      locally fun _ s => ((), s.observe (.responded thread inv.id .duplicate (invocationToResponse inv)))
  | .ok (inv, true) =>
      match ← execute cfg thread call inv.id with
      | .error _ => return ()
      | .ok (path, resp) => locally fun _ s => ((), s.observe (.responded thread inv.id path resp))

/-! ### The system -/

def teardown (i : Nat) : Program Unit := do
  locally fun _ s => ((), s.modifyConn i fun rc => { rc with closed := true })
  locally fun _ s => ((), { s with pool := s.pool.filter (· ≠ i) })
  locally fun _ s => ((), ((s.conns[i]?.map RunnerConn.pending).getD []).foldl
    (fun s entry => s.offer entry.2 .streamLost) s)

def recoverOrphanedInvocations : Program Unit := do
  match ← store fun input s => (.ok (), s.recoverReadOnly input.now) with
  | .error _ => return ()
  | .ok () => let _ ← store fun input s => (.ok (), s.recoverWrites input.now)

inductive Request
  | invokeTool (call : Call)
  | registerRunner (runnerID : String)
  | runnerMessage (conn : Nat) (msg : RunnerMessage)
  | runnerLost (conn : Nat)
  | sweep

def State.receive (s : State) (i : Nat) (msg : RunnerMessage) : State :=
  match msg with
  | .register name digest => s.modifyConn i fun rc => { rc with tools := (name, digest) :: rc.tools }
  | .retired name digest =>
      s.modifyConn i fun rc => { rc with tools := rc.tools.filter (· ≠ (name, digest)) }
  | .invokeResult _ | .invokeError _ _ =>
      match msg.dispatch with
      | some (id, report) => s.deliver i id (.reported report)
      | none => s

def startRequest (cfg : Config) (request : Request) (thread : Nat) (s : State) :
    Option (State × Program Unit) :=
  match request with
  | .invokeTool call => some (s, invokeTool cfg thread call)
  | .registerRunner runnerID => some ({ s with
      conns := s.conns ++ [{ runnerID := runnerID }], pool := s.pool ++ [s.conns.length] }, pure ())
  | .runnerMessage i msg =>
      if s.isClosed i then none else some ((s.receive i msg).observe (.runner i msg), pure ())
  | .runnerLost i => if s.isClosed i then none else some (s, teardown i)
  | .sweep => some (s, recoverOrphanedInvocations)

def restartGateway (s : State) : State :=
  { s with conns := s.conns.map fun rc => { rc with closed := true }, pool := [] }

def gateway (cfg : Config) : System Unit Input Request State where
  start := startRequest cfg
  restart := restartGateway

end Iterabase.Gateway
