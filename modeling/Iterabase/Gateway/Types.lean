/-
**The tool gateway — data.**

The rows, messages and in-memory structures of `internal/gateway`, and what a run is observed by.

* `RunnerConn`, `Channel` — the live runner streams with their pending dispatches.
* `Obs`, `State`, `Input` — the trace, the shared state, and what the environment decides at a step.
-/

import Iterabase.Conc.Program
import Iterabase.Conc.Table
import Iterabase.Data.Json

namespace Iterabase.Gateway

open Conc Data

abbrev InvocationID := String

/-! ### The ledger -/

inductive EffectClass
  | readOnly
  | idempotentWrite
  | nonIdempotentWrite
  deriving DecidableEq

inductive InvocationState
  | dispatching
  | running
  | succeeded
  | failed
  | outcomeUnknown
  deriving DecidableEq

def InvocationState.isTerminal : InvocationState → Bool
  | .succeeded | .failed | .outcomeUnknown => true
  | .dispatching | .running => false

inductive CallerScope
  | turn
  | workflowStep
  deriving DecidableEq

structure InvocationKey where
  attemptID : String
  callerScope : CallerScope
  callerScopeID : String
  toolCallID : String
  toolVersionDigest : String
  idempotencyKey : String
  deriving DecidableEq

/-- A row of `toolgateway.invocations`. `owner` is the call that inserted it, which the row does not
record. -/
structure Invocation where
  id : InvocationID
  key : InvocationKey
  effectClass : EffectClass
  argumentsJSON : Json := .object []
  artifactInputRefs : Json := .array []
  owner : Nat
  state : InvocationState := .dispatching
  resultJSON : Option Json := none
  artifactOutputRefs : Json := .array []
  error : Option Json := none
  dispatchLeaseExpiresAt : Option Int
  finished : Bool := false

/-- The table, with the unique index `idx_invocations_uniq`. -/
structure Ledger where
  rows : Table Invocation.id
  unique : (rows.rows.map Invocation.key).Nodup

/-! ### Messages -/

/-- `v1.Retryability`, an open enumeration. -/
inductive Retryability
  | unspecified
  | retryable
  | nonRetryable
  | unknown
  | unrecognized (value : Int)
  deriving DecidableEq

structure ErrorDetail where
  code : String := ""
  message : String := ""
  retryability : Retryability := .unspecified
  detailsJSON : String := ""
  deriving DecidableEq

structure ArtifactRef where
  artifactID : String
  mimeType : String
  sizeBytes : Int64
  digest : String
  deriving DecidableEq

/-- `v1.InvokeState`, an open enumeration. -/
inductive InvokeState
  | unspecified
  | dispatching
  | running
  | succeeded
  | failed
  | outcomeUnknown
  | inProgress
  | unrecognized (value : Int)
  deriving DecidableEq

/-- Bytes a runner sent as a JSON text. -/
structure ResultBytes where
  length : Nat
  text : JsonText
  deriving DecidableEq

structure InvokeResult where
  invocationID : InvocationID
  state : InvokeState
  resultJSON : ResultBytes := ⟨0, none, false⟩
  artifactOutputRefs : List ArtifactRef := []
  error : Option ErrorDetail := none
  deriving DecidableEq

/-- What a runner sends after its first Register. -/
inductive RunnerMessage
  | register (name digest : String)
  | retired (name digest : String)
  | invokeResult (result : InvokeResult)
  | invokeError (invocationID : InvocationID) (error : Option ErrorDetail)
  deriving DecidableEq

structure Invoke where
  invocationID : InvocationID
  idempotencyKey : String

/-- `v1.InvokeResponse`, with the value of its result. -/
structure InvokeResponse where
  invocationID : InvocationID := ""
  state : InvokeState := .unspecified
  resultJSON : Option Json := none
  artifactOutputRefs : List ArtifactRef := []
  error : Option ErrorDetail := none
  existingInvocationID : InvocationID := ""

/-! ### Calls -/

structure ToolVersion where
  name : String
  digest : String
  effectClass : EffectClass
  timeoutMS : Int := 60000
  idempotencyProof : String := ""

/-- An InvokeTool call that resolved its scope and its pinned version, and passed every check made
before the ledger. -/
structure Call where
  attemptID : String
  callerScope : CallerScope
  callerScopeID : String
  toolCallID : String
  idempotencyKey : String
  tv : ToolVersion
  argumentsJSON : JsonText := marshalJSON (.object [])
  artifactInputRefs : List ArtifactRef := []

def Call.key (call : Call) : InvocationKey :=
  ⟨call.attemptID, call.callerScope, call.callerScopeID, call.toolCallID, call.tv.digest,
    call.idempotencyKey⟩

/-- The fields of `Config` that the execution path reads, after `defaults`. Times are in
milliseconds. -/
structure Config where
  inlineLimit : Int := 65536
  defaultTimeout : Int := 60000
  retryMaxAttempts : Int := 3
  dispatchLease : Int := 60000

/-! ### Runners -/

/-- A result that a runner reported, as `dispatchResult` holds it. -/
structure Report where
  state : InvocationState
  resultJSON : Option ResultBytes := none
  artifactRefs : Option JsonText := none
  errorDetail : Option JsonText := none

/-- `dispatchResult`: either `streamLost`, or a report. -/
inductive DispatchResult
  | streamLost
  | reported (report : Report)

/-- The channel a dispatch waits on. It holds one result. -/
structure Channel where
  invocationID : InvocationID
  result : Option DispatchResult := none

structure RunnerConn where
  runnerID : String
  /-- The tools it serves, by name and digest. -/
  tools : List (String × String) := []
  /-- The channel of each invocation that is dispatched over it. -/
  pending : List (InvocationID × Nat) := []
  closed : Bool := false

/-! ### Runs -/

/-- How a call came to the response it returned. -/
inductive Path
  /-- The row of another call answered it. -/
  | duplicate
  | failed (err : ErrorDetail)
  | ambiguous (effectClass : EffectClass) (reason : String)
  /-- `finishFromResult` committed the report. -/
  | reported (report : Report)
  /-- The row was terminal when the lease could not be renewed. -/
  | committed

inductive Obs
  | begun (thread : Nat) (call : Call) (id : InvocationID) (inserted : Bool)
  | renewed (thread : Nat) (id : InvocationID)
  | invoked (thread : Nat) (call : Call) (conn : Nat) (invoke : Invoke)
  | finished (id : InvocationID)
  | runner (conn : Nat) (msg : RunnerMessage)
  | responded (thread : Nat) (id : InvocationID) (path : Path) (response : InvokeResponse)

structure State where
  ledger : Ledger := ⟨.empty, List.nodup_nil⟩
  conns : List RunnerConn := []
  pool : List Nat := []
  channels : List Channel := []
  trace : List Obs := []

inductive Err
  | infrastructure (text : String)
  | notFound
  | invalidTransition
  | constraint (column : String)

/-- `Error()`, up to what the store's wrapping adds. -/
def Err.text : Err → String
  | .infrastructure text => text
  | .notFound => "gateway: not found"
  | .invalidTransition => "gateway: invalid invocation transition"
  | .constraint column => "violates the constraint of " ++ column

/-- A store call that fails: before it had an effect, or after it committed. -/
inductive Fault
  | none
  | before (text : String)
  | after (text : String)

/-- Which case of the dispatcher's `select` is taken. -/
inductive Wait
  | result
  | timeout
  | cancelled

inductive ArtifactDenial
  | notConfigured
  | unauthorized
  | mismatch

def ArtifactDenial.text : ArtifactDenial → String
  | .notConfigured => "artifact service not configured"
  | .unauthorized => "artifact: unauthorized"
  | .mismatch => "artifact reference metadata mismatch"

structure Input where
  fault : Fault := .none
  /-- The clock, of the process or of the database. -/
  now : Int := 0
  uuid : InvocationID := ""
  /-- Why the credentials cannot be resolved. -/
  credentials : Option String := none
  /-- Why an artifact reference of a result is refused. -/
  artifacts : Option ArtifactDenial := none
  sendFails : Bool := false
  wait : Wait := .result

end Iterabase.Gateway
