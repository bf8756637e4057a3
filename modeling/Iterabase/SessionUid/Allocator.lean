/-
**Session UIDs — the allocator and the assignments that depend on it.**

`dispatch/store.go`: a session holds one UID, a UID is handed on only after a release and a grace
period, and a turn is assigned only while its session holds the UID its `AssignTurn` names. Each
statement and each transaction is atomic; between two of them anything may happen. The application's
clock and the database's are inputs, and nothing relates one reading to another.

* `allocateSessionUID` — five statements, the last two in a transaction that is tried eight times.
* `createAssignment`, `releaseSessionUID`, `terminalizeAssignment` — the transactions that lock or
  depend on an allocation.
* `Event`, `State.trace` — what happens to each UID, in order, and what calls return.
-/

import Iterabase.Conc.Logic
import Iterabase.Conc.Table

namespace Iterabase.SessionUid

open Conc

abbrev SessionID := String
abbrev RunID := String
abbrev TurnID := String
abbrev UID := Nat

abbrev Time := Int

/-! ### Rows -/

inductive AllocationState
  | inUse
  | freed
  deriving DecidableEq

structure Allocation where
  uid : UID
  sessionID : SessionID
  state : AllocationState := .inUse
  freedAt : Option Time := none

open Allocation

def Allocation.expired (r : Allocation) (before : Time) : Bool :=
  r.state = .freed ∧ r.freedAt.any fun time => time < before

/-- The table; `uid` is its primary key and `session_id` is unique. -/
structure Allocations where
  table : Table uid
  sessions : (table.rows.map sessionID).Nodup

structure Run where
  id : RunID
  sessionID : SessionID

inductive AssignmentState
  | active
  | fenced
  | terminal
  deriving DecidableEq

/-- A row of `turn_assignments`, with the UID its assignment was created for. -/
structure Assignment where
  turnID : TurnID
  runID : RunID
  sandboxUID : UID
  state : AssignmentState := .active

structure AssignTurn where
  turnID : TurnID
  sessionID : SessionID
  uid : UID
  deriving DecidableEq

inductive Event
  /-- A call claims it from its range for a session without a row. -/
  | claimed (uid : UID) (sessionID : SessionID) (base n : UInt32) (clock grace : Time)
  /-- A call takes it back for the session that freed it. -/
  | reclaimed (uid : UID) (sessionID : SessionID) (clock grace : Time)
  | freed (uid : UID) (sessionID : SessionID) (time : Time)
  /-- A call returns it; `clock` is the reading the call started with. -/
  | returned (uid : UID) (sessionID : SessionID) (base n : UInt32) (clock grace : Time)
  deriving DecidableEq

/-- The database, what was sent, and what happened, newest first. -/
structure State where
  allocations : Allocations := ⟨.empty, List.nodup_nil⟩
  runs : Table Run.id := .empty
  assignments : Table Assignment.turnID := .empty
  sent : List AssignTurn := []
  trace : List Event := []

inductive Err
  | uidExhausted
  | uidRace
  | uniqueViolation
  | retriesExhausted
  | sessionIdentityMismatch
  | sessionUIDUnavailable
  | sessionUIDActive
  | alreadyAssigned
  | notFound
  | store

namespace Allocations

def ofSession (a : Allocations) (sessionID : SessionID) : Option Allocation :=
  a.table.rows.find? fun r => r.sessionID = sessionID

/-- Both constraints are checked by a write that may break the second one. -/
def write (table : Table uid) : Except Err Allocations :=
  if distinct : (table.rows.map sessionID).Nodup then .ok ⟨table, distinct⟩
  else .error .uniqueViolation

def set (a : Allocations) (uid : UID) (state : AllocationState) (freedAt : Option Time) :
    Allocations where
  table := a.table.update (fun r => r.uid = uid) (fun r => { r with state := state, freedAt := freedAt })
    fun _ => rfl
  sessions := by
    have same : ((a.table.update (fun r => r.uid = uid)
        (fun r => { r with state := state, freedAt := freedAt }) fun _ => rfl).rows.map
          sessionID) = a.table.rows.map sessionID := by
      simp only [Table.update, List.map_map]
      refine List.map_congr_left fun r _ => ?_
      simp only [Function.comp_apply]
      split <;> rfl
    rw [same]
    exact a.sessions

end Allocations

namespace State

/-- The run's session has an active assignment. -/
def sessionActive (s : State) (sessionID : SessionID) : Bool :=
  s.assignments.rows.any fun a => a.state = .active ∧
    (s.runs.find a.runID).any fun run => run.sessionID = sessionID

def record (s : State) (e : Event) : State := { s with trace := e :: s.trace }

def setAssignment (s : State) (turnID : TurnID) (p : AssignmentState → Bool)
    (target : AssignmentState) : State :=
  { s with
    assignments := s.assignments.update (fun a => a.turnID = turnID ∧ p a.state)
      (fun a => { a with state := target }) fun _ => rfl }

end State

/-! ### The environment -/

/-- A statement fails before it takes effect, or after. -/
inductive Failure
  | none
  | before
  | after
  deriving DecidableEq

/-- A reading of the clock the action uses, and how it fails. -/
structure Input where
  now : Time := 0
  failure : Failure := .none

abbrev Program := Prog Unit Input State

def statement {α : Type} (run : Time → State → Except Err α × State) : Program (Except Err α) :=
  .atomic () fun input s =>
    match input.failure with
    | .none => some (run input.now s)
    | .before => some (.error .store, s)
    | .after => some (.error .store, (run input.now s).2)

def clock : Program Time := .atomic () fun input s => some (input.now, s)

/-! ### Allocation -/

/-- A call of `AllocateSessionUID` and its first reading of the clock. -/
structure Call where
  sessionID : SessionID
  base : UInt32
  n : UInt32
  grace : Time
  clock : Time

def Call.returns (call : Call) (uid : UID) (s : State) : State :=
  s.record (.returned uid call.sessionID call.base call.n call.clock call.grace)

/-- A statement that answers with a UID returns it where it does not fail. -/
def answering (call : Call) (run : Time → State → Except Err (Option UID) × State) :
    Program (Except Err (Option UID)) :=
  .atomic () fun input s =>
    match input.failure with
    | .none =>
        match run input.now s with
        | (.ok (some uid), s') => some (.ok (some uid), call.returns uid s')
        | other => some other
    | .before => some (.error .store, s)
    | .after => some (.error .store, (run input.now s).2)

def holdUID (sessionID : SessionID) (_ : Time) (s : State) : Except Err (Option UID) × State :=
  match s.allocations.ofSession sessionID with
  | none => (.ok none, s)
  | some r =>
      if r.state = .inUse then
        (.ok (some r.uid), { s with allocations := s.allocations.set r.uid .inUse none })
      else (.ok none, s)

/-- The update of the session's own row, freed before `clock - grace`. -/
def reclaimUID (sessionID : SessionID) (clock grace : Time) (_ : Time) (s : State) :
    Except Err (Option UID) × State :=
  match s.allocations.ofSession sessionID with
  | none => (.ok none, s)
  | some r =>
      if r.expired (clock - grace) then
        (.ok (some r.uid), ({ s with allocations := s.allocations.set r.uid .inUse none }).record
          (.reclaimed r.uid sessionID clock grace))
      else (.ok none, s)

/-- The session has a row freed at or after `before`. -/
def freedWithin (sessionID : SessionID) (before : Time) (_ : Time) (s : State) :
    Except Err Bool × State :=
  (.ok ((s.allocations.ofSession sessionID).any fun r =>
    r.state = .freed ∧ r.freedAt.any fun time => before ≤ time), s)

/-- The lowest UID of the range that is free. Its bounds are cast to a signed integer. -/
def selectFree (base n : UInt32) (before : Time) (_ : Time) (s : State) :
    Except Err (Option UID) × State :=
  if 2 ^ 31 ≤ base.toNat ∨ 2 ^ 31 ≤ (base + n - 1).toNat then (.error .store, s)
  else
    (.ok ((List.range' base.toNat ((base + n - 1).toNat + 1 - base.toNat)).find? fun uid =>
      (s.allocations.table.find uid).all fun r => r.expired before), s)

def claimUID (call : Call) (candidate : UID) (clock : Time) (_ : Time) (s : State) :
    Except Err (Option UID) × State :=
  let taken : Event := .claimed candidate call.sessionID call.base call.n clock call.grace
  match s.allocations.table.find candidate with
  | none =>
      match s.allocations.table.insert ⟨candidate, call.sessionID, .inUse, none⟩ with
      | none => (.error .uniqueViolation, s)
      | some table =>
          match Allocations.write table with
          | .error e => (.error e, s)
          | .ok allocations =>
              (.ok (some candidate), ({ s with allocations := allocations }).record taken)
  | some r =>
      if r.expired (clock - call.grace) then
        match Allocations.write (s.allocations.table.update (fun r => r.uid = candidate)
            (fun r => { r with sessionID := call.sessionID, state := .inUse, freedAt := none })
            fun _ => rfl) with
        | .error e => (.error e, s)
        | .ok allocations =>
            (.ok (some candidate), ({ s with allocations := allocations }).record taken)
      else (.error .uidRace, s)

def tryAllocSessionUID (call : Call) : Program (Except Err UID) := do
  let now ← clock
  match ← statement (selectFree call.base call.n (now - call.grace)) with
  | .error e => return .error e
  | .ok none => return .error .uidExhausted
  | .ok (some candidate) =>
      match ← answering call (claimUID call candidate now) with
      | .error e => return .error e
      | .ok none => return .error .store
      | .ok (some uid) => return .ok uid

def retry (call : Call) : Nat → Program (Except Err UID)
  | 0 => return .error .retriesExhausted
  | attempts + 1 => do
      match ← tryAllocSessionUID call with
      | .ok uid => return .ok uid
      | .error .uniqueViolation => retry call attempts
      | .error .uidRace => retry call attempts
      | .error e => return .error e

def allocateSessionUID (sessionID : SessionID) (base n : UInt32) (grace : Time) :
    Program (Except Err UID) := do
  if n = 0 then return .error .uidExhausted
  else
    let now ← clock
    let call : Call := ⟨sessionID, base, n, grace, now⟩
    match ← answering call (holdUID sessionID) with
    | .error e => return .error e
    | .ok (some uid) => return .ok uid
    | .ok none =>
        match ← answering call (reclaimUID sessionID now grace) with
        | .error e => return .error e
        | .ok (some uid) => return .ok uid
        | .ok none =>
            match ← statement (freedWithin sessionID (now - grace)) with
            | .error e => return .error e
            | .ok true => return .error .uidExhausted
            | .ok false => retry call 8

/-! ### Assignments and releases -/

def createAssignment (turnID : TurnID) (runID : RunID) (sessionID : SessionID) (uid gid : UID)
    (_ : Time) (s : State) : Except Err Unit × State :=
  if sessionID = "" ∨ uid = 0 ∨ uid ≠ gid then (.error .sessionIdentityMismatch, s)
  else
    match s.runs.find runID with
    | none => (.error .notFound, s)
    | some run =>
        if run.sessionID ≠ sessionID then (.error .sessionIdentityMismatch, s)
        else
          match s.allocations.ofSession sessionID with
          | none => (.error .sessionUIDUnavailable, s)
          | some r =>
              if r.state ≠ .inUse then (.error .sessionUIDUnavailable, s)
              else if r.uid ≠ uid then (.error .sessionIdentityMismatch, s)
              else
                match s.assignments.insert ⟨turnID, runID, uid, .active⟩ with
                | none => (.error .alreadyAssigned, s)
                | some assignments => (.ok (), { s with assignments := assignments })

/-- `FenceWorkerGeneration` and `FenceWorkerGenerationIf`, as far as one turn is concerned. -/
def fenceAssignment (turnID : TurnID) (_ : Time) (s : State) : Except Err Unit × State :=
  (.ok (), s.setAssignment turnID (· = .active) .fenced)

def terminalizeAssignment (turnID : TurnID) (_ : Time) (s : State) : Except Err Unit × State :=
  (.ok (), s.setAssignment turnID (fun state => state = .active ∨ state = .fenced) .terminal)

def releaseSessionUID (sessionID : SessionID) (now : Time) (s : State) : Except Err Unit × State :=
  match s.allocations.ofSession sessionID with
  | none => (.ok (), s)
  | some r =>
      if r.state = .freed then (.ok (), s)
      else if s.sessionActive sessionID then (.error .sessionUIDActive, s)
      else (.ok (), ({ s with allocations := s.allocations.set r.uid .freed (some now) }).record
        (.freed r.uid sessionID now))

/-- `CreateRun`, as far as sessions are concerned. -/
def createRun (id : RunID) (sessionID : SessionID) (_ : Time) (s : State) : Except Err Unit × State :=
  match s.runs.insert ⟨id, sessionID⟩ with
  | none => (.error .store, s)
  | some runs => (.ok (), { s with runs := runs })

/-- `assign` and `assignGraph`: the same UID goes into the assignment and into `AssignTurn`. -/
def assign (turnID : TurnID) (runID : RunID) (sessionID : SessionID) (base n : UInt32)
    (grace : Time) : Program Unit := do
  match ← allocateSessionUID sessionID base n grace with
  | .error _ => return ()
  | .ok uid =>
      match ← statement (createAssignment turnID runID sessionID uid uid) with
      | .error _ => return ()
      | .ok () => .atomic () fun _ s => some ((), { s with sent := ⟨turnID, sessionID, uid⟩ :: s.sent })

/-! ### The system -/

inductive Request
  | createRun (id : RunID) (sessionID : SessionID)
  | allocate (sessionID : SessionID) (base n : UInt32) (grace : Time)
  | create (turnID : TurnID) (runID : RunID) (sessionID : SessionID) (uid gid : UID)
  | assign (turnID : TurnID) (runID : RunID) (sessionID : SessionID) (base n : UInt32) (grace : Time)
  | fence (turnID : TurnID)
  | terminalize (turnID : TurnID)
  | release (sessionID : SessionID)

def Request.program : Request → Program Unit
  | .createRun id sessionID => do let _ ← statement (SessionUid.createRun id sessionID)
  | .allocate sessionID base n grace => do let _ ← allocateSessionUID sessionID base n grace
  | .create turnID runID sessionID uid gid => do
      let _ ← statement (createAssignment turnID runID sessionID uid gid)
  | .assign turnID runID sessionID base n grace => SessionUid.assign turnID runID sessionID base n grace
  | .fence turnID => do let _ ← statement (fenceAssignment turnID)
  | .terminalize turnID => do let _ ← statement (terminalizeAssignment turnID)
  | .release sessionID => do let _ ← statement (releaseSessionUID sessionID)

/-- Requests in any number and order; a restart loses only the threads. -/
def system : System Unit Input Request State where
  start request _ s := some (s, request.program)
  restart s := s

end Iterabase.SessionUid
