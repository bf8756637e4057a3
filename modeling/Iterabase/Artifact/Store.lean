/-
**Artifacts — the metadata, the objects, and the statements on them.**

The bytes of an artifact lie in an object store under a key of their own; a row in Postgres says where
they are and whether they may be read. The two stores share no transaction.

* `Artifact` — a row of `artifact.artifacts`, with what its lifecycle reads and writes.
* `State` — the rows, the objects, the ids that were issued, and the processes that crashed. `uploads`
  and `created` are records that no party reads.
* `insertPending`, `finalize`, `beginDelete`, `finishDelete`, `deletePending`, `stalePending`,
  `expired`, `deleting` — the statements of `store.go`, each with its `WHERE`.
-/

import Mathlib
import Iterabase.Conc.Table

namespace Iterabase.Artifact

open Conc

/-! ### Rows and inputs -/

inductive Lifecycle
  | pending
  | available
  | deleting
  | deleted
  deriving DecidableEq

structure Artifact where
  id : String
  storageKey : String
  sizeBytes : Option Nat := none
  digest : Option String := none
  state : Lifecycle := .pending
  retentionUntil : Option Int := none
  deletionReason : Option String := none
  deletionError : Option String := none
  createdAt : Int
  deletionStartedAt : Option Int := none

structure Scope where
  workItemID : String
  attemptID : String
  nodeExecutionID : String := ""
  role : String

structure UploadInput where
  sourceType : String
  createdByIdentityID : String
  mimeType : String
  expectedSize : Option Int := none
  expectedDigest : String := ""
  retentionUntil : Option Int := none
  scope : Option Scope := none

def UploadInput.row (in' : UploadInput) (id key : String) (now : Int) : Artifact where
  id := id
  storageKey := key
  retentionUntil := in'.retentionUntil
  createdAt := now

def Artifact.finalized (size : Nat) (digest : String) (a : Artifact) : Artifact :=
  { a with sizeBytes := some size, digest := some digest, state := .available }

def Artifact.startDeleting (reason : String) (now : Int) (a : Artifact) : Artifact :=
  { a with
    state := .deleting
    deletionReason := some reason
    deletionStartedAt := some (a.deletionStartedAt.getD now)
    deletionError := none }

def Artifact.finishDeleting (a : Artifact) : Artifact :=
  { a with state := .deleted, deletionError := none }

inductive Err
  | notFound
  | unauthorized
  | invalidInput (detail : String)
  | digest (expected got : String)
  | size (expected : Int) (got : Nat)
  | tooLarge
  | infrastructure (text : String)

def Err.text : Err → String
  | .notFound => "artifact: not found"
  | .unauthorized => "artifact: unauthorized"
  | .invalidInput detail => "artifact: invalid input: " ++ detail
  | .digest expected got => "artifact: digest mismatch: expected " ++ expected ++ ", got " ++ got
  | .size expected got => "artifact: size mismatch: expected " ++ toString expected ++ ", got " ++
      toString got
  | .tooLarge => "artifact: exceeds maximum size"
  | .infrastructure text => text

/-- Whether a call fails, and whether it took effect all the same. -/
inductive Fault
  | none
  | before (text : String)
  | after (text : String)

/-- The call took effect, and its caller does not know. -/
def Fault.lost : Fault → Bool
  | .after _ => true
  | _ => false

structure Input where
  fault : Fault := .none
  now : Int := 0
  uuid : String := ""
  /-- The attempt of a scope exists, with its node execution. -/
  inScope : Bool := true
  /-- Why the link of an artifact is refused. -/
  link : Option String := .none

/-! ### The state -/

structure Upload where
  thread : Nat
  process : Nat

abbrev Bytes := List UInt8

structure State where
  artifacts : Table Artifact.id := .empty
  objects : String → Option Bytes := fun _ => none
  /-- The ids that `uuid.NewString` returned. It never repeats one. -/
  issued : List String := []
  /-- The ids whose row was committed. -/
  created : List String := []
  /-- The uploads that can still write their object or their row. -/
  uploads : String → Option Upload := fun _ => none
  /-- The processes that ended. -/
  crashed : List Nat := []

def objectKey (id : String) : String := "artifacts/" ++ id

theorem objectKey_inj {id id' : String} : objectKey id = objectKey id' ↔ id = id' :=
  String.append_right_inj _

namespace State

variable (s : State)

def row (id : String) : Option Artifact := s.artifacts.find id

def object (id : String) : Option Bytes := s.objects (objectKey id)

/-- The upload writes nothing more, but for its cleanup. -/
def giveUp (id : String) : State :=
  { s with uploads := fun k => if k = id then none else s.uploads k }

/-! ### Objects -/

def putObject (key : String) (content : Bytes) : State :=
  { s with objects := fun k => if k = key then some content else s.objects k }

/-- `RemoveObject`, which succeeds without an object too. -/
def removeObject (key : String) : State :=
  { s with objects := fun k => if k = key then none else s.objects k }

/-! ### Statements -/

/-- Rewrite the row with this id, where the `WHERE` holds. -/
def updateRow (id : String) (p : Lifecycle → Bool) (f : Artifact → Artifact)
    (keeps : ∀ a, (f a).id = a.id) : State :=
  { s with artifacts := s.artifacts.update (fun a => a.id = id && p a.state) f keeps }

def createPending (id key : String) (in' : UploadInput) (now : Int) :
    Except Err Artifact × State := match s.artifacts.insert (in'.row id key now) with
  | none => (.error (.infrastructure "create pending artifact"), s)
  | some artifacts =>
      (.ok (in'.row id key now), { s with artifacts := artifacts, created := id :: s.created })

def validateScope (scope : Scope) (inScope : Bool) : Except Err Unit :=
  if scope.workItemID = "" || scope.attemptID = "" || scope.role = "" then
    .error (.invalidInput "incomplete work scope")
  else if inScope then .ok () else .error .unauthorized

def linkArtifact (id : String) (scope : Option Scope) (input : Input) : Except Err Unit :=
  match scope with
  | none => .ok ()
  | some scope => do
      validateScope scope input.inScope
      match input.link, s.row id with
      | some text, _ => .error (.infrastructure text)
      | none, none => .error (.infrastructure "link artifact")
      | none, some _ => .ok ()

def makeAvailable (id : String) (size : Nat) (digest : String) : State :=
  s.updateRow id (· = .pending) (Artifact.finalized size digest) fun _ => rfl

def finalize (id : String) (size : Nat) (digest : String) (scope : Option Scope)
    (input : Input) : Except Err Artifact × State := match s.linkArtifact id scope input with
  | .error err => (.error err, s)
  | .ok () =>
      match (s.row id).filter fun a => a.state = .pending with
      | none => (.error .notFound, s)
      | some a => (.ok (a.finalized size digest), s.makeAvailable id size digest)

def beginDelete (id reason : String) (now : Int) : Option Artifact × State :=
  match (s.row id).filter fun a => a.state = .available || a.state = .deleting with
  | none => (none, s)
  | some a => (some (a.startDeleting reason now),
      s.updateRow id (fun state => state = .available || state = .deleting)
        (Artifact.startDeleting reason now) fun _ => rfl)

def finishDelete (id : String) : Bool × State :=
  ((s.row id).any fun a => a.state = .deleting,
    s.updateRow id (· = .deleting) Artifact.finishDeleting fun _ => rfl)

def recordDeleteError (id text : String) : State :=
  s.updateRow id (· = .deleting) (fun a => { a with deletionError := some text }) fun _ => rfl

def deletePending (id : String) : State :=
  { s with artifacts := s.artifacts.remove fun a => a.id = id && a.state = .pending }

/-- `listLifecycle`: the oldest rows that the predicate selects. -/
def listLifecycle (p : Artifact → Bool) (limit : Nat) : List Artifact :=
  ((s.artifacts.rows.filter p).insertionSort fun a b => a.createdAt ≤ b.createdAt).take limit

def stalePending (before : Int) (limit : Nat) : List Artifact :=
  s.listLifecycle (fun a => a.state = .pending && a.createdAt < before) limit

def expired (now : Int) (limit : Nat) : List Artifact :=
  s.listLifecycle (fun a => a.state = .available && a.retentionUntil.any (· ≤ now)) limit

def deleting (before : Int) (limit : Nat) : List Artifact :=
  s.listLifecycle (fun a => a.state = .deleting && a.deletionStartedAt.any (· ≤ before)) limit

end State

end Iterabase.Artifact
