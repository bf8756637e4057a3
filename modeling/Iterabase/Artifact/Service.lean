/-
**Artifacts — Upload, Delete and the sweeper.**

`service.go` as programs of atomic actions: a statement or a transaction of Postgres, or a call of the
object store. Any of them may fail, before or after it took effect, and a process may end between any
two.

* `validateUpload`, `refusal` — what is checked before and after the bytes were written.
* `upload`, `delete`, `sweep` — **the three procedures.**
* `service` — the system: any number of processes, uploads, deletions and sweeps.
-/

import Iterabase.Conc.Logic
import Iterabase.Artifact.Store

namespace Iterabase.Artifact

open Conc

/-! ### Checks -/

/-- `Config`, after `defaults`. -/
structure Config where
  maxSize : Int := 2 ^ 30
  defaultRetention : Int := 0
  pendingTTL : Int := 3600

def Config.limit (cfg : Config) : Nat := (Int.bmod (cfg.maxSize + 1) (2 ^ 64)).toNat

structure Library where
  sha256 : Bytes → String
  /-- Why `mime.ParseMediaType` refuses a type. -/
  parseMediaType : String → Option String

variable (lib : Library) (cfg : Config)

def Library.digest (content : Bytes) : String := "sha256:" ++ lib.sha256 content

def isHex (c : Char) : Bool :=
  ('0' ≤ c && c ≤ '9') || ('a' ≤ c && c ≤ 'f') || ('A' ≤ c && c ≤ 'F')

def checkDigest (digest : String) : Option Err :=
  if digest = "" then none
  else if digest.utf8ByteSize ≠ "sha256:".utf8ByteSize + 64 ||
      !"sha256:".toList.isPrefixOf digest.toLower.toList then
    some (.invalidInput "expected digest must be sha256:<hex>")
  else if !(digest.toList.drop 7).all isHex then some (.invalidInput "malformed expected digest")
  else none

def validateUpload (in' : UploadInput) : Option Err :=
  if in'.sourceType ∉ ["user_upload", "sandbox_publish", "tool_output", "workflow"] then
    some (.invalidInput "invalid source type")
  else if in'.createdByIdentityID = "" then some (.invalidInput "creator identity is required")
  else if in'.mimeType = "" then some (.invalidInput "MIME type is required")
  else match lib.parseMediaType in'.mimeType with
    | some text => some (.invalidInput ("invalid MIME type: " ++ text))
    | none =>
        if in'.expectedSize.any (· < 0) then some (.invalidInput "expected size cannot be negative")
        else checkDigest in'.expectedDigest

/-- Why what was written is refused. -/
def refusal (in' : UploadInput) (content : Bytes) : Option Err :=
  if cfg.maxSize < content.length then some .tooLarge
  else match in'.expectedSize.filter (· ≠ (content.length : Int)) with
    | some expected => some (.size expected content.length)
    | none =>
        if in'.expectedDigest ≠ "" && in'.expectedDigest.toLower ≠ (lib.digest content).toLower then
          some (.digest in'.expectedDigest (lib.digest content))
        else none

/-! ### Actions -/

inductive Label
  | plain
  | stalePending (ttl : Int)
  | finalize

abbrev Program := Prog Label Input State

def locally {α : Type} (process : Nat) (label : Label) (f : Input → State → α × State) : Program α :=
  .atomic label fun input s => if process ∈ s.crashed then none else some (f input s)

def call {α : Type} (tx : Input → State → Except Err α × State) (input : Input) (s : State) :
    Except Err α × State := match input.fault with
  | .none => tx input s
  | .before text => (.error (.infrastructure text), s)
  | .after text => (.error (.infrastructure text), (tx input s).2)

def answering {α : Type} (result : α × State) : Except Err α × State := (.ok result.1, result.2)

/-- An upload that gets an error, or that `leaves` anyway, writes nothing more, but for its cleanup. -/
def leaving {α : Type} (id : String) (leaves : Bool) (result : Except Err α × State) :
    Except Err α × State :=
  (result.1, if leaves || !result.1.isOk then result.2.giveUp id else result.2)

def newString (process thread : Nat) : Program (String × Int) :=
  .atomic .plain fun input s =>
    if process ∈ s.crashed || input.uuid ∈ s.issued then none
    else some ((input.uuid, input.now), { s with
      issued := input.uuid :: s.issued
      uploads := fun id => if id = input.uuid then some ⟨thread, process⟩ else s.uploads id })

variable (process : Nat)

def createPending (id key : String) (in' : UploadInput) :
    Program (Except Err Artifact) := locally process .plain fun input s =>
    leaving id false (call (fun input s => s.createPending id key in' input.now) input s)

def statObject (id key : String) : Program (Except Err Unit) :=
  locally process .plain fun input s => leaving id false (call (fun _ s =>
    if (s.objects key).isSome then
      (.error (.infrastructure ("refusing to overwrite existing artifact object " ++ key.quote)), s)
    else (.ok (), s)) input s)

/-- `PutObject`. An upload whose bytes will be refused writes nothing more. -/
def putObject (id key : String) (content : Bytes) (refused : Bool) :
    Program (Except Err Unit) := locally process .plain fun input s =>
    leaving id refused (call (fun _ s => (.ok (), s.putObject key content)) input s)

def deleteObject (key : String) : Program (Except Err Unit) :=
  locally process .plain (call fun _ s => (.ok (), s.removeObject key))

def finalize (id : String) (size : Nat) (digest : String) (scope : Option Scope) :
    Program (Except Err Artifact) := locally process .finalize fun input s =>
    leaving id true (call (fun input s => s.finalize id size digest scope input) input s)

def get (id : String) : Program (Except Err Artifact) :=
  locally process .plain (call fun _ s => (match s.row id with
    | none => .error .notFound
    | some a => .ok a, s))

/-- `BeginDelete`: a row that is deleted already is returned as it is. -/
def beginDelete (id reason : String) : Program (Except Err Artifact) := do
  let updated ← locally process .plain (call fun input s =>
    answering (s.beginDelete id reason input.now))
  match updated with
  | .error err => return .error err
  | .ok (some a) => return .ok a
  | .ok none =>
      match ← get process id with
      | .ok existing => if existing.state = .deleted then return .ok existing else return .error .notFound
      | .error _ => return .error .notFound

/-- `FinishDelete`: a row that is deleted already will do. -/
def finishDelete (id : String) : Program (Except Err Unit) := do
  let updated ← locally process .plain (call fun _ s => answering (s.finishDelete id))
  match updated with
  | .error err => return .error err
  | .ok true => return .ok ()
  | .ok false =>
      match ← get process id with
      | .ok existing => if existing.state = .deleted then return .ok () else return .error .notFound
      | .error _ => return .error .notFound

def recordDeleteError (id text : String) : Program Unit := do
  let _ ← locally process .plain (call fun _ s => (.ok (), s.recordDeleteError id text))
  return ()

def deletePending (id : String) : Program Unit := do
  let _ ← locally process .plain (call fun _ s => (.ok (), s.deletePending id))
  return ()

def list (label : Label) (f : Int → State → List Artifact) :
    Program (Except Err (List Artifact)) :=
  locally process label (call fun input s => (.ok (f input.now s), s))

/-! ### The procedures -/

/-- `cleanupPending`, and what the sweeper does with a stale row: the row stays where the object could
not be deleted. -/
def removePending (a : Artifact) : Program Unit := do
  match ← deleteObject process a.storageKey with
  | .error _ => return ()
  | .ok () => deletePending process a.id

def put (id key : String) (content : Bytes) (refused : Bool) :
    Program (Except Err Unit) := do
  match ← statObject process id key with
  | .error err => return .error err
  | .ok () => putObject process id key content refused

def uploadAs (in' : UploadInput) (body : Bytes) (id : String) :
    Program (Except Err Artifact) := do
  let content := body.take cfg.limit
  match ← createPending process id (objectKey id) in' with
  | .error err => return .error err
  | .ok pending =>
      match ← put process id (objectKey id) content (refusal lib cfg in' content).isSome with
      | .error err => do
          removePending process pending
          return .error err
      | .ok () =>
          match refusal lib cfg in' content with
          | some err => do
              removePending process pending
              return .error err
          | none =>
              match ← finalize process id content.length (lib.digest content) in'.scope with
              | .ok a => return .ok a
              | .error err => do
                  let _ ← deleteObject process (objectKey id)
                  return .error err

def upload (process thread : Nat) (in' : UploadInput) (body : Option Bytes) :
    Program (Except Err Artifact) := do
  match validateUpload lib in', body with
  | some err, _ => return .error err
  | none, none => return .error (.invalidInput "body is required")
  | none, some body =>
      let (id, now) ← newString process thread
      let retention := if in'.retentionUntil.isNone && 0 < cfg.defaultRetention then
        some (now + cfg.defaultRetention) else in'.retentionUntil
      uploadAs lib cfg process { in' with retentionUntil := retention } body id

def delete (id reason : String) : Program (Except Err Artifact) := do
  match ← beginDelete process id (if reason = "" then "explicit" else reason) with
  | .error err => return .error err
  | .ok a =>
      if a.state = .deleted then return .ok a
      else
        match ← deleteObject process a.storageKey with
        | .error err => do
            recordDeleteError process id err.text
            return .error err
        | .ok () =>
            match ← finishDelete process id with
            | .error err => return .error err
            | .ok () => get process id

def removeAll : List Artifact → Program Unit
  | [] => return ()
  | a :: rest => do
      removePending process a
      removeAll rest

def deleteAll (reason : Artifact → String) : List Artifact → Program Unit
  | [] => return ()
  | a :: rest => do
      let _ ← delete process a.id (reason a)
      deleteAll reason rest

def valueOr (value : Option String) (fallback : String) : String :=
  (value.filter (· ≠ "")).getD fallback

/-- A list that could not be read is passed over. -/
def forList (listed : Program (Except Err (List Artifact))) (f : List Artifact → Program Unit) :
    Program Unit := do
  match ← listed with
  | .error _ => return ()
  | .ok rows => f rows

def sweep (process : Nat) : Program Unit := do
  forList (list process (.stalePending cfg.pendingTTL) fun now s =>
    s.stalePending (now - cfg.pendingTTL) 100) (removeAll process)
  forList (list process .plain fun now s => s.expired now 100)
    (deleteAll process fun _ => "retention_expired")
  forList (list process .plain fun now s => s.deleting now 100)
    (deleteAll process fun a => valueOr a.deletionReason "deletion_retry")

/-! ### The system -/

inductive Request
  | upload (process : Nat) (in' : UploadInput) (body : Option Bytes)
  | delete (process : Nat) (id reason : String)
  | sweep (process : Nat)
  | crash (process : Nat)

def State.crash (s : State) (process : Nat) : State :=
  { s with
    crashed := process :: s.crashed
    uploads := fun id => (s.uploads id).filter fun u => u.process ≠ process }

def Request.program (thread : Nat) : Request → Program Unit
  | .upload process in' body => do
      let _ ← Artifact.upload lib cfg process thread in' body
      return ()
  | .delete process id reason => do
      let _ ← Artifact.delete process id reason
      return ()
  | .sweep process => Artifact.sweep cfg process
  | .crash _ => return ()

def service : System Label Input Request State where
  start request thread s := some (match request with
    | .crash process => s.crash process
    | _ => s, request.program lib cfg thread)
  restart s := { s with uploads := fun _ => none }

end Iterabase.Artifact
