/-
**The tool gateway — runner streams, their registrations, and the pins of attempts.**

A runner holds a stream to a gateway process. The stream gets a generation from a counter of the
process, and its registrations are addressed by the runner and that generation. An attempt pins the
versions that it may call; a version that is replaced is drained before its runner unloads it.

* `Registration`, `Stream`, `Creation` — a row of `toolgateway.runner_registrations`, the handler of a
  stream, and a transaction that creates an attempt.
* `State.choose`, `State.commit` — the statements of `snapshotToolsTx` and `SnapshotAttemptTools`:
  what is available is read when a version is chosen, and the pin is seen by others after the commit.
* `next` — the system: any number of processes, crashes, streams and attempts.
* `publish_cases`, `beginDrain_cases`, `retire_cases`, `commit_cases` — what a call did that succeeded.
-/

import Iterabase.Gateway.Discovery

namespace Iterabase.Gateway.Runners

/-! ### Rows and handlers -/

structure ToolRef where
  name : String
  digest : String
  deriving DecidableEq

structure Version where
  name : String
  version : String
  digest : String
  effectClass : EffectClass
  /-- The consequence template is not the empty object. -/
  summarized : Bool := true
  deriving DecidableEq

def Version.ref (v : Version) : ToolRef := ⟨v.name, v.digest⟩

/-- A row of `toolgateway.runner_registrations`. The row records neither `stream`, the stream that
registered it, nor `renewedBy`, the stream whose heartbeat renewed it last. -/
structure Registration where
  runnerID : String
  toolName : String
  toolVersion : String
  toolDigest : String
  fencingGeneration : Nat
  lastHeartbeatAt : Int
  active : Bool := true
  acceptingNew : Bool := true
  retired : Bool := false
  stream : Nat
  renewedBy : Option Nat := none

def Registration.ref (r : Registration) : ToolRef := ⟨r.toolName, r.toolDigest⟩

inductive Phase
  | receiving
  | closing
  | ended
  deriving DecidableEq

structure Stream where
  process : Nat
  runnerID : String
  gen : Nat
  phase : Phase := .receiving
  /-- Its first message was an accepted Register. -/
  registered : Bool := false
  /-- The version that is being registered, with the drain state that was read for it. -/
  registering : Option (Version × Bool) := none

/-- The rows that this stream's statements address. -/
def Stream.addresses (st : Stream) (r : Registration) : Bool :=
  r.runnerID = st.runnerID && r.fencingGeneration = st.gen && r.active

structure Process where
  gen : Nat := 0
  alive : Bool := true

structure Creation where
  attemptID : String
  /-- It inserts the row in `work.attempts`; `SnapshotAttemptTools` only pins. -/
  recorded : Bool
  pins : List ToolPin := []
  running : Bool := true

/-- The transaction has chosen the version. -/
def Creation.chose (creation : Creation) (ref : ToolRef) : Bool :=
  creation.pins.any fun pin => pin.toolName = ref.name && pin.toolVersionDigest = ref.digest

structure Attempt where
  id : String
  finished : Bool := false

/-- What a runner was last told is releasable. -/
structure Report where
  runnerID : String
  ref : ToolRef
  /-- A transaction chose the version and `DrainingStatus` did not see its pin: it was open, or it
  chose later. No party knows it. -/
  unseen : Bool

/-- The runner was told that it may unload the version. -/
def Report.allows (told : Report) (st : Stream) (ref : ToolRef) : Bool :=
  told.runnerID = st.runnerID && told.ref = ref

structure State where
  registrations : List Registration := []
  /-- Newest first, as `ORDER BY created_at DESC, id DESC`. -/
  versions : List Version := []
  attempts : List Attempt := []
  pins : List ToolPin := []
  creations : List Creation := []
  processes : List Process := []
  streams : List Stream := []
  reported : List Report := []
  now : Int := 0

namespace State

variable (s : State)

/-! ### Streams -/

def updateRows (p : Registration → Bool) (f : Registration → Registration) : State :=
  { s with registrations := s.registrations.map fun r => if p r then f r else r }

def modifyStream (i : Nat) (f : Stream → Stream) : State :=
  { s with streams := s.streams.modify i f }

def receiving (i : Nat) : Option Stream :=
  (s.streams[i]?).filter fun st => st.phase = .receiving

/-- A handler that is between two messages, past its first Register. -/
def serving (i : Nat) : Option Stream :=
  (s.receiving i).filter fun st => st.registered && st.registering.isNone

/-- `RegisterRunner` up to its first message, for an approved runner. -/
def connect (p : Nat) (runnerID : String) : Option State := do
  let process ← (s.processes[p]?).filter Process.alive
  return { s with
    processes := s.processes.set p { process with gen := process.gen + 1 }
    streams := s.streams ++ [{ process := p, runnerID := runnerID, gen := process.gen + 1 }] }

/-- `RegisterToolVersion`: a known version is left alone, and another digest for its number, or another
number for its digest, is refused. -/
def publish (v : Version) : Option State :=
  if v ∈ s.versions then some s
  else if s.versions.any fun w => w.name = v.name && (w.version = v.version || w.digest = v.digest)
    then none
  else some { s with versions := v :: s.versions }

/-- The drain state that a registration inherits. -/
def inherited (runnerID : String) (v : Version) : Bool :=
  match s.registrations.find? fun r =>
      r.runnerID = runnerID && r.toolName = v.name && r.toolVersion = v.version with
  | none => true
  | some r => r.retired || r.acceptingNew

/-- `handleRegister` up to the first statement of `UpsertRunnerRegistration`. -/
def register (i : Nat) (v : Version) : Option State := do
  let st ← (s.receiving i).filter fun st => st.registering.isNone
  let s ← s.publish v
  return s.modifyStream i fun st' => { st' with registering := some (v, s.inherited st.runnerID v) }

def newRow (i : Nat) (st : Stream) (v : Version) (accepting : Bool) : Registration where
  runnerID := st.runnerID
  toolName := v.name
  toolVersion := v.version
  toolDigest := v.digest
  fencingGeneration := st.gen
  lastHeartbeatAt := s.now
  acceptingNew := accepting
  stream := i

/-- The rest of `UpsertRunnerRegistration`: fence the previous registration and insert the new one. -/
def upsert (i : Nat) : Option State := do
  let st ← s.receiving i
  let (v, accepting) ← st.registering
  let fenced := s.updateRows (fun r => r.runnerID = st.runnerID && r.toolName = v.name &&
    r.toolVersion = v.version && r.active) fun r => { r with active := false }
  return { fenced with registrations := s.newRow i st v accepting :: fenced.registrations }.modifyStream
    i fun st' => { st' with registered := true, registering := none }

def heartbeat (i : Nat) : Option State := do
  let st ← s.serving i
  return s.updateRows st.addresses fun r => { r with lastHeartbeatAt := s.now, renewedBy := some i }

/-- The teardown of a stream, up to its write. -/
def disconnect (i : Nat) : Option State := do
  let _ ← s.receiving i
  return s.modifyStream i fun st => { st with phase := .closing }

def deactivate (i : Nat) : Option State := do
  let st ← (s.streams[i]?).filter fun st => st.phase = .closing
  return (s.updateRows st.addresses fun r => { r with active := false }).modifyStream i
    fun st => { st with phase := .ended }

def crash (p : Nat) : State :=
  { s with
    processes := s.processes.modify p fun process => { process with alive := false }
    streams := s.streams.map fun st => if st.process = p then { st with phase := .ended } else st }

/-! ### Draining -/

def validRefs (refs : List ToolRef) : Bool :=
  !refs.isEmpty && refs.all (fun ref => ref.name ≠ "" && ref.digest ≠ "") && refs.Nodup

/-- `BeginDrain`: what the message does not name accepts new attempts, what it names does not; a
reference without a row rolls back. -/
def beginDrain (i : Nat) (refs : List ToolRef) : Option State := do
  let st ← s.serving i
  if !validRefs refs then none
  else if refs.any fun ref => !s.registrations.any fun r => st.addresses r && r.ref = ref then none
  else return s.updateRows st.addresses fun r => { r with acceptingNew := r.ref ∉ refs }

def unfinished (attemptID : String) : Bool :=
  (s.attempts.find? fun a => a.id = attemptID).all fun a => !a.finished

def pinned (ref : ToolRef) : Bool :=
  s.pins.any fun pin => pin.toolName = ref.name && pin.toolVersionDigest = ref.digest &&
    s.unfinished pin.attemptID

def draining (st : Stream) : List ToolRef :=
  (s.registrations.filter fun r => st.addresses r && !r.acceptingNew).map Registration.ref

/-- `DrainingStatus`: the versions that may be unloaded. -/
def releasable (st : Stream) : List ToolRef :=
  (s.draining st).filter fun ref => !s.pinned ref

def choosing (ref : ToolRef) : Bool :=
  s.creations.any fun creation => creation.running && creation.chose ref

/-- `sendDrainStatus`: the runner is told of every draining version, unless the message is lost. -/
def report (i : Nat) (delivered : Bool) : Option State := do
  let st ← s.serving i
  if delivered then
    return { s with reported := (s.releasable st).map (fun ref => ⟨st.runnerID, ref, s.choosing ref⟩) ++
      s.reported.filter fun told => !(told.runnerID = st.runnerID && told.ref ∈ s.draining st) }
  else return s

/-- The rows that `RetireVersions` retires for a reference. -/
def drained (st : Stream) (ref : ToolRef) (r : Registration) : Bool :=
  st.addresses r && r.ref = ref && !r.acceptingNew

/-- `RetireVersions` for one reference of a Retired message. The runner sends it only for what it was
last told is releasable. -/
def retire (i : Nat) (ref : ToolRef) : Option State := do
  let st ← s.serving i
  if !s.reported.any (·.allows st ref) then none
  else if !s.registrations.any (drained st ref) then none
  else return { s.updateRows (drained st ref) (fun r => { r with
      active := false, acceptingNew := false, retired := true }) with
    reported := s.reported.filter fun told => !told.allows st ref }

/-! ### Attempts -/

def available (v : Version) : Bool :=
  (v.effectClass = .readOnly || v.summarized) && s.registrations.any fun r =>
    r.ref = v.ref && r.active && r.acceptingNew && s.now - 30 < r.lastHeartbeatAt

/-- The version that is chosen of a tool, under the ceilings of the pool's grant and of the
capability. -/
def chosen (name : String) (granted requested : EffectClass) : Option Version :=
  s.versions.find? fun v => v.name = name && s.available v &&
    effectRank v.effectClass.text ≤ effectRank granted.text &&
    effectRank v.effectClass.text ≤ effectRank requested.text

def beginAttempt (attemptID : String) (recorded : Bool) : State :=
  { s with creations := s.creations ++ [{ attemptID, recorded }] }

def creating (c : Nat) : Option Creation := (s.creations[c]?).filter Creation.running

/-- One tool of `snapshotToolsTx`, or of `SnapshotAttemptTools`. -/
def choose (c : Nat) (name : String) (granted requested : EffectClass) : Option State := do
  let creation ← s.creating c
  let v ← s.chosen name granted requested
  return { s with
    creations := s.creations.modify c fun creation' => { creation' with
      pins := creation.pins ++ [⟨creation.attemptID, name, v.digest⟩] }
    reported := s.reported.map fun told =>
      if told.ref = v.ref then { told with unseen := true } else told }

def addPin (pins : List ToolPin) (pin : ToolPin) : List ToolPin :=
  if pins.any fun p => p.attemptID = pin.attemptID && p.toolName = pin.toolName then pins
  else pin :: pins

def close (c : Nat) : State :=
  { s with creations := s.creations.modify c fun creation => { creation with running := false } }

def commit (c : Nat) : Option State := do
  let creation ← s.creating c
  if creation.recorded && s.attempts.any fun a => a.id = creation.attemptID then none
  else return { s with
    pins := creation.pins.foldl addPin s.pins
    attempts := if creation.recorded then ⟨creation.attemptID, false⟩ :: s.attempts
      else s.attempts }.close c

def finish (attemptID : String) : State :=
  { s with attempts := s.attempts.map fun a =>
      if a.id = attemptID then { a with finished := true } else a }

end State

/-! ### The system -/

/-- A step of the gateway processes, the runners, or the attempts. A store call that fails has no
step; one that fails after its commit is followed by the end of its stream or transaction. -/
inductive Move
  | startProcess
  | crash (process : Nat)
  | connect (process : Nat) (runnerID : String)
  | register (stream : Nat) (v : Version)
  | upsert (stream : Nat)
  | heartbeat (stream : Nat)
  | disconnect (stream : Nat)
  | deactivate (stream : Nat)
  | beginDrain (stream : Nat) (refs : List ToolRef)
  | report (stream : Nat) (delivered : Bool)
  | retire (stream : Nat) (ref : ToolRef)
  | beginAttempt (attemptID : String) (recorded : Bool)
  | choose (creation : Nat) (name : String) (granted requested : EffectClass)
  | commit (creation : Nat)
  | rollback (creation : Nat)
  | finish (attemptID : String)
  | tick (seconds : Nat)

def next (s : State) : Move → Option State
  | .startProcess => some { s with processes := s.processes ++ [{}] }
  | .crash p => some (s.crash p)
  | .connect p runnerID => s.connect p runnerID
  | .register i v => s.register i v
  | .upsert i => s.upsert i
  | .heartbeat i => s.heartbeat i
  | .disconnect i => s.disconnect i
  | .deactivate i => s.deactivate i
  | .beginDrain i refs => s.beginDrain i refs
  | .report i delivered => s.report i delivered
  | .retire i ref => s.retire i ref
  | .beginAttempt attemptID recorded => some (s.beginAttempt attemptID recorded)
  | .choose c name granted requested => s.choose c name granted requested
  | .commit c => s.commit c
  | .rollback c => some (s.close c)
  | .finish attemptID => some (s.finish attemptID)
  | .tick seconds => some { s with now := s.now + seconds }

/-! ### Calls that succeed -/

variable {s s' : State}

theorem publish_cases {v : Version} (published : s.publish v = some s') :
    ∃ versions, s' = { s with versions } := by
  simp only [State.publish] at published
  split at published
  · cases published
    exact ⟨s.versions, rfl⟩
  split at published
  · cases published
  · cases published
    exact ⟨v :: s.versions, rfl⟩

theorem beginDrain_cases {i : Nat} {refs : List ToolRef} (moved : s.beginDrain i refs = some s') :
    ∃ st, s.serving i = some st ∧
    s' = s.updateRows st.addresses fun r => { r with acceptingNew := r.ref ∉ refs } := by
  obtain ⟨st, serving, made⟩ := Option.bind_eq_some_iff.mp moved
  split at made
  · cases made
  split at made
  · cases made
  · exact ⟨st, serving, (Option.some.inj made).symm⟩

theorem retire_cases {i : Nat} {ref : ToolRef} (moved : s.retire i ref = some s') :
    ∃ st, s.serving i = some st ∧ (∃ told ∈ s.reported, told.allows st ref) ∧
      s' = { s.updateRows (State.drained st ref) (fun r => { r with
          active := false, acceptingNew := false, retired := true }) with
        reported := s.reported.filter fun told => !told.allows st ref } := by
  obtain ⟨st, serving, made⟩ := Option.bind_eq_some_iff.mp moved
  split at made
  · cases made
  next told =>
  split at made
  · cases made
  · exact ⟨st, serving, by simpa using told, (Option.some.inj made).symm⟩

theorem commit_cases {c : Nat} (moved : s.commit c = some s') :
    ∃ creation, s.creating c = some creation ∧
      (creation.recorded → ∀ a ∈ s.attempts, a.id ≠ creation.attemptID) ∧
      s' = { s with
        pins := creation.pins.foldl State.addPin s.pins
        attempts := if creation.recorded then ⟨creation.attemptID, false⟩ :: s.attempts
          else s.attempts }.close c := by
  obtain ⟨creation, creating, made⟩ := Option.bind_eq_some_iff.mp moved
  split at made
  · cases made
  next new => exact ⟨creation, creating, by simpa using new, (Option.some.inj made).symm⟩

end Iterabase.Gateway.Runners
