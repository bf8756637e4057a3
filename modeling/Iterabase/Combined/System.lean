/-
**The combined system: the dispatch service and its workers.**

The service and any number of supervisor processes, joined by Work streams. A stream delivers in order
in both directions and may drop at any point, and then loses what is in flight. Worker messages reach
the service only from a supervisor, and control messages reach a supervisor only from the service.

* `next` — one move: of the service, of a worker, of a message over a stream, or a drop.
* `service_reached` — **the service's part of a run is a run of the service**, under the same guard.
-/

import Iterabase.Dispatch.Work
import Iterabase.Harness.Supervisor

namespace Iterabase.Combined

open Conc Option
open Dispatch (Label Input Request Identity Hello WorkerMessage)

/-! ### Data -/

/-- A Work stream. `number` is the supervisor's name for it, once it has been welcomed. -/
structure Stream where
  worker : Nat
  /-- The service's thread that serves it, and its connection. -/
  thread : Nat
  conn : Option Nat := none
  number : Option Nat := none
  toService : List WorkerMessage := []
  toWorker : List Dispatch.ControlMessage := []
  up : Bool := true

/-- A worker process and the stream it opened last. -/
structure Worker where
  identity : Identity
  hello : Hello
  supervisor : Harness.State
  stream : Option Nat := none

structure World : Type 1 where
  service : Config Label Input Dispatch.State
  workers : List Worker
  streams : List Stream := []

inductive Move
  | service (m : Conc.Move Input Request)
  | worker (i : Nat) (m : Harness.Move)
  | dial (i : Nat)
  /-- The first message in flight to the service arrives. -/
  | transmit (k : Nat)
  /-- The first message in flight to the worker arrives. -/
  | deliver (k : Nat) (msg : Harness.ControlMessage) (setup : Harness.State.Setup)
  | drop (k : Nat)

/-! ### Messages -/

/-- What the supervisor reads of a control message. The envelope of an assignment is the control
plane's, and so is the sandbox of a session. -/
def carries : Dispatch.ControlMessage → Harness.ControlMessage → Bool
  | .welcome _, .welcome => true
  | .assignTurn turnID, .assignTurn assignment => assignment.turnID = turnID
  | .abortTurn turnID, .abortTurn turnID' => turnID' = turnID
  | .eventAck turnID n, .eventAck turnID' n' => turnID' = turnID ∧ n' = n
  | .sessionEnd _, .sessionEnd _ => true
  | _, _ => false

/-- What the service sent between two states, oldest first. -/
def sentByService (s s' : Dispatch.State) : List (Nat × Dispatch.ControlMessage) :=
  ((s'.trace.take (s'.trace.length - s.trace.length)).filterMap fun o => match o with
    | .sent w msg _ => some (w.id, msg)
    | _ => none).reverse

/-- What a supervisor sent between two states, oldest first. -/
def sentByWorker (s s' : Harness.State) : List (Nat × WorkerMessage) :=
  ((s'.trace.take (s'.trace.length - s.trace.length)).filterMap fun o => match o with
    | .sent stream msg => some (stream, msg)
    | _ => none).reverse

namespace Stream

/-- The messages the service sent on this stream's connection are in flight. -/
def fromService (st : Stream) (sent : List (Nat × Dispatch.ControlMessage)) : Stream :=
  if st.up then
    { st with toWorker := st.toWorker ++
        (sent.filter fun e => st.conn = some e.1).map Prod.snd }
  else st

/-- The messages the supervisor of worker `i` sent on this stream are in flight. -/
def fromWorker (st : Stream) (i : Nat) (sent : List (Nat × WorkerMessage)) : Stream :=
  if st.up ∧ st.worker = i then
    { st with toService := st.toService ++
        (sent.filter fun e => st.number = some e.1).map Prod.snd }
  else st

def dropped (st : Stream) : Stream := { st with up := false, toService := [], toWorker := [] }

end Stream

namespace World

variable (w : World)

/-! ### Moves -/

/-- A move of the service that no worker takes part in. -/
def internal : Conc.Move Input Request → Bool
  | .start (.connect _ _) | .start (.workerSends _ _) => false
  | _ => true

/-- The streams after a move of the service: a thread that registered its connection has linked its
stream, the messages it sent are in flight, and a restart drops every stream. -/
def served (m : Conc.Move Input Request) (c : Config Label Input Dispatch.State) :
    World :=
  let linked := w.streams.map fun st => match m with
    | .run thread _ =>
        if st.thread = thread ∧ w.service.shared.nextConn < c.shared.nextConn then
          { st with conn := some w.service.shared.nextConn }
        else st
    | .restart => st.dropped
    | .start _ => st
  { w with
    service := c
    streams := linked.map (Stream.fromService · (sentByService w.service.shared c.shared)) }

def worked (i : Nat) (wk : Worker) (s : Harness.State) : World :=
  { w with
    workers := w.workers.set i { wk with supervisor := s }
    streams := w.streams.map (Stream.fromWorker · i (sentByWorker wk.supervisor s)) }

def setStream (i : Nat) (wk : Worker) (stream : Option Nat) : World :=
  { w with workers := w.workers.set i { wk with stream := stream } }

/-- The move of the service that a move of the combined system makes. -/
def serviceMove : Move → Option (Conc.Move Input Request)
  | .service m => if internal m then some m else none
  | .dial i => (w.workers[i]?).map fun wk => .start (.connect wk.identity wk.hello)
  | .transmit k =>
      match w.streams[k]? with
      | some { conn := some conn, toService := msg :: _, .. } => some (.start (.workerSends conn msg))
      | _ => none
  | _ => none

/-- A worker's own move. Its supervisor leaves a stream that ends, and a new attempt or a new process
has none. -/
def workerMove (i : Nat) (wk : Worker) (m : Harness.Move) : Option World :=
  match m with
  | .opened | .control _ _ => none
  | .connect _ | .streamEnds _ | .openFailed | .restart _ =>
      (Harness.next wk.supervisor m).map fun s => w.worked i { wk with stream := none } s
  | _ => (Harness.next wk.supervisor m).map fun s => w.worked i wk s

/-- A message reaches the supervisor: the Welcome it waits for, or the next message of its control
loop. Any other first message fails the attempt. -/
def arrive (k : Nat) (st : Stream) (wk : Worker) (msg : Harness.ControlMessage)
    (setup : Harness.State.Setup) : Option World :=
  if wk.supervisor.loop = .opening then
    if msg = .welcome then
      let st := { st with number := some wk.supervisor.streams }
      (Harness.next wk.supervisor .opened).map fun s =>
        { w with streams := w.streams.set k st }.worked st.worker wk s
    else (Harness.next wk.supervisor .openFailed).map fun s =>
        w.worked st.worker { wk with stream := none } s
  else (Harness.next wk.supervisor (.control msg setup)).map fun s => w.worked st.worker wk s

def next (m : Move) : Option World :=
  match m with
  | .service m => if internal m then (Dispatch.service.next w.service m).map (w.served m) else none
  | .worker i m => (w.workers[i]?).bind fun wk => w.workerMove i wk m
  | .dial i =>
      (w.workers[i]?).bind fun wk =>
        if wk.supervisor.loop = .opening ∧ wk.stream = none then
          (Dispatch.service.next w.service (.start (.connect wk.identity wk.hello))).map fun c =>
            { w.setStream i wk (some w.streams.length) with
              service := c
              streams := w.streams ++ [{ worker := i, thread := w.service.threads.length }] }
        else none
  | .transmit k =>
      match w.streams[k]? with
      | some st =>
          match st.conn, st.toService with
          | some conn, msg :: rest =>
              (Dispatch.service.next w.service (.start (.workerSends conn msg))).map fun c =>
                { w with service := c, streams := w.streams.set k { st with toService := rest } }
          | _, _ => none
      | none => none
  | .deliver k msg setup =>
      match w.streams[k]? with
      | some st =>
          match st.toWorker, w.workers[st.worker]? with
          | first :: rest, some wk =>
              let st := { st with toWorker := rest }
              if carries first msg ∧ wk.stream = some k then
                { w with streams := w.streams.set k st }.arrive k st wk msg setup
              else none
          | _, _ => none
      | none => none
  | .drop k => (w.streams[k]?).map fun st => { w with streams := w.streams.set k st.dropped }

/-! ### The service's part of a run -/

/-- The service's part of the move is one that the guard admits. -/
def Guarded (guard : System.Guard Label Input Request Dispatch.State) (w : World) (m : Move) : Prop :=
  ∀ move ∈ w.serviceMove m, guard.Admits w.service move

instance (guard : System.Guard Label Input Request Dispatch.State)
    [∀ c m, Decidable (guard.Admits c m)] (w : World) (m : Move) : Decidable (w.Guarded guard m) :=
  inferInstanceAs (Decidable (∀ move ∈ w.serviceMove m, _))

/-- The service has done nothing, every supervisor process has just been started, and no stream is
open. -/
structure Initial : Prop where
  service : w.service.shared.Initial
  threads : w.service.threads = []
  workers : ∀ wk ∈ w.workers, wk.supervisor.Initial ∧ wk.stream = none
  streams : w.streams = []

theorem workerMove_service {w w' : World} {i : Nat} {wk : Worker} {m : Harness.Move}
    (moved : w.workerMove i wk m = some w') : w'.service = w.service := by
  unfold workerMove at moved
  split at moved
  case h_1 | h_2 => cases moved
  all_goals
    obtain ⟨s, _, rfl⟩ := map_eq_some_iff.mp moved
    rfl

theorem arrive_service {w w' : World} {k : Nat} {st : Stream} {wk : Worker}
    {msg : Harness.ControlMessage} {setup : Harness.State.Setup}
    (moved : w.arrive k st wk msg setup = some w') : w'.service = w.service := by
  unfold arrive at moved
  split at moved
  · split at moved
    all_goals
      obtain ⟨s, _, rfl⟩ := map_eq_some_iff.mp moved
      rfl
  · obtain ⟨s, _, rfl⟩ := map_eq_some_iff.mp moved
    rfl

theorem next_service {w w' : World} {m : Move} (moved : w.next m = some w') : w'.service = w.service ∨
    ∃ move ∈ w.serviceMove m, Dispatch.service.next w.service move = some w'.service := by
  cases m with
  | service move =>
    simp only [next] at moved
    split at moved
    · rename_i own
      obtain ⟨c, ran, rfl⟩ := map_eq_some_iff.mp moved
      exact .inr ⟨move, if_pos own, ran⟩
    · cases moved
  | worker i m =>
    obtain ⟨wk, _, moved⟩ := bind_eq_some_iff.mp moved
    exact .inl (workerMove_service moved)
  | dial i =>
    obtain ⟨wk, found, moved⟩ := bind_eq_some_iff.mp moved
    split at moved
    · obtain ⟨c, ran, rfl⟩ := map_eq_some_iff.mp moved
      exact .inr ⟨_, map_eq_some_iff.mpr ⟨wk, found, rfl⟩, ran⟩
    · cases moved
  | transmit k =>
    simp only [next] at moved
    split at moved
    · rename_i st found
      split at moved
      · rename_i conn msg rest linked queued
        obtain ⟨c, ran, rfl⟩ := map_eq_some_iff.mp moved
        refine .inr ⟨_, ?_, ran⟩
        obtain ⟨_, _, _, _, _, _, _⟩ := st
        cases linked
        cases queued
        simp [serviceMove, found]
      · cases moved
    · cases moved
  | deliver k msg setup =>
    simp only [next] at moved
    split at moved
    · split at moved
      · split at moved
        · have kept := arrive_service moved
          exact .inl kept
        · cases moved
      · cases moved
    · cases moved
  | drop k =>
    obtain ⟨st, _, rfl⟩ := map_eq_some_iff.mp moved
    exact .inl rfl

/-- **The service's part of a run is a run of the service.** -/
theorem service_reached {guard : System.Guard Label Input Request Dispatch.State} {w₀ w : World}
    (initial : w₀.Initial) (reached : Reach next (Guarded guard) w₀ w) :
    Dispatch.service.Reaches guard w₀.service.shared w.service := by
  induction reached with
  | start =>
    have bare : w₀.service = ⟨w₀.service.shared, []⟩ := by rw [← initial.threads]
    rw [bare]
    exact .start
  | move _ admitted moved ih =>
    rcases next_service moved with same | ⟨move, makes, ran⟩
    · rw [same]
      exact ih
    · exact .move ih (admitted move makes) ran

end World

end Iterabase.Combined
