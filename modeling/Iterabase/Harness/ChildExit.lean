/-
**Harness — the output of a child and its exit.**

`child-process.ts`. The frames that the child writes to its audit channel and the notification of its
exit reach the supervisor separately: a chunk of bytes goes through the frame reader into the queue of
events and the provisional result; the exit closes the queue and settles the result from what has been
read by then. Node gives no order between the two.

* `onFrame`, `feed`, `onExit` — the handlers; `next` — one of them, or the consumer's next question.
-/

import Iterabase.Conc.Run
import Iterabase.Data.Framing

namespace Iterabase.Harness.ChildExit

open Conc Framing List

/-! ### The queue of events -/

/-- Values that nobody has asked for, or consumers that wait, one more than the number says. -/
inductive Pending (α : Type)
  | values (buf : List α)
  | waiters (others : Nat)

/-- `AsyncQueue`, with what its consumer has been given. -/
structure AsyncQueue (α : Type) where
  pending : Pending α := .values []
  closed : Bool := false
  yielded : List α := []
  ended : Bool := false

open AsyncQueue

namespace AsyncQueue

variable {α : Type} {q : AsyncQueue α} {v : α}

def push (q : AsyncQueue α) (v : α) : AsyncQueue α :=
  if q.closed then q
  else match q.pending with
    | .values buf => { q with pending := .values (buf ++ [v]) }
    | .waiters 0 => { q with pending := .values [], yielded := q.yielded ++ [v] }
    | .waiters (others + 1) => { q with pending := .waiters others, yielded := q.yielded ++ [v] }

def close (q : AsyncQueue α) : AsyncQueue α :=
  match q.pending with
  | .values _ => { q with closed := true }
  | .waiters _ => { q with pending := .values [], closed := true, ended := true }

def next (q : AsyncQueue α) : AsyncQueue α :=
  match q.pending with
  | .values (v :: buf) => { q with pending := .values buf, yielded := q.yielded ++ [v] }
  | .values [] => if q.closed then { q with ended := true } else { q with pending := .waiters 0 }
  | .waiters others =>
    if q.closed then { q with ended := true } else { q with pending := .waiters (others + 1) }

def contents (q : AsyncQueue α) : List α :=
  match q.pending with
  | .values buf => q.yielded ++ buf
  | .waiters _ => q.yielded

/-- The consumer sees the end of a closed queue that has given it everything. -/
def Drained (q : AsyncQueue α) : Prop := q.ended → q.closed ∧ q.contents = q.yielded

theorem push_open (opened : q.closed = false) : (q.push v).contents = q.contents ++ [v] ∧
    (q.push v).closed = false ∧ (q.push v).ended = q.ended := by
  obtain ⟨buf | _ | others, _, _, _⟩ := q <;> cases opened <;> simp [push, contents]

theorem close_contents : q.close.contents = q.contents ∧ q.close.closed := by
  obtain ⟨buf | others, _, _, _⟩ := q <;> simp [close, contents]

theorem next_contents : q.next.contents = q.contents ∧ q.next.closed = q.closed := by
  obtain ⟨(_ | ⟨v, buf⟩) | others, _ | _, _, _⟩ := q <;> simp [next, contents]

theorem Drained.close (drained : q.Drained) : q.close.Drained := by
  obtain ⟨buf | others, _, _, _⟩ := q
  · exact fun ended => ⟨rfl, (drained ended).2⟩
  · exact fun _ => ⟨rfl, append_nil _⟩

theorem Drained.next (drained : q.Drained) : q.next.Drained := by
  obtain ⟨(_ | ⟨v, buf⟩) | others, _ | _, _, _⟩ := q <;> simp_all [Drained, next, contents]

end AsyncQueue

/-! ### The handlers -/

structure ChildResult where
  outcome : Int
  message : Option String
  deriving DecidableEq

/-- The values of `Outcome` that the exit handler gives. -/
def Outcome.aborted : Int := 2
def Outcome.failed : Int := 3

/-- A frame of the audit channel, with the payload of an event as JSON. -/
inductive ChildFrame (J : Type)
  | event (event : J)
  | tokenDelta (contentIndex : Int) (thinking : Bool) (delta : String)
  | heartbeat
  | result (outcome : Int) (message : Option String)

inductive ChildEvent (P : Type)
  | event (payload : P)
  | tokenDelta (contentIndex : Int) (thinking : Bool) (delta : String)

structure Codec (J P : Type) where
  /-- `JSON.parse` and `parseChildFrame`. -/
  parseChildFrame : List UInt8 → Option (ChildFrame J)
  /-- `fromJson` at `TurnEventSchema`. -/
  fromJson : J → Option P

def maxFrameBytes : Nat := 16 * 1024 * 1024

def auditOverflowExitCode : Int := 8

structure State (P : Type) where
  /-- What the child has written and no chunk has brought yet. -/
  pipe : List UInt8
  buf : List UInt8 := []
  provisional : Option ChildResult := none
  events : AsyncQueue (ChildEvent P) := {}
  exited : Bool := false
  result : Option ChildResult := none

def State.start {P : Type} (bodies : List (List UInt8)) : State P := { pipe := (bodies.map encode).flatten }

variable {J P : Type} (codec : Codec J P)

def State.onFrame (s : State P) (body : List UInt8) : State P :=
  match codec.parseChildFrame body with
  | none | some .heartbeat => s
  | some (.tokenDelta contentIndex thinking delta) =>
    { s with events := s.events.push (.tokenDelta contentIndex thinking delta) }
  | some (.event event) =>
    match codec.fromJson event with
    | some payload => { s with events := s.events.push (.event payload) }
    | none => s
  | some (.result outcome message) => { s with provisional := some ⟨outcome, message⟩ }

def State.feed (s : State P) (chunk : List UInt8) : State P :=
  { (deframe maxFrameBytes (s.buf ++ chunk)).1.foldl (State.onFrame codec) s with
    buf := (deframe maxFrameBytes (s.buf ++ chunk)).2 }

def exitResult (code : Int) (signal : Option String) (provisional : Option ChildResult) : ChildResult :=
  match signal with
  | some signal => ⟨Outcome.aborted, s!"child killed by {signal}"⟩
  | none =>
    if code = 0 then provisional.getD ⟨Outcome.failed, "child exited without a result"⟩
    else if code = auditOverflowExitCode then
      ⟨Outcome.failed, s!"child exit {code} (fd-3 audit backlog overflow)"⟩
    else ⟨Outcome.failed, s!"child exit {code}"⟩

/-- The exit handler. The first result to be settled stays. -/
def State.onExit (s : State P) (code : Int) (signal : Option String) : State P :=
  { s with
    exited := true
    events := s.events.close
    result := s.result.or (some (exitResult code signal s.provisional)) }

inductive Move
  | data (length : Nat)
  | streamEnd
  | exit (code : Int) (signal : Option String)
  | read

def next (s : State P) : Move → Option (State P)
  | .data length =>
    if s.pipe = [] then none
    else some { s.feed codec (s.pipe.take length) with pipe := s.pipe.drop length }
  | .streamEnd => if s.pipe = [] then some { s with buf := [] } else none
  | .exit code signal => if s.exited then none else some (s.onExit code signal)
  | .read => some { s with events := s.events.next }

/-! ### What the child wrote -/

def eventOf (body : List UInt8) : Option (ChildEvent P) :=
  match codec.parseChildFrame body with
  | some (.tokenDelta contentIndex thinking delta) => some (.tokenDelta contentIndex thinking delta)
  | some (.event event) => (codec.fromJson event).map .event
  | _ => none

def resultOf (body : List UInt8) : Option ChildResult :=
  match codec.parseChildFrame body with
  | some (.result outcome message) => some ⟨outcome, message⟩
  | _ => none

variable {s s' : State P} {bodies : List (List UInt8)} {result : ChildResult}

theorem onFrame_open (body : List UInt8) (opened : s.events.closed = false) :
    ∃ events,
    s.onFrame codec body = { s with events, provisional := (resultOf codec body).or s.provisional } ∧
    events.contents = s.events.contents ++ (eventOf codec body).toList ∧ events.closed = false ∧
    events.ended = s.events.ended := by
  simp only [State.onFrame, resultOf, eventOf]
  rcases codec.parseChildFrame body with _ | event | delta | _ | result
  case some.event =>
    dsimp only
    rcases codec.fromJson event with _ | payload
    · exact ⟨_, rfl, by simp, opened, rfl⟩
    · exact ⟨_, rfl, push_open opened⟩
  case some.tokenDelta => exact ⟨_, rfl, push_open opened⟩
  all_goals exact ⟨_, rfl, by simp, opened, rfl⟩

/-- **The frames of a chunk**, while the queue is open: the last result is the provisional one, and the
events are queued in their order. -/
theorem onFrames_open (bodies : List (List UInt8)) (opened : s.events.closed = false) : ∃ events,
    bodies.foldl (State.onFrame codec) s =
    { s with events, provisional := (bodies.filterMap (resultOf codec)).getLast?.or s.provisional } ∧
    events.contents = s.events.contents ++ bodies.filterMap (eventOf codec) ∧ events.closed = false ∧
    events.ended = s.events.ended := by
  induction bodies generalizing s with
  | nil => exact ⟨s.events, rfl, by simp, opened, rfl⟩
  | cons body bodies ih =>
    obtain ⟨events, first, contents, still, ended⟩ := onFrame_open codec body opened
    obtain ⟨events', rest, contents', still', ended'⟩ := ih (s := s.onFrame codec body) (first ▸ still)
    rw [foldl_cons, rest, first]
    rw [first] at contents' ended'
    refine ⟨events', ?_, ?_, still', ended'.trans ended⟩
    · rcases reported : resultOf codec body with _ | result
      · simp [reported]
      · simp [reported, getLast?_cons]
    · rw [contents', contents, filterMap_cons]
      rcases eventOf codec body with _ | event <;> simp

variable {codec}

/-- What the supervisor has made of the bytes that were delivered. -/
structure Delivered (codec : Codec J P) (bytes : List UInt8) (s : State P) : Prop where
  buf : s.buf = (deframe maxFrameBytes bytes).2
  provisional : s.provisional = ((deframe maxFrameBytes bytes).1.filterMap (resultOf codec)).getLast?
  contents : s.events.contents = (deframe maxFrameBytes bytes).1.filterMap (eventOf codec)

theorem Delivered.start (codec : Codec J P) (bodies : List (List UInt8)) :
    Delivered codec [] (.start bodies) := by
  have none : deframe maxFrameBytes [] = ([], []) := by simp [deframe]
  exact ⟨none ▸ rfl, none ▸ rfl, none ▸ rfl⟩

structure Inv (codec : Codec J P) (bodies : List (List UInt8)) (result : ChildResult) (s : State P) :
    Prop where
  closed : s.events.closed = s.exited
  drained : s.events.Drained
  running : s.exited = false → s.result = none ∧ ∃ bytes,
    (bodies.map encode).flatten = bytes ++ s.pipe ∧ Delivered codec bytes s
  exited : s.exited → s.pipe = [] ∧ s.result = some result ∧
    s.events.contents = bodies.filterMap (eventOf codec)

theorem Delivered.feed {bytes : List UInt8} (delivered : Delivered codec bytes s) (chunk : List UInt8)
    (opened : s.events.closed = false) : ∃ events buf provisional, s.feed codec chunk =
    { s with buf, provisional, events } ∧ Delivered codec (bytes ++ chunk)
    { s with buf, provisional, events } ∧ events.closed = false ∧ events.ended = s.events.ended := by
  obtain ⟨events, ran, contents, still, ended⟩ :=
    onFrames_open codec (deframe maxFrameBytes (s.buf ++ chunk)).1 opened
  have cut : deframe maxFrameBytes (bytes ++ chunk) = _ := deframe_append bytes chunk
  rw [← delivered.buf] at cut
  refine ⟨events, _, _, by rw [State.feed, ran], ⟨?_, ?_, ?_⟩, still, ended⟩
  · rw [cut]
  · rw [cut, filterMap_append, getLast?_append, delivered.provisional]
  · rw [cut, filterMap_append, contents, delivered.contents]

/-- A child that exits with code 0 and without a signal. -/
def clean : Move → Bool
  | .exit code signal => code = 0 ∧ signal = none
  | _ => true

/-- The exit comes after the last chunk. -/
def inOrder (s : State P) : Move → Bool
  | .exit _ _ => s.pipe = []
  | _ => true

section Small

variable (small : ∀ body ∈ bodies, body.length ≤ maxFrameBytes)

include small

/-- The bytes that were written are the frames of the bodies. -/
theorem Delivered.whole {bytes : List UInt8}
    (written : (bodies.map encode).flatten = bytes ++ s.pipe) (empty : s.pipe = []) :
    deframe maxFrameBytes bytes = (bodies, []) := by
  rw [empty, append_nil] at written
  exact written ▸ deframe_encode (by decide) small

theorem Inv.step (reported : (bodies.filterMap (resultOf codec)).getLast? = some result)
    {move : Move} (inv : Inv codec bodies result s) (zero : clean move) (order : inOrder s move)
    (moved : next codec s move = some s') : Inv codec bodies result s' := by
  cases move with
  | data length =>
    simp only [next] at moved
    split at moved
    · cases moved
    next some =>
      have up : s.exited = false := Bool.eq_false_iff.mpr fun exited => some (inv.exited exited).1
      obtain ⟨unsettled, bytes, written, delivered⟩ := inv.running up
      obtain ⟨events, buf, provisional, fed, delivered, still, ended⟩ :=
        delivered.feed (s.pipe.take length) (inv.closed.trans up)
      rw [fed] at moved
      cases moved
      refine ⟨still.trans up.symm, ?_, fun _ => ⟨unsettled, bytes ++ s.pipe.take length, ?_, ?_⟩, ?_⟩
      · intro is
        rw [ended] at is
        exact absurd (inv.drained is).1 (by simp [inv.closed, up])
      · rw [append_assoc, take_append_drop, written]
      · exact ⟨delivered.buf, delivered.provisional, delivered.contents⟩
      · intro exited
        rw [up] at exited
        cases exited
  | streamEnd =>
    simp only [next] at moved
    split at moved
    · next empty =>
      cases moved
      refine { inv with running := fun up => ?_ }
      obtain ⟨unsettled, bytes, written, delivered⟩ := inv.running up
      refine ⟨unsettled, bytes, written, ?_, delivered.provisional, delivered.contents⟩
      rw [Delivered.whole small written empty]
    · cases moved
  | exit code signal =>
    simp only [next] at moved
    split at moved
    · cases moved
    next up =>
      cases moved
      obtain ⟨rfl, rfl⟩ := of_decide_eq_true zero
      have empty : s.pipe = [] := of_decide_eq_true order
      obtain ⟨unsettled, bytes, written, delivered⟩ := inv.running (Bool.eq_false_iff.mpr up)
      have whole := Delivered.whole small written empty
      refine ⟨close_contents.2, inv.drained.close, nofun, fun _ => ⟨empty, ?_, ?_⟩⟩
      · have provisional := delivered.provisional
        rw [whole, reported] at provisional
        simp [State.onExit, exitResult, unsettled, provisional]
      · rw [State.onExit, close_contents.1, delivered.contents, whole]
  | read =>
    cases moved
    refine ⟨next_contents.2.trans inv.closed, inv.drained.next, fun up => ?_, fun exited => ?_⟩
    · obtain ⟨unsettled, bytes, written, delivered⟩ := inv.running up
      exact ⟨unsettled, bytes, written, delivered.buf, delivered.provisional,
        next_contents.1.trans delivered.contents⟩
    · obtain ⟨empty, settled, contents⟩ := inv.exited exited
      exact ⟨empty, settled, next_contents.1.trans contents⟩

/-- **No output of a child is lost**, where its exit is delivered after the last chunk: its result is the
one it reported, every event it wrote has been yielded or is buffered from the exit on, and when the
consumer sees the end it has been given all of them. -/
theorem child_output_kept (reported : (bodies.filterMap (resultOf codec)).getLast? = some result)
    (reached : Reach (next codec) (fun s move => clean move ∧ inOrder s move) (.start bodies) s) :
    (s.exited → s.result = some result ∧ s.events.contents = bodies.filterMap (eventOf codec)) ∧
      (s.events.ended → s.events.yielded = bodies.filterMap (eventOf codec)) := by
  have initial : Inv codec bodies result (.start bodies) :=
    ⟨rfl, nofun, fun _ => ⟨rfl, [], rfl, .start codec bodies⟩, nofun⟩
  have inv : Inv codec bodies result s := reached.invariant initial
    fun s move s' inv admitted moved => inv.step small reported admitted.1 admitted.2 moved
  refine ⟨fun exited => (inv.exited exited).2, fun ended => ?_⟩
  obtain ⟨closed, contents⟩ := inv.drained ended
  rw [← contents, (inv.exited (inv.closed ▸ closed)).2.2]

end Small

/-- A decoder under which an empty body reports a result and every other one is an event. -/
def toyCodec : Codec (List UInt8) (List UInt8) where
  parseChildFrame body := some (if body = [] then .result 1 none else .event body)
  fromJson := some

theorem child_output_kept_delivered : ∃ s : State (List UInt8),
    Reach (next toyCodec) (fun s move => clean move ∧ inOrder s move) (.start [[7], []]) s ∧
      s.result = some ⟨1, none⟩ ∧ s.events.contents = [.event [7]] := by
  obtain ⟨events, buf, provisional, fed, -⟩ :=
    (Delivered.start toyCodec [[7], []]).feed (State.start (P := List UInt8) [[7], []]).pipe rfl
  have read : next toyCodec (.start [[7], []]) (.data 9) =
      some { pipe := [], buf, provisional, events } := by
    exact congrArg (fun s => some { s with pipe := [] }) fed
  have reached : Reach (next toyCodec) (fun s move => clean move ∧ inOrder s move) (.start [[7], []]) _ :=
    .move (m := .exit 0 none) (.move .start ⟨rfl, rfl⟩ read) ⟨rfl, rfl⟩ rfl
  exact ⟨_, reached, (child_output_kept (by decide) rfl reached).1 rfl⟩

/-- **The output of a child is lost** where its exit is delivered first: the result is then a failure. -/
theorem child_output_lost : ¬ ∀ (codec : Codec (List UInt8) (List UInt8)) bodies result s,
    (∀ body ∈ bodies, body.length ≤ maxFrameBytes) →
    (bodies.filterMap (resultOf codec)).getLast? = some result →
    Reach (next codec) (fun _ move => clean move) (.start bodies) s →
    (s.exited → s.result = some result) ∧
      (s.events.ended → s.events.yielded = bodies.filterMap (eventOf codec)) := by
  intro kept
  obtain ⟨s, reached, exited, failed⟩ := reach_of_replay (next toyCodec)
    (fun _ move => clean move) (.start [[7], []]) [.exit 0 none]
    (fun s => s.exited ∧ s.result = some ⟨Outcome.failed, "child exited without a result"⟩)
    (by decide +kernel)
  cases failed.symm.trans ((kept toyCodec [[7], []] ⟨1, none⟩ s (by decide) rfl reached).1 exited)

end Iterabase.Harness.ChildExit
