/-
**Harness — the event outbox, its log on disk, and the worker's protocol state.**

`event-outbox.ts` and `worker-state.ts`. Every durable event of a turn gets its sequence here and is
in the log on disk before it is sent.
-/

import Iterabase.Dispatch.Types

namespace Iterabase.Harness

open Conc
open Dispatch (TurnID TurnEvent TurnEventKind)

/-- One accepted assignment; `id` counts them. -/
structure TurnRef where
  id : Nat
  turnID : TurnID
  deriving DecidableEq

/-! ### The log on disk -/

/-- `validateTurnId`: the turn id names a file. -/
def validateTurnID (turnID : TurnID) : Bool :=
  let chars := turnID.toList
  chars.head?.any Char.isAlphanum && chars.getLast?.any Char.isAlphanum &&
    chars.all fun c => c.isAlphanum || c = '.' || c = '_' || c = '-'

inductive WalRecord
  | event (sequence : Nat) (te : TurnEvent)
  | ack (throughSequence : Nat)

structure Wal where
  turnID : TurnID
  records : List WalRecord := []

def ackCursor (records : List WalRecord) : Nat :=
  records.foldl (fun cursor r => match r with
    | .ack throughSequence => throughSequence
    | .event _ _ => cursor) 0

/-- The event lines by sequence; a later line of a sequence replaces an earlier one. -/
def loggedEvents (records : List WalRecord) : List (Nat × TurnEvent) :=
  records.foldl (fun events r => match r with
    | .event sequence te => events.filter (fun e => e.1 ≠ sequence) ++ [(sequence, te)]
    | .ack _ => events) []

/-- `replayWal`: the events past the last ACK, by sequence. -/
def replayWal (records : List WalRecord) : List TurnEvent :=
  (((loggedEvents records).filter fun e => ackCursor records < e.1).insertionSort
    fun e e' => e.1 ≤ e'.1).map Prod.snd

/-! ### The outbox -/

/-- `EventOutbox`. `closed` is its file descriptor. -/
structure EventOutbox where
  turn : TurnRef
  bound : Nat
  sequence : Nat := 0
  ackedSeq : Nat := 0
  finalSequence : Option Nat := none
  buffer : List TurnEvent := []
  closed : Bool := false

namespace EventOutbox

variable (o : EventOutbox)

def event (payload : TurnEventKind) : TurnEvent :=
  ⟨o.turn.turnID, o.sequence + 1, payload⟩

/-- `appendTerminal`, once its line is written. -/
def appendTerminal (payload : TurnEventKind) : EventOutbox :=
  { o with sequence := o.sequence + 1, buffer := o.buffer ++ [o.event payload] }

def markFinal (sequence : Nat) : EventOutbox :=
  { o with finalSequence := some sequence }

/-- `ack`: whether the final outcome is acknowledged. `none` is an `AckError`, or the failed write of
the ACK line to a closed file; both are fatal. A duplicate writes nothing. -/
def ack (throughSequence : Nat) : Option (Bool × EventOutbox) :=
  if throughSequence > o.sequence ∨ throughSequence < o.ackedSeq then none
  else if throughSequence = o.ackedSeq then some (false, o)
  else if o.closed then none
  else
    let done := o.finalSequence.any (· ≤ throughSequence)
    some (done, { o with
      ackedSeq := throughSequence
      buffer := o.buffer.dropWhile fun te => te.sequence ≤ throughSequence
      closed := done })

theorem ack_turn {o o' : EventOutbox} {throughSequence : Nat} {done : Bool}
    (acked : o.ack throughSequence = some (done, o')) : o'.turn = o.turn := by
  unfold ack at acked
  split at acked
  · cases acked
  split at acked
  · cases acked
    rfl
  · split at acked <;> cases acked
    rfl

def unacked : List TurnEvent :=
  o.buffer.filter fun te => o.ackedSeq < te.sequence

end EventOutbox

/-! ### The protocol state -/

inductive WorkerPhase
  | disconnected
  | connecting
  | idle
  | armed
  | running
  | cleaning
  | draining
  | fatal
  deriving DecidableEq

/-- `WorkerState`; the active turn id with the assignment it belongs to. -/
structure WorkerState where
  phase : WorkerPhase := .disconnected
  activeTurn : Option TurnRef := none

namespace WorkerState

variable (st : WorkerState)

def advance (expected next : WorkerPhase) : Option WorkerState :=
  if st.phase = expected then some { st with phase := next } else none

def onConnecting : Option WorkerState := st.advance .disconnected .connecting

def onWelcome : Option WorkerState := st.advance .connecting .idle

def advertiseCredit : Option WorkerState := st.advance .idle .armed

def onAssignTurn (turn : TurnRef) : Option WorkerState :=
  if st.phase = .armed ∧ turn.turnID ≠ "" then some ⟨.running, some turn⟩ else none

def onChildExited : Option WorkerState := st.advance .running .cleaning

def onOutcomeAcked : Option WorkerState :=
  if st.phase = .cleaning then some ⟨.idle, none⟩ else none

def onStreamLost : WorkerState := ⟨.disconnected, none⟩

def beginDrain : WorkerState :=
  if st.phase = .fatal then st else { st with phase := .draining }

def fatal : WorkerState := { st with phase := .fatal }

def hasActiveTurn : Bool := st.phase = .running ∨ st.phase = .cleaning

end WorkerState

/-! ### Recovery -/

open List EventOutbox

/-- A new outbox and its log, after operations that do not throw, until the outcome is acknowledged. -/
inductive Journal : EventOutbox → List WalRecord → Prop
  | opened (turn : TurnRef) (bound : Nat) : Journal { turn := turn, bound := bound } []
  | append (payload : TurnEventKind) : Journal o log →
      Journal (o.appendTerminal payload) (log ++ [.event (o.sequence + 1) (o.event payload)])
  | markFinal (sequence : Nat) : Journal o log → Journal (o.markFinal sequence) log
  | ack (through : Nat) : Journal o log → o.ack through = some (false, o') →
      Journal o' (if o'.ackedSeq = o.ackedSeq then log else log ++ [.ack through])

/-- The sequence of an event line. -/
def WalRecord.sequence : WalRecord → Option Nat
  | .event sequence _ => some sequence
  | .ack _ => none

/-- An outbox that has returned `events`, and its log. -/
structure Synced (events : List TurnEvent) (o : EventOutbox) (log : List WalRecord) : Prop where
  cursor : ackCursor log = o.ackedSeq
  acked : o.ackedSeq ≤ o.sequence
  lines : log.filterMap WalRecord.sequence = range' 1 o.sequence
  logged : loggedEvents log = events.map fun te => (te.sequence, te)
  sequences : events.map TurnEvent.sequence = range' 1 o.sequence
  buffer : o.buffer = events.filter fun te => o.ackedSeq < te.sequence

variable {o : EventOutbox} {log : List WalRecord} {events : List TurnEvent}

theorem Synced.sorted (synced : Synced events o log) :
    events.Pairwise fun te te' => te.sequence < te'.sequence := by
  have sorted := pairwise_lt_range' (s := 1) (n := o.sequence)
  rwa [← synced.sequences, pairwise_map] at sorted

theorem dropWhile_sorted (n : Nat) (sorted : events.Pairwise fun te te' => te.sequence < te'.sequence) :
    (events.dropWhile fun te => te.sequence ≤ n) = events.filter fun te => n < te.sequence := by
  induction events with
  | nil => rfl
  | cons te rest ih =>
    rw [pairwise_cons] at sorted
    by_cases covered : te.sequence ≤ n
    · simp [covered, ih sorted.2]
    · rw [filter_eq_self.mpr (by grind)]
      simp [covered]

theorem Journal.synced (journal : Journal o log) : ∃ events, Synced events o log := by
  induction journal with
  | opened => exact ⟨[], rfl, le_rfl, rfl, rfl, rfl, rfl⟩
  | @append o log payload _ ih =>
    obtain ⟨events, cursor, acked, lines, logged, sequences, buffer⟩ := ih
    refine ⟨events ++ [o.event payload], (foldl_concat ..).trans cursor, Nat.le_succ_of_le acked,
      ?_, ?_, ?_, ?_⟩
    · simp [lines, WalRecord.sequence, appendTerminal, range'_1_concat, Nat.add_comm]
    · -- no line has the next sequence yet
      rw [map_append, ← logged]
      refine (foldl_concat ..).trans (congrArg (· ++ _) (filter_eq_self.mpr ?_))
      change ∀ e ∈ loggedEvents log, _
      rw [logged, forall_mem_map]
      intro te member
      have inside := mem_map_of_mem (f := TurnEvent.sequence) member
      rw [sequences, mem_range'_1] at inside
      exact decide_eq_true (by omega)
    · simp [sequences, event, appendTerminal, range'_1_concat, Nat.add_comm]
    · simp [appendTerminal, buffer, event, Nat.lt_succ_of_le acked]
  | markFinal _ _ ih =>
    obtain ⟨events, synced⟩ := ih
    exact ⟨events, { synced with }⟩
  | ack _ _ acks ih =>
    unfold EventOutbox.ack at acks
    split at acks
    · cases acks
    split at acks
    · cases acks
      simpa using ih
    rename_i ahead
    split at acks
    · cases acks
    obtain rfl := (Prod.mk.inj (Option.some.inj acks)).2
    obtain ⟨events, synced⟩ := ih
    rw [if_neg ahead]
    refine ⟨events, foldl_concat .., by dsimp only; omega, ?_, (foldl_concat ..).trans synced.logged,
      synced.sequences, ?_⟩
    · rw [filterMap_append]
      exact (append_nil _).trans synced.lines
    dsimp only
    rw [synced.buffer, dropWhile_sorted _ (synced.sorted.filter _), filter_filter]
    refine filter_congr fun te _ => ?_
    simp
    omega

/-- **The log replays the outbox.** A process that starts over the log of a turn finds the events that the
outbox would send again, in order; the event lines have the sequences 1, 2, …, once each and in order. -/
theorem log_replays_outbox (journal : Journal o log) :
    replayWal log = o.unacked ∧ log.filterMap WalRecord.sequence = range' 1 o.sequence := by
  obtain ⟨events, synced⟩ := journal.synced
  refine ⟨?_, synced.lines⟩
  rw [replayWal, synced.logged, synced.cursor, filter_map, Pairwise.insertionSort_eq, map_map, unacked,
    synced.buffer, filter_filter]
  · simp [Function.comp_def]
  · exact pairwise_map.mpr ((synced.sorted.filter _).imp le_of_lt)

/-- Two events, of which the first is acknowledged. -/
theorem log_replays_outbox_acked : ∃ o log, Journal o log ∧ o.ackedSeq = 1 ∧ o.unacked ≠ [] ∧
    replayWal log = o.unacked ∧ log.filterMap WalRecord.sequence = [1, 2] := by
  have journal := (((Journal.opened ⟨0, "t"⟩ 2).append .toolResult).append
    (.workerOutcome .completed)).ack 1 rfl
  exact ⟨_, _, journal, rfl, by decide, log_replays_outbox journal⟩

end Iterabase.Harness
