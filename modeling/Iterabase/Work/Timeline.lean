/-
**The resumable timeline.**

`appendTimelineTx` takes a cursor from a sequence when it inserts an event, and others see the event
when its transaction commits. `streamWorkEvents` polls for the events above the cursor it sent last,
which is complete only if nothing below it is still to come.

* `timelineSince`, `next` — one query, and the transactions, polls and reconnects around it.
* `timeline_complete` — **where no query returns an event above one of an open transaction, nothing is
  lost.**
-/

import Iterabase.Conc.Run
import Mathlib

namespace Iterabase.Work.Timeline

open Conc List

/-- A row of `work.timeline_events`, and whether its transaction has committed. -/
structure Row where
  cursor : Int
  transaction : Nat
  workItemID : String
  code : String
  committed : Bool := false
  deriving DecidableEq

/-- The committed rows above a cursor. -/
def above (rows : List Row) (after : Int) : List Row :=
  rows.filter fun r => r.committed ∧ after < r.cursor

/-- `TimelineSince`, on rows in the order of their cursors. -/
def timelineSince (rows : List Row) (after : Int) (limit : Nat) : List Row :=
  (above rows after).take (if limit = 0 ∨ 1000 < limit then 200 else limit)

/-- One call of `streamWorkEvents`. Within `send`, `due` is what was committed when it began, which no
party knows. -/
structure Stream where
  cursor : Int
  due : Option (List Row) := none

structure State where
  /-- The sequence of the identity column, and the rows in the order it gives. -/
  nextCursor : Int := 1
  rows : List Row := []
  /-- Where the client starts, what it has received over all connections, and the last id of it. -/
  initial : Int
  received : List Row := []
  lastEventID : Int := initial
  stream : Option Stream := none
  /-- What was due for each completed poll. -/
  polls : List (List Row) := []

inductive Move
  | append (transaction : Nat) (workItemID code : String)
  | commit (transaction : Nat)
  | rollback (transaction : Nat)
  | connect
  /-- `send` begins: when the stream starts, and on every tick. -/
  | poll
  /-- One round of `send`. The client receives so many of the events; fewer than there are, and the
  connection is lost. -/
  | query (delivered : Nat)
  | disconnect

def Row.commit (t : Nat) (r : Row) : Row := if r.transaction = t then { r with committed := true } else r

/-- The last of some events, or else where the client was. -/
def lastOf (events : List Row) (before : Int) : Int := (events.getLast?.map Row.cursor).getD before

def next (s : State) : Move → Option State
  | .append t workItemID code => some { s with
      nextCursor := s.nextCursor + 1
      rows := s.rows ++ [⟨s.nextCursor, t, workItemID, code, false⟩] }
  | .commit t => some { s with rows := s.rows.map (Row.commit t) }
  | .rollback t => some { s with rows := s.rows.filter fun r => r.transaction ≠ t ∨ r.committed }
  | .connect => some { s with stream := some { cursor := s.lastEventID } }
  | .poll => match s.stream with
    | some ⟨cursor, none⟩ => some { s with stream := some ⟨cursor, s.rows.filter (·.committed)⟩ }
    | _ => none
  | .query delivered => match s.stream with
    | some ⟨cursor, some due⟩ =>
      let events := timelineSince s.rows cursor 500
      let got := events.take delivered
      let s := { s with received := s.received ++ got, lastEventID := lastOf got s.lastEventID }
      if delivered < events.length then some { s with stream := none }
      else if 500 ≤ events.length then some { s with stream := some ⟨lastOf got cursor, some due⟩ }
      else some { s with stream := some ⟨lastOf got cursor, none⟩, polls := due :: s.polls }
    | _ => none
  | .disconnect => some { s with stream := none }

/-- No query returns an event above one that an open transaction has inserted. -/
def Settled (s : State) : Move → Prop
  | .query _ => ∀ st ∈ s.stream, ∀ e ∈ timelineSince s.rows st.cursor 500, ∀ r ∈ s.rows,
      r.committed = false → e.cursor < r.cursor
  | _ => True

instance (s : State) (m : Move) : Decidable (Settled s m) := by
  cases m <;> unfold Settled <;> infer_instance

/-! ### What the client has -/

variable {e : Row} {events rows : List Row}

theorem mem_above {after : Int} :
    e ∈ above rows after ↔ e ∈ rows ∧ e.committed ∧ after < e.cursor := by
  simp [above]

/-- Of events in order, a client that took the first ones has those up to its last one. -/
theorem mem_take_iff (ordered : events.Pairwise (·.cursor < ·.cursor)) {before : Int}
    (later : ∀ e ∈ events, before < e.cursor) (n : Nat) (member : e ∈ events) :
    e ∈ events.take n ↔ e.cursor ≤ lastOf (events.take n) before := by
  rw [← take_append_drop n events] at ordered member
  obtain ⟨_, _, apart⟩ := pairwise_append.mp ordered
  rcases eq_nil_or_concat' (events.take n) with none | ⟨init, last, same⟩
  · rw [none, lastOf]
    rw [none, nil_append] at member
    simp [later e (mem_of_mem_drop member)]
  · rw [same] at ordered member apart ⊢
    have position : lastOf (init ++ [last]) before = last.cursor := by simp [lastOf]
    rw [position]
    have early := (pairwise_append.mp (pairwise_append.mp ordered).1).2.2
    constructor
    · intro taken
      rcases mem_append.mp taken with taken | taken
      · exact le_of_lt (early e taken last (.head _))
      · exact le_of_eq (congrArg Row.cursor (mem_singleton.mp taken))
    · intro reached
      rcases mem_append.mp member with taken | left
      · exact taken
      · exact absurd (apart last (mem_append_right _ (.head _)) e left) (not_lt_of_ge reached)

/-- **The client has what is committed up to its last event**, and nothing below that is open. -/
structure Complete (s : State) : Prop where
  ordered : s.rows.Pairwise (·.cursor < ·.cursor)
  fresh : ∀ r ∈ s.rows, r.cursor < s.nextCursor
  increasing : s.received.Pairwise (·.cursor < ·.cursor)
  has : ∀ e, e ∈ s.received ↔ e ∈ above s.rows s.initial ∧ e.cursor ≤ s.lastEventID
  started : s.initial ≤ s.lastEventID
  reached : s.lastEventID = s.initial ∨ s.lastEventID < s.nextCursor
  pending : ∀ r ∈ s.rows, r.committed = false → s.initial < r.cursor → s.lastEventID < r.cursor
  stream : ∀ st ∈ s.stream, st.cursor = s.lastEventID ∧
    ∀ due ∈ st.due, ∀ e ∈ due, e ∈ s.rows ∧ e.committed
  polls : ∀ due ∈ s.polls, ∀ e ∈ due, s.initial < e.cursor → e ∈ s.received

namespace Complete

variable {s : State}

theorem start (initial : Int) : Complete { initial := initial } :=
  ⟨.nil, nofun, .nil, by simp [above], le_refl _, .inl rfl, nofun, nofun, nofun⟩

section Complete

variable (complete : Complete s)

include complete

/-- A committed row stays as it is; others may go, and a row that is new or changes its state is above
the client's last event. -/
theorem change {nextCursor : Int} (ordered : rows.Pairwise (·.cursor < ·.cursor))
    (fresh : ∀ r ∈ rows, r.cursor < nextCursor) (grows : s.nextCursor ≤ nextCursor)
    (kept : ∀ r ∈ s.rows, r.committed → r ∈ rows)
    (came : ∀ r ∈ rows, r ∈ s.rows ∨ (s.initial < r.cursor → s.lastEventID < r.cursor)) :
    Complete { s with rows := rows, nextCursor := nextCursor } where
  ordered := ordered
  fresh := fresh
  increasing := complete.increasing
  has := by
    intro e
    rw [complete.has, mem_above, mem_above]
    constructor
    · rintro ⟨⟨member, committed, ahead⟩, reached⟩
      exact ⟨⟨kept e member committed, committed, ahead⟩, reached⟩
    · rintro ⟨⟨member, committed, ahead⟩, reached⟩
      rcases came e member with old | new
      · exact ⟨⟨old, committed, ahead⟩, reached⟩
      · exact absurd (new ahead) (not_lt_of_ge reached)
  started := complete.started
  reached := complete.reached.imp id fun passed => lt_of_lt_of_le passed grows
  pending := by
    intro r member open_ ahead
    rcases came r member with old | new
    · exact complete.pending r old open_ ahead
    · exact new ahead
  stream := by
    intro st here
    obtain ⟨cursor, due⟩ := complete.stream st here
    refine ⟨cursor, fun d member e there => ?_⟩
    obtain ⟨old, committed⟩ := due d member e there
    exact ⟨kept e old committed, committed⟩
  polls := complete.polls

theorem append (t : Nat) (workItemID code : String) :
    Complete { s with
      nextCursor := s.nextCursor + 1
      rows := s.rows ++ [⟨s.nextCursor, t, workItemID, code, false⟩] } := by
  refine complete.change ?_ (fun r member => ?_) (Int.le_add_one (le_refl _))
    (fun r member _ => mem_append_left _ member) fun r member => ?_
  · refine pairwise_append.mpr ⟨complete.ordered, pairwise_singleton _ _, fun r old r' new => ?_⟩
    cases mem_singleton.mp new
    exact complete.fresh r old
  all_goals rcases mem_append.mp member with old | new
  · exact Int.lt_add_one_of_le (le_of_lt (complete.fresh r old))
  · cases mem_singleton.mp new
    exact Int.lt_succ _
  · exact .inl old
  · cases mem_singleton.mp new
    exact .inr fun ahead => complete.reached.elim (fun same => same ▸ ahead) id

theorem commit (t : Nat) : Complete { s with rows := s.rows.map (Row.commit t) } := by
  have same : ∀ r : Row, (r.commit t).cursor = r.cursor := fun r => by unfold Row.commit; split <;> rfl
  refine complete.change ?_ (fun r member => ?_) (le_refl _) (fun r member committed => ?_)
    fun r member => ?_
  · refine pairwise_map.mpr (complete.ordered.imp fun before => ?_)
    rw [same, same]
    exact before
  · obtain ⟨r, old, rfl⟩ := mem_map.mp member
    rw [same]
    exact complete.fresh r old
  · refine mem_map.mpr ⟨r, member, ?_⟩
    unfold Row.commit
    split
    · cases r; cases committed; rfl
    · rfl
  · obtain ⟨r, old, rfl⟩ := mem_map.mp member
    cases committed : r.committed with
    | false => exact .inr fun ahead => same r ▸ complete.pending r old committed (same r ▸ ahead)
    | true =>
      unfold Row.commit
      split
      · cases r; cases committed; exact .inl old
      · exact .inl old

theorem rollback (t : Nat) :
    Complete { s with rows := s.rows.filter fun r => r.transaction ≠ t ∨ r.committed } := by
  refine complete.change (complete.ordered.sublist filter_sublist)
    (fun r member => complete.fresh r (mem_filter.mp member).1) (le_refl _)
    (fun r member committed => ?_) fun r member => .inl (mem_filter.mp member).1
  exact mem_filter.mpr ⟨member, decide_eq_true (.inr committed)⟩

/-- **The client receives the first events of a query.** -/
theorem receive {m : Nat} (same : events = (timelineSince s.rows s.lastEventID 500).take m)
    (settled : ∀ e ∈ events, ∀ r ∈ s.rows, r.committed = false → e.cursor < r.cursor) :
    Complete { s with
      received := s.received ++ events
      lastEventID := lastOf events s.lastEventID
      stream := none } := by
  have ordered : (above s.rows s.lastEventID).Pairwise (·.cursor < ·.cursor) :=
    complete.ordered.sublist filter_sublist
  have later : ∀ e ∈ above s.rows s.lastEventID, s.lastEventID < e.cursor :=
    fun e member => (mem_above.mp member).2.2
  rw [timelineSince, take_take] at same
  have inside : ∀ e ∈ events, e ∈ above s.rows s.lastEventID := fun e member =>
    mem_of_mem_take (same ▸ member)
  -- the position is the client's, or that of an event it received
  have position : lastOf events s.lastEventID = s.lastEventID ∨
      ∃ e ∈ events, lastOf events s.lastEventID = e.cursor := by
    unfold lastOf
    cases last : events.getLast? with
    | none => exact .inl rfl
    | some e => exact .inr ⟨e, mem_of_getLast? last, rfl⟩
  have forward : s.lastEventID ≤ lastOf events s.lastEventID := by
    rcases position with same | ⟨e, member, same⟩
    · exact le_of_eq same.symm
    · exact same ▸ le_of_lt (later e (inside e member))
  refine ⟨complete.ordered, complete.fresh, ?_, fun e => ?_, le_trans complete.started forward, ?_,
    fun r member open_ ahead => ?_, nofun, fun due member e there ahead =>
      mem_append_left _ (complete.polls due member e there ahead)⟩
  · refine pairwise_append.mpr ⟨complete.increasing, same ▸ ordered.sublist (take_sublist _ _),
      fun e old e' new => ?_⟩
    exact lt_of_le_of_lt ((complete.has e).mp old).2 (later e' (inside e' new))
  · rw [mem_append, complete.has]
    constructor
    · rintro (⟨known, reached⟩ | new)
      · exact ⟨known, le_trans reached forward⟩
      · obtain ⟨member, committed, past⟩ := mem_above.mp (inside e new)
        refine ⟨mem_above.mpr ⟨member, committed, lt_of_le_of_lt complete.started past⟩, ?_⟩
        rw [same] at new ⊢
        exact (mem_take_iff ordered later _ (mem_of_mem_take new)).mp new
    · rintro ⟨known, reached⟩
      rcases le_or_gt e.cursor s.lastEventID with before | past
      · exact .inl ⟨known, before⟩
      · obtain ⟨member, committed, _⟩ := mem_above.mp known
        rw [same] at reached ⊢
        exact .inr ((mem_take_iff ordered later _ (mem_above.mpr ⟨member, committed, past⟩)).mpr reached)
  · rcases position with same | ⟨e, member, same⟩
    · rw [same]
      exact complete.reached
    · rw [same]
      exact .inr (complete.fresh e (mem_above.mp (inside e member)).1)
  · rcases position with same | ⟨e, there, same⟩
    · rw [same]
      exact complete.pending r member open_ ahead
    · rw [same]
      exact settled e there r member open_

/-- **One move.** -/
theorem step {m : Move} {s' : State} (settled : Settled s m) (moved : next s m = some s') :
    Complete s' := by
  cases m with
  | append t workItemID code => cases moved; exact complete.append t workItemID code
  | commit t => cases moved; exact complete.commit t
  | rollback t => cases moved; exact complete.rollback t
  | connect =>
    cases moved
    exact { complete with stream := fun st same => by cases same; exact ⟨rfl, nofun⟩ }
  | disconnect => cases moved; exact { complete with stream := nofun }
  | poll =>
    simp only [next] at moved
    split at moved
    · rename_i cursor here
      cases moved
      have cursor := (complete.stream _ here).1
      refine { complete with stream := fun st same => ?_ }
      cases same
      refine ⟨cursor, fun due same e member => ?_⟩
      cases same
      exact mem_filter.mp member
    · cases moved
  | query delivered =>
    simp only [next] at moved
    split at moved
    · rename_i cursor due here
      obtain ⟨rfl, known⟩ := complete.stream _ here
      have received := complete.receive (m := delivered) rfl fun e member =>
        settled _ here e (mem_of_mem_take member)
      split at moved
      · cases moved
        exact received
      rename_i whole
      rw [take_of_length_le (Nat.le_of_not_lt whole)] at moved received
      split at moved
      · cases moved
        exact { received with stream := fun st same => by cases same; exact ⟨rfl, known⟩ }
      · rename_i short
        cases moved
        refine { received with
          stream := fun st same => by cases same; exact ⟨rfl, nofun⟩
          polls := fun due' member e there ahead => ?_ }
        rcases mem_cons.mp member with rfl | old
        · obtain ⟨member, committed⟩ := known due' rfl e there
          rcases le_or_gt e.cursor s.lastEventID with before | past
          · have has := (complete.has e).mpr ⟨mem_above.mpr ⟨member, committed, ahead⟩, before⟩
            exact mem_append_left _ has
          -- a query that is not cut off returns every event
          · have all : (above s.rows s.lastEventID).length ≤ 500 := by
              simp [timelineSince] at short
              omega
            refine mem_append_right _ ?_
            rw [timelineSince, take_of_length_le (by simpa using all)]
            exact mem_above.mpr ⟨member, committed, past⟩
        · exact received.polls due' old e there ahead
    · cases moved

end Complete

end Complete

/-- **The timeline is complete** where no query returns an event above one of an open transaction: the
client has received committed events above its initial cursor, in increasing order, and every one that
was committed when a completed poll began. -/
theorem timeline_complete {initial : Int} {s : State}
    (reached : Reach next Settled { initial := initial } s) :
    s.received.Pairwise (·.cursor < ·.cursor) ∧
    (∀ e ∈ s.received, e ∈ s.rows ∧ e.committed ∧ s.initial < e.cursor) ∧
    ∀ due ∈ s.polls, ∀ e ∈ due, s.initial < e.cursor → e ∈ s.received := by
  have complete : Complete s :=
    reached.invariant (.start initial) fun _ _ _ complete settled moved => complete.step settled moved
  exact ⟨complete.increasing, fun e member => mem_above.mp ((complete.has e).mp member).1, complete.polls⟩

/-- A transaction with an event, and a poll of a new connection that returns it. -/
def pollAfter (t : Nat) : List Move := [.append t "item" "code", .commit t, .connect, .poll, .query 1]

theorem timeline_complete_twice : ∃ s, Reach next Settled { initial := 0 } s ∧ s.polls.length = 2 ∧
    s.received.length = 2 ∧ ∀ due ∈ s.polls, ∀ e ∈ due, s.initial < e.cursor → e ∈ s.received := by
  obtain ⟨s, reached, twice, both⟩ := reach_of_replay next Settled { initial := 0 }
    (pollAfter 1 ++ pollAfter 2) (fun s => s.polls.length = 2 ∧ s.received.length = 2)
    (by decide +kernel)
  exact ⟨s, reached, twice, both, (timeline_complete reached).2.2⟩

/-- **An event is skipped.** It was inserted before another one and is committed after that was sent;
the poll after its commit does not look for it. -/
theorem timeline_skips : ¬ ∀ (initial : Int) (s : State),
    Reach next (fun _ _ => True) { initial := initial } s →
      ∀ due ∈ s.polls, ∀ e ∈ due, s.initial < e.cursor → e ∈ s.received := by
  intro claim
  obtain ⟨s, reached, due, member, e, there, ahead, missing⟩ := reach_of_replay next (fun _ _ => True)
    { initial := 0 } (.append 1 "item" "code" :: pollAfter 2 ++ [.commit 1, .poll, .query 0])
    (fun s => ∃ due ∈ s.polls, ∃ e ∈ due, s.initial < e.cursor ∧ e ∉ s.received) (by decide +kernel)
  exact missing (claim 0 s reached due member e there ahead)

end Iterabase.Work.Timeline
