/-
**Harness — isolation of turns.**

The continuations of a turn address it through the fields of the supervisor, so a continuation that
is resumed after a later turn was assigned acts on that later turn. It cannot happen while no
assignment is accepted over a continuation that is still pending: then whatever the fields hold belongs
to the turn assigned last, and so does every continuation.

* `turn_isolated` — **every observation of a run that meets the condition is local**;
  `turn_not_always_isolated` is a run in which a late continuation ends the next turn.
-/

import Iterabase.Harness.Methods

namespace Iterabase.Harness

open Conc List Option
open Dispatch (TurnEventKind WorkspaceStatus)

/-! ### The property and its condition -/

/-- What was done by a continuation of a turn was done to that turn. `failClosed` gives up the turn
it finds active, with the outcome of an abort. -/
def Obs.Local : Obs → Prop
  | .appended outbox te producer =>
      producer.turn = outbox ∧ (producer.ofTurn ∨ te.kind = .workerOutcome .aborted)
  | .sent _ _ => True
  | .stopped heartbeat turn => heartbeat = turn
  | .cleared child turn => child = turn
  | .settled active turn => active = some turn

/-- An assignment is accepted only after every continuation of earlier turns has returned. -/
def AssignsAlone (s : State) : Move → Prop
  | .control (.assignTurn assignment) _ => s.accepts assignment → ∀ h ∈ s.handlers, h.live = false
  | _ => True

instance (s : State) (m : Move) : Decidable (AssignsAlone s m) := by
  unfold AssignsAlone State.accepts
  split <;> infer_instance

/-! ### The fields belong to one turn -/

/-- Everything the process holds belongs to `last`. -/
structure Owned (last : Option TurnRef) (s : State) : Prop where
  latest : s.latest = last
  live : ∀ h ∈ s.handlers, h.live → last = some h.turn
  turn : ∀ ctx, s.turn = some ctx → last = some ctx.ref
  outbox : ∀ o, s.outbox = some o → last = some o.turn
  child : ∀ c, s.currentChild = some c → last = some c ∧
    ∃ (i : Nat) (h : Handler), s.handlers[i]? = some h ∧ h.stage.holdsChild
  heartbeat : ∀ b, s.heartbeat = some b → last = some b
  active : s.state.hasActiveTurn → s.state.activeTurn = last
  isolated : ∀ o ∈ s.trace, o.Local

def Kept (last : Option TurnRef) (s : State) : Prop :=
  Owned last s ∨ s.crashed = true ∧ ∀ o ∈ s.trace, o.Local

variable {last : Option TurnRef} {t : TurnRef} {kind : TurnEventKind} {s s' : State}

theorem Owned.keeps (owned : Owned last s) (keeps : Keeps s s') (isolated : ∀ o ∈ s'.trace, o.Local) :
    Owned last s' where
  latest := keeps.latest.trans owned.latest
  live := fun h member => owned.live h (keeps.handlers ▸ member)
  turn := fun ctx held => by
    obtain ⟨ctx₀, held₀, same⟩ := keeps.turn ctx held
    exact same ▸ owned.turn ctx₀ held₀
  outbox := fun o held => by
    obtain ⟨o₀, held₀, same⟩ := keeps.outbox o held
    exact same ▸ owned.outbox o₀ held₀
  child := fun c held => keeps.handlers ▸ owned.child c (keeps.child c held)
  heartbeat := fun b held => owned.heartbeat b (keeps.heartbeat b held)
  active := fun busy => by
    obtain ⟨busy, same⟩ := keeps.active busy
    exact same.trans (owned.active busy)
  isolated := isolated

theorem Owned.local_of_by {o : Obs} (owned : Owned last s) (own : o.By last s) : o.Local := by
  cases o with
  | appended outbox te producer => cases own
  | sent stream msg => trivial
  | stopped heartbeat turn => exact some.inj ((owned.heartbeat _ own.2).symm.trans own.1)
  | cleared child turn => exact some.inj ((owned.child _ own.2).1.symm.trans own.1)
  | settled active turn =>
    obtain ⟨isLast, busy, rfl⟩ := own
    exact (owned.active busy).trans isLast

theorem Owned.silent (owned : Owned last s) (silent : Silent last s s') : Owned last s' := by
  obtain ⟨new, trace, own⟩ := silent.trace
  refine owned.keeps silent.toKeeps fun o member => ?_
  rw [trace] at member
  rcases mem_append.mp member with new | old
  · exact owned.local_of_by (own o new)
  · exact owned.isolated o old

theorem Owned.adds (owned : Owned (some t) s) (adds : Adds t kind s s') : Owned (some t) s' := by
  rcases adds with silent | ⟨p, s₁, rfl, may, logged, silent⟩
  · exact owned.silent silent
  refine Owned.silent (owned.keeps logged.toKeeps fun o member => ?_) silent
  obtain ⟨outbox, te, current, rfl, trace⟩ := logged.trace
  rw [trace] at member
  rcases mem_cons.mp member with rfl | old
  · exact ⟨some.inj (owned.outbox outbox current), may⟩
  · exact owned.isolated o old

/-! ### The handler of a turn -/

/-- The continuation of handler `i` runs, and everything is its turn's. -/
structure Mine (i : Nat) (h : Handler) (s : State) : Prop where
  owned : Owned (some h.turn) s
  present : s.handlers[i]? = some h

namespace Mine

variable {i : Nat} {h h' : Handler} (mine : Mine i h s)

include mine

theorem silent (silent : Silent (some h.turn) s s') : Mine i h s' :=
  ⟨mine.owned.silent silent, silent.handlers ▸ mine.present⟩

theorem adds (adds : Adds h.turn kind s s') : Mine i h s' :=
  ⟨mine.owned.adds adds, adds.keeps.handlers ▸ mine.present⟩

theorem setHandler (same : h'.turn = h.turn)
    (holds : s.currentChild = none ∨ (h.stage.holdsChild → h'.stage.holdsChild)) :
    Owned (some h.turn) (s.setHandler i h') := by
  have owned := mine.owned
  refine { owned with live := fun k member => ?_, child := fun c held => ?_ }
  · rcases mem_or_eq_of_mem_set member with there | rfl
    · exact owned.live k there
    · exact fun _ => congrArg some same.symm
  · obtain ⟨isLast, j, k, found, holding⟩ := owned.child c held
    refine ⟨isLast, ?_⟩
    by_cases same : i = j
    · subst same
      cases mine.present.symm.trans found
      rcases holds with none | keeps
      · cases none.symm.trans held
      refine ⟨i, h', ?_, keeps holding⟩
      have bound := (List.getElem?_eq_some_iff.mp mine.present).1
      simp [State.setHandler, bound]
    · exact ⟨j, k, (getElem?_set_ne same).trans found, holding⟩

theorem segment (segment : Segment i h kind s s') : Owned (some h.turn) s' := by
  cases segment with
  | stays adds => exact mine.owned.adds adds
  | moves _ holds => exact mine.setHandler rfl (.inr holds)
  | launches =>
    -- the child is held from here on, by a handler that drains it
    have drains : Owned (some h.turn) (s.setHandler i { h with stage := .draining, rpc := .running }) :=
      mine.setHandler rfl (.inr fun _ => rfl)
    have bound := (List.getElem?_eq_some_iff.mp mine.present).1
    refine { drains with
      child := fun c same => ⟨same, i, { h with stage := .draining, rpc := .running }, ?_, rfl⟩ }
    simp [State.setHandler, bound]
  | ends first erred reported ends =>
    obtain ⟨stage, _, silent⟩ := ends
    have clean := (((mine.adds first).adds erred).adds reported).silent (cleanUp_silent _ h)
    exact Owned.silent (clean.setHandler (by rfl) (.inl rfl)) silent

theorem rpcEnds : Owned (some h.turn) (s.setHandler i { h with rpc := .ended }) :=
  mine.setHandler rfl (.inr fun holds => holds)

end Mine

/-! ### Runs -/

section Steps

variable (owned : Owned last s)

include owned

theorem Owned.mine {i : Nat} {h : Handler} (found : s.handlers[i]? = some h) (live : h.live) :
    Mine i h s := by
  have isLast := owned.live h (mem_of_getElem? found) live
  subst isLast
  exact ⟨owned, found⟩

theorem Owned.waiting {i : Nat} {h : Handler} (found : s.handlers[i]? = some h)
    (stage : h.stage.unreported) : Mine i h s := by
  refine owned.mine found ?_
  cases waits : h.stage <;> simp [Handler.live, Stage.unreported, waits] at stage ⊢

theorem Owned.dispatching {i : Nat} {h : Handler} (found : s.handlers[i]? = some h)
    (running : h.rpc = .running) : Mine i h s :=
  owned.mine found (by simp [Handler.live, running])

/-- **An accepted assignment takes over**, once nothing of an earlier turn is pending. -/
theorem Owned.takeOn {h : Handler} (dead : ∀ h ∈ s.handlers, h.live = false) :
    Mine s.handlers.length h
      (((s.takeOn ⟨.running, some h.turn⟩ h).openOutbox h.turn).startHeartbeat h.turn) where
  present := getElem?_concat_length
  owned := by
    refine ⟨rfl, fun k member live => ?_, ?_, ?_, fun c held => ?_, ?_, fun _ => rfl, owned.isolated⟩
    · rcases mem_append.mp member with old | new
      · rw [dead k old] at live
        cases live
      · rw [mem_singleton.mp new]
    · rintro ctx ⟨⟩
      rfl
    · rintro o ⟨⟩
      rfl
    · -- a child is held by a handler that is pending
      obtain ⟨_, i, k, found, holds⟩ := owned.child c held
      have gone := dead k (mem_of_getElem? found)
      cases stage : k.stage <;> simp [Handler.live, Stage.holdsChild, stage] at gone holds
    · rintro b ⟨⟩
      rfl

theorem Owned.closed : Owned last s.closed := by
  rcases closed_adds s with silent | ⟨o, ctx, _, active, closed⟩
  · exact owned.silent (silent last)
  -- the turn `failClosed` finds is that of the last assignment
  have isLast := owned.turn ctx active
  subst isLast
  rcases closed with silent | ⟨adds, _⟩
  · exact owned.silent silent
  · exact owned.adds adds

theorem Owned.step {m : Move} (alone : AssignsAlone s m) (acts : Acts s m s') :
    ∃ last', Kept last' s' := by
  cases acts with
  | silent silent => exact ⟨last, .inl (owned.silent (silent last))⟩
  | assigns accepted _ segment silent =>
    exact ⟨_, .inl (Owned.silent ((owned.takeOn (alone accepted)).segment segment) silent)⟩
  | crashes _ _ crashed trace _ => exact ⟨last, .inr ⟨crashed, trace ▸ owned.isolated⟩⟩
  | closes => exact ⟨last, .inl owned.closed⟩
  | segment found stage segment _ => exact ⟨_, .inl ((owned.waiting found stage).segment segment)⟩
  | rpcEnds found running => exact ⟨_, .inl (owned.dispatching found running).rpcEnds⟩
  | reports found running _ reported adds ended =>
    have sent := ((owned.dispatching found running).silent reported).adds adds
    rcases ended with rfl | rfl
    · exact ⟨_, .inl sent.owned⟩
    · exact ⟨_, .inl sent.rpcEnds⟩
  | refuses found running _ _ =>
    obtain ⟨s₁, erred, failed⟩ := failTurn_adds s (p := .child _) rfl .protocol
    exact ⟨_, .inl (((owned.dispatching found running).adds erred).adds failed).rpcEnds⟩
  | returns found stage silent =>
    have mine := owned.mine found (by simp [Handler.live, stage])
    exact ⟨_, .inl (Owned.silent
      (mine.setHandler (by rfl) (.inr (by simp [stage, Stage.holdsChild]))) silent)⟩

end Steps

theorem Owned.restart {status : Option WorkspaceStatus} (isolated : ∀ o ∈ s.trace, o.Local) :
    Owned s.latest (s.restart status) where
  latest := rfl
  live := by
    intro h member live
    obtain ⟨_, _, rfl⟩ := mem_map.mp member
    cases live
  turn := nofun
  outbox := nofun
  child := nofun
  heartbeat := nofun
  active := nofun
  isolated := isolated

theorem Kept.step {s s' : State} {m : Move} (kept : ∃ last, Kept last s) (alone : AssignsAlone s m)
    (moved : next s m = some s') : ∃ last, Kept last s' := by
  obtain ⟨last, kept⟩ := kept
  rcases next_cases moved with ⟨runs, resumes⟩ | ⟨status, rfl⟩
  · rcases kept with owned | ⟨crashed, _⟩
    · exact owned.step alone (resumes_acts s resumes)
    · rw [runs] at crashed
      cases crashed
  · exact ⟨_, .inl (.restart (kept.elim Owned.isolated And.right))⟩

theorem State.Initial.owned (initial : s.Initial) : Owned none s := by
  obtain ⟨bound, status, rfl⟩ := initial
  exact {
    latest := rfl
    live := nofun
    turn := nofun
    outbox := nofun
    child := nofun
    heartbeat := nofun
    active := nofun
    isolated := fun _ member => by cases member }

/-- **Isolation of turns.** While no assignment is accepted over a continuation of an earlier turn,
every event in the outbox of a turn comes from its own handler, its own child, or the `failClosed` that
gives it up, and no continuation ends another turn. -/
theorem turn_isolated {s₀ s : State} (initial : s₀.Initial)
    (reached : Reach next AssignsAlone s₀ s) : ∀ o ∈ s.trace, o.Local := by
  have kept : ∃ last, Kept last s :=
    reached.invariant (I := fun s => ∃ last, Kept last s) ⟨none, .inl initial.owned⟩
      fun _ _ _ kept alone moved => Kept.step kept alone moved
  obtain ⟨last, owned | ⟨_, isolated⟩⟩ := kept
  · exact owned.isolated
  · exact isolated

/-- Turn `a` loses its stream while its child runs; the child ends, the handler returns, and turn `b`
is assigned on the next stream. -/
def lostAndReturned : List Move :=
  arm ++ [.control (.assignTurn { turnID := "a" }) {}, .materialized 0 true,
    .discovered 0 (.discovered none), .streamEnds true, .eventsEnd 0, .rpcEnds 0,
    .childResult 0 .aborted, .rpcDone 0, .closed, .acked 0] ++
  arm ++ [.control (.eventAck "a" 3) {}, .control (.assignTurn { turnID := "b" }) {}]

theorem turn_isolated_returned : ∃ s, Reach next AssignsAlone worker s ∧
    (s.handlers.length = 2 ∧ s.handlers.any Handler.live) ∧ ∀ o ∈ s.trace, o.Local := by
  exact reach_of_replay_and lostAndReturned (by decide +kernel) fun reached _ =>
    turn_isolated worker_initial reached

/-- Turn `a` loses its stream while its artifacts are fetched. Turn `b` is assigned on the next stream
and its child runs when the fetch of `a` fails at last. -/
def lostAndLate : List Move :=
  arm ++ [.control (.assignTurn { turnID := "a" }) {}, .streamEnds true, .closed] ++
  arm ++ [.control (.eventAck "a" 2) {}, .control (.assignTurn { turnID := "b" }) {},
    .materialized 1 true, .discovered 1 (.discovered none), .materialized 0 false]

/-- In that run `failClosed` appends to the outbox of turn `a`. The handler of `a` then ends turn `b`:
it appends to its outbox, stops its heartbeat, drops its child and moves on its state. -/
theorem turn_not_always_isolated : ∃ s, Reach next (fun _ _ => True) worker s ∧
    .appended ⟨0, "a"⟩ ⟨"a", 2, .workerOutcome .aborted⟩ (.failClosed ⟨0, "a"⟩) ∈ s.trace ∧
    .appended ⟨1, "b"⟩ ⟨"b", 3, .workerOutcome .failed⟩ (.handler ⟨0, "a"⟩) ∈ s.trace ∧
    .stopped ⟨1, "b"⟩ ⟨0, "a"⟩ ∈ s.trace ∧ .cleared ⟨1, "b"⟩ ⟨0, "a"⟩ ∈ s.trace ∧
    .settled (some ⟨1, "b"⟩) ⟨0, "a"⟩ ∈ s.trace := by
  exact reach_of_replay next _ worker lostAndLate _ (by decide +kernel)

end Iterabase.Harness
