/-
**Harness — what the methods do.**

Each method is opened once, and says what it does to the fields by which the continuations of a turn
address it: whatever they hold afterwards they held before, the trace grows, and at most one event is
appended.

* `Silent`, `Adds`, `Writes` — a method that appends nothing, that may append one event, and that
  appends nothing where it fails.
* `Segment` — a segment of a turn's handler.
* `Acts`, `resumes_acts` — **what a move of the process does**.
-/

import Iterabase.Harness.Supervisor

namespace Iterabase.Harness

open Conc List State
open Dispatch (TurnID TurnEvent TurnEventKind Outcome CompletionReport WorkspaceStatus
  WorkerMessage)

def isOutcome : TurnEventKind → Bool
  | .workerOutcome _ => true
  | _ => false

/-! ### What a method does -/

/-- The continuations stay as they are, and whatever is held afterwards was held before. -/
structure Keeps (s s' : State) : Prop where
  latest : s'.latest = s.latest := by rfl
  handlers : s'.handlers = s.handlers := by rfl
  turn : ∀ ctx', s'.turn = some ctx' → ∃ ctx, s.turn = some ctx ∧ ctx.ref = ctx'.ref := by
    exact fun ctx held => ⟨ctx, held, rfl⟩
  outbox : ∀ o', s'.outbox = some o' → ∃ o, s.outbox = some o ∧ o.turn = o'.turn := by
    exact fun o held => ⟨o, held, rfl⟩
  child : ∀ c, s'.currentChild = some c → s.currentChild = some c := by exact fun _ held => held
  heartbeat : ∀ b, s'.heartbeat = some b → s.heartbeat = some b := by exact fun _ held => held
  active : s'.state.hasActiveTurn →
      s.state.hasActiveTurn ∧ s'.state.activeTurn = s.state.activeTurn := by
    exact fun busy => ⟨busy, rfl⟩

/-- The observation is a message, or a continuation of `last` acted on what the process holds. -/
def Obs.By (last : Option TurnRef) (s : State) : Obs → Prop
  | .appended _ _ _ => False
  | .sent _ _ => True
  | .stopped heartbeat turn => last = some turn ∧ s.heartbeat = some heartbeat
  | .cleared child turn => last = some turn ∧ s.currentChild = some child
  | .settled active turn => last = some turn ∧ s.state.hasActiveTurn ∧ active = s.state.activeTurn

/-- Nothing is appended. -/
structure Silent (last : Option TurnRef) (s s' : State) : Prop extends Keeps s s' where
  trace : ∃ new, s'.trace = new ++ s.trace ∧ ∀ o ∈ new, o.By last s := by
    exact ⟨[], rfl, forall_mem_nil _⟩

variable {last : Option TurnRef} {t : TurnRef} {kind : TurnEventKind} {s s₁ s₂ s₃ s' : State}

theorem Keeps.trans (first : Keeps s₁ s₂) (second : Keeps s₂ s₃) : Keeps s₁ s₃ where
  latest := second.latest.trans first.latest
  handlers := second.handlers.trans first.handlers
  turn := fun ctx held => by
    obtain ⟨ctx₂, held₂, same⟩ := second.turn ctx held
    obtain ⟨ctx₁, held₁, same₁⟩ := first.turn ctx₂ held₂
    exact ⟨ctx₁, held₁, same₁.trans same⟩
  outbox := fun o held => by
    obtain ⟨o₂, held₂, same⟩ := second.outbox o held
    obtain ⟨o₁, held₁, same₁⟩ := first.outbox o₂ held₂
    exact ⟨o₁, held₁, same₁.trans same⟩
  child := fun c held => first.child c (second.child c held)
  heartbeat := fun b held => first.heartbeat b (second.heartbeat b held)
  active := fun busy => by
    obtain ⟨busy₂, same⟩ := second.active busy
    obtain ⟨busy₁, same₁⟩ := first.active busy₂
    exact ⟨busy₁, same.trans same₁⟩

theorem Obs.By.before {o : Obs} (keeps : Keeps s₁ s₂) (own : o.By last s₂) : o.By last s₁ := by
  cases o with
  | appended outbox te producer => exact own
  | sent stream msg => trivial
  | stopped heartbeat turn => exact ⟨own.1, keeps.heartbeat _ own.2⟩
  | cleared child turn => exact ⟨own.1, keeps.child _ own.2⟩
  | settled active turn =>
    obtain ⟨isLast, busy, same⟩ := own
    obtain ⟨busy, kept⟩ := keeps.active busy
    exact ⟨isLast, busy, same.trans kept⟩

theorem Silent.refl (s : State) : Silent last s s := {}

/-- What `Silent` looks at. -/
def State.seen (s : State) :=
  (s.latest, s.handlers, s.turn, s.outbox, s.currentChild, s.heartbeat, s.state, s.trace)

theorem Silent.of_eq (same : s'.seen = s.seen) : Silent last s s' := by
  obtain ⟨⟩ := s
  obtain ⟨⟩ := s'
  cases same
  exact { Silent.refl _ with }

theorem Silent.trans (first : Silent last s₁ s₂) (second : Silent last s₂ s₃) :
    Silent last s₁ s₃ := by
  obtain ⟨new₁, trace₁, own₁⟩ := first.trace
  obtain ⟨new₂, trace₂, own₂⟩ := second.trace
  refine { first.toKeeps.trans second.toKeeps with trace := ⟨new₂ ++ new₁, ?_, fun o member => ?_⟩ }
  · rw [trace₂, trace₁, append_assoc]
  · rcases mem_append.mp member with there | here
    · exact (own₂ o there).before first.toKeeps
    · exact own₁ o here

theorem Silent.after (second : Silent last s₂ s₃) (same : s₂.seen = s₁.seen) : Silent last s₁ s₃ :=
  (Silent.of_eq same).trans second

theorem Silent.observe {o : Obs} (own : o.By last s) : Silent last s (s.observe o) :=
  { trace := ⟨[o], rfl, fun _ member => mem_singleton.mp member ▸ own⟩ }

theorem Silent.idle {st : WorkerState} (idle : st.hasActiveTurn = false) :
    Silent last s { s with state := st } :=
  { active := fun busy => by cases idle.symm.trans busy }

theorem Silent.mapTurn {f : TurnCtx → TurnCtx} (keeps : ∀ ctx, (f ctx).ref = ctx.ref) :
    Silent last s { s with turn := s.turn.map f } :=
  { turn := fun ctx held => by
      obtain ⟨ctx', held', rfl⟩ := Option.map_eq_some_iff.mp held
      exact ⟨ctx', held', (keeps ctx').symm⟩ }

/-- One event is appended to the open outbox. -/
structure Logged (p : Producer) (kind : TurnEventKind) (s s' : State) : Prop
    extends Keeps s s' where
  trace : ∃ o te, s.outbox = some o ∧ te.kind = kind ∧
    s'.trace = .appended o.turn te p :: s.trace

/-- A continuation of the turn `t`, or the `failClosed` that gives it up, appends at most one event. -/
def Adds (t : TurnRef) (kind : TurnEventKind) (s s' : State) : Prop :=
  Silent (some t) s s' ∨ ∃ p s₁, p.turn = t ∧ (p.ofTurn ∨ kind = .workerOutcome .aborted) ∧
    Logged p kind s s₁ ∧ Silent (some t) s₁ s'

def Writes {α : Type} (t : TurnRef) (kind : TurnEventKind) (s : State) :
    Except TurnError α × State → Prop
  | (.error _, s') => Silent (some t) s s'
  | (.ok _, s') => Adds t kind s s'

theorem Adds.silent (first : Adds t kind s₁ s₂) (second : Silent (some t) s₂ s₃) :
    Adds t kind s₁ s₃ := by
  rcases first with silent | ⟨p, mid, turn, may, logged, silent⟩
  · exact .inl (silent.trans second)
  · exact .inr ⟨p, mid, turn, may, logged, silent.trans second⟩

theorem Adds.keeps (adds : Adds t kind s s') : Keeps s s' := by
  rcases adds with silent | ⟨_, _, _, _, logged, silent⟩
  · exact silent.toKeeps
  · exact logged.toKeeps.trans silent.toKeeps

theorem Writes.adds {α : Type} {result : Except TurnError α × State}
    (writes : Writes t kind s result) : Adds t kind s result.2 := by
  obtain ⟨_ | _, s'⟩ := result
  · exact .inl writes
  · exact writes

/-! ### Sends and appends -/

theorem WorkerState.advance_ok {st st' : WorkerState} {expected next : WorkerPhase}
    (advanced : st.advance expected next = some st') :
    st.phase = expected ∧ st' = { st with phase := next } := by
  unfold WorkerState.advance at advanced
  split at advanced
  · cases advanced
    exact ⟨‹_›, rfl⟩
  · cases advanced

section Methods

variable (s : State)

theorem send_silent (msg : WorkerMessage) : Silent last s (s.send msg) := by
  unfold send
  split
  · exact .refl s
  split
  · exact .refl s
  · exact .observe trivial

theorem sendEvent_silent (te : TurnEvent) : Silent last s (s.sendEvent te) := by
  unfold sendEvent
  split
  · have marked : Silent last s
        { s with outbox := s.outbox.map (EventOutbox.markFinal · te.sequence) } :=
      { outbox := fun o held => by
          obtain ⟨o', held', rfl⟩ := Option.map_eq_some_iff.mp held
          exact ⟨o', held', rfl⟩ }
    exact marked.trans (send_silent _ _)
  · exact send_silent s _

theorem appendTerminal_writes {o : EventOutbox} (current : s.outbox = some o)
    (kind : TurnEventKind) {p : Producer} (may : p.ofTurn ∨ kind = .workerOutcome .aborted) :
    Writes p.turn kind s (s.appendTerminal o kind p) := by
  unfold appendTerminal
  split
  · exact { outbox := by rintro _ ⟨⟩; exact ⟨o, current, rfl⟩ }
  · exact .inr ⟨p, _, rfl, may, {
      outbox := by rintro _ ⟨⟩; exact ⟨o, current, rfl⟩
      trace := ⟨o, o.event kind, current, rfl, rfl⟩ }, .refl _⟩

section Producer

variable {p : Producer} (own : p.ofTurn)

include own

theorem sendTerminal_writes (kind : TurnEventKind) :
    Writes p.turn kind s (s.sendTerminal kind p) := by
  unfold sendTerminal
  split
  · exact .inl (.refl s)
  rename_i o current
  have appended := appendTerminal_writes s current kind (.inl own)
  generalize s.appendTerminal o kind p = result at appended
  obtain ⟨err | te, s₁⟩ := result
  · exact appended
  · exact Adds.silent appended (sendEvent_silent s₁ te)

theorem sendChildEvent_writes (kind : TurnEventKind) :
    Writes p.turn kind s (s.sendChildEvent kind p) := by
  unfold sendChildEvent
  split
  · exact .refl s
  · exact sendTerminal_writes s own kind

omit own in
theorem onChildExited_silent (turn : TurnRef) : Silent (some turn) s (s.onChildExited turn) := by
  unfold onChildExited
  split
  · exact .refl s
  rename_i st exited
  obtain ⟨running, rfl⟩ := WorkerState.advance_ok exited
  have busy : s.state.hasActiveTurn := by simp [WorkerState.hasActiveTurn, running]
  exact {
    active := fun _ => ⟨busy, rfl⟩
    trace := ⟨[_], rfl, fun _ member => mem_singleton.mp member ▸ ⟨rfl, busy, rfl⟩⟩ }

theorem emitOutcome_writes (outcome : Outcome) :
    Writes p.turn (.workerOutcome outcome) s (s.emitOutcome outcome p) := by
  unfold emitOutcome
  split
  · exact .inl (.refl s)
  have sent := sendTerminal_writes s own (.workerOutcome outcome)
  generalize s.sendTerminal (.workerOutcome outcome) p = result at sent
  obtain ⟨err | _, s₁⟩ := result
  · exact sent
  · exact Adds.silent sent (onChildExited_silent s₁ p.turn)

/-- A failed turn appends at most the error and, after it, the outcome. -/
theorem failTurn_adds (err : TurnError) : ∃ s₁, Adds p.turn .harnessError s s₁ ∧
    Adds p.turn (.workerOutcome .failed) s₁ (s.failTurn err p).2 := by
  unfold failTurn
  split
  · have sent := sendTerminal_writes s own .harnessError
    generalize s.sendTerminal .harnessError p = result at sent
    obtain ⟨err | _, s₁⟩ := result
    · exact ⟨s₁, .inl sent, .inl (.refl s₁)⟩
    · exact ⟨s₁, sent, (emitOutcome_writes s₁ own .failed).adds⟩
  · exact ⟨s, .inl (.refl s), (emitOutcome_writes s own .failed).adds⟩

end Producer

theorem fatal_silent : Silent last s s.fatal := .idle rfl

theorem abortActiveTurn_silent : Silent last s s.abortActiveTurn := .mapTurn fun _ => rfl

theorem maybeAdvertiseCredit_silent : Silent last s s.maybeAdvertiseCredit := by
  unfold maybeAdvertiseCredit
  split
  · exact .refl s
  split
  · exact .refl s
  rename_i st advertised
  obtain ⟨_, rfl⟩ := WorkerState.advance_ok advertised
  exact Silent.trans (.idle rfl) (send_silent _ _)

theorem sendWorkspaceStatus_silent : Silent last s s.sendWorkspaceStatus := by
  unfold sendWorkspaceStatus
  split
  · exact .refl s
  · exact send_silent s _

theorem cleanUp_silent (h : Handler) : Silent (some h.turn) s (s.cleanUp h) := by
  have noted : ∀ (s : State) (held : Option TurnRef) (o : TurnRef → Obs),
      (∀ turn, held = some turn → (o turn).By (some h.turn) s) →
      Silent (some h.turn) s (s.note held o) := by
    intro s held o own
    cases held with
    | none => exact .refl s
    | some turn => exact .observe (own turn rfl)
  have stopped := noted s s.heartbeat (.stopped · h.turn) fun _ held => ⟨rfl, held⟩
  have cleared := noted (s.note s.heartbeat (.stopped · h.turn)) s.currentChild (.cleared · h.turn)
    fun c held => by
      refine ⟨rfl, ?_⟩
      cases s.heartbeat <;> exact held
  exact (stopped.trans cleared).trans { child := nofun, heartbeat := nofun }

end Methods

/-! ### The handler of a turn -/

/-- The handler has launched its child and not yet let go of it. -/
def Stage.holdsChild : Stage → Bool
  | .draining | .exiting | .joining _ => true
  | _ => false

/-- The handler is before its final wait, so it has yet to report. -/
def Stage.unreported : Stage → Bool
  | .acking _ | .returned => false
  | _ => true

variable {i : Nat} {h : Handler}

/-- The handler lets go of its child and its heartbeat, and waits for the last ACK or leaves. -/
def Ends (i : Nat) (h : Handler) (s s' : State) : Prop :=
  ∃ stage : Stage, stage.unreported = false ∧
    Silent (some h.turn) ((s.cleanUp h).setHandler i { h with stage := stage }) s'

/-- A segment of handler `i`. It may append an event of the kind; where it ends it may append an error
as well, and the outcome is the last event it appends. -/
inductive Segment (i : Nat) (h : Handler) (kind : TurnEventKind) (s : State) : State → Prop
  | stays {s' : State} : Adds h.turn kind s s' → Segment i h kind s s'
  | moves {stage : Stage} : stage.unreported → (h.stage.holdsChild → stage.holdsChild) →
      Segment i h kind s (s.setHandler i { h with stage := stage })
  | launches : Segment i h kind s ({ s with currentChild := some h.turn }.setHandler i
      { h with stage := .draining, rpc := .running })
  | ends {s₁ s₂ s₃ s' : State} {outcome : Outcome} : Adds h.turn kind s s₁ →
      Adds h.turn .harnessError s₁ s₂ → Adds h.turn (.workerOutcome outcome) s₂ s₃ →
      Ends i h s₃ s' → Segment i h kind s s'

theorem finish_ends (s : State) : Ends i h s (s.finish i h) := by
  unfold finish
  dsimp only
  split
  · exact ⟨.returned, rfl, .of_eq rfl⟩
  · exact ⟨_, rfl, .refl _⟩

theorem Segment.fails (adds : Adds h.turn kind s s₁) (err : TurnError) :
    Segment i h kind s (s₁.handlerFails i h err) := by
  obtain ⟨s₂, erred, failed⟩ := failTurn_adds s₁ (p := .handler h.turn) rfl err
  unfold handlerFails
  generalize s₁.failTurn err (.handler h.turn) = result at failed
  obtain ⟨_ | _, s₃⟩ := result
  · exact .ends adds erred failed ⟨.returned, rfl, .of_eq rfl⟩
  · exact .ends adds erred failed (finish_ends s₃)

section Segments

variable (s : State)

theorem fails_at_once (err : TurnError) : Segment i h kind s (s.handlerFails i h err) :=
  .fails (.inl (.refl s)) err

theorem setUp_segment (setup : State.Setup) :
    Segment i h .executionStarted s (s.setUp i h setup) := by
  unfold setUp
  split
  · exact fails_at_once s _
  have started := sendChildEvent_writes s (p := .handler h.turn) rfl .executionStarted
  generalize s.sendChildEvent .executionStarted (.handler h.turn) = result at started
  obtain ⟨err | _, s₁⟩ := result
  · exact .fails (.inl started) err
  dsimp only
  split
  · exact .fails started _
  · exact .stays started

theorem materialized_segment (waiting : h.stage = .materializing) (ok : Bool) :
    Segment i h kind s (s.materialized i h ok) := by
  unfold materialized
  split
  · exact fails_at_once s _
  · exact .moves rfl (by simp [waiting, Stage.holdsChild])

theorem discovered_segment (answer : State.Discovery) :
    Segment i h kind s (s.discovered i h answer) := by
  unfold discovered
  split
  · exact fails_at_once s _
  split
  · exact fails_at_once s _
  split
  · exact fails_at_once s _
  · exact .launches

theorem childEvent_segment (ev : ChildEvent) : ∃ kind, Segment i h kind s (s.childEvent i h ev) ∧
    (isOutcome kind → ev = .event kind ∧ s.aborted = false) := by
  unfold childEvent
  split
  · exact ⟨.harnessError, .moves rfl fun _ => rfl, nofun⟩
  rename_i goesOn
  split
  · exact ⟨.harnessError, .stays (.inl (send_silent s _)), nofun⟩
  rename_i payload
  refine ⟨payload, ?_, fun _ => ⟨rfl, by simpa using goesOn⟩⟩
  have sent := sendChildEvent_writes s (p := .child h.turn) rfl payload
  generalize s.sendChildEvent payload (.child h.turn) = result at sent
  obtain ⟨err | _, s₁⟩ := result
  · exact .fails (.inl sent) err
  · exact .stays sent

theorem joined_segment (outcome : Outcome) : Segment i h kind s (s.joined i h outcome) := by
  have sent := emitOutcome_writes s (p := .handler h.turn) rfl outcome
  unfold joined
  generalize s.emitOutcome outcome (.handler h.turn) = result at sent
  obtain ⟨err | _, s₁⟩ := result
  · exact .fails (.inl sent) err
  · exact .ends (.inl (.refl s)) (.inl (.refl s)) sent (finish_ends s₁)

theorem acked_silent :
    Silent (some h.turn) (s.setHandler i { h with stage := .returned }) (s.acked i h) := by
  unfold acked
  dsimp only
  split
  · exact { turn := nofun }
  rename_i st acked
  unfold WorkerState.onOutcomeAcked at acked
  split at acked
  · rename_i cleaning
    cases acked
    have busy : s.state.hasActiveTurn := by
      rw [WorkerState.hasActiveTurn, show s.state.phase = .cleaning from cleaning]
      rfl
    refine Silent.trans ?_ (maybeAdvertiseCredit_silent _)
    exact {
      turn := nofun
      outbox := nofun
      active := nofun
      trace := ⟨[_], rfl, fun _ member => mem_singleton.mp member ▸ ⟨rfl, busy, rfl⟩⟩ }
  · cases acked

end Segments

/-! ### A move of the process -/

def State.accepts (s : State) (assignment : AssignTurn) : Prop :=
  s.state.phase = .armed ∧ assignment.turnID ≠ ""

/-- The handler of an accepted assignment. -/
def State.newHandler (s : State) (assignment : AssignTurn) : Handler :=
  ⟨⟨s.handlers.length, assignment.turnID⟩, assignment, .materializing, .absent⟩

/-- What a move does. An outcome that is not the last event of its segment came from the child. -/
inductive Acts (s : State) : Move → State → Prop
  | silent {m : Move} {s' : State} : (∀ last, Silent last s s') → Acts s m s'
  | assigns {assignment : AssignTurn} {setup : State.Setup} {h : Handler} {s₁ s' : State} :
      s.accepts assignment → h = s.newHandler assignment →
      Segment s.handlers.length h .executionStarted
        (((s.takeOn ⟨.running, some h.turn⟩ h).openOutbox h.turn).startHeartbeat h.turn) s₁ →
      Silent (some h.turn) s₁ s' → Acts s (.control (.assignTurn assignment) setup) s'
  /-- The turn id names no file, and the log is not opened. -/
  | crashes {assignment : AssignTurn} {setup : State.Setup} {h : Handler} {s' : State} :
      s.accepts assignment → h = s.newHandler assignment → s'.crashed = true → s'.trace = s.trace →
      Silent (some h.turn) ((s.takeOn ⟨.running, some h.turn⟩ h).setHandler s.handlers.length
        { h with stage := .returned }) s' → Acts s (.control (.assignTurn assignment) setup) s'
  | closes : Acts s .closed s.closed
  | segment {m : Move} {i : Nat} {h : Handler} {kind : TurnEventKind} {s' : State} :
      s.handlers[i]? = some h → h.stage.unreported → Segment i h kind s s' →
      (isOutcome kind → m = .childEvent i (.event kind) ∧ s.aborted = false) → Acts s m s'
  | rpcEnds {m : Move} {i : Nat} {h : Handler} : s.handlers[i]? = some h → h.rpc = .running →
      Acts s m (s.setHandler i { h with rpc := .ended })
  | reports {i : Nat} {h : Handler} {report : CompletionReport} {s₁ s₂ s' : State} :
      s.handlers[i]? = some h → h.rpc = .running → s.aborted = false →
      Silent (some h.turn) s s₁ → Adds h.turn (.stepCompletion report) s₁ s₂ →
      (s' = s₂ ∨ s' = s₂.setHandler i { h with rpc := .ended }) →
      Acts s (.childRpc i (.stepCompletion report)) s'
  | refuses {i : Nat} {h : Handler} {report : CompletionReport} :
      s.handlers[i]? = some h → h.rpc = .running → s.aborted = false →
      s.acceptsCompletion h.assignment report = false →
      Acts s (.childRpc i (.stepCompletion report))
        ((s.failTurn .protocol (.child h.turn)).2.setHandler i { h with rpc := .ended })
  | returns {i : Nat} {h : Handler} {turn : TurnRef} {s' : State} :
      s.handlers[i]? = some h → h.stage = .acking turn →
      Silent (some h.turn) (s.setHandler i { h with stage := .returned }) s' → Acts s (.acked i) s'

theorem Acts.plain {m : Move} (found : s.handlers[i]? = some h) (stage : h.stage.unreported)
    (segment : Segment i h .harnessError s s') : Acts s m s' :=
  .segment found stage segment nofun

section Moves

variable (s : State)

theorem onEventAck_silent (turnID : TurnID) (through : Nat) :
    Silent last s (s.onEventAck turnID through) := by
  unfold onEventAck
  split
  · split
    · exact fatal_silent s
    · split
      · exact .refl s
      · exact (maybeAdvertiseCredit_silent _).after rfl
  · split
    · rename_i ctx o _ current
      split
      · exact fatal_silent s
      split
      · exact fatal_silent s
      rename_i done o' acked
      have stored : Silent last s (if o'.ackedSeq = o.ackedSeq then s
          else { s with outbox := some o' }.writeWal o.turn.turnID (.ack through)) := by
        split
        · exact .refl s
        · exact { outbox := by
                    rintro _ ⟨⟩
                    exact ⟨o, current, (EventOutbox.ack_turn acked).symm⟩ }
      dsimp only
      split
      · exact stored.trans (.of_eq rfl)
      · exact stored
    · exact fatal_silent s

theorem failClosed_silent : Silent last s s.failClosed :=
  (abortActiveTurn_silent s).trans { heartbeat := nofun }

theorem streamEnds_silent (failed : Bool) : Silent last s (s.streamEnds failed) := by
  unfold streamEnds
  split
  · exact .of_eq rfl
  · exact failClosed_silent s

theorem connect_silent (transport : Bool) : Silent last s (s.connect transport) := by
  unfold connect
  split
  · exact .of_eq rfl
  split
  · exact failClosed_silent s
  split
  · exact failClosed_silent s
  · rename_i st connecting
    obtain ⟨_, rfl⟩ := WorkerState.advance_ok connecting
    exact { active := nofun }

theorem replayPending_silent : Silent last s s.replayPending := by
  unfold replayPending
  generalize s.pendingReplay.flatMap PendingReplay.events = events
  induction events generalizing s with
  | nil => exact .refl s
  | cons te rest ih => exact (send_silent s _).trans (ih _)

theorem opened_silent : Silent last s s.opened := by
  unfold opened
  dsimp only
  split
  · exact (failClosed_silent _).after rfl
  rename_i st welcomed
  obtain ⟨_, rfl⟩ := WorkerState.advance_ok welcomed
  have serving : Silent last s { s with
      stream := some ⟨s.streams, false⟩, streams := s.streams + 1,
      state := { s.state with phase := .idle }, loop := .serving } := { active := nofun }
  have told := serving.trans (sendWorkspaceStatus_silent _)
  exact (told.trans (replayPending_silent _)).trans (maybeAdvertiseCredit_silent _)

theorem updateWorkspaceStatus_silent (status : WorkspaceStatus) :
    Silent last s (s.updateWorkspaceStatus status) := by
  have told : Silent last s { s with workspaceStatus := some status }.sendWorkspaceStatus :=
    (sendWorkspaceStatus_silent _).after rfl
  unfold updateWorkspaceStatus
  split
  · exact told
  · exact told.trans (maybeAdvertiseCredit_silent _)

theorem drain_silent : Silent last s s.drain := by
  have idle : (s.state.beginDrain).hasActiveTurn = false := by
    unfold WorkerState.beginDrain
    split
    · rename_i fatal
      simp [WorkerState.hasActiveTurn, fatal]
    · rfl
  exact (abortActiveTurn_silent s).trans { active := fun busy => by cases idle.symm.trans busy }

theorem loseStream_silent : Silent last s s.loseStream := by
  unfold loseStream
  dsimp only
  split <;> exact { turn := nofun, active := nofun }

/-- `failClosed` gives up the turn it finds active, and drops its outbox. -/
theorem closed_adds : (∀ last, Silent last s s.closed) ∨ ∃ o ctx, s.outbox = some o ∧
    s.turn = some ctx ∧ (Silent (some ctx.ref) s s.closed ∨
      Adds ctx.ref (.workerOutcome .aborted) s s.closed ∧ s.closed.outbox = none) := by
  unfold closed
  split
  · rename_i o ctx current active
    refine .inr ⟨o, ctx, current, active, ?_⟩
    have appended := appendTerminal_writes s current (.workerOutcome .aborted)
      (p := .failClosed ctx.ref) (.inr rfl)
    generalize s.appendTerminal o (.workerOutcome .aborted) (.failClosed ctx.ref) = result at appended
    obtain ⟨err | te, s₁⟩ := result
    · exact .inl (Silent.trans appended (.of_eq rfl))
    · have dropped : ∀ replays, Silent (some ctx.ref) s₁
          { s₁ with pendingReplay := replays, outbox := none } := fun _ => { outbox := nofun }
      refine .inr ⟨Adds.silent appended ((dropped _).trans (loseStream_silent _)), ?_⟩
      dsimp only [loseStream]
      split <;> rfl
  · exact .inl fun last => loseStream_silent s

theorem control_acts (msg : ControlMessage) (setup : State.Setup) :
    Acts s (.control msg setup) (s.control msg setup) := by
  have served : (∀ last, Silent last (s.onControl msg setup) (s.control msg setup)) ∧
      (s.control msg setup).crashed = (s.onControl msg setup).crashed ∧
      (s.control msg setup).trace = (s.onControl msg setup).trace := by
    unfold State.control
    dsimp only
    split
    · exact ⟨fun _ => .of_eq rfl, rfl, rfl⟩
    · exact ⟨fun _ => .refl _, rfl, rfl⟩
  cases msg with
  | welcome => exact .silent served.1
  | assignTurn assignment =>
    revert served
    generalize s.control (.assignTurn assignment) setup = s'
    unfold onControl handleAssignTurn
    dsimp only
    split
    · exact fun served => .silent fun last => (fatal_silent s).trans (served.1 last)
    rename_i st accepted
    unfold WorkerState.onAssignTurn at accepted
    split at accepted
    · rename_i armed
      cases accepted
      split
      · exact fun served => .assigns armed rfl (setUp_segment _ setup) (served.1 _)
      · exact fun served => .crashes armed rfl served.2.1 served.2.2
          ((served.1 _).after rfl)
    · cases accepted
  | abortTurn turnID =>
    refine .silent fun last => Silent.trans ?_ (served.1 last)
    unfold onControl
    dsimp only
    split
    · exact abortActiveTurn_silent s
    · exact .refl s
  | eventAck turnID through =>
    exact .silent fun last => (onEventAck_silent s turnID through).trans (served.1 last)
  | sessionEnd sandboxID =>
    refine .silent fun last => Silent.trans ?_ (served.1 last)
    unfold onControl handleSessionEnd
    dsimp only
    split
    · exact fatal_silent s
    · exact .refl s

theorem childRpc_acts (found : s.handlers[i]? = some h) (running : h.rpc = .running)
    (req : ChildRpcRequest) : Acts s (.childRpc i req) (s.childRpc i h req) := by
  unfold childRpc
  split
  · exact .rpcEnds found running
  rename_i goesOn
  have goesOn : s.aborted = false := by simpa using goesOn
  split
  · exact .silent fun last => abortActiveTurn_silent s
  · rename_i report
    split
    · have reported : Silent (some h.turn) s s.reportCompletion := .mapTurn fun _ => rfl
      have sent := sendChildEvent_writes s.reportCompletion (p := .child h.turn) rfl
        (.stepCompletion report)
      generalize s.reportCompletion.sendChildEvent (.stepCompletion report) (.child h.turn) =
        result at sent
      obtain ⟨_ | _, s₂⟩ := result
      · exact .reports found running goesOn reported (.inl sent) (.inr rfl)
      · exact .reports found running goesOn reported sent (.inl rfl)
    · rename_i refused
      exact .refuses found running goesOn (Bool.eq_false_iff.mpr refused)
  · exact .silent fun last => .refl s

theorem resumes_acts {m : Move} {s' : State} (resumes : Resumes s m s') : Acts s m s' := by
  cases resumes with
  | connect => exact .silent fun _ => connect_silent s _
  | opened => exact .silent fun _ => opened_silent s
  | openFailed => exact .silent fun _ => failClosed_silent s
  | control => exact control_acts s _ _
  | streamEnds => exact .silent fun _ => streamEnds_silent s _
  | closed => exact .closes
  | drain => exact .silent fun _ => drain_silent s
  | drained => exact .silent fun _ => .of_eq rfl
  | updateWorkspaceStatus => exact .silent fun _ => updateWorkspaceStatus_silent s _
  | beat => exact .silent fun _ => send_silent s _
  | materialized found stage =>
    exact .plain found (by rw [stage]; rfl) (materialized_segment s stage _)
  | discovered found stage =>
    exact .plain found (by rw [stage]; rfl) (discovered_segment s _)
  | childEvent found stage =>
    obtain ⟨kind, segment, outcome⟩ := childEvent_segment s _
    refine .segment found (by rw [stage]; rfl) segment fun is => ?_
    obtain ⟨rfl, goesOn⟩ := outcome is
    exact ⟨rfl, goesOn⟩
  | eventsEnd found stage | childResult found stage =>
    exact .plain found (by rw [stage]; rfl) (.moves rfl fun _ => rfl)
  | rpcDone found stage =>
    exact .plain found (by rw [stage]; rfl) (joined_segment s _)
  | childRpc found running => exact childRpc_acts s found running _
  | rpcEnds found running => exact .rpcEnds found running
  | acked found stage => exact .returns found stage (acked_silent s)

end Moves

end Iterabase.Harness
