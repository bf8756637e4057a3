/-
**Durable dispatch — the event log of a turn.**

Two transactions write a worker's events, with different filters on the turn's row and different
bindings to the stream, over one watermark. The active path checks worker and generation in a read of
its own, and no pool.

* `State.log` — the events that were committed for a turn, oldest first, each with its stream.
* `State.streamed` — the rows of `runtime.events` that hold a worker's event of the turn.
* `Logged` — the log, the rows and the watermark agree, and the log is the turn's own worker's.
* `event_log_exact` — **exactly one event for each sequence up to the watermark, in order, in every run.**
-/

import Iterabase.Dispatch.Ack

namespace Iterabase.Dispatch

open Conc List Table State Along

/-! ### The log -/

/-- The event of the turn that an observation commits, with its stream. -/
def Obs.committed (turnID : TurnID) : Obs → Option (ConnRef × TurnEvent)
  | .appended w te | .audited w te => if te.turnID = turnID then some (w, te) else none
  | _ => none

def Obs.IsCommit : Obs → Prop
  | .appended _ _ | .audited _ _ => True
  | _ => False

namespace State

def log (s : State) (turnID : TurnID) : List (ConnRef × TurnEvent) :=
  (s.trace.filterMap (Obs.committed turnID)).reverse

end State

/-! ### Steps that commit nothing -/

/-- Neither a watermark nor a row of a worker's event has changed, and nothing was committed. -/
structure Inert (s s' : State) : Prop where
  marks : ∀ turnID, s'.mark turnID = s.mark turnID
  rows : ∀ turnID, s'.streamed turnID = s.streamed turnID
  silent : Silent Obs.IsCommit s s'

namespace Inert

variable {s s' : State}

theorem of_eq (assignments : s'.assignments = s.assignments := by rfl)
    (events : s'.events = s.events := by rfl) (trace : s'.trace = s.trace := by rfl) : Inert s s' where
  marks := by simp [mark, assignments]
  rows := by simp [streamed, events]
  silent := .of_eq trace

theorem trans {s₁ s₂ s₃ : State} (first : Inert s₁ s₂) (second : Inert s₂ s₃) : Inert s₁ s₃ where
  marks turnID := (second.marks turnID).trans (first.marks turnID)
  rows turnID := (second.rows turnID).trans (first.rows turnID)
  silent := first.silent.trans second.silent

theorem observe {o : Obs} (inert : Inert s s') (other : ¬ o.IsCommit) : Inert s (s'.observe o) where
  marks := inert.marks
  rows := inert.rows
  silent := inert.silent.observe other

theorem of_internal (internal : Internal s s') : Inert s s' where
  marks := internal.marks
  rows := internal.streamed
  silent := by
    obtain ⟨new, step, plain⟩ := internal.plain
    refine step.silent fun o member commit => ?_
    have unplaced := (plain o member).1
    cases o with
    | appended w te | audited w te => cases unplaced
    | _ => exact commit

theorem log (inert : Inert s s') (turnID : TurnID) : s'.log turnID = s.log turnID := by
  obtain ⟨new, same, quiet⟩ := inert.silent
  have none : new.filterMap (Obs.committed turnID) = [] := by
    refine filterMap_eq_nil_iff.mpr fun o member => ?_
    have other := quiet o member
    cases o with
    | appended w te | audited w te => exact absurd trivial other
    | _ => rfl
  rw [State.log, State.log, same, filterMap_append, none, nil_append]

end Inert

variable {s : State} {w : ConnRef}

/-! ### The actions that commit nothing -/

theorem send_inert {msg : ControlMessage} {answers : Option TurnEvent} :
    (send w msg answers).All (Does Inert) :=
  send_does (fun _ => .of_eq) fun _ => Inert.observe .of_eq id

theorem createAssignment_inert {a : Assignment} (fresh : a.highestAppliedSequence = 0) :
    (createTx w a).All
    (Does Inert) := by
  refine store_does (fun _ => .of_eq) fun {input s answer s'} ran => ?_
  rcases createAssignmentFor_cases ran with ⟨_, _, rfl⟩ | ⟨rows, _, inserted, rfl⟩
  · exact .of_eq
  have listed : Inert s { s with assignments := rows } := ⟨fun turnID => ?_, fun _ => rfl, .of_eq rfl⟩
  · exact (listed.observe id).observe id
  unfold mark
  rw [find_insert inserted]
  split
  · rename_i own
    subst own
    rw [insert_fresh inserted]
    exact fresh
  · rfl

theorem settling_inert : Settling (Every (Does Inert)) where
  toEnding := .of_internal .of_internal fun _ _ => .of_eq
  releaseTurn := locally_does fun _ _ => Inert.observe .of_eq id

theorem reserve_inert (t : Nat) (poolID : PoolID) (turnID : TurnID) :
    (reserving poolID turnID t).All (Does Inert) := by
  refine .atomic fun {input s answer s'} ran => ?_
  rcases reserve_cases (Option.some.inj ran) with _ | _
  · exact .of_eq
  · exact Inert.observe .of_eq id

/-! ### What the log says -/

structure Logged (s : State) (turnID : TurnID) : Prop where
  sequences : (s.log turnID).map (fun e => e.2.sequence) = List.range' 1 (s.mark turnID)
  rows : (s.streamed turnID).map (fun e => (some e.kind, e.payload)) =
    (s.log turnID).map fun e => (turnEventToRuntime e.2.kind, some e.2.kind)
  /-- The rows are in the order of their run's sequence. -/
  ordered : ((s.streamed turnID).map EventRow.seq).Pairwise (· < ·)
  runs : ∀ e ∈ s.streamed turnID, ∃ a, s.assignments.find turnID = some a ∧ e.runID = a.runID
  owned : ∀ e ∈ s.log turnID, Belongs e.1 e.2 s ∧ .taken e.1 (.turnEvent e.2) ∈ s.trace ∧
    e.2.turnID = turnID

theorem Logged.same {s' : State} {turnID : TurnID} (logged : Logged s turnID) (durable : Durable s s')
    (mark : s'.mark turnID = s.mark turnID) (log : s'.log turnID = s.log turnID)
    (rows : s'.streamed turnID = s.streamed turnID) : Logged s' turnID where
  sequences := by rw [log, mark]; exact logged.sequences
  rows := by rw [log, rows]; exact logged.rows
  ordered := by rw [rows]; exact logged.ordered
  runs e member := by
    rw [rows] at member
    obtain ⟨a, found, run⟩ := logged.runs e member
    obtain ⟨a', found', becomes⟩ := durable.rows _ a found
    exact ⟨a', found', run.trans becomes.runID.symm⟩
  owned e member := by
    rw [log] at member
    obtain ⟨belongs, taken, turn⟩ := logged.owned e member
    exact ⟨belongs.durable durable, durable.trace.subset taken, turn⟩

/-! ### A commit -/

theorem State.lt_nextSeq {e : EventRow} (member : e ∈ s.events) : e.seq < s.nextSeq e.runID := by
  have bound : ∀ {rows : List EventRow}, e ∈ rows →
      e.seq ≤ rows.foldr (fun e highest => max e.seq highest) 0 := by
    intro rows member
    induction rows with
    | nil => cases member
    | cons first rest ih =>
      rcases mem_cons.mp member with rfl | member
      · exact Nat.le_max_left _ _
      · exact Nat.le_trans (ih member) (Nat.le_max_right _ _)
  exact Nat.lt_succ_of_le (bound (mem_filter.mpr ⟨member, by simp⟩))

section Commit

variable {s : State} {a : Assignment} {w : ConnRef} {te : TurnEvent} {kind : RuntimeEvent} {o : Obs}

theorem advanceWatermark_other {turnID : TurnID} (kind : RuntimeEvent) (other : te.turnID ≠ turnID)
    (commits : ∀ turnID, o.committed turnID = if te.turnID = turnID then some (w, te) else none) :
    let s' := (s.advanceWatermark a te kind).observe o
    s'.assignments.find turnID = s.assignments.find turnID ∧ s'.log turnID = s.log turnID ∧
      s'.streamed turnID = s.streamed turnID := by
  refine ⟨?_, ?_, ?_⟩
  · unfold advanceWatermark observe appendEvent
    rw [find_update]
    cases found : s.assignments.find turnID with
    | none => rfl
    | some b => simp [find_key found, Ne.symm other]
  · change (List.filterMap _ (o :: s.trace)).reverse = _
    rw [filterMap_cons, commits, if_neg other]
    rfl
  · change (List.filter _ (_ :: s.events)).reverse = _
    rw [filter_cons_of_neg (by simp [other])]
    rfl

/-- **The event is the next one of the log**, in the observations and in the rows. -/
theorem advanceWatermark_own (kind : RuntimeEvent) (found : s.assignments.find te.turnID = some a)
    (commits : ∀ turnID, o.committed turnID = if te.turnID = turnID then some (w, te) else none) :
    let s' := (s.advanceWatermark a te kind).observe o
    s'.mark te.turnID = te.sequence ∧ s'.log te.turnID = s.log te.turnID ++ [(w, te)] ∧
      s'.streamed te.turnID = s.streamed te.turnID ++
        [⟨a.runID, some te.turnID, s.nextSeq a.runID, kind, some te.kind⟩] := by
  refine ⟨?_, ?_, ?_⟩
  · unfold mark advanceWatermark observe appendEvent
    rw [find_update, found]
    simp [find_key found]
  · change (List.filterMap _ (o :: s.trace)).reverse = _
    rw [filterMap_cons, commits, if_pos rfl]
    exact reverse_cons
  · change (List.filter _ (_ :: s.events)).reverse = _
    rw [filter_cons_of_pos (by simp), reverse_cons]
    rfl

/-- **A committed event extends the log of its turn.** -/
theorem Logged.commit (logged : ∀ turnID, Logged s turnID)
    (found : s.assignments.find te.turnID = some a) (next : te.sequence = a.highestAppliedSequence + 1)
    (mapped : turnEventToRuntime te.kind = some kind) (pool : a.poolID = w.poolID)
    (worker : a.workerID = w.workerID) (taken : .taken w (.turnEvent te) ∈ s.trace)
    (commits : ∀ turnID, o.committed turnID = if te.turnID = turnID then some (w, te) else none)
    (honest : o.Honest s) (turnID : TurnID) :
    Logged ((s.advanceWatermark a te kind).observe o) turnID := by
  obtain ⟨step, after⟩ := committed_step kind found next honest
  have durable := step.durable
  by_cases own : te.turnID = turnID
  · subst own
    obtain ⟨mark, log, streamed⟩ := advanceWatermark_own kind found commits
    have before := logged te.turnID
    have was : s.mark te.turnID = a.highestAppliedSequence := by rw [State.mark, found]; rfl
    refine ⟨?_, ?_, ?_, fun e member => ?_, fun e member => ?_⟩
    · rw [log, mark, map_append, before.sequences, was, next, range'_1_concat]
      simp [next, Nat.add_comm]
    · rw [streamed, log, map_append, map_append, before.rows]
      simp [mapped]
    · rw [streamed, map_append, pairwise_append]
      refine ⟨before.ordered, by simp, fun seq member new newest => ?_⟩
      obtain ⟨e, present, rfl⟩ := mem_map.mp member
      rw [map_singleton, mem_singleton] at newest
      subst newest
      obtain ⟨b, found', run⟩ := before.runs e present
      cases found.symm.trans found'
      have listed : e ∈ s.events := (mem_filter.mp (mem_reverse.mp present)).1
      rw [← run]
      exact State.lt_nextSeq listed
    · rw [streamed] at member
      rcases mem_append.mp member with member | member
      · obtain ⟨b, found', run⟩ := before.runs e member
        cases found.symm.trans found'
        exact ⟨_, after, run⟩
      · rw [mem_singleton.mp member]
        exact ⟨_, after, rfl⟩
    · rw [log] at member
      rcases mem_append.mp member with member | member
      · obtain ⟨belongs, taken, turn⟩ := before.owned e member
        exact ⟨belongs.durable durable, durable.trace.subset taken, turn⟩
      · rw [mem_singleton.mp member]
        exact ⟨⟨_, after, pool, worker⟩, durable.trace.subset taken, rfl⟩
  · obtain ⟨row, log, streamed⟩ := advanceWatermark_other (s := s) (a := a) kind own commits
    exact (logged turnID).same durable (by rw [mark, mark, row]) log streamed

end Commit

/-! ### The functions that commit nothing -/

theorem dispatchRun_inert {t : Nat} {runID : RunID} : (dispatchRun t runID).All (Does Inert) :=
  dispatchRun_all settling_inert.losing (fun _ _ => send_inert) (prepare_does .of_internal)
    (reserve_inert t) (fun _ _ _ => createAssignment_inert rfl)
    fun _ _ _ => locally_does fun _ _ => Inert.observe .of_eq id

theorem teardown_inert : (teardown w).All (Does Inert) :=
  teardown_all settling_inert.losing (locally_does fun _ _ => .of_eq) (locally_does fun _ _ => .of_eq)

theorem work_inert {t : Nat} {id : Identity} {hello : Hello} : (work t id hello).All (Does Inert) := by
  refine work_all settling_inert.losing (fun _ => register_does .of_eq) (fun _ => locally_does fun _ _ => .of_eq)
    (fun w old => settling_inert.fenceOldGeneration old (reconnect_does (fun _ => .of_eq) fun fenced => ?_))
    (fun w => send_inert) (fun w turnID n => send_inert) (fun _ => locally_does fun _ _ => .of_eq)
    fun _ _ => locally_does fun _ _ => .of_eq
  exact (Inert.of_internal (.fence fenced)).observe fun commit => commit

/-! ### The handler -/

def logLayer : Layer Label Input Request State :=
  { inv := fun s => ∀ turnID, Logged s turnID, guard := .free }

theorem logLayer_frame : Frame logLayer Inert where
  kept := fun _ durable inert logged turnID => (logged turnID).same durable (inert.marks _) (inert.log _)
    (inert.rows _)

variable {kind : RuntimeEvent}

section Handler

variable {t : Nat} {w : ConnRef} {te : TurnEvent} {s : State}

def Taken (w : ConnRef) (te : TurnEvent) (s : State) : Prop := .taken w (.turnEvent te) ∈ s.trace

theorem Taken.grows {s' : State} (grows : Grows s s') (taken : Taken w te s) : Taken w te s' :=
  grows.trace.subset taken

theorem append_logged (mapped : turnEventToRuntime te.kind = some kind) (belongs : Belongs w te s)
    (taken : Taken w te s) :
    Along baseRules logLayer t (appendTx w te kind)
    (fun _ => Taken w te) s := by
  refine atomic fun s₁ moved _ inv input answer s₂ _ ran _ moves => ?_
  have taken := taken.grows moved.toGrows
  refine ⟨?_, taken.grows moves⟩
  obtain ⟨b, found', pool, worker⟩ := belongs.durable moved.toDurable
  rcases call_effect ran with rfl | ⟨_, ran⟩
  · exact inv
  rcases appendTurnEvent_cases ran with
    ⟨_, _, rfl, _⟩ | ⟨a, found, active, ⟨_, rfl, _⟩ | ⟨_, next, rfl⟩⟩
  · exact inv
  · exact inv
  cases found.symm.trans found'
  exact Logged.commit inv found next mapped pool worker taken (fun _ => rfl)
    (appended_honest found active next)

theorem audit_logged (mapped : turnEventToRuntime te.kind = some kind) (taken : Taken w te s) :
    Runs baseRules logLayer t (auditTx w te kind) s := by
  refine atomic fun s₁ moved base inv input answer s₂ _ ran base' moves => ⟨?_, trivial⟩
  have taken := taken.grows moved.toGrows
  rcases call_effect ran with rfl | ⟨_, ran⟩
  · exact inv
  rcases appendAfterTerminalEvent_cases ran with
    ⟨_, rfl, _⟩ | ⟨a, found, pool, worker, ⟨_, rfl, _⟩ | ⟨_, rfl⟩ | ⟨_, next, rfl⟩⟩
  · have unowned : Inert s₁ (s₁.observe (.unowned w te)) := Inert.observe .of_eq id
    exact logLayer_frame.kept base' moves.toDurable unowned inv
  · exact inv
  · exact inv
  · exact Logged.commit inv found next mapped pool worker taken (fun _ => rfl) trivial

theorem auditAndAck_logged (taken : Taken w te s) :
    Runs baseRules logLayer t (auditAndAck w te) s := by
  refine bind (mono (Q := fun _ _ => True) (fun answer s _ => ?_) ?_)
  · split
    · trivial
    · exact logLayer_frame.along_true send_inert
  unfold appendAfterTerminal
  split
  · trivial
  rename_i kind mapped
  refine (audit_logged mapped taken).andThen fun answer s _ => ?_
  split <;> trivial

theorem handleTurnEvent_logged (held : Held t w s) (taken : Taken w te s) :
    Runs baseRules logLayer t (handleTurnEvent w te) s := by
  unfold handleTurnEvent
  split
  · trivial
  refine bind (atomic fun s₁ moved base inv input answer s₂ _ ran _ _ => ?_)
  have held := held.rely moved
  have taken := taken.grows moved.toGrows
  obtain ⟨rfl, row⟩ := resolved_found ran
  refine ⟨inv, ?_⟩
  split
  · exact auditAndAck_logged taken
  · trivial
  rename_i a
  split
  · trivial
  rename_i mine
  rw [not_or, not_not, not_not] at mine
  -- the generation was given out to this connection only, so the row is of its pool
  obtain ⟨c, present, rfl, _⟩ := held
  obtain ⟨pool, worker⟩ := base.rowConn _ a _ c (row a rfl) present mine.2
  split
  · exact logLayer_frame.along_true send_inert
  rename_i kind mapped
  have appended := append_logged (t := t) mapped ⟨a, row a rfl, pool, worker⟩ taken
  refine appended.andThen fun answer s taken => ?_
  split
  · exact auditAndAck_logged taken
  · trivial
  refine logLayer_frame.along_true (.bind (projectCompletion_all
    (record_does .of_internal)) fun answer => ?_)
  split
  · exact .done _
  refine .bind (settling_inert.projectOutcome a te) fun answer => ?_
  split
  · exact .done _
  · exact settling_inert.toInner.ackAndFinish a _ send_inert fun _ => send_inert

theorem serve_logged {msg : WorkerMessage} (held : Held t w s) (taken : .taken w msg ∈ s.trace) :
    Runs baseRules logLayer t (serve w msg) s := by
  refine logLayer_frame.framed.serves
    (logLayer_frame.along_true (ready_does fun _ _ => Inert.observe .of_eq id))
    (fun _ => handleWorkspaceStatus_does (fun _ _ => .of_eq) fun _ => locally_does fun _ _ => .of_eq)
    (fun te same => ?_) (locally_does fun _ _ => .of_eq) (logLayer_frame.along_true teardown_inert)
  subst same
  exact handleTurnEvent_logged held taken

end Handler

theorem logLayer_proved : service.Proved baseRules logLayer :=
  logLayer_frame.proved (fun _ _ _ _ => .of_eq) (fun _ _ => .of_eq) (fun _ => .of_eq)
    (fun _ _ _ => Inert.observe .of_eq id) (fun _ _ _ => Inert.observe .of_eq id) Inert.trans
    (logLayer_frame.along_true work_inert) serve_logged
    (fun _ => logLayer_frame.along_true teardown_inert)
    (logLayer_frame.along_true (settling_inert.cancelTurn _ fun _ => send_inert))
    (logLayer_frame.along_true (settling_inert.losing.expireLease _))
    (logLayer_frame.along_true dispatchRun_inert)
    (logLayer_frame.along_true (syncWorkspaceCapacityState_all settling_inert.toReading fun _ =>
      locally_does fun _ _ => .of_eq))

/-! ### Exactly once -/

/-- The two transactions that store a worker's event. -/
inductive AppendPath
  | active
  | afterTerminal

def State.append (s : State) : AppendPath → ConnRef → TurnEvent → RuntimeEvent → Except Err Bool × State
  | .active => s.appendTurnEvent
  | .afterTerminal => s.appendAfterTerminalEvent

/-- One call of `AppendTurnEvent` or `AppendAfterTerminalEvent`, as `store` makes it. -/
def State.submit (s : State) (path : AppendPath) (w : ConnRef) (te : TurnEvent) (kind : RuntimeEvent)
    (input : Input) : Except Err Bool × State :=
  s.call input (s.append path w te kind)

variable {path : AppendPath} {te : TurnEvent} {input : Input}

/-- A transaction that does not apply the event has no effect on events and assignments. -/
theorem append_refused (refused : (s.append path w te kind).1 ≠ .ok true) :
    (s.append path w te kind).2.events = s.events ∧
      (s.append path w te kind).2.assignments = s.assignments := by
  cases path with
  | active =>
    rcases ran : s.append .active w te kind with ⟨answer, s'⟩
    rcases appendTurnEvent_cases ran with ⟨_, _, rfl, _⟩ | ⟨_, _, _, ⟨_, rfl, _⟩ | ⟨applied, _⟩⟩
    · exact ⟨rfl, rfl⟩
    · exact ⟨rfl, rfl⟩
    · rw [ran] at refused
      exact absurd applied refused
  | afterTerminal =>
    rcases ran : s.append .afterTerminal w te kind with ⟨answer, s'⟩
    rcases appendAfterTerminalEvent_cases ran with
      ⟨_, rfl, _⟩ | ⟨_, _, _, _, ⟨_, rfl, _⟩ | ⟨_, rfl⟩ | ⟨applied, _⟩⟩
    · exact ⟨rfl, rfl⟩
    · exact ⟨rfl, rfl⟩
    · exact ⟨rfl, rfl⟩
    · rw [ran] at refused
      exact absurd applied refused

theorem submit_refused
    (refused : (s.append path w te kind).1 ≠ .ok true ∨ input.fail = true ∧ input.lost = false) :
    (s.submit path w te kind input).2.events = s.events ∧
      (s.submit path w te kind input).2.assignments = s.assignments := by
  unfold submit call
  rcases refused with refused | ⟨failed, kept⟩
  · have same := append_refused refused
    split
    · split
      · exact same
      · exact ⟨rfl, rfl⟩
    · exact same
  · simp [failed, kept]

theorem State.Initial.logged (initial : s.Initial)
    (unlogged : ∀ e ∈ s.events, e.payload = none) (turnID : TurnID) : Logged s turnID := by
  have log : s.log turnID = [] := by rw [log, initial.trace]; rfl
  have mark : s.mark turnID = 0 := by rw [mark, initial.assignments]; rfl
  have streamed : s.streamed turnID = [] := by
    rw [streamed, reverse_eq_nil_iff, filter_eq_nil_iff]
    intro e member
    simp [unlogged e member]
  constructor
  · rw [log, mark]
    rfl
  · rw [log, streamed]
    rfl
  · rw [streamed]
    exact .nil
  · simp [streamed]
  · simp [log]

/-- **The event log of a turn is exact.** In every run the events committed for a turn have the sequences
`1` up to its watermark, once each and in order, as have the rows of `runtime.events` with a worker's event
of it; and each was taken off a stream of the worker and the pool that the assignment names. A call whose
transaction rejects the event or finds a replay, and one that fails before it commits, change nothing. -/
theorem event_log_exact {s₀ : State} {c : Config Label Input State} (initial : s₀.Initial)
    (unlogged : ∀ e ∈ s₀.events, e.payload = none) (reached : service.Reaches .free s₀ c) :
    (∀ turnID, Logged c.shared turnID) ∧
      ∀ (s : State) (path : AppendPath) (w : ConnRef) (te : TurnEvent) (kind : RuntimeEvent)
        (input : Input), (s.append path w te kind).1 ≠ .ok true ∨ input.fail = true ∧ input.lost = false →
          (s.submit path w te kind input).2.events = s.events ∧
            (s.submit path w te kind input).2.assignments = s.assignments :=
  ⟨(logLayer_proved.invariant initial.base (initial.logged unlogged) reached).2,
    fun _ _ _ _ _ _ => submit_refused⟩

/-- A worker sends its first event, whose commit is reported as failed, and sends it again; then its third,
which is rejected, and then its second. -/
theorem event_log_exact_replayed : ∃ c, service.Reaches .free onePool c ∧ c.shared.mark "t" = 2 ∧
    (c.shared.log "t").map (fun e => e.2.sequence) = [1, 2] ∧
    (c.shared.streamed "t").map (fun e => some e.kind) =
      (c.shared.log "t").map (fun e => turnEventToRuntime e.2.kind) := by
  refine reach_of_replay_and (assignTurn plainTurn ++ deliver 6 (.turnEvent ⟨"t", 1, .modelCallStarted⟩) 1 ++
      .run 7 { fail := true, lost := true } :: steps 7 1 ++
      deliver 8 (.turnEvent ⟨"t", 1, .modelCallStarted⟩) 4 ++
      deliver 10 (.turnEvent ⟨"t", 3, .toolResult⟩) 3 ++
      deliver 12 (.turnEvent ⟨"t", 2, .assistantMessage⟩) 4)
    (by decide +kernel) fun reached mark => ?_
  have logged := (event_log_exact onePool_initial (by simp [onePool]) reached).1 "t"
  constructor
  · rw [logged.sequences, mark]
    rfl
  · have rows := congrArg (List.map Prod.fst) logged.rows
    rw [map_map, map_map] at rows
    exact rows

/-- **A call may fail and change the log**: the transaction commits, and its answer is lost. -/
theorem failed_call_appends : ¬ ∀ (s : State) (path : AppendPath) (w : ConnRef) (te : TurnEvent)
    (kind : RuntimeEvent) (input : Input), (s.submit path w te kind input).1 ≠ .ok true →
      (s.submit path w te kind input).2.events = s.events := by
  intro claim
  have same := claim { assignments := ⟨[⟨"t", "run", "pool", "w", 1, .active, 0⟩], by decide⟩ } .active
    firstConn ⟨"t", 1, .toolResult⟩ .toolResult { fail := true, lost := true } (by decide)
  exact absurd (congrArg List.length same) (by decide)

end Iterabase.Dispatch
