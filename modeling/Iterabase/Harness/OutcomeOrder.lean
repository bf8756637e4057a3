/-
**Harness — the outcome is the last event of its turn.**

Three continuations append to the outbox of a turn: its handler, the RPC dispatcher of its child, and
`failClosed`. None of them records that an outcome is already in the log, so a log can hold two
outcomes and events after either.

* `outcome_last` — **in every run that meets the condition each log ends with its only outcome**;
  `outcome_not_always_last` is a child whose completion report is refused.
-/

import Iterabase.Harness.Isolation

namespace Iterabase.Harness

open Conc List Option
open Dispatch (TurnEvent TurnEventKind WorkspaceStatus)

/-! ### Logs -/

/-- The event an observation adds to the log of a turn. -/
def Obs.appendedTo (t : TurnRef) : Obs → Option TurnEvent
  | .appended outbox te _ => if outbox = t then some te else none
  | _ => none

def State.appends (s : State) (t : TurnRef) : List TurnEvent :=
  s.trace.filterMap (Obs.appendedTo t)

/-- The events of a turn's outbox in the order they were appended. -/
def State.log (s : State) (t : TurnRef) : List TurnEvent := (s.appends t).reverse

def Unreported (events : List TurnEvent) : Prop := ∀ te ∈ events, isOutcome te.kind = false

def Orderly (events : List TurnEvent) : Prop := Unreported events.tail

variable {te : TurnEvent} {events : List TurnEvent} {last : Option TurnRef} {t : TurnRef}
  {kind : TurnEventKind} {s s' : State} {o : EventOutbox} {m : Move}

theorem Unreported.cons (open_ : Unreported events) (plain : isOutcome te.kind = false) :
    Unreported (te :: events) :=
  forall_mem_cons.mpr ⟨plain, open_⟩

theorem Orderly.unique (orderly : Orderly events) :
    events.reverse.countP (fun te => isOutcome te.kind) ≤ 1 := by
  rw [countP_reverse]
  cases events with
  | nil => exact Nat.zero_le 1
  | cons te rest =>
    have older : rest.countP (fun te => isOutcome te.kind) = 0 := by
      rw [countP_eq_zero]
      intro e member
      simp [orderly e member]
    rw [countP_cons, older]
    split <;> omega

theorem Orderly.ends {before after : List TurnEvent} (orderly : Orderly events)
    (split : events.reverse = before ++ te :: after) (outcome : isOutcome te.kind) :
    after = [] := by
  have reversed : events = after.reverse ++ te :: before.reverse := by
    rw [← reverse_reverse events, split]
    simp
  rcases eq : after.reverse with _ | ⟨newest, rest⟩
  · simpa using eq
  rw [eq] at reversed
  have older : te ∈ events.tail := by
    rw [reversed]
    simp
  rw [orderly te older] at outcome
  cases outcome

/-! ### What a method does to the logs -/

theorem Silent.appends (silent : Silent last s s') (t : TurnRef) : s'.appends t = s.appends t := by
  obtain ⟨new, trace, own⟩ := silent.trace
  have none : new.filterMap (Obs.appendedTo t) = [] := by
    rw [filterMap_eq_nil_iff]
    intro o member
    have own := own o member
    cases o with
    | appended _ _ _ => cases own
    | _ => rfl
  rw [State.appends, trace, filterMap_append, none]
  rfl

theorem Logged.appends {p : Producer} (logged : Logged p kind s s') : ∃ o te, s.outbox = some o ∧
    te.kind = kind ∧ ∀ t, s'.appends t = if t = o.turn then te :: s.appends t else s.appends t := by
  obtain ⟨o, te, current, kind, trace⟩ := logged.trace
  refine ⟨o, te, current, kind, fun t => ?_⟩
  rw [State.appends, trace]
  split
  · rename_i here
    exact filterMap_cons_some (if_pos here.symm)
  · rename_i other
    exact filterMap_cons_none (if_neg (Ne.symm other))

/-! ### The invariant -/

/-- Each log is of an assigned turn, and has its only outcome at its end. -/
structure InOrder (s : State) : Prop where
  ids : ∀ (i : Nat) (h : Handler), s.handlers[i]? = some h → h.turn.id = i
  known : ∀ t, s.appends t ≠ [] → t.id < s.handlers.length
  orderly : ∀ t, Orderly (s.appends t)

/-- There is no outcome while the handler of the open outbox has yet to report. -/
structure Ordered (s : State) : Prop extends InOrder s where
  unreported : ∀ o, s.outbox = some o → ∀ h ∈ s.handlers, h.turn = o.turn → h.stage.unreported →
    Unreported (s.appends o.turn)

/-- The open outbox is that of `t`. -/
structure Final (t : TurnRef) (s : State) : Prop extends InOrder s where
  mine : ∀ o, s.outbox = some o → o.turn = t
  assigned : t.id < s.handlers.length

/-- The open outbox is that of `t`, and it has no outcome yet. -/
structure Clear (t : TurnRef) (s : State) : Prop extends Final t s where
  unreported : s.outbox.isSome → Unreported (s.appends t)

theorem Keeps.isSome (keeps : Keeps s s') (some : s'.outbox.isSome) : s.outbox.isSome := by
  obtain ⟨o', current'⟩ := isSome_iff_exists.mp some
  obtain ⟨o, current, _⟩ := keeps.outbox o' current'
  simp [current]

theorem Adds.quiet (adds : Adds t kind s s') (gone : ¬ s.outbox.isSome) : Silent (some t) s s' := by
  rcases adds with silent | ⟨_, _, _, _, logged, _⟩
  · exact silent
  · obtain ⟨o, _, current, _⟩ := logged.trace
    exact absurd (by simp [current]) gone

theorem InOrder.silent (inOrder : InOrder s) (silent : Silent last s s') : InOrder s' where
  ids := fun i h found => inOrder.ids i h (silent.handlers ▸ found)
  known := fun t some => silent.handlers ▸ inOrder.known t (silent.appends t ▸ some)
  orderly := fun t => silent.appends t ▸ inOrder.orderly t

theorem Ordered.silent (ordered : Ordered s) (silent : Silent last s s') : Ordered s' where
  toInOrder := ordered.toInOrder.silent silent
  unreported := by
    intro o' current h member turn stage
    obtain ⟨o, current, same⟩ := silent.outbox o' current
    rw [silent.appends, ← same]
    exact ordered.unreported o current h (silent.handlers ▸ member) (turn.trans same.symm) stage

theorem Final.silent (final : Final t s) (silent : Silent last s s') : Final t s' where
  toInOrder := final.toInOrder.silent silent
  mine := by
    intro o' current
    obtain ⟨o, current, same⟩ := silent.outbox o' current
    exact same ▸ final.mine o current
  assigned := silent.handlers ▸ final.assigned

section Clear

variable {t' : TurnRef} (clear : Clear t s)

include clear

theorem Clear.silent (silent : Silent last s s') : Clear t s' :=
  ⟨clear.toFinal.silent silent, fun some => by
    rw [silent.appends]
    exact clear.unreported (silent.isSome some)⟩

theorem Clear.logged {p : Producer} (logged : Logged p kind s s') : Final t s' := by
  obtain ⟨o, te, current, kind, appends⟩ := logged.appends
  have mine := clear.mine o current
  refine ⟨⟨fun i h found => clear.ids i h (logged.handlers ▸ found), fun t' some => ?_, fun t' => ?_⟩,
    fun o' current' => ?_, logged.handlers ▸ clear.assigned⟩
  · rw [logged.handlers]
    by_cases same : t' = o.turn
    · rw [same, mine]
      exact clear.assigned
    · rw [appends, if_neg same] at some
      exact clear.known t' some
  · rw [appends]
    split
    · rename_i same
      rw [same, mine]
      exact clear.unreported (by simp [current])
    · exact clear.orderly t'
  · obtain ⟨o, current, same⟩ := logged.outbox o' current'
    exact same ▸ clear.mine o current

theorem Clear.final (adds : Adds t' kind s s') : Final t s' := by
  rcases adds with silent | ⟨_, _, _, _, logged, silent⟩
  · exact clear.toFinal.silent silent
  · exact (clear.logged logged).silent silent

theorem Clear.plain (adds : Adds t' kind s s') (plain : s.outbox.isSome → isOutcome kind = false) :
    Clear t s' := by
  rcases adds with silent | ⟨_, s₁, _, _, logged, silent⟩
  · exact clear.silent silent
  have logs : Clear t s₁ := by
    refine ⟨clear.logged logged, fun _ => ?_⟩
    obtain ⟨o, te, current, rfl, appends⟩ := logged.appends
    rw [appends, if_pos (clear.mine o current).symm]
    exact (clear.unreported (by simp [current])).cons (plain (by simp [current]))
  exact logs.silent silent

theorem Clear.ordered : Ordered s where
  toInOrder := clear.toInOrder
  unreported := by
    intro o current h _ _ _
    rw [clear.mine o current]
    exact clear.unreported (by simp [current])

end Clear

/-! ### The handler of a turn -/

section Segments

variable {i : Nat} {h h' : Handler}

theorem setHandler_length : (s.setHandler i h').handlers.length = s.handlers.length :=
  length_set

theorem InOrder.setHandler (inOrder : InOrder s) (present : s.handlers[i]? = some h)
    (same : h'.turn = h.turn) : InOrder (s.setHandler i h') where
  ids := by
    intro j k found
    rw [State.setHandler, getElem?_set] at found
    split at found
    · rename_i here
      split at found
      · cases found
        rw [same, ← here]
        exact inOrder.ids i h present
      · cases found
    · exact inOrder.ids j k found
  known := fun t some => lt_of_lt_of_eq (inOrder.known t some) setHandler_length.symm
  orderly := inOrder.orderly

/-- A handler that has yet to report had yet to report before. -/
theorem Ordered.setHandler (ordered : Ordered s) (present : s.handlers[i]? = some h)
    (same : h'.turn = h.turn) (stage : h'.stage.unreported → h.stage.unreported) :
    Ordered (s.setHandler i h') where
  toInOrder := ordered.toInOrder.setHandler present same
  unreported := by
    intro o current k member turn waits
    rcases mem_or_eq_of_mem_set member with there | rfl
    · exact ordered.unreported o current k there turn waits
    · exact ordered.unreported o current h (mem_of_getElem? present) (same.symm.trans turn)
        (stage waits)

theorem Final.setHandler (final : Final t s)
    (present : s.handlers[i]? = some h) (same : h'.turn = h.turn) : Final t (s.setHandler i h') where
  toInOrder := final.toInOrder.setHandler present same
  mine := final.mine
  assigned := lt_of_lt_of_eq final.assigned setHandler_length.symm

theorem Clear.setHandler (clear : Clear t s)
    (present : s.handlers[i]? = some h) (same : h'.turn = h.turn) : Clear t (s.setHandler i h') :=
  ⟨clear.toFinal.setHandler present same, clear.unreported⟩

theorem Final.reported (final : Final h.turn s) (present : s.handlers[i]? = some h) (stage : Stage)
    (reported : stage.unreported = false) : Ordered (s.setHandler i { h with stage := stage }) := by
  have moved : Final h.turn (s.setHandler i { h with stage := stage }) :=
    final.setHandler present rfl
  refine ⟨moved.toInOrder, fun o current k member turn waiting => ?_⟩
  -- by its id, a handler of the open outbox's turn is this one
  obtain ⟨j, found⟩ := getElem?_of_mem member
  have here : j = i := by
    rw [← moved.ids j k found, turn, final.mine o current, final.ids i h present]
  subst here
  have bound := (List.getElem?_eq_some_iff.mp present).1
  rw [State.setHandler, getElem?_set_self bound] at found
  cases found
  rw [reported] at waiting
  cases waiting

theorem Ordered.clear (ordered : Ordered s) (mine : Mine i h s) (stage : h.stage.unreported) :
    Clear h.turn s where
  toInOrder := ordered.toInOrder
  mine := fun o current => (Option.some.inj (mine.owned.outbox o current)).symm
  assigned := by
    rw [ordered.ids i h mine.present]
    exact (List.getElem?_eq_some_iff.mp mine.present).1
  unreported := by
    intro some
    obtain ⟨o, current⟩ := isSome_iff_exists.mp some
    have turn := Option.some.inj (mine.owned.outbox o current)
    rw [turn]
    exact ordered.unreported o current h (mem_of_getElem? mine.present) turn stage

theorem Clear.segment (clear : Clear h.turn s) (present : s.handlers[i]? = some h)
    (segment : Segment i h kind s s') (plain : s.outbox.isSome → isOutcome kind = false) :
    Ordered s' := by
  cases segment with
  | stays adds => exact (clear.plain adds plain).ordered
  | moves _ _ => exact (clear.setHandler present (by rfl)).ordered
  | launches =>
    have spawned : Clear h.turn { s with currentChild := some h.turn } :=
      { clear with }
    exact (spawned.setHandler present (by rfl)).ordered
  | @ends s₁ s₂ s₃ _ _ first erred failed ends =>
    obtain ⟨stage, reported, silent⟩ := ends
    have final := ((clear.plain first plain).plain erred fun _ => rfl).final failed
    have present' : (s₃.cleanUp h).handlers[i]? = some h := by
      rw [(cleanUp_silent s₃ h).handlers, failed.keeps.handlers, erred.keeps.handlers,
        first.keeps.handlers, present]
    exact ((final.silent (cleanUp_silent s₃ h)).reported present' stage reported).silent silent

end Segments

/-! ### Assignments, and the end of a stream -/

theorem InOrder.takeOn (inOrder : InOrder s) {assignment : AssignTurn} {h : Handler}
    (new : h = s.newHandler assignment) :
    InOrder (s.takeOn ⟨.running, some h.turn⟩ h) ∧ Unreported (s.appends h.turn) := by
  have length : (s.handlers ++ [h]).length = s.handlers.length + 1 := by simp
  refine ⟨⟨fun i k found => ?_, fun t some => ?_, inOrder.orderly⟩, ?_⟩
  · by_cases old : i < s.handlers.length
    · exact inOrder.ids i k ((getElem?_append_left old).symm.trans found)
    have bound := (List.getElem?_eq_some_iff.mp found).1
    have here : i = s.handlers.length := by
      change i < (s.handlers ++ [h]).length at bound
      omega
    subst here
    cases getElem?_concat_length.symm.trans found
    rw [new]
    rfl
  · exact lt_of_lt_of_le (inOrder.known t some) (by simp [State.takeOn])
  · have fresh : s.appends h.turn = [] := by
      by_contra some
      have bound := inOrder.known h.turn some
      rw [new] at bound
      exact absurd bound (lt_irrefl _)
    rw [fresh]
    exact nofun

/-- `failClosed` appends its outcome where the handler has yet to report one. -/
theorem Ordered.closed (ordered : Ordered s)
    (first : ∀ o, s.outbox = some o → s.turn.isSome →
      ∃ h ∈ s.handlers, h.turn = o.turn ∧ h.stage.unreported) : Ordered s.closed := by
  rcases closed_adds s with silent | ⟨o, ctx, current, active, silent | ⟨adds, gone⟩⟩
  · exact ordered.silent (silent none)
  · exact ordered.silent silent
  obtain ⟨h, member, turn, stage⟩ := first o current (by simp [active])
  have clear : Clear o.turn s := by
    refine ⟨⟨ordered.toInOrder, fun o' current' => ?_, ?_⟩, fun _ =>
      ordered.unreported o current h member turn stage⟩
    · cases current.symm.trans current'
      rfl
    · obtain ⟨i, found⟩ := getElem?_of_mem member
      rw [← turn, ordered.ids i h found]
      exact (List.getElem?_eq_some_iff.mp found).1
  refine ⟨(clear.final adds).toInOrder, fun o' current' => ?_⟩
  cases gone.symm.trans current'

theorem Ordered.restart (ordered : Ordered s) (status : Option WorkspaceStatus) :
    Ordered (s.restart status) := by
  refine ⟨⟨fun i h found => ?_, fun t some => ?_, ordered.orderly⟩, nofun⟩
  · rw [State.restart, getElem?_map, map_eq_some_iff] at found
    obtain ⟨k, found, rfl⟩ := found
    exact ordered.ids i k found
  · exact lt_of_lt_of_eq (ordered.known t some) (length_map _).symm

/-! ### Runs -/

/-- While an outbox is open the child sends no outcome of its own, and only completion reports that pass
the check, while its handler has yet to report; and `failClosed` appends only where the handler has yet to
report. An assignment is accepted alone. -/
def ReportsOnce (s : State) : Move → Prop
  | .control (.assignTurn assignment) _ => s.accepts assignment → ∀ h ∈ s.handlers, h.live = false
  | .childEvent _ (.event payload) => s.aborted = false → s.outbox.isSome → isOutcome payload = false
  | .childRpc i (.stepCompletion report) => s.aborted = false → s.outbox.isSome →
      ∀ h ∈ s.handlers[i]?, s.acceptsCompletion h.assignment report ∧ h.stage.unreported
  | .closed => ∀ o ∈ s.outbox, s.turn.isSome → ∃ h ∈ s.handlers, h.turn = o.turn ∧ h.stage.unreported
  | _ => True

instance (s : State) (m : Move) : Decidable (ReportsOnce s m) := by
  induction m using Move.casesOn with
  | control msg =>
    induction msg using ControlMessage.casesOn <;> unfold ReportsOnce <;> try unfold State.accepts
    all_goals infer_instance
  | childEvent _ ev => induction ev using ChildEvent.casesOn <;> unfold ReportsOnce <;> infer_instance
  | childRpc _ req => induction req using ChildRpcRequest.casesOn <;> unfold ReportsOnce <;> infer_instance
  | _ =>
    unfold ReportsOnce
    infer_instance

theorem ReportsOnce.alone (once : ReportsOnce s m) : AssignsAlone s m := by
  cases m with
  | control msg setup =>
    cases msg with
    | assignTurn assignment => exact once
    | _ => trivial
  | _ => trivial

theorem Ordered.step {last : Option TurnRef} {s : State} (ordered : Ordered s)
    (owned : Owned last s) (once : ReportsOnce s m) (acts : Acts s m s') : Ordered s' := by
  cases acts with
  | silent silent => exact ordered.silent (silent none)
  | @assigns assignment setup h s₁ _ accepted new segment silent =>
    obtain ⟨inOrder, blank⟩ := ordered.toInOrder.takeOn new
    have mine := owned.takeOn (h := h) (once accepted)
    have clear : Clear h.turn
        (((s.takeOn ⟨.running, some h.turn⟩ h).openOutbox h.turn).startHeartbeat h.turn) := by
      refine ⟨⟨{ inOrder with }, ?_, ?_⟩, fun _ => blank⟩
      · rintro o ⟨⟩
        rfl
      · rw [inOrder.ids _ h mine.present]
        exact (List.getElem?_eq_some_iff.mp mine.present).1
    exact Ordered.silent (clear.segment mine.present segment fun _ => rfl) silent
  | @crashes assignment setup h _ accepted new _ _ silent =>
    -- the process ends before the new log is opened, and the old handlers have returned
    obtain ⟨inOrder, blank⟩ := ordered.toInOrder.takeOn new
    have present : (s.takeOn ⟨.running, some h.turn⟩ h).handlers[s.handlers.length]? = some h :=
      getElem?_concat_length
    have taken : Ordered (s.takeOn ⟨.running, some h.turn⟩ h) := by
      refine ⟨inOrder, fun o current k member turn stage => ?_⟩
      rcases mem_append.mp member with old | new
      · have gone := once accepted k old
        cases waits : k.stage <;> simp [Handler.live, Stage.unreported, waits] at gone stage
      · rw [← turn, mem_singleton.mp new]
        exact blank
    exact (taken.setHandler present (by rfl) fun waits => by cases waits).silent silent
  | closes => exact ordered.closed once
  | segment found stage segment outcome =>
    refine (ordered.clear (owned.waiting found stage) stage).segment found segment fun some => ?_
    by_contra reports
    obtain ⟨rfl, goesOn⟩ := outcome (by simpa using reports)
    exact reports (once goesOn some)
  | rpcEnds found running => exact ordered.setHandler found (by rfl) fun waits => waits
  | @reports i h report s₁ s₂ _ found running goesOn reported adds ended =>
    have mine := owned.dispatching found running
    have sent : Ordered s₂ := by
      by_cases some : s.outbox.isSome
      · have stage := (once goesOn some h found).2
        exact (((ordered.clear mine stage).silent reported).plain adds fun _ => rfl).ordered
      · exact (ordered.silent reported).silent (adds.quiet fun held => some (reported.isSome held))
    rcases ended with rfl | rfl
    · exact sent
    · exact sent.setHandler ((mine.silent reported).adds adds).present (by rfl) fun waits => waits
  | @refuses i h report found running goesOn refused =>
    -- a refused report finds no outbox to append to
    have gone : s.outbox = none := by
      by_contra some
      have accepted := (once goesOn (isSome_iff_ne_none.mpr some) h found).1
      cases refused.symm.trans accepted
    have quiet : (s.failTurn .protocol (.child h.turn)).2 = s := by
      simp [State.failTurn, State.emitOutcome, gone]
    rw [quiet]
    exact ordered.setHandler found (by rfl) fun waits => waits
  | returns found _ silent =>
    exact (ordered.setHandler found (by rfl) fun waits => by cases waits).silent silent

theorem State.Initial.ordered (initial : s.Initial) : Ordered s := by
  obtain ⟨bound, status, rfl⟩ := initial
  exact {
    ids := nofun
    known := fun _ some => absurd rfl some
    orderly := nofun
    unreported := fun _ gone => by cases gone }

/-- **The outcome of a turn is unique and last.** In every run that meets the condition the log of a
turn holds at most one outcome, and nothing after it. -/
theorem outcome_last {s₀ s : State} (initial : s₀.Initial) (reached : Reach next ReportsOnce s₀ s)
    (t : TurnRef) : (s.log t).countP (fun te => isOutcome te.kind) ≤ 1 ∧
      ∀ before te after, s.log t = before ++ te :: after → isOutcome te.kind → after = [] := by
  have kept : (∃ last, Kept last s) ∧ Ordered s := by
    refine reached.invariant (I := fun s => (∃ last, Kept last s) ∧ Ordered s)
      ⟨⟨none, .inl initial.owned⟩, initial.ordered⟩ ?_
    intro s m s' inv once moved
    obtain ⟨kept, ordered⟩ := inv
    refine ⟨Kept.step kept once.alone moved, ?_⟩
    rcases next_cases moved with ⟨runs, resumes⟩ | ⟨status, rfl⟩
    · obtain ⟨last, owned | ⟨crashed, _⟩⟩ := kept
      · exact ordered.step owned once (resumes_acts _ resumes)
      · rw [runs] at crashed
        cases crashed
    · exact ordered.restart status
  have orderly := kept.2.orderly t
  exact ⟨orderly.unique, fun before te after split outcome => orderly.ends split outcome⟩

def launch : List Move :=
  arm ++ [.control (.assignTurn nodeTurn) {}, .materialized 0 true, .discovered 0 (.discovered none)]

/-- The child reports its completion and exits, and the outcome is acknowledged. -/
def completes : List Move :=
  launch ++ [.childEvent 0 (.event .assistantMessage), .childRpc 0 (.stepCompletion ⟨"done", "", []⟩),
    .eventsEnd 0, .rpcEnds 0, .childResult 0 .completed, .rpcDone 0, .control (.eventAck "t" 4) {},
    .acked 0]

theorem outcome_last_completed : ∃ s, Reach next ReportsOnce worker s ∧
    (s.log ⟨0, "t"⟩).map TurnEvent.kind = [.executionStarted, .assistantMessage,
      .stepCompletion ⟨"done", "", []⟩, .workerOutcome .completed] ∧
    (s.log ⟨0, "t"⟩).countP (fun te => isOutcome te.kind) ≤ 1 := by
  exact reach_of_replay_and completes (by decide +kernel) fun reached _ =>
    (outcome_last worker_initial reached ⟨0, "t"⟩).1

/-- The child reports an outcome its node does not declare, goes on, and exits. -/
def refused : List Move :=
  launch ++ [.childRpc 0 (.stepCompletion ⟨"maybe", "", []⟩), .childEvent 0 (.event .assistantMessage),
    .eventsEnd 0, .childResult 0 .completed, .rpcDone 0]

/-- The refused report fails the turn, and its handler still reports the result of the child. -/
theorem outcome_not_always_last : ∃ s, Reach next (fun _ _ => True) worker s ∧
    (s.log ⟨0, "t"⟩).map TurnEvent.kind = [.executionStarted, .workerOutcome .failed,
      .assistantMessage, .workerOutcome .completed] ∧
    ¬ (s.log ⟨0, "t"⟩).countP (fun te => isOutcome te.kind) ≤ 1 :=
  reach_of_replay next _ worker refused _ (by decide +kernel)

end Iterabase.Harness
