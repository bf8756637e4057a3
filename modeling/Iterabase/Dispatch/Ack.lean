/-
**Durable dispatch — what an ACK promises.**

`handleTurnEvent` ACKs through the sequence of the event it handled, on six branches. On each of them
the event is at or below its turn's committed watermark, with two exceptions that both go through
`appendAfterTerminal` or past it: the worker owns no assignment of the turn, so there is nothing to
audit against, and an event of a kind with no durable representation.

* `ack_covered` — **every ACK of a known kind is covered, or its turn was not the worker's.**
-/

import Iterabase.Dispatch.Watch

namespace Iterabase.Dispatch

open Conc Along

/-! ### An outline of `handleTurnEvent` -/

def Obs.IsAck (o : Obs) : Prop := ∃ w turnID n te, o = .sent w (.eventAck turnID n) (some te)

theorem isAck_owned (o : Obs) (isAck : o.IsAck) : o.owner.isSome := by
  obtain ⟨w, turnID, n, te, rfl⟩ := isAck
  rfl

/-- What a layer about ACKs has to say at the joints of `handleTurnEvent`: the assignment was found
inactive (`late`), the row is the stream's (`mine`), the event is stored (`stored`), and the event may
be ACKed (`ackable`). -/
structure EventOutline (L : Layer Label Input Request State) (t : Nat) (w : ConnRef)
    (te : TurnEvent) where
  late : State → Prop
  mine : State → Prop
  stored : State → Prop
  ackable : State → Prop
  late_grows : ∀ {s s'}, Grows s s' → late s → late s'
  mine_grows : ∀ {s s'}, Grows s s' → mine s → mine s'
  stored_grows : ∀ {s s'}, Grows s s' → stored s → stored s'
  resolve_late : ∀ {input s}, L.guard.action (.resolveEvent w te) input s →
    s.resolveActiveAssignment te.turnID = .error .assignmentNotActive → late s
  resolve_mine : ∀ {input s a}, Base s → Held t w s → L.guard.action (.resolveEvent w te) input s →
    s.resolveActiveAssignment te.turnID = .ok a → a.fencingGeneration = w.gen →
      mine s ∧ (turnEventToRuntime te.kind = none →
        Runs baseRules L t (ack w te) s)
  append : ∀ {input s s' answer kind}, mine s → L.guard.action (.append w te) input s →
    turnEventToRuntime te.kind = some kind → s.appendTurnEvent w te kind = (answer, s') →
      (answer = .error .assignmentNotActive → late s') ∧ ∀ applied, answer = .ok applied → stored s'
  unknown : ∀ {s}, late s → turnEventToRuntime te.kind = none → ackable s
  audit : ∀ {input s s' answer kind}, late s → L.guard.action (.audit w te) input s →
    s.appendAfterTerminalEvent w te kind = (answer, s') → answer ≠ .error .outOfOrderSequence →
      ackable s'
  plain : ∀ {s}, stored s → te.kind.report = none → ackable s
  record : ∀ {input s s' answer report}, stored s → te.kind.report = some report → input.fail = false →
    s.recordCompletionReport te report input = (answer, s') → ackable s'
  ackable_grows : ∀ {s s'}, Grows s s' → ackable s → ackable s'
  ack : ∀ {s}, ackable s → Runs baseRules L t (ack w te) s

namespace EventOutline

variable {L : Layer Label Input Request State} {t : Nat} {w : ConnRef} {te : TurnEvent} {s : State}

section Outline

variable (outline : EventOutline L t w te) (watch : Watched L Obs.IsAck)

include outline watch

theorem appendAfterTerminal (late : outline.late s) : Along baseRules L t (appendAfterTerminal w te)
    (fun answer s => answer = .ok () → outline.ackable s) s := by
  unfold Dispatch.appendAfterTerminal
  split
  · rename_i unknown
    exact fun _ => outline.unknown late unknown
  rename_i kind _
  refine bind (watch.atomic fun s₁ moved base inv input answer s₂ admitted ran base' moves => ?_)
  have silent : (auditTx w te kind).All
      (Silently Obs.IsAck) :=
    audit_silent (fun ⟨_, _, _, _, same⟩ => by cases same) (fun ⟨_, _, _, _, same⟩ => by cases same)
  refine ⟨watch.kept base' moves.toDurable (silent.1 ran) inv, ?_⟩
  have late := outline.late_grows moved.toGrows late
  rcases call_answer ran with rfl | ⟨ran, _⟩
  · exact nofun
  have audited := outline.audit late admitted ran
  split
  · exact fun _ => audited (by simp)
  · exact fun _ => audited (by simp)
  · exact nofun

theorem auditAndAck (late : outline.late s) : Runs baseRules L t (auditAndAck w te) s := by
  refine (outline.appendAfterTerminal watch late).andThen fun answer s ackable => ?_
  split
  · trivial
  · exact outline.ack (ackable rfl)

theorem projectCompletion (stored : outline.stored s) : Along baseRules L t (projectCompletion te)
    (fun answer s => answer = .ok () → outline.ackable s) s := by
  unfold Dispatch.projectCompletion
  split
  · rename_i unreported
    exact fun _ => outline.plain stored unreported
  rename_i report reported
  refine bind (watch.atomic fun s₁ moved base inv input answer s₂ _ ran base' moves => ?_)
  have silent : (recordTx te report).All (Silently Obs.IsAck) :=
    record_does (Internal.silent isAck_owned) report
  refine ⟨watch.kept base' moves.toDurable (silent.1 ran) inv, ?_⟩
  have stored := outline.stored_grows moved.toGrows stored
  rcases call_answer ran with rfl | ⟨ran, went⟩
  · exact nofun
  have ackable := outline.record stored reported went ran
  split
  · exact fun _ => ackable
  split
  · exact fun _ => ackable
  · exact nofun

/-- **The six branches of `handleTurnEvent`.** -/
theorem along (held : Held t w s) : Runs baseRules L t (handleTurnEvent w te) s := by
  have background := background_silent isAck_owned
  unfold handleTurnEvent
  split
  · trivial
  refine bind (watch.atomic fun s₁ moved base inv input answer s₂ admitted ran _ _ => ?_)
  have held := held.rely moved
  -- the resolve only reads
  have resolved : answer = .error .infrastructure ∨ answer = s₁.resolveActiveAssignment te.turnID :=
    (call_answer ran).imp_right fun same => (Prod.mk.inj same.1).1.symm
  obtain rfl := query_same ran
  refine ⟨inv, ?_⟩
  split
  · refine outline.auditAndAck watch (outline.resolve_late admitted ?_)
    rcases resolved with same | same
    · cases same
    · exact same.symm
  · trivial
  rename_i a
  split
  · trivial
  rename_i owned
  rw [not_or, not_not, not_not] at owned
  obtain ⟨mine, ackUnknown⟩ := outline.resolve_mine base held admitted
    (resolved.resolve_left (by simp)).symm owned.2
  split
  · exact ackUnknown ‹_›
  rename_i kind mapped
  refine bind
    (watch.atomic fun s₁ moved _ inv input answer s₃ admitted ran base' moves => ?_)
  have silent : (appendTx w te kind).All
      (Silently Obs.IsAck) := append_silent fun ⟨_, _, _, _, same⟩ => by cases same
  refine ⟨watch.kept base' moves.toDurable (silent.1 ran) inv, ?_⟩
  have appended : (answer = .error .assignmentNotActive → outline.late s₃) ∧
      ∀ applied, answer = .ok applied → outline.stored s₃ := by
    rcases call_answer ran with rfl | ⟨ran, _⟩
    · exact ⟨nofun, nofun⟩
    · exact outline.append (outline.mine_grows moved.toGrows mine) admitted mapped ran
  split
  · exact outline.auditAndAck watch (appended.1 rfl)
  · trivial
  refine (outline.projectCompletion watch (appended.2 _ rfl)).andThen fun answer s ackable => ?_
  split
  · trivial
  refine watch.along_bind outline.ackable_grows (ackable rfl)
    (background.projectOutcome a te) fun answer s ackable => ?_
  split
  · trivial
  refine (outline.ack ackable).andThen fun answer s _ => ?_
  split
  · trivial
  refine bind (watch.along_true ?_)
  split
  · exact background.finishTurnOutcome a _ background.ends
  · exact .done _

end Outline

end EventOutline

theorem work_ackSilent {t : Nat} (id : Identity) (hello : Hello) :
    (work t id hello).All (Silently Obs.IsAck) := by
  have background := background_silent isAck_owned
  refine work_all background.losing (fun _ => register_does (.of_eq rfl))
    (fun w => locally_silent fun _ _ => rfl) (fun w old => background.fenceOldGeneration old (reconnectFence_silent ?_))
    (fun w => send_silent ?_) (fun w => background.acks)
    (fun w => locally_silent fun _ _ => rfl)
    (fun w loop => locally_silent fun _ _ => rfl)
  all_goals
    rintro ⟨_, _, _, _, same⟩
    cases same

/-- **A layer about ACKs holds if each event has an outline.** -/
theorem Watched.of_outline {L : Layer Label Input Request State} (watch : Watched L Obs.IsAck)
    (outline : ∀ t w te, EventOutline L t w te) : service.Proved baseRules L :=
  watch.proved isAck_owned (fun _ _ ⟨_, _, _, _, same⟩ => by cases same)
    (fun held => (outline _ _ _).along watch held)
    (fun {_ id hello _} => watch.along_true (work_ackSilent id hello))

variable {w : ConnRef} {te : TurnEvent}

variable {s s' : State} {kind : RuntimeEvent}

theorem ack_cases {input : Input} {answer : Except Err Unit}
    (ran : (s.conns.find w.id).map (fun c =>
      if c.closed then (Except.error Err.connClosed, s)
      else (if input.fail then .error .infrastructure else .ok (),
        s.observe (.sent w (.eventAck te.turnID te.sequence) (some te)))) = some (answer, s')) :
    s' = s ∨ s' = s.observe (.sent w (.eventAck te.turnID te.sequence) (some te)) := by
  obtain ⟨c, _, ran⟩ := Option.map_eq_some_iff.mp ran
  split at ran
  · exact .inl (Prod.mk.inj ran).2.symm
  · exact .inr (Prod.mk.inj ran).2.symm

/-! ### What an ACK covers -/

/-- The row of the event's turn belongs to the worker of `w`, and its watermark covers the event. -/
def Committed (w : ConnRef) (te : TurnEvent) (s : State) : Prop :=
  ∃ a, s.assignments.find te.turnID = some a ∧ a.poolID = w.poolID ∧ a.workerID = w.workerID ∧
    te.sequence ≤ a.highestAppliedSequence

theorem Committed.durable (committed : Committed w te s) (durable : Durable s s') :
    Committed w te s' := by
  obtain ⟨a, found, pool, worker, covered⟩ := committed
  obtain ⟨a', found', becomes⟩ := durable.rows _ a found
  exact ⟨a', found', becomes.poolID.trans pool, becomes.workerID.trans worker,
    le_trans covered becomes.watermark⟩

/-- What the service may ACK: the event is committed, or the worker owns no row of its turn, or the
kind has no durable representation. -/
def Covered (w : ConnRef) (te : TurnEvent) (s : State) : Prop :=
  turnEventToRuntime te.kind ≠ none → Committed w te s ∨ .unowned w te ∈ s.trace

theorem Covered.grows (grows : Grows s s') (covered : Covered w te s) : Covered w te s' := by
  intro known
  rcases covered known with committed | unowned
  · exact .inl (committed.durable grows.toDurable)
  · exact .inr (grows.trace.subset unowned)

def Belongs (w : ConnRef) (te : TurnEvent) (s : State) : Prop :=
  ∃ a, s.assignments.find te.turnID = some a ∧ a.poolID = w.poolID ∧ a.workerID = w.workerID

theorem Belongs.durable (belongs : Belongs w te s) (durable : Durable s s') : Belongs w te s' := by
  obtain ⟨a, found, pool, worker⟩ := belongs
  obtain ⟨a', found', becomes⟩ := durable.rows _ a found
  exact ⟨a', found', becomes.poolID.trans pool, becomes.workerID.trans worker⟩

/-- Every ACK answers the event it names, and that event was covered when it was sent. -/
def AcksCovered (s : State) : Prop :=
  ∀ w turnID n te earlier, (.sent w (.eventAck turnID n) (some te) :: earlier) <:+ s.trace →
    te.turnID = turnID ∧ te.sequence = n ∧
      (turnEventToRuntime te.kind ≠ none → Committed w te s ∨ .unowned w te ∈ earlier)

def ackLayer : Layer Label Input Request State := { inv := AcksCovered, guard := .free }

theorem ackLayer_watched : Watched ackLayer Obs.IsAck where
  kept := by
    intro s s' _ durable silent inv w turnID n te earlier suffix
    obtain ⟨turn, sequence, covered⟩ :=
      inv w turnID n te earlier (silent.suffix ⟨w, turnID, n, te, rfl⟩ suffix)
    refine ⟨turn, sequence, fun known => ?_⟩
    rcases covered known with committed | unowned
    · exact .inl (committed.durable durable)
    · exact .inr unowned

section Outline

variable {t : Nat} {w : ConnRef} {s s' : State} {te : TurnEvent}

theorem ack_ackSound (covered : Covered w te s) : Runs baseRules ackLayer t (ack w te) s := by
  refine atomic fun s₁ moved _ inv input answer s₂ _ ran _ moves => ⟨?_, trivial⟩
  have covered := covered.grows moved.toGrows
  rcases ack_cases ran with rfl | rfl
  · exact inv
  -- the newest observation is this ACK; every older one is as it was
  intro w' turnID n te' earlier suffix
  rcases List.suffix_cons_iff.mp suffix with here | there
  · cases here
    exact ⟨rfl, rfl, covered⟩
  · exact inv w' turnID n te' earlier there

theorem appendTurnEvent_committed {applied : Bool} (belongs : Belongs w te s)
    (ran : s.appendTurnEvent w te kind = (.ok applied, s')) : Committed w te s' := by
  obtain ⟨a, found, pool, worker⟩ := belongs
  rcases appendTurnEvent_cases ran with
    ⟨err, same, _⟩ | ⟨b, locked, _, ⟨_, rfl, covered⟩ | ⟨_, next, rfl⟩⟩
  · cases same
  · cases locked.symm.trans found
    exact ⟨a, found, pool, worker, covered⟩
  cases locked.symm.trans found
  exact ⟨_, (committed_step kind (o := .audited w te) found next trivial).2, pool, worker,
    le_refl _⟩

theorem appendAfterTerminalEvent_covered {answer : Except Err Bool}
    (ran : s.appendAfterTerminalEvent w te kind = (answer, s'))
    (inOrder : answer ≠ .error .outOfOrderSequence) : Covered w te s' := by
  rcases appendAfterTerminalEvent_cases ran with
    ⟨_, rfl, _⟩ | ⟨a, found, pool, worker, ⟨_, rfl, covered⟩ | ⟨gap, _⟩ | ⟨_, next, rfl⟩⟩
  · exact fun _ => .inr (.head _)
  · exact fun _ => .inl ⟨a, found, pool, worker, covered⟩
  · exact absurd gap inOrder
  · exact fun _ => .inl ⟨_, (committed_step kind (o := .audited w te) found next trivial).2, pool,
      worker, le_refl _⟩

def ackOutline (t : Nat) (w : ConnRef) (te : TurnEvent) : EventOutline ackLayer t w te where
  late := fun _ => True
  mine := Belongs w te
  stored := Committed w te
  ackable := Covered w te
  late_grows := fun _ _ => trivial
  mine_grows := fun grows belongs => belongs.durable grows.toDurable
  stored_grows := fun grows committed => committed.durable grows.toDurable
  resolve_late := fun _ _ => trivial
  resolve_mine := by
    intro input s a base held _ resolved gen
    obtain ⟨found, _⟩ := resolveActiveAssignment_ok.mp resolved
    obtain ⟨c, present, rfl, _⟩ := held
    -- a row of this connection's generation is a row of its pool
    obtain ⟨pool, worker⟩ := base.rowConn _ a _ c found present gen
    exact ⟨⟨a, found, pool, worker⟩, fun unknown => ack_ackSound fun known => absurd unknown known⟩
  append := fun belongs _ _ ran => ⟨fun _ => trivial, fun applied same =>
    appendTurnEvent_committed belongs (same ▸ ran)⟩
  unknown := fun _ unknown known => absurd unknown known
  audit := fun _ _ ran inOrder => appendAfterTerminalEvent_covered ran inOrder
  plain := fun committed _ _ => .inl committed
  record := fun committed _ _ ran _ =>
    have ⟨_, step, _⟩ := recordCompletionReport_cases ran
    .inl (committed.durable step.durable)
  ackable_grows := Covered.grows
  ack := ack_ackSound

end Outline

theorem ackLayer_proved : service.Proved baseRules ackLayer := ackLayer_watched.of_outline ackOutline

/-! ### ACK soundness -/

/-- **Every ACK of a known kind is covered.** An EventAck answers the event it names, and unless the kind of
that event has no durable representation, the turn's row belongs to the stream's worker and its watermark is
at or past the ACK, or the audit had found no row of the turn that the worker owns. -/
theorem ack_covered {s₀ : State} {c : Config Label Input State} {w : ConnRef} {turnID : TurnID}
    {n : Nat} {te : TurnEvent} {earlier : List Obs} (initial : s₀.Initial)
    (reached : service.Reaches .free s₀ c)
    (sent : (.sent w (.eventAck turnID n) (some te) :: earlier) <:+ c.shared.trace) :
    te.turnID = turnID ∧ te.sequence = n ∧ (turnEventToRuntime te.kind ≠ none →
      (∃ a, c.shared.assignments.find turnID = some a ∧ a.poolID = w.poolID ∧
        a.workerID = w.workerID ∧ n ≤ a.highestAppliedSequence) ∨ .unowned w te ∈ earlier) := by
  have none : AcksCovered s₀ := fun w turnID n te earlier suffix => by
    rw [initial.trace] at suffix
    cases List.suffix_nil.mp suffix
  obtain ⟨rfl, rfl, covered⟩ :=
    (ackLayer_proved.invariant initial.base none reached).2 w turnID n te earlier sent
  exact ⟨rfl, rfl, covered⟩

/-- The first event of an assigned turn is committed before it is ACKed. -/
theorem ack_covered_assigned : ∃ c earlier, service.Reaches .free onePool c ∧
    (.sent firstConn (.eventAck "t" 1) (some ⟨"t", 1, .assistantMessage⟩) :: earlier) <:+
      c.shared.trace ∧
    ((∃ a, c.shared.assignments.find "t" = some a ∧ a.poolID = "pool" ∧ a.workerID = "w" ∧
      1 ≤ a.highestAppliedSequence) ∨ .unowned firstConn ⟨"t", 1, .assistantMessage⟩ ∈ earlier) := by
  obtain ⟨c, reached, sent⟩ := service.reaches_of_replay .free onePool
    (assignTurn plainTurn ++ deliver 6 (.turnEvent ⟨"t", 1, .assistantMessage⟩) 4)
    (fun s => s.trace.head? =
      some (.sent firstConn (.eventAck "t" 1) (some ⟨"t", 1, .assistantMessage⟩)))
    (by decide +kernel)
  obtain ⟨earlier, sent⟩ := List.head?_eq_some_iff.mp sent
  have suffix := List.suffix_refl c.shared.trace
  nth_rewrite 1 [sent] at suffix
  obtain ⟨_, _, covered⟩ := ack_covered onePool_initial reached suffix
  exact ⟨c, earlier, reached, suffix, covered (by decide)⟩

/-- **An ACK need not be covered by a committed watermark.** The worker sends an event of a turn that
was never assigned: nothing is committed, and the event is ACKed. -/
theorem ack_not_always_committed : ¬ ∀ (s₀ : State) (c : Config Label Input State), s₀.Initial →
    service.Reaches .free s₀ c → ∀ w turnID n te,
      .sent w (.eventAck turnID n) (some te) ∈ c.shared.trace →
        ∃ a, c.shared.assignments.find turnID = some a ∧ a.poolID = w.poolID ∧
          a.workerID = w.workerID ∧ n ≤ a.highestAppliedSequence := by
  intro claim
  obtain ⟨c, reached, sent, missing⟩ := service.reaches_of_replay .free onePool
    (connectWorker :: steps 0 7 ++ deliver 1 (.turnEvent ⟨"t", 5, .assistantMessage⟩) 4)
    (fun s => .sent firstConn (.eventAck "t" 5) (some ⟨"t", 5, .assistantMessage⟩) ∈ s.trace ∧
      s.assignments.find "t" = none)
    (by decide +kernel)
  obtain ⟨a, found, _⟩ := claim onePool c onePool_initial reached _ _ _ _ sent
  rw [missing] at found
  cases found

end Iterabase.Dispatch
