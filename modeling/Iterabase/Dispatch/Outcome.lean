/-
**Durable dispatch — a recorded outcome against worker loss.**

A worker's outcome is committed by one transaction and projected by a second one. Whatever fences the
assignment in between settles the turn as aborted, although its successful outcome is in the audit
log.

* `Completed` — a successful outcome of the turn was accepted on its active assignment.
-/

import Iterabase.Dispatch.Fencing

namespace Iterabase.Dispatch

open Conc List Table Along

variable {s s' : State} {a : Assignment} {turnID : TurnID} {te : TurnEvent}

/-! ### Completed turns -/

def Obs.completes (turnID : TurnID) : Obs → Bool
  | .appended _ te => te.turnID = turnID ∧ te.kind = .workerOutcome .completed
  | _ => false

def Completed (turnID : TurnID) (s : State) : Prop := ∃ o ∈ s.trace, o.completes turnID

instance (turnID : TurnID) (s : State) : Decidable (Completed turnID s) :=
  inferInstanceAs (Decidable (∃ o ∈ s.trace, o.completes turnID))

variable {o : Obs} {label : Label} {w : ConnRef} {reason : Reason} {K : State → Prop}

theorem obs_completes_iff {turnID : TurnID} : o.completes turnID ↔
    ∃ w te, o = .appended w te ∧ te.turnID = turnID ∧ te.kind = .workerOutcome .completed := by
  constructor
  · intro completes
    cases o with
    | appended w te => exact ⟨w, te, rfl, of_decide_eq_true completes⟩
    | _ => cases completes
  · rintro ⟨w, te, rfl, turn, kind⟩
    exact decide_eq_true ⟨turn, kind⟩

/-! ### The layer -/

/-- A fence takes no row whose completed turn is not settled, and no abort is accepted of a turn whose
success was, nor a success of an aborted one. -/
def OutcomeReady (label : Label) (s : State) : Prop :=
  match label with
  | .reconnectFence w => ∀ b ∈ s.assignments.rows, State.activeFor w.poolID w.workerID b →
      Completed b.turnID s → TurnSettled b.turnID s
  | .fence _ poolID workerID gen => ∀ b ∈ s.assignments.rows,
      State.activeForGen poolID workerID gen b → Completed b.turnID s → TurnSettled b.turnID s
  | .append _ te => ∀ a ∈ s.assignments.find te.turnID, a.state = .active →
      te.sequence ≤ a.highestAppliedSequence + 1 →
        (te.kind = .workerOutcome .aborted → ¬ Completed te.turnID s) ∧
        (te.kind = .workerOutcome .completed → .settled te.turnID .aborted ∉ s.trace)
  | _ => True

instance (label : Label) (s : State) : Decidable (OutcomeReady label s) := by
  induction label using Label.casesOn <;> unfold OutcomeReady <;> infer_instance

abbrev outcomeGuard : System.Guard Label Input Request State :=
  .onActions fun label _ s => OutcomeReady label s

/-- A completed turn is not aborted, and either it can still be settled by its handler or it is. -/
def OutcomeSafe (s : State) : Prop :=
  ∀ turnID, Completed turnID s → .settled turnID .aborted ∉ s.trace ∧
    (RowActive turnID s ∨ TurnSettled turnID s)

def outcomeLayer : Layer Label Input Request State :=
  { inv := OutcomeSafe, guard := outcomeGuard }

/-- The observations that decide about a turn. -/
def Obs.Decisive : Obs → Prop
  | .appended _ te => te.kind = .workerOutcome .completed
  | .settled _ reason => reason = .aborted
  | _ => False

/-- A step that decides about no turn and takes no active row. -/
structure Neutral (s s' : State) : Prop where
  silent : Silent Obs.Decisive s s'
  rows : ∀ turnID, RowActive turnID s → RowActive turnID s'

open Neutral

theorem Neutral.of_eq (same : (s'.assignments, s'.trace) = (s.assignments, s.trace)) : Neutral s s' := by
  obtain ⟨rows, trace⟩ := Prod.mk.inj same
  exact ⟨.of_eq trace, fun _ ⟨a, found, active⟩ => ⟨a, rows ▸ found, active⟩⟩

theorem Neutral.observe (same : (s'.assignments, s'.trace) = (s.assignments, s.trace))
    (plain : ¬ o.Decisive) : Neutral s (s'.observe o) :=
  ⟨(of_eq same).silent.observe plain, (of_eq same).rows⟩

theorem Silent.completed (silent : Silent Obs.Decisive s s')
    (completed : Completed turnID s') : Completed turnID s := by
  obtain ⟨o, member, completes⟩ := completed
  obtain ⟨w, te, rfl, _, kind⟩ := obs_completes_iff.mp completes
  exact ⟨_, silent.member (o := .appended w te) kind member, completes⟩

theorem Silent.aborted (silent : Silent Obs.Decisive s s') :
    .settled turnID .aborted ∈ s'.trace → .settled turnID .aborted ∈ s.trace :=
  silent.member (o := .settled turnID .aborted) rfl

theorem outcomeLayer_frame : Frame outcomeLayer Neutral where
  kept := by
    intro s s' _ durable neutral inv turnID completed
    obtain ⟨unaborted, live⟩ := inv turnID (neutral.silent.completed completed)
    exact ⟨fun aborted => unaborted (neutral.silent.aborted aborted),
      live.imp (neutral.rows turnID) fun settled => settled.durable durable⟩

variable {kind : RuntimeEvent}

/-! ### Neutral actions -/

section Actions

variable {α : Type}

theorem store_neutral {tx : Input → State → Except Err α × State}
    (neutral : ∀ {input s answer s'}, tx input s = (answer, s') → Neutral s s') :
    (store label tx).All (Does Neutral) :=
  store_does (fun _ => .of_eq rfl) neutral

theorem send_neutral {msg : ControlMessage} {answers : Option TurnEvent} :
    (send w msg answers).All (Does Neutral) :=
  send_does (fun _ => .of_eq rfl) fun _ => observe rfl id

theorem plain_neutral : Plain (Every (Does Neutral)) where
  toSequential := every_sequential _
  query := store_neutral fun ran => by
    cases ran
    exact .of_eq rfl
  read := locally_does fun _ _ => .of_eq rfl
  send := fun _ => send_neutral
  markClosed := locally_does fun _ _ => .of_eq rfl
  releaseTurn := locally_does fun _ _ => observe rfl id

theorem audit_neutral : (auditTx w te kind).All (Does Neutral) :=
  audit_does (fun _ => .of_eq rfl) (fun _ => observe rfl id) fun _ _ =>
    ⟨(Silent.of_eq rfl).observe id, fun _ live => advanceWatermark_rows live⟩

theorem record_neutral {report : CompletionReport} :
    (recordTx te report).All
    (Does Neutral) := by
  refine store_neutral fun ran => ?_
  obtain ⟨new, step, _, rows, _, kind⟩ := recordCompletionReport_cases ran
  refine ⟨step.silent fun o member => ?_, fun _ ⟨a, found, active⟩ => ⟨a, rows ▸ found, active⟩⟩
  rcases kind o member with rfl | rfl <;> exact id

end Actions

/-! ### Settling and fencing -/

section Programs

variable {t : Nat} {w : ConnRef} {s s' : State}

theorem OutcomeSafe.settled (safe : OutcomeSafe s)
    (inactive : RowInactive turnID s) (completed : Completed turnID s) : TurnSettled turnID s := by
  rcases (safe turnID completed).2 with ⟨a, found, active⟩ | settled
  · obtain ⟨b, found', stopped⟩ := inactive
    cases found.symm.trans found'
    exact absurd active stopped
  · exact settled

theorem settle_safe {isGraph : Bool} {advance : Option RunState} {answer : Except Err RunState}
    (safe : OutcomeSafe s)
    (allowed : reason = .aborted → Completed turnID s → TurnSettled turnID s)
    (ran : s.settle isGraph turnID reason advance = (answer, s')) : OutcomeSafe s' := by
  rcases settle_cases ran with ⟨_, _, rfl, _⟩ | ⟨_, turn, target, _, found, running, _, _, same⟩
  · exact safe
  obtain ⟨step, rows, _⟩ := settled_step found running same
  intro k completed
  have completed' : Completed k s := by
    obtain ⟨o, member, completes⟩ := completed
    rw [step.trace] at member
    rcases mem_cons.mp member with rfl | there
    · cases completes
    · exact ⟨o, there, completes⟩
  obtain ⟨unaborted, live⟩ := safe k completed'
  refine ⟨fun aborted => ?_, live.imp (fun ⟨a, found, active⟩ => ⟨a, rows ▸ found, active⟩)
    fun settled => settled.durable step.durable⟩
  rw [step.trace] at aborted
  rcases mem_cons.mp aborted with here | there
  · -- the turn is running, so it was not completed
    cases here
    obtain ⟨u, found', stopped⟩ := allowed rfl completed'
    cases found.symm.trans found'
    exact stopped running
  · exact unaborted there

theorem terminalize_safe (safe : OutcomeSafe s) (settled : TurnSettled turnID s) :
    OutcomeSafe (s.terminalizeAssignment turnID) := by
  intro k completed
  obtain ⟨unaborted, live⟩ := safe k completed
  refine ⟨unaborted, ?_⟩
  rcases live with ⟨a, found, active⟩ | settled'
  · by_cases here : k = turnID
    · subst here
      exact .inr settled
    · exact .inl ⟨a, terminalizeAssignment_keeps found here, active⟩
  · exact .inr settled'

theorem fenceWhere_safe {p : Assignment → Bool} {pick : Nat} {answer : Except Err Assignment}
    (safe : OutcomeSafe s) (takeable : ∀ b ∈ s.assignments.rows, p b → Completed b.turnID s →
      TurnSettled b.turnID s) (ran : s.fenceWhere p pick = (answer, s')) : OutcomeSafe s' := by
  have step := fenceWhere_step ran
  intro k completed
  have completed' : Completed k s := by
    obtain ⟨o, member, completes⟩ := completed
    exact ⟨o, by rwa [step.trace] at member, completes⟩
  obtain ⟨unaborted, live⟩ := safe k completed'
  refine ⟨fun aborted => unaborted (by rwa [step.trace] at aborted), ?_⟩
  rcases live with ⟨a, found, active⟩ | settled
  · by_cases taken : p a
    · have settled := takeable a (find_mem found) taken
      rw [find_key found] at settled
      exact .inr ((settled completed').durable step.durable)
    · exact .inl ⟨a, fenceWhere_keeps ran found taken, active⟩
  · exact .inr (settled.durable step.durable)

/-- **Settling a turn and terminalizing its assignment.** What the thread knows of the turn survives
the others, and rules out that an abort meets a completed turn that is not settled. -/
theorem commitTurnTerminal_outcome (rely : ∀ {s s'}, Rely t s s' → Base s' → K s → K s')
    (allowed : ∀ {s}, OutcomeSafe s → K s → reason = .aborted → Completed a.turnID s →
      TurnSettled a.turnID s) (start : K s) :
    Runs baseRules outcomeLayer t (commitTurnTerminal a reason) s := by
  have terminalize : ∀ {β : Type} {f : Except Err Unit → Program β} {s},
      (∀ answer, (f answer).All (Does Neutral)) → TurnSettled a.turnID s →
      Runs baseRules outcomeLayer t (store .other (fun _ s =>
        (.ok (), s.terminalizeAssignment a.turnID)) >>= f) s := by
    intro β f s rest settled
    refine bind (atomic fun s₁ moved _ inv input answer s₂ _ ran _ _ => ⟨?_, ?_⟩)
    · refine call_keeps ran inv fun ran => ?_
      cases ran
      exact terminalize_safe inv (settled.durable moved.toDurable)
    · exact outcomeLayer_frame.along_true (rest answer)
  refine bind (atomic fun s₁ moved base inv input answer s₂ _ ran _ _ => ?_)
  have kept := rely moved base start
  obtain rfl := query_same ran
  refine ⟨inv, ?_⟩
  cases answer with
  | error err => trivial
  | ok isGraph =>
    refine bind (atomic fun s₁ moved base inv input answer s₃ _ ran _ moves => ?_)
    have kept := rely moved base kept
    refine ⟨call_keeps ran inv fun ran => settle_safe inv (allowed inv kept) ran, ?_⟩
    rcases call_answer ran with rfl | ⟨ran, _⟩
    · trivial
    have settled := settle_settles ran
    split
    · refine terminalize (fun answer => ?_) (settled nofun)
      split <;> exact .done _
    · refine terminalize (fun answer => ?_) (settled fun err same => by cases same; rfl)
      split <;> exact .done _
    · trivial

theorem terminalizeTurnLoss_outcome (inactive : RowInactive a.turnID s) :
    Runs baseRules outcomeLayer t (terminalizeTurnLoss a) s :=
  commitTurnTerminal_outcome (K := RowInactive a.turnID)
    (fun moved _ inactive => inactive.durable moved.toDurable)
    (fun safe inactive _ completed => safe.settled inactive completed) inactive

theorem fence_along {cause : FenceCause} {poolID : PoolID} {workerID : WorkerID} {gen : Nat}
    {Q : Assignment → State → Prop} (stable : ∀ {s s'}, Grows s s' → K s → K s')
    (fenced : ∀ {s s' pick a}, K s →
      s.fenceWorkerGenerationIf poolID workerID gen pick = (.ok a, s') → Q a s') (start : K s) :
    Along baseRules outcomeLayer t (store (.fence cause poolID workerID gen) fun input s =>
      s.fenceWorkerGenerationIf poolID workerID gen input.pick)
      (fun answer s => ∀ a, answer = .ok a → Q a s) s := by
  refine atomic fun s₁ moved _ inv input answer s₂ admitted ran _ _ => ?_
  exact ⟨call_keeps ran inv fun ran => fenceWhere_safe inv admitted ran,
    fun a same => fenced (stable moved.toGrows start) (call_ok (same ▸ ran))⟩

theorem runs_of_neutral {p : Program α} (all : p.All (Does Neutral)) (s : State) :
    Runs baseRules outcomeLayer t p s :=
  outcomeLayer_frame.along_true all

theorem losing_outcome (t : Nat) : Losing fun p => ∀ s, Runs baseRules outcomeLayer t p s where
  toSequential := runs_sequential _ _ t
  query := runs_of_neutral plain_neutral.query
  read := runs_of_neutral plain_neutral.read
  markClosed := runs_of_neutral plain_neutral.markClosed
  lose := by
    intro cause poolID workerID gen s
    refine (fence_along (K := fun _ => True) (fun _ _ => trivial)
      (fun _ ran => fenceWhere_returned ran) trivial).andThen fun answer s taken => ?_
    split
    · trivial
    · exact (terminalizeTurnLoss_outcome (taken _ rfl)).andThen fun _ _ _ => trivial

theorem remove_outcome (w : ConnRef) : ∀ s, Runs baseRules outcomeLayer t (removing w) s :=
  runs_of_neutral (locally_does fun _ _ => .of_eq rfl)

theorem setLoop_outcome (w : ConnRef) (loop : Loop) :
    ∀ s, Runs baseRules outcomeLayer t (setLoop w loop) s :=
  runs_of_neutral (locally_does fun _ _ => .of_eq rfl)

theorem teardown_outcome (w : ConnRef) : Runs baseRules outcomeLayer t (teardown w) s :=
  teardown_all (losing_outcome t) (remove_outcome w) (setLoop_outcome w _) s

/-- `CancelTurn` settles the turn it resolved: the fence has taken its row, or somebody else had. -/
theorem cancelTurn_outcome (turnID : TurnID) :
    Runs baseRules outcomeLayer t (cancelTurn turnID) s := by
  refine bind (atomic fun s₁ moved base inv input answer s₂ _ ran _ _ => ?_)
  obtain ⟨rfl, row⟩ := resolved_found ran
  refine ⟨inv, ?_⟩
  split
  · trivial
  rename_i a
  have found := row a rfl
  rw [← find_key found] at found
  -- the row keeps the key it was resolved with
  have stable : ∀ {s s'}, Grows s s' →
      (∃ b, s.assignments.find a.turnID = some b ∧ b.poolID = a.poolID ∧
        b.workerID = a.workerID ∧ b.fencingGeneration = a.fencingGeneration) →
      ∃ b, s'.assignments.find a.turnID = some b ∧ b.poolID = a.poolID ∧
        b.workerID = a.workerID ∧ b.fencingGeneration = a.fencingGeneration := by
    rintro s s' grows ⟨b, found, pool, worker, gen⟩
    obtain ⟨b', found', becomes⟩ := grows.rows _ b found
    exact ⟨b', found', becomes.poolID.trans pool, becomes.workerID.trans worker,
      becomes.gen.trans gen⟩
  refine outcomeLayer_frame.along_bind stable ⟨a, found, rfl, rfl, rfl⟩ ?_ fun _ s keyed => ?_
  · refine .bind plain_neutral.read fun found => ?_
    split
    · exact .done _
    · exact .bind send_neutral fun _ => .done _
  · refine (fence_along (Q := fun _ => RowInactive a.turnID) stable (fun keyed ran => ?_)
      keyed).andThen fun answer s taken => ?_
    · obtain ⟨b, found, pool, worker, gen⟩ := keyed
      refine fenceWhere_inactive ran found fun active => ?_
      simp [State.activeForGen, pool, worker, gen, active]
    split
    · trivial
    · exact (terminalizeTurnLoss_outcome (taken _ rfl)).andThen fun _ _ _ => trivial

theorem fenceOldGeneration_outcome (old : Option ConnRef) :
    Runs baseRules outcomeLayer t (fenceOldGeneration w old) s := by
  have closes := plain_neutral.closeOld old
  have closing : ∀ {p : Program Unit} {answer : Except Err Unit} {s}, p.All (Does Neutral) →
      Runs baseRules outcomeLayer t (p >>= fun _ => pure answer) s :=
    fun closes => outcomeLayer_frame.along_true (.bind closes fun _ => .done _)
  refine bind (atomic fun s₁ moved _ inv input answer s₂ admitted ran _ _ => ?_)
  rcases reconnect_cases ran with ⟨rfl, rfl⟩ | ⟨_, middle, fenced, rfl, lost⟩
  · exact ⟨inv, closing closes⟩
  have safe : OutcomeSafe middle := fenceWhere_safe inv admitted fenced
  have marked : Neutral middle (middle.observe (.fencedFor w)) :=
    observe rfl id
  refine ⟨fun k completed => ?_, ?_⟩
  · obtain ⟨unaborted, live⟩ := safe k (marked.silent.completed completed)
    exact ⟨fun aborted => unaborted (marked.silent.aborted aborted), live⟩
  · rcases lost with rfl | rfl
    · exact closing closes
    split
    · rename_i a
      have taken : RowInactive a.turnID middle := fenceWhere_returned fenced
      refine (terminalizeTurnLoss_outcome (s := middle.observe _) taken).andThen fun answer s _ => ?_
      split <;> exact closing closes
    · exact closing closes
    · exact closing closes

theorem work_outcome {id : Identity} {hello : Hello} :
    Runs baseRules outcomeLayer t (work t id hello) s :=
  work_all (losing_outcome t) (fun _ => runs_of_neutral (register_does (.of_eq rfl)))
    (fun _ => runs_of_neutral (locally_does fun _ _ => .of_eq rfl)) (fun _ old _ => fenceOldGeneration_outcome old)
    (fun _ => runs_of_neutral send_neutral) (fun _ _ _ => runs_of_neutral send_neutral) remove_outcome
    setLoop_outcome s

/-! ### Assigning turns -/

theorem createAssignment_neutral :
    (createTx w a).All
    (Does Neutral) := by
  refine store_neutral fun {input s answer s'} ran => ?_
  rcases createAssignmentFor_cases ran with ⟨_, _, rfl⟩ | ⟨rows, _, inserted, rfl⟩
  · exact .of_eq rfl
  refine ⟨((Silent.of_eq rfl).observe id).observe id, fun k ⟨b, found, active⟩ => ⟨b, ?_, active⟩⟩
  refine (find_insert inserted k).trans ?_
  rw [if_neg, found]
  rintro rfl
  rw [insert_fresh inserted] at found
  cases found

theorem dispatchRun_outcome (runID : RunID) :
    Runs baseRules outcomeLayer t (dispatchRun t runID) s := by
  refine dispatchRun_all (losing_outcome t) (fun _ _ => runs_of_neutral send_neutral)
    (runs_of_neutral (store_neutral fun ran => ?_))
    (fun poolID turnID => runs_of_neutral (.atomic fun {input s answer s'} ran => ?_))
    (fun _ _ _ => runs_of_neutral createAssignment_neutral)
    (fun _ _ _ => runs_of_neutral (locally_does fun _ _ => observe rfl id)) s
  · exact .of_eq (Prod.ext (prepareTurn_rows ran) (prepareTurn_step ran).trace)
  · rcases reserve_cases (Option.some.inj ran) with _ | _
    · exact .of_eq rfl
    · exact observe rfl id

/-! ### The handler -/

/-- The handler is the only one that appends to a row of its generation. -/
structure Uncompleted (t : Nat) (w : ConnRef) (te : TurnEvent) (s : State) : Prop where
  held : Held t w s
  owns : Owns w te s
  open_ : ¬ Completed te.turnID s

theorem Uncompleted.rely (moved : Rely t s s') (base : Base s')
    (kept : Uncompleted t w te s) : Uncompleted t w te s' := by
  obtain ⟨held, owns, open_⟩ := kept
  have owns' := owns.grows moved.toGrows
  refine ⟨held.rely moved, owns', fun ⟨o, member, completes⟩ => open_ ⟨o, ?_, completes⟩⟩
  obtain ⟨w', te', rfl, turn, _⟩ := obs_completes_iff.mp completes
  obtain ⟨a, found, gen, _⟩ := base.traceRows _ member
  obtain ⟨b, found', gen'⟩ := owns'
  rw [turn] at found
  cases found.symm.trans found'
  obtain ⟨c, present, ref, loop⟩ := held
  exact moved.mine _ c present loop _ member w' rfl (by rw [ref, ← gen, gen'])

theorem appendTurnEvent_safe {answer : Except Err Bool}
    (safe : OutcomeSafe s) (admitted : OutcomeReady (.append w te) s)
    (ran : s.appendTurnEvent w te kind = (answer, s')) : OutcomeSafe s' := by
  rcases appendTurnEvent_cases ran with
    ⟨_, _, rfl, _⟩ | ⟨a, found, active, ⟨_, rfl, _⟩ | ⟨_, next, rfl⟩⟩
  · exact safe
  · exact safe
  obtain ⟨step, after⟩ :=
    committed_step kind (o := .appended w te) found next (appended_honest found active next)
  intro k completed
  have unaborted : .settled k .aborted ∉ s.trace := by
    obtain ⟨o, member, completes⟩ := completed
    rcases mem_cons.mp member with rfl | there
    · obtain ⟨turn, outcome⟩ := of_decide_eq_true completes
      rw [← turn]
      exact (admitted a found active (Nat.le_of_eq next)).2 outcome
    · exact (safe k ⟨o, there, completes⟩).1
  refine ⟨fun aborted => ?_, ?_⟩
  · rcases mem_cons.mp aborted with here | there
    · cases here
    · exact unaborted there
  · by_cases here : k = te.turnID
    · subst here
      exact .inl ⟨_, after, active⟩
    · obtain ⟨o, member, completes⟩ := completed
      rcases mem_cons.mp member with rfl | there
      · exact absurd (of_decide_eq_true completes).1.symm here
      · exact (safe k ⟨o, there, completes⟩).2.imp (fun live => advanceWatermark_rows live)
          fun settled => settled.durable step.durable

theorem appendTurnEvent_uncompleted {applied : Bool} (aborted : te.kind = .workerOutcome .aborted)
    (held : Held t w s) (owns : Owns w te s) (admitted : OutcomeReady (.append w te) s)
    (ran : s.appendTurnEvent w te kind = (.ok applied, s')) : Uncompleted t w te s' := by
  rcases appendTurnEvent_cases ran with
    ⟨_, same, _⟩ | ⟨a, found, active, ⟨_, rfl, replayed⟩ | ⟨_, next, rfl⟩⟩
  · cases same
  · exact ⟨held, owns, (admitted a found active (Nat.le_succ_of_le replayed)).1 aborted⟩
  obtain ⟨step, after⟩ :=
    committed_step kind (o := .appended w te) found next (appended_honest found active next)
  obtain ⟨b, found', gen⟩ := owns
  cases found.symm.trans found'
  refine ⟨held, ⟨_, after, gen⟩, fun ⟨o, member, completes⟩ => ?_⟩
  rcases mem_cons.mp member with rfl | there
  · have outcome := (of_decide_eq_true completes).2
    rw [aborted] at outcome
    cases outcome
  · exact (admitted a found active (Nat.le_of_eq next)).1 aborted ⟨o, there, completes⟩

theorem project_outcome (turn : a.turnID = te.turnID)
    (aborts : te.kind = .workerOutcome .aborted → Uncompleted t w te s) :
    Runs baseRules outcomeLayer t (do
      match ← projectCompletion te with
      | .error err => return .error err
      | .ok () =>
          match ← projectOutcome a te with
          | .error err => return .error err
          | .ok runState => ackAndFinish w te a runState) s := by
  have frame := outcomeLayer_frame
  have finish : ∀ runState, (ackAndFinish w te a runState).All (Does Neutral) := fun runState =>
    plain_neutral.ackAndFinish a runState send_neutral plain_neutral.ends
  cases kind : te.kind with
  | workerOutcome outcome =>
    -- an outcome is no completion report, so its projection starts where the append ended
    have skip : projectCompletion te = .done (.ok ()) := by
      unfold projectCompletion
      rw [kind]
      rfl
    rw [skip]
    show Along baseRules outcomeLayer t (projectOutcome a te >>= _) _ s
    have outcomes : projectOutcome a te = commitTurnTerminal a (reasonOf outcome) := by
      unfold projectOutcome terminalizeTurnOutcome
      rw [kind]
      rfl
    rw [outcomes]
    have settles : Runs baseRules outcomeLayer t (commitTurnTerminal a (reasonOf outcome)) s := by
      by_cases abort : outcome = .aborted
      · subst abort
        refine commitTurnTerminal_outcome (K := Uncompleted t w te) Uncompleted.rely ?_ (aborts kind)
        intro s _ kept _ completed
        rw [turn] at completed
        exact absurd completed kept.open_
      · refine commitTurnTerminal_outcome (K := fun _ => True) (fun _ _ _ => trivial) ?_ trivial
        intro s _ _ reason
        cases outcome with
        | aborted => exact absurd rfl abort
        | _ => cases reason
    refine settles.andThen fun answer s _ => ?_
    split
    · trivial
    · exact frame.along_true (finish _)
  | _ =>
    refine frame.along_true (.bind (projectCompletion_all fun _ => record_neutral) fun answer => ?_)
    split
    · exact .done _
    unfold projectOutcome
    rw [kind]
    exact finish _

theorem handleTurnEvent_outcome (held : Held t w s) :
    Runs baseRules outcomeLayer t (handleTurnEvent w te) s := by
  have frame := outcomeLayer_frame
  have late : (auditAndAck w te).All (Does Neutral) := by
    refine .bind (appendAfterTerminal_all fun _ => audit_neutral) fun answer => ?_
    split
    · exact .done _
    · exact send_neutral
  unfold handleTurnEvent
  split
  · trivial
  refine bind (atomic fun s₁ moved base inv input answer s₂ _ ran _ _ => ?_)
  have held := held.rely moved
  obtain ⟨rfl, row⟩ := resolved_found ran
  refine ⟨inv, ?_⟩
  split
  · exact frame.along_true late
  · trivial
  rename_i a
  split
  · trivial
  rename_i mine
  rw [not_or, not_not, not_not] at mine
  have owns : Owns w te s₂ := ⟨a, row a rfl, mine.2⟩
  split
  · exact frame.along_true send_neutral
  refine bind
    (atomic fun s₁ moved base inv input answer s₃ admitted ran _ moves => ?_)
  have held := held.rely moved
  have owns := owns.grows moved.toGrows
  refine ⟨call_keeps ran inv fun ran => appendTurnEvent_safe inv admitted ran, ?_⟩
  rcases call_answer ran with rfl | ⟨ran, _⟩
  · trivial
  split
  · exact frame.along_true late
  · trivial
  · exact project_outcome (find_key (row a rfl)) fun aborted =>
      appendTurnEvent_uncompleted aborted held owns admitted ran

theorem serve_outcome {msg : WorkerMessage} (held : Held t w s) :
    Runs baseRules outcomeLayer t (serve w msg) s := by
  refine outcomeLayer_frame.framed.serves (outcomeLayer_frame.along_true (ready_does fun _ _ => ?_))
    (fun _ => handleWorkspaceStatus_does (fun _ _ => .of_eq rfl) fun _ => locally_does fun _ _ => .of_eq rfl)
    (fun _ _ => handleTurnEvent_outcome held) (locally_does fun _ _ => .of_eq rfl) (teardown_outcome w)
  exact observe rfl id

end Programs

theorem outcomeLayer_proved : service.Proved baseRules outcomeLayer :=
  outcomeLayer_frame.proved (fun _ _ _ _ => .of_eq rfl) (fun _ _ => .of_eq rfl) (fun _ => .of_eq rfl)
    (fun _ _ _ => observe rfl id) (fun _ _ _ => observe rfl id)
    (fun first second => ⟨first.silent.trans second.silent, fun k live =>
      second.rows k (first.rows k live)⟩)
    work_outcome (fun held _ => serve_outcome held) (fun _ => teardown_outcome _) (cancelTurn_outcome _)
    ((losing_outcome _).expireLease _ _) (dispatchRun_outcome _)
    (outcomeLayer_frame.along_true (syncWorkspaceCapacityState_all plain_neutral.toReading fun _ =>
      locally_does fun _ _ => .of_eq rfl))

end Iterabase.Dispatch
