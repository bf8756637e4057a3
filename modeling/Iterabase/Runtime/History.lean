/-
**The runtime store — the log against the rows.**

The states of a run, of its steps and of its turns can be read off its log: an event of a transition
sets the state of the row it names. The rows agree with that reading as long as every update of a
transaction matches the row its event names.

* `History`, `State.history` — the reading of a log.
* `history_matches` — **under that condition the log of every run says what its rows say.**
-/

import Iterabase.Runtime.Store

namespace Iterabase.Runtime

open Conc List Option Table Tx State

/-! ### Reading a log -/

def EventKind.runState : EventKind → Option RunState
  | .runStarted | .runResumed => some .running
  | .runSucceeded => some .succeeded
  | .runFailed => some .failed
  | .runAborted => some .aborted
  | .runAwaitingApproval => some .awaitingApproval
  | _ => none

open EventKind

def EventKind.stepState : EventKind → Option StepState
  | .stepStarted => some .running
  | .stepSucceeded => some .succeeded
  | .stepFailed => some .failed
  | .stepSkipped => some .skipped
  | _ => none

def Event.turnState (e : Event) : Option TurnState :=
  match e.kind, e.payload with
  | .turnStarted, _ => some .running
  | .settled, .settled reason _ => some (turnStateForReason reason)
  | _, _ => none

/-- The states a log tells: of the run, of its steps, and of its turns. -/
structure History where
  run : RunState := .pending
  step : StepID → StepState := fun _ => .pending
  turn : TurnID → Option TurnState := fun _ => none

def History.apply (h : History) (e : Event) : History where
  run := e.kind.runState.getD h.run
  step id := if e.stepID = some id then e.kind.stepState.getD (h.step id) else h.step id
  turn id := if e.turnID = some id then e.turnState.or (h.turn id) else h.turn id

def State.history (s : State) (runID : RunID) : History := (s.listEvents runID).foldl History.apply {}

/-- The rows of a run are what its log says. -/
structure State.Replays (s : State) (runID : RunID) : Prop where
  run : ∀ r, s.runs.find runID = some r → (s.history runID).run = r.state
  step : ∀ st ∈ s.steps.rows, st.runID = runID → (s.history runID).step st.id = st.state
  turn : ∀ id, (s.history runID).turn id =
    ((s.turns.find id).filter fun t => t.runID = runID).map Turn.state

/-! ### The invariant -/

/-- The rows of every run are what its log says. -/
structure Faithful (s : State) : Prop where
  replays : ∀ runID, s.Replays runID
  ordered : ∀ runID, (s.eventsOf runID).Pairwise fun e e' => e'.seq < e.seq
  logged : ∀ e ∈ s.events, (s.runs.find e.runID).isSome
  steps : ∀ st ∈ s.steps.rows, (s.runs.find st.runID).isSome
  turns : ∀ t ∈ s.turns.rows, (s.runs.find t.runID).isSome

variable {runID : RunID} {reason : Reason} {messageCount : Nat} {runState : RunState}

section Log

variable {s : State}

theorem seq_lt_nextSeq {e : Event} (member : e ∈ s.eventsOf runID) : e.seq < s.nextSeq runID := by
  unfold nextSeq
  generalize s.eventsOf runID = events at member
  induction events with
  | nil => cases member
  | cons first rest ih =>
    rw [foldr_cons]
    rcases mem_cons.mp member with rfl | later
    · omega
    · have below := ih later
      omega

theorem listEvents_eq (ordered : (s.eventsOf runID).Pairwise fun e e' => e'.seq < e.seq) :
    s.listEvents runID = (s.eventsOf runID).reverse := by
  refine List.Pairwise.insertionSort_eq ?_
  rw [pairwise_reverse]
  exact ordered.imp fun below => Nat.le_of_lt below

variable {runID : RunID} {turnID : Option TurnID} {stepID : Option StepID} {kind : EventKind}
  {payload : Payload}

theorem eventsOf_append (other : RunID) :
    (s.appendEventTx runID turnID stepID kind payload).eventsOf other = if runID =
    other then ⟨runID, turnID, stepID, s.nextSeq runID, kind, payload⟩ :: s.eventsOf other else
    s.eventsOf other := by
  unfold appendEventTx eventsOf
  by_cases same : runID = other
  · rw [if_pos same, filter_cons_of_pos (by simpa using same)]
  · rw [if_neg same, filter_cons_of_neg (by simpa using same)]

theorem ordered_append (ordered : ∀ runID, (s.eventsOf runID).Pairwise fun e e' => e'.seq < e.seq)
    (other : RunID) : ((s.appendEventTx runID turnID stepID kind payload).eventsOf other).Pairwise fun
    e e' => e'.seq < e.seq := by
  rw [eventsOf_append]
  split
  · rename_i same
    subst same
    exact pairwise_cons.mpr ⟨fun e member => seq_lt_nextSeq member, ordered runID⟩
  · exact ordered other

theorem history_append (ordered : ∀ runID, (s.eventsOf runID).Pairwise fun e e' => e'.seq < e.seq)
    (other : RunID) : (s.appendEventTx runID turnID stepID kind payload).history other = if runID =
    other then (s.history other).apply ⟨runID, turnID, stepID, s.nextSeq runID, kind, payload⟩ else
    s.history other := by
  unfold history
  rw [listEvents_eq (ordered_append ordered other), listEvents_eq (ordered other), eventsOf_append]
  split
  · rw [reverse_cons, foldl_append]
    rfl
  · rfl

end Log

/-- The turn of a run, as its log would tell it. -/
def State.turnOf (s : State) (runID : RunID) (id : TurnID) : Option TurnState :=
  ((s.turns.find id).filter fun t => t.runID = runID).map Turn.state

variable {allowed : List RunState} {target : RunState} {st : Step} {id : TurnID} {turn : Turn}

section Record

variable {s s' : State} {runID : RunID} {turnID : Option TurnID} {stepID : Option StepID}
  {kind : EventKind} {payload : Payload}

section Faithful

variable (faithful : Faithful s)

include faithful

/-- **Rows that change as the event says.** -/
theorem Faithful.record (events : s'.events = s.events) (exist : (s.runs.find runID).isSome)
    (runs : ∀ id, s'.runs.find id = (s.runs.find id).map fun r =>
      { r with state := if runID = id then kind.runState.getD r.state else r.state })
    (steps : s'.steps.rows = s.steps.rows.map fun st =>
      { st with state := if runID = st.runID ∧ stepID = some st.id then kind.stepState.getD st.state
                         else st.state })
    (turns : ∀ other id, s'.turnOf other id = if runID = other ∧ turnID = some id then
      (Event.turnState ⟨runID, turnID, stepID, 0, kind, payload⟩).or (s.turnOf other id)
      else s.turnOf other id) (ofRuns : ∀ t ∈ s'.turns.rows, (s.runs.find t.runID).isSome) :
    Faithful (s'.appendEventTx runID turnID stepID kind payload) := by
  have same : ∀ other, s'.eventsOf other = s.eventsOf other := fun other => by
    unfold eventsOf
    rw [events]
  have ordered : ∀ other, (s'.eventsOf other).Pairwise fun e e' => e'.seq < e.seq := fun other => by
    rw [same]
    exact faithful.ordered other
  have before : ∀ other, s'.history other = s.history other := fun other => by
    unfold history listEvents
    rw [same]
  have kept : ∀ id, (s'.runs.find id).isSome = (s.runs.find id).isSome := fun id => by
    rw [runs, isSome_map]
  refine ⟨fun other => ⟨fun r found => ?_, fun st member ofRun => ?_, fun id => ?_⟩,
    ordered_append ordered, fun e member => ?_, fun st member => ?_, fun t member => ?_⟩
  · change s'.runs.find other = some r at found
    rw [runs] at found
    obtain ⟨old, was, rfl⟩ := map_eq_some_iff.mp found
    have read := (faithful.replays other).run old was
    rw [history_append ordered, before]
    by_cases here : runID = other
    · rw [if_pos here, if_pos here]
      exact congrArg kind.runState.getD read
    · rw [if_neg here, if_neg here]
      exact read
  · change st ∈ s'.steps.rows at member
    rw [steps] at member
    obtain ⟨old, was, rfl⟩ := mem_map.mp member
    subst ofRun
    have read := (faithful.replays old.runID).step old was rfl
    rw [history_append ordered, before]
    by_cases here : runID = old.runID
    · simp only [if_pos here, History.apply, read, and_iff_right here]
    · simp only [read, here, false_and, if_false]
  · have read := (faithful.replays other).turn id
    change _ = s'.turnOf other id
    change _ = s.turnOf other id at read
    rw [history_append ordered, before, turns]
    by_cases here : runID = other
    · simp only [if_pos here, History.apply, read, and_iff_right here]
      rfl
    · simp only [read, here, false_and, if_false]
  · change (s'.runs.find e.runID).isSome
    rw [kept]
    rcases mem_cons.mp member with rfl | old
    · exact exist
    · exact faithful.logged e (events ▸ old)
  · change st ∈ s'.steps.rows at member
    rw [steps] at member
    obtain ⟨old, was, rfl⟩ := mem_map.mp member
    change (s'.runs.find old.runID).isSome
    rw [kept]
    exact faithful.steps old was
  · change (s'.runs.find t.runID).isSome
    rw [kept]
    exact ofRuns t member

theorem Faithful.setRun {r : Run} (found : s.runs.find runID = some r)
    (starts : r.state ∈ allowed) (tells : kind.runState = some target) :
    Faithful ((s.setRun runID allowed target).appendEventTx runID none none kind payload) := by
  refine faithful.record rfl (by simp [found]) (fun id => ?_) ?_ (fun other id => by simp; rfl)
    faithful.turns
  · unfold State.setRun
    rw [find_update]
    refine map_congr fun r' found' => ?_
    have key : r'.id = id := find_key found'
    by_cases here : runID = id
    · subst here
      cases found.symm.trans found'
      simp [key, starts, tells]
    · subst key
      simp [here, Ne.symm here]
  · change s.steps.rows = _
    simp

theorem Faithful.setStep {id : StepID} (found : s.steps.find id = some st)
    {allowed : List StepState} (starts : st.state ∈ allowed) {target : StepState}
    (tells : kind.stepState = some target) (silent : kind.runState = none) :
    Faithful ((s.setStep id allowed target).appendEventTx st.runID none (some id) kind payload) := by
  have exist := faithful.steps st (find_mem found)
  refine faithful.record rfl exist (fun id => ?_) ?_ (fun other id => by simp; rfl) faithful.turns
  · change s.runs.find id = _
    simp [silent]
  · unfold State.setStep update
    refine map_congr_left fun st' member => ?_
    have found' := find_of_mem member
    by_cases here : st'.id = id
    · rw [here] at found'
      cases found.symm.trans found'
      simp [here, starts, tells]
    · simp [here, Ne.symm here]

theorem Faithful.setTurn (found : s.turns.find id = some turn) (running : turn.state = .running) :
    Faithful ((s.setTurn id (turnStateForReason reason)).appendEventTx turn.runID (some id) stepID
      .settled (.settled reason messageCount)) := by
  have exist := faithful.turns turn (find_mem found)
  refine faithful.record rfl exist (fun id => ?_) ?_ (fun other id' => ?_) fun t member => ?_
  · change s.runs.find id = _
    simp [runState]
  · change s.steps.rows = _
    simp [stepState]
  · have key : turn.id = id := find_key found
    unfold State.turnOf State.setTurn
    rw [find_update]
    by_cases here : id = id'
    · subst here
      rw [found]
      by_cases ofRun : turn.runID = other
      · simp [key, running, ofRun, Event.turnState]
      · simp [key, running, ofRun, Option.filter]
    · cases found' : s.turns.find id' with
      | none => simp [here]
      | some t =>
        have key' : t.id = id' := find_key found'
        simp [key', here, Ne.symm here]
  · obtain ⟨old, was, rfl⟩ := mem_map.mp member
    have ofRun := faithful.turns old was
    split <;> exact ofRun

theorem Faithful.insertTurn {turns : Table Turn.id} (inserted : s.turns.insert turn = some turns)
    (running : turn.state = .running) (exist : (s.runs.find turn.runID).isSome) : Faithful
    ({ s with turns := turns }.appendEventTx turn.runID (some turn.id) stepID .turnStarted payload) := by
  refine faithful.record rfl exist (fun id => ?_) ?_ (fun other id => ?_) fun t member => ?_
  · simp [runState]
  · simp [stepState]
  · unfold turnOf
    rw [find_insert inserted]
    by_cases here : turn.id = id
    · have fresh := insert_fresh inserted
      rw [here] at fresh
      by_cases ofRun : turn.runID = other
      · simp [here, ofRun, running, Event.turnState]
      · simp [here, ofRun, fresh]
    · simp [here]
  · rw [insert_rows inserted] at member
    rcases mem_cons.mp member with rfl | old
    · exact exist
    · exact faithful.turns t old

theorem Faithful.streamed {name : String} (exist : (s.runs.find runID).isSome) :
    Faithful (s.appendEventTx runID turnID stepID (.streamed name) payload) := by
  refine faithful.record rfl exist (fun id => ?_) ?_ (fun other id => ?_) faithful.turns
  · simp [runState]
  · simp [stepState]
  · simp [Event.turnState]

end Faithful

end Record

variable {kind : EventKind} {run : Run}

/-! ### The operations -/

section Operations

variable {s s' : State}

theorem transitionRun_faithful (faithful : Faithful s) {id : RunID}
    (ran : transitionRun id allowed target kind s = .ok (run, s'))
    (tells : kind.runState = some target) : Faithful s' := by
  obtain ⟨r, found, ran⟩ := need_then.mp ran
  obtain ⟨starts, ran⟩ := refuse_then.mp ran
  obtain ⟨_, rfl⟩ := pure_ok.mp ran
  have key : r.id = id := find_key found
  rw [key]
  exact faithful.setRun found (not_not.mp starts) tells

theorem transitionStep_faithful (faithful : Faithful s) {id : StepID} {allowed : List StepState}
    {target : StepState} {step : Step}
    (ran : transitionStep id allowed target kind s = .ok (step, s'))
    (tells : kind.stepState = some target) (silent : kind.runState = none) : Faithful s' := by
  obtain ⟨st, found, ran⟩ := need_then.mp ran
  obtain ⟨starts, ran⟩ := refuse_then.mp ran
  obtain ⟨_, ran⟩ := refuse_then.mp ran
  obtain ⟨_, rfl⟩ := pure_ok.mp ran
  have key : st.id = id := find_key found
  rw [key]
  exact faithful.setStep found (not_not.mp starts) tells silent

/-- A run that nothing is logged of. -/
def Unlogged (id : RunID) (s : State) : Prop :=
  Faithful s ∧ (s.runs.find id).isSome ∧ s.eventsOf id = []

theorem insertStep_unlogged {id : RunID}
    {step : StepInput} : (insertStep id step).Keeps (Unlogged id) := by
  refine Tx.Keeps.attempt fun s s' unlogged inserted => ?_
  obtain ⟨faithful, exist, silent⟩ := unlogged
  split at inserted
  · cases inserted
  split at inserted
  · cases inserted
  rename_i steps inserts
  cases inserted
  have rows := insert_rows inserts
  refine ⟨⟨fun runID => ⟨(faithful.replays runID).run, fun st member ofRun => ?_,
    (faithful.replays runID).turn⟩, faithful.ordered, faithful.logged, fun st member => ?_,
    faithful.turns⟩, exist, silent⟩
  · rw [rows] at member
    rcases mem_cons.mp member with rfl | old
    · subst ofRun
      change (s.history id).step step.id = .pending
      unfold history
      rw [listEvents_eq (faithful.ordered id), silent]
      rfl
    · exact (faithful.replays runID).step st old ofRun
  · rw [rows] at member
    rcases mem_cons.mp member with rfl | old
    · exact exist
    · exact faithful.steps st old

theorem insertSteps_unlogged {id : RunID} (steps : List StepInput) :
    (steps.forM (insertStep id)).Keeps (Unlogged id) := by
  induction steps with
  | nil => exact Tx.Keeps.pure ()
  | cons step rest ih => exact Tx.Keeps.bind insertStep_unlogged fun _ => ih

theorem createRun_faithful (faithful : Faithful s) {id : RunID} {sessionID : SessionID}
    {steps : List StepInput} (ran : createRun id sessionID steps s = .ok (run, s')) :
    Faithful s' := by
  obtain ⟨s₁, inserted, ran⟩ := attempt_then.mp ran
  obtain ⟨_, s₂, planned, ran⟩ := bind_ok.mp ran
  obtain ⟨_, rfl⟩ := pure_ok.mp ran
  split at inserted
  · cases inserted
  rename_i runs inserts
  cases inserted
  have fresh : s.runs.find id = none := insert_fresh inserts
  have finds := find_insert inserts
  -- no event names a run that does not exist
  have silent : s.eventsOf id = [] := by
    refine filter_eq_nil_iff.mpr fun e member ofRun => ?_
    have exist := faithful.logged e member
    rw [of_decide_eq_true ofRun, fresh] at exist
    cases exist
  have kept : ∀ other, (s.runs.find other).isSome → (runs.find other).isSome := by
    intro other exist
    rw [finds]
    split
    · rfl
    · exact exist
  refine (insertSteps_unlogged steps { s with runs := runs } _ _ ⟨⟨fun runID => ⟨fun r found => ?_,
    (faithful.replays runID).step, (faithful.replays runID).turn⟩, faithful.ordered,
    fun e member => kept _ (faithful.logged e member),
    fun st member => kept _ (faithful.steps st member),
    fun t member => kept _ (faithful.turns t member)⟩, ?_, silent⟩ planned).1
  · rw [finds] at found
    split at found
    · rename_i same
      subst same
      cases found
      change (s.history id).run = .pending
      unfold history
      rw [listEvents_eq (faithful.ordered id), silent]
      rfl
    · exact (faithful.replays runID).run r found
  · rw [finds, if_pos rfl]
    rfl

theorem startTurn_faithful (faithful : Faithful s) {stepID model : String}
    (ran : startTurn id runID stepID model s = .ok (turn, s')) : Faithful s' := by
  obtain ⟨run, found, ran⟩ := need_then.mp ran
  obtain ⟨s₁, inserted, ran⟩ := attempt_then.mp ran
  obtain ⟨_, rfl⟩ := pure_ok.mp ran
  split at inserted
  · cases inserted
  split at inserted
  · cases inserted
  split at inserted
  · cases inserted
  rename_i turns inserts
  cases inserted
  exact faithful.insertTurn inserts rfl (by simp [found])

theorem settle_ok {turn' : Turn} (ran : settle id reason messageCount s = .ok (turn', s')) :
    ∃ turn, s.turns.find id = some turn ∧
    turn.state = .running ∧ turn' = { turn with state := turnStateForReason reason } ∧
    s' = (s.setTurn id (turnStateForReason reason)).appendEventTx turn.runID (some id) turn.stepID
    .settled (.settled reason messageCount) := by
  obtain ⟨turn, found, ran⟩ := need_then.mp ran
  obtain ⟨running, ran⟩ := refuse_then.mp ran
  obtain ⟨rfl, rfl⟩ := pure_ok.mp ran
  have key : turn.id = id := find_key found
  subst key
  exact ⟨turn, found, not_not.mp running, rfl, rfl⟩

end Operations

/-! ### Settling a turn and advancing its run -/

/-- What `SettleTurnAndAdvance` has to find for a turn: its step runs and is the run's, and the run is in
a state that the update of its reason starts from. -/
def Fits (s : State) (turn : Turn) (reason : Reason) : Prop :=
  (∀ id ∈ turn.stepID, id ≠ "" → ∃ st ∈ s.steps.find id, st.runID = turn.runID ∧ st.state = .running) ∧
    ∃ run ∈ s.runs.find turn.runID,
      run.state = .running ∨ (reason ≠ .completed ∧ run.state = .awaitingApproval)

/-- Where a call of `SettleTurnAndAdvance` settles a turn, it finds what it has to. -/
def Settles (s : State) : Op → Prop
  | .settleTurnAndAdvance id reason =>
      ∀ turn ∈ s.turns.find id, turn.state = .running → Fits s turn reason
  | _ => True

instance (s : State) (turn : Turn) (reason : Reason) : Decidable (Fits s turn reason) :=
  inferInstanceAs (Decidable (_ ∧ _))

instance (s : State) (op : Op) : Decidable (Settles s op) := by
  cases op <;> unfold Settles <;> infer_instance

section Settling

variable {s s' : State} {runID : RunID} {reason : Reason}

theorem settleStep_faithful (faithful : Faithful s) (reason : Reason) {id : StepID}
    (found : s.steps.find id = some st) (running : st.state = .running) :
    Faithful (s.settleStep st.runID id reason) := by
  have starts : st.state ∈ [StepState.running] := by simp [running]
  cases reason with
  | completed | failed | aborted => exact faithful.setStep found starts rfl rfl

theorem settleStep_runs (s : State) (id : StepID) : (s.settleStep runID id reason).runs = s.runs := by
  cases reason <;> rfl

theorem nextPendingStep_mem (pending : s.nextPendingStep runID = some st) :
    st ∈ s.steps.rows ∧ st.runID = runID ∧ st.state = .pending := by
  have member := (mem_insertionSort _).mp (mem_of_mem_head? pending)
  obtain ⟨here, selected⟩ := mem_filter.mp member
  obtain ⟨ofRun, waiting⟩ := of_decide_eq_true selected
  exact ⟨here, ofRun, waiting⟩

theorem find_setRun {turnID : Option TurnID} {stepID : Option StepID} {payload : Payload}
    (found : s.runs.find runID = some run) (starts : run.state ∈ allowed) :
    ((s.setRun runID allowed target).appendEventTx runID turnID stepID kind payload).runs.find runID =
    some { run with state := target } := by
  change (s.setRun runID allowed target).runs.find runID = _
  unfold setRun
  have key : run.id = runID := find_key found
  rw [find_update, found]
  simp [key, starts]

theorem advanceRunAfterSettle_faithful (faithful : Faithful s)
    (found : s.runs.find runID = some run)
    (fits : run.state = .running ∨ (reason ≠ .completed ∧ run.state = .awaitingApproval))
    (ran : advanceRunAfterSettle runID reason s = .ok (runState, s')) :
    Faithful s' ∧ ∃ run' ∈ s'.runs.find runID, run'.state = runState := by
  cases reason with
  | aborted | failed =>
    have starts : run.state ∈ [RunState.running, .awaitingApproval] := by
      rcases fits with here | ⟨_, here⟩ <;> simp [here]
    obtain ⟨rfl, rfl⟩ := pure_ok.mp ran
    exact ⟨faithful.setRun found starts rfl, _, find_setRun found starts, rfl⟩
  | completed =>
    have running : run.state = .running := fits.resolve_right fun ⟨other, _⟩ => other rfl
    have ran := read_then.mp ran
    cases pending : s.nextPendingStep runID with
    | none =>
      rw [pending] at ran
      have starts : run.state ∈ [RunState.running] := by simp [running]
      obtain ⟨rfl, rfl⟩ := pure_ok.mp ran
      exact ⟨faithful.setRun found starts rfl, _, find_setRun found starts, rfl⟩
    | some st =>
      rw [pending] at ran
      obtain ⟨member, rfl, waiting⟩ := nextPendingStep_mem pending
      obtain ⟨_, ran⟩ := refuse_then.mp ran
      obtain ⟨rfl, rfl⟩ := pure_ok.mp ran
      exact ⟨faithful.setStep (find_of_mem member) (by simp [waiting]) rfl rfl, run, found, running⟩

theorem settleTurnAndAdvance_faithful (faithful : Faithful s)
    (settles : Settles s (.settleTurnAndAdvance id reason))
    (ran : settleTurnAndAdvance id reason s = .ok (runState, s')) :
    Faithful s' ∧ ∃ turn ∈ s.turns.find id, ∃ run ∈ s'.runs.find turn.runID, run.state = runState := by
  obtain ⟨_, _, settled, ran⟩ := bind_ok.mp ran
  obtain ⟨turn, found, running, rfl, rfl⟩ := settle_ok settled
  obtain ⟨steps, run, ofRun, fits⟩ := settles turn found running
  have settled : Faithful ((s.setTurn id (turnStateForReason reason)).appendEventTx turn.runID (some id)
      turn.stepID .settled (.settled reason 0)) := faithful.setTurn found running
  have ran := write_then.mp ran
  cases named : turn.stepID with
  | none =>
    rw [named] at ran settled
    obtain ⟨faithful', stored⟩ := advanceRunAfterSettle_faithful settled ofRun fits ran
    exact ⟨faithful', turn, found, stored⟩
  | some stepID =>
    rw [named] at ran settled
    by_cases blank : stepID = ""
    · dsimp only at ran
      rw [if_pos blank] at ran
      obtain ⟨faithful', stored⟩ := advanceRunAfterSettle_faithful settled ofRun fits ran
      exact ⟨faithful', turn, found, stored⟩
    · dsimp only at ran
      rw [if_neg blank] at ran
      obtain ⟨st, here, same, stepRuns⟩ := steps stepID named blank
      have stepped := settleStep_faithful settled reason here stepRuns
      rw [same] at stepped
      obtain ⟨faithful', stored⟩ := advanceRunAfterSettle_faithful stepped
        (by rw [settleStep_runs]; exact ofRun) fits ran
      exact ⟨faithful', turn, found, stored⟩

end Settling

variable {s : State}

/-! ### Every run of the store -/

theorem Faithful.commit {α : Type} (faithful : Faithful s) {tx : StoreTx α}
    (kept : ∀ {a s'}, tx s = .ok (a, s') → Faithful s') : Faithful (tx.commit s).2 := by
  rcases tx.commit_cases s with same | ⟨a, ran⟩
  · rw [same]
    exact faithful
  · exact kept ran

theorem perform_faithful {op : Op} (faithful : Faithful s) (settles : Settles s op) :
    Faithful (s.perform op) := by
  cases op with
  | createRun id sessionID steps => exact faithful.commit fun ran => createRun_faithful faithful ran
  | startRun | succeedRun | failRun | abortRun | awaitApproval | resumeFromApproval =>
    exact faithful.commit fun ran => transitionRun_faithful faithful ran rfl
  | startStep | succeedStep | failStep | skipStep =>
    exact faithful.commit fun ran => transitionStep_faithful faithful ran rfl rfl
  | startTurn id runID stepID model => exact faithful.commit fun ran => startTurn_faithful faithful ran
  | settleTurn id reason messageCount =>
    refine faithful.commit fun ran => ?_
    obtain ⟨turn, found, running, _, rfl⟩ := settle_ok ran
    exact faithful.setTurn found running
  | settleTurnAndAdvance id reason =>
    exact faithful.commit fun ran => (settleTurnAndAdvance_faithful faithful settles ran).1
  | appendEvent runID turnID stepID kind =>
    refine faithful.commit fun ran => ?_
    obtain ⟨run, found, ran⟩ := need_then.mp ran
    have same := write_ok.mp ran
    subst same
    exact faithful.streamed (by simp [found])

def State.Initial (s : State) : Prop := s = {}

theorem State.Initial.faithful (initial : s.Initial) : Faithful s := by
  subst initial
  refine ⟨fun runID => ⟨fun r found => ?_, fun st member => ?_, fun id => ?_⟩, fun runID => ?_,
    fun e member => ?_, fun st member => ?_, fun t member => ?_⟩
  · cases found
  · cases member
  · rfl
  · exact List.Pairwise.nil
  · cases member
  · cases member
  · cases member

/-- **The log says what the rows say**, where the calls of `SettleTurnAndAdvance` find what they have to, and
the run state that it returns is the stored one. -/
theorem history_matches {s₀ s : State} (initial : s₀.Initial) (reached : Reach next Settles s₀ s) :
    (∀ runID, s.Replays runID) ∧
      ∀ id reason runState s', Settles s (.settleTurnAndAdvance id reason) →
        settleTurnAndAdvance id reason s = .ok (runState, s') →
        ∃ turn ∈ s.turns.find id, ∃ run ∈ s'.runs.find turn.runID, run.state = runState := by
  have faithful : Faithful s := by
    refine reached.invariant initial.faithful fun s op s' faithful settles moved => ?_
    cases moved
    exact perform_faithful faithful settles
  exact ⟨faithful.replays, fun id reason runState s' settles ran =>
    (settleTurnAndAdvance_faithful faithful settles ran).2⟩

/-- A run of one step, whose turn is running. -/
def driveTurn : List Op :=
  [.createRun "run" "session" [⟨"step", 1⟩], .startRun "run", .startStep "step",
    .startTurn "turn" "run" "step" "model"]

theorem history_matches_completed : ∃ s, Reach next Settles {} s ∧
    (s.runs.find "run").map Run.state = some .succeeded ∧ ∀ runID, s.Replays runID := by
  exact reach_of_replay_and (driveTurn ++ [.settleTurnAndAdvance "turn" .completed]) (by decide +kernel)
    fun reached _ => (history_matches rfl reached).1

/-- **The log records a success that the run does not have.** The run waits for an approval when its turn
completes: the update of the run matches no row, its event is appended, and `succeeded` is returned. -/
theorem history_diverges : ∃ s, Reach next (fun _ _ => True) {} s ∧
    ((settleTurnAndAdvance "turn" .completed).commit s).1 = .ok .succeeded ∧
    ((s.perform (.settleTurnAndAdvance "turn" .completed)).runs.find "run").map Run.state =
      some .awaitingApproval ∧
    ¬ (s.perform (.settleTurnAndAdvance "turn" .completed)).Replays "run" := by
  obtain ⟨s, reached, returned, stored, told⟩ := reach_of_replay next (fun _ _ => True) {}
    (driveTurn ++ [.awaitApproval "run"])
    (fun s => ((settleTurnAndAdvance "turn" .completed).commit s).1 = .ok .succeeded ∧
      ((s.perform (.settleTurnAndAdvance "turn" .completed)).runs.find "run").map Run.state =
        some .awaitingApproval ∧
      ((s.perform (.settleTurnAndAdvance "turn" .completed)).history "run").run = .succeeded)
    (by decide +kernel)
  refine ⟨s, reached, returned, stored, fun replays => ?_⟩
  obtain ⟨run, found, waits⟩ := map_eq_some_iff.mp stored
  have read := replays.run run found
  rw [told, waits] at read
  cases read

end Iterabase.Runtime
