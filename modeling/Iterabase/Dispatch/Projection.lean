/-
**Durable dispatch — completion reports and the cumulative ACK.**

A step completion is committed by one transaction and projected onto its node by a second one. The
worker does not wait between its events and an ACK is cumulative, so an ACK covers a completion only
if no later event of the turn is taken up while the projection is still open.

* `projectionGuard` — no event is taken up over an unprojected completion, except that completion
  itself when it is delivered again.
* `ack_projected` — **under that guard an ACK that answers an event covers projected completions only.**
-/

import Iterabase.Dispatch.Ack

namespace Iterabase.Dispatch

open Conc List

/-! ### Unprojected completions -/

/-- The completion of `turnID` through sequence `n` that an observation says was accepted. -/
def Obs.completion (turnID : TurnID) (n : Nat) : Obs → Option TurnEvent
  | .appended _ te =>
      if te.turnID = turnID ∧ te.sequence ≤ n ∧ te.kind.report.isSome then some te else none
  | _ => none

/-- The completions of `turnID` through sequence `n` that were accepted and not projected. -/
def unprojected (trace : List Obs) (turnID : TurnID) (n : Nat) : List TurnEvent :=
  (trace.filterMap (Obs.completion turnID n)).filter fun te => .projected te ∉ trace

variable {turnID : TurnID} {n : Nat}

variable {te : TurnEvent} {s s' : State} {kind : RuntimeEvent}

theorem mem_unprojected {trace : List Obs} : te ∈ unprojected trace turnID n ↔
    (∃ w, .appended w te ∈ trace) ∧ te.turnID = turnID ∧ te.sequence ≤ n ∧ te.kind.report.isSome ∧
    .projected te ∉ trace := by
  unfold unprojected
  rw [mem_filter, mem_filterMap, decide_eq_true_eq]
  constructor
  · rintro ⟨⟨o, member, accepted⟩, open_⟩
    cases o with
    | appended w te' =>
      simp only [Obs.completion] at accepted
      split at accepted
      · rename_i is
        cases accepted
        exact ⟨⟨w, member⟩, is.1, is.2.1, is.2.2, open_⟩
      · cases accepted
    | _ => cases accepted
  · rintro ⟨⟨w, member⟩, turn, below, reported, open_⟩
    refine ⟨⟨_, member, ?_⟩, open_⟩
    simp only [Obs.completion, turn, below, reported, and_self, if_true]

/-- No further completion of the turn through sequence `n` will be accepted. -/
def Closed (turnID : TurnID) (n : Nat) (s : State) : Prop :=
  ∃ a, s.assignments.find turnID = some a ∧ (a.state ≠ .active ∨ n ≤ a.highestAppliedSequence)

theorem Closed.durable (closed : Closed turnID n s) (durable : Durable s s') :
    Closed turnID n s' := by
  obtain ⟨a, found, shut⟩ := closed
  obtain ⟨a', found', becomes⟩ := durable.rows _ a found
  refine ⟨a', found', shut.imp becomes.inactive fun covered => le_trans covered becomes.watermark⟩

/-- A completion that is unprojected later was so before. -/
theorem Closed.unprojected (closed : Closed turnID n s) (durable : Durable s s')
    (later : te ∈ unprojected s'.trace turnID n) : te ∈ unprojected s.trace turnID n := by
  obtain ⟨⟨w, accepted⟩, rfl, below, reported, open_⟩ := mem_unprojected.mp later
  refine mem_unprojected.mpr ⟨⟨w, ?_⟩, rfl, below, reported, fun projected =>
    open_ (durable.trace.subset projected)⟩
  by_contra fresh
  -- a new completion would lie past the watermark of an active row
  obtain ⟨a, found, shut⟩ := closed
  obtain ⟨active, past⟩ := durable.honest _ accepted fresh a found
  rcases shut with inactive | covered
  · exact inactive active
  · exact absurd (le_trans below covered) (Nat.not_le_of_lt past)

/-! ### The layer -/

/-- What a step that takes up a TurnEvent finds: its turn has been assigned, and no completion that
the ACK would cover is unprojected. A completion may be delivered again while its assignment is
active. -/
def TakesUp (label : Label) (s : State) : Prop :=
  match label with
  | .resolveEvent _ te => (s.assignments.find te.turnID).isSome ∧
      (turnEventToRuntime te.kind = none → unprojected s.trace te.turnID te.sequence = [])
  | .append _ te => ∀ te₀ ∈ unprojected s.trace te.turnID te.sequence, te₀ = te
  | .audit _ te => unprojected s.trace te.turnID te.sequence = []
  | _ => True

instance (label : Label) (s : State) : Decidable (TakesUp label s) := by
  induction label using Label.casesOn <;> unfold TakesUp <;> infer_instance

abbrev projectionGuard : System.Guard Label Input Request State :=
  .onActions fun label _ s => TakesUp label s

def AcksProjected (s : State) : Prop :=
  ∀ w turnID n te earlier, (.sent w (.eventAck turnID n) (some te) :: earlier) <:+ s.trace →
    unprojected earlier turnID n = []

def projectionLayer : Layer Label Input Request State :=
  { inv := AcksProjected, guard := projectionGuard }

theorem projectionLayer_watched : Watched projectionLayer Obs.IsAck where
  kept := fun _ _ silent inv w turnID n te earlier suffix =>
    inv w turnID n te earlier (silent.suffix ⟨w, turnID, n, te, rfl⟩ suffix)

section Outline

variable {t : Nat} {w : ConnRef} {s s' : State} {te : TurnEvent}

theorem ack_projection
    (ready : ∀ s₁, Rely t s s₁ → Base s₁ → unprojected s₁.trace te.turnID te.sequence = []) :
    Runs baseRules projectionLayer t (ack w te) s := by
  refine Along.atomic fun s₁ moved base inv input answer s₂ _ ran _ moves => ⟨?_, trivial⟩
  rcases ack_cases ran with rfl | rfl
  · exact inv
  intro w' turnID n te' earlier suffix
  rcases suffix_cons_iff.mp suffix with here | there
  · cases here
    exact ready s₁ moved base
  · exact inv w' turnID n te' earlier there

/-- The row is closed at the event and every completion through it is projected. -/
def Projected (te : TurnEvent) (s : State) : Prop :=
  Closed te.turnID te.sequence s ∧ unprojected s.trace te.turnID te.sequence = []

theorem Projected.grows (grows : Grows s s') (projected : Projected te s) : Projected te s' := by
  refine ⟨projected.1.durable grows.toDurable, eq_nil_iff_forall_not_mem.mpr fun te₀ later => ?_⟩
  have before := projected.1.unprojected grows.toDurable later
  rw [projected.2] at before
  cases before

/-- The row is inactive; an event of an unknown kind is not even audited. -/
def Late (te : TurnEvent) (s : State) : Prop :=
  (∃ a, s.assignments.find te.turnID = some a ∧ a.state ≠ .active) ∧
    (turnEventToRuntime te.kind = none → Projected te s)

theorem Late.grows (grows : Grows s s') (late : Late te s) : Late te s' := by
  obtain ⟨⟨a, found, inactive⟩, unknown⟩ := late
  obtain ⟨a', found', becomes⟩ := grows.rows _ a found
  exact ⟨⟨a', found', becomes.inactive inactive⟩, fun kind => (unknown kind).grows grows⟩

theorem Late.closed (late : Late te s) : Closed te.turnID n s := by
  obtain ⟨⟨a, found, inactive⟩, _⟩ := late
  exact ⟨a, found, .inl inactive⟩

/-- The event is stored, and at most its own projection is open. -/
def Stored (te : TurnEvent) (s : State) : Prop :=
  Closed te.turnID te.sequence s ∧ ∀ te₀ ∈ unprojected s.trace te.turnID te.sequence, te₀ = te

theorem Stored.grows (grows : Grows s s') (stored : Stored te s) : Stored te s' :=
  ⟨stored.1.durable grows.toDurable, fun te₀ later =>
    stored.2 te₀ (stored.1.unprojected grows.toDurable later)⟩

theorem appendTurnEvent_stored {applied : Bool}
    (admitted : ∀ te₀ ∈ unprojected s.trace te.turnID te.sequence, te₀ = te)
    (ran : s.appendTurnEvent w te kind = (.ok applied, s')) : Stored te s' := by
  rcases appendTurnEvent_cases ran with
    ⟨err, same, _⟩ | ⟨a, found, active, ⟨_, rfl, covered⟩ | ⟨_, next, rfl⟩⟩
  · cases same
  · exact ⟨⟨a, found, .inr covered⟩, admitted⟩
  refine ⟨⟨_, (committed_step kind (o := .audited w te) found next trivial).2, .inr (le_refl _)⟩,
    fun te₀ later => ?_⟩
  obtain ⟨⟨w', accepted⟩, turn, below, reported, open_⟩ := mem_unprojected.mp later
  rcases mem_cons.mp accepted with here | there
  · cases here
    rfl
  · exact admitted te₀ (mem_unprojected.mpr ⟨⟨w', there⟩, turn, below, reported, fun projected =>
      open_ (.tail _ projected)⟩)

theorem recordCompletionReport_projected {report : CompletionReport} {input : Input}
    {answer : Except Err Unit} (stored : Stored te s) (went : input.fail = false)
    (ran : s.recordCompletionReport te report input = (answer, s')) : Projected te s' := by
  obtain ⟨new, step, _, _, projects, _⟩ := recordCompletionReport_cases ran
  refine ⟨stored.1.durable step.durable, eq_nil_iff_forall_not_mem.mpr fun te₀ later => ?_⟩
  have same := stored.2 te₀ (stored.1.unprojected step.durable later)
  subst same
  obtain ⟨_, _, _, _, open_⟩ := mem_unprojected.mp later
  exact open_ (by rw [step.trace]; exact mem_append_left _ (projects went))

theorem appendAfterTerminalEvent_projected {answer : Except Err Bool} (late : Late te s)
    (admitted : unprojected s.trace te.turnID te.sequence = [])
    (ran : s.appendAfterTerminalEvent w te kind = (answer, s')) : Projected te s' := by
  have durable : Durable s s' := by
    rcases appendAfterTerminalEvent_cases ran with
      ⟨_, rfl, _⟩ | ⟨a, found, _, _, ⟨_, rfl, _⟩ | ⟨_, rfl⟩ | ⟨_, next, rfl⟩⟩
    · exact (StoreStep.observe (o := .unowned w te) trivial).durable
    · exact .refl _
    · exact .refl _
    · exact (committed_step kind (o := .audited w te) found next trivial).1.durable
  have closed : Closed te.turnID te.sequence s := late.closed
  refine ⟨closed.durable durable, eq_nil_iff_forall_not_mem.mpr fun te₀ later => ?_⟩
  have before := closed.unprojected durable later
  rw [admitted] at before
  cases before

/-- While the handler of `w` runs, nobody else appends to a row of its generation. -/
theorem unprojected_mine {s₁ : State} {a : Assignment} (held : Held t w s)
    (found : s.assignments.find te.turnID = some a) (gen : a.fencingGeneration = w.gen)
    (projected : unprojected s.trace te.turnID te.sequence = []) (moved : Rely t s s₁)
    (base : Base s₁) : unprojected s₁.trace te.turnID te.sequence = [] := by
  refine eq_nil_iff_forall_not_mem.mpr fun te₀ later => ?_
  obtain ⟨⟨w', accepted⟩, turn, below, reported, open_⟩ := mem_unprojected.mp later
  obtain ⟨b, found', gen', _⟩ := base.traceRows _ accepted
  obtain ⟨a', found'', becomes⟩ := moved.rows _ a found
  rw [turn] at found'
  cases found'.symm.trans found''
  obtain ⟨c, present, ref, loop⟩ := held
  -- the acceptance was made under the generation of `w`, so by this handler
  have before := moved.mine _ c present loop _ accepted w' rfl
    (by rw [ref, ← gen', becomes.gen, gen])
  have member : te₀ ∈ unprojected s.trace te.turnID te.sequence :=
    mem_unprojected.mpr ⟨⟨w', before⟩, turn, below, reported, fun there =>
      open_ (moved.trace.subset there)⟩
  rw [projected] at member
  cases member

def projectionOutline (t : Nat) (w : ConnRef) (te : TurnEvent) :
    EventOutline projectionLayer t w te where
  late := Late te
  mine := fun s => ∃ a, s.assignments.find te.turnID = some a
  stored := Stored te
  ackable := Projected te
  late_grows := Late.grows
  mine_grows := fun grows ⟨a, found⟩ =>
    have ⟨a', found', _⟩ := grows.rows _ a found
    ⟨a', found'⟩
  stored_grows := Stored.grows
  resolve_late := by
    rintro input s ⟨assigned, ready⟩ resolved
    obtain ⟨a, found⟩ := Option.isSome_iff_exists.mp assigned
    have inactive := (resolveActiveAssignment_error resolved).2 a found
    exact ⟨⟨a, found, inactive⟩, fun unknown => ⟨⟨a, found, .inl inactive⟩, ready unknown⟩⟩
  resolve_mine := by
    rintro input s a base held ⟨_, ready⟩ resolved gen
    obtain ⟨found, _⟩ := resolveActiveAssignment_ok.mp resolved
    exact ⟨⟨a, found⟩, fun unknown => ack_projection fun s₁ moved base' =>
      unprojected_mine held found gen (ready unknown) moved base'⟩
  append := by
    rintro input s s' answer kind ⟨a, found⟩ admitted mapped ran
    refine ⟨fun inactive => ?_, fun applied same => appendTurnEvent_stored admitted (same ▸ ran)⟩
    rcases appendTurnEvent_cases ran with
      ⟨err, same, rfl, shut⟩ | ⟨_, _, _, ⟨same, _⟩ | ⟨same, _⟩⟩
    · cases same.symm.trans inactive
      exact ⟨⟨a, found, shut rfl a found⟩, fun unknown => by rw [mapped] at unknown; cases unknown⟩
    · cases same.symm.trans inactive
    · cases same.symm.trans inactive
  unknown := fun late unknown => late.2 unknown
  audit := fun late admitted ran _ => appendAfterTerminalEvent_projected late admitted ran
  plain := by
    intro s stored unreported
    refine ⟨stored.1, eq_nil_iff_forall_not_mem.mpr fun te₀ later => ?_⟩
    obtain ⟨_, _, _, reported, _⟩ := mem_unprojected.mp later
    rw [stored.2 te₀ later, unreported] at reported
    cases reported
  record := fun stored _ went ran => recordCompletionReport_projected stored went ran
  ackable_grows := Projected.grows
  ack := fun projected => ack_projection fun _ moved _ => (projected.grows moved.toGrows).2

end Outline

theorem projectionLayer_proved : service.Proved baseRules projectionLayer :=
  projectionLayer_watched.of_outline projectionOutline

/-! ### Cumulative ACKs and projections -/

/-- **Under the guard an ACK covers projected completions only**: each completion that was accepted on an
active assignment, at or below an ACK that answers an event of its turn, was projected before that ACK. -/
theorem ack_projected {s₀ : State} {c : Config Label Input State} {w w' : ConnRef} {turnID : TurnID}
    {n : Nat} {te te₀ : TurnEvent} {earlier : List Obs} (initial : s₀.Initial)
    (reached : service.Reaches projectionGuard s₀ c)
    (sent : (.sent w (.eventAck turnID n) (some te) :: earlier) <:+ c.shared.trace)
    (accepted : .appended w' te₀ ∈ earlier) (completion : te₀.kind.report.isSome)
    (turn : te₀.turnID = turnID) (below : te₀.sequence ≤ n) : .projected te₀ ∈ earlier := by
  have none : AcksProjected s₀ := fun w turnID n te earlier suffix => by
    rw [initial.trace] at suffix
    cases suffix_nil.mp suffix
  have covered := (projectionLayer_proved.invariant initial.base none reached).2 w turnID n te earlier
    sent
  by_contra missing
  have member := mem_unprojected.mpr ⟨⟨w', accepted⟩, turn, below, completion, missing⟩
  rw [covered] at member
  cases member

def doneEvent : TurnEvent := ⟨"t", 1, .stepCompletion ⟨"done", "summary", []⟩⟩

def completedEvent : TurnEvent := ⟨"t", 2, .workerOutcome .completed⟩

/-- A completion is recorded, then the outcome is ACKed over it. -/
theorem ack_projected_done : ∃ c earlier, service.Reaches projectionGuard graphPool c ∧
    (.sent firstConn (.eventAck "t" 2) (some completedEvent) :: earlier) <:+ c.shared.trace ∧
    .appended firstConn doneEvent ∈ earlier ∧ .projected doneEvent ∈ earlier := by
  obtain ⟨c, reached, sent, accepted⟩ := service.reaches_of_replay projectionGuard graphPool
    (assignTurn graphTurn ++ deliver 6 (.turnEvent doneEvent) 5 ++
      deliver 8 (.turnEvent completedEvent) 6)
    (fun s => s.trace.head? = some (.sent firstConn (.eventAck "t" 2) (some completedEvent)) ∧
      .appended firstConn doneEvent ∈ s.trace.tail)
    (by decide +kernel)
  obtain ⟨earlier, sent⟩ := head?_eq_some_iff.mp sent
  rw [sent] at accepted
  have suffix := suffix_refl c.shared.trace
  nth_rewrite 1 [sent] at suffix
  exact ⟨c, earlier, reached, suffix, accepted,
    ack_projected graphPool_initial reached suffix accepted rfl rfl (by decide)⟩

/-- **An ACK may cover a completion whose projection failed.** `RecordCompletionReport` fails once,
the completion is not ACKed, and the worker's next event, its outcome, is: the ACK covers both. -/
theorem ack_not_always_projected : ¬ ∀ (s₀ : State) (c : Config Label Input State), s₀.Initial →
    service.Reaches .free s₀ c → ∀ w turnID n te earlier,
      (.sent w (.eventAck turnID n) (some te) :: earlier) <:+ c.shared.trace → ∀ w' te₀,
        .appended w' te₀ ∈ earlier → te₀.kind.report.isSome → te₀.turnID = turnID →
          te₀.sequence ≤ n → .projected te₀ ∈ earlier := by
  intro claim
  obtain ⟨c, reached, sent, accepted, missing⟩ := service.reaches_of_replay .free graphPool
    (assignTurn graphTurn ++ deliver 6 (.turnEvent doneEvent) 2 ++ .run 7 { fail := true } ::
      steps 7 1 ++ deliver 8 (.turnEvent completedEvent) 6)
    (fun s => s.trace.head? = some (.sent firstConn (.eventAck "t" 2) (some completedEvent)) ∧
      .appended firstConn doneEvent ∈ s.trace.tail ∧ .projected doneEvent ∉ s.trace.tail)
    (by decide +kernel)
  obtain ⟨earlier, sent⟩ := head?_eq_some_iff.mp sent
  rw [sent] at accepted missing
  have suffix := suffix_refl c.shared.trace
  nth_rewrite 1 [sent] at suffix
  exact missing (claim graphPool c graphPool_initial reached _ _ _ _ _ suffix _ _ accepted rfl rfl
    (by decide))

end Iterabase.Dispatch
