/-
**Durable dispatch — what each transaction does.**

One specification per transaction, which is all the later proofs use of it.

* `fenceWhere_cases`, `appendTurnEvent_cases`, `appendAfterTerminalEvent_cases`,
  `recordCompletionReport_cases`, `settle_cases`, `createAssignment_cases`, `prepareTurn_cases` — the
  answers of each transaction, and the state each one leaves.
* `Internal` — what all transactions on turns leave alone.
-/

import Iterabase.Dispatch.Grows

namespace Iterabase.Dispatch

open Conc List Table State

variable {s s' : State} {a : Assignment} {te : TurnEvent} {turnID : TurnID} {p : Assignment → Bool}
  {input : Input} {pick : Nat} {w : ConnRef}

/-- A transaction that makes no assignment row. -/
structure StoreStep (s s' : State) (new : List Obs) : Prop where
  durable : Durable s s' := by exact {}
  rows : ∀ k a', s'.assignments.find k = some a' →
    ∃ a, s.assignments.find k = some a ∧ a.Becomes a' := by exact fun _ a found => ⟨a, found, .refl a⟩
  conns : s'.conns = s.conns := by rfl
  gen : s'.gen = s.gen := by rfl
  nextConn : s'.nextConn = s.nextConn := by rfl
  trace : s'.trace = new ++ s.trace := by rfl
  named : s.turns.find "" = none → s'.turns.find "" = none := by exact id

variable {s₁ s₂ s₃ : State} {o : Obs} {turn : Turn} {reason : Reason} {isGraph : Bool}
  {advance : Option RunState} {k : TurnID}

namespace StoreStep

theorem refl (s : State) : StoreStep s s [] := {}

theorem trans {new new' : List Obs} (first : StoreStep s₁ s₂ new) (second : StoreStep s₂ s₃ new') :
    StoreStep s₁ s₃ (new' ++ new) where
  durable := first.durable.trans second.durable
  rows := carried_trans (fun becomes' becomes => becomes.trans becomes') second.rows first.rows
  conns := second.conns.trans first.conns
  gen := second.gen.trans first.gen
  nextConn := second.nextConn.trans first.nextConn
  trace := by rw [second.trace, first.trace, append_assoc]
  named := second.named ∘ first.named

theorem observe (honest : o.Honest s) : StoreStep s (s.observe o) [o] where
  durable :=
    { trace := suffix_cons o s.trace
      honest := by
        intro o' member fresh
        rcases mem_cons.mp member with rfl | old
        · exact honest
        · exact absurd old fresh }

theorem assignments {f : Assignment → Assignment} (keeps : ∀ a, (f a).turnID = a.turnID)
    (becomes : ∀ k a, s.assignments.find k = some a → p a → a.Becomes (f a)) : StoreStep s
    { s with assignments := s.assignments.update p f keeps } [] := by
  have edited : ∀ k a, s.assignments.find k = some a → a.Becomes (if p a then f a else a) := by
    intro k a found
    split
    · exact becomes k a found ‹_›
    · exact .refl a
  refine { durable := { rows := fun k a found => ⟨_, ?_, edited k a found⟩ }, rows := fun k a' found => ?_ }
  · rw [find_update, found]
    rfl
  · rw [find_update, Option.map_eq_some_iff] at found
    obtain ⟨a, found, rfl⟩ := found
    exact ⟨a, found, edited k a found⟩

theorem turns {turns : Table Turn.id}
    (becomes : ∀ k u, s.turns.find k = some u → ∃ u', turns.find k = some u' ∧ u.Becomes u')
    (named : s.turns.find "" = none → turns.find "" = none) : StoreStep s { s with turns := turns }
    [] :=
  { durable := { turns := becomes }, named := named }

end StoreStep

/-! ### Assignments -/

theorem resolveActiveAssignment_ok : s.resolveActiveAssignment turnID = .ok a ↔
    s.assignments.find turnID = some a ∧ a.state = .active := by
  unfold resolveActiveAssignment
  constructor
  · intro answer
    split at answer
    · rename_i b found
      split at answer
      · cases answer
        exact ⟨found, ‹_›⟩
      · cases answer
    · cases answer
  · rintro ⟨found, active⟩
    simp only [found, active, if_true]

section Call

variable {α : Type} {answer : Except Err α} {result : Except Err α × State}

/-- **A store call** has no effect or that of its transaction, whatever it answers. -/
theorem call_effect (ran : some (s.call input result) = some (answer, s')) :
    s' = s ∨ ∃ answer', result = (answer', s') := by
  unfold call at ran
  split at ran
  · cases ran
    split
    · exact .inr ⟨_, rfl⟩
    · exact .inl rfl
  · exact .inr ⟨answer, Option.some.inj ran⟩

@[elab_as_elim]
theorem call_keeps {P : State → Prop} (ran : some (s.call input result) = some (answer, s')) (before : P s)
    (after : ∀ {answer'}, result = (answer', s') → P s') : P s' := by
  rcases call_effect ran with rfl | ⟨_, ran⟩
  · exact before
  · exact after ran

/-- What it answers is the transaction's answer, or the call failed. -/
theorem call_answer (ran : some (s.call input result) = some (answer, s')) :
    answer = .error .infrastructure ∨ result = (answer, s') ∧ input.fail = false := by
  unfold call at ran
  split at ran
  · cases ran
    exact .inl rfl
  · rename_i went
    exact .inr ⟨Option.some.inj ran, Bool.eq_false_iff.mpr went⟩

theorem call_ok {a : α} (ran : some (s.call input result) = some (.ok a, s')) : result = (.ok a, s') :=
  ((call_answer ran).resolve_left nofun).1

theorem call_went (went : input.fail = false) : s.call input result = result := by
  simp [call, went]

theorem query_same {read : Except Err α} (ran : some (s.call input (read, s)) = some (answer, s')) :
    s' = s :=
  call_keeps ran rfl fun same => (Prod.mk.inj same).2.symm

end Call

/-- A resolve only reads, and returns the row. -/
theorem resolved_found {answer : Except Err Assignment}
    (ran : some (s.call input (s.resolveActiveAssignment turnID, s)) = some (answer, s')) :
    s' = s ∧ ∀ a, answer = .ok a → s.assignments.find turnID = some a := by
  refine ⟨query_same ran, fun a same => ?_⟩
  subst same
  exact (resolveActiveAssignment_ok.mp (Prod.mk.inj (call_ok ran)).1).1

theorem resolveActiveAssignment_error {err : Err}
    (answer : s.resolveActiveAssignment turnID = .error err) :
    err = .assignmentNotActive ∧ ∀ a, s.assignments.find turnID = some a → a.state ≠ .active := by
  unfold resolveActiveAssignment at answer
  split at answer
  · rename_i a found
    split at answer
    · cases answer
    cases answer
    refine ⟨rfl, fun a' found' => ?_⟩
    cases found.symm.trans found'
    assumption
  · rename_i found
    cases answer
    exact ⟨rfl, fun a' found' => by rw [found] at found'; cases found'⟩

variable {answer : Except Err Assignment}

/-- **A fence** either finds nothing to fence, or fences every row it selects and returns one. -/
theorem fenceWhere_cases (ran : s.fenceWhere p pick = (answer, s')) :
    (answer = .error .notFound ∧ s' = s ∧ ∀ k a, s.assignments.find k = some a → p a = false) ∨
    ∃ a, answer = .ok { a with state := .fenced } ∧ s.assignments.find a.turnID = some a ∧
      p a = true ∧ s' = { s with
        assignments := s.assignments.update p (fun r => { r with state := .fenced }) fun _ => rfl } := by
  unfold fenceWhere at ran
  dsimp only at ran
  split at ran
  · rename_i missed
    cases ran
    refine .inl ⟨rfl, rfl, fun k a found => ?_⟩
    rw [getElem?_eq_none_iff] at missed
    -- an index modulo the length is past the end only of an empty list
    have empty : (s.assignments.rows.filter p).length = 0 := by
      by_contra filled
      exact absurd (Nat.mod_lt pick (Nat.pos_of_ne_zero filled)) (Nat.not_lt_of_le missed)
    by_contra selected
    have member : a ∈ s.assignments.rows.filter p :=
      mem_filter.mpr ⟨find_mem found, by simpa using selected⟩
    rw [eq_nil_of_length_eq_zero empty] at member
    cases member
  · rename_i a hit
    cases ran
    obtain ⟨member, selected⟩ := mem_filter.mp (mem_of_getElem? hit)
    exact .inr ⟨a, rfl, find_of_mem member, selected, rfl⟩

theorem fenceWhere_step (ran : s.fenceWhere p pick = (answer, s')) : StoreStep s s' [] := by
  rcases fenceWhere_cases ran with ⟨_, rfl, _⟩ | ⟨a, _, _, _, rfl⟩
  · exact .refl _
  · exact .assignments _ fun _ a _ _ => { inactive := fun _ => by simp }

/-- **The reconnect fence**, whose answer may be lost. -/
theorem reconnect_cases (ran : some (s.call input
      ((s.fenceWorkerGeneration w.poolID w.workerID input.pick).1,
        (s.fenceWorkerGeneration w.poolID w.workerID input.pick).2.observe (.fencedFor w))) =
      some (answer, s')) :
    answer = .error .infrastructure ∧ s' = s ∨ ∃ answer' middle,
      s.fenceWorkerGeneration w.poolID w.workerID input.pick = (answer', middle) ∧
      s' = middle.observe (.fencedFor w) ∧ (answer = .error .infrastructure ∨ answer = answer') := by
  unfold call at ran
  split at ran
  · cases ran
    split
    · exact .inr ⟨_, _, rfl, rfl, .inl rfl⟩
    · exact .inl ⟨rfl, rfl⟩
  · cases ran
    exact .inr ⟨_, _, rfl, rfl, .inr rfl⟩

theorem terminalizeAssignment_step (s : State) (turnID : TurnID) :
    StoreStep s (s.terminalizeAssignment turnID) [] :=
  .assignments _ fun _ a _ _ => { inactive := fun _ => by simp }

variable {refused : Option Err}

theorem createAssignment_cases {answer : Except Err Unit}
    (ran : s.createAssignment a refused = (answer, s')) : (∃ err, answer = .error err ∧ s' = s) ∨
    ∃ rows, answer = .ok () ∧ s.assignments.insert a = some rows ∧
    s' = ({ s with assignments := rows }).observe (.assigned a) := by
  unfold createAssignment at ran
  split at ran
  · cases ran
    exact .inl ⟨_, rfl, rfl⟩
  split at ran
  · cases ran
    exact .inl ⟨_, rfl, rfl⟩
  rename_i rows inserted
  cases ran
  exact .inr ⟨rows, rfl, inserted, rfl⟩

theorem createAssignmentFor_cases {answer : Except Err Unit}
    (ran : s.createAssignmentFor w a refused = (answer, s')) : (∃ err, answer = .error err ∧ s' = s) ∨
    ∃ rows, answer = .ok () ∧ s.assignments.insert a = some rows ∧
    s' = (({ s with assignments := rows }).observe (.assigned a)).observe
    (.holds w a.turnID ((s.conns.find w.id).bind WorkerConn.reservedBy)) := by
  unfold createAssignmentFor at ran
  split at ran
  · rename_i err middle refusal
    cases ran
    rcases createAssignment_cases refusal with ⟨_, same, rfl⟩ | ⟨_, done, _⟩
    · exact .inl ⟨_, rfl, rfl⟩
    · cases done
  · rename_i middle made
    cases ran
    rcases createAssignment_cases made with ⟨_, failed, _⟩ | ⟨rows, _, inserted, rfl⟩
    · cases failed
    · exact .inr ⟨rows, rfl, inserted, rfl⟩

/-! ### Observations -/

theorem advanceWatermark_step (kind : RuntimeEvent) (found : s.assignments.find te.turnID = some a)
    (past : a.highestAppliedSequence ≤ te.sequence) : StoreStep s (s.advanceWatermark a te kind) [] ∧
    (s.advanceWatermark a te kind).turns = s.turns ∧
    (s.advanceWatermark a te kind).assignments.find te.turnID =
    some { a with highestAppliedSequence := te.sequence } := by
  refine ⟨?_, rfl, ?_⟩
  · have written : StoreStep s (s.appendEvent a.runID (some te.turnID) kind (some te.kind)) [] := {}
    refine written.trans (.assignments _ fun k b found' selected => ?_)
    have same : b.turnID = te.turnID := of_decide_eq_true selected
    have locked : b = a := by
      have found'' := find_of_mem (find_mem found')
      rw [same] at found''
      exact Option.some.inj (found''.symm.trans found)
    subst locked
    exact { watermark := past }
  · unfold advanceWatermark appendEvent
    rw [find_update, found]
    simp [find_key found]

variable {kind : RuntimeEvent}

/-- **The common tail of the two appends**: a replay, a gap, or the event is committed. -/
theorem applySequence_cases {answer : Except Err Bool}
    (ran : s.applySequence a te kind o = (answer, s')) :
    (answer = .ok false ∧ s' = s ∧ te.sequence ≤ a.highestAppliedSequence) ∨
    (answer = .error .outOfOrderSequence ∧ s' = s) ∨
    (answer = .ok true ∧ te.sequence = a.highestAppliedSequence + 1 ∧
      s' = (s.advanceWatermark a te kind).observe o) := by
  unfold applySequence at ran
  split at ran
  · cases ran
    exact .inl ⟨rfl, rfl, ‹_›⟩
  split at ran
  · cases ran
    exact .inr (.inl ⟨rfl, rfl⟩)
  rename_i next
  cases ran
  exact .inr (.inr ⟨rfl, not_not.mp next, rfl⟩)

theorem committed_step (kind : RuntimeEvent) (found : s.assignments.find te.turnID = some a)
    (next : te.sequence = a.highestAppliedSequence + 1) (honest : o.Honest s) :
    StoreStep s ((s.advanceWatermark a te kind).observe o) [o] ∧
    ((s.advanceWatermark a te kind).observe o).assignments.find te.turnID =
    some { a with highestAppliedSequence := te.sequence } := by
  obtain ⟨step, _, found'⟩ := advanceWatermark_step kind found (by omega)
  have watched : StoreStep s (s.observe o) [o] := .observe honest
  have durable : Durable s ((s.advanceWatermark a te kind).observe o) :=
    { rows := step.durable.rows, trace := watched.durable.trace, honest := watched.durable.honest }
  exact ⟨{ durable := durable, rows := step.rows }, found'⟩

theorem appendTurnEvent_cases
    {answer : Except Err Bool} (ran : s.appendTurnEvent w te kind = (answer, s')) :
    (∃ err, answer = .error err ∧ s' = s ∧ (err = .assignmentNotActive →
      ∀ a, s.assignments.find te.turnID = some a → a.state ≠ .active)) ∨
    ∃ a, s.assignments.find te.turnID = some a ∧ a.state = .active ∧
      ((answer = .ok false ∧ s' = s ∧ te.sequence ≤ a.highestAppliedSequence) ∨
        (answer = .ok true ∧ te.sequence = a.highestAppliedSequence + 1 ∧
          s' = (s.advanceWatermark a te kind).observe (.appended w te))) := by
  unfold appendTurnEvent at ran
  split at ran
  · rename_i err resolved
    cases ran
    exact .inl ⟨err, rfl, rfl, fun _ => (resolveActiveAssignment_error resolved).2⟩
  · rename_i a resolved
    obtain ⟨found, active⟩ := resolveActiveAssignment_ok.mp resolved
    rcases applySequence_cases ran with replay | ⟨rfl, rfl⟩ | applied
    · exact .inr ⟨a, found, active, .inl replay⟩
    · exact .inl ⟨_, rfl, rfl, nofun⟩
    · exact .inr ⟨a, found, active, .inr applied⟩

theorem appended_honest (found : s.assignments.find te.turnID = some a) (active : a.state = .active)
    (next : te.sequence = a.highestAppliedSequence + 1) : (Obs.appended w te).Honest s := by
  intro b found'
  cases found.symm.trans found'
  exact ⟨active, by omega⟩

theorem appendAfterTerminalEvent_cases {answer : Except Err Bool}
    (ran : s.appendAfterTerminalEvent w te kind = (answer, s')) :
    (answer = .error .notFound ∧ s' = s.observe (.unowned w te) ∧
      ∀ a, s.assignments.find te.turnID = some a →
        ¬ (a.poolID = w.poolID ∧ a.workerID = w.workerID)) ∨
    ∃ a, s.assignments.find te.turnID = some a ∧ a.poolID = w.poolID ∧ a.workerID = w.workerID ∧
      ((answer = .ok false ∧ s' = s ∧ te.sequence ≤ a.highestAppliedSequence) ∨
        (answer = .error .outOfOrderSequence ∧ s' = s) ∨
        (answer = .ok true ∧ te.sequence = a.highestAppliedSequence + 1 ∧
          s' = (s.advanceWatermark a te kind).observe (.audited w te))) := by
  unfold appendAfterTerminalEvent at ran
  split at ran
  · rename_i missing
    cases ran
    exact .inl ⟨rfl, rfl, fun a found => by rw [missing] at found; cases found⟩
  rename_i a found
  split at ran
  · rename_i owned
    exact .inr ⟨a, found, owned.1, owned.2, applySequence_cases ran⟩
  rename_i other
  cases ran
  refine .inl ⟨rfl, rfl, fun b found' => ?_⟩
  cases found.symm.trans found'
  exact other

variable {report : CompletionReport}

/-! ### Projections -/

theorem recordReport_cases {answer : Except Err Unit}
    (ran : s.recordReport turnID report input = (answer, s')) :
    (∃ err, answer = .error err ∧ permanent err ∧ s' = s) ∨
    ∃ nodes, answer = .ok () ∧ s' = { s with nodes := nodes }.observe (.reported turnID) := by
  unfold recordReport at ran
  split at ran
  · cases ran
    exact .inl ⟨_, rfl, rfl, rfl⟩
  split at ran
  · cases ran
    exact .inl ⟨_, rfl, rfl, rfl⟩
  repeat' split at ran
  all_goals cases ran
  all_goals first
    | exact .inl ⟨_, rfl, rfl, rfl⟩
    | exact .inr ⟨_, rfl, rfl⟩

/-- **`RecordCompletionReport`** projects its event if its answer is returned. -/
theorem recordCompletionReport_cases {answer : Except Err Unit}
    (ran : s.recordCompletionReport te report input = (answer, s')) :
    ∃ new, StoreStep s s' new ∧ s'.turns = s.turns ∧ s'.assignments = s.assignments ∧
    (input.fail = false → .projected te ∈ new) ∧
    ∀ o ∈ new, o = .projected te ∨ o = .reported te.turnID := by
  rcases reported : s.recordReport te.turnID report input with ⟨answer', middle⟩
  simp only [recordCompletionReport, reported] at ran
  have recorded : ∃ new, StoreStep s middle new ∧ middle.turns = s.turns ∧
      middle.assignments = s.assignments ∧ ∀ o ∈ new, o = .reported te.turnID := by
    rcases recordReport_cases reported with ⟨_, _, _, rfl⟩ | ⟨nodes, _, rfl⟩
    · exact ⟨[], .refl _, rfl, rfl, nofun⟩
    · have recorded : StoreStep s { s with nodes := nodes } [] := {}
      exact ⟨_, recorded.trans (.observe (o := .reported te.turnID) trivial), rfl, rfl, by simp⟩
  obtain ⟨new, step, turns, rows, kind⟩ := recorded
  cases ran
  split
  · rename_i failed
    exact ⟨new, step, turns, rows, by simp [failed], fun o member => .inr (kind o member)⟩
  · refine ⟨_, step.trans (.observe (o := .projected te) trivial), turns, rows, by simp, fun o member => ?_⟩
    exact (mem_cons.mp member).imp_right (kind o)

/-! ### What turns and runs are about -/

namespace State

/-- `highest_applied_sequence`; a turn that was never assigned has none. -/
def mark (s : State) (turnID : TurnID) : Nat :=
  ((s.assignments.find turnID).map Assignment.highestAppliedSequence).getD 0

/-- The rows with a worker's event of a turn, oldest first. -/
def streamed (s : State) (turnID : TurnID) : List EventRow :=
  (s.events.filter fun e => e.turnID = some turnID ∧ e.payload.isSome).reverse

def poolOf (s : State) (runID : RunID) : Option PoolID := (s.runs.find runID).bind Run.poolID

end State

/-- What the proofs track is the same in both states. -/
structure SameCore (s s' : State) : Prop where
  assignments : s'.assignments = s.assignments := by rfl
  turns : s'.turns = s.turns := by rfl
  conns : s'.conns = s.conns := by rfl
  trace : s'.trace = s.trace := by rfl
  gen : s'.gen = s.gen := by rfl
  nextConn : s'.nextConn = s.nextConn := by rfl
  capacities : s'.capacities = s.capacities := by rfl
  gates : s'.workspaceGated = s.workspaceGated := by rfl
  streamed : ∀ turnID, s'.streamed turnID = s.streamed turnID := by exact fun _ => rfl
  pools : ∀ id, s'.poolOf id = s.poolOf id := by exact fun _ => rfl

namespace SameCore

theorem refl (s : State) : SameCore s s := {}

theorem trans (first : SameCore s₁ s₂) (second : SameCore s₂ s₃) : SameCore s₁ s₃ :=
  ⟨second.assignments.trans first.assignments, second.turns.trans first.turns,
    second.conns.trans first.conns, second.trace.trans first.trace, second.gen.trans first.gen,
    second.nextConn.trans first.nextConn, second.capacities.trans first.capacities,
    second.gates.trans first.gates, fun k => (second.streamed k).trans (first.streamed k),
    fun id => (second.pools id).trans (first.pools id)⟩

theorem step (same : SameCore s s') : StoreStep s s' [] where
  durable :=
    { rows := fun _ a found => ⟨a, same.assignments ▸ found, .refl a⟩
      turns := fun _ u found => ⟨u, same.turns ▸ found, .refl u⟩
      trace := same.trace ▸ suffix_refl _
      honest := fun _ member fresh => absurd (same.trace ▸ member) fresh
      nextConn := le_of_eq same.nextConn.symm }
  rows := fun _ a found => ⟨a, same.assignments ▸ found, .refl a⟩
  conns := same.conns
  gen := same.gen
  nextConn := same.nextConn
  trace := same.trace
  named := fun named => same.turns ▸ named

theorem setStep (s : State) (stepID : StepID) (expected target : StepState) :
    SameCore s (s.setStep stepID expected target) := {}

theorem nodes (s : State) (nodes : Table NodeExecution.id) : SameCore s { s with nodes := nodes } := {}

/-- A row without a worker's event. -/
theorem appendEvent (s : State) (runID : RunID) (turnID : Option TurnID) (kind : RuntimeEvent) :
    SameCore s (s.appendEvent runID turnID kind none) := by
  refine { streamed := fun turnID => ?_ }
  unfold State.streamed State.appendEvent
  rw [filter_cons_of_neg (by simp)]

theorem setRun (s : State) (runID : RunID) (allowed : RunState → Bool) (target : RunState) :
    SameCore s (s.setRun runID allowed target) := by
  refine { pools := fun id => ?_ }
  have found := find_update s.runs (fun r => r.id = runID ∧ allowed r.state)
    (fun r => { r with state := target }) (fun _ => rfl) id
  simp only [State.poolOf, State.setRun, found]
  cases s.runs.find id with
  | none => rfl
  | some run =>
    simp only [Option.map_some, Option.bind_some]
    split <;> rfl

end SameCore

theorem settleStep_same (s : State) (turn : Turn) (reason : Reason) :
    SameCore s (s.settleStep turn reason) := by
  unfold settleStep
  repeat' split
  · exact .refl s
  · exact .refl s
  · exact (SameCore.setStep s _ _ _).trans (.appendEvent _ _ _ _)
  · exact (SameCore.setStep s _ _ _).trans (.appendEvent _ _ _ _)

theorem advanceRunAfterSettle_same (s : State) (runID : RunID) (reason : Reason) :
    SameCore s (s.advanceRunAfterSettle runID reason).2 := by
  unfold advanceRunAfterSettle
  repeat' split
  · exact (SameCore.setRun s _ _ _).trans (.appendEvent _ _ _ _)
  · exact (SameCore.setRun s _ _ _).trans (.appendEvent _ _ _ _)
  · exact (SameCore.setRun s _ _ _).trans (.appendEvent _ _ _ _)
  · exact (SameCore.setStep s _ _ _).trans (.appendEvent _ _ _ _)

theorem settleTurn_step (target : TurnState) (reason : Reason)
    (found : s.turns.find turnID = some turn) (running : turn.state = .running) :
    StoreStep s (s.settleTurn turnID target reason) [.settled turnID reason] ∧
    (s.settleTurn turnID target reason).assignments = s.assignments ∧ ∀ k u, s.turns.find k = some u →
    (s.settleTurn turnID target reason).turns.find k =
    some (if k = turnID then { u with state := target } else u) := by
  have after : ∀ k u, s.turns.find k = some u →
      (s.settleTurn turnID target reason).turns.find k =
        some (if k = turnID then { u with state := target } else u) := by
    intro k u found'
    unfold settleTurn observe
    rw [find_update, found']
    simp [find_key found']
  refine ⟨?_, rfl, after⟩
  have written : StoreStep s { s with turns := (s.settleTurn turnID target reason).turns } [] := by
    refine .turns (fun k u found' => ⟨_, after k u found', ?_⟩) fun missing => ?_
    · split
      · rename_i same
        subst same
        cases found.symm.trans found'
        exact ⟨rfl, fun settled => absurd running settled⟩
      · exact .refl u
    · unfold settleTurn observe
      rw [find_update, missing]
      rfl
  exact written.trans (.observe (o := .settled turnID reason) trivial)

/-- **A settlement** fails, finds the turn settled before, or settles a running turn; it settles it
as aborted exactly where the reason says so. -/
theorem settle_cases {answer : Except Err RunState}
    (ran : s.settle isGraph turnID reason advance = (answer, s')) :
    (∃ err, answer = .error err ∧ s' = s ∧ (err = .invalidTransition →
      ∃ u, s.turns.find turnID = some u ∧ u.state ≠ .running)) ∨
    ∃ runState turn target, answer = .ok runState ∧ s.turns.find turnID = some turn ∧
      turn.state = .running ∧ target ≠ .running ∧ (target = .aborted ↔ reason = .aborted) ∧
      SameCore (s.settleTurn turnID target reason) s' := by
  unfold settle at ran
  split at ran
  · unfold completeTurn at ran
    split at ran
    · rename_i turn node found _
      split at ran
      · cases ran
        exact .inl ⟨_, rfl, rfl, fun _ => ⟨turn, found, ‹_›⟩⟩
      rename_i running
      split at ran
      · by_cases aborted : reason = .aborted
        · simp only [if_pos aborted] at ran
          cases ran
          exact .inr ⟨_, turn, .aborted, rfl, found, not_not.mp running, by simp,
            by simp [aborted], (SameCore.nodes _ _).trans (.setRun _ _ _ _)⟩
        · simp only [if_neg aborted] at ran
          cases ran
          exact .inr ⟨_, turn, .failed, rfl, found, not_not.mp running, by simp,
            by simp [aborted], (SameCore.nodes _ _).trans (.setRun _ _ _ _)⟩
      · rename_i kept
        split at ran
        · cases ran
          exact .inl ⟨_, rfl, rfl, nofun⟩
        cases ran
        refine .inr ⟨_, turn, .succeeded, rfl, found, not_not.mp running, by simp, ?_,
          (SameCore.nodes _ _).trans (.setRun _ _ _ _)⟩
        simp only [not_or, not_not] at kept
        simp [kept.1]
    · cases ran
      exact .inl ⟨_, rfl, rfl, nofun⟩
  · unfold settleTurnAndAdvance at ran
    split at ran
    · cases ran
      exact .inl ⟨_, rfl, rfl, nofun⟩
    rename_i turn found
    split at ran
    · cases ran
      exact .inl ⟨_, rfl, rfl, fun _ => ⟨turn, found, ‹_›⟩⟩
    rename_i running
    cases ran
    refine .inr ⟨_, turn, State.turnStateForReason reason, rfl, found, not_not.mp running, ?_, ?_,
      ?_⟩
    · cases reason <;> simp [turnStateForReason]
    · cases reason <;> simp [turnStateForReason]
    · exact ((SameCore.appendEvent _ _ _ _).trans (settleStep_same _ turn reason)).trans
        (advanceRunAfterSettle_same _ turn.runID reason)

theorem settled_step {target : TurnState} (found : s.turns.find turnID = some turn)
    (running : turn.state = .running) (same : SameCore (s.settleTurn turnID target reason) s') :
    StoreStep s s' [.settled turnID reason] ∧ s'.assignments = s.assignments ∧ ∀ k u,
    s.turns.find k = some u →
    s'.turns.find k = some (if k = turnID then { u with state := target } else u) := by
  obtain ⟨step, rows, after⟩ := settleTurn_step target reason found running
  refine ⟨step.trans same.step, same.assignments.trans rows, fun k u found' => ?_⟩
  rw [same.turns]
  exact after k u found'

variable {runID : RunID}

/-- **A turn is prepared** unless it is there; then it is returned if it is the run's. -/
theorem prepareTurn_cases {answer : Except Err Turn}
    (ran : s.prepareTurn runID input = (answer, s')) :
    (∃ err, answer = .error err ∧ s' = s) ∨
    (∃ turn, answer = .ok turn ∧ s.turns.find turn.id = some turn ∧ turn.runID = runID ∧ s' = s) ∨
    (answer = .ok input.turn ∧ input.turn.runID = runID ∧ input.turn.id ≠ "" ∧
      s.turns.find input.turn.id = none ∧ ∃ turns nodes, s.turns.insert input.turn = some turns ∧
        s' = { s with turns := turns, nodes := nodes }) := by
  unfold prepareTurn at ran
  split at ran
  · rename_i turn found
    split at ran
    · rename_i same
      cases ran
      exact .inr (.inl ⟨turn, rfl, find_of_mem (find_mem found), same, rfl⟩)
    · cases ran
      exact .inl ⟨_, rfl, rfl⟩
  rename_i missing
  split at ran
  · cases ran
    exact .inl ⟨_, rfl, rfl⟩
  rename_i allowed
  rw [not_or, not_or, not_not, not_not] at allowed
  split at ran
  · cases ran
    exact .inl ⟨_, rfl, rfl⟩
  · rename_i turns inserted
    cases ran
    exact .inr (.inr ⟨rfl, allowed.2.1, allowed.1, missing, turns, _, inserted, rfl⟩)

theorem prepareTurn_step {answer : Except Err Turn} (ran : s.prepareTurn runID input = (answer, s')) :
    StoreStep s s' [] := by
  rcases prepareTurn_cases ran with
    ⟨_, _, rfl⟩ | ⟨_, _, _, _, rfl⟩ | ⟨_, _, allowed, missing, turns, nodes, inserted, rfl⟩
  · exact .refl _
  · exact .refl _
  have started : StoreStep s { s with turns := turns } [] := by
    refine .turns (fun k u found => ⟨u, ?_, .refl u⟩) fun named => ?_
    · rw [find_insert inserted, if_neg, found]
      rintro rfl
      rw [missing] at found
      cases found
    · rw [find_insert inserted, if_neg allowed, named]
  exact started.trans (SameCore.nodes _ nodes).step

theorem observeWorkspaceCapacity_eq (s : State) (poolID : PoolID) (ratio : Rat) :
    ∃ capacities, (s.observeWorkspaceCapacity poolID ratio).2 = { s with capacities } := by
  unfold observeWorkspaceCapacity
  split
  · dsimp only
    split <;> exact ⟨_, rfl⟩
  · exact ⟨_, rfl⟩

/-! ### The state of a row -/

def RowInactive (turnID : TurnID) (s : State) : Prop :=
  ∃ a, s.assignments.find turnID = some a ∧ a.state ≠ .active

theorem RowInactive.durable (inactive : RowInactive turnID s)
    (durable : Durable s s') : RowInactive turnID s' := by
  obtain ⟨a, found, stopped⟩ := inactive
  obtain ⟨a', found', becomes⟩ := durable.rows _ a found
  exact ⟨a', found', becomes.inactive stopped⟩

def RowActive (turnID : TurnID) (s : State) : Prop :=
  ∃ a, s.assignments.find turnID = some a ∧ a.state = .active

/-- A fence leaves inactive every row it would select while active. -/
theorem fenceWhere_inactive {b : Assignment} (ran : s.fenceWhere p pick = (answer, s'))
    (found : s.assignments.find k = some b) (selects : b.state = .active → p b = true) :
    RowInactive k s' := by
  rcases fenceWhere_cases ran with ⟨_, rfl, missed⟩ | ⟨_, _, _, _, rfl⟩
  · refine ⟨b, found, fun active => ?_⟩
    have unselected := missed k b found
    rw [selects active] at unselected
    cases unselected
  · refine ⟨if p b then { b with state := .fenced } else b, ?_, ?_⟩
    · rw [find_update, found]
      rfl
    · split
      · simp
      · rename_i unselected
        exact fun active => unselected (selects active)

theorem fenceWhere_returned (ran : s.fenceWhere p pick = (.ok a, s')) : RowInactive a.turnID s' := by
  rcases fenceWhere_cases ran with ⟨missed, _⟩ | ⟨b, returned, found, selected, _⟩
  · cases missed
  · cases returned
    exact fenceWhere_inactive ran found fun _ => selected

theorem fenceWhere_keeps (ran : s.fenceWhere p pick = (answer, s'))
    (found : s.assignments.find k = some a) (unselected : ¬ p a) :
    s'.assignments.find k = some a := by
  rcases fenceWhere_cases ran with ⟨_, rfl, _⟩ | ⟨_, _, _, _, rfl⟩
  · exact found
  rw [find_update, found]
  simp [unselected]

theorem terminalizeAssignment_keeps {turnID : TurnID} (found : s.assignments.find k = some a)
    (other : k ≠ turnID) : (s.terminalizeAssignment turnID).assignments.find k = some a := by
  unfold terminalizeAssignment
  rw [find_update, found]
  simp [find_key found, other]

theorem advanceWatermark_rows
    (live : RowActive turnID s) : RowActive turnID (s.advanceWatermark a te kind) := by
  obtain ⟨b, found, active⟩ := live
  unfold advanceWatermark appendEvent
  refine ⟨if b.turnID = te.turnID then { b with highestAppliedSequence := te.sequence } else b, ?_, ?_⟩
  · rw [find_update, found]
    simp
  · split <;> exact active

theorem prepareTurn_rows {answer : Except Err Turn}
    (ran : s.prepareTurn runID input = (answer, s')) : s'.assignments = s.assignments := by
  rcases prepareTurn_cases ran with
    ⟨_, _, rfl⟩ | ⟨_, _, _, _, rfl⟩ | ⟨_, _, _, _, _, _, _, rfl⟩ <;> rfl

/-! ### Transactions on turns -/

/-- An observation of what happened to a turn; it is of no connection. -/
def Obs.Internal : Obs → Prop
  | .settled _ _ | .projected _ | .reported _ => True
  | _ => False

/-- A transaction that settles, fences, records or prepares turns: it makes no row, and what streams,
gates and runs' pools rest on is as it was. -/
structure Internal (s s' : State) : Prop where
  step : ∃ new, StoreStep s s' new ∧ ∀ o ∈ new, o.Internal
  marks : ∀ turnID, s'.mark turnID = s.mark turnID := by exact fun _ => rfl
  capacities : s'.capacities = s.capacities := by rfl
  gates : s'.workspaceGated = s.workspaceGated := by rfl
  streamed : ∀ turnID, s'.streamed turnID = s.streamed turnID := by exact fun _ => rfl
  pools : ∀ id, s'.poolOf id = s.poolOf id := by exact fun _ => rfl

namespace Internal

theorem of_same (same : SameCore s s') : Internal s s' where
  step := ⟨[], same.step, by simp⟩
  marks := fun _ => by rw [mark, mark, same.assignments]
  capacities := same.capacities
  gates := same.gates
  streamed := same.streamed
  pools := same.pools

theorem refl (s : State) : Internal s s := .of_same (.refl s)

theorem observe (internal : Internal s s') (turn : o.Internal) : Internal s (s'.observe o) := by
  obtain ⟨new, step, inner⟩ := internal.step
  have honest : o.Honest s' := by cases o <;> trivial
  refine ⟨⟨o :: new, step.trans (.observe honest), fun o' member => ?_⟩, internal.marks,
    internal.capacities, internal.gates, internal.streamed, internal.pools⟩
  rcases mem_cons.mp member with rfl | there
  · exact turn
  · exact inner o' there

theorem update (f : Assignment → Assignment) (keeps : ∀ a, (f a).turnID = a.turnID)
    (marks : ∀ a, (f a).highestAppliedSequence = a.highestAppliedSequence)
    (step : StoreStep s { s with assignments := s.assignments.update p f keeps } []) :
    Internal s { s with assignments := s.assignments.update p f keeps } := by
  refine { step := ⟨[], step, by simp⟩, marks := fun turnID => ?_ }
  unfold mark
  rw [find_update, Option.map_map]
  congr 2
  funext a
  simp only [Function.comp_apply]
  split
  · exact marks a
  · rfl

theorem fence (ran : s.fenceWhere p pick = (answer, s')) : Internal s s' := by
  have step := fenceWhere_step ran
  rcases fenceWhere_cases ran with ⟨_, rfl, _⟩ | ⟨_, _, _, _, rfl⟩
  · exact .refl _
  · exact .update _ _ (fun _ => rfl) step

theorem terminalize (s : State) (turnID : TurnID) : Internal s (s.terminalizeAssignment turnID) :=
  .update _ _ (fun _ => rfl) (terminalizeAssignment_step s turnID)

theorem settle {answer : Except Err RunState}
    (ran : s.settle isGraph turnID reason advance = (answer, s')) : Internal s s' := by
  rcases settle_cases ran with ⟨_, _, rfl, _⟩ | ⟨_, _, _, _, found, running, _, _, same⟩
  · exact .refl _
  obtain ⟨step, rows, _⟩ := settled_step found running same
  refine ⟨⟨_, step, fun o member => ?_⟩, fun _ => by rw [mark, mark, rows],
    same.capacities, same.gates, same.streamed, same.pools⟩
  rw [mem_singleton.mp member]
  trivial

theorem record {answer : Except Err Unit}
    (ran : s.recordCompletionReport te report input = (answer, s')) : Internal s s' := by
  rcases reported : s.recordReport te.turnID report input with ⟨answer', middle⟩
  simp only [recordCompletionReport, reported] at ran
  have recorded : Internal s middle := by
    rcases recordReport_cases reported with ⟨_, _, _, rfl⟩ | ⟨nodes, _, rfl⟩
    · exact .refl _
    · exact (Internal.of_same (.nodes s nodes)).observe (o := .reported te.turnID) trivial
  cases ran
  split
  · exact recorded
  · exact recorded.observe trivial

theorem prepare {answer : Except Err Turn} (ran : s.prepareTurn runID input = (answer, s')) :
    Internal s s' := by
  have step := prepareTurn_step ran
  rcases prepareTurn_cases ran with
    ⟨_, _, rfl⟩ | ⟨_, _, _, _, rfl⟩ | ⟨_, _, _, _, _, _, _, rfl⟩
  · exact .refl _
  · exact .refl _
  · exact { step := ⟨[], step, by simp⟩ }

end Internal

end Iterabase.Dispatch
