/-
**Repeated effects are confirmed.**

A visit that repeats a node waits until a customer has confirmed the effects of the earlier visits, and
a revision those of the attempts before it. What has to be confirmed is read from the ledger of the tool
gateway, which goes on while the engine reads it.

* `repeats_confirmed_iff` — **a repetition is confirmed in full iff none of the repeated writes was
  still on its way.**
-/

import Iterabase.Work.Commands
import Iterabase.Work.Routing

namespace Iterabase.Work

open Conc Data Workflow List Option State Table
open Gateway (InvocationID Invocation)

/-! ### What is repeated, and what is confirmed -/

namespace State

/-- What customers have confirmed for an execution. -/
def confirmedFor (s : State) (nodeID : ID) : List InvocationID :=
  (s.timeline.filter fun e => e.nodeExecutionID = some nodeID).flatMap fun e => e.event.confirmed

def writesOf (s : State) (p : NodeExecution → Bool) : List Invocation :=
  s.ledger.rows.rows.filter fun inv => inv.effectClass ≠ .readOnly && (s.executionOf inv).any p

def earlierWrites (s : State) (n : NodeExecution) : List Invocation :=
  s.writesOf fun m => m.attemptID = n.attemptID ∧ m.nodeKey = n.nodeKey ∧ m.visit < n.visit

def itemWrites (s : State) (itemID : ID) : List Invocation :=
  s.writesOf fun m => (s.attempts.find m.attemptID).any fun a => a.workItemID = itemID

end State

/-- The row is, or can still become, `succeeded` or `outcome_unknown`. -/
def MayTakeEffect (ledger : Gateway.Ledger) (id : InvocationID) : Prop :=
  ∃ (statements : List LedgerStatement) (inv : Invocation),
    (statements.foldl (fun ledger statement => statement.apply ledger) ledger).find id = some inv ∧
      (inv.state = .succeeded ∨ inv.state = .outcomeUnknown)

/-! ### The ledger -/

section Ledger

variable {ledger : Gateway.Ledger} {id target : InvocationID} {inv : Invocation} {s : Gateway.State}

theorem updateInvocation_terminal {allowed : Gateway.InvocationState → Bool}
    {f : Invocation → Invocation} {keeps : ∀ inv, (f inv).id = inv.id ∧ (f inv).key = inv.key}
    (opens : ∀ state, allowed state = true → state.isTerminal = false)
    (found : s.ledger.find id = some inv) (terminal : inv.state.isTerminal) :
    (s.updateInvocation target allowed f keeps).2.ledger.find id = some inv := by
  unfold Gateway.State.updateInvocation
  split
  · exact found
  rename_i row present
  split
  · rename_i enabled
    have other : inv.id ≠ target := by
      intro same
      rw [← Gateway.Ledger.find_id found, same, present] at found
      cases found
      rw [opens _ enabled] at terminal
      cases terminal
    rw [Gateway.Ledger.find_update, found]
    simp [other]
  · exact found

theorem not_terminal (state : Gateway.InvocationState) (live : (!state.isTerminal) = true) :
    state.isTerminal = false := Bool.not_eq_true' _ |>.mp live

variable {state : Gateway.InvocationState}

theorem finishInvocation_terminal {result refs error : Option JsonText}
    (found : s.ledger.find id = some inv) (terminal : inv.state.isTerminal) :
    (s.finishInvocation target state result refs error).2.ledger.find id = some inv := by
  unfold Gateway.State.finishInvocation
  split
  · exact found
  rename_i c _
  have kept : (s.updateInvocation target (fun state => !state.isTerminal) c.write
      fun _ => ⟨rfl, rfl⟩).2.ledger.find id = some inv :=
    updateInvocation_terminal not_terminal found terminal
  split
  · rename_i went
    rw [went] at kept
    exact kept
  · rename_i went
    rw [went] at kept
    exact kept

theorem recover_terminal {now : Int} {classes : Gateway.EffectClass → Bool} {error : Json} (found : s.ledger.find id = some inv)
    (terminal : inv.state.isTerminal) :
    (s.recover now classes state error).ledger.find id = some inv := by
  have kept : Gateway.State.orphaned now classes inv = false := by
    simp [Gateway.State.orphaned, terminal]
  rw [Gateway.State.recover, Gateway.Ledger.find_update, found]
  simp [kept]

theorem LedgerStatement.apply_terminal (statement : LedgerStatement)
    (found : ledger.find id = some inv) (terminal : inv.state.isTerminal) :
    (statement.apply ledger).find id = some inv := by
  cases statement with
  | insert thread call new lease =>
    have cases := Gateway.State.insertInvocation_cases { ledger := ledger } thread call new lease
    simp only [apply]
    rcases cases with ⟨same, _⟩ | ⟨_, _, ledger', _, _, inserted, same⟩
    · rw [same]
      exact found
    rw [same]
    obtain ⟨fresh, lookup⟩ := Gateway.Ledger.insert_cases inserted
    have other : new ≠ id := by
      rintro rfl
      change ledger.find new = none at fresh
      rw [found] at fresh
      cases fresh
    exact (lookup id).trans ((if_neg other).trans found)
  | markRunning target lease =>
    refine updateInvocation_terminal (fun state starts => ?_) found terminal
    rw [of_decide_eq_true starts]
    rfl
  | renewDispatchLease target lease => exact updateInvocation_terminal not_terminal found terminal
  | finish target state result refs error => exact finishInvocation_terminal found terminal
  | recoverReadOnly | recoverWrites => exact recover_terminal found terminal

theorem applyAll_terminal (statements : List LedgerStatement) (found : ledger.find id = some inv)
    (terminal : inv.state.isTerminal) :
    (statements.foldl (fun ledger statement => statement.apply ledger) ledger).find id = some inv := by
  induction statements generalizing ledger with
  | nil => exact found
  | cons statement rest ih => exact ih (statement.apply_terminal found terminal)

theorem finish_live (found : ledger.find id = some inv) (live : inv.state.isTerminal = false) :
    ∃ inv', ((LedgerStatement.finish id .succeeded none (some (marshalJSON (.array []))) none).apply
      ledger).find id = some inv' ∧ inv'.state = .succeeded := by
  have written : Gateway.State.columns .succeeded none (some (marshalJSON (.array []))) none =
      .ok ⟨.succeeded, none, .array [], none⟩ := rfl
  simp only [LedgerStatement.apply, Gateway.State.finishInvocation, written,
    Gateway.State.updateInvocation, found, live, Bool.not_false, if_true, Gateway.State.observe,
    Gateway.Ledger.find_update, map_some]
  simp [Gateway.Ledger.find_id found, Gateway.State.Columns.write]

/-- **A row may take effect unless it has failed.** -/
theorem mayTakeEffect_iff (found : ledger.find id = some inv) :
    MayTakeEffect ledger id ↔ inv.state ≠ .failed := by
  constructor
  · rintro ⟨statements, inv', reached, effect⟩ failed
    rw [applyAll_terminal statements found (by rw [failed]; rfl)] at reached
    cases reached
    rw [failed] at effect
    rcases effect with effect | effect <;> cases effect
  · intro possible
    cases terminal : inv.state.isTerminal with
    | true =>
      refine ⟨[], inv, found, ?_⟩
      cases state : inv.state <;> simp_all [Gateway.InvocationState.isTerminal]
    | false =>
      obtain ⟨inv', finished, succeeded⟩ := finish_live found terminal
      exact ⟨[.finish id .succeeded none (some (marshalJSON (.array []))) none], inv', finished,
        .inl succeeded⟩

end Ledger

/-! ### The invariant -/

/-- A resolved confirmation is on the timeline, and what is there has been settled. -/
structure Confirmed (s : State) : Prop where
  disclosed : ∀ b ∈ s.blockers.rows, b.kind = consequenceConfirmation → b.state = .resolved →
    ∀ nodeID, b.nodeExecutionID = some nodeID → ∀ id ∈ b.requiredConsequences, id ∈ s.confirmedFor nodeID
  settled : ∀ nodeID, ∀ id ∈ s.confirmedFor nodeID, ∃ inv, s.ledger.find id = some inv ∧
    inv.state.isTerminal

open Confirmed

variable {id : InvocationID}

variable {ids : List InvocationID} {s : State} {A itemID nodeID : ID} {event : Event} {b : Blocker}
  {turn : Turn}

variable {inv : Invocation}

theorem State.terminal_of_consequential (effect : State.consequential inv) :
    inv.state.isTerminal := by
  obtain ⟨_, state⟩ := of_decide_eq_true effect
  rcases state with state | state <;> rw [state] <;> rfl

theorem State.consequencesForNode_settled {key : String} {exclude : ID}
    (member : id ∈ s.consequencesForNode A key exclude) :
    ∃ inv, s.ledger.find id = some inv ∧ inv.state.isTerminal := by
  obtain ⟨inv, kept, rfl⟩ := mem_map.mp member
  obtain ⟨present, selected⟩ := mem_filter.mp kept
  exact ⟨inv, find_of_mem present,
    terminal_of_consequential (Bool.and_eq_true_iff.mp selected).1⟩

theorem State.mem_confirmedFor_log {attemptID : ID} {nodeID : Option ID} {node : ID} :
    id ∈ (s.log itemID attemptID nodeID event).confirmedFor node ↔
    (nodeID = some node ∧ id ∈ event.confirmed) ∨ id ∈ s.confirmedFor node := by
  unfold confirmedFor log
  by_cases own : nodeID = some node
  · simp [own]
  · simp [own]

namespace Confirmed

variable {s s' : State}

section Confirmed

variable (confirmed : Confirmed s)

include confirmed

theorem log (itemID attemptID : ID) (nodeID : Option ID) (other : event.confirmed = []) :
    Confirmed (s.log itemID attemptID nodeID event) := by
  constructor
  · intro b member kind resolved node own id required
    exact mem_confirmedFor_log.mpr
      (.inr (confirmed.disclosed b member kind resolved node own id required))
  · intro node id member
    rcases mem_confirmedFor_log.mp member with ⟨_, new⟩ | member
    · rw [other] at new
      cases new
    · exact confirmed.settled node id member

theorem of_same (blockers : s'.blockers = s.blockers) (timeline : s'.timeline = s.timeline)
    (ledger : s'.ledger = s.ledger) : Confirmed s' := by
  obtain ⟨disclosed, settled⟩ := confirmed
  constructor
  · unfold confirmedFor
    rwa [blockers, timeline]
  · unfold confirmedFor
    rwa [timeline, ledger]

theorem entered (entered : s.Entered s') : Confirmed s' := by
  obtain ⟨value, events, rfl, values⟩ := entered
  have same : ∀ nodeID, State.confirmedFor { s with value := value, timeline := events ++ s.timeline } nodeID =
      s.confirmedFor nodeID := by
    intro nodeID
    simp only [confirmedFor, filter_append, flatMap_append]
    rw [flatMap_eq_nil_iff.mpr fun e member => ?_, nil_append]
    obtain ⟨kind, _, event⟩ := values e (mem_filter.mp member).1
    rw [event]
    cases kind <;> rfl
  constructor
  · simpa only [same] using confirmed.disclosed
  · simpa only [same] using confirmed.settled

/-- A blocker that is no resolved confirmation may become another such. -/
theorem setBlocker (id : ID) (f : Blocker → Blocker) (keeps : ∀ b, (f b).id = b.id)
    (harmless : ∀ b, s.blockers.find id = some b → (f b).kind = consequenceConfirmation →
      (f b).state ≠ .resolved) : Confirmed (s.setBlocker id f keeps) := by
  refine ⟨fun b member kind resolved => ?_, confirmed.settled⟩
  obtain ⟨b', present, rfl⟩ := mem_map.mp member
  by_cases own : b'.id = id
  · have found := find_of_mem present
    rw [own] at found
    simp only [own, decide_true, if_true] at kind resolved
    exact absurd resolved (harmless b' found kind)
  · simp only [own, decide_false, Bool.false_eq_true, if_false] at kind resolved ⊢
    exact confirmed.disclosed b' present kind resolved

theorem insertBlocker (opened : b.state = .opened) (inserted : s.insertBlocker b = .ok s') :
    Confirmed s' := by
  obtain ⟨blockers, done, rfl⟩ := insertBlocker_ok inserted
  refine ⟨fun b' member kind resolved => ?_, confirmed.settled⟩
  rw [insert_rows done] at member
  rcases mem_cons.mp member with rfl | member
  · rw [opened] at resolved
    cases resolved
  · exact confirmed.disclosed b' member kind resolved

theorem ledger (statement : LedgerStatement) :
    Confirmed { s with ledger := statement.apply s.ledger } := by
  refine ⟨confirmed.disclosed, fun nodeID id member => ?_⟩
  obtain ⟨inv, found, terminal⟩ := confirmed.settled nodeID id member
  exact ⟨inv, statement.apply_terminal found terminal, terminal⟩

end Confirmed

end Confirmed

variable {node : NodeExecution}

/-! ### Commands -/

section Commands

variable {lib : Library} {input : Input} {s s' : State}

theorem Prepares.confirmed {answer : Prepared} (prepares : Prepares s A answer s') (kept : Confirmed s) :
    Confirmed s' := by
  cases prepares with
  | nothing => exact kept
  | blocks _ _ opened _ _ _ _ plain inserted =>
    refine log ?_ _ _ _ plain
    exact (kept.insertBlocker opened inserted).of_same rfl rfl rfl
  | starts _ _ _ _ _ _ _ _ inserted =>
    obtain ⟨_, _, rfl⟩ := insertTurn_ok inserted
    refine log ?_ _ _ _ rfl
    exact kept.of_same rfl rfl rfl

theorem Advances.confirmed {a : Attempt} {outcome : String}
    (advances : Advances lib input itemID A a node outcome s s') (kept : Confirmed s) : Confirmed s' := by
  cases advances with
  | completes _ inserted credited =>
    obtain ⟨_, _, rfl⟩ := insertTransition_ok inserted
    refine log (entered ?_ (creditValue_entered credited)) _ _ _ rfl
    exact kept.of_same rfl rfl rfl
  | exhausts =>
    refine log ?_ _ _ _ rfl
    exact kept.of_same rfl rfl rfl
  | proceeds _ _ _ _ placed moved =>
    obtain ⟨_, _, _, rfl⟩ := insertNode_ok placed
    obtain ⟨_, _, rfl⟩ := insertTransition_ok moved
    obtain ⟨links, handed⟩ := handOver_eq _ node input.nodeID
    rw [handed]
    exact kept.of_same rfl rfl rfl

theorem EndsTurn.confirmed (completes : EndsTurn lib input s s')
    (kept : Confirmed s) : Confirmed s' := by
  cases completes with
  | fails =>
    refine log ?_ _ _ _ rfl
    exact kept.of_same rfl rfl rfl
  | settles _ _ _ _ _ advances =>
    refine advances.confirmed (log ?_ _ _ _ rfl)
    exact kept.of_same rfl rfl rfl

/-- **A confirmation** is recorded with exactly what its blocker disclosed. -/
theorem Responds.confirmed {response : BlockerResponseInput} {answer : Responded}
    (responds : Responds lib input response s answer s') (kept : Confirmed s) : Confirmed s' := by
  cases responds with
  | discloses found opened =>
    refine kept.setBlocker _ _ _ fun b' found' _ => ?_
    cases found.symm.trans found'
    simp [Blocker.disclosing, opened]
  | @confirms b n found _ node _ disclosed confirmed =>
    constructor
    · intro b' member kind resolved node' own id required
      refine mem_confirmedFor_log.mpr ?_
      obtain ⟨b₀, present, rfl⟩ := mem_map.mp member
      by_cases same : b₀.id = b.id
      · have found' := find_of_mem present
        rw [same, found] at found'
        cases found'
        simp only [decide_true, if_true, Blocker.answered] at own required
        exact .inl ⟨node.symm.trans own, (disclosed.symm.trans confirmed).mem_iff.mp required⟩
      · simp only [same, decide_false, Bool.false_eq_true, if_false] at kind resolved own required
        exact .inr (kept.disclosed b₀ present kind resolved node' own id required)
    · intro node' id member
      rcases mem_confirmedFor_log.mp member with ⟨_, new⟩ | member
      · exact consequencesForNode_settled (s := s) (confirmed.mem_iff.mpr new)
      · exact kept.settled node' id member
  | answers found _ kind _ _ _ _ _ linked advances =>
    obtain ⟨links, rfl⟩ := linkAll_eq linked
    refine advances.confirmed (log (log ?_ _ _ _ rfl) _ _ _ rfl)
    have answered := kept.setBlocker _ (·.answered response.outcome input.now) (fun _ => rfl)
      fun b' found' kind' => absurd (by cases found.symm.trans found'; exact kind') kind
    exact answered.of_same rfl rfl rfl

theorem createAttempt_confirmed {create : CreateAttemptInput} {u : Unit}
    (ran : createAttempt lib input create s = .ok (u, s')) (kept : Confirmed s) : Confirmed s' := by
  obtain ⟨_, _, _, _, _, _, _, _, inserted, _, _, placed, linked, rfl⟩ := createAttempt_ok ran
  obtain ⟨_, rfl⟩ := linkSources_eq linked
  obtain ⟨_, _, _, rfl⟩ := insertNode_ok placed
  obtain ⟨_, _, rfl⟩ := insertAttempt_ok inserted
  refine log ?_ _ _ _ rfl
  exact kept.of_same rfl rfl rfl

end Commands

theorem confirmed_kept (lib : Library) : Kept lib Confirmed where
  start _ _ _ _ _ _ kept ran := by
    rcases start_starts ran with ⟨_, rfl⟩ | ⟨_, _, _, _, _, inserted, created, rfl⟩
    · exact kept
    obtain ⟨_, _, rfl⟩ := insertItem_ok inserted
    have created := createAttempt_confirmed created (kept.of_same rfl rfl rfl)
    refine log ?_ _ _ _ rfl
    exact created.of_same rfl rfl rfl
  prepareNode _ _ _ _ _ inv kept ran := (prepareNode_prepares inv ran).confirmed kept
  recordCompletionReport _ _ _ _ _ _ inv kept ran := by
    obtain ⟨_, _, _, _, reports⟩ := recordCompletionReport_reports inv ran
    obtain ⟨_, rfl⟩ := linkAll_eq reports.linked
    exact kept.of_same rfl rfl rfl
  completeTurn _ _ _ _ _ _ _ inv kept ran := (completeTurn_ends inv ran).confirmed kept
  respondBlocker _ _ _ _ _ inv kept ran := (respondBlocker_responds inv ran).confirmed kept
  saveFeedback _ _ _ _ _ _ kept ran := by
    obtain ⟨_, _, _, inserted, deducted, rfl⟩ := saveFeedback_saves ran
    obtain ⟨_, _, rfl⟩ := insertFeedback_ok inserted
    refine log (entered ?_ (deductValue_entered deducted)) _ _ _ rfl
    exact kept.of_same rfl rfl rfl
  revise _ _ _ _ _ _ _ _ kept ran := by
    obtain ⟨_, _, _, _, _, _, _, _, _, _, _, created, rfl⟩ := revise_revises ran
    refine log ?_ _ _ _ rfl
    exact (createAttempt_confirmed created kept).of_same rfl rfl rfl
  publish _ _ _ _ _ _ kept ran := by
    obtain ⟨_, rfl⟩ := publish_ok ran
    exact kept.of_same rfl rfl rfl
  ledger _ statement kept := kept.ledger statement

theorem Confirmed.initial : Confirmed State.empty where
  disclosed b member := by cases member
  settled nodeID id member := by cases member

/-! ### Repetitions -/

section Repeats

variable {lib : Library} {s s' : State} {p : NodeExecution → Bool}

theorem State.mem_writesOf : inv ∈ s.writesOf p ↔ inv ∈ s.ledger.rows.rows ∧
    inv.effectClass ≠ .readOnly ∧ ∃ n, s.executionOf inv = some n ∧ p n := by
  simp [writesOf, Option.any_eq_true]

/-- **When everything that may take effect is confirmed.** What is confirmed has been settled, and what
took effect is confirmed; the rest is on its way. -/
theorem writes_confirmed_iff {confirmed : List InvocationID}
    (settled : ∀ id ∈ confirmed, ∃ inv, s.ledger.find id = some inv ∧ inv.state.isTerminal)
    (complete : ∀ inv ∈ s.writesOf p, State.consequential inv → inv.id ∈ confirmed) :
    (∀ inv ∈ s.writesOf p, MayTakeEffect s.ledger inv.id → inv.id ∈ confirmed) ↔ ∀ inv ∈ s.writesOf p,
    inv.state.isTerminal := by
  have present : ∀ inv ∈ s.writesOf p, s.ledger.find inv.id = some inv := fun inv member =>
    find_of_mem (mem_writesOf.mp member).1
  constructor
  · intro all inv member
    by_contra live
    have possible : MayTakeEffect s.ledger inv.id := by
      refine (mayTakeEffect_iff (present inv member)).mpr fun failed => live ?_
      rw [failed]
      rfl
    obtain ⟨inv', found, terminal⟩ := settled inv.id (all inv member possible)
    cases found.symm.trans (present inv member)
    exact live terminal
  · intro terminal inv member possible
    have survived := (mayTakeEffect_iff (present inv member)).mp possible
    refine complete inv member (decide_eq_true ⟨(mem_writesOf.mp member).2.1, ?_⟩)
    have ended := terminal inv member
    cases state : inv.state <;> simp_all [Gateway.InvocationState.isTerminal]

theorem State.lastConfirmation_mem (last : s.lastConfirmation nodeID = some b) :
    b ∈ s.blockers.rows ∧
    b.nodeExecutionID = some nodeID ∧ b.kind = consequenceConfirmation ∧ b.state = .resolved := by
  have chosen : ∀ (rest : List Blocker) (b : Blocker), rest.foldl State.later b ∈ b :: rest := by
    intro rest
    induction rest with
    | nil => exact fun b => .head _
    | cons c rest ih =>
      intro b
      rw [foldl_cons]
      have either : State.later b c = b ∨ State.later b c = c := by
        unfold later
        split
        · exact .inr rfl
        · exact .inl rfl
      rcases mem_cons.mp (ih (State.later b c)) with same | member
      · rw [same]
        rcases either with same | same <;> simp [same]
      · exact .tail _ (.tail _ member)
  unfold lastConfirmation at last
  split at last
  · cases last
  rename_i first rest listed
  cases last
  have member := chosen rest first
  rw [← listed] at member
  obtain ⟨present, selected⟩ := mem_filter.mp member
  exact ⟨present, of_decide_eq_true selected⟩

theorem Confirmed.of_check (confirmed : Confirmed s)
    (checked : s.consequencesConfirmed nodeID ids) (member : id ∈ ids) :
    id ∈ s.confirmedFor nodeID := by
  obtain ⟨b, last, same⟩ := (any_eq_true _ _).mp checked
  obtain ⟨present, own, kind, resolved⟩ := lastConfirmation_mem last
  exact confirmed.disclosed b present kind resolved nodeID own id
    ((sorted_eq.mp (of_decide_eq_true same)).mem_iff.mpr member)

theorem State.executionOf_found {m : NodeExecution} (made : s.executionOf inv = some m) :
    s.nodes.find m.id = some m := by
  unfold executionOf at made
  split at made
  · obtain ⟨t, _, found⟩ := bind_eq_some_iff.mp made
    rw [find_key found]
    exact found
  · cases made

theorem State.mem_consequencesForNode {n : NodeExecution} (present : n ∈ s.nodes.rows)
    (member : inv ∈ s.earlierWrites n) (effect : State.consequential inv) :
    inv.id ∈ s.consequencesForNode n.attemptID n.nodeKey n.id := by
  obtain ⟨row, _, m, made, selected⟩ := mem_writesOf.mp member
  obtain ⟨attempt, key, earlier⟩ := of_decide_eq_true selected
  refine mem_map.mpr ⟨inv, mem_filter.mpr ⟨row, ?_⟩, rfl⟩
  rw [effect, made]
  refine decide_eq_true (⟨attempt, key, fun same => ?_⟩ : _ ∧ _ ∧ m.id ≠ n.id)
  have found := executionOf_found made
  rw [same, find_of_mem present] at found
  cases found
  exact Nat.lt_irrefl _ earlier

theorem prepareNode_started (inv : Inv lib s) {input : Input}
    (ran : prepareNode input A s = .ok (.dispatch node turn, s'))
    (new : s.turns.find turn.id = none) (repeated : 1 < node.visit) :
    ∃ n ∈ s.nodes.rows, n.id = node.id ∧ n.attemptID = node.attemptID ∧ n.nodeKey = node.nodeKey ∧
      n.visit = node.visit ∧ (s.consequencesForNode n.attemptID n.nodeKey n.id = [] ∨
        s.consequencesConfirmed n.id (s.consequencesForNode n.attemptID n.nodeKey n.id)) := by
  cases prepareNode_prepares inv ran with
  | nothing old =>
    rw [old _ _ rfl] at new
    cases new
  | @starts v n _ d _ _ last pending _ _ _ defined agent free _ =>
    obtain ⟨a, found, same⟩ := map_eq_some_iff.mp last.here
    obtain ⟨known, own⟩ := find_of_view last.here (by rw [last.nodes]; exact .head _)
    have kind : d.kind = nodeAgentTask := by
      rw [← same] at defined
      exact ((inv.wellFormed found).kinds d (findNode_mem defined)).resolve_right fun human => agent human.1
    refine ⟨n, find_mem known, rfl, rfl, rfl, rfl, ?_⟩
    by_contra unconfirmed
    obtain ⟨some_, unchecked⟩ := not_or.mp unconfirmed
    rw [own] at some_ unchecked
    exact free ⟨pending, repeated, kind, some_, unchecked⟩

end Repeats

/-- **A repetition is confirmed in full iff none of the repeated writes is still on its way** when it
starts: when the turn of a repeated visit is started, for the writes of the earlier visits, and when a
revision is created, for those of the attempts of its item. -/
theorem repeats_confirmed_iff (lib : Library) {c : Config Unit Input State}
    (reached : (engine lib).Reaches .free State.empty c) :
    (∀ input A node turn s', prepareNode input A c.shared = .ok (.dispatch node turn, s') →
      c.shared.turns.find turn.id = none → 1 < node.visit →
      ((∀ inv ∈ c.shared.earlierWrites node, MayTakeEffect c.shared.ledger inv.id →
          inv.id ∈ c.shared.confirmedFor node.id) ↔
        ∀ inv ∈ c.shared.earlierWrites node, inv.state.isTerminal)) ∧
    ∀ input request base spec s', revise lib input request base spec c.shared = .ok ((), s') →
      ((∀ inv ∈ c.shared.itemWrites request.workItemID, MayTakeEffect c.shared.ledger inv.id →
          inv.id ∈ request.confirmedInvocationIDs) ↔
        ∀ inv ∈ c.shared.itemWrites request.workItemID, inv.state.isTerminal) := by
  have inv := engine_inv reached
  have confirmed := (confirmed_kept lib).invariant .initial reached
  refine ⟨fun input A node turn s' ran new repeated => ?_, fun input request base spec s' ran => ?_⟩
  · obtain ⟨n, present, id, attempt, key, visit, checked⟩ := prepareNode_started inv ran new repeated
    have same : c.shared.earlierWrites node = c.shared.earlierWrites n := by
      unfold earlierWrites
      rw [attempt, key, visit]
    rw [same, ← id]
    refine writes_confirmed_iff (confirmed.settled n.id) fun row member effect => ?_
    have required := mem_consequencesForNode present member effect
    rcases checked with none | checked
    · rw [none] at required
      cases required
    · exact confirmed.of_check checked required
  · simp only [revise, Tx.need_then, Tx.refuse_then, Tx.read_then] at ran
    obtain ⟨_, _, _, _, _, _, exact_, _⟩ := ran
    have exact_ := sorted_eq.mp (not_not.mp exact_)
    refine writes_confirmed_iff (fun id member => ?_) fun row member effect => ?_
    · obtain ⟨row, kept, rfl⟩ := mem_map.mp (exact_.mem_iff.mpr member)
      obtain ⟨present, selected⟩ := mem_filter.mp kept
      exact ⟨row, find_of_mem present, terminal_of_consequential (Bool.and_eq_true_iff.mp selected).1⟩
    · obtain ⟨present, _, n, made, selected⟩ := mem_writesOf.mp member
      refine exact_.mem_iff.mp (mem_map.mpr ⟨row, mem_filter.mpr ⟨present, ?_⟩, rfl⟩)
      rw [effect, made]
      exact selected

/-! ### Runs -/

def retrying : CanonicalSpec where
  defaultModelRef := "m"
  graph := {
    entryNode := "draft"
    maxTransitions := 5
    nodes := [{
      key := "draft", label := text "Draft", kind := nodeAgentTask, prompt := "p"
      outcomes := ["done", "again"]
      outputSchema := some .emptyObject
      resultPresentation := some { outcomes := [⟨"done", text "Done"⟩] } }]
    edges := [⟨"draft", "again", "draft"⟩]
    terminalOutcomes := [⟨"draft", "done"⟩] }

def writing : Gateway.Call where
  attemptID := "a"
  callerScope := .turn
  callerScopeID := "t"
  toolCallID := "call"
  idempotencyKey := "key"
  tv := { name := "mail", digest := "d", effectClass := .nonIdempotentWrite }

/-- The first visit of the task sends a write and asks to be repeated. -/
def sent : List (Move Input Request) := opening retrying { catalog := [("m", ⟨"k", "id"⟩)] } ++ [
  .run 1 { turnID := "t" },
  .start (.ledger (.insert 0 writing "x" 100)),
  .run 2 {},
  .start (.ledger (.markRunning "x" 100)),
  .run 3 {},
  .start (.recordCompletionReport "t" { outcome := "again", summary := "s" }),
  .run 4 {},
  .start (.completeTurn "t" "completed" .blank),
  .run 5 { nodeID := "n'" }]

/-- The write succeeds and is confirmed. -/
def acknowledged : List (Move Input Request) := sent ++ [
  .start (.ledger (.finish "x" .succeeded none (some (marshalJSON (.array []))) none)),
  .run 6 {},
  .start (.prepareNode "a"),
  .run 7 { blockerID := "b" },
  .start (.respondBlocker {
    blockerID := "b", actorIdentityID := "u", outcome := "confirmed", confirmedInvocationIDs := ["x"] }),
  .run 8 {}]

def dispatched : Except Err (Prepared × State) → Option (NodeExecution × Turn × State)
  | .ok (.dispatch node turn, s) => some (node, turn, s)
  | _ => none

theorem dispatched_eq {result : Except Err (Prepared × State)}
    (same : dispatched result = some (node, turn, s)) : result = .ok (.dispatch node turn, s) := by
  unfold dispatched at same
  split at same
  · cases same
    rfl
  · cases same

/-- The second visit is started after its confirmation. -/
theorem repeats_confirmed_acknowledged :
    ∃ (c : Config Unit Input State) (node : NodeExecution), (engine lenient).Reaches .free State.empty c ∧
      node.visit = 2 ∧ (c.shared.earlierWrites node).map Invocation.id = ["x"] ∧
      ∀ inv ∈ c.shared.earlierWrites node, MayTakeEffect c.shared.ledger inv.id →
        inv.id ∈ c.shared.confirmedFor node.id := by
  obtain ⟨c, reached, started⟩ := (engine lenient).reaches_of_replay .free State.empty acknowledged
    (fun s => (dispatched (prepareNode { turnID := "t'" } "a" s)).any (fun ⟨node, turn, _⟩ =>
      decide (s.turns.find turn.id = none ∧ node.visit = 2 ∧
        (s.earlierWrites node).map Invocation.id = ["x"] ∧
        ∀ inv ∈ s.earlierWrites node, inv.state.isTerminal)) = true) (by decide +kernel)
  obtain ⟨⟨node, turn, s'⟩, same, checked⟩ := (any_eq_true _ _).mp started
  obtain ⟨new, visit, writes, settled⟩ := of_decide_eq_true checked
  exact ⟨c, node, reached, visit, writes, ((repeats_confirmed_iff lenient reached).1 _ _ node turn s'
    (dispatched_eq same) new (by rw [visit]; decide)).mpr settled⟩

/-- **A write that is still running is not asked for**: the node is repeated, and the write can still
succeed. -/
theorem running_write_unconfirmed :
    ∃ (c : Config Unit Input State) (node : NodeExecution) (turn : Turn) (s' : State),
      (engine lenient).Reaches .free State.empty c ∧
      prepareNode { turnID := "t'" } "a" c.shared = .ok (.dispatch node turn, s') ∧
      c.shared.turns.find turn.id = none ∧ node.visit = 2 ∧
      ∃ inv ∈ c.shared.earlierWrites node, MayTakeEffect c.shared.ledger inv.id ∧
        inv.id ∉ c.shared.confirmedFor node.id ∧ inv.id ∉ s'.confirmedFor node.id := by
  obtain ⟨c, reached, started⟩ := (engine lenient).reaches_of_replay .free State.empty sent
    (fun s => (dispatched (prepareNode { turnID := "t'" } "a" s)).any (fun ⟨node, turn, s'⟩ =>
      decide (s.turns.find turn.id = none ∧ node.visit = 2 ∧ ∃ inv ∈ s.earlierWrites node,
        inv.state = .running ∧ inv.id ∉ s.confirmedFor node.id ∧ inv.id ∉ s'.confirmedFor node.id)) = true)
    (by decide +kernel)
  obtain ⟨⟨node, turn, s'⟩, same, checked⟩ := (any_eq_true _ _).mp started
  obtain ⟨new, visit, inv, member, running, unconfirmed, unconfirmed'⟩ := of_decide_eq_true checked
  refine ⟨c, node, turn, s', reached, dispatched_eq same, new, visit, inv, member, ?_, unconfirmed,
    unconfirmed'⟩
  refine (mayTakeEffect_iff (find_of_mem (mem_writesOf.mp member).1)).mpr ?_
  rw [running]
  decide

end Iterabase.Work
