/-
**The tables agree.**

The run of an attempt, its executions, its turns and the blockers of its item are written by separate
statements, most of them conditional updates whose row counts nobody checks. In every committed state
they tell one story.

* `attempts_coherent` — **it holds for every attempt in every state the engine reaches**, over every
  interleaving of the commands.
-/

import Iterabase.Work.Invariant

namespace Iterabase.Work

open Conc Workflow List State Table

namespace State

def openBlockers (s : State) (itemID : ID) : List Blocker :=
  s.blockers.rows.filter fun b => b.workItemID = itemID ∧ b.state = .opened

def runningTurns (s : State) (nodeID : ID) : List Turn :=
  s.turns.rows.filter fun t => t.nodeExecutionID = nodeID ∧ t.state = .running

end State

/-- What the tables say about an attempt. -/
structure Coherent (s : State) (a : Attempt) : Prop where
  /-- A run goes on iff exactly one execution is pending, running or blocked. -/
  going : a.run.isTerminal = false ↔ ∃! n, n ∈ s.nodesOf a.id ∧ n.state.isActive
  awaiting : (∃ n ∈ s.nodesOf a.id, n.state = .blocked) ↔ a.run = .awaitingApproval
  /-- An execution is blocked iff the item has exactly one open blocker, and it is this one's. -/
  blocked : ∀ n ∈ s.nodesOf a.id, n.state = .blocked ↔
    ∃ b, s.openBlockers a.workItemID = [b] ∧ b.nodeExecutionID = some n.id
  /-- An execution runs iff exactly one of its turns does, and the run. -/
  running : ∀ n ∈ s.nodesOf a.id, n.state = .running ↔
    (∃ t, s.runningTurns n.id = [t]) ∧ a.run = .running
  terminal : a.run.isTerminal → a.finished ∧ (∀ n ∈ s.nodesOf a.id, n.state.isActive = false) ∧
    ∀ b ∈ s.blockers.rows, b.attemptID = a.id → b.state ≠ .opened
  /-- An attempt that runs is the current one of its item, and the only one. -/
  current : a.run.isTerminal = false →
    (∃ i, s.items.find a.workItemID = some i ∧ i.currentAttemptID = some a.id) ∧
    ∀ a' ∈ s.attempts.rows, a'.workItemID = a.workItemID → a'.run.isTerminal = false → a' = a

/-! ### Phases -/

namespace View

variable {v : View} {n : NodeExecution} {rest : List NodeExecution}

theorem Sound.blocked_iff (sound : v.Sound) (nodes : v.nodes = n :: rest) :
    n.state = .blocked ↔ v.run = .awaitingApproval := by
  obtain ⟨_, _, _, phase⟩ := sound.at nodes
  cases phase with
  | waiting state run => rcases run with run | run <;> simp [state, run]
  | working _ state run | blocked _ state run => simp [state, run]
  | ended state run =>
    constructor
    · intro blocked
      rw [blocked] at state
      cases state
    · intro awaiting
      rw [awaiting] at run
      cases run

theorem Sound.active_iff (sound : v.Sound) (nodes : v.nodes = n :: rest) :
    n.state.isActive = true ↔ v.run.isTerminal = false := by
  obtain ⟨_, _, _, phase⟩ := sound.at nodes
  cases phase with
  | waiting state run =>
    rcases run with run | run <;> simp [state, run, NodeState.isActive, RunState.isTerminal]
  | working _ state run | blocked _ state run =>
    simp [state, run, NodeState.isActive, RunState.isTerminal]
  | ended state run => simp [state, run]

end View

namespace Inv

variable {lib : Library} {s : State} {A B : ID} {v u : View}

theorem single (inv : Inv lib s) (here : s.view A = some v) (there : s.view B = some u)
    (item : u.workItemID = v.workItemID) (going : v.run.isTerminal = false)
    (going' : u.run.isTerminal = false) : A = B := by
  obtain ⟨i, found, current⟩ := inv.item here
  obtain ⟨j, found', current'⟩ := inv.item there
  rw [item, found] at found'
  cases found'
  exact Option.some.inj ((current going).symm.trans (current' going'))

theorem openBlockers_eq (inv : Inv lib s) (here : s.view A = some v)
    (going : v.run.isTerminal = false) : s.openBlockers v.workItemID = v.openBlockers := by
  unfold openBlockers View.openBlockers
  rw [view_blockers here, blockersOf, filter_filter]
  refine filter_congr fun b member => ?_
  obtain ⟨u, there, inside⟩ := inv.view_of_blocker member
  obtain ⟨_, _, _, course, _, _⟩ := inv.sound there
  have item := (course.blockers b inside).1
  rw [Bool.eq_iff_iff]
  simp only [decide_eq_true_eq, Bool.and_eq_true]
  constructor
  · rintro ⟨own, opened⟩
    obtain ⟨u', _, _, there', _, _, _, _, _, run, _⟩ := inv.open_blocker member opened
    cases there.symm.trans there'
    refine ⟨opened, (inv.single here there (item.symm.trans own) going ?_).symm⟩
    rw [run]
    rfl
  · rintro ⟨opened, rfl⟩
    cases here.symm.trans there
    exact ⟨item, opened⟩

theorem runningTurns_eq (inv : Inv lib s) (here : s.view A = some v) {n : NodeExecution}
    {rest : List NodeExecution} (nodes : v.nodes = n :: rest) : s.runningTurns n.id = v.busy := by
  have member : n ∈ s.nodesOf A := by
    rw [← view_nodes here, nodes]
    exact .head _
  obtain ⟨present, own⟩ := mem_nodesOf.mp member
  unfold runningTurns View.busy
  rw [view_turns here, turnsOf, filter_filter]
  refine filter_congr fun t bound => ?_
  rw [Bool.eq_iff_iff]
  simp only [decide_eq_true_eq, Bool.and_eq_true]
  constructor
  · rintro ⟨node, running⟩
    refine ⟨running, ?_⟩
    rw [← own]
    exact (inv.node_of_turn bound (by rw [node]; exact find_of_mem present)).symm
  · rintro ⟨running, rfl⟩
    have inside : t ∈ v.turns := by
      rw [view_turns here]
      exact mem_turnsOf.mpr ⟨bound, rfl⟩
    exact ⟨((inv.sound here).working nodes inside running).2.1, running⟩

variable {n m : NodeExecution} {rest : List NodeExecution}

theorem active_last (inv : Inv lib s) (here : s.view A = some v) (nodes : v.nodes = n :: rest)
    (member : m ∈ s.nodesOf A) (active : m.state.isActive) : m = n := by
  obtain ⟨rest', nodes'⟩ := (inv.sound here).head (by rw [view_nodes here]; exact member) active
  cases nodes.symm.trans nodes'
  rfl

theorem last_mem (here : s.view A = some v) (nodes : v.nodes = n :: rest) : n ∈ s.nodesOf A := by
  rw [← view_nodes here, nodes]
  exact .head _

section Attempt

variable (inv : Inv lib s) (here : s.view A = some v) (nodes : v.nodes = n :: rest)

include inv here nodes

theorem going_iff : v.run.isTerminal = false ↔ ∃! m, m ∈ s.nodesOf A ∧ m.state.isActive := by
  rw [← (inv.sound here).active_iff nodes]
  constructor
  · exact fun active => ⟨n, ⟨last_mem here nodes, active⟩, fun m other =>
      inv.active_last here nodes other.1 other.2⟩
  · rintro ⟨m, ⟨member, active⟩, _⟩
    rw [← inv.active_last here nodes member active]
    exact active

theorem awaiting_iff : (∃ m ∈ s.nodesOf A, m.state = .blocked) ↔ v.run = .awaitingApproval := by
  rw [← (inv.sound here).blocked_iff nodes]
  constructor
  · rintro ⟨m, member, blocked⟩
    rw [← inv.active_last here nodes member (by rw [blocked]; rfl)]
    exact blocked
  · exact fun blocked => ⟨n, last_mem here nodes, blocked⟩

theorem blocked_iff (member : m ∈ s.nodesOf A) :
    m.state = .blocked ↔ ∃ b, s.openBlockers v.workItemID = [b] ∧
    b.nodeExecutionID = some m.id := by
  constructor
  · intro blocked
    cases inv.active_last here nodes member (by rw [blocked]; rfl)
    have awaiting := ((inv.sound here).blocked_iff nodes).mp blocked
    rw [inv.openBlockers_eq here (by rw [awaiting]; rfl)]
    obtain ⟨_, _, _, phase⟩ := (inv.sound here).at nodes
    cases phase with
    | waiting state | working _ state | ended state => rw [blocked] at state; cases state
    | blocked b _ _ asked node => exact ⟨b, asked, node⟩
  · rintro ⟨b, only, node⟩
    have inside : b ∈ s.openBlockers v.workItemID := by rw [only]; exact mem_singleton_self b
    obtain ⟨present, chosen⟩ := mem_filter.mp inside
    obtain ⟨_, m', _, _, _, _, node', known, blocked, _⟩ :=
      inv.open_blocker present (of_decide_eq_true chosen).2
    rw [← Option.some.inj (node.symm.trans node'),
      find_of_mem (mem_nodesOf.mp member).1] at known
    cases known
    exact blocked

theorem running_iff (member : m ∈ s.nodesOf A) :
    m.state = .running ↔ (∃ t, s.runningTurns m.id = [t]) ∧ v.run = .running := by
  constructor
  · intro running
    cases inv.active_last here nodes member (by rw [running]; rfl)
    rw [inv.runningTurns_eq here nodes]
    obtain ⟨_, _, _, phase⟩ := (inv.sound here).at nodes
    cases phase with
    | waiting state | blocked _ state | ended state => rw [running] at state; cases state
    | working t _ run _ busy => exact ⟨⟨t, busy⟩, run⟩
  · rintro ⟨⟨t, only⟩, _⟩
    have inside : t ∈ s.runningTurns m.id := by rw [only]; exact mem_singleton_self t
    obtain ⟨present, chosen⟩ := mem_filter.mp inside
    obtain ⟨node, running⟩ := of_decide_eq_true chosen
    have known := find_of_mem (mem_nodesOf.mp member).1
    rw [← node] at known
    obtain ⟨_, _, view, bound, nodes', _⟩ := inv.running_turn present running known
    exact ((inv.sound view).working nodes' bound running).1

theorem at_end (ended : v.run.isTerminal) :
    v.finished ∧ (∀ m ∈ s.nodesOf A, m.state.isActive = false) ∧
    ∀ b ∈ s.blockers.rows, b.attemptID = A → b.state ≠ .opened := by
  obtain ⟨_, _, _, phase⟩ := (inv.sound here).at nodes
  obtain ⟨quiet, calm, finished⟩ :
      n.state.isActive = false ∧ v.openBlockers = [] ∧ v.finished = true := by
    cases phase with
    | waiting _ going => rcases going with going | going <;> rw [going] at ended <;> cases ended
    | working _ _ going | blocked _ _ going => rw [going] at ended; cases ended
    | ended state _ finished calm => exact ⟨state, calm, finished⟩
  refine ⟨finished, fun m member => ?_, fun b member own opened => ?_⟩
  · by_contra busy
    have busy : m.state.isActive = true := by simpa using busy
    rw [inv.active_last here nodes member busy, quiet] at busy
    cases busy
  · have asked : b ∈ v.openBlockers := by
      refine mem_filter.mpr ⟨?_, decide_eq_true opened⟩
      rw [view_blockers here]
      exact mem_blockersOf.mpr ⟨member, own⟩
    rw [calm] at asked
    cases asked

end Attempt

theorem coherent (inv : Inv lib s) {a : Attempt} (found : s.attempts.find A = some a) :
    Coherent s a := by
  obtain rfl : a.id = A := find_key found
  obtain ⟨v, here, _, item, run⟩ := view_of_find found
  have finished : v.finished = a.finished := by
    rw [view, found] at here
    cases here
    rfl
  obtain ⟨n, rest, _, course, _, _⟩ := inv.sound here
  have nodes := course.nodes
  refine ⟨?_, ?_, fun m member => ?_, fun m member => ?_, fun ended => ?_, fun going => ?_⟩
  · rw [← run]
    exact inv.going_iff here nodes
  · rw [← run]
    exact inv.awaiting_iff here nodes
  · rw [← item]
    exact inv.blocked_iff here nodes member
  · rw [← run]
    exact inv.running_iff here nodes member
  · rw [← finished]
    exact inv.at_end here nodes (by rw [run]; exact ended)
  · rw [← run] at going
    obtain ⟨i, known, current⟩ := inv.item here
    refine ⟨⟨i, by rw [← item]; exact known, current going⟩, fun a' member own going' => ?_⟩
    have found' := find_of_mem member
    obtain ⟨u, there, _, item', run'⟩ := view_of_find found'
    have same := inv.single here there (by rw [item', own, item]) going (by rw [run']; exact going')
    rw [← same, found] at found'
    exact (Option.some.inj found').symm

end Inv

/-- **In every state the engine reaches, the tables agree about every attempt.** -/
theorem attempts_coherent (lib : Library) {c : Config Unit Input State}
    (reached : (engine lib).Reaches .free State.empty c) {id : ID} {a : Attempt}
    (found : c.shared.attempts.find id = some a) : Coherent c.shared a :=
  (engine_inv reached).coherent found

/-! ### A run -/

def lenient : Library where
  compiles _ := true
  conforms _ _ := true
  equalJSON _ _ := true
  fraction _ _ _ := 0

def text (s : String) : LocalizedText := ⟨s, s⟩

/-- A workflow of one approval. -/
def approval : CanonicalSpec where
  graph := {
    entryNode := "review"
    maxTransitions := 1
    nodes := [{
      key := "review"
      label := text "Review"
      kind := nodeHumanGate
      outcomes := ["approve"]
      resultPresentation := some { outcomes := [⟨"approve", text "Approved"⟩] }
      humanGate := some {
        type := "approval"
        title := text "Review"
        description := text "Review"
        presentation := { outcomes := [text "Approve"] } } }]
    terminalOutcomes := [⟨"review", "approve"⟩] }

/-- A customer starts work, and its first node is prepared. -/
def opening (spec : CanonicalSpec) (first : Input) : List (Move Input Request) := [
  .start (.start {
    actorIdentityID := "u", workflowKey := "w", workflowVersion := "1", idempotencyKey := "k"
    payloadHash := "h" }),
  .run 0 { first with itemID := "i", attemptID := "a", nodeID := "n", definition := some spec },
  .start (.prepareNode "a")]

/-- The approval is given, and a revision asks for another one. -/
def revised : List (Move Input Request) := opening approval {} ++ [
  .run 1 { blockerID := "b" },
  .start (.respondBlocker { blockerID := "b", actorIdentityID := "u", outcome := "approve" }),
  .run 2 {},
  .start (.saveFeedback {
    workItemID := "i", attemptID := "a", actorIdentityID := "u", category := "wrong" }),
  .run 3 { feedbackID := "f" },
  .start (.createRevision {
    workItemID := "i", actorIdentityID := "u", feedbackID := "f", actionableGuidance := "again" }),
  .run 4 {},
  .run 4 { definition := some approval },
  .run 4 { attemptID := "a'", nodeID := "n'" },
  .start (.prepareNode "a'"),
  .run 5 { blockerID := "b'" }]

theorem attempts_coherent_revised :
    ∃ (c : Config Unit Input State) (a a' : Attempt), (engine lenient).Reaches .free State.empty c ∧
      a.run = .succeeded ∧ Coherent c.shared a ∧ a'.run = .awaitingApproval ∧ Coherent c.shared a' := by
  obtain ⟨c, reached, ⟨a, found, succeeded⟩, a', found', awaiting⟩ :=
    (engine lenient).reaches_of_replay .free State.empty revised
      (fun s => (∃ a ∈ s.attempts.find "a", a.run = .succeeded) ∧
        ∃ a ∈ s.attempts.find "a'", a.run = .awaitingApproval) (by decide +kernel)
  exact ⟨c, a, a', reached, succeeded, attempts_coherent lenient reached found, awaiting,
    attempts_coherent lenient reached found'⟩

/-- **A blocker of the item may be open while an attempt is over**: the one of a later revision. -/
theorem revision_blocks_item :
    ∃ c, (engine lenient).Reaches .free State.empty c ∧ ∃ a ∈ c.shared.attempts.rows,
      a.run.isTerminal ∧ ∃ b ∈ c.shared.blockers.rows,
        b.workItemID = a.workItemID ∧ b.state = .opened :=
  reach_of_replay _ _ _ revised _ (by decide +kernel)

end Iterabase.Work
