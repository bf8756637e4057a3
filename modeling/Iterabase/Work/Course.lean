/-
**The course of an attempt.**

What one attempt is, apart from the rest of the database: a walk through its graph, recorded in two
tables, whose last execution waits, works, is blocked, or has ended it. This is the layer the engine's
transactions are proved against.

* `View.Sound` — the whole, and `View.Sound.block`, `View.Sound.begin`, … — **every change an attempt
  can see keeps it.**
-/

import Iterabase.Work.Engine

namespace Iterabase.Work

open Workflow List

variable {rest : List NodeExecution} {moves : List Transition} {b : Blocker} {f : Blocker → Blocker}

/-- An attempt and its rows, the newest first. -/
structure View where
  graph : CanonicalGraph
  workItemID : ID
  valueModel : Option ValueModel
  run : RunState
  finished : Bool
  nodes : List NodeExecution
  transitions : List Transition
  turns : List Turn
  blockers : List Blocker

namespace View

def openBlockers (v : View) : List Blocker := v.blockers.filter fun b => b.state = .opened

def busy (v : View) : List Turn := v.turns.filter fun t => t.state = .running

end View

/-! ### Walks -/

/-- The executions and the transitions between them are a walk from the entry node, numbered as it
goes. -/
def Linked (g : CanonicalGraph) : List NodeExecution → List Transition → Prop
  | [n], [] => n.nodeKey = g.entryNode ∧ n.visit = 1 ∧ n.executionSeq = 1
  | n :: m :: rest, t :: moves =>
      (t.terminal = false ∧ t.fromExecutionID = m.id ∧ t.toExecutionID = some n.id ∧
        ⟨m.nodeKey, t.outcome, n.nodeKey⟩ ∈ g.edges) ∧ m.state = .succeeded ∧
      n.executionSeq = m.executionSeq + 1 ∧
      n.visit = ((m :: rest).filter fun m => m.nodeKey = n.nodeKey).length + 1 ∧
      Linked g (m :: rest) moves
  | _, _ => False

variable {g : CanonicalGraph} {n n' : NodeExecution}

/-- A walk does not depend on how its last execution fares. -/
theorem Linked.head (linked : Linked g (n :: rest) moves) (id : n'.id = n.id)
    (key : n'.nodeKey = n.nodeKey) (visit : n'.visit = n.visit)
    (seq : n'.executionSeq = n.executionSeq) : Linked g (n' :: rest) moves := by
  cases rest with
  | nil =>
    cases moves with
    | nil =>
      simp only [Linked] at linked ⊢
      rw [key, visit, seq]
      exact linked
    | cons t moves => exact linked
  | cons m rest =>
    cases moves with
    | nil => exact linked
    | cons t moves =>
      simp only [Linked] at linked ⊢
      rw [id, key, visit, seq]
      exact linked

/-- Induction along a walk, from the entry node on. -/
@[elab_as_elim]
theorem Linked.along
    {motive : ∀ n rest moves, Linked g (n :: rest) moves → Prop}
    (entry : ∀ {n} (here : Linked g [n] []), motive n [] [] here)
    (step : ∀ {n m rest t moves} (link : Linked g (n :: m :: rest) (t :: moves))
      (before : Linked g (m :: rest) moves), motive m rest moves before →
      motive n (m :: rest) (t :: moves) link)
    {n rest moves} (linked : Linked g (n :: rest) moves) : motive n rest moves linked := by
  induction rest generalizing n moves with
  | nil =>
    cases moves with
    | nil => exact entry linked
    | cons t moves => exact linked.elim
  | cons m rest ih =>
    cases moves with
    | nil => exact linked.elim
    | cons t moves => exact step linked linked.2.2.2.2 (ih _)

theorem Linked.rest_succeeded (linked : Linked g (n :: rest) moves) : ∀ m ∈ rest, m.state =
    .succeeded := by
  induction linked using Linked.along with
  | entry => intro m member; cases member
  | step link _ ih =>
    intro m' member
    rcases mem_cons.mp member with rfl | member
    · exact link.2.1
    · exact ih m' member

/-! ### Phases -/

/-- An execution is one of a node of the graph, and completes it with a declared outcome. -/
def Fits (g : CanonicalGraph) (n : NodeExecution) : Prop :=
  ∃ d, findNode g n.nodeKey = some d ∧ d.kind = n.kind ∧
    ∀ outcome, n.completionOutcome = some outcome → outcome ∈ d.outcomes

/-- A blocker that is no confirmation asks for an outcome of its node, a human gate. -/
def Asks (g : CanonicalGraph) (nodeKey : String) (b : Blocker) : Prop :=
  b.kind ≠ consequenceConfirmation → ∃ d, findNode g nodeKey = some d ∧ b.allowedOutcomes = d.outcomes ∧
    d.kind = nodeHumanGate

/-- What the run, the last execution, its turn and its blocker are together. -/
inductive Phase (v : View) (n : NodeExecution) : Prop
  | waiting (state : n.state = .pending) (run : v.run = .pending ∨ v.run = .running)
      (calm : v.openBlockers = []) (idle : v.busy = [])
  | working (t : Turn) (state : n.state = .running) (run : v.run = .running)
      (calm : v.openBlockers = []) (busy : v.busy = [t]) (turn : t.nodeExecutionID = n.id)
  | blocked (b : Blocker) (state : n.state = .blocked) (run : v.run = .awaitingApproval)
      (asked : v.openBlockers = [b]) (blocker : b.nodeExecutionID = some n.id) (idle : v.busy = [])
  | ended (state : n.state.isActive = false) (run : v.run.isTerminal = true)
      (finished : v.finished = true) (calm : v.openBlockers = []) (idle : v.busy = [])

/-- How the walk ends: a run succeeds with a terminal transition, and not otherwise. -/
inductive Ending (v : View) (n : NodeExecution) (moves : List Transition) : Prop
  | going (run : v.run ≠ .succeeded) (same : v.transitions = moves)
  | reached (t : Transition) (run : v.run = .succeeded) (last : v.transitions = t :: moves)
      (terminal : t.terminal = true) (leaves : t.fromExecutionID = n.id)
      (declared : ⟨n.nodeKey, t.outcome⟩ ∈ v.graph.terminalOutcomes)

/-- What holds of an attempt in every phase. -/
structure Course (v : View) (n : NodeExecution) (rest : List NodeExecution) (moves : List Transition) :
    Prop where
  nodes : v.nodes = n :: rest
  linked : Linked v.graph (n :: rest) moves
  bounded : moves.length ≤ v.graph.maxTransitions
  fits : ∀ m ∈ v.nodes, Fits v.graph m
  turns : ∀ t ∈ v.turns, ∃ m ∈ v.nodes, m.id = t.nodeExecutionID
  blockers : ∀ b ∈ v.blockers, b.workItemID = v.workItemID ∧
    ∃ m ∈ v.nodes, b.nodeExecutionID = some m.id ∧ Asks v.graph m.nodeKey b

/-- **What an attempt is, at any time.** -/
def View.Sound (v : View) : Prop :=
  ∃ n rest moves, Course v n rest moves ∧ Ending v n moves ∧ Phase v n

/-! ### Changes of the last execution -/

/-- The same execution, as far as the walk goes. -/
structure SameNode (n n' : NodeExecution) : Prop where
  id : n'.id = n.id
  key : n'.nodeKey = n.nodeKey
  visit : n'.visit = n.visit
  seq : n'.executionSeq = n.executionSeq

variable {v : View}

/-- **The last execution, its turns and its blockers may change** as long as they fit. -/
theorem Course.update (course : Course v n rest moves)
    (n' : NodeExecution)
    (same : SameNode n n')
    (fits : Fits v.graph n') {turns : List Turn} {blockers : List Blocker} (run : RunState)
    (finished : Bool) (transitions : List Transition)
    (bound : ∀ t ∈ turns, ∃ m ∈ v.nodes, m.id = t.nodeExecutionID)
    (asks : ∀ b ∈ blockers, b.workItemID = v.workItemID ∧
      ∃ m ∈ v.nodes, b.nodeExecutionID = some m.id ∧ Asks v.graph m.nodeKey b) :
    Course { v with nodes := n' :: rest, run, finished, transitions, turns, blockers } n' rest
      moves := by
  -- every old execution has a counterpart with its id and key
  have keeps : ∀ m ∈ v.nodes, ∃ m' ∈ n' :: rest, m'.id = m.id ∧ m'.nodeKey = m.nodeKey := by
    intro m member
    rw [course.nodes] at member
    rcases mem_cons.mp member with rfl | member
    · exact ⟨n', .head _, same.id, same.key⟩
    · exact ⟨m, .tail _ member, rfl, rfl⟩
  refine ⟨rfl, course.linked.head same.id same.key same.visit same.seq, course.bounded, ?_, ?_, ?_⟩
  · intro m member
    rcases mem_cons.mp member with rfl | member
    · exact fits
    · exact course.fits m (by rw [course.nodes]; exact .tail _ member)
  · intro t member
    obtain ⟨m, old, id⟩ := bound t member
    obtain ⟨m', new, id', _⟩ := keeps m old
    exact ⟨m', new, id'.trans id⟩
  · intro b member
    obtain ⟨item, m, old, id, asked⟩ := asks b member
    obtain ⟨m', new, id', key⟩ := keeps m old
    exact ⟨item, m', new, by rw [id, id'], by rw [key]; exact asked⟩

variable {v' : View} {id : ID}

/-- The state of the last execution and the run decide the rest of a phase. -/
theorem Phase.congr (phase : Phase v n) (id : n'.id = n.id) (state : n'.state = n.state)
    (run : v'.run = v.run) (finished : v'.finished = v.finished)
    (calm : v'.openBlockers = v.openBlockers) (idle : v'.busy = v.busy) : Phase v' n' := by
  cases phase with
  | waiting s r c i =>
    exact .waiting (state.trans s) (by rw [run]; exact r) (calm.trans c) (idle.trans i)
  | working t s r c b turn =>
    exact .working t (state.trans s) (run.trans r) (calm.trans c) (idle.trans b) (by rw [id]; exact turn)
  | blocked b s r a blocker i =>
    exact .blocked b (state.trans s) (run.trans r) (calm.trans a) (by rw [id]; exact blocker)
      (idle.trans i)
  | ended s r f c i =>
    exact .ended (by rw [state]; exact s) (by rw [run]; exact r) (finished.trans f) (calm.trans c)
      (idle.trans i)

theorem Ending.congr (ending : Ending v n moves) (id : n'.id = n.id)
    (key : n'.nodeKey = n.nodeKey) (run : v'.run = v.run) (same : v'.transitions = v.transitions)
    (graph : v'.graph = v.graph) : Ending v' n' moves := by
  cases ending with
  | going r s => exact .going (by rw [run]; exact r) (same.trans s)
  | reached t r l terminal leaves declared =>
    exact .reached t (run.trans r) (same.trans l) terminal (by rw [id]; exact leaves)
      (by rw [graph, key]; exact declared)

theorem Ending.still (ending : Ending v n moves) (open_ : v.run ≠ .succeeded) : v.transitions = moves := by
  cases ending with
  | going _ same => exact same
  | reached _ run => exact absurd run open_

theorem Course.head_fits (course : Course v n rest moves) : Fits v.graph n :=
  course.fits n (by rw [course.nodes]; exact .head _)

theorem Course.run (course : Course v n rest moves) (run : RunState) (finished : Bool)
    (transitions : List Transition) : Course { v with run, finished, transitions } n rest moves :=
  { course with }

namespace View

variable {v : View} {n : NodeExecution} {rest : List NodeExecution}

theorem Sound.at (sound : v.Sound) (nodes : v.nodes = n :: rest) :
    ∃ moves, Course v n rest moves ∧ Ending v n moves ∧ Phase v n := by
  obtain ⟨n', rest', moves, course, ending, phase⟩ := sound
  cases course.nodes.symm.trans nodes
  exact ⟨moves, course, ending, phase⟩

variable {t : Turn}

section Begin

variable (sound : v.Sound) (nodes : v.nodes = n :: rest)

include sound nodes

theorem Sound.pending_run (pending : n.state = .pending) :
    (v.run = .pending ∨ v.run = .running) ∧ v.openBlockers = [] ∧ v.busy = [] := by
  obtain ⟨_, _, _, phase⟩ := sound.at nodes
  cases phase with
  | waiting state run calm idle => exact ⟨run, calm, idle⟩
  | working _ state | blocked _ state | ended state => rw [pending] at state; cases state

/-- **A pending execution is blocked** behind a new blocker. -/
theorem Sound.block (pending : n.state = .pending)
    (opened : b.state = .opened) (item : b.workItemID = v.workItemID)
    (node : b.nodeExecutionID = some n.id) (asks : Asks v.graph n.nodeKey b) :
    ({ v with
      nodes := { n with state := .blocked } :: rest
      run := .awaitingApproval
      blockers := b :: v.blockers } : View).Sound := by
  obtain ⟨moves, course, ending, _⟩ := sound.at nodes
  obtain ⟨run, calm, idle⟩ := sound.pending_run nodes pending
  have here : n ∈ v.nodes := by rw [nodes]; exact .head _
  refine ⟨_, rest, moves, course.update { n with state := .blocked } ⟨rfl, rfl, rfl, rfl⟩
    (course.fits n here) .awaitingApproval v.finished v.transitions course.turns ?_,
    .going (by simp) (ending.still (by rcases run with run | run <;> simp [run])), ?_⟩
  · intro b' member
    rcases mem_cons.mp member with rfl | member
    · exact ⟨item, n, here, node, asks⟩
    · exact course.blockers b' member
  · refine .blocked b rfl rfl ?_ node idle
    simp only [openBlockers, filter_cons, opened, decide_true, if_true]
    rw [show (v.blockers.filter fun b => decide (b.state = .opened)) = [] from calm]

theorem Sound.begin (pending : n.state = .pending) (running : t.state = .running)
    (node : t.nodeExecutionID = n.id) :
    ({ v with
      nodes := { n with state := .running } :: rest
      run := .running
      turns := t :: v.turns } : View).Sound := by
  obtain ⟨moves, course, ending, _⟩ := sound.at nodes
  obtain ⟨run, calm, idle⟩ := sound.pending_run nodes pending
  have here : n ∈ v.nodes := by rw [nodes]; exact .head _
  refine ⟨_, rest, moves, course.update { n with state := .running } ⟨rfl, rfl, rfl, rfl⟩
    (course.fits n here) .running v.finished v.transitions ?_ course.blockers,
    .going (by simp) (ending.still (by rcases run with run | run <;> simp [run])), ?_⟩
  · intro t' member
    rcases mem_cons.mp member with rfl | member
    · exact ⟨n, here, node.symm⟩
    · exact course.turns t' member
  · refine .working t rfl rfl calm ?_ node
    simp only [busy, filter_cons, running, decide_true, if_true]
    rw [show (v.turns.filter fun t => decide (t.state = .running)) = [] from idle]

theorem Sound.report (same : SameNode n n') (state : n'.state = n.state) (fits : Fits v.graph n') :
    ({ v with nodes := n' :: rest } : View).Sound := by
  obtain ⟨moves, course, ending, phase⟩ := sound.at nodes
  exact ⟨n', rest, moves, course.update n' same fits v.run v.finished v.transitions course.turns
    course.blockers, ending.congr same.id same.key rfl rfl rfl,
    phase.congr same.id state rfl rfl rfl rfl⟩

theorem Sound.working (member : t ∈ v.turns) (running : t.state = .running) :
    n.state = .running ∧ t.nodeExecutionID = n.id ∧
    v.run = .running ∧ v.openBlockers = [] ∧ v.busy = [t] := by
  obtain ⟨_, _, _, phase⟩ := sound.at nodes
  have busy : t ∈ v.busy := mem_filter.mpr ⟨member, decide_eq_true running⟩
  cases phase with
  | waiting _ _ _ idle | blocked _ _ _ _ _ idle | ended _ _ _ _ idle =>
    rw [idle] at busy; cases busy
  | working t' state run calm only turn =>
    rw [only] at busy
    cases mem_singleton.mp busy
    exact ⟨state, turn, run, calm, only⟩

theorem Sound.asked (member : b ∈ v.blockers) (opened : b.state = .opened) :
    n.state = .blocked ∧ b.nodeExecutionID = some n.id ∧ v.run =
    .awaitingApproval ∧ v.busy = [] ∧ v.openBlockers = [b] := by
  obtain ⟨_, _, _, phase⟩ := sound.at nodes
  have asked : b ∈ v.openBlockers := mem_filter.mpr ⟨member, decide_eq_true opened⟩
  cases phase with
  | waiting _ _ calm | working _ _ _ calm | ended _ _ _ calm => rw [calm] at asked; cases asked
  | blocked b' state run only blocker idle =>
    rw [only] at asked
    cases mem_singleton.mp asked
    exact ⟨state, blocker, run, idle, only⟩

end Begin

def settleTurn (turns : List Turn) (id : ID) (state : TurnState) : List Turn :=
  turns.map fun t => if t.id = id then { t with state := state } else t

variable {state : TurnState}

/-- The only row that `p` selects is rewritten. -/
theorem filter_rewritten {α : Type} {key : α → ID} {p : α → Bool} {f : α → α} {l : List α} {a : α}
    (only : l.filter p = [a]) (gone : ∀ x, p (f x) = false) :
    (l.map fun x => if key x = key a then f x else x).filter p = [] := by
  refine filter_eq_nil_iff.mpr fun u member left => ?_
  obtain ⟨x, old, rfl⟩ := mem_map.mp member
  split at left
  · rw [gone] at left
    cases left
  · rename_i other
    have kept : x ∈ l.filter p := mem_filter.mpr ⟨old, left⟩
    rw [only] at kept
    exact other (congrArg key (mem_singleton.mp kept))

theorem settleTurn_idle (only : v.busy = [t]) (settled : state ≠ .running) :
    (settleTurn v.turns t.id state).filter (fun t => t.state = .running) = [] :=
  filter_rewritten only fun _ => decide_eq_false settled

theorem settleTurn_bound (course : Course v n rest moves) :
    ∀ t ∈ settleTurn v.turns id state, ∃ m ∈ v.nodes, m.id = t.nodeExecutionID := by
  intro u member
  obtain ⟨t, old, rfl⟩ := mem_map.mp member
  obtain ⟨m, here, same⟩ := course.turns t old
  refine ⟨m, here, ?_⟩
  split <;> exact same

/-! ### Routing -/

/-- Between two executions: the last one has succeeded, and nothing is left open. -/
structure Between (v : View) (n : NodeExecution) (rest : List NodeExecution) (moves : List Transition) :
    Prop where
  course : Course v n rest moves
  succeeded : n.state = .succeeded
  transitions : v.transitions = moves
  run : v.run = .running ∨ v.run = .awaitingApproval
  calm : v.openBlockers = []
  idle : v.busy = []

def resolve (blockers : List Blocker) (id : ID) (f : Blocker → Blocker) : List Blocker :=
  blockers.map fun b => if b.id = id then f b else b

/-- What a rewritten blocker keeps. -/
structure SameBlocker (b b' : Blocker) : Prop where
  item : b'.workItemID = b.workItemID
  node : b'.nodeExecutionID = b.nodeExecutionID
  kind : b'.kind = b.kind
  outcomes : b'.allowedOutcomes = b.allowedOutcomes

theorem resolve_asks (course : Course v n rest moves) (same : ∀ b, SameBlocker b (f b)) :
    ∀ b ∈ resolve v.blockers id f, b.workItemID = v.workItemID ∧ ∃ m ∈ v.nodes,
    b.nodeExecutionID = some m.id ∧ Asks v.graph m.nodeKey b := by
  intro b member
  obtain ⟨b₀, old, rfl⟩ := mem_map.mp member
  obtain ⟨item, m, here, node, asks⟩ := course.blockers b₀ old
  split
  · refine ⟨(same b₀).item.trans item, m, here, (same b₀).node.trans node, ?_⟩
    intro kind
    obtain ⟨d, found, outcomes, human⟩ := asks (by rw [← (same b₀).kind]; exact kind)
    exact ⟨d, found, (same b₀).outcomes.trans outcomes, human⟩
  · exact ⟨item, m, here, node, asks⟩

theorem resolve_calm (only : v.openBlockers = [b]) (resolved : ∀ b, (f b).state = .resolved) :
    (resolve v.blockers b.id f).filter (fun b => b.state = .opened) = [] :=
  filter_rewritten only fun b => by simp [resolved]

theorem resolve_opened (only : v.openBlockers = [b]) (state : ∀ b, (f b).state = b.state) :
    (resolve v.blockers b.id f).filter (fun b => b.state = .opened) = [f b] := by
  have kept : ∀ u : Blocker, (if u.id = b.id then f u else u).state = u.state := by
    intro u
    split
    · exact state u
    · rfl
  unfold resolve
  rw [filter_map]
  simp only [Function.comp_def, kept]
  rw [show (v.blockers.filter fun b => decide (b.state = .opened)) = [b] from only]
  simp only [map_cons, map_nil, if_true]

section Ends

variable (sound : v.Sound) (nodes : v.nodes = n :: rest)

include sound nodes

theorem Sound.fail (member : t ∈ v.turns)
    (running : t.state = .running) {run : RunState} (failed : run = .failed ∨ run = .aborted) (settled : state ≠ .running) :
    ({ v with
      nodes := { n with state := .failed, finished := true } :: rest
      run := run
      finished := true
      turns := settleTurn v.turns t.id state } : View).Sound := by
  obtain ⟨moves, course, ending, _⟩ := sound.at nodes
  obtain ⟨_, _, was, calm, only⟩ := sound.working nodes member running
  exact ⟨_, rest, moves, course.update { n with state := .failed, finished := true }
    ⟨rfl, rfl, rfl, rfl⟩ course.head_fits run true v.transitions (settleTurn_bound course)
    course.blockers, .going (by rcases failed with rfl | rfl <;> simp) (ending.still (by simp [was])),
    .ended rfl (by rcases failed with rfl | rfl <;> rfl) rfl calm (settleTurn_idle only settled)⟩

theorem Sound.settle (member : t ∈ v.turns) (running : t.state = .running) :
    ∃ moves, Between { v with
      nodes := { n with state := .succeeded, finished := true } :: rest
      turns := settleTurn v.turns t.id .succeeded }
      { n with state := .succeeded, finished := true } rest moves := by
  obtain ⟨moves, course, ending, _⟩ := sound.at nodes
  obtain ⟨_, _, was, calm, only⟩ := sound.working nodes member running
  exact ⟨moves, course.update { n with state := .succeeded, finished := true } ⟨rfl, rfl, rfl, rfl⟩
    course.head_fits v.run v.finished v.transitions (settleTurn_bound course) course.blockers,
    rfl, ending.still (by simp [was]), .inl was, calm, settleTurn_idle only (by simp)⟩

/-- **A confirmed execution waits again.** -/
theorem Sound.confirm (member : b ∈ v.blockers) (opened : b.state = .opened)
    (same : ∀ b, SameBlocker b (f b)) (resolved : ∀ b, (f b).state = .resolved) :
    ({ v with
      nodes := { n with state := .pending } :: rest
      run := .running
      blockers := resolve v.blockers b.id f } : View).Sound := by
  obtain ⟨moves, course, ending, _⟩ := sound.at nodes
  obtain ⟨_, _, was, idle, only⟩ := sound.asked nodes member opened
  exact ⟨_, rest, moves, course.update { n with state := .pending } ⟨rfl, rfl, rfl, rfl⟩
    course.head_fits .running v.finished v.transitions course.turns (resolve_asks course same),
    .going (by simp) (ending.still (by simp [was])),
    .waiting rfl (.inr rfl) (resolve_calm only resolved) idle⟩

theorem Sound.refresh (member : b ∈ v.blockers) (opened : b.state = .opened)
    (same : ∀ b, SameBlocker b (f b)) (state : ∀ b, (f b).state = b.state) :
    ({ v with blockers := resolve v.blockers b.id f } : View).Sound := by
  obtain ⟨moves, course, ending, _⟩ := sound.at nodes
  obtain ⟨blocked, node, was, idle, only⟩ := sound.asked nodes member opened
  have kept : Course { v with blockers := resolve v.blockers b.id f } n rest moves :=
    { course with blockers := resolve_asks course same }
  exact ⟨n, rest, moves, kept, ending.congr rfl rfl rfl rfl rfl,
    .blocked (f b) blocked was (resolve_opened only state) ((same b).node.trans node) idle⟩

theorem Sound.answer (member : b ∈ v.blockers)
    (opened : b.state = .opened) (same : ∀ b, SameBlocker b (f b))
    (resolved : ∀ b, (f b).state = .resolved) (n' : NodeExecution) (sameNode : SameNode n n')
    (fits : Fits v.graph n') (succeeded : n'.state = .succeeded) :
    ∃ moves, Between { v with nodes := n' :: rest, blockers := resolve v.blockers b.id f } n' rest moves := by
  obtain ⟨moves, course, ending, _⟩ := sound.at nodes
  obtain ⟨_, _, was, idle, only⟩ := sound.asked nodes member opened
  exact ⟨moves, course.update n' sameNode fits v.run v.finished v.transitions course.turns
    (resolve_asks course same), succeeded, ending.still (by simp [was]), .inr was,
    resolve_calm only resolved, idle⟩

/-- **A pending execution completes**, as if it had been started and left nothing behind. -/
theorem Sound.pass (pending : n.state = .pending)
    (n' : NodeExecution) (sameNode : SameNode n n') (fits : Fits v.graph n')
    (succeeded : n'.state = .succeeded) :
    ∃ moves, Between { v with run := .running, nodes := n' :: rest } n' rest moves := by
  obtain ⟨moves, course, ending, _⟩ := sound.at nodes
  obtain ⟨run, calm, idle⟩ := sound.pending_run nodes pending
  exact ⟨moves, course.update n' sameNode fits .running v.finished v.transitions course.turns
    course.blockers, succeeded, ending.still (by rcases run with run | run <;> simp [run]),
    .inl rfl, calm, idle⟩

end Ends

variable {moves : List Transition}

/-- **A terminal outcome completes the attempt.** -/
theorem Between.complete (between : Between v n rest moves) {t : Transition}
    (terminal : t.terminal = true) (leaves : t.fromExecutionID = n.id)
    (declared : ⟨n.nodeKey, t.outcome⟩ ∈ v.graph.terminalOutcomes) :
    ({ v with run := .succeeded, finished := true, transitions := t :: v.transitions } : View).Sound := by
  refine ⟨n, rest, moves, between.course.run _ _ _, .reached t rfl ?_ terminal leaves declared,
    .ended (by rw [between.succeeded]; rfl) rfl rfl between.calm between.idle⟩
  rw [between.transitions]

/-- **An attempt without transitions left fails.** -/
theorem Between.exhaust (between : Between v n rest moves) :
    ({ v with run := .failed, finished := true } : View).Sound :=
  ⟨n, rest, moves, between.course.run _ _ _, .going (by simp) between.transitions,
    .ended (by rw [between.succeeded]; rfl) rfl rfl between.calm between.idle⟩

/-- **An edge leads to the next execution.** -/
theorem Between.proceed (between : Between v n rest moves)
    (left : moves.length < v.graph.maxTransitions) {t : Transition} {next : NodeExecution}
    (moved : t.terminal = false ∧ t.fromExecutionID = n.id ∧ t.toExecutionID = some next.id)
    (edge : ⟨n.nodeKey, t.outcome, next.nodeKey⟩ ∈ v.graph.edges)
    (seq : next.executionSeq = n.executionSeq + 1)
    (visit : next.visit = ((n :: rest).filter fun m => m.nodeKey = next.nodeKey).length + 1)
    (pending : next.state = .pending) (fits : Fits v.graph next) :
    ({ v with
      nodes := next :: v.nodes
      run := .running
      transitions := t :: v.transitions } : View).Sound := by
  have course := between.course
  refine ⟨next, n :: rest, t :: moves, ⟨?_, ?_, ?_, ?_, ?_, ?_⟩, .going (by simp) ?_, ?_⟩
  · rw [course.nodes]
  · exact ⟨⟨moved.1, moved.2.1, moved.2.2, edge⟩, between.succeeded, seq, visit, course.linked⟩
  · rw [length_cons]
    push_cast
    omega
  · intro m member
    rcases mem_cons.mp member with rfl | member
    · exact fits
    · exact course.fits m member
  · intro t' member
    obtain ⟨m, here, same⟩ := course.turns t' member
    exact ⟨m, .tail _ here, same⟩
  · intro b member
    obtain ⟨item, m, here, node, asks⟩ := course.blockers b member
    exact ⟨item, m, .tail _ here, node, asks⟩
  · rw [between.transitions]
  · exact .waiting pending (.inr rfl) between.calm between.idle

theorem Sound.enter (limit : 0 ≤ g.maxTransitions) {itemID : ID}
    {valueModel : Option ValueModel} {entry : NodeExecution} (key : entry.nodeKey = g.entryNode)
    (visit : entry.visit = 1)
    (seq : entry.executionSeq = 1) (pending : entry.state = .pending) (fits : Fits g entry) :
    ({ graph := g, workItemID := itemID, valueModel := valueModel, run := .pending, finished := false,
       nodes := [entry], transitions := [], turns := [], blockers := [] } : View).Sound := by
  refine ⟨entry, [], [], ⟨rfl, ⟨key, visit, seq⟩, limit, ?_, ?_, ?_⟩, .going (by simp) rfl,
    .waiting pending (.inl rfl) rfl rfl⟩
  · intro m member
    cases mem_singleton.mp member
    exact fits
  · intro t member
    cases member
  · intro b member
    cases member

end View

end Iterabase.Work
