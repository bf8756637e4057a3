/-
**Workflow definitions — the validation of a graph.**

`ValidateGraph`, check by check and in the order of the source, with its messages. Where the source
ranges over a map, the checks are made in the order of the list the map was built from, or of its
sorted keys: the order decides only which message a refused graph gets.

* `validateGraph` — the validator.
* `validateGraph_ok` — **an accepted graph is well formed.**
-/

import Iterabase.Data.Duration
import Iterabase.Data.Except
import Iterabase.Data.Walk
import Iterabase.Workflow.Schema

namespace Iterabase.Workflow

open Data List

/-! ### Nodes -/

/-- The outcomes of a node, with those that came before. -/
def validateOutcomes (i : Nat) : Nat → List String → List String → Except String Unit
  | _, _, [] => .ok ()
  | j, earlier, name :: rest => do
      refuse (name = "") s!"graph.nodes[{i}].outcomes[{j}] is empty"
      refuse (name ∈ earlier) s!"graph.nodes[{i}].outcome {quote name} is duplicated"
      validateOutcomes i (j + 1) (name :: earlier) rest

/-- The names a node lists of what the workflow declares: skills or capabilities. -/
def validateNames (i : Nat) (label missing : String) (declared : List String) :
    List String → List String → Except String Unit
  | _, [] => .ok ()
  | earlier, name :: rest => do
      refuse (name ∈ earlier) s!"graph.nodes[{i}].{label} {quote name} is duplicated"
      refuse (name ∉ declared) s!"graph.nodes[{i}].{label} {quote name} {missing}"
      validateNames i label missing declared (name :: earlier) rest

def validTimeout (lib : Library) (timeout : String) : Bool :=
  timeout = "" || (parseDuration lib.fraction timeout).any (0 < ·)

def validateAgentTask (lib : Library) (spec : CanonicalSpec) (i : Nat) (n : CanonicalNode) :
    Except String Unit := do
  refuse (n.prompt = "") s!"graph.nodes[{i}].prompt is required for agent_task"
  refuse n.humanGate.isSome s!"graph.nodes[{i}].humanGate is forbidden for agent_task"
  refuse (n.modelRef = "" ∧ spec.defaultModelRef = "")
    s!"graph.nodes[{i}] requires modelRef or spec.defaultModelRef"
  validateNames i "skill" "is not declared by the workflow" (spec.skills.map CanonicalSkill.name) []
    n.skills
  validateNames i "capability" "is not requested by the workflow"
    (spec.requestedCapabilities.map CanonicalCapability.tool) [] n.capabilities
  refuse (¬ validTimeout lib n.timeout) s!"graph.nodes[{i}].timeout must be a positive duration"
  (compileSchema lib n.outputSchema).mapError fun err => s!"graph.nodes[{i}].outputSchema: {err}"

/-- The checks of a human gate. Its timeout is not among them. -/
def validateHumanGate (lib : Library) (i : Nat) (n : CanonicalNode) : Except String Unit := do
  refuse (n.prompt ≠ "" ∨ n.modelRef ≠ "" ∨ n.skills ≠ [] ∨ n.capabilities ≠ [] ∨ n.workspaceTools)
    s!"graph.nodes[{i}] human_gate cannot declare agent prompt/model/skills/capabilities/workspaceTools"
  refuse n.outputSchema.isSome
    s!"graph.nodes[{i}].outputSchema is forbidden for human_gate; use humanGate.responseSchema"
  match n.humanGate with
  | none => .error s!"graph.nodes[{i}].humanGate is required for human_gate"
  | some gate =>
      refuse (gate.type ∉ ["information", "decision", "approval", "artifact"])
        s!"graph.nodes[{i}].humanGate.type {quote gate.type} is invalid"
      refuse (¬ gate.title.complete) s!"graph.nodes[{i}].humanGate.title requires en and pt text"
      refuse (¬ gate.description.complete)
        s!"graph.nodes[{i}].humanGate.description requires en and pt text"
      (compileSchema lib gate.responseSchema).mapError fun err =>
        s!"graph.nodes[{i}].humanGate.responseSchema: {err}"
      (validateDashboardResponseSchema gate.responseSchema).mapError fun err =>
        s!"graph.nodes[{i}].humanGate.responseSchema: {err}"
      (validateHumanGatePresentation n.outcomes gate).mapError fun err =>
        s!"graph.nodes[{i}].humanGate.presentation: {err}"

def validateNode (lib : Library) (spec : CanonicalSpec) (i : Nat) (earlier : List String)
    (n : CanonicalNode) : Except String Unit := do
  refuse (n.key = "") s!"graph.nodes[{i}].key is required"
  refuse (n.key ∈ earlier) s!"graph.nodes[{i}].key {quote n.key} is duplicated"
  refuse (¬ n.label.complete) s!"graph.nodes[{i}].label requires en and pt text"
  refuse (n.outcomes = []) s!"graph.nodes[{i}].outcomes must not be empty"
  validateOutcomes i 0 [] n.outcomes
  if n.kind = nodeAgentTask then validateAgentTask lib spec i n
  else if n.kind = nodeHumanGate then validateHumanGate lib i n
  else .error s!"graph.nodes[{i}].kind {quote n.kind} is unknown"

def validateNodes (lib : Library) (spec : CanonicalSpec) :
    Nat → List String → List CanonicalNode → Except String Unit
  | _, _, [] => .ok ()
  | i, earlier, n :: rest => do
      validateNode lib spec i earlier n
      validateNodes lib spec (i + 1) (n.key :: earlier) rest

/-! ### Routes -/

namespace CanonicalGraph

def keys (g : CanonicalGraph) : List String := g.nodes.map CanonicalNode.key

/-- A node with this key declares the outcome. -/
def declares (g : CanonicalGraph) (key outcome : String) : Bool :=
  g.nodes.any fun n => n.key = key ∧ outcome ∈ n.outcomes

def pairs (g : CanonicalGraph) : List (String × String) :=
  g.edges.map fun e => (e.fromNode, e.toNode)

end CanonicalGraph

/-- What routes are identified by: a node and an outcome. -/
abbrev Route := String × String

/-- The loop over the edges, with the routes it has made and where they lead. -/
def validateEdges (g : CanonicalGraph) :
    Nat → List (Route × String) → List CanonicalEdge → Except String (List (Route × String))
  | _, routes, [] => .ok routes
  | i, routes, e :: rest => do
      refuse (e.fromNode ∉ g.keys)
        s!"graph.edges[{i}].from {quote e.fromNode} does not reference a node"
      refuse (e.toNode ∉ g.keys) s!"graph.edges[{i}].to {quote e.toNode} does not reference a node"
      refuse (¬ g.declares e.fromNode e.outcome)
        s!"graph.edges[{i}] outcome {quote e.outcome} is not declared by node {quote e.fromNode}"
      match routes.find? fun r => r.1 = (e.fromNode, e.outcome) with
      | some previous =>
          .error s!"graph outcome {e.fromNode}/{e.outcome} has multiple routes ({previous.2} and {e.toNode})"
      | none => validateEdges g (i + 1) (((e.fromNode, e.outcome), e.toNode) :: routes) rest

def validateTerminals (g : CanonicalGraph) :
    Nat → List (Route × String) → List CanonicalTerminalOutcome →
      Except String (List (Route × String))
  | _, routes, [] => .ok routes
  | i, routes, t :: rest => do
      refuse (t.node ∉ g.keys)
        s!"graph.terminalOutcomes[{i}].node {quote t.node} does not reference a node"
      refuse (¬ g.declares t.node t.outcome)
        s!"graph.terminalOutcomes[{i}] outcome {quote t.outcome} is not declared by node {quote t.node}"
      match routes.find? fun r => r.1 = (t.node, t.outcome) with
      | some previous =>
          .error s!"graph outcome {t.node}/{t.outcome} is both terminal and routed to {previous.2}"
      | none => validateTerminals g (i + 1) (((t.node, t.outcome), "$terminal") :: routes) rest

/-! ### Result presentations -/

/-- `validateResultOutcomePresentations`, with the outcomes that were presented. -/
def validateOutcomePresentations (nodeKey : String) (terminal : List String) :
    Nat → List String → List ResultOutcomePresentation → Except String Unit
  | _, _, [] => .ok ()
  | i, earlier, p :: rest => do
      refuse (p.outcome ∉ terminal)
        s!"graph node {quote nodeKey} resultPresentation.outcomes[{i}] references non-terminal outcome {quote p.outcome}"
      refuse (p.outcome ∈ earlier)
        s!"graph node {quote nodeKey} resultPresentation outcome {quote p.outcome} is duplicated"
      refuse (¬ p.summary.complete)
        s!"graph node {quote nodeKey} resultPresentation outcome {quote p.outcome} summary requires en and pt text"
      validateOutcomePresentations nodeKey terminal (i + 1) (p.outcome :: earlier) rest

/-- `validateResultPresentations`, at one node. -/
def validateResultPresentation (lib : Library) (terminals : List CanonicalTerminalOutcome)
    (node : CanonicalNode) : Except String Unit :=
  let terminal := ((terminals.filter fun t => t.node = node.key).map
    CanonicalTerminalOutcome.outcome).eraseDups
  if terminal = [] then
    refuse node.resultPresentation.isSome
      s!"graph node {quote node.key} resultPresentation is only allowed on a terminal node"
  else
    match node.resultPresentation with
    | none => .error s!"graph node {quote node.key} requires resultPresentation for its terminal outcomes"
    | some presentation => do
        refuse (presentation.outcomes.length ≠ terminal.length)
          s!"graph node {quote node.key} resultPresentation.outcomes must cover each terminal outcome exactly once"
        validateOutcomePresentations node.key terminal 0 [] presentation.outcomes
        let schema :=
          if node.kind = nodeHumanGate then (node.humanGate.map HumanGate.responseSchema).getD .blank
          else node.outputSchema.getD .blank
        validateResultFields lib schema presentation.fields
          s!"graph node {quote node.key} resultPresentation.fields"

def validateResultPresentations (lib : Library) (g : CanonicalGraph) : Except String Unit :=
  forEach (fun _ key =>
    match g.nodes.find? fun n => n.key = key with
    | none => .ok ()
    | some node => validateResultPresentation lib g.terminalOutcomes node)
    0 (g.keys.insertionSort (· ≤ ·))

/-! ### The validator -/

/-- The nodes from which a walk against the edges starts at a terminal node and comes by. -/
def canTerminate (g : CanonicalGraph) : List String :=
  g.terminalOutcomes.flatMap fun t => walk (g.pairs.map Prod.swap) t.node

local instance : LawfulBEq Route := inferInstance

def validateGraph (lib : Library) (spec : CanonicalSpec) : Except String Unit := do
  let g := spec.graph
  refuse (g.entryNode = "") "graph.entryNode is required"
  refuse (g.maxTransitions < 1 ∨ 10000 < g.maxTransitions)
    "graph.maxTransitions must be between 1 and 10000"
  refuse g.nodes.isEmpty "graph.nodes must not be empty"
  refuse (g.terminalOutcomes = []) "graph.terminalOutcomes must not be empty"
  forEach (fun _ c => refuse (c.tool = "complete_step")
    "requested capability complete_step is reserved by the platform") 0 spec.requestedCapabilities
  validateNodes lib spec 0 [] g.nodes
  refuse (g.entryNode ∉ g.keys) s!"graph.entryNode {quote g.entryNode} does not reference a node"
  let routes ← validateEdges g 0 [] g.edges
  let routes ← validateTerminals g 0 routes g.terminalOutcomes
  validateResultPresentations lib g
  forEach (fun _ n => forEach (fun _ outcome => refuse ((n.key, outcome) ∉ routes.map Prod.fst)
    s!"graph outcome {n.key}/{outcome} has no edge or terminal declaration") 0 n.outcomes) 0 g.nodes
  forEach (fun _ key => refuse (key ∉ walk g.pairs g.entryNode)
    s!"graph node {quote key} is unreachable from entryNode") 0 g.keys
  forEach (fun _ key => refuse (key ∉ canTerminate g)
    s!"graph node {quote key} has no path to a terminal outcome") 0 g.keys

variable {u : Unit}

/-! ### What is accepted -/

theorem refuse_ok {p : Prop} [Decidable p] {message : String} : refuse p message = .ok u ↔ ¬ p := by
  unfold refuse
  split <;> simp_all

variable {i : Nat}

theorem forEach_ok {α : Type} {check : Nat → α → Except String Unit} {xs : List α}
    (passed : forEach check i xs = .ok u) : ∀ x ∈ xs, ∃ j, check j x = .ok () := by
  induction xs generalizing i with
  | nil => intro x member; cases member
  | cons y rest ih =>
    obtain ⟨_, first, others⟩ := bind_ok.mp passed
    intro x member
    rcases mem_cons.mp member with rfl | member
    · exact ⟨i, first⟩
    · exact ih others x member

namespace CanonicalGraph

def routes (g : CanonicalGraph) : List Route :=
  (g.edges.map fun e => (e.fromNode, e.outcome)) ++
    g.terminalOutcomes.map fun t => (t.node, t.outcome)

/-- **What the engine may rely on.** -/
structure WellFormed (g : CanonicalGraph) : Prop where
  limit : 1 ≤ g.maxTransitions
  entry : g.entryNode ∈ g.keys
  distinct : g.keys.Nodup
  kinds : ∀ n ∈ g.nodes, n.kind = nodeAgentTask ∨ n.kind = nodeHumanGate ∧ ∃ gate,
    n.humanGate = some gate ∧ gate.type ∈ ["information", "decision", "approval", "artifact"]
  edges : ∀ e ∈ g.edges, g.declares e.fromNode e.outcome = true ∧ e.toNode ∈ g.keys
  terminals : ∀ t ∈ g.terminalOutcomes, g.declares t.node t.outcome = true
  unique : g.routes.Nodup
  covered : ∀ n ∈ g.nodes, ∀ outcome ∈ n.outcomes, (n.key, outcome) ∈ g.routes
  reachable : ∀ key ∈ g.keys, Relation.ReflTransGen (Edge g.pairs) g.entryNode key
  terminates : ∀ key ∈ g.keys, ∃ t ∈ g.terminalOutcomes,
    Relation.ReflTransGen (Edge g.pairs) key t.node

end CanonicalGraph

variable {lib : Library} {spec : CanonicalSpec} {earlier : List String}

theorem validateNode_kind
    {n : CanonicalNode} (passed : validateNode lib spec i earlier n = .ok u) :
    n.key ∉ earlier ∧
      (n.kind = nodeAgentTask ∧ (n.modelRef ≠ "" ∨ spec.defaultModelRef ≠ "") ∧
          validTimeout lib n.timeout = true ∨
        n.kind = nodeHumanGate ∧ ∃ gate, n.humanGate = some gate ∧
          gate.type ∈ ["information", "decision", "approval", "artifact"]) := by
  simp only [validateNode, bind_ok, refuse_ok] at passed
  obtain ⟨_, _, _, fresh, _, _, _, _, _, _, kind⟩ := passed
  refine ⟨fresh, ?_⟩
  by_cases agent : n.kind = nodeAgentTask
  · simp only [agent, if_true, validateAgentTask, bind_ok, refuse_ok] at kind
    obtain ⟨_, _, _, _, _, model, _, _, _, _, _, timeout, _⟩ := kind
    exact .inl ⟨agent, by tauto, not_not.mp timeout⟩
  rw [if_neg agent] at kind
  by_cases human : n.kind = nodeHumanGate
  · simp only [human, if_true, validateHumanGate, bind_ok, refuse_ok] at kind
    obtain ⟨_, _, _, _, gate⟩ := kind
    refine .inr ⟨human, ?_⟩
    cases asks : n.humanGate with
    | none =>
      rw [asks] at gate
      cases gate
    | some gate' =>
      simp only [asks, bind_ok, refuse_ok] at gate
      obtain ⟨_, type, _⟩ := gate
      exact ⟨gate', rfl, not_not.mp type⟩
  · rw [if_neg human] at kind
    cases kind

theorem validateNodes_ok {nodes : List CanonicalNode}
    (passed : validateNodes lib spec i earlier nodes = .ok u) : (nodes.map CanonicalNode.key).Nodup ∧
    (∀ n ∈ nodes, n.key ∉ earlier) ∧ ∀ n ∈ nodes, ∃ j before, validateNode lib spec j before n =
    .ok () := by
  induction nodes generalizing i earlier with
  | nil => exact ⟨nodup_nil, by simp, by simp⟩
  | cons n rest ih =>
    obtain ⟨_, first, others⟩ := bind_ok.mp passed
    obtain ⟨distinct, fresh, each⟩ := ih others
    refine ⟨nodup_cons.mpr ⟨fun repeated => ?_, distinct⟩, fun m member => ?_, fun m member => ?_⟩
    · obtain ⟨m, member, same⟩ := mem_map.mp repeated
      exact fresh m member (by rw [same]; exact .head _)
    · rcases mem_cons.mp member with rfl | member
      · exact (validateNode_kind first).1
      · exact fun old => fresh m member (.tail _ old)
    · rcases mem_cons.mp member with rfl | member
      · exact ⟨i, earlier, first⟩
      · exact each m member

/-- The routes after a loop: what it adds is new and distinct. -/
structure Extends (added : List Route) (before after : List (Route × String)) : Prop where
  same : after.map Prod.fst = added.reverse ++ before.map Prod.fst
  distinct : (before.map Prod.fst).Nodup → (after.map Prod.fst).Nodup

variable {after before : List (Route × String)}

theorem Extends.cons {route : Route} {target : String} {added : List Route}
    (free : (before.find? fun r => r.1 = route) = none)
    (rest : Extends added ((route, target) :: before) after) :
    Extends (route :: added) before after := by
  refine ⟨by rw [rest.same]; simp, fun nodup => rest.distinct ?_⟩
  refine nodup_cons.mpr ⟨fun taken => ?_, nodup⟩
  obtain ⟨r, member, same⟩ := mem_map.mp taken
  have missed := find?_eq_none.mp free r member
  exact missed (decide_eq_true same)

variable {g : CanonicalGraph}

theorem validateEdges_ok {edges : List CanonicalEdge}
    (passed : validateEdges g i before edges = .ok after) :
    (∀ e ∈ edges, g.declares e.fromNode e.outcome = true ∧ e.toNode ∈ g.keys) ∧
    Extends (edges.map fun e => (e.fromNode, e.outcome)) before after := by
  induction edges generalizing i before with
  | nil =>
    cases passed
    exact ⟨by simp, ⟨rfl, id⟩⟩
  | cons e rest ih =>
    simp only [validateEdges, bind_ok, refuse_ok] at passed
    obtain ⟨_, _, _, target, _, declared, others⟩ := passed
    cases free : before.find? fun r => r.1 = (e.fromNode, e.outcome) with
    | some previous =>
      rw [free] at others
      cases others
    | none =>
      rw [free] at others
      obtain ⟨sound, extended⟩ := ih others
      refine ⟨fun e' member => ?_, extended.cons free⟩
      rcases mem_cons.mp member with rfl | member
      · exact ⟨not_not.mp declared, not_not.mp target⟩
      · exact sound e' member

theorem validateTerminals_ok {terminals : List CanonicalTerminalOutcome}
    (passed : validateTerminals g i before terminals = .ok after) :
    (∀ t ∈ terminals, g.declares t.node t.outcome = true) ∧
    Extends (terminals.map fun t => (t.node, t.outcome)) before after := by
  induction terminals generalizing i before with
  | nil =>
    cases passed
    exact ⟨by simp, ⟨rfl, id⟩⟩
  | cons t rest ih =>
    simp only [validateTerminals, bind_ok, refuse_ok] at passed
    obtain ⟨_, _, _, declared, others⟩ := passed
    cases free : before.find? fun r => r.1 = (t.node, t.outcome) with
    | some previous =>
      rw [free] at others
      cases others
    | none =>
      rw [free] at others
      obtain ⟨sound, extended⟩ := ih others
      refine ⟨fun t' member => ?_, extended.cons free⟩
      rcases mem_cons.mp member with rfl | member
      · exact not_not.mp declared
      · exact sound t' member

/-- A walk against the edges comes by the nodes that reach its start. -/
theorem mem_canTerminate {key : String} (found : key ∈ canTerminate g) :
    ∃ t ∈ g.terminalOutcomes, Relation.ReflTransGen (Edge g.pairs) key t.node := by
  obtain ⟨t, terminal, seen⟩ := mem_flatMap.mp found
  refine ⟨t, terminal, ?_⟩
  have against : Edge (g.pairs.map Prod.swap) = Function.swap (Edge g.pairs) := by
    funext a b
    simp only [Edge, Function.swap, mem_map, eq_iff_iff]
    constructor
    · rintro ⟨⟨x, y⟩, member, same⟩
      cases same
      exact member
    · exact fun member => ⟨(b, a), member, rfl⟩
  rw [mem_walk_iff, against] at seen
  exact Relation.reflTransGen_swap.mp seen

/-- **An accepted graph is well formed**, and so are its nodes. -/
theorem validateGraph_ok (accepted : validateGraph lib spec = .ok ()) : spec.graph.WellFormed ∧
    ∀ n ∈ spec.graph.nodes, ∃ i earlier, validateNode lib spec i earlier n = .ok () := by
  simp only [validateGraph, bind_ok, refuse_ok] at accepted
  obtain ⟨_, _, _, limit, _, _, _, _, _, _, _, nodes, _, entry, edgeRoutes, edges, routes, terminals,
    _, _, _, covered, _, reachable, terminates⟩ := accepted
  obtain ⟨distinct, _, each⟩ := validateNodes_ok nodes
  obtain ⟨edgesSound, edgesExtend⟩ := validateEdges_ok edges
  obtain ⟨terminalsSound, terminalsExtend⟩ := validateTerminals_ok terminals
  have routed : routes.map Prod.fst = spec.graph.routes.reverse := by
    rw [terminalsExtend.same, edgesExtend.same, CanonicalGraph.routes, reverse_append]
    simp
  refine ⟨{
    limit := by omega
    entry := not_not.mp entry
    distinct := distinct
    kinds := ?_
    edges := edgesSound
    terminals := terminalsSound
    unique := ?_
    covered := ?_
    reachable := ?_
    terminates := ?_ }, each⟩
  · intro n member
    obtain ⟨i, earlier, passed⟩ := each n member
    exact (validateNode_kind passed).2.imp (fun agent => agent.1) id
  · have nodup := terminalsExtend.distinct (edgesExtend.distinct nodup_nil)
    rw [routed] at nodup
    exact nodup_reverse.mp nodup
  · intro n member outcome declared
    obtain ⟨_, outcomes⟩ := forEach_ok covered n member
    obtain ⟨_, passed⟩ := forEach_ok outcomes outcome declared
    have found := not_not.mp (refuse_ok.mp passed)
    rw [routed, mem_reverse] at found
    exact found
  · intro key member
    obtain ⟨_, passed⟩ := forEach_ok reachable key member
    exact (mem_walk_iff _ _ _).mp (not_not.mp (refuse_ok.mp passed))
  · intro key member
    obtain ⟨_, passed⟩ := forEach_ok terminates key member
    exact mem_canTerminate (not_not.mp (refuse_ok.mp passed))

end Iterabase.Workflow
