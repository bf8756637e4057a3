/-
**The validator is sound for the router.**

`ValidateGraph` and `advanceGraphTx` live in two packages and look up routes in different ways. What the
one accepts, the other can route.

* `validation_sound` — **every accepted graph is routable, and no command that routes fails because of
  its graph**, in any state the engine reaches.
-/

import Iterabase.Work.History

namespace Iterabase.Work

open Conc Data Workflow List State

/-! ### Graphs -/

/-- Where an outcome of a node leads: to the one terminal declaration of it, or along its one edge. -/
inductive Routed (g : CanonicalGraph) (key outcome : String) : Prop
  | terminal (t : CanonicalTerminalOutcome)
      (declared : (g.terminalOutcomes.filter fun t => (t.node, t.outcome) = (key, outcome)) = [t])
      (noEdge : (g.edges.filter fun e => (e.fromNode, e.outcome) = (key, outcome)) = [])
      (routed : route g key outcome = some .terminal)
  | edge (e : CanonicalEdge)
      (only : (g.edges.filter fun e => (e.fromNode, e.outcome) = (key, outcome)) = [e])
      (undeclared : (g.terminalOutcomes.filter fun t => (t.node, t.outcome) = (key, outcome)) = [])
      (routed : route g key outcome = some (.node e.toNode))

/-- A graph that can be routed. -/
structure Routable (g : CanonicalGraph) : Prop where
  routed : ∀ n ∈ g.nodes, ∀ outcome ∈ n.outcomes, Routed g n.key outcome
  targets : ∀ e ∈ g.edges, ∃ d, findNode g e.toNode = some d
  reachable : ∀ n ∈ g.nodes, Relation.ReflTransGen (Edge g.pairs) g.entryNode n.key
  terminates : ∀ n ∈ g.nodes, ∃ t ∈ g.terminalOutcomes,
    Relation.ReflTransGen (Edge g.pairs) n.key t.node

variable {α : Type} {xs : List α} {key outcome : String} {s : State} {lib : Library}
  {ref : ArtifactRef}

theorem filter_eq_singleton {β : Type} [DecidableEq β] {f : α → β} {x : α}
    (distinct : (xs.map f).Nodup) (member : x ∈ xs) : (xs.filter fun y => f y = f x) = [x] := by
  induction xs with
  | nil => cases member
  | cons y rest ih =>
    obtain ⟨fresh, distinct⟩ := nodup_cons.mp distinct
    rcases mem_cons.mp member with rfl | member
    · rw [filter_cons_of_pos (by simp), filter_eq_nil_iff.mpr]
      intro z inside same
      exact fresh (mem_map.mpr ⟨z, inside, of_decide_eq_true same⟩)
    · rw [filter_cons_of_neg, ih distinct member]
      intro same
      exact fresh (mem_map.mpr ⟨x, member, (of_decide_eq_true same).symm⟩)

theorem findNode_of_key {g : CanonicalGraph} (member : key ∈ g.keys) :
    ∃ d, findNode g key = some d := by
  obtain ⟨d, inside, rfl⟩ := mem_map.mp member
  cases found : findNode g d.key with
  | some d' => exact ⟨d', rfl⟩
  | none =>
    have missed := find?_eq_none.mp found d inside
    simp at missed

section WellFormed

variable {g : CanonicalGraph} (wellFormed : g.WellFormed)
include wellFormed

theorem Routed.of_mem (covered : (key, outcome) ∈ g.routes) : Routed g key outcome := by
  obtain ⟨edges, terminals, apart⟩ := nodup_append.mp wellFormed.unique
  rcases mem_append.mp covered with along | declared
  · obtain ⟨e, member, same⟩ := mem_map.mp along
    have undeclared : (g.terminalOutcomes.filter fun t => (t.node, t.outcome) = (key, outcome)) = [] := by
      refine filter_eq_nil_iff.mpr fun t inside equal => ?_
      exact apart _ along _ (mem_map.mpr ⟨t, inside, rfl⟩) (of_decide_eq_true equal).symm
    have only := filter_eq_singleton edges member
    rw [same] at only
    refine .edge e only undeclared ?_
    have first : (g.edges.find? fun e => e.fromNode = key ∧ e.outcome = outcome) = some e := by
      rw [← head?_filter]
      simp only [Prod.mk.injEq] at only
      rw [only]
      rfl
    have none : (g.terminalOutcomes.any fun t => t.node = key ∧ t.outcome = outcome) = false := by
      simpa [filter_eq_nil_iff] using undeclared
    rw [route, none, first]
    rfl
  · obtain ⟨t, member, same⟩ := mem_map.mp declared
    have noEdge : (g.edges.filter fun e => (e.fromNode, e.outcome) = (key, outcome)) = [] := by
      refine filter_eq_nil_iff.mpr fun e inside equal => ?_
      exact apart _ (mem_map.mpr ⟨e, inside, rfl⟩) _ declared (of_decide_eq_true equal)
    have only := filter_eq_singleton terminals member
    rw [same] at only
    refine .terminal t only noEdge ?_
    cases same
    rw [route, if_pos (any_eq_true.mpr ⟨t, member, by simp⟩)]

theorem route_of_edge {e : CanonicalEdge} (edge : e ∈ g.edges) :
    route g e.fromNode e.outcome = some (.node e.toNode) := by
  have covered : (e.fromNode, e.outcome) ∈ g.routes :=
    mem_append_left _ (mem_map.mpr ⟨e, edge, rfl⟩)
  have kept : e ∈ g.edges.filter fun e' => (e'.fromNode, e'.outcome) = (e.fromNode, e.outcome) :=
    mem_filter.mpr ⟨edge, by simp⟩
  cases Routed.of_mem wellFormed covered with
  | terminal _ _ noEdge _ =>
    rw [noEdge] at kept
    cases kept
  | edge e' only _ routed =>
    rw [only] at kept
    exact (mem_singleton.mp kept) ▸ routed

/-- **A well-formed graph can be routed.** -/
theorem Routable.of_wellFormed : Routable g where
  routed n member outcome declared := .of_mem wellFormed (wellFormed.covered n member outcome declared)
  targets e member := findNode_of_key (wellFormed.edges e member).2
  reachable n member := wellFormed.reachable n.key (mem_map.mpr ⟨n, member, rfl⟩)
  terminates n member := wellFormed.terminates n.key (mem_map.mpr ⟨n, member, rfl⟩)

end WellFormed

/-! ### The router -/

/-- An error of a graph that does not fit. -/
def Err.IsGraph (err : Err) : Prop := ∃ reason, err = .graph reason

variable {err : Err}

/-- A row that is refused is not refused because of a graph. -/
theorem State.unique_error {name : String} {table : Option α} {f : α → State}
    (failed : (unique name table >>= fun t => pure (f t)) = .error err) : ¬ err.IsGraph := by
  rintro ⟨reason, rfl⟩
  cases table with
  | none | some => cases failed

theorem State.insertNode_error {n : NodeExecution} (failed : s.insertNode n = .error err) :
    ¬ err.IsGraph := by
  unfold insertNode at failed
  split at failed
  · cases failed
    rintro ⟨_, same⟩
    cases same
  split at failed
  · cases failed
    rintro ⟨_, same⟩
    cases same
  split at failed
  · cases failed
    rintro ⟨_, same⟩
    cases same
  · split at failed
    · cases failed
      rintro ⟨_, same⟩
      cases same
    · exact unique_error failed

variable {d : CanonicalNode}

theorem nodeTimeout_error (failed : nodeTimeout lib d = .error err) : ¬ err.IsGraph := by
  rintro ⟨reason, rfl⟩
  unfold nodeTimeout at failed
  split at failed
  · cases failed
  split at failed
  · cases failed
  · split at failed <;> cases failed

variable {attemptID : ID}

theorem insertNodeExecution_avoids {id : ID} {visit seq : Nat}
    {models : List (String × ModelSnapshot)} {spec : CanonicalSpec} :
    Tx.Avoids Err.IsGraph (insertNodeExecution lib id attemptID d visit seq models spec) s := by
  refine Tx.Avoids.attempt fun err failed => ?_
  cases timeout : nodeTimeout lib d with
  | error err' =>
    simp only [nodeRow, timeout, bind, Except.bind] at failed
    cases failed
    exact nodeTimeout_error timeout
  | ok timeoutMS =>
    simp only [nodeRow, timeout, bind, Except.bind, pure, Except.pure] at failed
    exact insertNode_error failed

section Router

variable {lib : Library} {input : Input} {s : State} {A itemID : ID} {a : Attempt}
  {node : NodeExecution} {outcome : String}

theorem not_graph (other : ∀ reason, err ≠ .graph reason) : ¬ err.IsGraph :=
  fun ⟨reason, same⟩ => other reason same

theorem State.insertValue_error {feedbackID : Option ID} {kind : ValueKind} {amount : Int}
    {currency : String} {model : ValueModel}
    (failed : s.insertValue itemID attemptID feedbackID kind amount currency model = .error err) :
    ¬ err.IsGraph := by
  unfold insertValue at failed
  split at failed
  · cases failed
    exact not_graph (by simp)
  split at failed
  · split at failed <;> cases failed
  · cases failed
    exact not_graph (by simp)

theorem State.creditValue_error (failed : s.creditValue itemID A = .error err) : ¬ err.IsGraph := by
  unfold creditValue at failed
  split at failed
  · cases failed
    exact not_graph (by simp)
  split at failed
  · split at failed
    · exact insertValue_error failed
    · cases failed
  · cases failed

theorem complete_avoids : Tx.Avoids Err.IsGraph (complete itemID A node outcome) s := by
  refine .write_then (.write_then (.attempt_then (fun err failed => ?_) fun _ _ =>
    .attempt_then (fun err failed => ?_) fun _ _ => ?_))
  · exact unique_error failed
  · exact creditValue_error failed
  · exact .write_then (.pure _)

theorem exhaust_avoids : Tx.Avoids Err.IsGraph (exhaust itemID A node) s :=
  .write_then (.write_then (.write_then (.pure _)))

theorem proceed_avoids {target : String} (found : findNode a.graph target = some d) :
    Tx.Avoids Err.IsGraph (proceed lib input a node outcome target) s := by
  refine .need_then (fun missing => ?_) fun next _ => .read_then (.read_then ?_)
  · rw [found] at missing
    cases missing
  refine .bind insertNodeExecution_avoids fun _ s₁ _ => .write_then ?_
  refine .attempt_then (fun err failed => unique_error failed) fun _ _ => ?_
  exact .write_then (.pure _)

/-- **The router does not fail because of a well-formed graph** that the execution fits. -/
theorem advanceGraph_avoids
    (fits : ∀ a, s.attempts.find A = some a → a.graph.WellFormed ∧ Fits a.graph node) :
    Tx.Avoids Err.IsGraph (advanceGraph lib input itemID A node) s := by
  refine .need_then (fun _ => not_graph (by simp)) fun outcome reported => ?_
  refine .need_then (fun _ => not_graph (by simp)) fun a found => ?_
  obtain ⟨wellFormed, d, defined, kind, declared⟩ := fits a found
  have declared := declared outcome reported
  have same : (findNode a.graph node.nodeKey).filter (fun n => n.kind = node.kind) = some d := by
    rw [defined, Option.filter_some, if_pos (decide_eq_true kind)]
  refine .need_then (fun missing => ?_) fun d' found' => ?_
  · rw [same] at missing
    cases missing
  cases same.symm.trans found'
  refine .refuse_then (fun undeclared => absurd declared undeclared) fun _ => .write_then ?_
  have covered := wellFormed.covered d (findNode_mem defined) outcome declared
  rw [findNode_key defined] at covered
  cases Routed.of_mem wellFormed covered with
  | terminal _ _ _ routed =>
    rw [routed]
    exact complete_avoids
  | edge e only _ routed =>
    rw [routed]
    refine .read_then ?_
    split
    · exact exhaust_avoids
    have member : e ∈ a.graph.edges := by
      have kept : e ∈ a.graph.edges.filter fun e =>
          (e.fromNode, e.outcome) = (node.nodeKey, outcome) := by
        rw [only]
        exact mem_singleton_self e
      exact (mem_filter.mp kept).1
    obtain ⟨next, present⟩ := findNode_of_key (wellFormed.edges e member).2
    exact proceed_avoids present

end Router

/-! ### The commands -/

section Commands

variable {lib : Library} {input : Input} {s : State}

theorem Inv.wellFormed (inv : Inv lib s) {A : ID} {a : Attempt} (found : s.attempts.find A = some a) :
    a.graph.WellFormed := by
  obtain ⟨v, here, graph, _, _⟩ := view_of_find found
  obtain ⟨spec, accepted, same⟩ := inv.accepted here
  rw [← graph, ← same]
  exact (validateGraph_ok accepted).1

theorem completeTurn_avoids (inv : Inv lib s) {turnID : ID} {reason : String} {failure : RawMessage} :
    Tx.Avoids Err.IsGraph (completeTurn lib input turnID reason failure) s := by
  refine .need_then (fun _ => not_graph (by simp)) fun turn present => ?_
  refine .need_then (fun _ => not_graph (by simp)) fun node found => ?_
  refine .need_then (fun _ => not_graph (by simp)) fun a known => ?_
  refine .refuse_then (fun _ => not_graph (by simp)) fun running => ?_
  have running : turn.state = .running := not_not.mp running
  obtain ⟨v, rest, here, _, nodes, _⟩ := inv.running_turn (Table.find_mem present) running found
  split
  · exact .write_then (.write_then (.write_then (.write_then (.write_then (.pure _)))))
  refine .write_then (.write_then (advanceGraph_avoids fun a' found' => ⟨inv.wellFormed found', ?_⟩))
  obtain ⟨v', here', graph, _, _⟩ := view_of_find (s := s) found'
  cases here.symm.trans here'
  obtain ⟨_, _, _, course, _, _⟩ := inv.sound here
  rw [← graph]
  exact course.fits node (by rw [nodes]; exact .head _)

theorem confirm_avoids {b : Blocker} {confirmed : List Gateway.InvocationID} :
    Tx.Avoids Err.IsGraph (confirm input b outcome confirmed) s := by
  refine .need_then (fun _ => not_graph (by simp)) fun nodeID _ => ?_
  refine .need_then (fun _ => not_graph (by simp)) fun node _ => .read_then ?_
  split
  · exact .write_then (.pure _)
  · refine .refuse_then (fun _ => not_graph (by simp)) fun _ => ?_
    exact .write_then (.write_then (.write_then (.write_then (.pure _))))

theorem forM_error {f : α → Except Err Unit} (failed : xs.forM f = .error err) :
    ∃ x ∈ xs, f x = .error err := by
  induction xs with
  | nil => cases failed
  | cons x rest ih =>
    change (f x >>= fun _ => rest.forM f) = _ at failed
    cases first : f x with
    | error err' =>
      rw [first] at failed
      cases failed
      exact ⟨x, .head _, first⟩
    | ok _ =>
      rw [first] at failed
      obtain ⟨x', member, failed'⟩ := ih failed
      exact ⟨x', .tail _ member, failed'⟩

theorem ArtifactRef.uuid_error (failed : ref.uuid = .error err) : ¬ err.IsGraph := by
  unfold ArtifactRef.uuid at failed
  split at failed
  · cases failed
    exact not_graph (by simp)
  · cases failed

theorem checkResponseArtifact_error (failed : checkResponseArtifact input ref = .error err) :
    ¬ err.IsGraph := by
  unfold checkResponseArtifact at failed
  split at failed
  · cases failed
    exact not_graph (by simp)
  split at failed
  · cases failed
    exact not_graph (by simp)
  cases named : ref.uuid with
  | error err' =>
    rw [named] at failed
    cases failed
    exact ArtifactRef.uuid_error named
  | ok id =>
    rw [named] at failed
    change (if _ then Except.ok () else .error _) = _ at failed
    split at failed
    · cases failed
    · cases failed
      exact not_graph (by simp)

theorem State.linkAll_error {itemID nodeID : ID} {role : ArtifactRef → String}
    {refs : List ArtifactRef}
    (failed : s.linkAll itemID attemptID nodeID role refs = .error err) : ¬ err.IsGraph := by
  unfold linkAll at failed
  induction refs generalizing s with
  | nil => cases failed
  | cons ref rest ih =>
    rw [foldlM_cons] at failed
    cases named : ref.uuid with
    | error err' =>
      rw [named] at failed
      cases failed
      exact ArtifactRef.uuid_error named
    | ok id =>
      rw [named] at failed
      exact ih failed

theorem fits_answered {b : Blocker} (refs : List ArtifactRef) (fits : Fits g n)
    (asked : ∃ d, findNode g n.nodeKey = some d ∧ b.allowedOutcomes = d.outcomes ∧ d.kind = nodeHumanGate)
    (allowed : outcome ∈ b.allowedOutcomes) : Fits g (n.answered outcome refs) := by
  obtain ⟨d, defined, kind, _⟩ := fits
  obtain ⟨d', defined', outcomes, _⟩ := asked
  cases defined.symm.trans defined'
  refine ⟨d, defined, kind, fun o answered => ?_⟩
  cases answered
  rw [← outcomes]
  exact allowed

theorem respondBlocker_avoids (inv : Inv lib s) {response : BlockerResponseInput} :
    Tx.Avoids Err.IsGraph (respondBlocker lib input response) s := by
  refine .refuse_then (fun _ => not_graph (by simp)) fun _ => ?_
  refine .need_then (fun _ => not_graph (by simp)) fun b present => ?_
  refine .refuse_then (fun _ => not_graph (by simp)) fun opened => ?_
  refine .refuse_then (fun _ => not_graph (by simp)) fun allowed => ?_
  refine .refuse_then (fun _ => not_graph (by simp)) fun _ => ?_
  refine .refuse_then (fun _ => not_graph (by simp)) fun _ => ?_
  refine .refuse_then (fun _ => not_graph (by simp)) fun _ => ?_
  refine .check_then (fun err failed => ?_) fun _ _ => ?_
  · obtain ⟨_, _, failed⟩ := forM_error failed
    exact checkResponseArtifact_error failed
  split
  · exact confirm_avoids
  rename_i human
  obtain ⟨v, n, rest, here, _, nodes, node, known, _, _, asks⟩ :=
    inv.open_blocker (Table.find_mem present) (not_not.mp opened)
  refine .write_then (.need_then (fun _ => not_graph (by simp)) fun nodeID named => ?_)
  cases node.symm.trans named
  refine .bind ?_ fun _ _ _ => .pure _
  refine .need_then (fun _ => not_graph (by simp)) fun n' known' => ?_
  cases known.symm.trans known'
  refine .refuse_then (fun _ => not_graph (by simp)) fun _ => .write_then (.attempt_then
    (fun err failed => linkAll_error failed) fun s₁ linked => .write_then ?_)
  refine advanceGraph_avoids fun a found => ?_
  obtain ⟨links, rfl⟩ := linkAll_eq linked
  have found : s.attempts.find b.attemptID = some a := found
  refine ⟨inv.wellFormed found, ?_⟩
  obtain ⟨v', here', graph, _, _⟩ := view_of_find found
  cases here.symm.trans here'
  obtain ⟨_, _, _, course, _, _⟩ := inv.sound here
  rw [← graph]
  exact fits_answered _ (course.fits n (by rw [nodes]; exact .head _)) (asks human)
    (not_not.mp allowed)

end Commands

/-- **What is accepted can be routed.** -/
theorem validation_sound (lib : Library) :
    (∀ spec, validateGraph lib spec = .ok () → Routable spec.graph) ∧
    ∀ c, (engine lib).Reaches .free State.empty c → ∀ input err,
      (∀ turnID reason failure,
        completeTurn lib input turnID reason failure c.shared ≠ .error (.graph err)) ∧
      ∀ response, respondBlocker lib input response c.shared ≠ .error (.graph err) := by
  refine ⟨fun spec accepted => .of_wellFormed (validateGraph_ok accepted).1, fun c reached input err => ?_⟩
  have inv := engine_inv reached
  refine ⟨fun turnID reason failure failed => ?_, fun response failed => ?_⟩
  · exact completeTurn_avoids inv _ failed ⟨err, rfl⟩
  · exact respondBlocker_avoids inv _ failed ⟨err, rfl⟩

theorem validation_sound_repeating :
    validateGraph lenient repeating = .ok () ∧ Routable repeating.graph := by
  have accepted : validateGraph lenient repeating = .ok () := by decide +kernel
  exact ⟨accepted, (validation_sound lenient).1 repeating accepted⟩

end Iterabase.Work
