/-
**The attempts are sound.**

* `Linked.visits`, `Linked.seqs` — what a walk counts.
* `Inv` — the invariant of the database: every attempt is sound, was made from an accepted definition,
  and is the current one of its item while it runs.
* `Inv.of_changed`, `Inv.create` — **how an attempt may move.**
-/

import Iterabase.Work.Effects

namespace Iterabase.Work

open Conc Data Workflow List State Table Option

variable {g : CanonicalGraph} {n : NodeExecution} {spec : CanonicalSpec} {d : CanonicalNode}

/-! ### Walks -/

theorem State.le_maximum {numbers : List Nat} {x : Nat} (member : x ∈ numbers) :
    x ≤ State.maximum numbers := by
  induction numbers with
  | nil => cases member
  | cons y rest ih =>
    rcases mem_cons.mp member with rfl | member
    · exact Nat.le_max_left _ _
    · exact Nat.le_trans (ih member) (Nat.le_max_right _ _)

theorem Linked.visits (linked : Linked g (n :: rest) moves) (key : String) :
    State.maximum (((n :: rest).filter fun m => m.nodeKey = key).map NodeExecution.visit) =
    ((n :: rest).filter fun m => m.nodeKey = key).length := by
  induction linked using Linked.along with
  | @entry n here =>
    obtain ⟨_, visit, _⟩ := here
    by_cases same : n.nodeKey = key <;> simp [State.maximum, same, visit]
  | @step n _ _ _ _ link _ before =>
    obtain ⟨_, _, _, visit, _⟩ := link
    by_cases same : n.nodeKey = key
    · rw [filter_cons_of_pos (by simpa using same), map_cons, length_cons]
      rw [same] at visit
      rw [State.maximum, foldr_cons, ← State.maximum, before, visit]
      omega
    · rw [filter_cons_of_neg (by simpa using same)]
      exact before

theorem Linked.seqs (linked : Linked g (n :: rest) moves) :
    State.maximum ((n :: rest).map NodeExecution.executionSeq) = n.executionSeq := by
  induction linked using Linked.along with
  | entry => simp [State.maximum]
  | step link _ ih =>
    obtain ⟨_, _, seq, _⟩ := link
    rw [map_cons, State.maximum, foldr_cons, ← State.maximum, ih, seq]
    omega

theorem Linked.plain (linked : Linked g (n :: rest) moves) : ∀ t ∈ moves, t.terminal = false := by
  induction linked using Linked.along with
  | entry => intro t member; cases member
  | step link _ ih =>
    obtain ⟨⟨plain, _⟩, _⟩ := link
    intro t' member
    rcases mem_cons.mp member with rfl | member
    · exact plain
    · exact ih t' member

theorem View.Sound.head {v : View} (sound : v.Sound) (member : n ∈ v.nodes)
    (active : n.state.isActive) : ∃ rest, v.nodes = n :: rest := by
  obtain ⟨n', rest, moves, course, _, _⟩ := sound
  rw [course.nodes] at member
  rcases mem_cons.mp member with rfl | member
  · exact ⟨rest, course.nodes⟩
  · rw [course.linked.rest_succeeded n member] at active
    cases active

theorem State.find_of_view {s : State} {A : ID} {v : View} (view : s.view A = some v)
    (member : n ∈ v.nodes) : s.nodes.find n.id = some n ∧ n.attemptID = A := by
  rw [view_nodes view, mem_nodesOf] at member
  exact ⟨find_of_mem member.1, member.2⟩

/-! ### The invariant -/

structure Inv (lib : Library) (s : State) : Prop where
  sound : ∀ {id v}, s.view id = some v → v.Sound
  accepted : ∀ {id v}, s.view id = some v → ∃ spec, validateGraph lib spec = .ok () ∧ spec.graph = v.graph
  item : ∀ {id v}, s.view id = some v → ∃ i, s.items.find v.workItemID = some i ∧
    (v.run.isTerminal = false → i.currentAttemptID = some id)
  owned : ∀ {id}, s.attempts.find id = none →
    s.nodesOf id = [] ∧ s.transitionsOf id = [] ∧ s.turnsOf id = [] ∧ s.blockersOf id = []

variable {t : Turn} {i : WorkItem} {b : Blocker} {id : ID} {row : NodeExecution}

namespace Inv

variable {lib : Library} {s s₀ s' : State} {A : ID} {v v₀ : View}

theorem of_view (inv : Inv lib s₀) (changed : Changed A s₀ s v) (sound : v.Sound)
    (accepted : ∃ spec, validateGraph lib spec = .ok () ∧ spec.graph = v.graph)
    (items : Table WorkItem.id) (mine : ∃ i, items.find v.workItemID = some i ∧
      (v.run.isTerminal = false → i.currentAttemptID = some A))
    (others : ∀ {id u}, s₀.view id = some u → id ≠ A → ∃ i, items.find u.workItemID = some i ∧
      (u.run.isTerminal = false → i.currentAttemptID = some id)) :
    Inv lib { s with items := items } := by
  have cases : ∀ {id u}, s.view id = some u → (id = A ∧ u = v) ∨ (id ≠ A ∧ s₀.view id = some u) := by
    intro id u here
    by_cases same : id = A
    · subst same
      exact .inl ⟨rfl, some.inj (here.symm.trans changed.view)⟩
    · rw [changed.within.view same] at here
      exact .inr ⟨same, here⟩
  refine ⟨fun here => ?_, fun here => ?_, fun here => ?_, fun {id} missing => ?_⟩
  · rcases cases here with ⟨_, rfl⟩ | ⟨_, here⟩
    · exact sound
    · exact inv.sound here
  · rcases cases here with ⟨_, rfl⟩ | ⟨_, here⟩
    · exact accepted
    · exact inv.accepted here
  · rcases cases here with ⟨rfl, rfl⟩ | ⟨other, here⟩
    · exact mine
    · exact others here other
  · have missing : s.attempts.find id = none := missing
    have other : id ≠ A := by
      rintro rfl
      have here := changed.view
      rw [view, missing] at here
      cases here
    change s.nodesOf id = [] ∧ s.transitionsOf id = [] ∧ s.turnsOf id = [] ∧ s.blockersOf id = []
    rw [changed.within.nodes id other, changed.within.transitions id other,
      changed.within.turns id other, changed.within.blockers id other]
    rw [changed.within.attempts id other] at missing
    exact inv.owned missing

/-- **A running attempt may move to any sound view.** -/
theorem of_changed (inv : Inv lib s₀) (was : s₀.view A = some v₀) (going : v₀.run.isTerminal = false)
    (changed : Changed A s₀ s v) (graph : v.graph = v₀.graph) (item : v.workItemID = v₀.workItemID)
    (sound : v.Sound) : Inv lib s := by
  refine inv.of_view changed sound ?_ s.items ?_ fun here _ => ?_
  · rw [graph]
    exact inv.accepted was
  · rw [changed.within.items, item]
    obtain ⟨i, found, current⟩ := inv.item was
    exact ⟨i, found, fun _ => current going⟩
  · rw [changed.within.items]
    exact inv.item here

/-- **A new attempt** of an item whose attempts have all ended becomes its current one. -/
theorem create (inv : Inv lib s) (changed : Changed A s s' v) (sound : v.Sound)
    (accepted : validateGraph lib spec = .ok ()) (graph : v.graph = spec.graph)
    (item : s.items.find v.workItemID = some i)
    (settled : ∀ {B u}, s.view B = some u → u.workItemID = v.workItemID → u.run.isTerminal) :
    Inv lib (s'.setCurrent v.workItemID A) := by
  have lookup : ∀ id, (s'.setCurrent v.workItemID A).items.find id = (s.items.find id).map fun i =>
      if i.id = v.workItemID then { i with currentAttemptID := some A } else i := by
    intro id
    simp only [setCurrent, find_update, changed.within.items, decide_eq_true_eq]
  refine inv.of_view changed sound ⟨spec, accepted, graph.symm⟩ _ ?_ fun here _ => ?_
  · refine ⟨_, (lookup _).trans (by rw [item]; rfl), fun _ => ?_⟩
    simp only [find_key item, if_true]
  · obtain ⟨j, found, current⟩ := inv.item here
    refine ⟨_, (lookup _).trans (by rw [found]; rfl), fun going => ?_⟩
    -- an attempt that still runs belongs to another item
    have other : j.id ≠ v.workItemID := by
      rw [find_key found]
      intro own
      rw [settled here own] at going
      cases going
    simp only [other, if_false]
    exact current going

theorem view_of_turn (inv : Inv lib s) (member : t ∈ s.turns.rows) :
    ∃ v, s.view t.runID = some v ∧ t ∈ v.turns := by
  have here : t ∈ s.turnsOf t.runID := mem_turnsOf.mpr ⟨member, rfl⟩
  cases found : s.attempts.find t.runID with
  | none => rw [(inv.owned found).2.2.1] at here; cases here
  | some a =>
    obtain ⟨v, view, _⟩ := view_of_find found
    exact ⟨v, view, by rw [view_turns view]; exact here⟩

theorem view_of_blocker (inv : Inv lib s) (member : b ∈ s.blockers.rows) :
    ∃ v, s.view b.attemptID = some v ∧ b ∈ v.blockers := by
  have here : b ∈ s.blockersOf b.attemptID := mem_blockersOf.mpr ⟨member, rfl⟩
  cases found : s.attempts.find b.attemptID with
  | none => rw [(inv.owned found).2.2.2] at here; cases here
  | some a =>
    obtain ⟨v, view, _⟩ := view_of_find found
    exact ⟨v, view, by rw [view_blockers view]; exact here⟩

theorem node_of_turn (inv : Inv lib s) (member : t ∈ s.turns.rows)
    (found : s.nodes.find t.nodeExecutionID = some n) : n.attemptID = t.runID := by
  obtain ⟨v, view, here⟩ := inv.view_of_turn member
  obtain ⟨_, _, _, course, _, _⟩ := inv.sound view
  obtain ⟨m, present, same⟩ := course.turns t here
  obtain ⟨known, own⟩ := find_of_view view present
  rw [same, found] at known
  cases known
  exact own

theorem running_turn (inv : Inv lib s) (member : t ∈ s.turns.rows)
    (running : t.state = .running) (found : s.nodes.find t.nodeExecutionID = some n) :
    ∃ v rest, s.view t.runID = some v ∧ t ∈ v.turns ∧ v.nodes = n :: rest ∧ v.run = .running := by
  obtain ⟨v, view, here⟩ := inv.view_of_turn member
  obtain ⟨n', rest, _, course, _, _⟩ := inv.sound view
  obtain ⟨_, node, run, _⟩ := (inv.sound view).working course.nodes here running
  obtain ⟨known, _⟩ := find_of_view view (by rw [course.nodes]; exact .head _)
  rw [← node, found] at known
  cases known
  exact ⟨v, rest, view, here, course.nodes, run⟩

theorem open_blocker (inv : Inv lib s) (member : b ∈ s.blockers.rows) (opened : b.state = .opened)
    : ∃ v n rest, s.view b.attemptID = some v ∧ b ∈ v.blockers ∧ v.nodes = n :: rest ∧
    b.nodeExecutionID = some n.id ∧ s.nodes.find n.id = some n ∧ n.state = .blocked ∧ v.run =
    .awaitingApproval ∧ Asks v.graph n.nodeKey b := by
  obtain ⟨v, view, here⟩ := inv.view_of_blocker member
  obtain ⟨n, rest, _, course, _, _⟩ := inv.sound view
  obtain ⟨blocked, node, run, _⟩ := (inv.sound view).asked course.nodes here opened
  obtain ⟨known, _⟩ := find_of_view view (by rw [course.nodes]; exact .head _)
  obtain ⟨_, m, present, named, asks⟩ := course.blockers b here
  obtain ⟨again, _⟩ := find_of_view view present
  rw [← some.inj (node.symm.trans named), known] at again
  cases again
  exact ⟨v, n, rest, view, here, course.nodes, node, known, blocked, run, asks⟩

end Inv

variable {key : String}

/-! ### Routing -/

theorem findNode_key (found : findNode g key = some d) : d.key = key := by
  have selected := (find?_eq_some_iff_append.mp found).1
  exact of_decide_eq_true selected

theorem findNode_mem
    (found : findNode g key = some d) : d ∈ g.nodes := mem_of_find?_eq_some found

variable {outcome : String}

theorem route_terminal
    (routed : route g key outcome = some .terminal) : ⟨key, outcome⟩ ∈ g.terminalOutcomes := by
  unfold route at routed
  split at routed
  · rename_i declared
    obtain ⟨t, member, same⟩ := any_eq_true.mp declared
    obtain ⟨rfl, rfl⟩ := of_decide_eq_true same
    exact member
  · obtain ⟨_, _, same⟩ := map_eq_some_iff.mp routed
    cases same

variable {target : String}

theorem route_node
    (routed : route g key outcome = some (.node target)) : ⟨key, outcome, target⟩ ∈ g.edges := by
  unfold route at routed
  split at routed
  · cases routed
  obtain ⟨e, found, same⟩ := map_eq_some_iff.mp routed
  cases same
  obtain ⟨rfl, rfl⟩ := of_decide_eq_true (find?_eq_some_iff_append.mp found).1
  exact mem_of_find?_eq_some found

theorem nodeRow_ok {lib : Library} {attemptID : ID} {visit seq : Nat}
    {models : List (String × ModelSnapshot)}
    (made : nodeRow lib id attemptID d visit seq models spec = .ok row) :
    row.id = id ∧ row.attemptID = attemptID ∧ row.nodeKey = d.key ∧ row.visit = visit ∧
    row.executionSeq = seq ∧ row.kind = d.kind ∧ row.state = .pending ∧
    row.completionOutcome = none := by
  obtain ⟨timeout, _, same⟩ := bind_ok.mp made
  cases same
  exact ⟨rfl, rfl, rfl, rfl, rfl, rfl, rfl, rfl⟩

theorem fits_of_row (found : findNode g key = some d) (name : row.nodeKey = d.key)
    (kind : row.kind = d.kind) (fresh : row.completionOutcome = none) : Fits g row := by
  refine ⟨d, ?_, kind.symm, fun outcome reported => ?_⟩
  · rw [name, findNode_key found]
    exact found
  · rw [fresh] at reported
    cases reported

end Iterabase.Work
