/-
**What the statements do to an attempt.**

The database, one attempt at a time: every statement of a command touches the rows of one attempt, and
acts on its view by an update that can be named.

* `State.view` — an attempt and its rows.
* `Changed` — **the frame and the effect in one**: only attempt `A` has changed, and its view is now `v`.
  One rule per statement.
-/

import Iterabase.Work.Course

namespace Iterabase.Work

open Conc Data Workflow List State Table

variable {n : NodeExecution} {b : Blocker} {s s' : State} {itemID attemptID nodeID : ID}
  {refs : List ArtifactRef} {t : Turn}

/-! ### Views -/

variable {a : Attempt} {B : ID} {ref : ArtifactRef} {α : Type} {kind : ValueKind}
  {model : ValueModel} {amount : Int} {currency : String}

namespace State

def turnsOf (s : State) (attemptID : ID) : List Turn :=
  s.turns.rows.filter fun t => t.runID = attemptID

def blockersOf (s : State) (attemptID : ID) : List Blocker :=
  s.blockers.rows.filter fun b => b.attemptID = attemptID

def view (s : State) (id : ID) : Option View :=
  (s.attempts.find id).map fun a => {
    graph := a.graph
    workItemID := a.workItemID
    valueModel := a.valueModel
    run := a.run
    finished := a.finished
    nodes := s.nodesOf id
    transitions := s.transitionsOf id
    turns := s.turnsOf id
    blockers := s.blockersOf id }

variable {s : State} {id : ID} {v : View}

theorem view_of_find (found : s.attempts.find id = some a) :
    ∃ v, s.view id = some v ∧ v.graph = a.graph ∧ v.workItemID = a.workItemID ∧ v.run = a.run := by
  refine ⟨_, by rw [view, found]; rfl, rfl, rfl, rfl⟩

theorem view_reads {ns : List NodeExecution} {ms : List Transition} {ts : List Turn} {bs : List Blocker}
    (found : s.attempts.find id = some a) (nodes : s.nodesOf id = ns) (transitions : s.transitionsOf id = ms)
    (turns : s.turnsOf id = ts) (blockers : s.blockersOf id = bs) :
    s.view id = some ⟨a.graph, a.workItemID, a.valueModel, a.run, a.finished, ns, ms, ts, bs⟩ := by
  subst nodes transitions turns blockers
  rw [view, found]
  rfl

theorem view_nodes (here : s.view id = some v) : v.nodes = s.nodesOf id := by
  obtain ⟨_, _, rfl⟩ := Option.map_eq_some_iff.mp here
  rfl

theorem view_transitions (here : s.view id = some v) : v.transitions = s.transitionsOf id := by
  obtain ⟨_, _, rfl⟩ := Option.map_eq_some_iff.mp here
  rfl

theorem view_turns (here : s.view id = some v) : v.turns = s.turnsOf id := by
  obtain ⟨_, _, rfl⟩ := Option.map_eq_some_iff.mp here
  rfl

theorem view_blockers (here : s.view id = some v) : v.blockers = s.blockersOf id := by
  obtain ⟨_, _, rfl⟩ := Option.map_eq_some_iff.mp here
  rfl

theorem mem_nodesOf : n ∈ s.nodesOf id ↔ n ∈ s.nodes.rows ∧ n.attemptID = id := by
  simp [nodesOf]

theorem mem_turnsOf : t ∈ s.turnsOf id ↔ t ∈ s.turns.rows ∧ t.runID = id := by
  simp [turnsOf]

theorem mem_blockersOf : b ∈ s.blockersOf id ↔ b ∈ s.blockers.rows ∧ b.attemptID = id := by
  simp [blockersOf]

theorem nodesOf_distinct (s : State) (id : ID) : ((s.nodesOf id).map NodeExecution.id).Nodup :=
  s.nodes.distinct.sublist (filter_sublist.map _)

end State

/-! ### The frame -/

/-- Nothing but attempt `A` has changed. -/
structure Within (A : ID) (s s' : State) : Prop where
  attempts : ∀ B, B ≠ A → s'.attempts.find B = s.attempts.find B
  nodes : ∀ B, B ≠ A → s'.nodesOf B = s.nodesOf B
  transitions : ∀ B, B ≠ A → s'.transitionsOf B = s.transitionsOf B
  turns : ∀ B, B ≠ A → s'.turnsOf B = s.turnsOf B
  blockers : ∀ B, B ≠ A → s'.blockersOf B = s.blockersOf B
  items : s'.items = s.items

namespace Within

variable {A : ID} {s s₁ : State}

theorem refl (A : ID) (s : State) : Within A s s :=
  ⟨fun _ _ => rfl, fun _ _ => rfl, fun _ _ => rfl, fun _ _ => rfl, fun _ _ => rfl, rfl⟩

theorem view (within : Within A s s₁) (other : B ≠ A) : s₁.view B = s.view B := by
  unfold State.view
  rw [within.attempts B other, within.nodes B other, within.transitions B other,
    within.turns B other, within.blockers B other]

end Within

/-- Only attempt `A` has changed since `s₀`, and its view is `v`. -/
structure Changed (A : ID) (s₀ s : State) (v : View) : Prop where
  within : Within A s₀ s
  view : s.view A = some v

/-! ### Rows that are rewritten -/

section Rewrite

variable {ρ : Type} (rows : List ρ) (owner key : ρ → ID)

theorem filter_rewrite (p : ρ → Bool) (f : ρ → ρ) (keeps : ∀ r, owner (f r) = owner r) (id : ID) :
    (rows.map fun r => if p r then f r else r).filter (fun r => owner r = id) =
    (rows.filter fun r => owner r = id).map fun r => if p r then f r else r := by
  rw [filter_map]
  congr 1
  refine filter_congr fun r _ => ?_
  simp only [Function.comp_apply]
  split
  · rw [keeps]
  · rfl

theorem filter_rewrite_other (p : ρ → Bool) (f : ρ → ρ) (keeps : ∀ r, owner (f r) = owner r) {id : ID}
    (other : ∀ r ∈ rows, p r → owner r ≠ id) :
    (rows.map fun r => if p r then f r else r).filter (fun r => owner r = id) =
    rows.filter fun r => owner r = id := by
  rw [filter_rewrite rows owner p f keeps]
  refine (map_congr_left fun r member => ?_).trans (map_id _)
  have owned := of_decide_eq_true (mem_filter.mp member).2
  split
  · rename_i selected
    exact absurd owned (other r (mem_filter.mp member).1 selected)
  · rfl

theorem map_head {r : ρ} {rest : List ρ} (distinct : ((r :: rest).map key).Nodup) (p : ρ → Bool)
    (f : ρ → ρ) (selected : p r) (only : ∀ r', p r' → key r' = key r) :
    ((r :: rest).map fun r => if p r then f r else r) = f r :: rest := by
  rw [map_cons, if_pos selected]
  congr 1
  refine (map_congr_left fun r' member => ?_).trans (map_id _)
  split
  · rename_i selected'
    have fresh := (nodup_cons.mp distinct).1
    exact absurd (mem_map.mpr ⟨r', member, only r' selected'⟩) fresh
  · rfl

end Rewrite

/-! ### Links -/

theorem State.link_eq (s : State)
    (l : ArtifactLink) : ∃ links, s.link l = { s with links := links } := by
  unfold link
  split
  · exact ⟨s.links, rfl⟩
  · exact ⟨_, rfl⟩

theorem State.foldl_link_eq (f : α → ArtifactLink) (refs : List α) (s : State) :
    ∃ links, refs.foldl (fun s ref => s.link (f ref)) s = { s with links := links } := by
  induction refs generalizing s with
  | nil => exact ⟨s.links, rfl⟩
  | cons ref rest ih =>
    obtain ⟨links, same⟩ := ih (s.link (f ref))
    obtain ⟨_, one⟩ := s.link_eq (f ref)
    refine ⟨links, ?_⟩
    rw [foldl_cons, same, one]

theorem State.foldlM_links_eq {f : State → α → Except Err State} {refs : List α}
    (one : ∀ {s s' : State} {ref}, f s ref = .ok s' → ∃ links, s' = { s with links := links })
    (linked : refs.foldlM f s = .ok s') : ∃ links, s' = { s with links := links } := by
  induction refs generalizing s with
  | nil =>
    cases linked
    exact ⟨_, rfl⟩
  | cons ref rest ih =>
    obtain ⟨s₁, first, linked⟩ := bind_ok.mp linked
    obtain ⟨links₁, rfl⟩ := one first
    obtain ⟨links, rfl⟩ := ih linked
    exact ⟨links, rfl⟩

variable {role : ArtifactRef → String}

theorem State.linkAll_eq (linked : s.linkAll itemID attemptID nodeID role refs = .ok s') :
    ∃ links, s' = { s with links := links } := by
  refine foldlM_links_eq (fun {s s' ref} one => ?_) linked
  obtain ⟨id, _, same⟩ := bind_ok.mp one
  cases same
  exact s.link_eq _

theorem State.insertLink_ok {l : ArtifactLink} (inserted : s.insertLink l = .ok s') :
    s' = { s with links := l :: s.links } := by
  unfold insertLink at inserted
  split at inserted
  · cases inserted
  · cases inserted
    rfl

variable {input : Input}

theorem State.linkSources_eq
    (linked : refs.foldlM (·.linkSource input itemID attemptID nodeID) s = .ok s') :
    ∃ links, s' = { s with links := links } := by
  refine foldlM_links_eq (fun one => ?_) linked
  unfold linkSource at one
  split at one
  · cases one
  obtain ⟨id, _, one⟩ := bind_ok.mp one
  split at one
  · exact ⟨_, insertLink_ok one⟩
  · cases one

theorem State.handOver_eq (s : State) (node : NodeExecution) (nextID : ID) :
    ∃ links, s.handOver node nextID = { s with links := links } :=
  foldl_link_eq _ _ s

variable {feedbackID : Option ID}

/-! ### Value -/

/-- What becomes of an entry: its item has one of the kind already, or it is added. -/
theorem State.insertValue_ok
    (inserted : s.insertValue itemID attemptID feedbackID kind amount currency model = .ok s') :
    (∃ e, s.entryOf itemID kind = some e ∧ s' = s) ∨ ∃ e : ValueEntry, s.entryOf itemID kind = none ∧
    e.workItemID = itemID ∧ e.attemptID = attemptID ∧ e.kind = kind ∧ e.amount = amount ∧
    e.currency = currency ∧ e.model = model ∧
    s' = State.log { s with value := e :: s.value } itemID attemptID none (kind.event currency) := by
  unfold insertValue at inserted
  split at inserted
  · cases inserted
  split at inserted
  · split at inserted
    · rename_i known
      cases inserted
      obtain ⟨e, known⟩ := Option.isSome_iff_exists.mp known
      exact .inl ⟨e, known, rfl⟩
    · rename_i unknown
      cases inserted
      exact .inr ⟨_, Option.not_isSome_iff_eq_none.mp unknown, rfl, rfl, rfl, rfl, rfl, rfl, rfl⟩
  · cases inserted

/-- The ledger may have an entry more, with its event. -/
def State.Entered (s s' : State) : Prop :=
  ∃ value events, s' = { s with value := value, timeline := events ++ s.timeline } ∧
    ∀ e ∈ events, ∃ kind currency, e.event = ValueKind.event kind currency

theorem State.Entered.refl (s : State) : s.Entered s := ⟨s.value, [], rfl, by simp⟩

theorem State.insertValue_entered
    (inserted : s.insertValue itemID attemptID feedbackID kind amount currency model = .ok s') :
    s.Entered s' := by
  rcases insertValue_ok inserted with ⟨_, _, rfl⟩ | ⟨e, _, _, _, _, _, _, _, rfl⟩
  · exact .refl s'
  · exact ⟨e :: s.value, [⟨itemID, attemptID, none, kind.event currency⟩], rfl, by simp⟩

theorem State.creditValue_entered
    (credited : s.creditValue itemID attemptID = .ok s') : s.Entered s' := by
  unfold creditValue at credited
  split at credited
  · cases credited
  split at credited
  · split at credited
    · exact insertValue_entered credited
    · cases credited
      exact .refl s
  · cases credited
    exact .refl s

theorem State.deductValue_entered {itemID attemptID feedbackID : ID}
    (deducted : s.deductValue itemID attemptID feedbackID = .ok s') : s.Entered s' := by
  unfold deductValue at deducted
  split at deducted
  · cases deducted
    exact .refl s
  · exact insertValue_entered deducted

/-! ### Statements -/

namespace Changed

variable {A : ID} {s₀ s s' : State} {v : View}

theorem refl (here : s.view A = some v) : Changed A s s v := ⟨.refl A s, here⟩

section Rows

variable (changed : Changed A s₀ s v)

include changed

theorem log (itemID attemptID : ID) (nodeID : Option ID) (event : Event) :
    Changed A s₀ (s.log itemID attemptID nodeID event) v :=
  ⟨{ changed.within with }, changed.view⟩

theorem links (links : List ArtifactLink) : Changed A s₀ { s with links := links } v :=
  ⟨{ changed.within with }, changed.view⟩

theorem linkAll (linked : s.linkAll itemID attemptID nodeID role refs = .ok s') :
    Changed A s₀ s' v := by
  obtain ⟨links, rfl⟩ := linkAll_eq linked
  exact changed.links links

theorem linkSources (linked : refs.foldlM (·.linkSource input itemID attemptID nodeID) s = .ok s') :
    Changed A s₀ s' v := by
  obtain ⟨links, rfl⟩ := linkSources_eq linked
  exact changed.links links

theorem creditValue (credited : s.creditValue itemID attemptID = .ok s') : Changed A s₀ s' v := by
  obtain ⟨_, _, rfl, _⟩ := creditValue_entered credited
  exact ⟨{ changed.within with }, changed.view⟩

theorem handOver (node : NodeExecution) (nextID : ID) :
    Changed A s₀ (s.handOver node nextID) v := by
  obtain ⟨links, same⟩ := s.handOver_eq node nextID
  rw [same]
  exact changed.links links

/-- **The run moves**, from the allowed states; a run that is there already stays. -/
theorem setRun (allowed : RunState → Bool) (state : RunState)
    (from' : allowed v.run ∨ v.run = state) :
    Changed A s₀ (s.setRun A allowed state) { v with run := state } := by
  obtain ⟨a, found, rfl⟩ := Option.map_eq_some_iff.mp changed.view
  have key : a.id = A := find_key found
  refine ⟨{ changed.within with attempts := fun B other => ?_ }, ?_⟩
  · refine (find_update_other (by exact fun _ => rfl) (fun _ chosen => ?_) other).trans
      (changed.within.attempts B other)
    exact of_decide_eq_true (Bool.and_eq_true_iff.mp chosen).1
  · simp only [State.view, State.setRun, find_update, found, Option.map_some]
    split
    · rfl
    rename_i stays
    have barred : ¬ allowed a.run := fun allows => stays (by simp [key, allows])
    have already : a.run = state := from'.resolve_left barred
    rw [← already]
    rfl

theorem finishAttempt (failure : Option Failure) :
    Changed A s₀ (s.finishAttempt A failure) { v with finished := true } := by
  obtain ⟨a, found, rfl⟩ := Option.map_eq_some_iff.mp changed.view
  have key : a.id = A := find_key found
  refine ⟨{ changed.within with attempts := fun B other => ?_ }, ?_⟩
  · exact (find_update_other (by exact fun _ => rfl) (fun _ => of_decide_eq_true) other).trans
      (changed.within.attempts B other)
  · simp only [State.view, State.finishAttempt, find_update, found, Option.map_some]
    rw [if_pos (by simp [key])]
    rfl

end Rows

variable {rest : List NodeExecution}

section Updates

variable (changed : Changed A s₀ s v)

include changed

theorem updateNode (nodes : v.nodes = n :: rest) (p : NodeExecution → Bool)
    (f : NodeExecution → NodeExecution) (keeps : ∀ n, (f n).id = n.id)
    (owner : ∀ n, (f n).attemptID = n.attemptID) (selected : p n) (only : ∀ m, p m → m.id = n.id) :
    Changed A s₀ { s with nodes := s.nodes.update p f keeps } { v with nodes := f n :: rest } := by
  have rows := (view_nodes changed.view).symm.trans nodes
  have member : n ∈ s.nodesOf A := by rw [rows]; exact .head _
  have own := (mem_nodesOf.mp member).2
  refine ⟨{ changed.within with nodes := fun B other => ?_ }, ?_⟩
  · rw [← changed.within.nodes B other]
    refine filter_rewrite_other _ NodeExecution.attemptID p f owner fun m present chosen => ?_
    have same := inj_on_of_nodup_map s.nodes.distinct present
      (mem_nodesOf.mp member).1 (only m chosen)
    rw [same, own]
    exact Ne.symm other
  · obtain ⟨a, found, rfl⟩ := Option.map_eq_some_iff.mp changed.view
    refine view_reads found ?_ rfl rfl rfl
    have distinct := s.nodesOf_distinct A
    rw [rows] at distinct
    have rewritten := filter_rewrite s.nodes.rows NodeExecution.attemptID p f owner A
    rw [show (s.nodes.rows.filter fun r => decide (r.attemptID = A)) = n :: rest from rows,
      map_head NodeExecution.id distinct p f selected only] at rewritten
    exact rewritten

theorem setNode (nodes : v.nodes = n :: rest) (f : NodeExecution → NodeExecution)
    (keeps : ∀ n, (f n).id = n.id) (owner : ∀ n, (f n).attemptID = n.attemptID) :
    Changed A s₀ (s.setNode n.id f keeps) { v with nodes := f n :: rest } :=
  changed.updateNode nodes _ f keeps owner (decide_eq_true rfl) fun _ chosen => of_decide_eq_true chosen

theorem moveNode (nodes : v.nodes = n :: rest) (allowed : NodeState → Bool)
    (from' : allowed n.state) (state : NodeState) :
    Changed A s₀ (s.moveNode n.id allowed state)
    { v with nodes := { n with state := state } :: rest } := by
  refine changed.updateNode nodes _ (fun n => { n with state := state }) (fun _ => rfl) (fun _ => rfl)
    (by simp [from']) fun m chosen => ?_
  exact of_decide_eq_true (Bool.and_eq_true_iff.mp chosen).1

theorem setTurn (member : t ∈ v.turns) (state : TurnState) :
    Changed A s₀ (s.setTurn t.id state) { v with turns := View.settleTurn v.turns t.id state } := by
  rw [view_turns changed.view, mem_turnsOf] at member
  refine ⟨{ changed.within with turns := fun B other => ?_ }, ?_⟩
  · rw [← changed.within.turns B other]
    refine filter_rewrite_other _ Turn.runID _ (fun u => { u with state := state }) (fun _ => rfl)
      fun t' present chosen => ?_
    rw [inj_on_of_nodup_map s.turns.distinct present member.1 (of_decide_eq_true chosen), member.2]
    exact Ne.symm other
  · obtain ⟨a, found, rfl⟩ := Option.map_eq_some_iff.mp changed.view
    refine view_reads found rfl rfl ?_ rfl
    have rewritten := filter_rewrite s.turns.rows Turn.runID (fun u => decide (u.id = t.id))
      (fun u => { u with state := state }) (fun _ => rfl) A
    simpa only [State.turnsOf, State.setTurn, update, View.settleTurn, decide_eq_true_eq] using rewritten

theorem setBlocker (member : b ∈ v.blockers) (f : Blocker → Blocker)
    (keeps : ∀ b, (f b).id = b.id) (owner : ∀ b, (f b).attemptID = b.attemptID) :
    Changed A s₀ (s.setBlocker b.id f keeps)
    { v with blockers := View.resolve v.blockers b.id f } := by
  rw [view_blockers changed.view, mem_blockersOf] at member
  refine ⟨{ changed.within with blockers := fun B other => ?_ }, ?_⟩
  · rw [← changed.within.blockers B other]
    refine filter_rewrite_other _ Blocker.attemptID _ _ owner fun b' present chosen => ?_
    rw [inj_on_of_nodup_map s.blockers.distinct present member.1 (of_decide_eq_true chosen),
      member.2]
    exact Ne.symm other
  · obtain ⟨a, found, rfl⟩ := Option.map_eq_some_iff.mp changed.view
    refine view_reads found rfl rfl rfl ?_
    have rewritten := filter_rewrite s.blockers.rows Blocker.attemptID (fun u => decide (u.id = b.id)) f
      owner A
    simpa only [State.blockersOf, State.setBlocker, update, View.resolve, decide_eq_true_eq] using rewritten

end Updates

end Changed

/-! ### Inserts -/

theorem insert_filter {ρ κ : Type} [DecidableEq κ] {key : ρ → κ} {table table' : Table key} {A : ID} {r : ρ}
    (owner : ρ → ID) (unique : table.insert r = some table') (own : owner r = A) :
    (∀ B ≠ A, (table'.rows.filter fun r => owner r = B) = table.rows.filter fun r => owner r = B) ∧
      (table'.rows.filter fun r => owner r = A) = r :: table.rows.filter fun r => owner r = A := by
  rw [insert_rows unique]
  refine ⟨fun B other => filter_cons_of_neg ?_, filter_cons_of_pos (decide_eq_true own)⟩
  rw [decide_eq_true_eq, own]
  exact Ne.symm other

namespace State

variable {s s' : State}

theorem unique_ok {name : String} {table : Option α} {t : α} :
    unique name table = .ok t ↔ table = some t := by
  cases table <;> simp [unique]

theorem insertNode_ok (inserted : s.insertNode n = .ok s') : n.violation = none ∧
    ∃ nodes, s.nodes.insert n = some nodes ∧ s' = { s with nodes := nodes } := by
  unfold insertNode at inserted
  split at inserted
  · cases inserted
  rename_i valid
  simp only [refused_ok, bind_ok, unique_ok] at inserted
  obtain ⟨_, _, _, nodes, unique, same⟩ := inserted
  cases same
  exact ⟨valid, nodes, unique, rfl⟩

theorem insertTurn_ok (inserted : s.insertTurn t = .ok s') :
    ∃ turns, s.turns.insert t = some turns ∧ s' = { s with turns := turns } := by
  simp only [insertTurn, refused_ok, bind_ok, unique_ok] at inserted
  obtain ⟨_, _, turns, unique, same⟩ := inserted
  cases same
  exact ⟨turns, unique, rfl⟩

theorem insertBlocker_ok (inserted : s.insertBlocker b = .ok s') :
    ∃ blockers, s.blockers.insert b = some blockers ∧ s' = { s with blockers := blockers } := by
  simp only [insertBlocker, refused_ok, bind_ok, unique_ok] at inserted
  obtain ⟨_, _, blockers, unique, same⟩ := inserted
  cases same
  exact ⟨blockers, unique, rfl⟩

theorem insertTransition_ok {t : Transition} (inserted : s.insertTransition t = .ok s') :
    ∃ transitions, s.transitions.insert t = some transitions ∧
    s' = { s with transitions := transitions } := by
  obtain ⟨transitions, unique, same⟩ := bind_ok.mp inserted
  cases same
  exact ⟨transitions, unique_ok.mp unique, rfl⟩

theorem insertAttempt_ok (inserted : s.insertAttempt a = .ok s') :
    ∃ attempts, s.attempts.insert a = some attempts ∧ s' = { s with attempts := attempts } := by
  simp only [insertAttempt, refused_ok, bind_ok, unique_ok] at inserted
  obtain ⟨_, _, attempts, unique, same⟩ := inserted
  cases same
  exact ⟨attempts, unique, rfl⟩

theorem insertItem_ok {i : WorkItem} (inserted : s.insertItem i = .ok s') :
    ∃ items, s.items.insert i = some items ∧ s' = { s with items := items } := by
  simp only [insertItem, refused_ok, bind_ok, unique_ok] at inserted
  obtain ⟨_, items, unique, same⟩ := inserted
  cases same
  exact ⟨items, unique, rfl⟩

theorem insertFeedback_ok {f : Feedback} (inserted : s.insertFeedback f = .ok s') :
    ∃ feedback, s.feedback.insert f = some feedback ∧ s' = { s with feedback := feedback } := by
  obtain ⟨feedback, unique, same⟩ := bind_ok.mp inserted
  cases same
  exact ⟨feedback, unique_ok.mp unique, rfl⟩

end State

namespace Changed

variable {A : ID} {s₀ s s' : State} {v : View} (changed : Changed A s₀ s v)

include changed

theorem insertNode (own : n.attemptID = A) (inserted : s.insertNode n = .ok s') :
    Changed A s₀ s' { v with nodes := n :: v.nodes } := by
  obtain ⟨_, nodes, unique, rfl⟩ := insertNode_ok inserted
  obtain ⟨a, found, rfl⟩ := Option.map_eq_some_iff.mp changed.view
  obtain ⟨others, grown⟩ := insert_filter NodeExecution.attemptID unique own
  exact ⟨{ changed.within with
    nodes := fun B other => (others B other).trans (changed.within.nodes B other) }, view_reads found grown rfl rfl rfl⟩

theorem insertTurn (own : t.runID = A) (inserted : s.insertTurn t = .ok s') :
    Changed A s₀ s' { v with turns := t :: v.turns } := by
  obtain ⟨turns, unique, rfl⟩ := insertTurn_ok inserted
  obtain ⟨a, found, rfl⟩ := Option.map_eq_some_iff.mp changed.view
  obtain ⟨others, grown⟩ := insert_filter Turn.runID unique own
  exact ⟨{ changed.within with
    turns := fun B other => (others B other).trans (changed.within.turns B other) }, view_reads found rfl rfl grown rfl⟩

theorem insertBlocker (own : b.attemptID = A) (inserted : s.insertBlocker b = .ok s') :
    Changed A s₀ s' { v with blockers := b :: v.blockers } := by
  obtain ⟨blockers, unique, rfl⟩ := insertBlocker_ok inserted
  obtain ⟨a, found, rfl⟩ := Option.map_eq_some_iff.mp changed.view
  obtain ⟨others, grown⟩ := insert_filter Blocker.attemptID unique own
  exact ⟨{ changed.within with
    blockers := fun B other => (others B other).trans (changed.within.blockers B other) }, view_reads found rfl rfl rfl grown⟩

theorem insertTransition {t : Transition} (own : t.attemptID = A) (inserted : s.insertTransition t = .ok s') :
    Changed A s₀ s' { v with transitions := t :: v.transitions } := by
  obtain ⟨transitions, unique, rfl⟩ := insertTransition_ok inserted
  obtain ⟨a, found, rfl⟩ := Option.map_eq_some_iff.mp changed.view
  obtain ⟨others, grown⟩ := insert_filter Transition.attemptID unique own
  exact ⟨{ changed.within with
    transitions := fun B other => (others B other).trans (changed.within.transitions B other) }, view_reads found rfl grown rfl rfl⟩

end Changed

end Iterabase.Work
