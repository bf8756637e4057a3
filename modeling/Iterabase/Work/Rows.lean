/-
**Which nodes can become executions.**

`ValidateGraph` checks the timeout of an agent task in nanoseconds; `insertNodeExecutionTx` stores
milliseconds, cut off, in a column that must be positive. The timeout of a human gate is not checked at
all.

* `node_stored_iff` — **an accepted node becomes a row iff it is storable**, with the visit and the
  position that the engine computes.
-/

import Iterabase.Work.Routing

namespace Iterabase.Work

open Conc Data Workflow List Option State

/-- No timeout, or one of at least a millisecond. -/
def Storable (lib : Library) (d : CanonicalNode) : Prop :=
  d.timeout = "" ∨ ∃ t, parseDuration lib.fraction d.timeout = some t ∧ millisecond ≤ t

/-! ### The row -/

variable {d : CanonicalNode} {catalog models : List (String × ModelSnapshot)}

theorem nodeTimeout_iff {lib : Library} :
    (∃ ms, nodeTimeout lib d = .ok ms ∧ ms.any (· ≤ 0) = false) ↔ Storable lib d := by
  unfold nodeTimeout Storable
  by_cases blank : d.timeout = ""
  · simp [blank]
  simp only [blank, if_false, false_or]
  cases parsed : parseDuration lib.fraction d.timeout with
  | none => simp
  | some t =>
    by_cases negative : t ≤ 0
    · simp only [negative, if_true, reduceCtorEq, false_and, exists_false, some.injEq,
        exists_eq_left', false_iff, millisecond]
      omega
    · simp only [negative, if_false, Except.ok.injEq, exists_eq_left', any_some,
        decide_eq_false_iff_not, some.injEq, Int.not_le]
      exact milliseconds_pos_iff

theorem mapM_lookup {refs : List String}
    (resolved : (refs.mapM fun ref => (catalog.lookup ref).map fun model => (ref, model)) = some models)
    {ref : String} (member : ref ∈ refs) :
    ∃ model, catalog.lookup ref = some model ∧ models.lookup ref = some model := by
  induction refs generalizing models with
  | nil => cases member
  | cons r rest ih =>
    rw [mapM_cons] at resolved
    obtain ⟨first, here, resolved⟩ := bind_eq_some_iff.mp resolved
    obtain ⟨others, there, same⟩ := bind_eq_some_iff.mp resolved
    cases same
    obtain ⟨model, found, rfl⟩ := map_eq_some_iff.mp here
    by_cases equal : ref = r
    · subst equal
      exact ⟨model, found, by simp⟩
    obtain ⟨model', found', listed⟩ := ih there ((mem_cons.mp member).resolve_left equal)
    refine ⟨model', found', ?_⟩
    rw [lookup_cons, show (ref == r) = false by simpa using equal]
    exact listed

def modelRefOf (spec : CanonicalSpec) (d : CanonicalNode) : String :=
  if d.modelRef = "" then spec.defaultModelRef else d.modelRef

theorem resolveModels_lookup {spec : CanonicalSpec}
    (resolved : resolveModels catalog spec = some models) (member : d ∈ spec.graph.nodes)
    (agent : d.kind = nodeAgentTask) :
    ∃ model, catalog.lookup (modelRefOf spec d) = some model ∧ models.lookup (modelRefOf spec d) =
    some model := by
  refine mapM_lookup resolved (mem_map.mpr ⟨d, ?_, rfl⟩)
  exact mem_filter.mpr ⟨member, decide_eq_true agent⟩

/-! ### The insert -/

theorem State.nextVisit_pos (s : State) (A : ID)
    (key : String) : 0 < s.nextVisit A key := Nat.succ_pos _

theorem State.nextSeq_pos (s : State) (A : ID) : 0 < s.nextSeq A := Nat.succ_pos _

variable {n : NodeExecution}

/-- A row with the next visit and the next position is not refused by an index. -/
theorem State.insertNode_of_valid {s : State} (valid : n.violation = none)
    (visit : n.visit = s.nextVisit n.attemptID n.nodeKey) (seq : n.executionSeq = s.nextSeq n.attemptID)
    (idle : s.active n.attemptID = none) (fresh : s.nodes.find n.id = none) :
    ∃ s', s.insertNode n = .ok s' := by
  obtain ⟨nodes, inserted⟩ := Table.insert_of_fresh fresh
  have visits : ((s.nodesOf n.attemptID).any fun m => m.nodeKey = n.nodeKey ∧ m.visit = n.visit) =
      false := by
    refine any_eq_false.mpr fun m member same => ?_
    obtain ⟨key, same⟩ := of_decide_eq_true same
    have below : m.visit ≤ State.maximum (((s.nodesOf n.attemptID).filter fun m =>
        m.nodeKey = n.nodeKey).map NodeExecution.visit) :=
      le_maximum (mem_map.mpr ⟨m, mem_filter.mpr ⟨member, decide_eq_true key⟩, rfl⟩)
    rw [same, visit, nextVisit] at below
    omega
  have seqs : ((s.nodesOf n.attemptID).any fun m => m.executionSeq = n.executionSeq) = false := by
    refine any_eq_false.mpr fun m member same => ?_
    have same := of_decide_eq_true same
    have below : m.executionSeq ≤ State.maximum _ := le_maximum (mem_map.mpr ⟨m, member, rfl⟩)
    rw [same, seq, nextSeq] at below
    omega
  refine ⟨{ s with nodes := nodes }, ?_⟩
  unfold insertNode
  rw [valid]
  simp only [visits, seqs, idle, inserted, unique, Bool.false_eq_true, if_false, isSome_none,
    and_false]
  rfl

theorem NodeExecution.timeout_of_valid (valid : n.violation = none) :
    n.timeoutMS.any (· ≤ 0) = false := by
  unfold NodeExecution.violation at valid
  split at valid
  · cases valid
  split at valid
  · cases valid
  split at valid
  · cases valid
  split at valid
  · cases valid
  · rename_i long
    exact Bool.not_eq_true _ ▸ long

open NodeExecution

theorem NodeExecution.valid_of_timeout (visit : 0 < n.visit)
    (seq : 0 < n.executionSeq) (kind : n.kind = nodeAgentTask ∨ n.kind = nodeHumanGate)
    (long : n.timeoutMS.any (· ≤ 0) = false) : n.violation = none := by
  unfold violation
  rw [if_neg (by omega), if_neg (by omega), if_neg (by tauto), if_neg (by simp [long])]

section Stored

variable {lib : Library} {spec : CanonicalSpec} {d : CanonicalNode}
  {catalog models : List (String × ModelSnapshot)} {s : State} {id A : ID} {visit seq : Nat}

theorem storable_of_row {row : NodeExecution}
    (built : nodeRow lib id A d visit seq models spec = .ok row) (valid : row.violation = none) :
    Storable lib d := by
  obtain ⟨ms, timeout, same⟩ := bind_ok.mp built
  cases same
  exact nodeTimeout_iff.mp ⟨ms, timeout, timeout_of_valid valid⟩

theorem row_of_storable (storable : Storable lib d) (id A : ID) (first : 0 < visit) (placed : 0 < seq)
    (models : List (String × ModelSnapshot)) (spec : CanonicalSpec)
    (kind : d.kind = nodeAgentTask ∨ d.kind = nodeHumanGate) :
    ∃ row, nodeRow lib id A d visit seq models spec = .ok row ∧ row.violation = none ∧
    (d.kind = nodeAgentTask → row.modelSnapshot = some ((models.lookup (modelRefOf spec d)).getD {})) := by
  obtain ⟨ms, timeout, long⟩ := nodeTimeout_iff.mpr storable
  refine ⟨_, bind_ok.mpr ⟨ms, timeout, rfl⟩, valid_of_timeout first placed kind long, ?_⟩
  intro agent
  simp only [agent, if_true]
  rfl

theorem insertNodeExecution_of_storable (storable : Storable lib d)
    (kind : d.kind = nodeAgentTask ∨ d.kind = nodeHumanGate) (idle : s.active A = none)
    (fresh : s.nodes.find id = none) : ∃ s', insertNodeExecution lib id A d (s.nextVisit A d.key)
    (s.nextSeq A) models spec s = .ok ((), s') := by
  obtain ⟨row, built, valid, _⟩ := row_of_storable storable id A
    (s.nextVisit_pos A d.key) (s.nextSeq_pos A) models spec kind
  obtain ⟨named, owner, key, visit, seq, _⟩ := nodeRow_ok built
  obtain ⟨s', inserted⟩ := insertNode_of_valid (s := s) valid (by rw [visit, owner, key])
    (by rw [seq, owner]) (by rw [owner]; exact idle) (by rw [named]; exact fresh)
  exact ⟨s', Tx.attempt_ok.mpr (bind_ok.mpr ⟨row, built, inserted⟩)⟩

/-- **An accepted node becomes a row iff it is storable.** The row has the visit and the position that
`advanceGraphTx` computes, which are 1 and 1 in a new attempt, and the model that was resolved for it. -/
theorem node_stored_iff (accepted : validateGraph lib spec = .ok ()) (member : d ∈ spec.graph.nodes)
    (resolved : resolveModels catalog spec = some models) (s : State) (id A : ID)
    (idle : s.active A = none) (fresh : s.nodes.find id = none) :
    ((∃ row, nodeRow lib id A d (s.nextVisit A d.key) (s.nextSeq A) models spec = .ok row ∧
        row.violation = none ∧ (d.kind = nodeAgentTask → ∃ model,
          catalog.lookup (modelRefOf spec d) = some model ∧ row.modelSnapshot = some model)) ↔
      Storable lib d) ∧
    ((∃ s', insertNodeExecution lib id A d (s.nextVisit A d.key) (s.nextSeq A) models spec s =
        .ok ((), s')) ↔ Storable lib d) := by
  have kind : d.kind = nodeAgentTask ∨ d.kind = nodeHumanGate :=
    ((validateGraph_ok accepted).1.kinds d member).imp_right And.left
  refine ⟨⟨fun ⟨row, built, valid, _⟩ => storable_of_row built valid, fun storable => ?_⟩,
    ⟨fun ⟨s', ran⟩ => ?_, fun storable => ?_⟩⟩
  · obtain ⟨row, built, valid, snapshot⟩ := row_of_storable storable id A
      (s.nextVisit_pos A d.key) (s.nextSeq_pos A) models spec kind
    refine ⟨row, built, valid, fun agent => ?_⟩
    obtain ⟨model, known, listed⟩ := resolveModels_lookup resolved member agent
    refine ⟨model, known, ?_⟩
    rw [snapshot agent, listed]
    rfl
  · obtain ⟨row, built, inserted⟩ := bind_ok.mp (Tx.attempt_ok.mp ran)
    exact storable_of_row built (insertNode_ok inserted).1
  · exact insertNodeExecution_of_storable storable kind idle fresh

end Stored

/-! ### Runs -/

def sending (timeout : String) : CanonicalNode where
  key := "send"
  label := text "Send"
  kind := nodeAgentTask
  prompt := "p"
  timeout := timeout
  outcomes := ["done"]
  outputSchema := some .emptyObject
  resultPresentation := some { outcomes := [⟨"done", text "Sent"⟩] }

/-- Two agent tasks; the second has this timeout. -/
def drafting (timeout : String) : CanonicalSpec where
  defaultModelRef := "m"
  graph := {
    entryNode := "draft"
    maxTransitions := 5
    nodes := [
      { key := "draft", label := text "Draft", kind := nodeAgentTask, prompt := "p", outcomes := ["done"]
        outputSchema := some .emptyObject },
      sending timeout]
    edges := [⟨"draft", "done", "send"⟩]
    terminalOutcomes := [⟨"send", "done"⟩] }

theorem node_stored_second :
    ∃ models s', resolveModels [("m", ⟨"k", "id"⟩)] (drafting "1s") = some models ∧
      insertNodeExecution lenient "n" "a" (sending "1s") 1 1 models (drafting "1s") State.empty =
        .ok ((), s') := by
  have accepted : validateGraph lenient (drafting "1s") = .ok () := by decide +kernel
  have resolved : resolveModels [("m", ⟨"k", "id"⟩)] (drafting "1s") =
      some [("m", ⟨"k", "id"⟩), ("m", ⟨"k", "id"⟩)] := by decide +kernel
  have member : sending "1s" ∈ (drafting "1s").graph.nodes :=
    mem_cons_of_mem _ (.head _)
  obtain ⟨s', stored⟩ := (node_stored_iff accepted member resolved State.empty "n" "a" rfl rfl).2.mpr
    (.inr ⟨1000000000, by decide +kernel, by decide⟩)
  exact ⟨_, s', resolved, stored⟩

/-- The first task of an item is reported. -/
def reported (timeout : String) : List (Move Input Request) :=
  opening (drafting timeout) { catalog := [("m", ⟨"k", "id"⟩)] } ++ [
  .run 1 { turnID := "t" },
  .start (.recordCompletionReport "t" { outcome := "done", summary := "s" }),
  .run 2 {}]

def violated {α : Type} : Except Err α → Option String
  | .error (.constraint name) => some name
  | _ => none

/-- **A node of half a millisecond is accepted and cannot be stored**: the turn of the node before it
has been reported and cannot be completed. -/
theorem successor_rejected :
    validateGraph lenient (drafting "500us") = .ok () ∧
    ∃ c, (engine lenient).Reaches .free State.empty c ∧
      violated (completeTurn lenient { nodeID := "n'" } "t" "completed" .blank c.shared) =
        some "node_executions_timeout_ms_check" :=
  ⟨by decide +kernel, reach_of_replay _ _ _ (reported "500us") _ (by decide +kernel)⟩

end Iterabase.Work
