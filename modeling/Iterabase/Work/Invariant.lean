/-
**Every command keeps the attempts sound.**

* `Prepares.inv`, `EndsTurn.inv`, … — one lemma per command, on the ways it can go.
* `engine_inv` — **the invariant holds in every state the engine reaches**, over every interleaving.
* `Kept.invariant` — and so does what every command keeps on top of it.
-/

import Iterabase.Conc.Logic
import Iterabase.Work.Commands

namespace Iterabase.Work

open Conc Data Workflow State Table Tx Option

section Ways

variable {lib : Library} {input : Input} {s s₀ s' : State} {A itemID : ID} {v : View} {a : Attempt}
  {n node : NodeExecution} {rest : List NodeExecution} {moves : List Transition} {outcome : String}

theorem Prepares.inv {answer : Prepared} (prepares : Prepares s A answer s') (inv : Inv lib s) :
    Inv lib s' := by
  cases prepares with
  | nothing => exact inv
  | blocks last pending opened item own node asks _ inserted =>
    obtain ⟨here, nodes⟩ := last
    obtain ⟨run, _, _⟩ := (inv.sound here).pending_run nodes pending
    have moved := ((Changed.refl here).insertBlocker own inserted).moveNode nodes (fun _ => true) rfl .blocked
    refine inv.of_changed here ?_ ((moved.setRun _ _ (.inl ?_)).log _ _ _ _) rfl rfl
      ((inv.sound here).block nodes pending opened item node asks)
    · rcases run with run | run <;> rw [run] <;> rfl
    · rcases run with run | run <;> simp [run]
  | starts last pending running own node _ _ _ inserted =>
    obtain ⟨here, nodes⟩ := last
    obtain ⟨run, _, _⟩ := (inv.sound here).pending_run nodes pending
    have moved := ((Changed.refl here).insertTurn own inserted).moveNode nodes (fun state => state = .pending)
      (by simp [pending]) .running
    refine inv.of_changed here ?_ ((moved.setRun _ _ ?_).log _ _ _ _) rfl rfl
      ((inv.sound here).begin nodes pending running node)
    · rcases run with run | run <;> rw [run] <;> rfl
    -- a run that is running already stays so
    · rcases run with run | run <;> simp [run]

theorem Reports.inv {report : CompletionReport} (reports : Reports s report A v n rest s')
    (inv : Inv lib s) : Inv lib s' := by
  obtain ⟨⟨here, nodes⟩, running, fits, linked⟩ := reports
  obtain ⟨_, _, _, phase⟩ := (inv.sound here).at nodes
  have changed := ((Changed.refl here).setNode nodes (·.withReport report) (fun _ => rfl)
    (fun _ => rfl)).linkAll linked
  refine inv.of_changed here ?_ changed rfl rfl
    ((inv.sound here).report nodes ⟨rfl, rfl, rfl, rfl⟩ rfl fits)
  cases phase with
  | waiting state | blocked _ state | ended state => rw [running] at state; cases state
  | working _ _ run => rw [run]; rfl

/-! ### The router -/

/-- The attempt has moved to a sound view of the same graph; an execution that is new has been stored. -/
def Moved (lib : Library) (A : ID) (s₀ s' : State) (v : View) : Prop :=
  ∃ v', Changed A s₀ s' v' ∧ v'.graph = v.graph ∧ v'.workItemID = v.workItemID ∧ v'.Sound ∧
    ∀ row ∈ v'.nodes, row ∈ v.nodes ∨ row.violation = none ∧ ∃ d id visit seq models spec,
      findNode v.graph row.nodeKey = some d ∧ nodeRow lib id A d visit seq models spec = .ok row

section Changes

variable (changed : Changed A s₀ s v)

include changed

theorem completes_changed {s₁ : State}
    (inserted : ((s.setRun A (fun _ => true) .succeeded).finishAttempt A none).insertTransition
      ⟨A, node.id, outcome, none, true⟩ = .ok s₁) (credited : s₁.creditValue itemID A = .ok s') :
    Changed A s₀ (s'.log itemID A node.id .workCompleted) { v with
      run := .succeeded
      finished := true
      transitions := ⟨A, node.id, outcome, none, true⟩ :: v.transitions } := by
  have finished := (changed.setRun (fun _ => true) .succeeded (.inl rfl)).finishAttempt none
  exact ((finished.insertTransition rfl inserted).creditValue credited).log _ _ _ _

theorem proceeds_changed {row : NodeExecution} {s₁ : State} (own : row.attemptID = A)
    (run : v.run = .running ∨ v.run = .awaitingApproval) (placed : s.insertNode row = .ok s₁)
    (moved : (s₁.handOver node input.nodeID).insertTransition
      ⟨A, node.id, outcome, some input.nodeID, false⟩ = .ok s') :
    Changed A s₀ (s'.setRun A (· ∈ [.running, .awaitingApproval]) .running) { v with
      nodes := row :: v.nodes
      run := .running
      transitions := ⟨A, node.id, outcome, some input.nodeID, false⟩ :: v.transitions } := by
  have grown := ((changed.insertNode own placed).handOver node input.nodeID).insertTransition rfl moved
  refine grown.setRun _ _ ?_
  rcases run with run | run <;> simp [run]

theorem advance_count (between : View.Between v n rest moves) :
    ((s.transitionsOf A).filter fun t => !t.terminal).length = moves.length := by
  rw [(view_transitions changed.view).symm.trans between.transitions]
  refine congrArg List.length (List.filter_eq_self.mpr fun t member => ?_)
  rw [between.course.linked.plain t member]
  rfl

theorem Advances.moved (advances : Advances lib input itemID A a node outcome s s')
    (graph : v.graph = a.graph) (between : View.Between v n rest moves) (id : node.id = n.id)
    (key : node.nodeKey = n.nodeKey) : Moved lib A s₀ s' v := by
  cases advances with
  | completes declared inserted credited =>
    refine ⟨_, completes_changed changed inserted credited, rfl, rfl, between.complete rfl id ?_,
      fun _ => .inl⟩
    rw [graph, ← key]
    exact declared
  | exhausts =>
    exact ⟨_, ((changed.setRun (fun _ => true) .failed (.inl rfl)).finishAttempt _).log _ _ _ _, rfl, rfl,
      between.exhaust, fun _ => .inl⟩
  | @proceeds target d row _ _ edge left found built placed moved =>
    obtain ⟨rowID, own, name, visit, seq, kind, pending, fresh⟩ := nodeRow_ok built
    have nodes := (view_nodes changed.view).symm.trans between.course.nodes
    have linked := between.course.linked
    have target : row.nodeKey = target := name.trans (findNode_key found)
    rw [← graph, ← target] at found
    refine ⟨_, proceeds_changed changed own between.run placed moved, rfl, rfl,
      between.proceed ?_ ⟨rfl, id, ?_⟩ ?_ ?_ ?_ pending ?_, fun m member => ?_⟩
    · rw [advance_count changed between, ← graph] at left
      exact left
    · rw [rowID]
    · rw [graph, ← key, target]
      exact edge
    · rw [seq, nextSeq, nodes, linked.seqs]
    · rw [visit, nextVisit, nodes, linked.visits, target]
    · exact fits_of_row found name kind fresh
    · rcases List.mem_cons.mp member with rfl | member
      · exact .inr ⟨(insertNode_ok placed).1, d, _, _, _, _, _, found, built⟩
      · exact .inl member

end Changes

/-! ### Turns and blockers -/

theorem EndsTurn.inv (ends : EndsTurn lib input s s') (inv : Inv lib s) : Inv lib s' := by
  cases ends with
  | @fails v n rest t turnTo _ _ last run member running ended settled =>
    obtain ⟨here, nodes⟩ := last
    have moved := ((Changed.refl here).setTurn member turnTo).setNode nodes
      (fun n => { n with state := .failed, finished := true }) (fun _ => rfl) (fun _ => rfl)
    exact inv.of_changed here (by rw [run]; rfl)
      (((moved.setRun _ _ (.inl rfl)).finishAttempt _).log _ _ _ _) rfl rfl
      ((inv.sound here).fail nodes member running ended settled)
  | settles last run member running found advances =>
    obtain ⟨here, nodes⟩ := last
    obtain ⟨_, here', graph, _, _⟩ := view_of_find found
    cases here.symm.trans here'
    obtain ⟨moves, between⟩ := (inv.sound here).settle nodes member running
    have settled := ((Changed.refl here).setTurn member .succeeded).setNode nodes
      (fun n => { n with state := .succeeded, finished := true }) (fun _ => rfl) (fun _ => rfl)
    obtain ⟨v', changed, graph', item, sound, _⟩ :=
      advances.moved (settled.log _ _ _ _) graph between rfl rfl
    exact inv.of_changed here (by rw [run]; rfl) changed graph' item sound

theorem Responds.inv {response : BlockerResponseInput} {answer : Responded}
    (responds : Responds lib input response s answer s') (inv : Inv lib s) : Inv lib s' := by
  cases responds with
  | discloses found opened =>
    obtain ⟨v, n, rest, view, here, nodes, _, _, _, run, _⟩ :=
      inv.open_blocker (find_mem found) opened
    refine inv.of_changed view (by rw [run]; rfl) ((Changed.refl view).setBlocker here _ _ ?_) rfl rfl
      ((inv.sound view).refresh nodes here opened ?_ ?_)
    · intro b
      unfold Blocker.disclosing
      split <;> rfl
    · intro b
      unfold Blocker.disclosing
      split <;> exact ⟨rfl, rfl, rfl, rfl⟩
    · intro b
      unfold Blocker.disclosing
      split <;> rfl
  | confirms found opened named =>
    obtain ⟨v, n, rest, view, here, nodes, node, _, blocked, run, _⟩ :=
      inv.open_blocker (find_mem found) opened
    rw [← some.inj (node.symm.trans named)]
    have resolved := (Changed.refl view).setBlocker here (·.answered response.outcome input.now)
      (fun _ => rfl) (fun _ => rfl)
    have moved := resolved.moveNode nodes (fun state => state = .blocked) (by simp [blocked]) .pending
    refine inv.of_changed view (by rw [run]; rfl) ((moved.setRun _ _ (.inl ?_)).log _ _ _ _) rfl rfl
      ((inv.sound view).confirm nodes here opened (fun _ => ⟨rfl, rfl, rfl, rfl⟩) fun _ => rfl)
    simp [run]
  | @answers b v n _ _ _ _ _ opened _ last here run known fits linked advances =>
    obtain ⟨view, nodes⟩ := last
    obtain ⟨_, view', graph, _, _⟩ := view_of_find known
    cases view.symm.trans view'
    rw [← graph] at fits
    have resolved := (Changed.refl view).setBlocker here (·.answered response.outcome input.now)
      (fun _ => rfl) (fun _ => rfl)
    have moved := resolved.setNode nodes (·.answered response.outcome response.artifactRefs)
      (fun _ => rfl) (fun _ => rfl)
    obtain ⟨moves, between⟩ := (inv.sound view).answer nodes here opened
      (f := (·.answered response.outcome input.now)) (fun _ => ⟨rfl, rfl, rfl, rfl⟩) (fun _ => rfl)
      (n.answered response.outcome response.artifactRefs) ⟨rfl, rfl, rfl, rfl⟩ fits rfl
    obtain ⟨v', changed, graph', item, sound, _⟩ :=
      advances.moved (((moved.linkAll linked).log _ _ _ _).log _ _ _ _) graph between rfl rfl
    exact inv.of_changed view (by rw [run]; rfl) changed graph' item sound

end Ways

variable {spec : CanonicalSpec} {i : WorkItem} {id : ID} {base : RevisionBase} {artifactID : Uuid}
  {scope : Scope} {α : Type} {tx : Input → Transaction α}

/-! ### Attempts -/

section Attempts

variable {lib : Library} {input : Input} {s s' : State} {A : ID} {v : View} {u : Unit}
  {create : CreateAttemptInput}

theorem Changed.insertAttempt (inv : Inv lib s) {a : Attempt}
    (inserted : s.insertAttempt a = .ok s') :
    Changed a.id s s' {
      graph := a.graph, workItemID := a.workItemID, valueModel := a.valueModel, run := a.run,
      finished := a.finished, nodes := [], transitions := [], turns := [], blockers := [] } := by
  obtain ⟨attempts, unique, rfl⟩ := insertAttempt_ok inserted
  have fresh := insert_fresh unique
  refine ⟨{ Within.refl a.id s with attempts := fun B other => ?_ }, ?_⟩
  · rw [find_insert unique, if_neg (Ne.symm other)]
  · simp only [State.view, find_insert unique, if_true, map_some, some.injEq,
      View.mk.injEq, true_and]
    exact inv.owned fresh

theorem attemptValueModel_ok {model : Option ValueModel}
    (ran : attemptValueModel input create s = .ok (model, s')) : s' = s := by
  unfold attemptValueModel at ran
  cases revised : create.revisedFromAttemptID with
  | none =>
    rw [revised] at ran
    exact (pure_ok.mp ran).2.symm
  | some _ =>
    rw [revised] at ran
    obtain ⟨_, _, ran⟩ := need_then.mp ran
    exact (pure_ok.mp ran).2.symm

def newAttempt (input : Input) (create : CreateAttemptInput) (models : List (String × ModelSnapshot))
    (valueModel : Option ValueModel) : Attempt where
  id := input.attemptID
  workItemID := create.workItemID
  number := create.number
  definitionKey := create.definitionKey
  definitionVersion := create.definitionVersion
  spec := create.spec
  models := models
  valueModel := valueModel
  revisedFromAttemptID := create.revisedFromAttemptID
  revisionFeedbackID := create.revisionFeedbackID
  consequenceConfirmation := create.consequenceConfirmation

/-- What creates an attempt: its row, the execution of its entry node, and the links of its sources. -/
theorem createAttempt_ok (ran : createAttempt lib input create s = .ok (u, s')) :
    ∃ models valueModel s₁ d row s₂ s₃, attemptValueModel input create s = .ok (valueModel, s) ∧
    s.insertAttempt (newAttempt input create models valueModel) = .ok s₁ ∧
    findNode create.spec.graph create.spec.graph.entryNode = some d ∧
    nodeRow lib input.nodeID input.attemptID d 1 1 models create.spec = .ok row ∧
    s₁.insertNode row = .ok s₂ ∧
    create.sourceArtifacts.foldlM (·.linkSource input create.workItemID input.attemptID input.nodeID)
    s₂ = .ok s₃ ∧
    s' = s₃.log create.workItemID input.attemptID input.nodeID (.attemptCreated create.number) := by
  simp only [createAttempt, need_then] at ran
  obtain ⟨models, _, ran⟩ := ran
  obtain ⟨valueModel, _, valued, ran⟩ := bind_ok.mp ran
  cases attemptValueModel_ok valued
  simp only [attempt_then, insertNodeExecution, need_then, write_ok] at ran
  obtain ⟨s₁, inserted, entry, found, s₂, made, s₃, linked, rfl⟩ := ran
  obtain ⟨row, built, placed⟩ := bind_ok.mp made
  exact ⟨models, valueModel, s₁, entry, row, s₂, s₃, valued, inserted, found, built, placed, linked, rfl⟩

theorem createAttempt_changed (inv : Inv lib s)
    (ran : createAttempt lib input create s = .ok (u, s')) :
    ∃ models valueModel d row, attemptValueModel input create s = .ok (valueModel, s) ∧
      findNode create.spec.graph create.spec.graph.entryNode = some d ∧
      nodeRow lib input.nodeID input.attemptID d 1 1 models create.spec = .ok row ∧
      row.violation = none ∧ Changed input.attemptID s s' {
        graph := create.spec.graph, workItemID := create.workItemID, valueModel := valueModel,
        run := .pending, finished := false, nodes := [row], transitions := [], turns := [],
        blockers := [] } := by
  obtain ⟨models, valueModel, s₁, entry, row, s₂, s₃, valued, inserted, found, built, placed, linked,
    rfl⟩ := createAttempt_ok ran
  have owner := (nodeRow_ok built).2.1
  have created := Changed.insertAttempt inv inserted
  exact ⟨models, valueModel, entry, row, valued, found, built, (insertNode_ok placed).1,
    ((created.insertNode owner placed).linkSources linked).log _ _ _ _⟩

theorem createAttempt_sound (inv : Inv lib s) (accepted : validateGraph lib create.spec = .ok ())
    (ran : createAttempt lib input create s = .ok (u, s')) : ∃ v, Changed input.attemptID s s' v ∧
    v.Sound ∧ v.graph = create.spec.graph ∧ v.workItemID = create.workItemID := by
  obtain ⟨_, _, d, row, _, found, built, _, changed⟩ := createAttempt_changed inv ran
  obtain ⟨_, _, name, visit, seq, kind, pending, fresh⟩ := nodeRow_ok built
  have limit := (validateGraph_ok accepted).1.limit
  refine ⟨_, changed, View.Sound.enter (by omega) ?_ visit seq pending
    (fits_of_row found name kind fresh), rfl, rfl⟩
  rw [name]
  exact findNode_key found

theorem resolveForAttempt_ok (ran : resolveForAttempt lib input s = .ok (spec, s')) :
    input.definition = some spec ∧ validateGraph lib spec = .ok () ∧ s = s' := by
  simp only [resolveForAttempt, need_then] at ran
  obtain ⟨spec', defined, ran⟩ := ran
  cases accepted : validateGraph lib spec' with
  | error text =>
    rw [accepted] at ran
    exact (fail_ok.mp ran).elim
  | ok _ =>
    rw [accepted] at ran
    obtain ⟨rfl, rfl⟩ := pure_ok.mp ran
    exact ⟨defined, accepted, rfl⟩

def newItem (input : Input) (request : StartInput) : WorkItem where
  id := input.itemID
  workflowKey := request.workflowKey
  startIdentityID := request.actorIdentityID
  startIdempotencyKey := request.idempotencyKey
  startPayloadHash := request.payloadHash

def firstAttempt (input : Input) (request : StartInput)
    (spec : CanonicalSpec) : CreateAttemptInput where
  spec := spec
  workItemID := input.itemID
  number := 1
  definitionKey := request.workflowKey
  definitionVersion := request.workflowVersion
  sourceArtifacts := request.artifactRefs

variable {request : StartInput}

/-- `Start` finds the item of its key, or makes an item with its first attempt. -/
theorem start_starts (ran : start lib input request s = .ok (id, s')) :
    (s.itemOf request.actorIdentityID request.workflowKey request.idempotencyKey).isSome ∧ s' = s ∨
    ∃ spec s₁ s₂, input.definition = some spec ∧ validateGraph lib spec = .ok () ∧
    s.insertItem (newItem input request) = .ok s₁ ∧
    createAttempt lib input (firstAttempt input request spec) s₁ = .ok ((), s₂) ∧
    s' = (s₂.setCurrent input.itemID input.attemptID).log input.itemID input.attemptID none
    (.workItemCreated request.workflowKey request.artifactRefs) := by
  simp only [start, refuse_then, read_then] at ran
  obtain ⟨_, _, _, ran⟩ := ran
  cases known : s.itemOf request.actorIdentityID request.workflowKey request.idempotencyKey with
  | some item =>
    simp only [known, refuse_then, pure_ok] at ran
    exact .inl ⟨rfl, ran.2.2.symm⟩
  | none =>
  rw [known] at ran
  obtain ⟨spec, s₁, resolved, went⟩ := bind_ok.mp ran
  obtain ⟨defined, accepted, rfl⟩ := resolveForAttempt_ok resolved
  simp only [attempt_then] at went
  obtain ⟨s₂, inserted, went⟩ := went
  obtain ⟨_, s₃, created, ending⟩ := bind_ok.mp went
  simp only [write_then, pure_ok] at ending
  exact .inr ⟨spec, s₂, s₃, defined, accepted, inserted, created, ending.2.symm⟩

theorem Inv.insertItem (inv : Inv lib s) (inserted : s.insertItem i = .ok s') :
    Inv lib s' ∧ s'.items.find i.id = some i ∧ ∀ {B u}, s'.view B = some u → u.workItemID ≠ i.id := by
  obtain ⟨items, unique, rfl⟩ := insertItem_ok inserted
  have free := insert_fresh unique
  have other : ∀ {B u}, s.view B = some u → i.id ≠ u.workItemID := by
    intro B u here same
    obtain ⟨j, found, _⟩ := inv.item here
    rw [← same, free] at found
    cases found
  refine ⟨{ inv with item := fun here => ?_ }, ?_, fun here => (other here).symm⟩
  · obtain ⟨j, found, current⟩ := inv.item here
    refine ⟨j, ?_, current⟩
    rw [find_insert unique, if_neg (other here), found]
  · rw [find_insert unique, if_pos rfl]

theorem start_inv (inv : Inv lib s) (ran : start lib input request s = .ok (id, s')) :
    Inv lib s' := by
  rcases start_starts ran with ⟨_, rfl⟩ | ⟨spec, s₁, s₂, _, accepted, inserted, created, rfl⟩
  · exact inv
  obtain ⟨inv', item, others⟩ := inv.insertItem inserted
  obtain ⟨v, changed, sound, graph, own⟩ := createAttempt_sound inv' accepted created
  have done := inv'.create changed sound accepted graph (by rw [own]; exact item)
    fun here same => absurd (same.trans own) (others here)
  rw [own] at done
  exact { done with }

theorem revise_inv (inv : Inv lib s) {request : RevisionInput}
    (accepted : validateGraph lib spec = .ok ())
    (ran : revise lib input request base spec s = .ok (u, s')) : Inv lib s' := by
  obtain ⟨item, current, create, s₁, _, found, same, present, done, mine, rfl, created, rfl⟩ :=
    revise_revises ran
  obtain ⟨v, changed, sound, graph, own⟩ := createAttempt_sound inv accepted created
  rw [mine] at own
  have made := inv.create changed sound accepted graph (by rw [own]; exact found) (by
    intro B w here mine
    by_contra going
    obtain ⟨i, known, known'⟩ := inv.item here
    rw [mine, own, found] at known
    cases known
    -- the attempt that runs would be the current one, which has succeeded
    have running := known' (by simpa using going)
    cases same.symm.trans running
    obtain ⟨w', here', _, _, run⟩ := view_of_find present
    cases here.symm.trans here'
    rw [run, done] at going
    exact going rfl)
  rw [own] at made
  exact { made with }

theorem saveFeedback_inv (inv : Inv lib s) {request : FeedbackInput}
    (ran : saveFeedback input request s = .ok (u, s')) : Inv lib s' := by
  obtain ⟨_, _, _, inserted, deducted, rfl⟩ := saveFeedback_saves ran
  obtain ⟨_, _, rfl⟩ := insertFeedback_ok inserted
  obtain ⟨_, _, rfl, _⟩ := deductValue_entered deducted
  exact { inv with }

theorem publish_ok (ran : publish artifactID scope s = .ok (u, s')) :
    ∃ l, s' = { s with links := l :: s.links } := by
  simp only [publish, refuse_then, need_then, check_then, read_then, attempt_ok] at ran
  obtain ⟨_, _, _, _, _, _, inserted⟩ := ran
  exact ⟨_, insertLink_ok inserted⟩

theorem publish_inv (inv : Inv lib s) (ran : publish artifactID scope s = .ok (u, s')) :
    Inv lib s' := by
  obtain ⟨_, rfl⟩ := publish_ok ran
  exact { inv with }

theorem revisionBase_ok {request : RevisionInput} (ran : revisionBase request s = .ok (base, s')) :
    s' = s := by
  simp only [revisionBase, refuse_then, need_then, pure_ok] at ran
  obtain ⟨_, _, _, _, _, _, _, _, rfl⟩ := ran
  rfl

end Attempts

/-! ### The engine -/

section Engine

variable {lib : Library} {t : Nat}

/-- The commands do not depend on each other. -/
def rules (lib : Library) : Rules State where
  inv := Inv lib
  moves _ _ := True
  rely _ _ _ := True
  rely_refl _ _ := trivial
  rely_trans _ _ := trivial

variable {s : State}

theorem store_wp {Q : Except Err α → Prop}
    (keeps : ∀ {input s answer s'}, Inv lib s → tx input s = .ok (answer, s') → Inv lib s')
    (returns : ∀ {input s answer s'}, tx input s = .ok (answer, s') → Q (.ok answer))
    (fails : ∀ err, Q (.error err)) : Wp (rules lib) t (store tx) (fun answer _ => Q answer) s := by
  have committed : ∀ {input s}, Inv lib s → Inv lib ((tx input).commit s).2 := by
    intro input s inv
    rcases (tx input).commit_cases s with same | ⟨answer, ran⟩
    · rw [same]
      exact inv
    · exact keeps inv ran
  refine Wp.atomic fun s₁ _ inv input answer s₂ ran => ?_
  have ran := some.inj ran
  unfold call at ran
  split at ran
  · obtain rfl : ((tx input).commit s₁).1 = answer := congrArg Prod.fst ran
    obtain rfl : ((tx input).commit s₁).2 = s₂ := congrArg Prod.snd ran
    refine ⟨⟨committed inv, trivial, fun _ _ => trivial⟩, ?_⟩
    unfold Tx.commit
    cases went : tx input s₁ with
    | error err => exact fails err
    | ok result => exact returns went
  · cases ran
    exact ⟨⟨inv, trivial, fun _ _ => trivial⟩, fails _⟩
  · cases ran
    exact ⟨⟨committed inv, trivial, fun _ _ => trivial⟩, fails _⟩

theorem once_wp
    (keeps : ∀ {input s answer s'}, Inv lib s → tx input s = .ok (answer, s') → Inv lib s') :
    Follows (rules lib) t (once tx) s :=
  (store_wp keeps (fun _ => trivial) fun _ => trivial).seq fun _ _ => trivial

theorem createRevision_wp (request : RevisionInput) :
    Follows (rules lib) t (createRevision lib request) s := by
  refine (store_wp (fun inv ran => ?_) (fun _ => trivial) fun _ => trivial).seq fun base s => ?_
  · rw [revisionBase_ok ran]
    exact inv
  cases base with
  | error err => trivial
  | ok base =>
    refine (store_wp (Q := fun answer => ∀ spec, answer = .ok spec → validateGraph lib spec = .ok ())
      (fun inv ran => ?_) (fun ran spec same => ?_) fun err spec same => ?_).andThen
      fun spec s accepted => ?_
    · rw [← (resolveForAttempt_ok ran).2.2]
      exact inv
    · cases same
      exact (resolveForAttempt_ok ran).2.1
    · cases same
    cases spec with
    | error err => trivial
    | ok spec =>
      exact (store_wp (fun inv ran => revise_inv inv (accepted spec rfl) ran) (fun _ => trivial)
        fun _ => trivial).seq fun _ _ => trivial

theorem engine_sound (lib : Library) : (engine lib).Sound (rules lib) where
  start {request t s s' p} inv started := by
    cases started
    refine ⟨⟨inv, trivial, fun _ _ => trivial⟩, ?_⟩
    cases request with
    | start request => exact once_wp fun inv ran => start_inv inv ran
    | prepareNode attemptID => exact once_wp fun inv ran => (prepareNode_prepares inv ran).inv inv
    | recordCompletionReport turnID report =>
      refine once_wp fun inv ran => ?_
      obtain ⟨_, _, _, _, reports⟩ := recordCompletionReport_reports inv ran
      exact reports.inv inv
    | completeTurn turnID reason failure => exact once_wp fun inv ran => (completeTurn_ends inv ran).inv inv
    | respondBlocker response => exact once_wp fun inv ran => (respondBlocker_responds inv ran).inv inv
    | saveFeedback request => exact once_wp fun inv ran => saveFeedback_inv inv ran
    | createRevision request => exact createRevision_wp request
    | publish artifactID scope => exact once_wp fun inv ran => publish_inv inv ran
    | ledger statement =>
      refine once_wp fun inv ran => ?_
      cases write_ok.mp ran
      exact { inv with }
  restart inv := inv

theorem Inv.initial (lib : Library) : Inv lib State.empty where
  sound here := by cases here
  accepted here := by cases here
  item here := by cases here
  owned _ := ⟨rfl, rfl, rfl, rfl⟩

variable {c : Config Unit Input State}

/-- **The invariant holds in every state the engine reaches.** -/
theorem engine_inv {guard : System.Guard Unit Input Request State}
    (reached : (engine lib).Reaches guard State.empty c) : Inv lib c.shared :=
  (engine_sound lib).invariant (.initial lib) reached

/-! ### Further invariants -/

/-- A transaction keeps `P`, on top of the invariant. -/
def KeptBy {α : Type} (lib : Library) (P : State → Prop) (tx : Transaction α) : Prop :=
  ∀ s a s', Inv lib s → P s → tx s = .ok (a, s') → P s'

theorem KeptBy.of_keeps {P : State → Prop} {tx : Transaction α} (keeps : Tx.Keeps P tx) :
    KeptBy lib P tx := fun s a s' _ holds ran => keeps s a s' holds ran

structure Kept (lib : Library) (P : State → Prop) : Prop where
  start : ∀ input request, KeptBy lib P (start lib input request)
  prepareNode : ∀ input attemptID, KeptBy lib P (prepareNode input attemptID)
  recordCompletionReport : ∀ input turnID report,
    KeptBy lib P (recordCompletionReport lib input turnID report)
  completeTurn : ∀ input turnID reason failure, KeptBy lib P (completeTurn lib input turnID reason failure)
  respondBlocker : ∀ input response, KeptBy lib P (respondBlocker lib input response)
  saveFeedback : ∀ input request, KeptBy lib P (saveFeedback input request)
  revise : ∀ input request base spec, KeptBy lib P (revise lib input request base spec)
  publish : ∀ artifactID scope, KeptBy lib P (publish artifactID scope)
  ledger : ∀ s (statement : LedgerStatement), P s → P { s with ledger := statement.apply s.ledger }

variable {P : State → Prop} {guard : System.Guard Unit Input Request State}

theorem store_along (keeps : ∀ input, KeptBy lib P (tx input)) :
    Runs (rules lib) { inv := P, guard := guard } t (store tx) s := by
  have committed : ∀ {input s}, Inv lib s → P s → P ((tx input).commit s).2 := by
    intro input s inv holds
    rcases (tx input).commit_cases s with same | ⟨answer, ran⟩
    · rw [same]
      exact holds
    · exact keeps input s answer _ inv holds ran
  refine Along.atomic fun s₁ _ inv holds input answer s₂ _ ran _ _ => ⟨?_, trivial⟩
  have ran := some.inj ran
  unfold call at ran
  split at ran
  · obtain rfl : ((tx input).commit s₁).2 = s₂ := congrArg Prod.snd ran
    exact committed inv holds
  · cases ran
    exact holds
  · cases ran
    exact committed inv holds

theorem once_along (keeps : ∀ input, KeptBy lib P (tx input)) :
    Runs (rules lib) { inv := P, guard := guard } t (once tx) s :=
  (store_along keeps).andThen fun _ _ _ => trivial

theorem createRevision_along (kept : Kept lib P) (request : RevisionInput) :
    Runs (rules lib) { inv := P, guard := guard } t (createRevision lib request) s := by
  refine (store_along fun _ => .of_keeps (.of_read fun ran => (revisionBase_ok ran).symm)).andThen fun base s _ => ?_
  cases base with
  | error err => trivial
  | ok base =>
    refine (store_along fun _ =>
      .of_keeps (.of_read fun ran => (resolveForAttempt_ok ran).2.2)).andThen fun spec s _ => ?_
    cases spec with
    | error err => trivial
    | ok spec =>
      exact (store_along fun input => kept.revise input request base spec).andThen fun _ _ _ => trivial

/-- **What every command keeps holds in every state the engine reaches.** -/
theorem Kept.invariant (kept : Kept lib P) (initial : P State.empty)
    (reached : (engine lib).Reaches guard State.empty c) : P c.shared := by
  have proved : (engine lib).Proved (rules lib) { inv := P, guard := guard } :=
    { sound := engine_sound lib
      start := by
        intro request t s s' p _ holds _ started _
        cases started
        refine ⟨⟨holds, fun _ _ => trivial⟩, ?_⟩
        cases request with
        | start request => exact once_along fun input => kept.start input request
        | prepareNode attemptID => exact once_along fun input => kept.prepareNode input attemptID
        | recordCompletionReport turnID report =>
          exact once_along fun input => kept.recordCompletionReport input turnID report
        | completeTurn turnID reason failure =>
          exact once_along fun input => kept.completeTurn input turnID reason failure
        | respondBlocker response => exact once_along fun input => kept.respondBlocker input response
        | saveFeedback request => exact once_along fun input => kept.saveFeedback input request
        | createRevision request => exact createRevision_along kept request
        | publish artifactID scope => exact once_along fun _ => kept.publish artifactID scope
        | ledger statement =>
          exact once_along fun _ => .of_keeps (.write fun s holds => kept.ledger s statement holds)
      restart := fun _ holds _ _ => holds }
  exact (proved.invariant (.initial lib) initial reached).2

end Engine

end Iterabase.Work
