/-
**Durable dispatch — what the tool gateway authorizes.**

The gateway resolves a supervisor's call against the tables that dispatch writes. `ResolveTurnScope`
reads the turn, then its active assignment, then the pool, in three queries of their own, so a fence
may commit between any two of them.

* `resolveTurnScope` — the call, over the states of the database that its queries see.
* `authorization_follows_fencing` — **a call is authorized only by the row that is active when it reads
  the assignments.**
-/

import Iterabase.Dispatch.Watch

namespace Iterabase.Dispatch

open Conc List State Option Along

/-! ### The call -/

inductive CallerScope
  | turn
  | workflowStep
  deriving DecidableEq

structure Capability where
  tool : String
  maxEffectClass : String
  actions : List String := []
  deriving DecidableEq

/-- `CallerResolution`; without permitted capabilities the call is not narrowed. -/
structure CallerResolution where
  pool : Pool
  permittedCapabilities : Option (List Capability)
  attemptID : RunID
  callerScope : CallerScope
  callerScopeID : String
  deriving DecidableEq

/-- The columns of an assignment row that dispatch writes and only the gateway reads.
`capability_request` is what `json.Unmarshal` makes of its bytes, or `none` where there are none. -/
structure CapabilityColumns where
  nodeExecutionID : Option NodeID := none
  capabilityRequest : Option (Option (List Capability)) := none

/-- What a row permits: a turn of no node is not narrowed, an empty request permits nothing, and a
request that cannot be read (`none`) denies the call. -/
def CapabilityColumns.permitted (columns : CapabilityColumns) : Option (Option (List Capability)) :=
  match columns.nodeExecutionID with
  | none => some none
  | some _ =>
      match columns.capabilityRequest with
      | none => some (some [])
      | some request => request.map some

structure TurnScope where
  poolID : PoolID
  attemptID : RunID
  turnID : TurnID
  workerID : WorkerID
  fencingGeneration : Nat

/-- The states of the database that the three queries see; a query that fails sees none. -/
structure ScopeReads where
  turn : Option State
  assignment : Option State
  pool : Option State

/-- `ErrScopeDenied`, or a failed query. -/
inductive ScopeErr
  | denied
  | infrastructure
  deriving DecidableEq

namespace State

/-- The first query: the run of the turn, where it is running, of the attempt, and the attempt is
assigned to the pool. -/
def scopeTurn (s : State) (scope : TurnScope) : Option RunID :=
  match s.turns.find scope.turnID with
  | none => none
  | some turn =>
      if turn.state = .running ∧ turn.runID = scope.attemptID ∧
          s.poolOf turn.runID = some scope.poolID then some turn.runID
      else none

def getPoolByID (s : State) (poolID : PoolID) : Option Pool := s.pools.find? fun p => p.id = poolID

end State

def resolveTurnScope (reads : ScopeReads) (columns : TurnID → CapabilityColumns) (scope : TurnScope) :
    Except ScopeErr CallerResolution :=
  match reads.turn with
  | none => .error .infrastructure
  | some s =>
      match s.scopeTurn scope with
      | none => .error .denied
      | some runID =>
          match reads.assignment with
          | none => .error .infrastructure
          | some s =>
              match s.resolveActiveAssignment scope.turnID with
              | .error _ => .error .denied
              | .ok a =>
                  if a.workerID ≠ scope.workerID ∨ a.fencingGeneration ≠ scope.fencingGeneration then
                    .error .denied
                  else
                    match reads.pool.bind fun s => s.getPoolByID scope.poolID with
                    | none => .error .denied
                    | some pool =>
                        match (columns scope.turnID).permitted with
                        | none => .error .denied
                        | some permitted => .ok ⟨pool, permitted, runID, .turn, scope.turnID⟩

/-- Each query that does not fail sees the given state. -/
structure ScopeReads.Sees (reads : ScopeReads) (s₁ s₂ s₃ : State) : Prop where
  turn : ∀ s ∈ reads.turn, s = s₁
  assignment : ∀ s ∈ reads.assignment, s = s₂
  pool : ∀ s ∈ reads.pool, s = s₃

/-- What a call that is authorized has read. -/
structure Authorizes (scope : TurnScope) (s₁ s₂ : State) (turn : Turn) (a : Assignment) : Prop where
  found : s₁.turns.find scope.turnID = some turn
  attempt : turn.runID = scope.attemptID
  pool : s₁.poolOf scope.attemptID = some scope.poolID
  row : s₂.assignments.find scope.turnID = some a
  active : a.state = .active
  worker : a.workerID = scope.workerID
  gen : a.fencingGeneration = scope.fencingGeneration

variable {s₁ s₂ s₃ : State} {label : Label} {w : ConnRef} {a : Assignment} {trace : List Obs}
  {o' : Obs} {runID : RunID}

theorem resolveTurnScope_ok {reads : ScopeReads} {columns : TurnID → CapabilityColumns}
    {scope : TurnScope} {r : CallerResolution} (sees : reads.Sees s₁ s₂ s₃)
    (ok : resolveTurnScope reads columns scope = .ok r) :
    ∃ turn a, Authorizes scope s₁ s₂ turn a := by
  unfold resolveTurnScope at ok
  split at ok
  · cases ok
  rename_i s first
  cases sees.turn s first
  split at ok
  · cases ok
  rename_i runID queried
  unfold scopeTurn at queried
  split at queried
  · cases queried
  rename_i turn found
  split at queried
  · rename_i matches_
    obtain ⟨_, attempt, pool⟩ := matches_
    split at ok
    · cases ok
    rename_i s second
    cases sees.assignment s second
    split at ok
    · cases ok
    rename_i a resolved
    obtain ⟨row, active⟩ := resolveActiveAssignment_ok.mp resolved
    split at ok
    · cases ok
    rename_i same
    rw [not_or, not_not, not_not] at same
    exact ⟨turn, a, found, attempt, attempt ▸ pool, row, active, same.1, same.2⟩
  · cases queried

/-! ### Steps that no scope sees -/

def Obs.Scoped : Obs → Prop
  | .holds _ _ _ => True
  | .assigned _ => True
  | .fencedFor _ => True
  | .sent _ (.welcome _) _ => True
  | _ => False

/-- A step that makes no row and no connection, moves no run to another pool, and observes nothing of
the above. -/
structure Unscoped (s s' : State) : Prop where
  rows : ∀ k, s.assignments.find k = none → s'.assignments.find k = none
  pools : ∀ id, s'.poolOf id = s.poolOf id
  conns : ∀ k c', s'.conns.find k = some c' → ∃ c, s.conns.find k = some c ∧ c'.ref = c.ref
  silent : Silent Obs.Scoped s s'

variable {o : Obs}

namespace Unscoped

variable {s s' : State}

theorem of_store {new : List Obs} (step : StoreStep s s' new)
    (pools : ∀ id, s'.poolOf id = s.poolOf id) (unwatched : ∀ o ∈ new, ¬ o.Scoped) : Unscoped s
    s' where
  rows := by
    intro k missing
    cases found : s'.assignments.find k with
    | none => rfl
    | some a' =>
      obtain ⟨a, found', _⟩ := step.rows k a' found
      rw [missing] at found'
      cases found'
  pools := pools
  conns := fun k c' found => ⟨c', step.conns ▸ found, rfl⟩
  silent := step.silent unwatched

theorem refl (s : State) : Unscoped s s := .of_store (.refl s) (fun _ => rfl) (by simp)

theorem trans (first : Unscoped s₁ s₂) (second : Unscoped s₂ s₃) : Unscoped s₁ s₃ where
  rows := fun k missing => second.rows k (first.rows k missing)
  pools := fun id => (second.pools id).trans (first.pools id)
  conns := carried_trans (fun ref ref₀ => ref.trans ref₀) second.conns first.conns
  silent := first.silent.trans second.silent

theorem observe (step : Unscoped s s') (unwatched : ¬ o.Scoped) : Unscoped s (s'.observe o) :=
  ⟨step.rows, step.pools, step.conns, step.silent.observe unwatched⟩

theorem modifyConns (s : State) (p : WorkerConn → Bool) (f : WorkerConn → WorkerConn)
    (keeps : ∀ c, (f c).ref = c.ref) : Unscoped s (s.modifyConns p f keeps) where
  rows := fun _ missing => missing
  pools := fun _ => rfl
  conns := by
    intro k c' found
    rw [modifyConns_find, map_eq_some_iff] at found
    obtain ⟨c, found, rfl⟩ := found
    refine ⟨c, found, ?_⟩
    split
    · exact keeps c
    · rfl
  silent := .of_eq rfl

end Unscoped

variable {answers : Option TurnEvent}

section Actions

variable {α : Type} {s s' : State}

theorem modifyConn_unscoped {f : WorkerConn → WorkerConn} {keeps : ∀ c, (f c).ref = c.ref} :
    (locally (fun _ s => ((), s.modifyConn w f keeps)) label).All (Does Unscoped) :=
  locally_does fun _ s => .modifyConns s _ f keeps

theorem Unscoped.of_internal (internal : Internal s s') : Unscoped s s' := by
  obtain ⟨new, step, inner⟩ := internal.step
  refine .of_store step internal.pools fun o member => ?_
  have turn := inner o member
  cases o <;> first | exact turn.elim | exact id

theorem settling_unscoped : Settling (Every (Does Unscoped)) where
  toEnding := .of_internal .of_internal fun s _ => .modifyConns s _ _ _
  releaseTurn := locally_does fun _ s => (Unscoped.modifyConns s _ _ _).observe id

theorem send_unscoped {msg : ControlMessage} (ordinary : ∀ gen, msg ≠ .welcome gen) :
    (send w msg answers).All (Does Unscoped) := by
  refine send_does .refl fun s => (Unscoped.refl s).observe ?_
  cases msg with
  | welcome gen => exact absurd rfl (ordinary gen)
  | _ => exact id

theorem committed_unscoped {te : TurnEvent} {kind : RuntimeEvent}
    (found : s.assignments.find te.turnID = some a)
    (next : te.sequence = a.highestAppliedSequence + 1) (unwatched : ¬ o.Scoped) :
    Unscoped s ((s.advanceWatermark a te kind).observe o) := by
  have step := (advanceWatermark_step kind found (by omega)).1
  exact (Unscoped.of_store step (fun _ => rfl) (by simp)).observe unwatched

theorem handleTurnEvent_unscoped (w : ConnRef) (te : TurnEvent) :
    (handleTurnEvent w te).All (Does Unscoped) :=
  handleTurnEvent_all settling_unscoped
    (fun kind => append_does .refl fun found _ next => committed_unscoped found next id)
    (fun kind => audit_does .refl (fun s => (Unscoped.refl s).observe id) fun found next =>
      committed_unscoped found next id)
    (record_does .of_internal) (send_unscoped (by simp)) fun _ _ => send_unscoped (by simp)

theorem setLoop_unscoped (w : ConnRef) (loop : Loop) : (setLoop w loop).All (Does Unscoped) :=
  modifyConn_unscoped

theorem add_unscoped (w : ConnRef) : (locally fun _ s => s.add w).All (Does Unscoped) :=
  locally_does fun _ s => .modifyConns s _ _ fun c => by split <;> rfl

theorem remove_unscoped (w : ConnRef) : (removing w).All (Does Unscoped) :=
  modifyConn_unscoped

theorem teardown_unscoped (w : ConnRef) : (teardown w).All (Does Unscoped) :=
  teardown_all settling_unscoped.losing (remove_unscoped w) (setLoop_unscoped w _)

theorem Unscoped.gates {gates : List (PoolID × Bool)} {capacities : Table WorkspaceCapacityState.poolID} :
    Unscoped s { s with workspaceGated := gates, capacities } :=
  .of_store (show StoreStep _ _ [] from {}) (fun _ => rfl) (by simp)

theorem serve_unscoped (w : ConnRef) (msg : WorkerMessage) : (serve w msg).All (Does Unscoped) := by
  refine serve_all settling_unscoped.losing
    (ready_does fun _ _ => (Unscoped.modifyConns _ _ _ _).observe id)
    (fun _ => handleWorkspaceStatus_does (fun _ _ => .gates) fun gated => locally_does fun _ s => ?_)
    (handleTurnEvent_unscoped w) (remove_unscoped w) (setLoop_unscoped w)
  exact Unscoped.gates.trans (.modifyConns _ _
    (fun c => c.applyWorkspaceStatus gated (c.id = w.id)) fun _ => rfl)

end Actions

/-! ### The invariant -/

/-- `o'` was observed after `o`. -/
def ObservedAfter (o o' : Obs) (trace : List Obs) : Prop :=
  ∃ newer older, trace = newer ++ o :: older ∧ o' ∈ newer

theorem ObservedAfter.later {trace' : List Obs} (after : ObservedAfter o o' trace)
    (longer : trace <:+ trace') : ObservedAfter o o' trace' := by
  obtain ⟨newer, older, rfl, member⟩ := after
  obtain ⟨front, rfl⟩ := longer
  exact ⟨front ++ newer, older, by simp, mem_append_right _ member⟩

theorem ObservedAfter.cons {o : Obs} (member : o ∈ trace) : ObservedAfter o o' (o' :: trace) := by
  obtain ⟨newer, older, rfl⟩ := append_of_mem member
  exact ⟨o' :: newer, older, rfl, .head _⟩

/-- An older generation's active row of the worker of `w` was committed after the fence of `w`. -/
def FencesOlder (w : ConnRef) (s : State) : Prop :=
  ∀ k a, s.assignments.find k = some a → a.state = .active → a.poolID = w.poolID →
    a.workerID = w.workerID → a.fencingGeneration < w.gen →
      ∃ a₀, a₀.turnID = k ∧ a₀.Becomes a ∧ ObservedAfter (.fencedFor w) (.assigned a₀) s.trace

/-- **What the gateway's reads rest on**, for runs assigned to the given pools. -/
structure ScopeInv (pools : RunID → Option PoolID) (s : State) : Prop where
  bound : ∀ id, s.poolOf id = pools id
  row : ∀ k a, s.assignments.find k = some a → pools a.runID = some a.poolID ∧
    ∃ u, s.turns.find k = some u ∧ u.runID = a.runID
  holder : ∀ w turnID dispatcher, .holds w turnID dispatcher ∈ s.trace →
    ∀ k c, s.conns.find k = some c → c.ref.gen = w.gen → c.ref = w
  unique : ∀ w turnID dispatcher w' turnID' dispatcher', .holds w turnID dispatcher ∈ s.trace →
    .holds w' turnID' dispatcher' ∈ s.trace → w.gen = w'.gen → w = w'
  welcomed : ∀ w gen answers, .sent w (.welcome gen) answers ∈ s.trace → .fencedFor w ∈ s.trace
  older : ∀ w, .fencedFor w ∈ s.trace → FencesOlder w s

def scopeLayer (pools : RunID → Option PoolID) : Layer Label Input Request State :=
  { inv := ScopeInv pools, guard := .free }

section Invariant

variable {pools : RunID → Option PoolID} {t : Nat} {w : ConnRef} {s s' : State}

theorem FencesOlder.unscoped (durable : Durable s s') (step : Unscoped s s')
    (fences : FencesOlder w s) : FencesOlder w s' := by
  intro k a' found' active pool worker older
  cases found : s.assignments.find k with
  | none =>
    rw [step.rows k found] at found'
    cases found'
  | some a =>
    obtain ⟨b, found'', becomes⟩ := durable.rows k a found
    cases found'.symm.trans found''
    have active₀ : a.state = .active := by
      by_contra inactive
      exact becomes.inactive inactive active
    obtain ⟨a₀, key, becomes₀, after⟩ := fences k a found active₀ (becomes.poolID ▸ pool)
      (becomes.workerID ▸ worker) (becomes.gen ▸ older)
    exact ⟨a₀, key, becomes₀.trans becomes, after.later durable.trace⟩

theorem ScopeInv.unscoped (inv : ScopeInv pools s) (durable : Durable s s') (step : Unscoped s s') :
    ScopeInv pools s' where
  bound := fun id => (step.pools id).trans (inv.bound id)
  row := by
    intro k a' found'
    cases found : s.assignments.find k with
    | none =>
      rw [step.rows k found] at found'
      cases found'
    | some a =>
      obtain ⟨b, found'', becomes⟩ := durable.rows k a found
      cases found'.symm.trans found''
      obtain ⟨pool, u, turn, run⟩ := inv.row k a found
      obtain ⟨u', turn', becomes'⟩ := durable.turns k u turn
      exact ⟨by rw [becomes.runID, becomes.poolID, pool], u', turn',
        (becomes'.runID.trans run).trans becomes.runID.symm⟩
  holder := by
    intro w turnID dispatcher held k c' found' same
    obtain ⟨c, found, ref⟩ := step.conns k c' found'
    rw [ref] at same ⊢
    exact inv.holder w turnID dispatcher (step.silent.member trivial held) k c found same
  unique := by
    intro w turnID dispatcher w' turnID' dispatcher' held held' same
    exact inv.unique w turnID dispatcher w' turnID' dispatcher' (step.silent.member trivial held)
      (step.silent.member trivial held') same
  welcomed := by
    intro w gen answers member
    exact durable.trace.subset (inv.welcomed w gen answers (step.silent.member trivial member))
  older := fun w fenced => (inv.older w (step.silent.member trivial fenced)).unscoped durable step

theorem scopeLayer_frame (pools : RunID → Option PoolID) : Frame (scopeLayer pools) Unscoped where
  kept := fun _ durable step inv => ScopeInv.unscoped inv durable step

variable {poolID : PoolID}

theorem FencesOlder.observe (fences : FencesOlder w s) (o : Obs) : FencesOlder w (s.observe o) := by
  intro k a found active pool worker older
  obtain ⟨a₀, key, becomes, after⟩ := fences k a found active pool worker older
  exact ⟨a₀, key, becomes, after.later (suffix_cons _ _)⟩

theorem mem_of_observe (member : o' ∈ (s.observe o).trace) (different : o' ≠ o) : o' ∈ s.trace :=
  (mem_cons.mp member).resolve_left different

/-- **An observation** keeps what the reads rest on if it is true of the state it is made in. -/
theorem ScopeInv.observe (inv : ScopeInv pools s)
    (holds : ∀ w turnID d, o = .holds w turnID d →
      (∀ k c, s.conns.find k = some c → c.ref.gen = w.gen → c.ref = w) ∧
      ∀ w' turnID' d', .holds w' turnID' d' ∈ s.trace → w'.gen = w.gen → w' = w)
    (welcomed : ∀ w gen answers, o = .sent w (.welcome gen) answers → .fencedFor w ∈ s.trace)
    (older : ∀ w, o = .fencedFor w → FencesOlder w s) : ScopeInv pools (s.observe o) where
  bound := inv.bound
  row := inv.row
  holder := by
    intro w turnID d held
    rcases mem_cons.mp held with here | old
    · exact (holds w turnID d here.symm).1
    · exact inv.holder w turnID d old
  unique := by
    intro w turnID d w' turnID' d' held held' same
    rcases mem_cons.mp held with here | old <;> rcases mem_cons.mp held' with here' | old'
    · cases here.trans here'.symm
      rfl
    · exact ((holds w turnID d here.symm).2 w' turnID' d' old' same.symm).symm
    · exact (holds w' turnID' d' here'.symm).2 w turnID d old same
    · exact inv.unique w turnID d w' turnID' d' old old' same
  welcomed := by
    intro w gen answers member
    rcases mem_cons.mp member with here | old
    · exact .tail _ (welcomed w gen answers here.symm)
    · exact .tail _ (inv.welcomed w gen answers old)
  older := by
    intro w fenced
    rcases mem_cons.mp fenced with here | old
    · exact (older w here.symm).observe o
    · exact (inv.older w old).observe o

/-! ### Opening a connection -/

theorem ScopeInv.register {workerID : WorkerID} (base : Base s) (inv : ScopeInv pools s)
    (ran : s.register poolID workerID t = some (w, s')) : ScopeInv pools s' := by
  obtain ⟨_, after⟩ := register_cases base ran
  refine ⟨inv.bound, inv.row, fun w turnID dispatcher held k c found same => ?_, inv.unique,
    inv.welcomed, inv.older⟩
  rcases (after k c).mp found with ⟨_, rfl⟩ | old
  · obtain ⟨a, row, gen⟩ := base.traceRows _ held
    have bound := base.rowGen _ a row
    rw [gen, ← same] at bound
    exact absurd bound (Nat.not_succ_le_self _)
  · exact inv.holder w turnID dispatcher held k c old same

theorem ScopeInv.fence {pick : Nat} {answer : Except Err Assignment} (inv : ScopeInv pools s)
    (ran : s.fenceWorkerGeneration w.poolID w.workerID pick = (answer, s')) :
    ScopeInv pools (s'.observe (.fencedFor w)) := by
  have step := fenceWhere_step ran
  have inv' := inv.unscoped step.durable (.of_internal (.fence ran))
  refine inv'.observe (by simp) (by simp) fun w' same k a found active pool worker _ => ?_
  cases same
  -- the fence took every active row of the worker
  obtain ⟨b, found₀, becomes⟩ := step.rows k a found
  obtain ⟨a', found', inactive⟩ := fenceWhere_inactive ran found₀ fun active₀ => by
    simp [activeFor, ← becomes.poolID, ← becomes.workerID, pool, worker, active₀]
  cases found.symm.trans found'
  exact absurd active inactive

theorem ScopeInv.welcome {gen : Nat} (inv : ScopeInv pools s) (fenced : .fencedFor w ∈ s.trace) :
    ScopeInv pools (s.observe (.sent w (.welcome gen) answers)) := by
  refine inv.observe (by simp) (fun w' gen' answers' same => ?_) (by simp)
  cases same
  exact fenced

theorem work_scoped {id : Identity} {hello : Hello} :
    Runs baseRules (scopeLayer pools) t (work t id hello) s := by
  have frame := scopeLayer_frame pools
  have settling := settling_unscoped
  have fenced : ∀ {w : ConnRef} {s s' : State}, Grows s s' → .fencedFor w ∈ s.trace →
      .fencedFor w ∈ s'.trace := fun grows member => grows.trace.subset member
  have fences : ∀ w old s, Along baseRules (scopeLayer pools) t (fenceOldGeneration w old)
      (fun answer s => answer = .ok () → .fencedFor w ∈ s.trace) s := by
    intro w old s
    have closes := settling.toReading.closeOld old
    refine bind (frame.atomic fun s₁ _ _ inv input answer s₂ _ ran _ _ => ?_)
    rcases reconnect_cases ran with ⟨rfl, rfl⟩ | ⟨_, middle, took, rfl, lost⟩
    · exact ⟨inv, (frame.along_true closes).mono (fun _ _ _ => nofun) |>.bind⟩
    refine ⟨ScopeInv.fence inv took, ?_⟩
    rcases lost with rfl | rfl
    · exact (frame.along_true closes).mono (fun _ _ _ => nofun) |>.bind
    have done : .fencedFor w ∈ (middle.observe (.fencedFor w)).trace := (.head _)
    have close : ∀ {β : Type} {p : Program Unit} (value : β) s, p.All (Does Unscoped) →
        .fencedFor w ∈ s.trace → Along baseRules (scopeLayer pools) t (p >>= fun _ => pure value)
          (fun _ s => .fencedFor w ∈ s.trace) s := fun value s closes here =>
      (frame.along_bind fenced here closes fun _ _ kept => kept)
    split
    · refine frame.along_bind fenced done (settling.commitTurnTerminal _ _) fun answer s kept => ?_
      split <;> exact (close _ s closes kept).mono fun _ _ kept _ => kept
    · exact (close _ _ closes done).mono fun _ _ kept _ => kept
    · exact (close _ _ closes done).mono fun _ _ kept _ => kept
  unfold work
  split
  · trivial
  split
  · trivial
  refine (frame.along_true settling.query).andThen fun answer s _ => ?_
  split
  · trivial
  refine bind (frame.atomic fun s₁ _ base inv input w s₂ _ ran _ _ => ?_)
  refine ⟨ScopeInv.register base inv ran, ?_⟩
  refine (frame.along_true (add_unscoped w)).andThen fun old s _ => ?_
  refine (fences w old s).andThen fun answer s fence => ?_
  split
  · exact frame.along_true (teardown_unscoped w)
  have here := fence rfl
  refine bind (frame.atomic fun s₁ moved _ inv input answer s₂ _ ran _ _ => ?_)
  obtain ⟨c, _, ran⟩ := map_eq_some_iff.mp ran
  have inv' : ScopeInv pools s₂ := by
    split at ran
    · cases ran
      exact inv
    · cases ran
      exact ScopeInv.welcome inv (fenced moved.toGrows here)
  refine ⟨inv', ?_⟩
  split
  · exact frame.along_true (teardown_unscoped w)
  · exact frame.along_true (.bind (settling.toReading.ackReconnectWatermark w _ _ fun _ _ =>
      send_unscoped (by simp)) fun _ => setLoop_unscoped w _)

variable {turn : Turn}

/-! ### Assigning turns -/

theorem prepareTurn_found {input : Input} (ran : s.prepareTurn runID input = (.ok turn, s')) :
    s'.turns.find turn.id = some turn ∧ turn.runID = runID := by
  rcases prepareTurn_cases ran with
    ⟨_, failed, _⟩ | ⟨_, same, found, run, rfl⟩ | ⟨same, run, _, _, _, _, inserted, rfl⟩
  · cases failed
  · cases same
    exact ⟨found, run⟩
  · cases same
    exact ⟨(Table.find_insert inserted _).trans (if_pos rfl), run⟩

theorem poolForRun_poolOf (found : s.poolForRun runID = .ok poolID) :
    s.poolOf runID = some poolID := by
  unfold poolForRun at found
  unfold poolOf
  split at found
  · cases found
  rename_i pool assigned
  rw [assigned]
  split at found
  · split at found
    · cases found
      rfl
    · cases found
  · cases found

/-- What a dispatcher knows when it makes the row: the turn is there, and the run is the pool's. -/
def Places (pools : RunID → Option PoolID) (turn : Turn) (poolID : PoolID) (s : State) : Prop :=
  pools turn.runID = some poolID ∧ ∃ u, s.turns.find turn.id = some u ∧ u.runID = turn.runID

theorem Places.grows (grows : Grows s s')
    (places : Places pools turn poolID s) : Places pools turn poolID s' := by
  obtain ⟨pool, u, found, run⟩ := places
  obtain ⟨u', found', becomes⟩ := grows.turns _ u found
  exact ⟨pool, u', found', becomes.runID.trans run⟩

/-- **A new row**: its connection is the only one of its generation that ever got one. -/
theorem ScopeInv.create {rows : Table Assignment.turnID} {dispatcher : Option Nat} (base : Base s)
    (inv : ScopeInv pools s)
    (made : a = rowFor turn poolID w)
    (places : Places pools turn poolID s) (known : Known w s)
    (inserted : s.assignments.insert a = some rows) : ScopeInv pools
    (({ s with assignments := rows }.observe (.assigned a)).observe (.holds w a.turnID dispatcher)) := by
  obtain ⟨c₀, found₀, ref₀⟩ := known
  have after := Table.find_insert inserted
  have listed : ScopeInv pools ({ s with assignments := rows }.observe (.assigned a)) := by
    refine ⟨inv.bound, fun k b found => ?_, fun w' turnID d held => ?_,
      fun w₁ turnID d w₂ turnID' d' held held' => ?_, fun w' gen answers member => ?_,
      fun w' fenced k b found active pool worker older => ?_⟩
    · have found : rows.find k = some b := found
      rw [after] at found
      split at found
      · rename_i key
        cases found
        subst made key
        exact places
      · exact inv.row k b found
    · exact inv.holder w' turnID d (mem_of_observe held (by simp))
    · exact inv.unique w₁ turnID d w₂ turnID' d' (mem_of_observe held (by simp))
        (mem_of_observe held' (by simp))
    · exact .tail _ (inv.welcomed w' gen answers (mem_of_observe member (by simp)))
    · have fenced : .fencedFor w' ∈ s.trace := mem_of_observe fenced (by simp)
      have found : rows.find k = some b := found
      rw [after] at found
      split at found
      · rename_i key
        cases found
        exact ⟨a, key, .refl a, .cons fenced⟩
      · obtain ⟨a₀, key, becomes, since⟩ := inv.older w' fenced k b found active pool worker older
        exact ⟨a₀, key, becomes, since.later (suffix_cons _ _)⟩
  refine listed.observe (fun w' turnID d here => ?_) (by simp) (by simp)
  cases here
  -- whoever held a row of this generation is the connection the row is made for
  refine ⟨fun k c found same => ?_, fun w' turnID' d' held same => ?_⟩
  · have key := base.sameGen k c w.id c₀ found found₀ (by rw [same, ref₀])
    subst key
    cases found.symm.trans found₀
    exact ref₀
  · exact (listed.holder w' turnID' d' held w.id c₀ found₀ (by rw [ref₀, same])).symm.trans ref₀

theorem assign_scoped (places : Places pools turn poolID s) (known : Known w s) :
    Runs baseRules (scopeLayer pools) t (assign turn poolID w) s := by
  have frame := scopeLayer_frame pools
  have stable : ∀ {s s'}, Grows s s' → Places pools turn poolID s ∧ Known w s →
      Places pools turn poolID s' ∧ Known w s' := fun grows kept =>
    ⟨kept.1.grows grows, kept.2.grows grows⟩
  refine frame.along_bind stable ⟨places, known⟩ settling_unscoped.query fun answer s kept => ?_
  split
  · trivial
  refine bind (frame.atomic fun s₁ moved base inv input answer s₂ _ ran _ _ => ?_)
  have kept := stable moved.toGrows kept
  have inv' : ScopeInv pools s₂ := by
    rcases call_effect ran with rfl | ⟨_, ran⟩
    · exact inv
    rcases createAssignmentFor_cases ran with
      ⟨_, _, rfl⟩ | ⟨rows, _, inserted, rfl⟩
    · exact inv
    · exact ScopeInv.create base inv rfl kept.1 kept.2 inserted
  refine ⟨inv', ?_⟩
  split
  · trivial
  refine (frame.along_true (send_unscoped (by simp))).andThen fun answer s _ => ?_
  split
  · exact frame.along_true (.bind settling_unscoped.losing.lose fun _ => .done _)
  · trivial

theorem dispatchRun_scoped (runID : RunID) :
    Runs baseRules (scopeLayer pools) t (dispatchRun t runID) s := by
  have frame := scopeLayer_frame pools
  refine bind (frame.atomic fun s₁ _ _ inv input answer s₂ _ ran _ grows => ?_)
  have prepared : ScopeInv pools s₂ ∧ ∀ turn, answer = .ok turn →
      s₂.turns.find turn.id = some turn ∧ turn.runID = runID := by
    exact ⟨call_keeps ran inv fun ran => inv.unscoped grows.toDurable (.of_internal (.prepare ran)),
      fun turn same => prepareTurn_found (call_ok (same ▸ ran))⟩
  refine ⟨prepared.1, ?_⟩
  split
  · trivial
  rename_i turn
  obtain ⟨found, run⟩ := prepared.2 turn rfl
  have stable : ∀ {s s'}, Grows s s' → (∃ u, s.turns.find turn.id = some u ∧ u.runID = turn.runID) →
      ∃ u, s'.turns.find turn.id = some u ∧ u.runID = turn.runID := by
    rintro s s' grows ⟨u, found, run⟩
    obtain ⟨u', found', becomes⟩ := grows.turns _ u found
    exact ⟨u', found', becomes.runID.trans run⟩
  refine frame.along_bind stable ⟨turn, found, rfl⟩ settling_unscoped.query fun answer s there => ?_
  split
  · trivial
  refine bind (frame.atomic fun s₁ moved _ inv input answer s₂ _ ran _ _ => ?_)
  have there := stable moved.toGrows there
  have read : s₂ = s₁ ∧ ∀ poolID, answer = .ok poolID → pools turn.runID = some poolID := by
    refine ⟨query_same ran, fun poolID same => ?_⟩
    subst same
    rw [run, ← inv.bound runID]
    exact poolForRun_poolOf (Prod.mk.inj (call_ok ran)).1
  obtain ⟨rfl, pooled⟩ := read
  refine ⟨inv, ?_⟩
  split
  · trivial
  rename_i poolID
  have places : Places pools turn poolID s₂ := ⟨pooled poolID rfl, there⟩
  refine bind (frame.atomic fun s₁ moved _ inv input answer s₃ _ ran _ grows => ?_)
  have places := places.grows (moved.toGrows.trans grows)
  rcases reserve_cases (some.inj ran) with _ | ⟨c, found, _, rfl⟩
  · exact ⟨inv, trivial⟩
  refine ⟨inv.unscoped grows.toDurable ((Unscoped.modifyConns _ _ _ _).observe id), ?_⟩
  have known : Known c.ref s₁ := ⟨c, found, rfl⟩
  refine (assign_scoped places (known.grows grows)).andThen fun answer s _ => ?_
  split
  · trivial
  · exact frame.along_true (locally_does fun _ s => (Unscoped.modifyConns s _ _ _).observe id)

end Invariant

theorem scopeLayer_proved (pools : RunID → Option PoolID) :
    service.Proved baseRules (scopeLayer pools) := by
  have frame := scopeLayer_frame pools
  have settling := settling_unscoped
  refine frame.proved (fun s w t rest => ?_) (fun s capacities => ?_) (fun s => ?_)
    (fun s w msg => ?_) (fun s w msg => (Unscoped.refl s).observe id) Unscoped.trans work_scoped
    (fun {_ w msg _} _ _ => frame.along_true (serve_unscoped w msg))
    (fun _ => frame.along_true (teardown_unscoped _))
    (frame.along_true (settling.cancelTurn _ fun _ => send_unscoped (by simp)))
    (frame.along_true (settling.losing.expireLease _)) (dispatchRun_scoped _)
    (frame.along_true (syncWorkspaceCapacityState_all settling.toReading fun _ =>
      locally_does fun _ _ => .gates))
  · exact .modifyConns s _ (fun c => { c with loop := .held t, inbox := rest }) fun _ => rfl
  · exact .gates
  · refine ⟨fun _ missing => missing, fun _ => rfl, fun k c found => ?_, .of_eq rfl⟩
    cases found
  · exact (Unscoped.modifyConns s _ (fun c => { c with inbox := c.inbox ++ [msg] })
      fun _ => rfl).observe id

theorem State.Initial.scoped {s : State} (initial : s.Initial) : ScopeInv s.poolOf s := by
  have none : ∀ {o : Obs}, o ∈ s.trace → False := fun member => by
    rw [initial.trace] at member
    cases member
  refine ⟨fun _ => rfl, fun k a found => ?_, fun _ _ _ held => (none held).elim,
    fun _ _ _ _ _ _ held => (none held).elim, fun _ _ _ member => (none member).elim,
    fun _ fenced => (none fenced).elim⟩
  rw [initial.assignments, Table.find_empty] at found
  cases found

theorem durable_since {s₀ : State} {guard : System.Guard Label Input Request State}
    {c c' : Config Label Input State} (initial : s₀.Initial) (reached : service.Reaches guard s₀ c)
    (further : Reach service.next guard.Admits c c') : Durable c.shared c'.shared :=
  service_sound.since Durable.refl (fun durable grows => durable.trans grows.toDurable)
    (fun {_ s₂} _ durable => durable.trans (restart_durable s₂)) initial.base reached further

/-! ### Authorization -/

/-- **Authorization follows fencing.** A call is authorized only if the turn's assignment is active when the
assignments are read, for the call's attempt, pool, worker and generation; two connections that ever held
an assignment have different generations; and if a connection of the call's pool and worker has been
welcomed and the call carries an older generation, the assignment was committed after that connection's
fence. -/
theorem authorization_follows_fencing {s₀ : State} {c₁ c₂ c₃ : Config Label Input State}
    {reads : ScopeReads} {columns : TurnID → CapabilityColumns} (initial : s₀.Initial)
    (first : service.Reaches .free s₀ c₁) (second : Reach service.next System.Guard.free.Admits c₁ c₂)
    (third : Reach service.next System.Guard.free.Admits c₂ c₃)
    (sees : reads.Sees c₁.shared c₂.shared c₃.shared) :
    (∀ scope r, resolveTurnScope reads columns scope = .ok r → ∃ a,
      c₂.shared.assignments.find scope.turnID = some a ∧ a.state = .active ∧
        a.runID = scope.attemptID ∧ a.poolID = scope.poolID ∧ a.workerID = scope.workerID ∧
        a.fencingGeneration = scope.fencingGeneration) ∧
    (∀ w turnID dispatcher w' turnID' dispatcher', .holds w turnID dispatcher ∈ c₃.shared.trace →
      .holds w' turnID' dispatcher' ∈ c₃.shared.trace → w ≠ w' → w.gen ≠ w'.gen) ∧
    ∀ w gen answers scope r, .sent w (.welcome gen) answers ∈ c₂.shared.trace →
      scope.poolID = w.poolID → scope.workerID = w.workerID → scope.fencingGeneration < w.gen →
        resolveTurnScope reads columns scope = .ok r → ∃ a, a.turnID = scope.turnID ∧
          a.fencingGeneration = scope.fencingGeneration ∧
          ObservedAfter (.fencedFor w) (.assigned a) c₂.shared.trace := by
  have proved := scopeLayer_proved s₀.poolOf
  have inv₁ := (proved.invariant initial.base initial.scoped first).2
  have going₂ := (proved.going initial.base initial.scoped first).reach proved second
  have inv₂ := going₂.layer
  have inv₃ := (going₂.reach proved third).layer
  -- the row that authorizes is of the pool and the attempt that the first query saw
  have authorized : ∀ {scope r}, resolveTurnScope reads columns scope = .ok r → ∃ a,
      c₂.shared.assignments.find scope.turnID = some a ∧ a.state = .active ∧
        a.runID = scope.attemptID ∧ a.poolID = scope.poolID ∧ a.workerID = scope.workerID ∧
        a.fencingGeneration = scope.fencingGeneration := by
    intro scope r ok
    obtain ⟨turn, a, reading⟩ := resolveTurnScope_ok sees ok
    obtain ⟨pool, u, found, run⟩ := inv₂.row _ a reading.row
    obtain ⟨u', found', becomes⟩ := (durable_since initial first second).turns _ turn reading.found
    cases found.symm.trans found'
    have attempt : a.runID = scope.attemptID :=
      run.symm.trans (becomes.runID.trans reading.attempt)
    have same : some a.poolID = some scope.poolID := by
      rw [← pool, attempt, ← inv₁.bound, reading.pool]
    exact ⟨a, reading.row, reading.active, attempt, some.inj same, reading.worker, reading.gen⟩
  refine ⟨fun scope r ok => authorized ok, fun w turnID d w' turnID' d' held held' different same => ?_,
    fun w gen answers scope r welcomed pool worker older ok => ?_⟩
  · exact different (inv₃.unique w turnID d w' turnID' d' held held' same)
  · obtain ⟨a, row, active, _, pool', worker', same⟩ := authorized ok
    obtain ⟨a₀, key, becomes, after⟩ := inv₂.older w (inv₂.welcomed w gen answers welcomed) _ a row
      active (pool'.trans pool) (worker'.trans worker) (same ▸ older)
    exact ⟨a₀, key, becomes.gen.symm.trans same, after⟩

def firstScope : TurnScope := ⟨"pool", "run", "t", "w", 1⟩

/-- The worker reconnects while its credit is being spent: the row of its first connection is committed
after the reconnect fence and before the Welcome. -/
def reconnectRace : List (Move Input Request) :=
  connectWorker :: steps 0 7 ++ deliver 1 (.workspaceStatus ⟨1, 2, 1 / 2, false, false⟩) 3 ++
    deliver 3 .ready 2 ++ [.start (.dispatchRun "run"), .run 5 plainTurn] ++ steps 5 3 ++
    connectWorker :: steps 6 4 ++ steps 5 2 ++ steps 6 2

def readsOf (s : State) : ScopeReads := ⟨some s, some s, some s⟩

theorem readsOf_sees (s : State) : (readsOf s).Sees s s s := by
  constructor <;> rintro s' ⟨⟩ <;> rfl

/-- In that race the first generation is authorized after the second was welcomed, by a row that the
fence could not see. -/
theorem authorization_follows_fencing_race : ∃ c r, service.Reaches .free onePool c ∧
    .sent secondConn (.welcome 2) none ∈ c.shared.trace ∧
    resolveTurnScope (readsOf c.shared) (fun _ => {}) firstScope = .ok r ∧
    (∃ a, c.shared.assignments.find "t" = some a ∧ a.state = .active ∧ a.fencingGeneration = 1) ∧
    ∃ a, a.turnID = "t" ∧ ObservedAfter (.fencedFor secondConn) (.assigned a) c.shared.trace := by
  obtain ⟨c, reached, welcomed, authorized⟩ := service.reaches_of_replay .free onePool reconnectRace
    (fun s => .sent secondConn (.welcome 2) none ∈ s.trace ∧
      resolveTurnScope (readsOf s) (fun _ => {}) firstScope =
        .ok ⟨⟨"pool", "spiffe://org/pool/"⟩, none, "run", .turn, "t"⟩)
    (by decide +kernel)
  obtain ⟨active, _, older⟩ := @authorization_follows_fencing _ _ _ _ _ (fun _ => {}) onePool_initial
    reached .start .start (readsOf_sees c.shared)
  obtain ⟨a, found, isActive, _, _, _, gen⟩ := active firstScope _ authorized
  obtain ⟨a₀, key, _, after⟩ := older secondConn 2 none firstScope _ welcomed rfl rfl (by decide)
    authorized
  exact ⟨c, _, reached, welcomed, authorized, ⟨a, found, isActive, gen⟩, a₀, key, after⟩

/-- **A row older than the Welcome authorizes the older generation.** -/
theorem older_generation_authorized : ¬ ∀ (s₀ : State) (c : Config Label Input State)
    (columns : TurnID → CapabilityColumns), s₀.Initial → service.Reaches .free s₀ c →
      ∀ w gen answers scope r, .sent w (.welcome gen) answers ∈ c.shared.trace →
        scope.poolID = w.poolID → scope.workerID = w.workerID → scope.fencingGeneration < w.gen →
          resolveTurnScope (readsOf c.shared) columns scope = .ok r →
            ∃ a, a.turnID = scope.turnID ∧
              ObservedAfter (.sent w (.welcome gen) answers) (.assigned a) c.shared.trace := by
  intro claim
  obtain ⟨c, reached, latest, once, authorized⟩ := service.reaches_of_replay .free onePool reconnectRace
    (fun s => s.trace.head? = some (.sent secondConn (.welcome 2) none) ∧
      .sent secondConn (.welcome 2) none ∉ s.trace.tail ∧
      resolveTurnScope (readsOf s) (fun _ => {}) firstScope =
        .ok ⟨⟨"pool", "spiffe://org/pool/"⟩, none, "run", .turn, "t"⟩)
    (by decide +kernel)
  have welcomed : .sent secondConn (.welcome 2) none ∈ c.shared.trace := mem_of_head? latest
  obtain ⟨a, _, newer, older, same, member⟩ := claim onePool c (fun _ => {}) onePool_initial reached
    secondConn 2 none firstScope _ welcomed rfl rfl (by decide) authorized
  -- nothing was observed after the Welcome
  cases newer with
  | nil => cases member
  | cons o rest =>
    rw [same] at once
    exact once (mem_append_right rest (.head _))

end Iterabase.Dispatch
