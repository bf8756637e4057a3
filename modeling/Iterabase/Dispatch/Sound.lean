/-
**Durable dispatch — the base layer is sound.**

* `handleTurnEvent_wp`, `work_wp`, `serve_wp`, `teardown_wp`, `dispatchRun_wp` — the threads that do
  more than quiet actions: they take a connection, hand its loop back, or reserve one for a turn.
* `service_sound` — **every run of the service keeps `Base`**, and between any two actions of a thread
  the others only do what its `Rely` says.
-/

import Iterabase.Dispatch.Quiet

namespace Iterabase.Dispatch

open Conc Table WorkerConn State Option Nat

variable {t : Nat} {w : ConnRef} {s s' : State} {poolID : PoolID}

/-! ### A connection's life -/

variable {workerID : WorkerID} {pick : Nat} {msg : WorkerMessage}

/-- `register` adds a connection of a new generation. -/
inductive Registers (poolID : PoolID) (workerID : WorkerID) (t : Nat) (s : State) : ConnRef → State → Prop
  | adds (conns : Table WorkerConn.id) (after : ∀ k c, conns.find k = some c ↔ (k = s.nextConn ∧
        c = { ref := ⟨s.nextConn, poolID, workerID, s.gen + 1⟩, loop := .held t }) ∨ s.conns.find k = some c) :
      Registers poolID workerID t s ⟨s.nextConn, poolID, workerID, s.gen + 1⟩
        { s with conns, gen := s.gen + 1, nextConn := s.nextConn + 1 }

theorem register_cases (base : Base s) (ran : s.register poolID workerID t = some (w, s')) :
    Registers poolID workerID t s w s' := by
  obtain ⟨conns, inserted, made⟩ := map_eq_some_iff.mp ran
  cases made
  refine .adds conns fun k c => ?_
  rw [find_insert inserted]
  constructor
  · intro found
    split at found
    · rename_i here
      exact .inl ⟨here.symm, (some.inj found).symm⟩
    · exact .inr found
  · rintro (⟨rfl, rfl⟩ | found)
    · exact if_pos rfl
    · rw [if_neg, found]
      intro here
      exact absurd (base.connNext k c found) (here ▸ lt_irrefl _)

/-- **A new connection**: its generation is new, and its handler is the thread that made it. -/
theorem register_step (base : Base s) (ran : s.register poolID workerID t = some (w, s')) :
    baseRules.Step t s s' ∧ Held t w s' := by
  obtain ⟨conns, after⟩ := register_cases base ran
  have split := fun k c => (after k c).mp
  have kept := fun k c found => (after k c).mpr (.inr found)
  have durable : Durable s { s with conns := conns, gen := s.gen + 1, nextConn := s.nextConn + 1 } :=
    { nextConn := le_succ _ }
  have grows : Grows s { s with conns := conns, gen := s.gen + 1, nextConn := s.nextConn + 1 } :=
    ⟨durable, fun k c found => ⟨c, kept k c found, rfl⟩, le_succ _⟩
  refine ⟨⟨⟨?_, ?_, ?_, ?_, ?_, ?_, ?_, base.turnNamed⟩, grows, fun other _ =>
    ⟨grows, fun k c found _ => ⟨c, kept k c found, .refl c⟩, fun _ _ _ _ _ member _ _ _ => member⟩⟩,
    ⟨_, (after _ _).mpr (.inl ⟨rfl, rfl⟩), rfl, rfl⟩⟩
  · intro k c found
    rcases split k c found with ⟨_, rfl⟩ | old
    · exact le_refl _
    · exact le_trans (base.connGen k c old) (le_succ _)
  · exact fun k a found => le_trans (base.rowGen k a found) (le_succ _)
  · intro k c k' c' found found' same
    rcases split k c found with ⟨rfl, rfl⟩ | old <;> rcases split k' c' found' with ⟨rfl, rfl⟩ | old'
    · rfl
    · exact absurd (base.connGen k' c' old') (by rw [← same]; exact not_succ_le_self _)
    · exact absurd (base.connGen k c old) (by rw [same]; exact not_succ_le_self _)
    · exact base.sameGen k c k' c' old old' same
  · intro k a k' c found found' same
    rcases split k' c found' with ⟨_, rfl⟩ | old
    · exact absurd (base.rowGen k a found) (by rw [same]; exact not_succ_le_self _)
    · exact base.rowConn k a k' c found old same
  · intro k c found
    rcases split k c found with ⟨rfl, _⟩ | old
    · exact lt_succ_self _
    · exact lt_succ_of_lt (base.connNext k c old)
  · exact fun o member w about => lt_succ_of_lt (base.traceNext o member w about)
  · exact fun o member => (base.traceRows o member).durable durable

theorem Held.modify {f : WorkerConn → WorkerConn} {keeps : ∀ c, (f c).ref = c.ref}
    (held : Held t w s) : BaseStep t s (s.modifyConn w f keeps) := by
  refine modifyConns_base fun k c found selected other different loop => ?_
  obtain ⟨c', found', _, loop'⟩ := held
  obtain ⟨rfl, rfl⟩ := find_unique found' found (of_decide_eq_true selected)
  rw [loop'] at loop
  cases loop
  exact absurd rfl different

theorem setLoop_wp (loop : Loop) (held : Held t w s) :
    Follows baseRules t (setLoop w loop) s := by
  refine Wp.atomic fun s₁ moved base input answer s₂ ran => ?_
  cases ran
  exact ⟨baseStep base (held.rely moved).modify, trivial⟩

theorem teardown_wp (held : Held t w s) : Follows baseRules t (teardown w) s := by
  refine wp_quiet_bind (.held t w) held background_quiet.markClosed fun _ s held => ?_
  refine wp_quiet_bind (.held t w) held (modifyConn_quiet fun _ => {}) fun _ s held => ?_
  exact wp_quiet_bind (.held t w) held (background_quiet.losing.handleWorkerLoss w) fun _ _ held =>
    setLoop_wp _ held

/-! ### The handler -/

theorem handleTurnEvent_wp (te : TurnEvent) (held : Held t w s) :
    Wp baseRules t (handleTurnEvent w te) (fun _ s => Held t w s) s := by
  unfold handleTurnEvent
  split
  · exact held
  refine Wp.bind (Wp.atomic fun s₁ moved base input answer s₂ ran => ?_)
  have held := held.rely moved
  -- the resolve only reads; what it returned is the row the append will lock
  obtain ⟨rfl, row⟩ := resolved_found ran
  refine ⟨baseStep base ((StoreStep.refl _).plain (by simp)), ?_⟩
  split
  · exact wp_of_quiet (.held t w) held (auditAndAck_quiet te fun kept => kept)
  · exact held
  rename_i a
  split
  · exact held
  rename_i mine
  split
  · exact wp_of_quiet (.held t w) held (ack_quiet te fun kept => kept)
  have owns : Owns w te s₂ := ⟨a, row a rfl, by
    rw [not_or, not_not, not_not] at mine
    exact mine.2⟩
  have steady := (Steady.held t w).and (.owns t w te)
  refine wp_quiet_bind steady ⟨held, owns⟩ append_quiet fun answer s kept => ?_
  split
  · exact wp_of_quiet (.held t w) kept.1 (auditAndAck_quiet te fun kept => kept)
  · exact kept.1
  refine wp_quiet_bind (.held t w) kept.1 (projectCompletion_all fun _ => record_quiet) fun answer s held => ?_
  split
  · exact held
  refine wp_quiet_bind (.held t w) held (background_quiet.projectOutcome a te) fun answer s held => ?_
  split
  · exact held
  · exact wp_of_quiet (.held t w) held
      (background_quiet.ackAndFinish a _ (ack_quiet te fun kept => kept) background_quiet.ends)

theorem answerReady_wp (held : Held t w s) :
    Wp baseRules t (answerReady w) (fun _ s => Held t w s) s := by
  refine Wp.atomic fun s₁ moved base input answer s₂ ran => ?_
  have held := held.rely moved
  obtain ⟨c, found, ran⟩ := map_eq_some_iff.mp ran
  cases ran
  have changed : BaseStep t s₁ (s₁.modifyConn w (fun c => c.grantCreditIfIdle.2)
      grantCreditIfIdle_ref) := held.modify
  have loops : SameLoops s₁ (s₁.modifyConn w (fun c => c.grantCreditIfIdle.2)
      grantCreditIfIdle_ref) := modifyConns_loops fun c => by
    unfold grantCreditIfIdle
    split <;> rfl
  have held' := (Steady.held t w).own changed.grows loops held
  exact ⟨baseStep base (changed.observe trivial trivial (held.fresh base rfl (.inl rfl))), held'⟩

theorem handleWorkspaceStatus_quiet {K : State → Prop} (status : WorkspaceStatus) :
    (handleWorkspaceStatus w status).All (Quiet t K) := by
  refine handleWorkspaceStatus_all (store_plain fun {input s answer s'} ran => ?_) fun gated =>
    applyWorkspaceStatus_quiet w gated
  cases ran
  obtain ⟨capacities, same⟩ := observeWorkspaceCapacity_eq s w.poolID status.freeRatio
  rw [same]
  exact ⟨[], {}, by simp⟩

theorem handleMessage_wp (msg : WorkerMessage) (held : Held t w s) :
    Wp baseRules t (handleMessage w msg) (fun _ s => Held t w s) s := by
  cases msg with
  | ready => exact answerReady_wp held
  | workspaceStatus status =>
    exact wp_of_quiet (.held t w) held (handleWorkspaceStatus_quiet status)
  | heartbeat | tokenDelta => exact held
  | turnEvent te => exact (handleTurnEvent_wp te held).bind

theorem serve_wp (msg : WorkerMessage) (held : Held t w s) :
    Follows baseRules t (serve w msg) s := by
  refine (handleMessage_wp msg held).andThen fun goesOn s held => ?_
  split
  · exact setLoop_wp _ held
  · exact teardown_wp held

theorem work_wp (id : Identity) (hello : Hello) :
    Follows baseRules t (work t id hello) s := by
  unfold work
  split
  · trivial
  split
  · trivial
  refine wp_quiet_bind (.true t) trivial query_quiet fun answer s _ => ?_
  split
  · trivial
  refine Wp.bind (Wp.atomic fun s₁ moved base input w s₂ ran => ?_)
  obtain ⟨step, held⟩ := register_step base ran
  refine ⟨step, wp_quiet_bind (.held t w) held (add_quiet w) fun old s held => ?_⟩
  refine wp_quiet_bind (.held t w) held
    (background_quiet.fenceOldGeneration old (reconnectFence_quiet fun kept => kept))
    fun answer s held => ?_
  split
  · exact teardown_wp held
  refine wp_quiet_bind (.held t w) held (send_quiet fun kept w' owned => ?_)
    fun answer s held => ?_
  · cases owned
    exact kept
  · split
    · exact teardown_wp held
    · exact wp_quiet_bind (.held t w) held (background_quiet.ackReconnectWatermark w _ _ background_quiet.acks)
        fun _ s held => setLoop_wp _ held

/-! ### The dispatcher -/

theorem prepareTurn_named {runID : RunID} {input : Input} {turn : Turn}
    (base : Base s) (ran : s.prepareTurn runID input = (.ok turn, s')) : turn.id ≠ "" := by
  rcases prepareTurn_cases ran with ⟨_, failed, _⟩ | ⟨_, same, found, _⟩ | ⟨same, _, named, _⟩
  · cases failed
  · cases same
    intro unnamed
    rw [unnamed, base.turnNamed] at found
    cases found
  · cases same
    exact named

theorem tryConsumeCredit_calm (c : WorkerConn) (turnID : TurnID) :
    c.Calm (c.consuming turnID t) := by
  unfold consuming tryConsumeCredit
  split
  · exact {}
  rename_i usable
  refine { spent := fun credit _ => ?_ }
  exact absurd (.inr (.inr (.inl (by simp [credit])))) usable

variable {turnID : TurnID}

theorem releaseAssignmentFailure_calm (c : WorkerConn) (named : turnID ≠ "")
    (deliveryAttempted : Bool) : c.Calm (c.releaseAssignmentFailure turnID deliveryAttempted) := by
  unfold releaseAssignmentFailure
  split
  · exact { spent := fun credit _ => ⟨credit, rfl⟩ }
  unfold restoreCreditAfterPreDeliveryFailure
  split
  · exact .refl c
  rename_i holding
  rw [not_or, not_not] at holding
  exact { spent := fun _ turn => absurd (holding.2.symm.trans turn) named }

variable {answer : Option ConnRef}

/-- `reserve` finds nothing, or takes the credit of a connection of the pool. -/
inductive Reserves (poolID : PoolID) (turnID : TurnID) (t : Nat) (s : State) : Option ConnRef → State → Prop
  | nothing : Reserves poolID turnID t s none s
  | one (c : WorkerConn) (found : s.conns.find c.ref.id = some c) (registered : c.registered)
      (pool : c.ref.poolID = poolID) (usable : (c.tryConsumeCredit turnID).isSome) :
      Reserves poolID turnID t s (some c.ref)
        ((s.modifyConn c.ref (·.consuming turnID t) (consuming_ref turnID t)).observe
          (.picked c.ref turnID t (some c)))

variable {c : WorkerConn}

theorem WorkerConn.consumed (usable : (c.tryConsumeCredit turnID).isSome) (t : Nat) :
    (c.closed = false ∧ c.idle = true ∧ c.creditAdvertised = true ∧ c.activeTurn = "") ∧
    c.consuming turnID t =
    { c with idle := false, creditAdvertised := false, activeTurn := turnID, reservedBy := some t } := by
  unfold tryConsumeCredit at usable
  split at usable
  · cases usable
  rename_i idle
  simp only [not_or, not_not, Bool.not_eq_true', Bool.not_eq_true, Bool.not_eq_false] at idle
  exact ⟨idle, by simp [consuming, tryConsumeCredit, idle]⟩

theorem reserve_cases (ran : s.reserve poolID turnID t pick = (answer, s')) :
    Reserves poolID turnID t s answer s' := by
  unfold reserve pickIdle at ran
  dsimp only at ran
  split at ran
  · rename_i picked
    split at picked <;> cases picked
    cases ran
    exact .nothing
  · rename_i picked
    split at picked <;> cases picked
    rename_i c hit
    cases ran
    obtain ⟨member, usable⟩ := List.mem_filter.mp (List.mem_of_getElem? hit)
    simp only [Bool.and_eq_true, decide_eq_true_eq] at usable
    have found : s.conns.find c.ref.id = some c := find_of_mem member
    rw [found]
    exact .one c found usable.1.1 usable.1.2 usable.2

theorem dispatchRun_wp (runID : RunID) :
    Follows baseRules t (dispatchRun t runID) s := by
  refine Wp.bind (Wp.atomic fun s₁ moved base input answer s₂ ran => ?_)
  -- the run's turn has a name, whether it was there or is new
  have prepared : BaseStep t s₁ s₂ ∧ ∀ turn, answer = .ok turn → turn.id ≠ "" := by
    exact ⟨call_keeps ran ((StoreStep.refl _).plain (by simp)) fun ran => (prepareTurn_step ran).plain (by simp),
      fun turn same => prepareTurn_named base (call_ok (same ▸ ran))⟩
  refine ⟨baseStep base prepared.1, ?_⟩
  split
  · trivial
  rename_i turn
  have named := prepared.2 turn rfl
  refine wp_quiet_bind (.true t) trivial query_quiet fun answer s _ => ?_
  split
  · trivial
  refine wp_quiet_bind (.true t) trivial query_quiet fun answer s _ => ?_
  split
  · trivial
  refine Wp.bind (Wp.atomic fun s₁ moved base input answer s₂ ran => ?_)
  rcases reserve_cases (some.inj ran) with _ | ⟨c, found, _, rfl⟩
  · exact ⟨baseStep base ((StoreStep.refl _).plain (by simp)), trivial⟩
  have consumes : BaseStep t s₁ (s₁.modifyConn c.ref (·.consuming turn.id t)
      (consuming_ref turn.id t)) :=
    modifyConns_base fun _ c _ _ _ _ _ => tryConsumeCredit_calm c turn.id
  have step := consumes.observe (o := .picked c.ref turn.id t (some c)) trivial trivial
    ⟨fun _ about => (nomatch about), fun _ owned => (nomatch owned)⟩
  have known : Known c.ref s₁ := ⟨c, found, rfl⟩
  refine ⟨baseStep base step, ?_⟩
  refine wp_quiet_bind (.known t c.ref) (known.grows step.grows)
    (assign_all background_quiet.losing (background_quiet.delivers _ _)
      createAssignment_quiet) fun answer s _ => ?_
  split
  · trivial
  refine wp_of_quiet (.true t) trivial (modifyConn_logs_quiet (fun c => ?_) fun _ => ?_)
  · exact releaseAssignmentFailure_calm c named _
  · exact ⟨⟨rfl, rfl, fun _ => trivial⟩, fun _ => trivial⟩

/-! ### The service -/

theorem le_maxFencingGeneration {a : Assignment} (member : a ∈ s.assignments.rows) :
    a.fencingGeneration ≤ s.maxFencingGeneration := by
  unfold maxFencingGeneration
  generalize s.assignments.rows = rows at member ⊢
  induction rows with
  | nil => cases member
  | cons b rest ih =>
    rcases List.mem_cons.mp member with rfl | there
    · exact le_max_left _ _
    · exact le_trans (ih there) (le_max_right _ _)

theorem restart_durable (s : State) : Durable s (restartService s) := {}

theorem restart_base (base : Base s) : Base (restartService s) where
  connGen := fun _ _ found => by cases found
  rowGen := fun _ _ found => le_maxFencingGeneration (find_mem found)
  sameGen := fun _ _ _ _ found => by cases found
  rowConn := fun _ _ _ _ _ found => by cases found
  connNext := fun _ _ found => by cases found
  traceNext := base.traceNext
  traceRows := fun o member => (base.traceRows o member).durable (restart_durable s)
  turnNamed := base.turnNamed

theorem hold_step (rest : List WorkerMessage) (found : s.conns.find c.ref.id = some c)
    (waiting : c.loop = .waiting) :
    BaseStep t s (s.hold c.ref t rest) ∧ Held t c.ref (s.hold c.ref t rest) := by
  unfold hold modifyConn
  refine ⟨modifyConns_base fun k c' found' selected other _ loop => ?_, ?_⟩
  · obtain ⟨rfl, rfl⟩ := find_unique found found' (of_decide_eq_true selected)
    rw [waiting] at loop
    cases loop
  · refine ⟨{ c with loop := .held t, inbox := rest }, ?_, rfl, rfl⟩
    rw [modifyConns_find, found]
    simp [WorkerConn.id]

theorem take_step (rest : List WorkerMessage) (base : Base s)
    (found : s.conns.find c.ref.id = some c) (waiting : c.loop = .waiting) :
    BaseStep t s ((s.hold c.ref t rest).observe (.taken c.ref msg)) ∧
    Held t c.ref ((s.hold c.ref t rest).observe (.taken c.ref msg)) := by
  obtain ⟨step, held⟩ := hold_step (t := t) rest found waiting
  refine ⟨step.observe trivial trivial ⟨fun w about => ?_, fun w owned => by cases owned⟩, held⟩
  cases about
  exact base.connNext _ c found

theorem enqueue_step (base : Base s) (found : s.conns.find c.ref.id = some c) :
    BaseStep t s (s.enqueue c.ref msg) := by
  have step : BaseStep t s (s.modifyConn c.ref (fun c => { c with inbox := c.inbox ++ [msg] })
      fun _ => rfl) :=
    modifyConns_base fun _ _ _ _ _ _ _ => { inbox := List.prefix_append _ _ }
  refine step.observe trivial trivial ⟨fun w about => ?_, fun w owned => by cases owned⟩
  cases about
  exact base.connNext _ c found

theorem startRequest_step {request : Request} {p : Program Unit} (base : Base s)
    (started : startRequest request t s = some (s', p)) :
    baseRules.Step t s s' ∧ Follows baseRules t p s' := by
  have still : baseRules.Step t s s := baseStep base ((StoreStep.refl s).plain (by simp))
  have quietly : ∀ {p : Program Unit} {s'}, p.All (Quiet t fun _ => True) →
      Follows baseRules t p s' := fun all => wp_of_quiet (.true t) trivial all
  refine startRequest_cases
    (P := fun _ s' p => baseRules.Step t s s' ∧ Follows baseRules t p s') started
    (fun id hello => ⟨still, work_wp id hello⟩)
    (fun c msg found => ⟨baseStep base (enqueue_step base found), trivial⟩)
    (fun c msg rest found waiting _ => ?_) (fun c found waiting => ?_)
    (fun turnID => ⟨still, quietly (background_quiet.cancelTurn turnID background_quiet.aborts)⟩)
    (fun c _ => ⟨still, quietly (background_quiet.losing.expireLease c.ref)⟩)
    (fun runID => ⟨still, dispatchRun_wp runID⟩)
    ⟨still, quietly (syncWorkspaceCapacityState_all background_quiet.toReading
      syncWorkspaceCapacity_quiet)⟩
    fun poolID authorized => ?_
  · obtain ⟨step, held⟩ := take_step (t := t) rest base found waiting
    exact ⟨baseStep base step, serve_wp msg held⟩
  · obtain ⟨step, held⟩ := hold_step (t := t) c.inbox found waiting
    exact ⟨baseStep base step, teardown_wp held⟩
  · have step : ∀ capacities, StoreStep s { s with capacities := capacities } [] := fun _ => {}
    exact ⟨baseStep base ((step _).plain (by simp)), trivial⟩

theorem service_sound : service.Sound baseRules where
  start := startRequest_step
  restart := restart_base

theorem State.Initial.base (initial : s.Initial) : Base s := by
  obtain ⟨assignments, turns, conns, trace⟩ := initial
  constructor
  all_goals simp [assignments, turns, conns, trace]

/-! ### Runs of one worker -/

/-- One pool with its storage authorized and one run of it: the state the concrete runs start in. -/
def onePool : State where
  pools := [⟨"pool", "spiffe://org/pool/"⟩]
  runs := ⟨[{ id := "run", poolID := some "pool" }], by decide⟩
  capacities := ⟨[⟨"pool", false, true⟩], by decide⟩

theorem onePool_initial : onePool.Initial := ⟨rfl, rfl, rfl, rfl⟩

def steps (thread count : Nat) : List (Move Input Request) := List.replicate count (.run thread {})

/-- The worker's message joins the first stream, and its loop takes `count` actions over it. `thread`
is the next free thread. -/
def deliver (thread : Nat) (msg : WorkerMessage) (count : Nat) : List (Move Input Request) :=
  [.start (.workerSends 0 msg), .start (.receive 0)] ++ steps (thread + 1) count

def connectWorker : Move Input Request :=
  .start (.connect ⟨.supervisor, "spiffe://org/pool/w", "uid", "w"⟩ ⟨"uid", "w"⟩)

/-- It connects, reports its workspace, advertises its credit and is assigned the run's turn. Threads
up to the fifth have run. -/
def assignTurn (prepared : Input) : List (Move Input Request) :=
  connectWorker :: steps 0 7 ++ deliver 1 (.workspaceStatus ⟨1, 2, 1 / 2, false, false⟩) 3 ++
    deliver 3 .ready 2 ++ [.start (.dispatchRun "run"), .run 5 prepared] ++ steps 5 6

def plainTurn : Input := { turn := { id := "t", runID := "run" } }

def graphPool : State := { onePool with attempts := ["run"] }

theorem graphPool_initial : graphPool.Initial := ⟨rfl, rfl, rfl, rfl⟩

def graphTurn : Input where
  turn := { id := "t", runID := "run", nodeExecutionID := some "node" }
  node := some { id := "node", attemptID := "run", outcomes := ["done"] }

def firstConn : ConnRef := ⟨0, "pool", "w", 1⟩

def secondConn : ConnRef := ⟨1, "pool", "w", 2⟩

end Iterabase.Dispatch
