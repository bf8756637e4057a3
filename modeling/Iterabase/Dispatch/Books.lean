/-
**Durable dispatch — the books of the connections.**

A connection's credit, the turn it is reserved for and the dispatcher that reserved it are the books of
the one-credit protocol. Six kinds of action write them: a Ready is answered, a credit is consumed or
given back, a turn is released, and the row of a turn is made and its AssignTurn sent. All others leave
them alone.

* `Framed` — a layer that such steps keep; `Framed.layered` is what is left to prove of it.
* `booksLayer_proved` — **the books of every connection are balanced**, under any guard.
-/

import Iterabase.Dispatch.Watch

namespace Iterabase.Dispatch

open Conc Option Table WorkerConn

variable {s s' : State} {w : ConnRef} {te : TurnEvent} {turnID : TurnID}

/-- An observation of an action that writes the books. -/
def Obs.Booked : Obs → Prop
  | .picked _ _ _ _ | .restored _ _ _ _ | .holds _ _ _ | .released _ _ _ | .readyAnswered _ _
  | .assigned _ | .sent _ (.assignTurn _) _ => True
  | _ => False

def latest (kind : Obs → Option Bool) (trace : List Obs) : Bool := (trace.findSome? kind).getD false

theorem latest_cons (kind : Obs → Option Bool) (o : Obs) (trace : List Obs) :
    latest kind (o :: trace) = (kind o).getD (latest kind trace) := by
  unfold latest
  rw [List.findSome?_cons]
  cases kind o <;> rfl

theorem latest_append {kind : Obs → Option Bool} {new trace : List Obs}
    (silent : ∀ o ∈ new, kind o = none) : latest kind (new ++ trace) = latest kind trace := by
  unfold latest
  rw [List.findSome?_append, List.findSome?_eq_none_iff.mpr silent, none_or]

/-! ### One connection -/

/-- What the books of a connection always say. -/
structure WorkerConn.Balanced (c : WorkerConn) : Prop where
  usable : c.idle = true → c.creditAdvertised = true ∧ c.workspaceGated = false
  credit : c.creditAdvertised = true → c.activeTurn = "" ∧ c.workspaceObserved = true
  turn : c.activeTurn ≠ "" → c.workspaceObserved = true

/-- A Ready is invalid and changes nothing, or it gives an open connection without turn a credit. -/
theorem WorkerConn.grantCreditIfIdle_cases (c : WorkerConn) : c.grantCreditIfIdle = (false, c) ∨
    (c.closed = false ∧ c.activeTurn = "" ∧ c.workspaceObserved = true ∧
      c.grantCreditIfIdle = (true, { c with creditAdvertised := true, idle := !c.workspaceGated })) := by
  unfold grantCreditIfIdle
  split
  · exact .inl rfl
  rename_i allowed
  simp only [not_or, not_not, Bool.not_eq_true', Bool.not_eq_true, Bool.not_eq_false] at allowed
  exact .inr ⟨allowed.1, allowed.2.1, allowed.2.2, rfl⟩

namespace WorkerConn.Balanced

variable {c : WorkerConn}

theorem new (w : ConnRef) (loop : Loop) : WorkerConn.Balanced { ref := w, loop := loop } :=
  ⟨fun idle => (nomatch idle), fun credit => (nomatch credit), fun turn => absurd rfl turn⟩

section Balanced

variable (balanced : c.Balanced)

include balanced

theorem consumed (credit : c.creditAdvertised = true) (turnID : TurnID) (t : Nat) :
    WorkerConn.Balanced
    { c with idle := false, creditAdvertised := false, activeTurn := turnID, reservedBy := some t } :=
  ⟨fun idle => (nomatch idle), fun credit => (nomatch credit), fun _ => (balanced.credit credit).2⟩

theorem releaseTurn : c.releaseTurn.Balanced :=
  ⟨balanced.usable, fun credit => ⟨rfl, (balanced.credit credit).2⟩, fun turn => absurd rfl turn⟩

theorem releaseAssignmentFailure (named : turnID ≠ "") (attempted : Bool) :
    (c.releaseAssignmentFailure turnID attempted).Balanced := by
  unfold WorkerConn.releaseAssignmentFailure
  split
  · exact balanced.releaseTurn
  unfold restoreCreditAfterPreDeliveryFailure
  split
  · exact balanced
  rename_i holding
  rw [not_or, not_not] at holding
  have observed := balanced.turn (holding.2 ▸ named)
  exact ⟨fun idle => ⟨rfl, by simpa [observed] using idle⟩, fun _ => ⟨rfl, observed⟩,
    fun _ => observed⟩

theorem grantCreditIfIdle : c.grantCreditIfIdle.2.Balanced := by
  rcases grantCreditIfIdle_cases c with refused | ⟨_, free, observed, granted⟩
  · rw [refused]
    exact balanced
  · rw [granted]
    exact ⟨fun idle => ⟨rfl, by simpa using idle⟩, fun _ => ⟨free, observed⟩, fun _ => observed⟩

theorem applyWorkspaceStatus (gated observedByWorker : Bool) :
    (c.applyWorkspaceStatus gated observedByWorker).Balanced where
  usable := by
    intro idle
    simp only [WorkerConn.applyWorkspaceStatus] at idle ⊢
    split at idle
    · simp only [Bool.and_eq_true, Bool.not_eq_true'] at idle
      exact ⟨idle.2, idle.1⟩
    · rename_i held
      exact absurd (balanced.credit (balanced.usable idle).1).1 held
  credit := by
    intro credit
    obtain ⟨free, observed⟩ := balanced.credit credit
    exact ⟨free, by simp [WorkerConn.applyWorkspaceStatus, observed]⟩
  turn := by
    intro held
    simp [WorkerConn.applyWorkspaceStatus, balanced.turn held]

theorem gate (spent : c.creditAdvertised = false) (registered gated : Bool) :
    WorkerConn.Balanced { c with registered := registered, workspaceGated := gated } := by
  refine ⟨fun idle => ?_, balanced.credit, balanced.turn⟩
  have credit := (balanced.usable idle).1
  rw [spent] at credit
  cases credit

end Balanced

end WorkerConn.Balanced

/-- Only its stream has moved, and it may have been closed or have left the map. -/
structure WorkerConn.Routine (c c' : WorkerConn) : Prop where
  same : c' = { c with closed := c'.closed, registered := c'.registered, inbox := c'.inbox }
  closed : c.closed = true → c'.closed = true
  registered : c'.registered = true → c.registered = true

/-- The books are as they were. -/
structure WorkerConn.Unbooked (c c' : WorkerConn) : Prop where
  ref : c'.ref = c.ref := by rfl
  turn : c'.activeTurn = c.activeTurn := by rfl
  credit : c'.creditAdvertised = c.creditAdvertised := by rfl
  reserved : c'.reservedBy = c.reservedBy := by rfl
  closed : c.closed = true → c'.closed = true := by exact fun closed => closed
  balanced : c.Balanced → c'.Balanced := by
    exact fun balanced => ⟨balanced.usable, balanced.credit, balanced.turn⟩

theorem WorkerConn.Routine.refl (c : WorkerConn) : c.Routine c :=
  ⟨rfl, fun closed => closed, fun registered => registered⟩

theorem WorkerConn.Unbooked.refl (c : WorkerConn) : c.Unbooked c := {}

variable {c c' : WorkerConn} {k t : Nat} {o : Obs} {label : Label} {poolID : PoolID}
  {workerID : WorkerID}

theorem WorkerConn.Routine.unbooked (routine : c.Routine c') : c.Unbooked c' := by
  obtain ⟨same, closed, _⟩ := routine
  rw [same] at closed ⊢
  exact { closed := closed }

def WorkerConn.New (s : State) (c : WorkerConn) : Prop :=
  ∃ w thread, c = { ref := w, loop := .held thread } ∧ w.id = s.nextConn ∧ w.gen = s.gen + 1

/-! ### All connections -/

/-- No row is made, nothing booked is observed, and every connection moves by `C`. -/
structure Moves (C : WorkerConn → WorkerConn → Prop) (s s' : State) : Prop where
  conns : ∀ k c, s.conns.find k = some c → ∃ c', s'.conns.find k = some c' ∧ C c c'
  new : ∀ k c', s'.conns.find k = some c' → (∃ c, s.conns.find k = some c) ∨ c'.New s
  rows : ∀ k a', s'.assignments.find k = some a' →
    ∃ a, s.assignments.find k = some a ∧ a.Becomes a'
  silent : Silent Obs.Booked s s'

namespace Moves

variable {C C' : WorkerConn → WorkerConn → Prop} {s s' : State}

theorem back (moves : Moves C s s') (found : s'.conns.find k = some c') :
    (∃ c, s.conns.find k = some c ∧ C c c') ∨ c'.New s := by
  rcases moves.new k c' found with ⟨c, before⟩ | new
  · obtain ⟨c'', found', moved⟩ := moves.conns k c before
    cases found.symm.trans found'
    exact .inl ⟨c, before, moved⟩
  · exact .inr new

theorem mono (weaker : ∀ {c c'}, C c c' → C' c c') (moves : Moves C s s') : Moves C' s s' where
  conns := by
    intro k c found
    obtain ⟨c', found', moved⟩ := moves.conns k c found
    exact ⟨c', found', weaker moved⟩
  new := moves.new
  rows := moves.rows
  silent := moves.silent

theorem of_store (refl : ∀ c, C c c) {new : List Obs} (step : StoreStep s s' new)
    (unbooked : ∀ o ∈ new, ¬ o.Booked) : Moves C s s' where
  conns := fun _ c found => ⟨c, step.conns ▸ found, refl c⟩
  new := fun _ c found => .inl ⟨c, step.conns ▸ found⟩
  rows := step.rows
  silent := step.silent unbooked

theorem observe (moves : Moves C s s') (unbooked : ¬ o.Booked) : Moves C s (s'.observe o) :=
  ⟨moves.conns, moves.new, moves.rows, moves.silent.observe unbooked⟩

theorem modifyConns (refl : ∀ c, C c c) (p : WorkerConn → Bool) (f : WorkerConn → WorkerConn)
    (keeps : ∀ c, (f c).ref = c.ref) (each : ∀ k c, s.conns.find k = some c → p c = true → C c (f c))
    : Moves C s (s.modifyConns p f keeps) where
  conns := by
    intro k c found
    refine ⟨if p c then f c else c, by rw [modifyConns_find, found, map_some], ?_⟩
    split
    · exact each k c found ‹_›
    · exact refl c
  new := by
    intro k c' found
    rw [modifyConns_find, map_eq_some_iff] at found
    obtain ⟨c, found, _⟩ := found
    exact .inl ⟨c, found⟩
  rows := fun _ a found => ⟨a, found, .refl a⟩
  silent := .of_eq rfl

end Moves

structure Routine (s s' : State) : Prop extends Moves WorkerConn.Routine s s' where
  capacities : s'.capacities = s.capacities
  gates : s'.workspaceGated = s.workspaceGated

abbrev Unbooked (s s' : State) : Prop := Moves WorkerConn.Unbooked s s'

theorem Routine.unbooked (routine : Routine s s') : Unbooked s s' :=
  routine.toMoves.mono WorkerConn.Routine.unbooked

namespace Routine

variable {s s' : State}

theorem of_store {new : List Obs} (step : StoreStep s s' new) (unbooked : ∀ o ∈ new, ¬ o.Booked)
    (capacities : s'.capacities = s.capacities) (gates : s'.workspaceGated = s.workspaceGated) :
    Routine s s' :=
  ⟨.of_store .refl step unbooked, capacities, gates⟩

theorem refl (s : State) : Routine s s := .of_store (.refl s) (by simp) rfl rfl

theorem observe (routine : Routine s s') (unbooked : ¬ o.Booked) : Routine s (s'.observe o) :=
  ⟨routine.toMoves.observe unbooked, routine.capacities, routine.gates⟩

theorem modifyConn (s : State) (w : ConnRef) (f : WorkerConn → WorkerConn)
    (keeps : ∀ c, (f c).ref = c.ref) (each : ∀ c : WorkerConn, c.Routine (f c)) :
    Routine s (s.modifyConn w f keeps) :=
  ⟨.modifyConns .refl _ f keeps fun _ c _ _ => each c, rfl, rfl⟩

end Routine

/-! ### One connection's books are written -/

/-- A step that changes the connection `c` to `c'`, and observes `o` while it does. -/
structure Entry (k : Nat) (c c' : WorkerConn) (o : Obs) (s s' : State) : Prop where
  found : s.conns.find k = some c
  after : s'.conns.find k = some c'
  ref : c'.ref = c.ref
  others : ∀ k', k' ≠ k → s'.conns.find k' = s.conns.find k'
  trace : s'.trace = o :: s.trace

theorem Entry.modifyConn (found : s.conns.find w.id = some c) (f : WorkerConn → WorkerConn)
    (keeps : ∀ c, (f c).ref = c.ref) (o : Obs) :
    Entry w.id c (f c) o s ((s.modifyConn w f keeps).observe o) := by
  have after : (s.modifyConn w f keeps).conns.find w.id = some (f c) := modifyConn_find found
  refine ⟨found, after, keeps c, fun k other => ?_, rfl⟩
  refine (modifyConn_lookup f keeps k).trans ?_
  cases before : s.conns.find k with
  | none => rfl
  | some d =>
    have key : d.id = k := find_key before
    rw [map_some, if_neg (by rw [key]; exact other)]

theorem Entry.observe (found : s.conns.find k = some c) (o : Obs) : Entry k c c o s (s.observe o) :=
  ⟨found, found, rfl, fun _ _ => rfl, rfl⟩

theorem Entry.other {k' : Nat} {d : WorkerConn} (entry : Entry k c c' o s s') (different : k' ≠ k)
    (found : s.conns.find k' = some d) : d.ref ≠ c.ref := by
  intro same
  have key : d.id = k' := find_key found
  have key' : c.id = k := find_key entry.found
  exact different (key.symm.trans ((congrArg ConnRef.id same).trans key'))

/-! ### Routine actions -/

theorem Routine.of_internal (internal : Internal s s') : Routine s s' := by
  obtain ⟨new, step, inner⟩ := internal.step
  refine .of_store step (fun o member => ?_) internal.capacities internal.gates
  have turn := inner o member
  cases o <;> first | exact turn.elim | exact id

section Actions

variable {α : Type}

/-- **Whatever ends a turn leaves the books alone.** -/
theorem ending_routine : Ending (Every (Does Routine)) :=
  .of_internal .of_internal fun s _ =>
    .modifyConn s _ WorkerConn.markClosed (fun _ => rfl) fun _ => ⟨rfl, fun _ => rfl, id⟩

theorem send_routine {msg : ControlMessage} {answers : Option TurnEvent}
    (unbooked : ¬ (Obs.sent w msg answers).Booked) : (send w msg answers).All (Does Routine) :=
  send_does .refl fun s => (Routine.refl s).observe unbooked

theorem append_routine (kind : RuntimeEvent) : (appendTx w te kind).All (Does Routine) :=
  append_does .refl fun found active next => .of_store
    (committed_step kind found next (appended_honest found active next)).1 (by simp [Obs.Booked])
    rfl rfl

theorem audit_routine (kind : RuntimeEvent) : (auditTx w te kind).All (Does Routine) :=
  audit_does .refl (fun s => (Routine.refl s).observe id) fun found next => .of_store
    (committed_step kind (o := .audited w te) found next trivial).1 (by simp [Obs.Booked]) rfl rfl

/-- **The handler of an event**, whatever it does when it ends the turn. -/
theorem handleTurnEvent_of_routine {P : ActionProp} (settling : Settling (Every P))
    (routine : ∀ {γ label run}, Does Routine γ label run → P γ label run) :
    (handleTurnEvent w te).All P :=
  handleTurnEvent_all settling (fun kind => (append_routine kind).mono routine)
    (fun kind => (audit_routine kind).mono routine)
    (fun report => (record_does .of_internal report).mono routine)
    (.mono routine (send_routine fun booked => booked))
    fun _ _ => .mono routine (send_routine fun booked => booked)

theorem reconnectFence_routine : (reconnectTx w).All (Does Routine) :=
  reconnect_does .refl fun fenced => (Routine.of_internal (.fence fenced)).observe id

theorem remove_routine : (removing w).All (Does Routine) :=
  locally_does fun _ s => .modifyConn s w (fun c => { c with registered := false }) (fun _ => rfl)
    fun _ => ⟨rfl, id, fun registered => (nomatch registered)⟩

theorem register_routine {thread : Nat} (base : Base s)
    (ran : s.register poolID workerID thread = some (w, s')) : Routine s s' := by
  obtain ⟨_, after⟩ := register_cases base ran
  refine ⟨⟨fun k c found => ⟨c, (after k c).mpr (.inr found), .refl c⟩, fun k c' found => ?_,
    fun _ a found => ⟨a, found, .refl a⟩, .of_eq rfl⟩, rfl, rfl⟩
  rcases (after k c').mp found with ⟨_, rfl⟩ | old
  · exact .inr ⟨_, thread, rfl, rfl, rfl⟩
  · exact .inl ⟨c', old⟩

theorem enqueue_routine (s : State) (w : ConnRef) (msg : WorkerMessage) :
    Routine s (s.enqueue w msg) :=
  (Routine.modifyConn s w (fun c => { c with inbox := c.inbox ++ [msg] }) (fun _ => rfl)
    fun _ => ⟨rfl, id, id⟩).observe id

end Actions

/-! ### Actions that leave the books alone -/

theorem setLoop_unbooked (w : ConnRef) (loop : Loop) : (setLoop w loop).All (Does Unbooked) :=
  locally_does fun _ _ => .modifyConns .refl _ (fun c => { c with loop := loop }) (fun _ => rfl)
    fun _ _ _ _ => {}

theorem hold_unbooked (s : State) (w : ConnRef) (thread : Nat) (rest : List WorkerMessage) :
    Unbooked s (s.hold w thread rest) :=
  .modifyConns .refl _ (fun c => { c with loop := .held thread, inbox := rest }) (fun _ => rfl)
    fun _ _ _ _ => {}

theorem capacities_unbooked (s : State) (capacities : Table WorkspaceCapacityState.poolID) :
    Unbooked s { s with capacities := capacities } :=
  .of_store .refl (show StoreStep _ _ [] from {}) (by simp)

theorem handleWorkspaceStatus_unbooked (w : ConnRef) (status : WorkspaceStatus) :
    (handleWorkspaceStatus w status).All (Does Unbooked) := by
  refine handleWorkspaceStatus_does capacities_unbooked fun gated => locally_does fun _ s => ?_
  have applied : Unbooked s (s.modifyConns (fun c => c.registered ∧ c.ref.poolID = w.poolID)
      (fun c => c.applyWorkspaceStatus gated (c.id = w.id)) fun _ => rfl) :=
    .modifyConns .refl _ _ _ fun _ _ _ _ =>
      { balanced := fun balanced => balanced.applyWorkspaceStatus _ _ }
  exact ⟨applied.conns, applied.new, applied.rows, applied.silent⟩

theorem sync_unbooked (states : List WorkspaceCapacityState) :
    (syncing states).All (Does Unbooked) :=
  locally_does fun _ s =>
    have step : StoreStep s (s.syncWorkspaceCapacity states) [] := {}
    .of_store .refl step (by simp)

/-- The handler's connection has neither credit nor turn. -/
def Spent (t : Nat) (w : ConnRef) (s : State) : Prop :=
  ∃ c, s.conns.find w.id = some c ∧ c.ref = w ∧ c.loop = .held t ∧ c.creditAdvertised = false ∧
    c.activeTurn = ""

theorem Spent.rely (spent : Spent t w s) (moved : Rely t s s') : Spent t w s' := by
  obtain ⟨c, found, ref, loop, credit, turn⟩ := spent
  obtain ⟨c', found', ref', calm⟩ := moved.held found loop
  obtain ⟨credit', turn'⟩ := calm.spent credit turn
  exact ⟨c', found', ref'.trans ref, calm.loop.trans loop, credit', turn'⟩

theorem register_spent (base : Base s) (ran : s.register poolID workerID t = some (w, s')) :
    Spent t w s' := by
  obtain ⟨_, after⟩ := register_cases base ran
  exact ⟨_, (after _ _).mpr (.inl ⟨rfl, rfl⟩), rfl, rfl, rfl, rfl⟩

theorem add_unbooked (spent : Spent t w s) : Unbooked s (s.add w).2 := by
  obtain ⟨c₀, found₀, _, _, credit, _⟩ := spent
  refine .modifyConns .refl _ _ (fun c => by split <;> rfl) fun k c found _ => ?_
  split
  · rename_i here
    obtain ⟨rfl, rfl⟩ := find_unique found₀ found here
    exact { balanced := fun balanced => balanced.gate credit _ _ }
  · exact {}

/-! ### Layers over the books -/

theorem ending_unbooked : Ending (Every (Does Unbooked)) :=
  ending_routine.mono (.mono Routine.unbooked)

theorem routine_unbooked {α : Type} {p : Program α} (all : p.All (Does Routine)) :
    p.All (Does Unbooked) :=
  all.mono (.mono Routine.unbooked)

theorem teardown_unbooked (w : ConnRef) : (teardown w).All (Does Unbooked) :=
  teardown_all ending_unbooked.losing (routine_unbooked remove_routine) (setLoop_unbooked w _)

namespace Framed

variable {R : Rules State} {L : Layer Label Input Request State} {t : Nat} {w : ConnRef} {s : State}

theorem work (framed : Framed R L Unbooked) (id : Identity) (hello : Hello) :
    Runs R L t (work t id hello) s := by
  have quietly : ∀ {p : Program Unit} {s}, p.All (Does Unbooked) →
      Runs R L t p s := framed.along_true
  unfold Dispatch.work
  split
  · trivial
  split
  · trivial
  refine ((framed.along_true ending_unbooked.query).mono fun answer s _ => ?_).bind
  split
  · trivial
  refine Along.bind (Along.step fun s₁ _ _ inv layer input w s₂ _ ran did => ?_)
  have base := framed.base inv
  refine ⟨framed.step inv layer did (register_routine base ran).unbooked, ?_⟩
  have spent := register_spent base ran
  refine Along.bind (Along.step fun s₃ moved _ inv layer input old s₄ _ ran did => ?_)
  cases ran
  refine ⟨framed.step inv layer did (add_unbooked (spent.rely (framed.rely moved))), ?_⟩
  refine quietly (.bind (ending_unbooked.fenceOldGeneration _
    (routine_unbooked reconnectFence_routine)) fun answer => ?_)
  split
  · exact teardown_unbooked w
  refine .bind (routine_unbooked (send_routine fun booked => booked)) fun answer => ?_
  split
  · exact teardown_unbooked w
  · exact .bind (ending_unbooked.ackReconnectWatermark w _ _ fun _ _ =>
      routine_unbooked (send_routine fun booked => booked)) fun _ => setLoop_unbooked w _

theorem dispatch (framed : Framed R L Unbooked) (runID : RunID)
    (turns : ∀ {turn s}, turn.id ≠ "" → Runs R L t (dispatchTurn t runID turn) s) :
    Runs R L t (dispatchRun t runID) s := by
  refine Along.bind (Along.step fun s₁ _ _ inv layer input answer s₂ _ ran did => ?_)
  refine ⟨framed.step inv layer did (routine_unbooked (prepare_does .of_internal) |>.1 ran), ?_⟩
  split
  · trivial
  · exact turns (prepareTurn_named (framed.base inv) (call_ok ran))

/-- **A layer over the books**: what is left to prove are the threads that write them. -/
theorem booked (framed : Framed R L Unbooked)
    (restart : ∀ {s}, R.inv s → L.inv s → L.guard.restart s → R.inv (restartService s) →
      L.inv (restartService s))
    (ready : ∀ {t w s}, Held t w s → Runs R L t (answerReady w) s)
    (event : ∀ {t w te s}, Held t w s → Runs R L t (handleTurnEvent w te) s)
    (turns : ∀ {t runID turn s}, turn.id ≠ "" →
      Runs R L t (dispatchTurn t runID turn) s) :
    service.Layered R L :=
  framed.layered hold_unbooked (fun _ _ _ _ => capacities_unbooked _ _)
    (fun s w msg => (enqueue_routine s w msg).unbooked)
    (fun s w t rest _ => (hold_unbooked s w t rest).observe fun booked => booked) restart
    (framed.work _ _)
    (fun {_ w _ _} held _ _ _ => framed.serves (ready held) (handleWorkspaceStatus_unbooked w)
      (fun _ _ => event held) (setLoop_unbooked w _) (framed.along_true (teardown_unbooked w)))
    (fun _ => framed.along_true (teardown_unbooked _))
    (framed.along_true (ending_unbooked.cancelTurn _ fun _ =>
      routine_unbooked (send_routine fun booked => booked)))
    (framed.along_true (ending_unbooked.losing.expireLease _)) (framed.dispatch _ turns)
    (framed.along_true (syncWorkspaceCapacityState_all ending_unbooked.toReading sync_unbooked))

end Framed

/-! ### Every connection's books are balanced -/

section Balanced

variable {t : Nat} {w : ConnRef} {s s' : State} {guard : System.Guard Label Input Request State}

def Books (s : State) : Prop := ∀ k c, s.conns.find k = some c → c.Balanced

theorem Books.moves (books : Books s) (moves : Unbooked s s') : Books s' := by
  intro k c' found
  rcases moves.back found with ⟨c, before, moved⟩ | ⟨w, thread, rfl, _⟩
  · exact moved.balanced (books k c before)
  · exact .new w _

theorem Books.modifyConn (books : Books s) (f : WorkerConn → WorkerConn)
    (keeps : ∀ c, (f c).ref = c.ref)
    (each : ∀ c, s.conns.find w.id = some c → c.Balanced → (f c).Balanced) :
    Books (s.modifyConn w f keeps) := by
  intro k c' found
  rw [modifyConn_lookup, map_eq_some_iff] at found
  obtain ⟨c, before, rfl⟩ := found
  split
  · rename_i here
    have same : k = w.id := (find_key before).symm.trans here
    subst same
    exact each c before (books _ c before)
  · exact books k c before

def booksLayer (guard : System.Guard Label Input Request State) : Layer Label Input Request State where
  inv := Books
  guard := guard

theorem booksLayer_framed : Framed baseRules (booksLayer guard) Unbooked where
  toExtends := baseRules_extends
  kept := fun _ _ _ moves books => Books.moves books moves
  tolerated := fun _ _ _ _ _ => trivial

def KeepsBooks (s s' : State) : Prop := Books s → Books s'

theorem KeepsBooks.keeps {γ : Type} {run : Input → State → Option (γ × State)}
    (does : Does KeepsBooks γ label run) :
    Keeps baseRules (booksLayer guard) t (fun _ => True) γ label run :=
  fun _ books _ _ ran _ => ⟨⟨does ran books, fun _ _ => trivial⟩, trivial⟩

theorem ending_books : Ending (Every (Does KeepsBooks)) :=
  ending_unbooked.mono (.mono fun moves books => books.moves moves)

theorem answerReady_books (w : ConnRef) : (answerReady w).All (Does KeepsBooks) :=
  ready_does fun _ _ books => books.modifyConn _ grantCreditIfIdle_ref
    fun _ _ balanced => balanced.grantCreditIfIdle

theorem releaseFor_books (w : ConnRef) (a : Assignment) :
    (releasing w a).All (Does KeepsBooks) :=
  locally_does fun _ _ books => books.modifyConn WorkerConn.releaseTurn (fun _ => rfl)
    fun _ _ balanced => balanced.releaseTurn

theorem reserve_books (poolID : PoolID) (turnID : TurnID) (thread : Nat) :
    (reserving poolID turnID thread).All (Does KeepsBooks) := by
  refine .atomic fun {input s answer s'} ran books => ?_
  rcases reserve_cases (Option.some.inj ran) with _ | ⟨c, found, _, _, usable⟩
  · exact books
  refine books.modifyConn _ (consuming_ref turnID thread) fun c' found' balanced => ?_
  cases found.symm.trans found'
  obtain ⟨⟨_, _, credit, _⟩, same⟩ := WorkerConn.consumed usable thread
  rw [same]
  exact balanced.consumed credit _ _

theorem restore_books (named : turnID ≠ "") (w : ConnRef) (attempted : Bool) (thread : Nat) :
    (restoring w turnID attempted thread).All
    (Does KeepsBooks) :=
  locally_does fun _ _ books => books.modifyConn
    (fun c => c.releaseAssignmentFailure turnID attempted)
    (fun c => releaseAssignmentFailure_ref c turnID attempted)
    fun _ _ balanced => balanced.releaseAssignmentFailure named _

/-- **The books of every connection are balanced**, wherever the service goes. -/
theorem booksLayer_proved : service.Proved baseRules (booksLayer guard) where
  sound := service_sound
  toLayered := by
    have along : ∀ {t s α} {p : Program α}, p.All (Does KeepsBooks) →
        Runs baseRules (booksLayer guard) t p s := fun all =>
      Along.of_all (fun _ _ _ => trivial) trivial (all.mono KeepsBooks.keeps)
    have settling : Settling (Every (Does KeepsBooks)) :=
      { toEnding := ending_books, releaseTurn := fun {w a} => releaseFor_books w a }
    refine booksLayer_framed.booked (nofun)
      (fun _ => along (answerReady_books _)) (fun _ => along ?_) fun named => along ?_
    · exact handleTurnEvent_of_routine settling (.mono fun moves books => books.moves moves.unbooked)
    · refine dispatchTurn_all ending_books.losing (fun _ => ?_) (fun _ => reserve_books _ _ _)
        (fun _ _ => ?_) fun w attempted => restore_books named w attempted _
      · exact send_does (fun _ books => books) fun _ books => books
      · refine store_does (fun _ books => books) fun ran books => ?_
        rcases createAssignmentFor_cases ran with ⟨_, _, rfl⟩ | ⟨_, _, _, rfl⟩
        · exact books
        · exact books

end Balanced

end Iterabase.Dispatch
