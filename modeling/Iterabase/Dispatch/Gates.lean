/-
**Durable dispatch — the capacity gate of a pool.**

A pool's decision about fresh credit is durable in its capacity row, and is copied to the pool's map and
to every connection of the pool. A WorkspaceStatus commits the row and then publishes what it committed,
in two steps that other handlers may come between; a sweep reads the rows and then replaces the map.

* `gateGuard` — what is published is still what the row says.
* `capacity_gate_converges` — **once every handler has finished, the copies are what the rows say.**
-/

import Iterabase.Conc.Custody
import Iterabase.Dispatch.Books

namespace Iterabase.Dispatch

open Conc Option Table WorkerConn State WorkspaceCapacityState Solvent

def State.gateOf (s : State) (poolID : PoolID) : Option Bool :=
  (s.workspaceGated.find? fun g => g.1 = poolID).map Prod.snd

theorem State.poolGate_eq (s : State) (poolID : PoolID) :
    s.poolGate poolID = (s.gateOf poolID).getD true := rfl

/-- What the rows read for a sweep say of the pool. -/
def gateIn (states : List WorkspaceCapacityState) (poolID : PoolID) : Option Bool :=
  (states.find? fun r => r.poolID = poolID).map freshCreditGated

/-- The pool's map and its connections follow the decision. -/
structure Converged (poolID : PoolID) (gated : Bool) (s : State) : Prop where
  map : s.gateOf poolID = some gated
  conns : ∀ k c, s.conns.find k = some c → c.registered = true → c.ref.poolID = poolID →
    c.workspaceGated = gated

/-- The copies of the pool's decision lag behind its row. -/
def Unpublished (poolID : PoolID) (s : State) : Prop :=
  ∃ row, s.capacities.find poolID = some row ∧ ¬ Converged poolID row.freshCreditGated s

/-! ### Where nothing is published late -/

/-- What is published is what the row says, and so is what a sweep puts in the map; a report that fails
has not been committed. -/
def Timely (label : Label) (input : Input) (s : State) : Prop :=
  match label with
  | .capacity _ _ => input.fail = true → input.lost = false
  | .publish w gated =>
      (s.capacities.find w.poolID).map freshCreditGated = some gated
  | .sync states => ∀ row ∈ s.capacities.rows, gateIn states row.poolID = some row.freshCreditGated
  | _ => True

instance (label : Label) (input : Input) (s : State) : Decidable (Timely label input s) := by
  induction label using Label.casesOn <;> unfold Timely <;> infer_instance

/-- A decision about a pool's storage does not change its gate. -/
def GateKept (request : Request) (s : State) : Prop :=
  match request with
  | .authorizeStorage poolID authorized => ∀ row ∈ s.capacities.find poolID,
      freshCreditGated { row with storageAuthorized := authorized } =
        row.freshCreditGated
  | _ => True

instance (request : Request) (s : State) : Decidable (GateKept request s) := by
  induction request using Request.casesOn <;> unfold GateKept <;> infer_instance

abbrev gateGuard : System.Guard Label Input Request State := ⟨Timely, GateKept, fun _ => True⟩

/-! ### Steps that do not touch a gate -/

/-- Rows and copies are as they were, and no connection has joined the map. -/
structure Ungated (s s' : State) : Prop where
  capacities : s'.capacities = s.capacities
  gates : s'.workspaceGated = s.workspaceGated
  conns : ∀ k c', s'.conns.find k = some c' → c'.registered = true →
    ∃ c, s.conns.find k = some c ∧ c.registered = true ∧ c'.ref = c.ref ∧
      c'.workspaceGated = c.workspaceGated

open Ungated

variable {poolID : PoolID} {gated : Bool}

namespace Ungated

variable {s s' : State}

theorem refl (s : State) : Ungated s s := ⟨rfl, rfl, fun _ c found registered =>
  ⟨c, found, registered, rfl, rfl⟩⟩

theorem of_routine (routine : Routine s s') : Ungated s s' where
  capacities := routine.capacities
  gates := routine.gates
  conns := by
    intro k c' found registered
    rcases routine.back found with ⟨c, before, moved⟩ | ⟨w, thread, rfl, _⟩
    · refine ⟨c, before, moved.registered registered, ?_, ?_⟩ <;> rw [moved.same]
    · cases registered

theorem observe (ungated : Ungated s s') (o : Obs) : Ungated s (s'.observe o) :=
  ⟨ungated.capacities, ungated.gates, ungated.conns⟩

theorem modifyConn (s : State) (w : ConnRef) (f : WorkerConn → WorkerConn)
    (keeps : ∀ c, (f c).ref = c.ref) (registered : ∀ c, (f c).registered = c.registered)
    (gate : ∀ c, (f c).workspaceGated = c.workspaceGated) : Ungated s (s.modifyConn w f keeps) where
  capacities := rfl
  gates := rfl
  conns := by
    intro k c' found there
    rw [modifyConn_lookup, map_eq_some_iff] at found
    obtain ⟨c, before, rfl⟩ := found
    refine ⟨c, before, ?_, ?_, ?_⟩
    · split at there
      · rwa [registered] at there
      · exact there
    · split
      · exact keeps c
      · rfl
    · split
      · exact gate c
      · rfl

theorem converged (ungated : Ungated s s')
    (here : Converged poolID gated s) : Converged poolID gated s' where
  map := by rw [gateOf, ungated.gates]; exact here.map
  conns := by
    intro k c' found registered pool
    obtain ⟨c, before, registered', ref, gate⟩ := ungated.conns k c' found registered
    rw [gate]
    exact here.conns k c before registered' (ref ▸ pool)

theorem unpublished (ungated : Ungated s s') (late : Unpublished poolID s') :
    Unpublished poolID s := by
  obtain ⟨row, found, behind⟩ := late
  rw [ungated.capacities] at found
  exact ⟨row, found, fun here => behind (ungated.converged here)⟩

end Ungated

abbrev gateLayer : Layer Label Input Request State := booksLayer gateGuard

abbrev Prompt : ActionProp := Solvent.Debtless baseRules gateLayer Unpublished

theorem Ungated.prompt {γ : Type} {label : Label} {run : Input → State → Option (γ × State)}
    (does : Does Ungated γ label run) : Prompt γ label run :=
  fun _ _ _ ran _ _ _ late => (does ran).unpublished late

section Actions

variable {α : Type}

theorem routine_ungated {p : Program α} (all : p.All (Does Routine)) : p.All (Does Ungated) :=
  all.mono (.mono of_routine)

theorem setLoop_ungated (w : ConnRef) (loop : Loop) : (setLoop w loop).All (Does Ungated) :=
  locally_does fun _ s => .modifyConn s w (fun c => { c with loop := loop }) (fun _ => rfl)
    (fun _ => rfl) fun _ => rfl

theorem settling_ungated : Settling (Every (Does Ungated)) where
  toEnding := ending_routine.mono (.mono of_routine)
  releaseTurn := locally_does fun _ s => (modifyConn s _ WorkerConn.releaseTurn (fun _ => rfl)
    (fun _ => rfl) fun _ => rfl).observe _

theorem teardown_ungated (w : ConnRef) : (teardown w).All (Does Ungated) :=
  teardown_all settling_ungated.losing (routine_ungated remove_routine) (setLoop_ungated w _)

theorem answerReady_ungated (w : ConnRef) : (answerReady w).All (Does Ungated) := by
  refine ready_does fun s _ =>
    (modifyConn s w _ grantCreditIfIdle_ref (fun c => ?_) fun c => ?_).observe _
  all_goals
    unfold grantCreditIfIdle
    split <;> rfl

theorem handleTurnEvent_ungated (w : ConnRef) (te : TurnEvent) :
    (handleTurnEvent w te).All (Does Ungated) :=
  handleTurnEvent_of_routine settling_ungated (.mono of_routine)

theorem dispatchRun_ungated (thread : Nat) (runID : RunID) :
    (dispatchRun thread runID).All (Does Ungated) := by
  refine dispatchRun_all settling_ungated.losing
    (fun _ _ => send_does .refl fun s => (refl s).observe _)
    (routine_ungated (prepare_does .of_internal)) (fun _ turnID => .atomic fun {input s answer s'} ran => ?_)
    (fun _ _ _ => store_does .refl fun {input s answer s'} ran => ?_)
    fun w turnID attempted => locally_does fun _ s => ?_
  · rcases reserve_cases (Option.some.inj ran) with _ | c
    · exact .refl _
    · refine (modifyConn s c.ref _ (consuming_ref turnID thread) (fun c => ?_)
        fun c => ?_).observe _
      all_goals
        unfold consuming tryConsumeCredit
        split <;> rfl
  · rcases createAssignmentFor_cases ran with ⟨_, _, rfl⟩ | ⟨rows, _, _, rfl⟩
    · exact .refl _
    · have made : Ungated s { s with assignments := rows } := ⟨rfl, rfl, (refl s).conns⟩
      exact (made.observe _).observe _
  · refine (modifyConn s w (fun c => c.releaseAssignmentFailure turnID attempted)
      (fun c => releaseAssignmentFailure_ref c _ _) (fun c => ?_) fun c => ?_).observe _
    all_goals
      unfold releaseAssignmentFailure restoreCreditAfterPreDeliveryFailure
      split
      · rfl
      · split <;> rfl

end Actions

/-! ### The steps that do -/

variable {t : Nat} {w : ConnRef} {s s' : State}

/-- Who is in the map after a connection joins it: that connection, with what the map says of its
pool, and whoever was there and stays. -/
theorem add_registered {k : Nat} {c' : WorkerConn} (found : (s.add w).2.conns.find k = some c')
    (registered : c'.registered = true) : ∃ c, s.conns.find k = some c ∧ c'.ref = c.ref ∧
    ((k = w.id ∧ c'.workspaceGated = s.poolGate w.poolID) ∨ (c.registered = true ∧ c' = c)) := by
  obtain ⟨c, before, rfl⟩ := map_eq_some_iff.mp ((add_find k).symm.trans found)
  refine ⟨c, before, ?_, ?_⟩
  · split
    · split <;> rfl
    · rfl
  · split at registered
    · rename_i selected
      split at registered
      · rename_i own
        exact .inl ⟨(find_key before).symm.trans own, by rw [if_pos selected, if_pos own]⟩
      · cases registered
    · rename_i other
      exact .inr ⟨registered, if_neg other⟩

theorem add_unpublished (spent : Spent t w s)
    (late : Unpublished poolID (s.add w).2) : Unpublished poolID s := by
  obtain ⟨row, found, behind⟩ := late
  refine ⟨row, found, fun here => behind ⟨here.map, fun k c' found' registered pool => ?_⟩⟩
  obtain ⟨c, before, ref, ⟨rfl, gate⟩ | ⟨there, rfl⟩⟩ := add_registered found' registered
  · -- the new connection is the one whose pool's gate was read
    obtain ⟨c₀, found₀, ref₀, _⟩ := spent
    cases found₀.symm.trans before
    have map := here.map
    rw [← pool, ref, ref₀] at map
    rw [gate, poolGate_eq, map]
    rfl
  · exact here.conns k c' before registered pool

theorem gateOf_seeded (seeded : s.workspaceGated = s.capacities.rows.map fun c =>
    (c.poolID, c.freshCreditGated)) (poolID : PoolID) :
    s.gateOf poolID = (s.capacities.find poolID).map freshCreditGated := by
  rw [gateOf, seeded, List.find?_map, map_map]
  rfl

theorem Converged.congr (here : Converged poolID gated s)
    (gates : s'.workspaceGated = s.workspaceGated) (conns : s'.conns = s.conns) :
    Converged poolID gated s' where
  map := by rw [gateOf, gates]; exact here.map
  conns := by rw [conns]; exact here.conns

theorem observeWorkspaceCapacity_other (s : State) (poolID : PoolID) (ratio : Rat) :
    (s.observeWorkspaceCapacity poolID ratio).2.workspaceGated = s.workspaceGated ∧
    (s.observeWorkspaceCapacity poolID ratio).2.conns = s.conns ∧ ∀ k, k ≠ poolID →
    (s.observeWorkspaceCapacity poolID ratio).2.capacities.find k = s.capacities.find k := by
  unfold observeWorkspaceCapacity
  split
  · dsimp only
    split
    · rename_i rows inserted
      refine ⟨rfl, rfl, fun k other => ?_⟩
      rw [find_insert inserted, if_neg (Ne.symm other)]
    · exact ⟨rfl, rfl, fun _ _ => rfl⟩
  · refine ⟨rfl, rfl, fun k other => ?_⟩
    rw [find_update]
    cases found : s.capacities.find k with
    | none => rfl
    | some row =>
      have key : row.poolID = k := find_key found
      simp [key, other]

theorem observeWorkspaceCapacity_unpublished {own : PoolID} {ratio : Rat}
    (late : Unpublished poolID (s.observeWorkspaceCapacity own ratio).2) :
    poolID = own ∨ Unpublished poolID s := by
  by_cases here : poolID = own
  · exact .inl here
  obtain ⟨gates, conns, rows⟩ := observeWorkspaceCapacity_other s own ratio
  obtain ⟨row, found, behind⟩ := late
  rw [rows poolID here] at found
  exact .inr ⟨row, found, fun converged => behind (converged.congr gates conns)⟩

theorem applyWorkspaceStatus_gateOf (s : State) (w : ConnRef) (gated : Bool) (poolID : PoolID) :
    (s.applyWorkspaceStatus w gated).gateOf poolID = if poolID =
    w.poolID then some gated else s.gateOf poolID := by
  unfold State.applyWorkspaceStatus State.gateOf State.modifyConns
  by_cases here : poolID = w.poolID
  · simp [here]
  rw [if_neg here, List.find?_cons_of_neg (by simpa using Ne.symm here), List.find?_filter]
  congr 1
  refine congrArg (List.find? · _) (funext fun g => ?_)
  by_cases same : g.1 = poolID
  · simp [same, here]
  · simp [same]

/-- **A published decision has reached every copy.** -/
theorem applyWorkspaceStatus_unpublished
    (current : (s.capacities.find w.poolID).map freshCreditGated = some gated)
    (late : Unpublished poolID (s.applyWorkspaceStatus w gated)) :
    Unpublished poolID s ∧ poolID ≠ w.poolID := by
  obtain ⟨row, found, behind⟩ := late
  have rows : (s.applyWorkspaceStatus w gated).capacities = s.capacities := rfl
  rw [rows] at found
  by_cases here : poolID = w.poolID
  · subst here
    rw [found] at current
    cases current
    refine absurd ⟨?_, fun k c' found' registered pool => ?_⟩ behind
    · rw [applyWorkspaceStatus_gateOf, if_pos rfl]
    · simp only [applyWorkspaceStatus_find, decide_eq_true_eq] at found'
      obtain ⟨c, _, rfl⟩ := map_eq_some_iff.mp found'
      split at registered
      · rename_i selected
        rw [if_pos selected]
        rfl
      · rename_i other
        rw [if_neg other] at pool
        exact absurd ⟨registered, pool⟩ other
  · refine ⟨⟨row, found, fun converged => behind ⟨?_, fun k c' found' registered pool => ?_⟩⟩, here⟩
    · rw [applyWorkspaceStatus_gateOf, if_neg here]
      exact converged.map
    · simp only [applyWorkspaceStatus_find, decide_eq_true_eq] at found'
      obtain ⟨c, before, rfl⟩ := map_eq_some_iff.mp found'
      split at registered
      · rename_i selected
        rw [if_pos selected] at pool
        exact absurd (pool.symm.trans selected.2) here
      · rename_i other
        rw [if_neg other] at pool ⊢
        exact converged.conns k c before registered pool

theorem syncWorkspaceCapacity_unpublished {states : List WorkspaceCapacityState}
    (current : ∀ row ∈ s.capacities.rows, gateIn states row.poolID = some row.freshCreditGated)
    (late : Unpublished poolID (s.syncWorkspaceCapacity states)) : Unpublished poolID s := by
  obtain ⟨row, found, behind⟩ := late
  refine ⟨row, found, fun converged => behind ⟨?_, converged.conns⟩⟩
  have read := current row (find_mem found)
  rw [show row.poolID = poolID from find_key found] at read
  rw [← read]
  unfold syncWorkspaceCapacity gateOf gateIn
  rw [List.find?_map, map_map]
  rfl

/-! ### Who owes a publication -/

theorem ungated_solvent {p : Program Unit} (all : p.All (Does Ungated)) :
    Solvent baseRules gateLayer Unpublished t p ∅ Clear s :=
  .of_debtless (all.mono prompt)

theorem work_solvent (id : Identity) (hello : Hello) :
    Solvent baseRules gateLayer Unpublished t (work t id hello) ∅ Clear s := by
  unfold work
  split
  · rfl
  split
  · rfl
  refine bind (.mono (fun answer owed s nothing => ?_) (.of_all
    (settling_ungated.query.mono prompt)))
  subst nothing
  split
  · rfl
  refine bind (.atomic fun s₁ _ _ base _ input w s₂ _ ran _ _ _ => ⟨∅, fun k late => ?_, ?_⟩)
  · exact .inr ⟨(of_routine (register_routine base ran)).unpublished late, Set.notMem_empty k⟩
  · have spent := register_spent base ran
    refine bind (.atomic fun s₃ moved _ _ _ input old s₄ _ ran _ _ _ =>
      ⟨∅, fun k late => ?_, ungated_solvent ?_⟩)
    · cases ran
      exact .inr ⟨add_unpublished (spent.rely moved) late, Set.notMem_empty k⟩
    · refine .bind (settling_ungated.fenceOldGeneration _
        (routine_ungated reconnectFence_routine)) fun answer => ?_
      split
      · exact teardown_ungated w
      refine .bind (routine_ungated (send_routine fun booked => booked)) fun answer => ?_
      split
      · exact teardown_ungated w
      · exact .bind (settling_ungated.toReading.ackReconnectWatermark w _ _ fun _ _ =>
          routine_ungated (send_routine fun booked => booked)) fun _ => setLoop_ungated w _

/-- **A handler that has committed a report owes its publication**, which is what it does next. -/
theorem handleWorkspaceStatus_solvent (status : WorkspaceStatus) :
    Solvent baseRules gateLayer Unpublished t (handleWorkspaceStatus w status) ∅
    (fun _ owed _ => owed = ∅) s := by
  unfold handleWorkspaceStatus
  split
  · refine bind (.atomic fun s₁ _ _ _ _ input answer s₂ committed ran _ _ _ => ?_)
    simp only [call] at ran
    split at ran
    · rename_i failed
      rw [committed failed] at ran
      cases ran
      exact ⟨∅, fun k late => .inr ⟨late, Set.notMem_empty k⟩, rfl⟩
    cases ran
    refine ⟨{w.poolID}, fun k late => ?_, ?_⟩
    · rcases observeWorkspaceCapacity_unpublished late with own | before
      · exact .inl own
      · exact .inr ⟨before, Set.notMem_empty k⟩
    · refine bind (.atomic fun s₃ _ _ _ _ input answer s₄ current ran _ _ _ => ?_)
      cases ran
      exact ⟨∅, fun k late => .inr (applyWorkspaceStatus_unpublished current late), rfl⟩
  · rfl

theorem serve_solvent (msg : WorkerMessage) :
    Solvent baseRules gateLayer Unpublished t (serve w msg) ∅ Clear s := by
  refine bind (.mono (Q := fun _ owed _ => owed = ∅) (fun goesOn owed s nothing => ?_) ?_)
  · subst nothing
    split
    · exact ungated_solvent (setLoop_ungated w _)
    · exact ungated_solvent (teardown_ungated w)
  · cases msg with
    | ready => exact .of_all ((answerReady_ungated w).mono prompt)
    | workspaceStatus status => exact handleWorkspaceStatus_solvent status
    | heartbeat => rfl
    | turnEvent te =>
      refine bind (.mono (fun _ owed s nothing => ?_)
        (.of_all ((handleTurnEvent_ungated w te).mono prompt)))
      exact nothing
    | tokenDelta => rfl

theorem syncWorkspaceCapacityState_prompt : syncWorkspaceCapacityState.All Prompt :=
  syncWorkspaceCapacityState_all (settling_ungated.toEnding.mono prompt).toReading
    fun _ => .atomic fun _ _ current ran _ _ _ late => by
      cases ran
      exact syncWorkspaceCapacity_unpublished current late

theorem authorizeStorage_unpublished {own : PoolID} {authorized : Bool}
    (kept : GateKept (.authorizeStorage own authorized) s)
    (late : Unpublished poolID { s with
      capacities := s.capacities.update (fun r => r.poolID = own)
        (fun r => { r with storageAuthorized := authorized }) fun _ => rfl }) :
    Unpublished poolID s := by
  obtain ⟨row', found, behind⟩ := late
  rw [find_update] at found
  obtain ⟨row, before, rfl⟩ := map_eq_some_iff.mp found
  refine ⟨row, before, fun converged => behind ?_⟩
  have same : (if row.poolID = own then { row with storageAuthorized := authorized } else
      row).freshCreditGated = row.freshCreditGated := by
    split
    · rename_i here
      have key : row.poolID = poolID := find_key before
      exact kept row (by rw [← here, key, before]; rfl)
    · rfl
  simp only [decide_eq_true_eq, same]
  exact converged.congr rfl rfl

/-- **A row whose copies lag behind is one that some handler is about to publish.** -/
theorem gates_custody : service.Custody baseRules gateLayer Unpublished where
  proved := booksLayer_proved
  start := by
    intro request t s s' p _ _ admitted started _ _ _
    have held : ∀ {rest : List WorkerMessage} {w : ConnRef}, Ungated s (s.hold w t rest) :=
      fun {rest w} => .modifyConn s w (fun c => { c with loop := .held t, inbox := rest })
        (fun _ => rfl) (fun _ => rfl) fun _ => rfl
    refine startRequest_cases
      (P := fun request s' p => GateKept request s → (∀ k, Unpublished k s' → Unpublished k s) ∧
        Solvent baseRules gateLayer Unpublished t p ∅ Clear s')
      started (fun id hello _ => ⟨fun _ late => late, work_solvent id hello⟩)
      (fun c msg _ _ => ⟨fun _ late => (of_routine (enqueue_routine s c.ref msg)).unpublished late,
        rfl⟩)
      (fun c msg rest _ _ _ _ => ⟨fun _ late => (held.observe _).unpublished late, serve_solvent msg⟩)
      (fun c _ _ _ => ⟨fun _ late => held.unpublished late, ungated_solvent (teardown_ungated c.ref)⟩)
      (fun turnID _ => ⟨fun _ late => late, ungated_solvent (settling_ungated.cancelTurn turnID fun _ =>
        routine_ungated (send_routine fun booked => booked))⟩)
      (fun c _ _ => ⟨fun _ late => late, ungated_solvent (settling_ungated.losing.expireLease c.ref)⟩)
      (fun runID _ => ⟨fun _ late => late, ungated_solvent (dispatchRun_ungated t runID)⟩)
      (fun _ => ⟨fun _ late => late, .of_debtless syncWorkspaceCapacityState_prompt⟩)
      (fun poolID authorized kept => ⟨fun _ late => authorizeStorage_unpublished kept late, rfl⟩)
      admitted
  restart := by
    rintro s _ _ _ poolID ⟨row, found, behind⟩
    refine behind ⟨?_, fun _ _ found' => by cases found'⟩
    rw [gateOf_seeded rfl]
    exact congrArg (Option.map freshCreditGated) found

/-! ### Convergence -/

/-- **Once every handler has finished**, the pool's map and each of its connections in the map follow the
pool's row, and no connection of a gated pool has a usable credit. -/
theorem capacity_gate_converges {s₀ : State} (initial : s₀.Initial)
    (seeded : s₀.workspaceGated = s₀.capacities.rows.map fun c => (c.poolID, c.freshCreditGated))
    {c : Config Label Input State} (reached : service.Reaches gateGuard s₀ c) (finished : c.Finished) :
    ∀ row ∈ c.shared.capacities.rows, c.shared.gateOf row.poolID = some row.freshCreditGated ∧
      ∀ conn ∈ c.shared.conns.rows, conn.registered = true → conn.ref.poolID = row.poolID →
        conn.workspaceGated = row.freshCreditGated ∧
          (row.freshCreditGated = true → ∀ turnID, conn.tryConsumeCredit turnID = none) := by
  intro row member
  have clear : ∀ poolID, ¬ Unpublished poolID s₀ := by
    rintro poolID ⟨row, found, behind⟩
    refine behind ⟨?_, fun _ _ found' => by rw [initial.conns] at found'; cases found'⟩
    rw [gateOf_seeded seeded, found]
    rfl
  have books : Books s₀ := fun _ _ found => by rw [initial.conns] at found; cases found
  have published := gates_custody.settled initial.base books clear reached finished row.poolID
  have converged : Converged row.poolID row.freshCreditGated c.shared := by
    by_contra behind
    exact published ⟨row, find_of_mem member, behind⟩
  have balanced := (booksLayer_proved.invariant initial.base books reached).2
  refine ⟨converged.map, fun conn present registered pool => ?_⟩
  have found : c.shared.conns.find conn.id = some conn := find_of_mem present
  have gate := converged.conns _ conn found registered pool
  refine ⟨gate, fun gated turnID => ?_⟩
  have idle : conn.idle = false := by
    by_contra usable
    have open_ := ((balanced _ conn found).usable (by simpa using usable)).2
    rw [gate, gated] at open_
    cases open_
  simp [tryConsumeCredit, idle]

/-! ### Two workers of one pool -/

/-- Both workers have connected, and the first has reported its workspace and advertised its credit.
Threads up to the fifth have run. -/
def twoWorkers : List (Move Input Request) :=
  connectWorker :: steps 0 7 ++
    .start (.connect ⟨.supervisor, "spiffe://org/pool/v", "uid", "v"⟩ ⟨"uid", "v"⟩) :: steps 1 7 ++
    deliver 2 (.workspaceStatus ⟨1, 2, 1 / 2, false, false⟩) 3 ++ deliver 4 .ready 2

/-- The first worker reports half of the space free, and the second one a tenth. -/
def bothReport : List (Move Input Request) :=
  [.start (.workerSends 0 (.workspaceStatus ⟨1, 2, 1 / 2, false, false⟩)), .start (.receive 0),
    .start (.workerSends 1 (.workspaceStatus ⟨1, 10, 1 / 10, true, true⟩)), .start (.receive 1)]

/-- Both reports are handled one after the other, and the pool is gated. -/
theorem capacity_gate_converges_gated : ∃ c : Config Label Input State,
    service.Reaches gateGuard (restartService onePool) c ∧ c.Finished ∧
      c.shared.gateOf "pool" = some true ∧
      ∃ conn ∈ c.shared.conns.rows, conn.creditAdvertised = true ∧ conn.workspaceGated = true ∧
        conn.tryConsumeCredit "t" = none := by
  obtain ⟨c, reached, finished, ⟨row, member, pool, gated⟩, conn, present, registered, own, credit⟩ :=
    reach_of_replay service.next gateGuard.Admits ⟨restartService onePool, []⟩
      (twoWorkers ++ bothReport ++ steps 7 3 ++ steps 9 3)
      (fun c => c.Finished ∧
        (∃ row ∈ c.shared.capacities.rows, row.poolID = "pool" ∧ row.freshCreditGated = true) ∧
        ∃ conn ∈ c.shared.conns.rows, conn.registered = true ∧ conn.ref.poolID = "pool" ∧
          conn.creditAdvertised = true)
      (by decide +kernel)
  obtain ⟨map, conns⟩ :=
    capacity_gate_converges ⟨rfl, rfl, rfl, rfl⟩ rfl reached finished row member
  obtain ⟨gate, unusable⟩ := conns conn present registered (own.trans pool.symm)
  rw [pool, gated] at map
  exact ⟨c, reached, finished, map, conn, present, credit, gate.trans gated, unusable gated "t"⟩

/-- **Published in the other order, the reports leave the pool of a gated row open.** -/
theorem capacity_gate_left_open : ¬ ∀ (s₀ : State) (c : Config Label Input State), s₀.Initial →
    s₀.workspaceGated = s₀.capacities.rows.map (fun c => (c.poolID, c.freshCreditGated)) →
    service.Reaches .free s₀ c → c.Finished → ∀ row ∈ c.shared.capacities.rows,
      c.shared.gateOf row.poolID = some row.freshCreditGated ∧
      ∀ conn ∈ c.shared.conns.rows, conn.registered = true → conn.ref.poolID = row.poolID →
        conn.workspaceGated = row.freshCreditGated ∧
          (row.freshCreditGated = true → ∀ turnID, conn.tryConsumeCredit turnID = none) := by
  intro claim
  -- the first handler commits, the second one commits and publishes, the first one publishes
  obtain ⟨c, reached, finished, ⟨row, member, pool, gated⟩, conn, present, registered, own, usable⟩ :=
    reach_of_replay service.next (System.Guard.free).Admits ⟨restartService onePool, []⟩
      (twoWorkers ++ bothReport ++ steps 7 1 ++ steps 9 3 ++ steps 7 2)
      (fun c => c.Finished ∧
        (∃ row ∈ c.shared.capacities.rows, row.poolID = "pool" ∧ row.freshCreditGated = true) ∧
        ∃ conn ∈ c.shared.conns.rows, conn.registered = true ∧ conn.ref.poolID = "pool" ∧
          (conn.tryConsumeCredit "t").isSome)
      (by decide +kernel)
  obtain ⟨_, conns⟩ := claim _ c ⟨rfl, rfl, rfl, rfl⟩ rfl reached finished row member
  have none := (conns conn present registered (own.trans pool.symm)).2 gated "t"
  rw [none] at usable
  cases usable

end Iterabase.Dispatch
