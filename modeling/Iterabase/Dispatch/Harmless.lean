/-
**Durable dispatch — what does not touch the one-credit protocol.**

Most actions of the service move no connection and take no turn that a compliant worker runs. A thread
goes on knowing what it knows across them.

* `Serving`, `Lost`, `Doomed` — what threads know: a handler has its connection open and in the map, a
  connection is closed, a turn is not live any more.
-/

import Iterabase.Dispatch.Credit

namespace Iterabase.Dispatch

open Conc

variable {t : Nat} {w : ConnRef} {K : State → Prop} {s s' : State}

/-! ### Programs of harmless actions -/

/-- What thread `t` knows, and neither the others nor an action that moves no connection undoes. -/
structure Local (t : Nat) (K : State → Prop) : Prop where
  rely : ∀ {s s'}, Rely t s s' → CreditRely t s s' → K s → K s'
  unmoved : ∀ {s s'}, Unmoved s s' → Grows s s' → K s → K s'

theorem Local.of_grows (stable : ∀ {s s'}, Grows s s' → K s → K s') : Local t K :=
  ⟨fun moved _ => stable moved.toGrows, fun _ grows => stable grows⟩

theorem Local.true (t : Nat) : Local t fun _ => True := .of_grows fun _ _ => trivial

theorem Local.and {K' : State → Prop} (first : Local t K) (second : Local t K') :
    Local t fun s => K s ∧ K' s where
  rely := fun moved moved' kept =>
    ⟨first.rely moved moved' kept.1, second.rely moved moved' kept.2⟩
  unmoved := fun unmoved grows kept =>
    ⟨first.unmoved unmoved grows kept.1, second.unmoved unmoved grows kept.2⟩

/-- An action that moves no connection and spares the live turns, where `K` holds. -/
def Harmless (t : Nat) (K : State → Prop) : ActionProp := fun _ label run =>
  ∀ {input s answer s'}, Base s → CreditInv s → K s → creditGuard.action label input s →
    run input s = some (answer, s') → Unmoved s s' ∧ Spares t s s'

variable {label : Label} {turnID : TurnID} {reason : Reason}

section Programs

variable {α β : Type}

theorem along_action {run : Input → State → Option (α × State)}
    {Q : α → State → Prop}
    (holds : ∀ s₁, Rely t s s₁ → CreditRely t s s₁ → Base s₁ → CreditInv s₁ → ∀ input answer s₂,
      creditGuard.action label input s₁ → run input s₁ = some (answer, s₂) → Base s₂ →
        Grows s₁ s₂ → CreditStep t s₁ s₂ ∧ Q answer s₂) :
    Along baseRules creditLayer t (Prog.atomic label run) Q s := by
  refine Along.action fun s₁ moved moved' base inv input answer s₂ admitted ran base' grows => ?_
  obtain ⟨step, rest⟩ := holds s₁ moved moved' base inv input answer s₂ admitted ran base' grows
  exact ⟨step.keeps inv, rest⟩

theorem Local.along (known : Local t K) {p : Program α} (start : K s) (all : p.All (Harmless t K)) :
    Along baseRules creditLayer t p (fun _ s => K s) s := by
  refine Along.of_all (R := baseRules) (L := creditLayer) known.rely start ?_
  induction p with
  | done value => trivial
  | act label run next ih =>
    refine ⟨fun {input s answer s'} base inv kept admitted ran did => ?_, fun answer =>
      ih answer (all.2 answer)⟩
    obtain ⟨unmoved, spares⟩ := all.1 base inv kept admitted ran
    exact ⟨(CreditStep.of_unmoved unmoved spares).keeps inv, known.unmoved unmoved did.2.1 kept⟩

theorem Local.along_bind (known : Local t K) {p : Program α} {f : α → Program β}
    {Q : β → State → Prop} (start : K s) (all : p.All (Harmless t K))
    (rest : ∀ value s, K s → Along baseRules creditLayer t (f value) Q s) :
    Along baseRules creditLayer t (p >>= f) Q s :=
  ((known.along start all).mono rest).bind

/-! ### Harmless actions -/

theorem store_harmless {tx : Input → State → Except Err α × State}
    (harmless : ∀ {input s answer s'}, Base s → CreditInv s → K s →
      creditGuard.action label input s → tx input s = (answer, s') →
        Unmoved s s' ∧ Spares t s s') : (store label tx).All (Harmless t K) := by
  refine .atomic fun {input s answer s'} base inv kept admitted ran => ?_
  exact call_keeps ran ⟨.refl _, .refl t _⟩ fun ran => harmless base inv kept admitted ran

theorem query_harmless {read : State → Except Err α} : (query label read).All (Harmless t K) :=
  store_harmless fun _ _ _ _ ran => by
    cases ran
    exact ⟨.refl _, .refl t _⟩

theorem read_harmless {f : Input → State → α} :
    (locally fun input s => (f input s, s)).All (Harmless t K) :=
  .atomic fun _ _ _ _ ran => by
    cases ran
    exact ⟨.refl _, .refl t _⟩

theorem send_harmless {msg : ControlMessage} {answers : Option TurnEvent}
    (neutral : Phase.Neutral msg) : (send w msg answers).All (Harmless t K) := by
  refine .atomic fun _ _ _ _ ran => ?_
  obtain ⟨c, _, ⟨_, rfl, _⟩ | ⟨_, rfl, _⟩⟩ := send_cases ran
  · exact ⟨.refl _, .refl t _⟩
  · exact ⟨.observe neutral, .observe fun _ => rfl⟩

theorem settle_harmless {isGraph : Bool} :
    (store (.settle turnID reason) fun input s => s.settle isGraph turnID reason input.advance).All
    (Harmless t K) := by
  refine store_harmless fun _ _ _ _ ran => ?_
  rcases settle_cases ran with ⟨_, _, rfl, _⟩ | ⟨_, turn, target, _, found, running, _, _, same⟩
  · exact ⟨.refl _, .refl t _⟩
  · obtain ⟨step, rows, _⟩ := settled_step found running same
    exact ⟨.of_store step (by simp [Obs.Idle]), .of_rows step (by simp [Obs.finishes]) rows⟩

variable {te : TurnEvent}

theorem record_harmless {report : CompletionReport} :
    (recordTx te report).All
    (Harmless t K) := by
  refine store_harmless fun _ _ _ _ ran => ?_
  obtain ⟨new, step, _, rows, _, kind⟩ := recordCompletionReport_cases ran
  refine ⟨.of_store step fun o member => ?_, .of_rows step (fun o member => ?_) rows⟩
  · rcases kind o member with rfl | rfl <;> trivial
  · rcases kind o member with rfl | rfl <;> simp [Obs.finishes]

theorem observeWorkspaceCapacity_harmless {status : WorkspaceStatus} :
    (store .other fun _ s => (.ok (s.observeWorkspaceCapacity w.poolID status.freeRatio).1,
      (s.observeWorkspaceCapacity w.poolID status.freeRatio).2) :
        Program (Except Err WorkspaceCapacityState)).All (Harmless t K) := by
  refine store_harmless fun {input s answer s'} _ _ _ _ ran => ?_
  cases ran
  obtain ⟨capacities, same⟩ := observeWorkspaceCapacity_eq s w.poolID status.freeRatio
  rw [same]
  exact ⟨@Unmoved.of_new [] _ _ rfl rfl (by simp), .of_live fun live => live⟩

theorem audit_harmless {kind : RuntimeEvent} :
    (auditTx w te kind).All (Harmless t K) := by
  refine store_harmless fun {input s answer s'} _ _ _ _ ran => ?_
  rcases appendAfterTerminalEvent_cases ran with
    ⟨_, rfl, _⟩ | ⟨a, found, _, _, ⟨_, rfl, _⟩ | ⟨_, rfl⟩ | ⟨_, next, rfl⟩⟩
  · exact ⟨.observe trivial, .observe fun _ => rfl⟩
  · exact ⟨.refl _, .refl t _⟩
  · exact ⟨.refl _, .refl t _⟩
  · have step := (committed_step kind (o := .audited w te) found next trivial).1
    exact ⟨.of_store step (by simp [Obs.Idle]), .of_live fun live => live.advance.observe rfl⟩

theorem append_harmless {kind : RuntimeEvent} (plain : te.kind.outcome = none) :
    (appendTx w te kind).All (Harmless t K) := by
  refine store_harmless fun {input s answer s'} _ _ _ _ ran => ?_
  rcases appendTurnEvent_cases ran with ⟨_, _, rfl, _⟩ | ⟨a, found, active, ⟨_, rfl, _⟩ | ⟨_, next, rfl⟩⟩
  · exact ⟨.refl _, .refl t _⟩
  · exact ⟨.refl _, .refl t _⟩
  have step := (committed_step kind found next (appended_honest (w := w) found active next)).1
  exact ⟨.of_store step (by simp [Obs.Idle]),
    .of_live fun live => live.advance.observe (by simp [Obs.finishes, plain])⟩

end Programs

/-! ### Settling turns that nobody runs -/

/-- The turn is not live, and will not be again. -/
def Doomed (turnID : TurnID) (s : State) : Prop := Finished turnID s ∨ RowInactive turnID s

theorem Doomed.grows (grows : Grows s s') (doomed : Doomed turnID s) : Doomed turnID s' :=
  doomed.imp (fun finished => finished.grows grows) fun inactive => inactive.durable grows.toDurable

theorem Doomed.not_live {gen : Nat} (doomed : Doomed turnID s) : ¬ Live turnID gen s := by
  rintro ⟨⟨a, found, active, _⟩, unfinished⟩
  rcases doomed with finished | ⟨a', found', inactive⟩
  · exact unfinished finished
  · cases found.symm.trans found'
    exact inactive active

/-- **Settling a turn and terminalizing its assignment** is harmless where its connection may lose
it. -/
theorem commitTurnTerminal_harmless {a : Assignment}
    (takes : ∀ {s}, Base s → K s → ∀ k c, s.conns.find k = some c → Live a.turnID c.ref.gen s →
      Forfeits t s c a.turnID) : (commitTurnTerminal a reason).All (Harmless t K) := by
  have terminalize : (store .other fun _ s => (.ok (), s.terminalizeAssignment a.turnID) :
      Program (Except Err Unit)).All (Harmless t K) := by
    refine store_harmless fun {input s answer s'} base _ kept _ ran => ?_
    cases ran
    have step := terminalizeAssignment_step s a.turnID
    refine ⟨.of_store step (by simp), .of_store step (by simp) fun k c turnID found live => ?_⟩
    by_cases same : turnID = a.turnID
    · subst same
      exact .inr (takes base kept k c found live)
    · obtain ⟨⟨row, foundRow, active, _⟩, _⟩ := live
      exact .inl ⟨row, terminalizeAssignment_keeps foundRow same, active⟩
  refine .bind query_harmless fun answer => ?_
  cases answer with
  | error err => exact .done _
  | ok isGraph =>
    refine .bind settle_harmless fun settled => ?_
    split
    · refine .bind terminalize fun answer => ?_
      split <;> exact .done _
    · refine .bind terminalize fun answer => ?_
      split <;> exact .done _
    · exact .done _

theorem commitTurnTerminal_doomed (known : Local t K) {a : Assignment}
    (start : K s) (doomed : Doomed a.turnID s) :
    Along baseRules creditLayer t (commitTurnTerminal a reason) (fun _ s => K s) s := by
  have stays : Local t (Doomed a.turnID) := .of_grows Doomed.grows
  refine ((known.and stays).along ⟨start, doomed⟩ (commitTurnTerminal_harmless ?_)).mono fun _ _ kept => kept.1
  exact fun _ kept _ _ _ live => absurd live kept.2.not_live

theorem fence_harmless (known : Local t K) {p : Assignment → Bool} (start : K s)
    (takes : ∀ {input s}, Base s → CreditInv s → K s → creditGuard.action label input s →
      ∀ k c row, s.conns.find k = some c → s.assignments.find row.turnID = some row → p row →
        Live row.turnID c.ref.gen s → Forfeits t s c row.turnID) :
    Along baseRules creditLayer t (store label fun input s => s.fenceWhere p input.pick)
      (fun answer s => K s ∧ ∀ a, answer = .ok a → RowInactive a.turnID s) s := by
  refine along_action fun s₁ moved moved' base inv input answer s₂ admitted ran _ grows => ?_
  have kept := known.rely moved moved' start
  have returned (a : Assignment) (same : answer = .ok a) : RowInactive a.turnID s₂ :=
    fenceWhere_returned (call_ok (same ▸ ran))
  rcases call_effect ran with rfl | ⟨_, ran⟩
  · exact ⟨.refl t _, kept, returned⟩
  have step := fenceWhere_step ran
  have unmoved : Unmoved s₁ s₂ := .of_store step (by simp)
  refine ⟨.of_unmoved unmoved (.of_store step (by simp) fun k c turnID found live => ?_),
    known.unmoved unmoved grows kept, returned⟩
  · obtain ⟨⟨row, foundRow, active, gen⟩, unfinished⟩ := live
    have key := Table.find_key foundRow
    subst key
    by_cases selected : p row
    · exact .inr (takes base inv kept admitted k c row found foundRow selected
        ⟨⟨row, foundRow, active, gen⟩, unfinished⟩)
    · exact .inl ⟨row, fenceWhere_keeps ran foundRow selected, active⟩

/-! ### Lost connections -/

def Lost (w : ConnRef) (s : State) : Prop :=
  ∃ c, s.conns.find w.id = some c ∧ c.ref = w ∧ c.closed = true

theorem Lost.local (t : Nat) (w : ConnRef) : Local t (Lost w) where
  rely := by
    rintro s s' _ moved ⟨c, found, ref, closed⟩
    obtain ⟨c', found', kept⟩ := moved _ c found
    exact ⟨c', found', kept.ref.trans ref, kept.closed closed⟩
  unmoved := by
    rintro s s' unmoved _ ⟨c, found, ref, closed⟩
    exact ⟨c, unmoved.conns ▸ found, ref, closed⟩

theorem fenceAndTerminalize_lost (known : Local t K) (lost : ∀ {s}, K s → Lost w s)
    (cause : FenceCause) (poolID : PoolID) (start : K s) :
    Along baseRules creditLayer t (fenceAndTerminalize cause poolID w.workerID w.gen) (fun _ s => K s)
    s := by
  refine (fence_harmless known start ?_).andThen fun answer s taken => ?_
  · intro input s base _ kept _ k c row found foundRow selected live
    obtain ⟨c', found', ref, closed⟩ := lost kept
    -- the row is of the lost connection's generation, which no other connection has
    have selected : row.fencingGeneration = w.gen := by
      simp only [State.activeForGen, Bool.decide_and, Bool.and_eq_true, decide_eq_true_eq] at selected
      exact selected.2.2.2
    obtain ⟨⟨row', foundRow', _, gen⟩, _⟩ := live
    cases foundRow.symm.trans foundRow'
    have same := base.sameGen k c w.id c' found found' (by rw [← gen, selected, ref])
    subst same
    cases found.symm.trans found'
    exact .inl closed
  · split
    · exact taken.1
    · exact (commitTurnTerminal_doomed known taken.1 (.inr (taken.2 _ rfl))).andThen fun _ _ kept => kept

end Iterabase.Dispatch
