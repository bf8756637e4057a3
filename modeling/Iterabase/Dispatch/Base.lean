/-
**Durable dispatch — the base layer.**

The invariant and the thread-local rules that every property of the service is proved over.

* `baseRules` — `Base`, with `Grows` kept by every action and `Rely` tolerated by every thread.
* `baseStep` — what an action has to show.
* `Quiet` — an action that keeps the rules and hands no handler to another thread, as every action of
  the service does but those that start and end a round of a receive loop.
-/

import Iterabase.Dispatch.Steps

namespace Iterabase.Dispatch

open Conc

def Obs.conn : Obs → Option ConnRef
  | .worker w _ => some w
  | .taken w _ => some w
  | .sent w _ _ => some w
  | .appended w _ => some w
  | .audited w _ => some w
  | .unowned w _ => some w
  | .fencedFor w => some w
  | .readyAnswered w _ => some w
  | _ => none

def Obs.Rows (s : State) : Obs → Prop
  | .appended w te => ∃ a, s.assignments.find te.turnID = some a ∧ a.fencingGeneration = w.gen ∧
      te.sequence ≤ a.highestAppliedSequence
  | .assigned a => ∃ a', s.assignments.find a.turnID = some a' ∧ a.Becomes a'
  | .holds w turnID _ => ∃ a, s.assignments.find turnID = some a ∧ a.fencingGeneration = w.gen
  | _ => True

variable {s s' : State}

theorem Obs.Rows.durable {o : Obs} (rows : o.Rows s) (durable : Durable s s') : o.Rows s' := by
  cases o with
  | appended w te =>
    obtain ⟨a, found, gen, past⟩ := rows
    obtain ⟨a', found', becomes⟩ := durable.rows _ a found
    exact ⟨a', found', becomes.gen.trans gen, le_trans past becomes.watermark⟩
  | assigned a =>
    obtain ⟨b, found, becomes⟩ := rows
    obtain ⟨b', found', becomes'⟩ := durable.rows _ b found
    exact ⟨b', found', becomes.trans becomes'⟩
  | holds w turnID dispatcher =>
    obtain ⟨a, found, gen⟩ := rows
    obtain ⟨a', found', becomes⟩ := durable.rows _ a found
    exact ⟨a', found', becomes.gen.trans gen⟩
  | _ => trivial

structure Base (s : State) : Prop where
  connGen : ∀ k c, s.conns.find k = some c → c.ref.gen ≤ s.gen
  rowGen : ∀ k a, s.assignments.find k = some a → a.fencingGeneration ≤ s.gen
  sameGen : ∀ k c k' c', s.conns.find k = some c → s.conns.find k' = some c' →
    c.ref.gen = c'.ref.gen → k = k'
  rowConn : ∀ k a k' c, s.assignments.find k = some a → s.conns.find k' = some c →
    a.fencingGeneration = c.ref.gen → a.poolID = c.ref.poolID ∧ a.workerID = c.ref.workerID
  connNext : ∀ k c, s.conns.find k = some c → k < s.nextConn
  traceNext : ∀ o ∈ s.trace, ∀ w, o.conn = some w → w.id < s.nextConn
  traceRows : ∀ o ∈ s.trace, o.Rows s
  turnNamed : s.turns.find "" = none

def baseRules : Rules State where
  inv := Base
  moves := Grows
  rely := Rely
  rely_refl := Rely.refl
  rely_trans := Rely.trans

/-- An action of thread `t` keeps the connections, and treats those of other handlers calmly. -/
structure ConnsKept (t : Nat) (s s' : State) : Prop where
  kept : ∀ k c, s.conns.find k = some c → ∃ c', s'.conns.find k = some c' ∧ c'.ref = c.ref ∧
    ∀ other, other ≠ t → c.loop = .held other → c.Calm c'
  noNew : ∀ k c', s'.conns.find k = some c' → ∃ c, s.conns.find k = some c

variable {t : Nat}

theorem ConnsKept.of_eq (same : s'.conns = s.conns) :
    ConnsKept t s s' where
  kept := fun _ c found => ⟨c, same ▸ found, rfl, fun _ _ _ => .refl c⟩
  noNew := fun _ c found => ⟨c, same ▸ found⟩

theorem ConnsKept.back (conns : ConnsKept t s s') {k : Nat} {c' : WorkerConn}
    (found : s'.conns.find k = some c') : ∃ c, s.conns.find k = some c ∧ c'.ref = c.ref := by
  obtain ⟨c, found'⟩ := conns.noNew k c' found
  obtain ⟨c'', found'', ref, _⟩ := conns.kept k c found'
  cases found.symm.trans found''
  exact ⟨c, found', ref⟩

/-- A row of `s'` is an old one, or one made for a live connection. -/
def RowsKept (s s' : State) : Prop :=
  ∀ k a', s'.assignments.find k = some a' →
    (∃ a, s.assignments.find k = some a ∧ a.Becomes a') ∨
    ∃ k' c, s.conns.find k' = some c ∧ a'.fencingGeneration = c.ref.gen ∧
      a'.poolID = c.ref.poolID ∧ a'.workerID = c.ref.workerID

/-- What an action that takes no new generation has to show. -/
structure BaseStep (t : Nat) (s s' : State) : Prop where
  durable : Durable s s'
  conns : ConnsKept t s s'
  rows : RowsKept s s'
  gen : s'.gen = s.gen
  nextConn : s'.nextConn = s.nextConn
  fresh : ∀ o ∈ s'.trace, o ∉ s.trace → o.Rows s' ∧ (∀ w, o.conn = some w → w.id < s.nextConn) ∧
    ∀ w, o.owner = some w → Held t w s
  turnNamed : s.turns.find "" = none → s'.turns.find "" = none

theorem Base.step {t : Nat} {s s' : State} (base : Base s) (step : BaseStep t s s') : Base s' where
  connGen := by
    intro k c found
    obtain ⟨c₀, found₀, ref⟩ := step.conns.back found
    rw [ref, step.gen]
    exact base.connGen k c₀ found₀
  rowGen := by
    intro k a found
    rw [step.gen]
    rcases step.rows k a found with ⟨a₀, found₀, becomes⟩ | ⟨k', c, found', gen, _⟩
    · rw [becomes.gen]
      exact base.rowGen k a₀ found₀
    · rw [gen]
      exact base.connGen k' c found'
  sameGen := by
    intro k c k' c' found found' same
    obtain ⟨c₀, found₀, ref⟩ := step.conns.back found
    obtain ⟨c₀', found₀', ref'⟩ := step.conns.back found'
    exact base.sameGen k c₀ k' c₀' found₀ found₀' (by rw [← ref, ← ref', same])
  rowConn := by
    intro k a k' c found found' same
    obtain ⟨c₀, found₀, ref⟩ := step.conns.back found'
    rw [ref] at same ⊢
    rcases step.rows k a found with ⟨a₀, foundRow, becomes⟩ | ⟨k'', c'', found'', gen, pool, worker⟩
    · rw [becomes.poolID, becomes.workerID]
      exact base.rowConn k a₀ k' c₀ foundRow found₀ (becomes.gen.symm.trans same)
    -- the connection the row was made for is the only one of its generation
    have here := base.sameGen k'' c'' k' c₀ found'' found₀ (gen.symm.trans same)
    subst here
    cases found''.symm.trans found₀
    exact ⟨pool, worker⟩
  connNext := by
    intro k c found
    obtain ⟨c₀, found₀, _⟩ := step.conns.back found
    rw [step.nextConn]
    exact base.connNext k c₀ found₀
  traceNext := by
    intro o member w about
    rw [step.nextConn]
    by_cases old : o ∈ s.trace
    · exact base.traceNext o old w about
    · exact (step.fresh o member old).2.1 w about
  traceRows := by
    intro o member
    by_cases old : o ∈ s.trace
    · exact (base.traceRows o old).durable step.durable
    · exact (step.fresh o member old).1
  turnNamed := step.turnNamed base.turnNamed

theorem BaseStep.grows (step : BaseStep t s s') : Grows s s' where
  toDurable := step.durable
  conns := by
    intro k c found
    obtain ⟨c', found', ref, _⟩ := step.conns.kept k c found
    exact ⟨c', found', ref⟩
  gen := le_of_eq step.gen.symm

theorem BaseStep.guarantee (base : Base s) (step : BaseStep t s s') : baseRules.Guarantee t s s' := by
  intro other different
  refine ⟨step.grows, fun k c found held => ?_, fun k c found held o member w owned same => ?_⟩
  · obtain ⟨c', found', _, calm⟩ := step.conns.kept k c found
    exact ⟨c', found', calm other different held⟩
  · by_contra old
    obtain ⟨c₀, found₀, ref, loop⟩ := (step.fresh o member old).2.2 w owned
    -- the acting thread runs the handler of `w`, and no other connection has its generation
    have here := base.sameGen w.id c₀ k c found₀ found (by rw [ref, same])
    subst here
    cases found₀.symm.trans found
    rw [loop] at held
    cases held
    exact different rfl

theorem BaseStep.observe {o : Obs} (step : BaseStep t s s') (honest : o.Honest s) (rows : o.Rows s')
    (fresh : (∀ w, o.conn = some w → w.id < s.nextConn) ∧ ∀ w, o.owner = some w → Held t w s) :
    BaseStep t s (s'.observe o) where
  durable :=
    { rows := step.durable.rows
      turns := step.durable.turns
      trace := step.durable.trace.trans (List.suffix_cons _ _)
      honest := by
        intro o' member old
        rcases List.mem_cons.mp member with rfl | there
        · exact honest
        · exact step.durable.honest o' there old
      nextConn := step.durable.nextConn }
  conns := ⟨step.conns.kept, step.conns.noNew⟩
  rows := step.rows
  gen := step.gen
  nextConn := step.nextConn
  fresh := by
    intro o' member old
    rcases List.mem_cons.mp member with rfl | there
    · exact ⟨rows, fresh⟩
    · exact step.fresh o' there old
  turnNamed := step.turnNamed

theorem baseStep (base : Base s) (step : BaseStep t s s') : baseRules.Step t s s' :=
  ⟨base.step step, step.grows, step.guarantee base⟩

end Iterabase.Dispatch
