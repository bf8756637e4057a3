/-
**Durable dispatch — what never goes back.**

Every action of the service only moves the state forward. `Durable` collects what no action and no
restart undoes, `Grows` adds what holds while the process lives, and `Rely` adds what a thread that
runs a connection's handler may count on.

* A row keeps its run, its worker and its generation, its watermark never falls, and a row that is
  not active never becomes active.
* A settled turn stays as it was settled.
* The trace only gets longer, and an event is appended only to an active row, past its watermark.
* Nobody but the thread that runs a connection's handler acts for that connection.
-/

import Iterabase.Dispatch.Work

namespace Iterabase.Dispatch

open Conc

/-! ### Rows and the trace -/

structure Assignment.Becomes (a a' : Assignment) : Prop where
  runID : a'.runID = a.runID := by rfl
  poolID : a'.poolID = a.poolID := by rfl
  workerID : a'.workerID = a.workerID := by rfl
  gen : a'.fencingGeneration = a.fencingGeneration := by rfl
  watermark : a.highestAppliedSequence ≤ a'.highestAppliedSequence := by exact le_refl _
  inactive : a.state ≠ .active → a'.state ≠ .active := by exact id

theorem Assignment.Becomes.refl (a : Assignment) : a.Becomes a := {}

theorem Assignment.Becomes.trans {a b c : Assignment} (first : a.Becomes b) (second : b.Becomes c) :
    a.Becomes c where
  runID := second.runID.trans first.runID
  poolID := second.poolID.trans first.poolID
  workerID := second.workerID.trans first.workerID
  gen := second.gen.trans first.gen
  watermark := le_trans first.watermark second.watermark
  inactive := second.inactive ∘ first.inactive

structure Turn.Becomes (u u' : Turn) : Prop where
  runID : u'.runID = u.runID
  settled : u.state ≠ .running → u'.state = u.state

theorem Turn.Becomes.refl (u : Turn) : u.Becomes u := ⟨rfl, fun _ => rfl⟩

theorem Turn.Becomes.trans {u v w : Turn} (first : u.Becomes v) (second : v.Becomes w) :
    u.Becomes w where
  runID := second.runID.trans first.runID
  settled := by
    intro settled
    have same := first.settled settled
    rw [second.settled (same ▸ settled), same]

/-- The connection whose handler an observation is made by. -/
def Obs.owner : Obs → Option ConnRef
  | .sent w (.welcome _) _ => some w
  | .sent w (.eventAck _ _) (some _) => some w
  | .appended w _ => some w
  | .audited w _ => some w
  | .unowned w _ => some w
  | .fencedFor w => some w
  | .readyAnswered w _ => some w
  | _ => none

/-- An event is appended only to an active row, past its watermark. -/
def Obs.Honest (s : State) : Obs → Prop
  | .appended _ te => ∀ a, s.assignments.find te.turnID = some a →
      a.state = .active ∧ a.highestAppliedSequence < te.sequence
  | _ => True

/-- What no action and no restart undoes. -/
structure Durable (s s' : State) : Prop where
  rows : ∀ k a, s.assignments.find k = some a →
    ∃ a', s'.assignments.find k = some a' ∧ a.Becomes a' := by exact fun _ a found => ⟨a, found, .refl a⟩
  turns : ∀ k u, s.turns.find k = some u → ∃ u', s'.turns.find k = some u' ∧ u.Becomes u' := by
    exact fun _ u found => ⟨u, found, .refl u⟩
  trace : s.trace <:+ s'.trace := by exact List.suffix_refl _
  honest : ∀ o ∈ s'.trace, o ∉ s.trace → o.Honest s := by
    exact fun _ member fresh => absurd member fresh
  nextConn : s.nextConn ≤ s'.nextConn := by exact le_refl _

structure Grows (s s' : State) : Prop extends Durable s s' where
  conns : ∀ k c, s.conns.find k = some c → ∃ c', s'.conns.find k = some c' ∧ c'.ref = c.ref
  gen : s.gen ≤ s'.gen

theorem Durable.refl (s : State) : Durable s s := {}

variable {s₁ s₂ s₃ : State} {t : Nat}

theorem Durable.trans (first : Durable s₁ s₂) (second : Durable s₂ s₃) : Durable s₁ s₃ where
  rows := carried_trans (fun becomes becomes' => becomes.trans becomes') first.rows second.rows
  turns := carried_trans (fun becomes becomes' => becomes.trans becomes') first.turns second.turns
  trace := first.trace.trans second.trace
  nextConn := le_trans first.nextConn second.nextConn
  honest := by
    intro o member fresh
    by_cases middle : o ∈ s₂.trace
    · exact first.honest o middle fresh
    have honest := second.honest o member middle
    cases o with
    | appended w te =>
      -- an active row past the watermark was so before: neither state nor watermark goes back
      intro a found
      obtain ⟨b, found', becomes⟩ := first.rows _ a found
      obtain ⟨active, past⟩ := honest b found'
      exact ⟨by_contra fun inactive => becomes.inactive inactive active,
        lt_of_le_of_lt becomes.watermark past⟩
    | _ => trivial

theorem Grows.refl (s : State) : Grows s s where
  toDurable := .refl s
  conns := fun _ c found => ⟨c, found, rfl⟩
  gen := le_refl _

theorem Grows.trans (first : Grows s₁ s₂) (second : Grows s₂ s₃) : Grows s₁ s₃ where
  toDurable := first.toDurable.trans second.toDurable
  conns := carried_trans (fun same same' => same'.trans same) first.conns second.conns
  gen := le_trans first.gen second.gen

/-! ### What the handler of a connection may count on -/

/-- Thread `t` runs the handler of `w`. -/
def Held (t : Nat) (w : ConnRef) (s : State) : Prop :=
  ∃ c, s.conns.find w.id = some c ∧ c.ref = w ∧ c.loop = .held t

/-- What others may do to a connection whose handler they do not run. -/
structure WorkerConn.Calm (c c' : WorkerConn) : Prop where
  loop : c'.loop = c.loop := by rfl
  inbox : c.inbox <+: c'.inbox := by exact List.prefix_refl _
  observed : c.workspaceObserved → c'.workspaceObserved := by exact fun seen => seen
  spent : c.creditAdvertised = false → c.activeTurn = "" →
    c'.creditAdvertised = false ∧ c'.activeTurn = "" := by exact fun credit turn => ⟨credit, turn⟩

theorem WorkerConn.Calm.refl (c : WorkerConn) : c.Calm c := {}

theorem WorkerConn.Calm.trans {c d e : WorkerConn} (first : c.Calm d) (second : d.Calm e) :
    c.Calm e where
  loop := second.loop.trans first.loop
  inbox := first.inbox.trans second.inbox
  observed := second.observed ∘ first.observed
  spent := by
    intro credit turn
    obtain ⟨credit', turn'⟩ := first.spent credit turn
    exact second.spent credit' turn'

/-- What thread `t` tolerates. -/
structure Rely (t : Nat) (s s' : State) : Prop extends Grows s s' where
  calm : ∀ k c, s.conns.find k = some c → c.loop = .held t →
    ∃ c', s'.conns.find k = some c' ∧ c.Calm c'
  mine : ∀ k c, s.conns.find k = some c → c.loop = .held t →
    ∀ o ∈ s'.trace, ∀ w, o.owner = some w → w.gen = c.ref.gen → o ∈ s.trace

theorem Rely.refl (t : Nat) (s : State) : Rely t s s where
  toGrows := .refl s
  calm := fun _ c found _ => ⟨c, found, .refl c⟩
  mine := fun _ _ _ _ _ member _ _ _ => member

theorem Rely.held {s s' : State} {k : Nat} {c : WorkerConn} (moved : Rely t s s')
    (found : s.conns.find k = some c) (held : c.loop = .held t) :
    ∃ c', s'.conns.find k = some c' ∧ c'.ref = c.ref ∧ c.Calm c' := by
  obtain ⟨c', found', calm⟩ := moved.calm k c found held
  obtain ⟨c'', found'', ref⟩ := moved.conns k c found
  cases found'.symm.trans found''
  exact ⟨c', found', ref, calm⟩

theorem Rely.trans (first : Rely t s₁ s₂) (second : Rely t s₂ s₃) : Rely t s₁ s₃ where
  toGrows := first.toGrows.trans second.toGrows
  calm := by
    intro k c found held
    obtain ⟨d, found', calm⟩ := first.calm k c found held
    obtain ⟨e, found'', calm'⟩ := second.calm k d found' (calm.loop.trans held)
    exact ⟨e, found'', calm.trans calm'⟩
  mine := by
    intro k c found held o member w owned same
    obtain ⟨d, found', ref, calm⟩ := first.held found held
    exact first.mine k c found held o
      (second.mine k d found' (calm.loop.trans held) o member w owned (ref ▸ same)) w owned same

theorem Held.rely {w : ConnRef} {s s' : State} (held : Held t w s) (moved : Rely t s s') :
    Held t w s' := by
  obtain ⟨c, found, ref, loop⟩ := held
  obtain ⟨c', found', ref', calm⟩ := moved.held found loop
  exact ⟨c', found', ref'.trans ref, calm.loop.trans loop⟩

end Iterabase.Dispatch
