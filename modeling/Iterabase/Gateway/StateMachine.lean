/-
**The tool gateway — the state machine of an invocation.**

Any number of calls and sweeps write the ledger. A row moves from `dispatching` over `running` to one
terminal state, and no further.

* `ledger_state_machine` — **all of it in every run**, and a sweep spares every lease that has not
  expired.
-/

import Iterabase.Gateway.Effects
import Iterabase.Gateway.Statements

namespace Iterabase.Gateway

open Conc Data List State Along

variable {cfg : Config} {t : Nat} {call : Call} {id : InvocationID} {s s' : State}

/-- The columns of a row agree with its state. -/
structure Invocation.Regular (inv : Invocation) : Prop where
  lease : inv.dispatchLeaseExpiresAt = none ↔ inv.state.isTerminal
  finished : inv.finished ↔ inv.state.isTerminal
  readOnly : inv.effectClass = .readOnly → inv.state ≠ .outcomeUnknown

/-- How far an invocation is. -/
def InvocationState.stage : InvocationState → Nat
  | .dispatching => 0
  | .running => 1
  | .succeeded | .failed | .outcomeUnknown => 2

/-- The state machine over a part of a run that made the observations `new`. -/
structure Invocation.Advances (new : List Obs) (inv inv' : Invocation) : Prop where
  fixed : inv.state.isTerminal → inv' = inv
  forward : inv.state.stage ≤ inv'.state.stage
  lease : inv'.state.isTerminal = false → (∀ o ∈ new, o.renews inv.id = false) →
    inv'.dispatchLeaseExpiresAt = inv.dispatchLeaseExpiresAt

/-- The rows are regular, and a terminal row was closed once. -/
structure Regular (s : State) : Prop where
  rows : ∀ id inv, s.ledger.find id = some inv → inv.Regular
  once : ∀ id inv, s.ledger.find id = some inv →
    s.trace.countP (Obs.finishes id) = if inv.state.isTerminal then 1 else 0

def Advances (s s' : State) : Prop :=
  ∃ new, s'.trace = new ++ s.trace ∧ ∀ id inv, s.ledger.find id = some inv →
    ∃ inv', s'.ledger.find id = some inv' ∧ inv.Advances new inv'

theorem Invocation.Advances.refl (new : List Obs) (inv : Invocation) : inv.Advances new inv :=
  ⟨fun _ => rfl, le_refl _, fun _ _ => rfl⟩

theorem Advances.of_same (new : List Obs) (ledger : s'.ledger = s.ledger)
    (trace : s'.trace = new ++ s.trace) : Advances s s' :=
  ⟨new, trace, fun _ inv found => ⟨inv, by rwa [ledger], .refl new inv⟩⟩

theorem Advances.refl (s : State) : Advances s s := .of_same [] rfl rfl

theorem Advances.trans {s'' : State} (first : Advances s s') (second : Advances s' s'') :
    Advances s s'' := by
  obtain ⟨new, trace, rows⟩ := first
  obtain ⟨new', trace', rows'⟩ := second
  refine ⟨new' ++ new, by rw [trace', trace, append_assoc], fun id inv found => ?_⟩
  obtain ⟨inv', found', advances⟩ := rows id inv found
  obtain ⟨inv'', found'', advances'⟩ := rows' id inv' found'
  refine ⟨inv'', found'', fun closed => ?_, advances.forward.trans advances'.forward,
    fun live silent => ?_⟩
  · obtain rfl := advances.fixed closed
    exact advances'.fixed closed
  · have here : inv'.id = inv.id := (Ledger.find_id found').trans (Ledger.find_id found).symm
    have between : inv'.state.isTerminal = false := by
      by_contra closed
      rw [advances'.fixed (by simpa using closed)] at live
      exact closed live
    rw [advances'.lease live fun o member => here ▸ silent o (mem_append_left _ member),
      advances.lease between fun o member => silent o (mem_append_right _ member)]

/-! ### The layer -/

def stateLayer : Layer Unit Input Request State where
  inv := Regular
  guard := .free
  rely := fun _ => Advances
  rely_refl := fun _ => Advances.refl
  rely_trans := Advances.trans

/-- What a row may be closed with. -/
def Fits (effectClass : EffectClass) (state : InvocationState) : Prop :=
  state.isTerminal ∧ (effectClass = .readOnly → state ≠ .outcomeUnknown)

variable {state : InvocationState}

theorem stage_terminal (terminal : state.isTerminal) : state.stage = 2 := by
  cases state with
  | dispatching | running => cases terminal
  | _ => rfl

theorem stage_le (state : InvocationState) : state.stage ≤ 2 := by
  cases state <;> decide

variable {closes : Invocation → InvocationState → Prop}

variable {new : List Obs} {inv : Invocation} {o : Obs} {lease : Int} {α : Type} {p : Program α}

theorem Invocation.Regular.turns {inv' : Invocation} (regular : inv.Regular)
    (turns : inv.Turns closes new inv')
    (fits : ∀ state, closes inv state → Fits inv.effectClass state) :
    inv'.Regular ∧ inv.Advances new inv' ∧
    new.countP (Obs.finishes inv.id) + (if inv.state.isTerminal then 1 else 0) =
    if inv'.state.isTerminal then 1 else 0 := by
  have silent : (∀ o ∈ new, o.finishes inv.id = false) → new.countP (Obs.finishes inv.id) = 0 :=
    fun quiet => countP_eq_zero.mpr fun o member => by simp [quiet o member]
  cases turns with
  | stays quiet => exact ⟨regular, .refl new inv, by rw [silent quiet, Nat.zero_add]⟩
  | leased state lease live advances renewed quiet =>
    have still : state.isTerminal = false := by
      rcases advances with rfl | ⟨_, rfl⟩
      · exact live
      · rfl
    refine ⟨⟨by simp [still], ?_, fun readOnly unknown => ?_⟩, ⟨fun closed => ?_, ?_, fun _ none => ?_⟩, ?_⟩
    · rw [regular.finished, live, still]
    · rw [show state = .outcomeUnknown from unknown] at still
      cases still
    · rw [live] at closed
      cases closed
    · rcases advances with rfl | ⟨dispatching, rfl⟩
      · exact le_refl _
      · rw [dispatching]
        exact Nat.zero_le _
    · obtain ⟨o, member, renews⟩ := renewed
      rw [none o member] at renews
      cases renews
    · simp [silent quiet, live, still]
  | closed c live allowed once =>
    obtain ⟨terminal, readOnly⟩ := fits _ allowed
    refine ⟨⟨by simp [State.Columns.write, terminal], by simp [State.Columns.write, terminal], readOnly⟩,
      ⟨fun closed => ?_, ?_, fun open_ _ => ?_⟩, ?_⟩
    · rw [live] at closed
      cases closed
    · exact (stage_le _).trans (stage_terminal terminal).ge
    · rw [show (c.write inv).state.isTerminal = true from terminal] at open_
      cases open_
    · simp [once, live, State.Columns.write, terminal]

theorem Regular.changes (regular : Regular s) (changes : Changes closes new s s')
    (fits : ∀ inv state, s.ledger.find inv.id = some inv → closes inv state →
      Fits inv.effectClass state) : stateLayer.Step t s s' := by
  have turned : ∀ id inv, s.ledger.find id = some inv → ∃ inv', s'.ledger.find id = some inv' ∧
      inv'.Regular ∧ inv.Advances new inv' ∧ new.countP (Obs.finishes inv.id) +
        (if inv.state.isTerminal then 1 else 0) = if inv'.state.isTerminal then 1 else 0 := by
    intro id inv found
    obtain ⟨inv', found', turns⟩ := changes.rows id inv found
    have here := Ledger.find_id found
    exact ⟨inv', found', (regular.rows id inv found).turns turns fun state =>
      fits inv state (by rw [here, found])⟩
  have known : ∀ id inv', s'.ledger.find id = some inv' → ∃ inv, s.ledger.find id = some inv := by
    intro id inv' found
    rcases before : s.ledger.find id with _ | inv
    · rw [changes.free id before] at found
      cases found
    · exact ⟨inv, rfl⟩
  refine ⟨⟨fun id inv' found => ?_, fun id inv' found => ?_⟩, fun _ _ => ⟨new, changes.trace, ?_⟩⟩
  · obtain ⟨inv, before⟩ := known id inv' found
    obtain ⟨inv'', found', regular', _⟩ := turned id inv before
    cases found.symm.trans found'
    exact regular'
  · obtain ⟨inv, before⟩ := known id inv' found
    obtain ⟨inv'', found', _, _, counted⟩ := turned id inv before
    cases found.symm.trans found'
    rw [changes.trace, countP_append, regular.once id inv before, ← counted,
      Ledger.find_id before]
  · intro id inv found
    obtain ⟨inv', found', _, advances, _⟩ := turned id inv found
    exact ⟨inv', found', advances⟩

theorem Regular.observe (regular : Regular s) (quiet : ∀ id, o.finishes id = false) :
    stateLayer.Step t s (s.observe o) := by
  refine ⟨⟨regular.rows, fun id inv found => ?_⟩, fun _ _ => .of_same [o] rfl rfl⟩
  rw [State.observe, countP_cons_of_neg (by simp [quiet id])]
  exact regular.once id inv found

theorem Regular.insert {uuid : InvocationID} (base : Base cfg s) (regular : Regular s) :
    stateLayer.Step t s (s.insertInvocation t call uuid lease).2 := by
  rcases insertInvocation_cases s t call uuid lease with
    ⟨same, _⟩ | ⟨arguments, refs, ledger, _, _, inserted, same⟩
  · rw [same]
    exact .refl regular t
  rw [same]
  obtain ⟨free, after⟩ := Ledger.insert_cases inserted
  refine ⟨⟨fun id inv found => ?_, fun id inv found => ?_⟩, fun _ _ => ⟨[], rfl, fun id inv found => ?_⟩⟩
  · rw [after] at found
    split at found
    · cases found
      exact ⟨by simp [Call.row, InvocationState.isTerminal], by simp [Call.row, InvocationState.isTerminal],
        fun _ => nofun⟩
    · exact regular.rows id inv found
  · rw [after] at found
    split at found
    · rename_i here
      cases found
      subst here
      refine countP_eq_zero.mpr fun o member finishes => ?_
      cases o with
      | finished id' =>
        obtain ⟨inv, found, _⟩ := base.sound _ member
        rw [of_decide_eq_true finishes] at found
        rw [found] at free
        cases free
      | _ => cases finishes
    · exact regular.once id inv found
  · refine ⟨inv, ?_, .refl _ inv⟩
    rw [after, if_neg, found]
    rintro rfl
    rw [found] at free
    cases free

/-! ### Programs -/

def Mine (t : Nat) (call : Call) (id : InvocationID) (s : State) : Prop := ∃ inv, RowOf t call id s inv

theorem along_changes (K : State → Prop) (start : K s) (moves : ∀ s s', Moves s s' → K s → K s')
    (fits : ∀ s, K s → ∀ inv state, s.ledger.find inv.id = some inv → closes inv state →
      Fits inv.effectClass state) (changed : p.All (ChangedBy closes)) :
    Runs (baseRules cfg) stateLayer t p s := by
  have keeps : p.All (Keeps (baseRules cfg) stateLayer t K) := by
    refine changed.mono fun {γ label run} each => ?_
    intro input s answer s' _ regular holds _ ran did
    obtain ⟨new, changes⟩ := each ran
    exact ⟨regular.changes changes (fits s holds), moves s s' did.2.1 holds⟩
  have stable : ∀ {s s' : State}, (baseRules cfg).rely t s s' → stateLayer.rely t s s' → K s → K s' :=
    fun moved _ => moves _ _ (Rely.toMoves moved)
  exact (of_all stable start keeps).mono fun _ _ _ => trivial

theorem Mine.along (mine : Mine t call id s)
    (changed : p.All (ChangedBy (closing id (Fits call.tv.effectClass)))) :
    Runs (baseRules cfg) stateLayer t p s := by
  refine along_changes (Mine t call id) mine (fun _ _ moves ⟨inv, row⟩ => row.moves moves) ?_ changed
  rintro s ⟨inv₀, row⟩ inv state found ⟨rfl, fits⟩
  cases found.symm.trans row.found
  rw [row.effectClass]
  exact fits

theorem Trying.mine {left : Nat} (trying : Trying cfg t call id left s) : Mine t call id s := by
  obtain ⟨inv, row, _⟩ := trying.row
  exact ⟨inv, row⟩

end Iterabase.Gateway
