/-
**The tool gateway — the base layer is sound.**

* `dispatchLoop_wp` — **the retry loop**: each attempt renews the lease and sends at most one Invoke,
  paid for from the attempts that are left.
-/

import Iterabase.Gateway.Steps

namespace Iterabase.Gateway

open Conc Data List State Option Wp

variable {cfg : Config} {t : Nat} {call : Call} {id : InvocationID} {s s' : State} {α : Type}

/-! ### Actions -/

/-- A store call keeps the rules if its transaction does; its caller may not learn that it
committed. -/
theorem store_wp {tx : Input → State → Except Err α × State} {Q : Except Err α → State → Prop}
    (holds : ∀ s₁, Rely t s s₁ → Base cfg s₁ → ∀ input, (baseRules cfg).Step t s₁ (tx input s₁).2 ∧
      Q (tx input s₁).1 (tx input s₁).2 ∧ ∀ text, Q (.error (.infrastructure text)) (tx input s₁).2)
    (fails : ∀ s₁ text, Rely t s s₁ → Q (.error (.infrastructure text)) s₁) :
    Wp (baseRules cfg) t (store tx) Q s := by
  refine atomic fun s₁ moved base input answer s₂ ran => ?_
  have ran := some.inj ran
  obtain ⟨step, holds, lost⟩ := holds s₁ moved base input
  split at ran
  · rw [ran] at step holds
    exact ⟨step, holds⟩
  · cases ran
    exact ⟨step_refl base, fails s₁ _ moved⟩
  · cases ran
    exact ⟨step, lost _⟩

theorem locally_wp {f : Input → State → α × State} {Q : α → State → Prop}
    (holds : ∀ s₁, Rely t s s₁ → Base cfg s₁ → ∀ input,
      (baseRules cfg).Step t s₁ (f input s₁).2 ∧ Q (f input s₁).1 (f input s₁).2) :
    Wp (baseRules cfg) t (locally f) Q s := by
  refine atomic fun s₁ moved base input answer s₂ ran => ?_
  have ran := some.inj ran
  have holds := holds s₁ moved base input
  rw [ran] at holds
  exact holds

/-! ### What a call knows of its row -/

/-- **The call goes on with its row**, with `left` attempts. -/
structure Trying (cfg : Config) (t : Nat) (call : Call) (id : InvocationID) (left : Nat) (s : State) :
    Prop where
  row : ∃ inv, RowOf t call id s inv ∧ ¬ inv.FailedWrite
  begun : .begun t call id true ∈ s.trace
  budget : s.trace.countP (Obs.invokes id) + left ≤ attempts cfg call.tv id

theorem RowOf.ownerOf {inv : Invocation} (row : RowOf t call id s inv) : Owner t id s :=
  ⟨inv, row.found, row.owner⟩

theorem RowOf.alive {inv inv' : Invocation} (row : RowOf t call id s inv) (row' : RowOf t call id s' inv')
    (untouched : Untouched id s s') (alive : ¬ inv.FailedWrite) : ¬ inv'.FailedWrite := by
  rcases untouched.quiet inv inv' row.found row'.found with rfl | ⟨_, _, spared⟩
  · exact alive
  · rintro ⟨write, failed⟩
    rw [row'.effectClass, ← row.effectClass] at write
    exact spared write failed

/-- What is new in the trace is not about a row of this thread. -/
theorem Rely.new (moved : Rely t s s') (owner : Owner t id s) :
    ∃ new, s'.trace = new ++ s.trace ∧ ∀ o ∈ new, o.acts id = false := by
  obtain ⟨new, same⟩ := moved.trace
  exact ⟨new, same.symm, (moved.own id owner).silent new same.symm⟩

theorem Rely.renewed (moved : Rely t s s') (owner : Owner t id s) (renewed : Renewed id s.trace) :
    Renewed id s'.trace := by
  obtain ⟨new, same, silent⟩ := moved.new owner
  rw [same]
  exact renewed.append silent

theorem Rely.unsent (moved : Rely t s s') (owner : Owner t id s) (unsent : Unsent id s) :
    Unsent id s' := by
  obtain ⟨new, same, silent⟩ := moved.new owner
  intro o member
  rw [same] at member
  rcases mem_append.mp member with here | there
  · exact (silent_parts (silent o here)).2.1
  · exact unsent o there

variable {left : Nat}

theorem Trying.rely (trying : Trying cfg t call id left s) (moved : Rely t s s') :
    Trying cfg t call id left s' := by
  obtain ⟨inv, row, alive⟩ := trying.row
  obtain ⟨inv', row'⟩ := row.moves moved.toMoves
  refine ⟨⟨inv', row', row.alive row' (moved.own id row.ownerOf) alive⟩,
    moved.trace.subset trying.begun, ?_⟩
  obtain ⟨new, same, silent⟩ := moved.new row.ownerOf
  rw [same, countP_append_quiet fun o member => (silent_parts (silent o member)).2.1]
  exact trying.budget

theorem Trying.of_eq (trying : Trying cfg t call id left s) (ledger : s'.ledger = s.ledger)
    (trace : s'.trace = s.trace) : Trying cfg t call id left s' := by
  obtain ⟨inv, row, alive⟩ := trying.row
  exact ⟨⟨inv, { row with found := ledger ▸ row.found }, alive⟩, trace ▸ trying.begun, trace ▸ trying.budget⟩

theorem Trying.rowOf (trying : Trying cfg t call id left s) : ∃ inv, RowOf t call id s inv :=
  trying.row.imp fun _ => And.left

theorem Trying.mono {left' : Nat} (trying : Trying cfg t call id left s) (less : left' ≤ left) :
    Trying cfg t call id left' s :=
  { trying with budget := le_trans (Nat.add_le_add_left less _) trying.budget }

/-- A failure of the row is excused: nothing was sent, or a runner reported it. -/
def Excused (call : Call) (id : InvocationID) (state : InvocationState) (s : State) : Prop :=
  state = .failed → call.tv.effectClass ≠ .readOnly →
    Unsent id s ∨ ∃ report, Reports id report s ∧ report.state = .failed

variable {state : InvocationState}

theorem Excused.rely (excused : Excused call id state s)
    (moved : Rely t s s') (owner : Owner t id s) : Excused call id state s' := by
  intro failed write
  rcases excused failed write with unsent | ⟨report, reports, state⟩
  · exact .inl (moved.unsent owner unsent)
  · exact .inr ⟨report, reports.moves moved.toMoves, state⟩

theorem Trying.unsent (trying : Trying cfg t call id (attempts cfg call.tv id) s) : Unsent id s := by
  have none : s.trace.countP (Obs.invokes id) = 0 := by
    have budget := trying.budget
    omega
  intro o member
  simpa using countP_eq_zero.mp none o member

/-! ### Terminal outcomes -/

/-- The row is the one the answer was made with, and what it reports a runner reported. -/
def Answered (id : InvocationID) (answer : Answer) (s : State) : Prop :=
  ∀ path resp, answer = .ok (path, resp) →
    (∃ inv, s.ledger.find id = some inv ∧ path.Recorded inv resp) ∧
    ∀ report, path = .reported report → Reports id report s

theorem answered_error {err : Err} : Answered id (.error err) s :=
  fun _ _ same => by cases same

section Finish

variable (row : ∃ inv, RowOf t call id s inv)

include row

theorem finish_wp {result refs error : Option JsonText} {path : Path} {resp : InvokeResponse}
    (terminal : state.isTerminal) (excused : Excused call id state s)
    (reported : ∀ report, path = .reported report → Reports id report s)
    (recorded : ∀ inv : Invocation, inv.id = id → inv.state.isTerminal →
      State.columns state result refs error = .ok inv.columns → path.Recorded inv resp) :
    Wp (baseRules cfg) t (finish id state result refs error path resp) (Answered id) s := by
  obtain ⟨inv, row⟩ := row
  refine bind (store_wp (fun s₁ moved base input => ?_) fun _ _ _ => answered_error)
  obtain ⟨inv₁, row₁⟩ := row.moves moved.toMoves
  obtain ⟨step, done⟩ := finish_step base row₁ terminal
    (excused.rely moved row.ownerOf) rfl
  refine ⟨step, ?_, fun _ => answered_error⟩
  split
  · exact answered_error
  rename_i ok
  intro path' resp' same
  cases same
  obtain ⟨inv', found, closed, wrote⟩ := done ok
  exact ⟨⟨inv', found, recorded inv' (Ledger.find_id found) closed wrote⟩, fun report same =>
    (reported report same).moves (moved.toMoves.trans step.2.1)⟩

theorem classifyAmbiguous_wp {reason : String} :
    Wp (baseRules cfg) t (classifyAmbiguous id call.tv reason) (Answered id) s := by
  refine finish_wp row ?_ (fun failed write => ?_) (nofun) ?_
  · cases call.tv.effectClass <;> rfl
  · -- only a read-only tool is classified as failed
    rcases kind : call.tv.effectClass with _ | _ | _
    · exact absurd kind write
    · rw [kind] at failed
      cases failed
    · rw [kind] at failed
      cases failed
  · rintro inv rfl closed wrote
    exact ⟨closed, wrote, rfl⟩

theorem finishFailed_wp {err : ErrorDetail} (unsent : Unsent id s) :
    Wp (baseRules cfg) t (finishFailed id err) (Answered id) s := by
  refine finish_wp row rfl (fun _ _ => .inl unsent) (nofun) ?_
  rintro inv rfl closed wrote
  exact ⟨closed, wrote, rfl⟩

theorem finishFromResult_wp {report : Report} (reports : Reports id report s) :
    Wp (baseRules cfg) t (finishFromResult cfg id call.tv report) (Answered id) s := by
  obtain ⟨inv, row⟩ := row
  refine bind (locally_wp fun s₁ moved base input => ⟨step_refl base, ?_⟩)
  have row := row.moves moved.toMoves
  have reports := reports.moves moved.toMoves
  split
  · exact classifyAmbiguous_wp row
  refine finish_wp row ?_ (fun failed _ => .inr ⟨report, reports, failed⟩)
    (fun report' same => by cases same; exact reports) ?_
  · obtain ⟨conn, msg, _, made⟩ := reports
    rcases dispatch_terminal made with state | state <;> rw [state] <;> rfl
  · rintro inv rfl closed wrote
    exact ⟨closed, wrote, rfl⟩

theorem abortAfterLeaseFailure_wp {reason : String} :
    Wp (baseRules cfg) t (abortAfterLeaseFailure id call.tv reason) (Answered id) s := by
  obtain ⟨inv, row⟩ := row
  refine bind (store_wp (fun s₁ moved base input => ⟨step_refl base, ?_, fun _ => ?_⟩)
    fun s₁ text moved => ?_)
  · have row := row.moves moved.toMoves
    split
    · exact classifyAmbiguous_wp row
    rename_i cur read
    split
    · rename_i closed
      intro path resp same
      cases same
      unfold getInvocation at read
      split at read
      · cases read
      rename_i found
      cases read
      exact ⟨⟨cur, found, closed, rfl⟩, nofun⟩
    · exact classifyAmbiguous_wp row
  · exact classifyAmbiguous_wp (row.moves moved.toMoves)
  · exact classifyAmbiguous_wp (row.moves moved.toMoves)

end Finish

/-! ### The retry loop -/

/-- A statement keeps the call going, and where it answers, the lease is renewed. -/
structure Renews (cfg : Config) (t : Nat) (call : Call) (id : InvocationID) (left : Nat) (s : State)
    (after : Except Err Unit × State) : Prop where
  step : (baseRules cfg).Step t s after.2
  trying : Trying cfg t call id left after.2
  renewed : after.1 = .ok () → Renewed id after.2.trace

section Trying

variable (trying : Trying cfg t call id left s)

include trying

/-- The statements of a lease write open rows only, and leave them open. -/
theorem Trying.renews {allowed : InvocationState → Bool} {f : Invocation → Invocation}
    {keeps : ∀ inv, (f inv).id = inv.id ∧ (f inv).key = inv.key} (base : Base cfg s)
    (opens : ∀ state, allowed state → state.isTerminal = false)
    (stays : ∀ inv, allowed inv.state → (f inv).state.isTerminal = false)
    (same : ∀ inv, (f inv).effectClass = inv.effectClass ∧ (f inv).owner = inv.owner) :
    Renews cfg t call id left s (renewing t id (s.updateInvocation id allowed f keeps)) := by
  obtain ⟨inv, row, alive⟩ := trying.row
  obtain ⟨step, row', sent, renewed⟩ := renewing_step base row alive opens stays same rfl
  exact ⟨step, ⟨row', step.2.1.trace.subset trying.begun, sent.symm ▸ trying.budget⟩, renewed⟩

theorem Trying.markRunning (base : Base cfg s) (lease : Int) :
    Renews cfg t call id left s (renewing t id (s.markRunning id lease)) := by
  refine trying.renews base (fun state dispatching => ?_) (fun _ _ => rfl) fun _ => ⟨rfl, rfl⟩
  rw [of_decide_eq_true dispatching]
  rfl

theorem Trying.renewDispatchLease (base : Base cfg s) (lease : Int) :
    Renews cfg t call id left s (renewing t id (s.renewDispatchLease id lease)) :=
  trying.renews base (fun _ live => by simpa using live) (fun _ live => by simpa using live)
    fun _ => ⟨rfl, rfl⟩

theorem renewDispatchLease_wp :
    Wp (baseRules cfg) t (renewDispatchLease cfg t call id)
    (fun answer s => Trying cfg t call id left s ∧ (answer = .ok () → Renewed id s.trace)) s := by
  have lost : ∀ {s : State} {err : Err}, Trying cfg t call id left s →
      Trying cfg t call id left s ∧ (Except.error err = Except.ok () → Renewed id s.trace) :=
    fun trying => ⟨trying, nofun⟩
  refine bind (store_wp (fun s₁ moved base input => ?_) fun s₁ text moved => lost (trying.rely moved))
  have first := (trying.rely moved).markRunning base
    (input.now + dispatchTimeout cfg call.tv + cfg.dispatchLease)
  refine ⟨first.step, ?_, fun _ => lost first.trying⟩
  split
  · rename_i ok
    exact ⟨first.trying, fun _ => first.renewed ok⟩
  · refine store_wp (fun s₂ moved base input => ?_) fun s₂ text moved =>
      lost (first.trying.rely moved)
    have second := (first.trying.rely moved).renewDispatchLease base
      (input.now + dispatchTimeout cfg call.tv + cfg.dispatchLease)
    exact ⟨second.step, ⟨second.trying, second.renewed⟩, fun _ => lost second.trying⟩
  · exact lost first.trying

end Trying

/-- A dispatch sends at most one Invoke, and what it reports a runner reported. -/
theorem dispatch_wp {i : Nat} (trying : Trying cfg t call id (left + 1) s)
    (renewed : Renewed id s.trace) :
    Wp (baseRules cfg) t (dispatch cfg t call i ⟨id, upstreamKey call id⟩)
      (fun result s => Trying cfg t call id left s ∧
        ∀ report, result = .reported report → Reports id report s) s := by
  refine bind (locally_wp fun s₁ moved base input => ?_)
  obtain ⟨inv₀, row₀, _⟩ := trying.row
  have renewed := moved.renewed row₀.ownerOf renewed
  have trying := trying.rely moved
  obtain ⟨step, awaits⟩ := enter_step (t := t) (i := i) (s := s₁) base
  have kept : Trying cfg t call id (left + 1) (s₁.enter i id).2 ∧ Renewed id (s₁.enter i id).2.trace := by
    unfold enter
    split
    · exact ⟨trying, renewed⟩
    · exact ⟨trying.of_eq rfl rfl, renewed⟩
  obtain ⟨trying, renewed⟩ := kept
  refine ⟨step, ?_⟩
  split
  · exact ⟨trying.mono (Nat.le_succ _), nofun⟩
  rename_i ch entered
  have awaits : Awaits ch id (s₁.enter i id).2 := awaits ch entered
  -- the rest leaves the connection and hands the result on
  have leaves : ∀ {s : State} (result : DispatchResult), Trying cfg t call id left s →
      (∀ report, result = .reported report → Reports id report s) →
      Wp (baseRules cfg) t (do
        locally fun _ s => ((), s.leave i id)
        return result : Program DispatchResult)
        (fun result s => Trying cfg t call id left s ∧
          ∀ report, result = .reported report → Reports id report s) s := by
    intro s result trying reports
    refine bind (locally_wp fun s₁ moved base input => ⟨?_, ?_, ?_⟩)
    · exact modifyConn_step base fun rc => filter_sublist.subset
    · exact (trying.rely moved).of_eq rfl rfl
    · intro report same
      obtain ⟨conn, msg, member, made⟩ := (reports report same).moves moved.toMoves
      exact ⟨conn, msg, member, made⟩
  refine bind (locally_wp fun s₂ moved base input => ?_)
  obtain ⟨inv₁, row₁, _⟩ := trying.row
  have renewed := moved.renewed row₁.ownerOf renewed
  have trying := trying.rely moved
  have awaits := awaits.moves moved.toMoves
  split
  · refine ⟨step_refl base, leaves _ (trying.mono (Nat.le_succ _)) fun _ same => ?_⟩
    cases same
  obtain ⟨inv, row, alive⟩ := trying.row
  have budget : s₂.trace.countP (Obs.invokes id) + 1 ≤ attempts cfg call.tv id := by
    have budget := trying.budget
    omega
  have step := invoked_step i base row trying.begun renewed budget alive
  have sent : Trying cfg t call id left
      (s₂.observe (.invoked t call i ⟨id, upstreamKey call id⟩)) := by
    refine ⟨⟨inv, { row with }, alive⟩, .tail _ trying.begun, ?_⟩
    have budget := trying.budget
    simp only [observe, countP_cons, Obs.invokes, decide_true, if_true]
    omega
  refine ⟨step, ?_⟩
  split
  · refine bind (atomic fun s₃ moved base input answer s₄ ran => ?_)
    have sent := sent.rely moved
    have awaits := awaits.moves (step.2.1.trans moved.toMoves)
    split at ran
    · obtain ⟨result, present, same⟩ := map_eq_some_iff.mp ran
      cases same
      refine ⟨step_refl base, leaves answer sent fun report same => ?_⟩
      subst same
      obtain ⟨c, found, waits⟩ := awaits
      rw [found] at present
      rw [← waits]
      exact base.results ch c report found present
    · split at ran
      · cases ran
        exact ⟨step_refl base, leaves _ sent nofun⟩
      · cases ran
    · cases ran
      exact ⟨step_refl base, leaves _ sent nofun⟩
  · exact leaves _ sent nofun

theorem dispatchToRunner_wp (trying : Trying cfg t call id (left + 1) s)
    (renewed : Renewed id s.trace) :
    Wp (baseRules cfg) t (dispatchToRunner cfg t call ⟨id, upstreamKey call id⟩)
      (fun result s => Trying cfg t call id left s ∧
        ∀ report, result = some (.reported report) → Reports id report s) s := by
  refine bind (locally_wp fun s₁ moved base input => ⟨step_refl base, ?_⟩)
  obtain ⟨inv, row, _⟩ := trying.row
  have renewed := moved.renewed row.ownerOf renewed
  have trying := trying.rely moved
  split
  · exact ⟨trying.mono (Nat.le_succ _), nofun⟩
  · refine (dispatch_wp trying renewed).andThen fun result s held => ?_
    exact ⟨held.1, fun report same => held.2 report (some.inj same)⟩

theorem dispatchLoop_wp (left : Nat) : ∀ {s : State}, Trying cfg t call id left s →
    Wp (baseRules cfg) t (dispatchLoop cfg t call id left) (Answered id) s := by
  induction left with
  | zero => exact fun trying => classifyAmbiguous_wp trying.rowOf
  | succ left ih =>
    intro s trying
    refine (renewDispatchLease_wp trying).andThen fun answer s held => ?_
    obtain ⟨trying, renewed⟩ := held
    split
    · exact abortAfterLeaseFailure_wp trying.rowOf
    refine (dispatchToRunner_wp trying (renewed rfl)).andThen fun result s held => ?_
    obtain ⟨trying, reports⟩ := held
    split
    · exact classifyAmbiguous_wp trying.rowOf
    · split
      · exact ih trying
      · exact classifyAmbiguous_wp trying.rowOf
    · exact finishFromResult_wp trying.rowOf (reports _ rfl)

/-! ### Calls -/

theorem execute_wp (trying : Trying cfg t call id (attempts cfg call.tv id) s) :
    Wp (baseRules cfg) t (execute cfg t call id) (Answered id) s := by
  have fails : ∀ {s : State} {err : ErrorDetail}, Trying cfg t call id (attempts cfg call.tv id) s →
      Wp (baseRules cfg) t (finishFailed id err) (Answered id) s := fun trying =>
    finishFailed_wp trying.rowOf trying.unsent
  refine bind (locally_wp fun s₁ moved base input => ⟨step_refl base, ?_⟩)
  have trying := trying.rely moved
  split
  · refine bind (locally_wp fun s₂ moved base input => ⟨step_refl base, ?_⟩)
    have trying := trying.rely moved
    split
    · exact fails trying
    · exact dispatchLoop_wp _ trying
  · exact fails trying

theorem beginInvocation_wp : Wp (baseRules cfg) t (beginInvocation cfg t call)
    (fun answer s => ∀ inv inserted, answer = .ok (inv, inserted) →
      (∃ inv', s.ledger.find inv.id = some inv') ∧
      (inserted = true → Trying cfg t call inv.id (attempts cfg call.tv inv.id) s)) s := by
  have lost : ∀ {s : State} {err : Err} (inv : Invocation) (inserted : Bool),
      (Except.error err : Except Err (Invocation × Bool)) = .ok (inv, inserted) →
      (∃ inv', s.ledger.find inv.id = some inv') ∧
      (inserted = true → Trying cfg t call inv.id (attempts cfg call.tv inv.id) s) :=
    nofun
  refine bind (store_wp (fun s₁ moved base input => ?_) fun _ _ _ => lost)
  obtain ⟨step, made⟩ := insert_step (t := t) base
  refine ⟨step, ?_, fun _ => lost⟩
  split
  · exact lost
  rename_i inserted answered
  refine store_wp (fun s₂ moved base input => ?_) fun _ _ _ => lost
  cases inserted with
  | none =>
    dsimp only
    split
    · exact ⟨step_refl base, lost, fun _ => lost⟩
    rename_i inv read
    refine ⟨observe_step base (fun _ => rfl) trivial, ?_, fun _ => lost⟩
    intro inv' inserted same
    cases same
    unfold getInvocationByKey at read
    split at read
    · cases read
    rename_i found
    cases read
    exact ⟨⟨inv, Ledger.findKey_find found⟩, nofun⟩
  | some id =>
    obtain ⟨⟨inv₀, row, alive⟩, fresh⟩ := made id answered
    obtain ⟨new, grown, silent⟩ := moved.new row.ownerOf
    dsimp only
    split
    · exact ⟨step_refl base, lost, fun _ => lost⟩
    rename_i inv read
    unfold getInvocation at read
    split at read
    · cases read
    rename_i found
    cases read
    obtain ⟨inv', row'⟩ := row.moves moved.toMoves
    cases found.symm.trans row'.found
    have here : inv.id = id := Ledger.find_id found
    subst here
    have untouched : ∀ o ∈ s₂.trace, o.acts inv.id = false := by
      intro o member
      rw [grown] at member
      rcases mem_append.mp member with late | early
      · exact silent o late
      · exact fresh o early
    have still := row.alive row' (moved.own _ row.ownerOf) alive
    refine ⟨begun_step base row' untouched, ?_, fun _ => lost⟩
    intro inv' inserted same
    cases same
    refine ⟨⟨inv, found⟩, fun _ => ⟨⟨inv, { row' with }, still⟩, .head _, ?_⟩⟩
    have none : (State.observe s₂ (.begun t call inv.id true)).trace.countP
        (Obs.invokes inv.id) = 0 := by
      rw [observe, countP_cons_of_neg (by simp [Obs.invokes])]
      exact countP_eq_zero.mpr fun o member => by
        simp [(silent_parts (untouched o member)).2.1]
    exact le_of_eq ((congrArg (· + _) none).trans (Nat.zero_add _))

theorem invokeTool_wp : Follows (baseRules cfg) t (invokeTool cfg t call) s := by
  refine beginInvocation_wp.andThen fun answer s held => ?_
  split
  · trivial
  · rename_i inv
    obtain ⟨⟨inv', found⟩, _⟩ := held _ _ rfl
    refine locally_wp fun s₁ moved base input => ⟨?_, trivial⟩
    obtain ⟨inv'', found', _⟩ := moved.rows _ _ found
    exact observe_step base (fun _ => rfl) ⟨⟨inv'', found', trivial⟩, nofun⟩
  · rename_i inv
    obtain ⟨_, trying⟩ := held _ _ rfl
    refine (execute_wp (trying rfl)).andThen fun answer s answered => ?_
    split
    · trivial
    rename_i path resp
    refine locally_wp fun s₁ moved base input => ⟨?_, trivial⟩
    have sound : Obs.Sound s (.responded t inv.id path resp) := answered path resp rfl
    exact observe_step base (fun _ => rfl)
      (sound.moves (moved.toMoves.trans (observe_moves _ _)))

/-! ### Runners, sweeps, restarts -/

theorem offers_step (entries : List (InvocationID × Nat)) : ∀ {s : State}, Base cfg s →
    (baseRules cfg).Step t s (entries.foldl (fun s entry => s.offer entry.2 .streamLost) s) := by
  induction entries with
  | nil => exact fun base => step_refl base
  | cons entry rest ih =>
    intro s base
    have step : (baseRules cfg).Step t s (s.offer entry.2 .streamLost) :=
      offer_step base fun _ _ _ same => by cases same
    exact step_trans step (ih step.1)

theorem teardown_wp {i : Nat} : Follows (baseRules cfg) t (teardown i) s := by
  refine bind (locally_wp fun s₁ _ base _ => ⟨modifyConn_step base fun _ => List.Subset.refl _, ?_⟩)
  refine bind (locally_wp fun s₂ _ base _ => ⟨?_, ?_⟩)
  · exact pool_step base rfl rfl (fun _ c found => ⟨c, found, rfl⟩) base.results base.pending
  · exact locally_wp fun s₃ _ base _ => ⟨offers_step _ base, trivial⟩

theorem recoverOrphanedInvocations_wp :
    Follows (baseRules cfg) t recoverOrphanedInvocations s := by
  refine bind (store_wp (fun s₁ _ base input => ⟨?_, ?_, fun _ => trivial⟩) fun _ _ _ => trivial)
  · exact recover_step base rfl fun effectClass only write => absurd (of_decide_eq_true only) write
  · refine bind (store_wp (fun s₂ _ base input => ⟨?_, trivial, fun _ => trivial⟩) fun _ _ _ => trivial)
    exact recover_step base rfl nofun

theorem receive_step {i : Nat} {msg : RunnerMessage} (base : Base cfg s)
    (arrived : .runner i msg ∈ s.trace) : (baseRules cfg).Step t s (s.receive i msg) := by
  have delivers : ∀ {id : InvocationID} {report : Report}, msg.dispatch = some (id, report) →
      (baseRules cfg).Step t s (s.deliver i id (.reported report)) := by
    intro id report made
    unfold deliver
    split
    · exact step_refl base
    rename_i id' ch found
    refine offer_step base fun c report' present same => ?_
    cases same
    obtain ⟨rc, conn, selected⟩ := bind_eq_some_iff.mp found
    obtain ⟨c', present', waits⟩ := base.pending i rc _ conn (mem_of_find?_eq_some selected)
    cases present.symm.trans present'
    have here : id' = id := by simpa using find?_some selected
    rw [waits]
    exact ⟨i, msg, arrived, made.trans (by rw [here])⟩
  cases msg with
  | register | retired => exact modifyConn_step base fun _ => List.Subset.refl _
  | invokeResult | invokeError => exact delivers rfl

theorem receive_observe (s : State) (i : Nat) (msg : RunnerMessage) (o : Obs) :
    (s.observe o).receive i msg = (s.receive i msg).observe o := by
  have delivers : ∀ id result, (s.observe o).deliver i id result = (s.deliver i id result).observe o := by
    intro id result
    simp only [deliver, observe]
    split <;> rfl
  cases msg with
  | register name digest => rfl
  | retired name digest => rfl
  | invokeResult | invokeError => exact delivers _ _

/-- **Every run of the gateway keeps the base invariant.** -/
theorem gateway_sound (cfg : Config) : (gateway cfg).Sound (baseRules cfg) where
  start := by
    intro request t s s' p base started
    replace started : startRequest cfg request t s = some (s', p) := started
    cases request with
    | invokeTool call =>
      cases started
      exact ⟨step_refl base, invokeTool_wp⟩
    | registerRunner runnerID =>
      cases started
      refine ⟨pool_step base rfl rfl (fun _ c found => ⟨c, found, rfl⟩) base.results ?_, trivial⟩
      intro i rc entry found member
      rcases getElem?_concat_cases found with old | ⟨_, rfl⟩
      · exact base.pending i rc entry old member
      · cases member
    | runnerMessage i msg =>
      simp only [startRequest] at started
      split at started
      · cases started
      cases started
      have step : (baseRules cfg).Step t s (s.observe (.runner i msg)) :=
        observe_step base (fun _ => rfl) trivial
      rw [← receive_observe]
      exact ⟨step_trans step (receive_step step.1 (.head _)), trivial⟩
    | runnerLost i =>
      simp only [startRequest] at started
      split at started
      · cases started
      · cases started
        exact ⟨step_refl base, teardown_wp⟩
    | sweep =>
      cases started
      exact ⟨step_refl base, recoverOrphanedInvocations_wp⟩
  restart := by
    intro s base
    have step : (baseRules cfg).Step 0 s (restartGateway s) := by
      refine pool_step base rfl rfl (fun _ c found => ⟨c, found, rfl⟩) base.results ?_
      intro i rc entry found member
      simp only [restartGateway, getElem?_map] at found
      obtain ⟨rc₀, found₀, rfl⟩ := map_eq_some_iff.mp found
      exact base.pending i rc₀ entry found₀ member
    exact step.1

def State.start : State := {}

theorem start_base (cfg : Config) : Base cfg State.start where
  sound := fun _ member => by cases member
  orderly := {
    begunOnce := fun _ => Nat.zero_le _
    renewed := fun newer _ _ _ _ _ split => by
      cases newer <;> cases split
    bounded := fun _ _ _ member => by cases member }
  failed := fun _ _ found => by cases found
  results := fun _ _ _ found => by cases found
  pending := fun _ _ _ found => by cases found

theorem reaches_base {guard : System.Guard Unit Input Request State} {c : Conc.Config Unit Input State}
    (reached : (gateway cfg).Reaches guard State.start c) : Base cfg c.shared :=
  (gateway_sound cfg).invariant (start_base cfg) reached

end Iterabase.Gateway
