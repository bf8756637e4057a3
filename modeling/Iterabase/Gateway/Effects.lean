/-
**The tool gateway — at most once, and no write that may have happened is called failed.**

* `at_most_once` — **it holds of every key in every run.**
-/

import Iterabase.Gateway.Sound

namespace Iterabase.Gateway

open Conc Data State List

variable {cfg : Config} {c : Conc.Config Unit Input State}

/-! ### At most once -/

def Obs.beginsKey (key : InvocationKey) : Obs → Bool
  | .begun _ call _ true => call.key = key
  | _ => false

def Obs.invokesKey (key : InvocationKey) : Obs → Bool
  | .invoked _ call _ _ => call.key = key
  | _ => false

/-- The Invokes that may be sent for one row. -/
def allowance (cfg : Config) : EffectClass → Nat
  | .nonIdempotentWrite => 1
  | .readOnly | .idempotentWrite => (max 1 cfg.retryMaxAttempts).toNat

/-- **The effect boundary of one ledger key.** -/
structure AtMostOnce (cfg : Config) (key : InvocationKey) (trace : List Obs) : Prop where
  inserted : trace.countP (Obs.beginsKey key) ≤ 1
  /-- Only the call that inserted the row sends, and it sends the row's id. -/
  sender : ∀ thread call conn invoke, .invoked thread call conn invoke ∈ trace → call.key = key →
    .begun thread call invoke.invocationID true ∈ trace
  bounded : ∀ thread call id, .begun thread call id true ∈ trace → call.key = key →
    trace.countP (Obs.invokesKey key) ≤ allowance cfg call.tv.effectClass
  sameID : ∀ thread call conn invoke thread' call' conn' invoke',
    .invoked thread call conn invoke ∈ trace → call.key = key →
    .invoked thread' call' conn' invoke' ∈ trace → call'.key = key →
      invoke.invocationID = invoke'.invocationID
  upstream : ∀ thread call conn invoke, .invoked thread call conn invoke ∈ trace → call.key = key →
    call.tv.effectClass = .idempotentWrite → invoke.idempotencyKey = invoke.invocationID
  /-- The lease was renewed for this Invoke, and the row was not terminal before that. -/
  leased : ∀ newer thread call conn invoke older,
    trace = newer ++ .invoked thread call conn invoke :: older → call.key = key →
      Renewed invoke.invocationID older

theorem attempts_le (cfg : Config) (tv : ToolVersion) (id : InvocationID) :
    attempts cfg tv id ≤ allowance cfg tv.effectClass := by
  unfold attempts
  split
  · rename_i retries
    have bound : (if cfg.retryMaxAttempts < 1 then 1 else cfg.retryMaxAttempts.toNat) ≤
        (max 1 cfg.retryMaxAttempts).toNat := by
      split <;> omega
    rcases kind : tv.effectClass with _ | _ | _
    · exact bound
    · exact bound
    · simp [canRetry, kind] at retries
  · have one : 1 ≤ (max 1 cfg.retryMaxAttempts).toNat := by omega
    rcases tv.effectClass with _ | _ | _
    · exact one
    · exact one
    · exact le_refl _

theorem RowOf.one_id {s : State} {thread thread' : Nat} {call call' : Call}
    {id id' : InvocationID} {inv inv' : Invocation} (row : RowOf thread call id s inv)
    (row' : RowOf thread' call' id' s inv') (same : call.key = call'.key) : id = id' := by
  have one := Ledger.key_unique row.found row'.found
    (row.key.trans (same.trans row'.key.symm))
  rw [← Ledger.find_id row.found, ← Ledger.find_id row'.found, one]

/-- **At-most-once effects.** In every run of the gateway, under any interleaving of calls, runner
losses, timeouts, sweeps, store faults and restarts. -/
theorem at_most_once (reached : (gateway cfg).Reaches .free State.start c) (key : InvocationKey) :
    AtMostOnce cfg key c.shared.trace := by
  have base := reaches_base reached
  have invokedRow : ∀ {thread call conn invoke}, .invoked thread call conn invoke ∈ c.shared.trace →
      ∃ inv, RowOf thread call invoke.invocationID c.shared inv :=
    fun member => (base.sound _ member).1
  refine ⟨?_, ?_, ?_, ?_, ?_, ?_⟩
  · rcases Nat.eq_zero_or_pos (c.shared.trace.countP (Obs.beginsKey key)) with none | some
    · rw [none]
      exact Nat.zero_le 1
    · obtain ⟨o, member, begins⟩ := countP_pos_iff.mp some
      obtain ⟨thread, call, id, rfl, rfl⟩ : ∃ thread call id, o = .begun thread call id true ∧
          call.key = key := by
        cases o with
        | begun thread call id inserted =>
          cases inserted with
          | true => exact ⟨thread, call, id, rfl, of_decide_eq_true begins⟩
          | false => cases begins
        | _ => cases begins
      obtain ⟨inv, row⟩ := base.sound _ member
      refine le_trans (countP_mono_left fun o' member' begins' => ?_) (base.orderly.begunOnce id)
      cases o' with
      | begun thread' call' id' inserted =>
        cases inserted with
        | true =>
          obtain ⟨inv', row'⟩ := base.sound _ member'
          exact decide_eq_true (row'.one_id row (of_decide_eq_true begins'))
        | false => cases begins'
      | _ => cases begins'
  · exact fun thread call conn invoke member _ => (base.sound _ member).2.1
  · intro thread call id begun here
    obtain ⟨inv, row⟩ := base.sound _ begun
    refine le_trans (le_trans (countP_mono_left fun o member invokes => ?_)
      (base.orderly.bounded thread call id begun)) (attempts_le cfg call.tv id)
    cases o with
    | invoked thread' call' conn invoke =>
      obtain ⟨inv', row'⟩ := invokedRow member
      exact decide_eq_true (row'.one_id row ((of_decide_eq_true invokes).trans here.symm))
    | _ => cases invokes
  · intro thread call conn invoke thread' call' conn' invoke' member here member' here'
    obtain ⟨inv, row⟩ := invokedRow member
    obtain ⟨inv', row'⟩ := invokedRow member'
    exact row.one_id row' (here.trans here'.symm)
  · intro thread call conn invoke member _ write
    rw [(base.sound _ member).2.2, upstreamKey, if_pos write]
  · exact fun newer thread call conn invoke older split _ =>
      base.orderly.renewed newer thread call conn invoke older split

def callOf (effectClass : EffectClass) : Call where
  attemptID := "run"
  callerScope := .turn
  callerScopeID := "turn"
  toolCallID := "call"
  idempotencyKey := "key"
  tv := { name := "tool", digest := "digest", effectClass, idempotencyProof := "proof" }

def serveTool : List (Move Input Request) :=
  [.start (.registerRunner "runner"), .start (.runnerMessage 0 (.register "tool" "digest"))]

/-- The call of thread 2 inserts the row `inv`, and an Invoke of it enters the runner's stream. -/
def sendsInvoke (effectClass : EffectClass) : List (Move Input Request) :=
  serveTool ++ .start (.invokeTool (callOf effectClass)) :: .run 2 { uuid := "inv" } ::
    replicate 7 (.run 2 {})

def sendsAgain : List (Move Input Request) := .run 2 { wait := .timeout } :: replicate 6 (.run 2 {})

/-- A proven idempotent write is sent twice, under one id and one key. -/
theorem at_most_once_retried : ∃ c, (gateway {}).Reaches .free State.start c ∧
    c.shared.trace.countP (Obs.invokesKey (callOf .idempotentWrite).key) = 2 ∧
    AtMostOnce {} (callOf .idempotentWrite).key c.shared.trace := by
  exact reach_of_replay_and (sendsInvoke .idempotentWrite ++ sendsAgain) (by decide +kernel)
    fun reached _ => at_most_once reached _

/-! ### Writes that may have happened -/

/-- The runner reported a failure of the invocation. -/
def Obs.reportsFailure (id : InvocationID) : Obs → Bool
  | .runner _ (.invokeResult r) => r.invocationID = id ∧ r.state = .failed
  | .runner _ (.invokeError id' _) => id' = id
  | _ => false

/-- The runner reported a result of the invocation that is neither a success nor a failure. -/
def Obs.reportsOther (id : InvocationID) : Obs → Bool
  | .runner _ (.invokeResult r) => r.invocationID = id ∧ r.state ≠ .succeeded ∧ r.state ≠ .failed
  | _ => false

/-- A result is taken for a failure only where the runner reported one, or no outcome at all. -/
theorem dispatch_failed (conn : Nat) {msg : RunnerMessage} {id : InvocationID} {report : Report}
    (made : msg.dispatch = some (id, report)) (failed : report.state = .failed) :
    (Obs.runner conn msg).reportsFailure id ∨ (Obs.runner conn msg).reportsOther id := by
  cases msg with
  | invokeResult r =>
    cases made
    by_cases failure : r.state = .failed
    · exact .inl (decide_eq_true ⟨rfl, failure⟩)
    refine .inr (decide_eq_true ⟨rfl, fun success => ?_, failure⟩)
    simp only [invokeResultToDispatch, success] at failed
    cases failed
  | invokeError id' err =>
    cases made
    exact .inl (decide_eq_true rfl)
  | register | retired => cases made

/-- **A write that may have happened is not called failed.** Where the runners report nothing but success or
failure of the invocation, a write whose Invoke entered a stream is failed only if a runner reported it. -/
theorem write_not_failed (reached : (gateway cfg).Reaches .free State.start c) {id : InvocationID}
    {inv : Invocation} (found : c.shared.ledger.find id = some inv)
    (write : inv.effectClass ≠ .readOnly) (sent : ∃ o ∈ c.shared.trace, o.invokes id)
    (unreported : ∀ o ∈ c.shared.trace, o.reportsFailure id = false)
    (decisive : ∀ o ∈ c.shared.trace, o.reportsOther id = false) : inv.state ≠ .failed := by
  intro failed
  have base := reaches_base reached
  rcases base.failed id inv found ⟨write, failed⟩ with unsent | ⟨report, ⟨conn, msg, member, made⟩, state⟩
  · obtain ⟨o, member, invokes⟩ := sent
    rw [unsent o member] at invokes
    cases invokes
  · rcases dispatch_failed conn made state with failure | other
    · rw [unreported _ member] at failure
      cases failure
    · rw [decisive _ member] at other
      cases other

/-- A write is sent, its stream is lost, and its outcome is unknown. -/
theorem write_not_failed_lost : ∃ c inv, (gateway {}).Reaches .free State.start c ∧
    c.shared.ledger.find "inv" = some inv ∧ inv.state = .outcomeUnknown ∧ inv.state ≠ .failed := by
  obtain ⟨c, reached, ⟨inv, found, kind, unknown⟩, sent, unreported, decisive⟩ :=
    (gateway {}).reaches_of_replay .free State.start
    (sendsInvoke .nonIdempotentWrite ++ .start (.runnerLost 0) ::
      replicate 3 (.run 3 {}) ++ replicate 4 (.run 2 {}))
    (fun s => (∃ inv ∈ s.ledger.find "inv", inv.effectClass = .nonIdempotentWrite ∧
        inv.state = .outcomeUnknown) ∧ (∃ o ∈ s.trace, o.invokes "inv") ∧
      (∀ o ∈ s.trace, o.reportsFailure "inv" = false) ∧ ∀ o ∈ s.trace, o.reportsOther "inv" = false)
    (by decide +kernel)
  exact ⟨c, inv, reached, found, unknown,
    write_not_failed reached found (by rw [kind]; decide) sent unreported decisive⟩

/-- **A write that may have happened is called failed.** Its runner reports it running, and the gateway
takes that for a failure. -/
theorem write_called_failed : ¬ ∀ (cfg : Config) (c : Conc.Config Unit Input State)
    (id : InvocationID) (inv : Invocation), (gateway cfg).Reaches .free State.start c →
    c.shared.ledger.find id = some inv → inv.effectClass ≠ .readOnly →
    (∃ o ∈ c.shared.trace, o.invokes id) → (∀ o ∈ c.shared.trace, o.reportsFailure id = false) →
      inv.state ≠ .failed := by
  intro claim
  obtain ⟨c, reached, ⟨inv, found, kind, failed⟩, sent, unreported⟩ :=
    (gateway {}).reaches_of_replay .free State.start
    (sendsInvoke .nonIdempotentWrite ++
      .start (.runnerMessage 0 (.invokeResult { invocationID := "inv", state := .running })) ::
      replicate 4 (.run 2 {}))
    (fun s => (∃ inv ∈ s.ledger.find "inv", inv.effectClass = .nonIdempotentWrite ∧
        inv.state = .failed) ∧ (∃ o ∈ s.trace, o.invokes "inv") ∧
      ∀ o ∈ s.trace, o.reportsFailure "inv" = false)
    (by decide +kernel)
  exact claim {} c "inv" inv reached found (by rw [kind]; decide) sent unreported failed

end Iterabase.Gateway
