/-
**The tool runner's executions — what a runner makes of an Invoke, and the gateway of its result.**

An execution of `runner.ts` waits for the semaphore, enters `module.invoke` and reports one result.

* `entered_write_not_failed` — **a write that was entered is not failed**, as long as `module.invoke`
  settles with a result that serialises or a typed `ToolError`, and no retry of it fails.
-/

import Iterabase.Gateway.Effects

namespace Iterabase.Gateway

open Conc Data List Option

/-! ### The runner -/

/-- `ToolErrorShape`, with what `safeJSON` makes of its details. -/
structure ToolErrorShape where
  code : String
  message : String
  retryable : Bool := false
  detailsJSON : String := ""

/-- What is thrown, as `typedToolError` reads it: no shape if it is not a `ToolError`. -/
abbrev Thrown := Option ToolErrorShape

/-- How `module.invoke` settles. What it resolves with is serialised after it. -/
inductive Settlement
  | resolved (resultJSON : Except Thrown ResultBytes) (artifactRefs : List ArtifactRef)
  | rejected (error : Thrown)

inductive Stage
  | waiting
  /-- `module.invoke` was entered. -/
  | invoking
  /-- The result was sent, after `module.invoke` settled or without it. -/
  | over (settled : Option Settlement) (sent : InvokeResult)

structure Execution where
  invocationID : InvocationID
  aborted : Bool := false
  timedOut : Bool := false
  stage : Stage := .waiting

inductive Execution.Event
  | cancel
  /-- The semaphore is acquired; `context` is what parsing the arguments and building the context
  throws. -/
  | acquire (descriptor active : Bool) (context : Option Thrown)
  | timeout
  | settle (settlement : Settlement)

namespace Execution

variable (e : Execution)

/-- The `catch` block. -/
def fail (settled : Option Settlement) (error : Thrown) : Stage :=
  let detail := error.getD
    (if e.timedOut then { code := "timeout", message := "tool invocation timed out" }
    else if e.aborted then { code := "canceled", message := "tool invocation canceled" }
    else { code := "internal", message := "trusted tool failed" })
  .over settled {
    invocationID := e.invocationID
    state := .failed
    error := some {
      code := detail.code
      message := detail.message
      retryability := if detail.retryable then .retryable else .nonRetryable
      detailsJSON := detail.detailsJSON } }

def acquired (descriptor active : Bool) (context : Option Thrown) : Stage :=
  if e.aborted then
    e.fail none (some { code := "canceled", message := "tool invocation canceled" })
  else if !descriptor then
    e.fail none (some { code := "invalid_dispatch", message := "invoke has no descriptor" })
  else if !active then
    e.fail none (some { code := "tool_unavailable", message := "pinned tool version is not loaded" })
  else match context with
    | some error => e.fail none error
    | none => .invoking

def settle (settlement : Settlement) : Stage :=
  match settlement with
  | .resolved (.ok resultJSON) artifactRefs => .over (some settlement) {
      invocationID := e.invocationID
      state := .succeeded
      resultJSON := resultJSON
      artifactOutputRefs := artifactRefs }
  | .resolved (.error error) _ | .rejected error => e.fail (some settlement) error

/-- `execute`, from one suspension to the next. -/
def execute (event : Event) : Option Execution :=
  match e.stage, event with
  | .waiting, .cancel | .invoking, .cancel => some { e with aborted := true }
  | .waiting, .acquire descriptor active context =>
      some { e with stage := e.acquired descriptor active context }
  | .invoking, .timeout => some { e with aborted := true, timedOut := true }
  | .invoking, .settle settlement => some { e with stage := e.settle settlement }
  | _, _ => none

abbrev Ran : Prop :=
  Reach execute (fun _ _ => True) { invocationID := e.invocationID } e

def entered : Bool :=
  match e.stage with
  | .waiting => false
  | .invoking => true
  | .over settled _ => settled.isSome

def sent : Option InvokeResult :=
  match e.stage with
  | .over _ sent => some sent
  | _ => none

def failed : Bool := e.sent.any (·.state = .failed)

/-- `module.invoke` itself rejected with a typed `ToolError`. -/
def rejectedTyped : Bool :=
  match e.stage with
  | .over (some (.rejected (some _))) _ => true
  | _ => false

/-- `module.invoke`, if it has settled, resolved with a result that serialises or rejected with a typed
`ToolError`. -/
def settlesCleanly : Bool :=
  match e.stage with
  | .over (some (.rejected none)) _ | .over (some (.resolved (.error _) _)) _ => false
  | _ => true

end Execution

/-- An execution reports its own invocation, and what it resolved with as a success. -/
def Stage.Sound (id : InvocationID) : Stage → Prop
  | .over settled sent => sent.invocationID = id ∧ (sent.state = .succeeded ∨ sent.state = .failed ∧
      ∀ resultJSON artifactRefs, settled ≠ some (.resolved (.ok resultJSON) artifactRefs))
  | _ => True

namespace Execution

variable {e e' : Execution}

theorem execute_sound {event : Event} (sound : e.stage.Sound e.invocationID)
    (moved : e.execute event = some e') : e'.stage.Sound e'.invocationID := by
  unfold execute at moved
  split at moved
  · cases moved
    exact sound
  · cases moved
    exact sound
  · cases moved
    simp only [acquired]
    repeat' split
    all_goals first | trivial | exact ⟨rfl, .inr ⟨rfl, fun _ _ => nofun⟩⟩
  · cases moved
    exact sound
  · cases moved
    simp only [settle]
    split
    · exact ⟨rfl, .inl rfl⟩
    all_goals exact ⟨rfl, .inr ⟨rfl, fun _ _ => nofun⟩⟩
  · cases moved

theorem Ran.sound (ran : e.Ran) : e.stage.Sound e.invocationID :=
  ran.invariant (I := fun e => e.stage.Sound e.invocationID) trivial
    fun _ _ _ sound _ moved => execute_sound sound moved

/-- An execution that entered `module.invoke` has not failed, if `module.invoke` keeps to its part. -/
theorem Ran.unfailed (ran : e.Ran) (entered : e.entered) (untyped : e.rejectedTyped = false)
    (clean : e.settlesCleanly) : e.failed = false := by
  have sound := ran.sound
  unfold failed sent
  split
  · rename_i settled sent ended
    simp only [Execution.entered, rejectedTyped, settlesCleanly, ended] at entered untyped clean
    rw [ended] at sound
    rcases sound.2 with state | ⟨_, unresolved⟩
    · simp [state]
    rcases settled with _ | ((_ | json) | (_ | _))
    · cases entered
    · cases clean
    · exact absurd rfl (unresolved json _)
    · cases clean
    · cases untyped
  · rfl

end Execution

/-! ### Runner and gateway -/

/-- Every result the gateway received was sent by an execution, of an Invoke sent before. -/
def explained (executions : List Execution) : List Obs → Bool
  | [] => true
  | o :: older => (match o with
      | .runner _ msg => msg.dispatch.isNone || executions.any fun e =>
          e.sent.map .invokeResult = some msg && older.any (Obs.invokes e.invocationID)
      | _ => true) && explained executions older

theorem sent_of_explained {executions : List Execution} {conn : Nat} {msg : RunnerMessage}
    (reports : msg.dispatch.isSome) {trace : List Obs} (explains : explained executions trace)
    (member : .runner conn msg ∈ trace) :
    ∃ e ∈ executions, ∃ sent, e.sent = some sent ∧ .invokeResult sent = msg := by
  induction trace with
  | nil => cases member
  | cons o older ih =>
    obtain ⟨newest, others⟩ := Bool.and_eq_true_iff.mp explains
    rcases mem_cons.mp member with rfl | member
    · rcases Bool.or_eq_true_iff.mp newest with silent | sends
      · rw [isNone_iff_eq_none.mp silent] at reports
        cases reports
      · obtain ⟨e, among, holds⟩ := any_eq_true.mp sends
        have same := of_decide_eq_true (Bool.and_eq_true_iff.mp holds).1
        exact ⟨e, among, map_eq_some_iff.mp same⟩
    · exact ih others member

/-- A run of the gateway with the executions of its runners. A result may be lost with its stream. -/
structure Composed (cfg : Config) (executions : List Execution) (c : Conc.Config Unit Input State) :
    Prop where
  gateway : (gateway cfg).Reaches .free State.start c
  ran : ∀ e ∈ executions, e.Ran
  invoked : ∀ e ∈ executions, ∃ o ∈ c.shared.trace, o.invokes e.invocationID
  results : explained executions c.shared.trace

variable {cfg : Config} {executions : List Execution} {c : Conc.Config Unit Input State}

/-- A write is failed only if an execution of it reported that. -/
theorem Composed.failed (composed : Composed cfg executions c) {id : InvocationID} {inv : Invocation}
    (sent : ∃ o ∈ c.shared.trace, o.invokes id) (found : c.shared.ledger.find id = some inv)
    (failed : inv.FailedWrite) : ∃ e ∈ executions, e.invocationID = id ∧ e.failed := by
  rcases (reaches_base composed.gateway).failed id inv found failed with
    unsent | ⟨report, ⟨conn, msg, member, made⟩, state⟩
  · obtain ⟨o, member, invokes⟩ := sent
    rw [unsent o member] at invokes
    cases invokes
  obtain ⟨e, among, result, sends, rfl⟩ :=
    sent_of_explained (by rw [made]; rfl) composed.results member
  cases made
  have sound := (composed.ran e among).sound
  unfold Execution.failed
  unfold Execution.sent at sends
  split at sends
  · rename_i ended
    cases sends
    rw [ended] at sound
    refine ⟨e, among, sound.1.symm, ?_⟩
    rcases sound.2 with succeeded | ⟨fails, _⟩
    · simp only [invokeResultToDispatch, succeeded] at state
      cases state
    · simp [Execution.sent, ended, fails]
  · cases sends

/-- **No write that was entered and did not reject with a typed `ToolError` is called failed**, at every
timing of the runner's timeout, of a Cancel, of the settling of `module.invoke` and of the loss of the
stream, provided that it settles with a result that serialises or with a `ToolError`, and that no other
execution of the invocation, which a retry starts, fails. -/
theorem entered_write_not_failed (composed : Composed cfg executions c) {e : Execution}
    (among : e ∈ executions) {inv : Invocation}
    (found : c.shared.ledger.find e.invocationID = some inv) (write : inv.effectClass ≠ .readOnly)
    (entered : e.entered) (untyped : e.rejectedTyped = false) (clean : e.settlesCleanly)
    (retries : ∀ e' ∈ executions, e'.invocationID = e.invocationID → e' ≠ e → e'.failed = false) :
    inv.state ≠ .failed ∧
      (inv.state.isTerminal → inv.state = .succeeded ∨ inv.state = .outcomeUnknown) := by
  have unfailed : inv.state ≠ .failed := by
    intro failed
    obtain ⟨e', among', same, fails⟩ :=
      composed.failed (composed.invoked e among) found ⟨write, failed⟩
    have spared : e'.failed = false := by
      by_cases here : e' = e
      · rw [here]
        exact (composed.ran e among).unfailed entered untyped clean
      · exact retries e' among' same here
    rw [spared] at fails
    cases fails
  refine ⟨unfailed, fun terminal => ?_⟩
  cases state : inv.state with
  | succeeded => exact .inl rfl
  | outcomeUnknown => exact .inr rfl
  | failed => exact absurd state unfailed
  | _ =>
    rw [state] at terminal
    cases terminal

/-- The execution of a write that is settled after its timeout. -/
def settledLate (settlement : Settlement) : Execution :=
  let e : Execution :=
    { invocationID := "inv", aborted := true, timedOut := true, stage := .invoking }
  { e with stage := e.settle settlement }

/-- Its result reaches the gateway. -/
def reportsLate (settlement : Settlement) : List (Move Input Request) :=
  sendsInvoke .nonIdempotentWrite ++
    ((settledLate settlement).sent.map fun r => .start (.runnerMessage 0 (.invokeResult r))).toList ++
    List.replicate 4 (.run 2 {})

theorem composed_late (settlement : Settlement) (state : InvocationState)
    (ran : (replay (gateway {}).next System.Guard.free.Admits ⟨State.start, []⟩
      (reportsLate settlement)).any fun c => decide (
        ((c.shared.ledger.find "inv").any fun inv =>
          inv.effectClass = .nonIdempotentWrite ∧ inv.state = state) ∧
        (∃ o ∈ c.shared.trace, o.invokes "inv") ∧
        explained [settledLate settlement] c.shared.trace)) :
    ∃ c inv, Composed {} [settledLate settlement] c ∧
      c.shared.ledger.find (settledLate settlement).invocationID = some inv ∧
      inv.effectClass = .nonIdempotentWrite ∧ inv.state = state := by
  obtain ⟨c, reached, row, sent, results⟩ := reach_of_replay _ _ _ _ _ ran
  obtain ⟨inv, found, holds⟩ := (any_eq_true _ _).mp row
  refine ⟨c, inv, ⟨reached, ?_, ?_, results⟩, found, of_decide_eq_true holds⟩
  · intro e among
    cases mem_singleton.mp among
    exact .of_replay [.acquire true true none, .timeout, .settle settlement] .start rfl
  · intro e among
    cases mem_singleton.mp among
    exact sent

/-- The tool resolves after its timeout: the write has succeeded. -/
theorem entered_write_not_failed_late : ∃ e c inv, Composed {} [e] c ∧ e.entered ∧ e.timedOut ∧
    c.shared.ledger.find e.invocationID = some inv ∧ inv.state = .succeeded ∧ inv.state ≠ .failed := by
  obtain ⟨c, inv, composed, found, write, succeeded⟩ :=
    composed_late (.resolved (.ok ⟨4, some .null, true⟩) []) .succeeded (by decide +kernel)
  refine ⟨_, c, inv, composed, rfl, rfl, found, succeeded, (entered_write_not_failed composed
    (mem_singleton_self _) found (by rw [write]; decide) rfl rfl rfl ?_).1⟩
  exact fun e' among _ other => absurd (mem_singleton.mp among) other

/-- **A write that was entered is called failed.** The runner's timeout aborts the tool, which rejects
with an error of its own, and the runner reports a failure. -/
theorem entered_write_called_failed : ¬ ∀ (cfg : Config) (executions : List Execution)
    (c : Conc.Config Unit Input State) (e : Execution) (inv : Invocation),
    Composed cfg executions c → e ∈ executions →
    c.shared.ledger.find e.invocationID = some inv → inv.effectClass ≠ .readOnly →
    e.entered → e.rejectedTyped = false → inv.state ≠ .failed := by
  intro claim
  obtain ⟨c, inv, composed, found, write, failed⟩ :=
    composed_late (.rejected none) .failed (by decide +kernel)
  exact claim {} _ c _ inv composed (mem_singleton_self _) found (by rw [write]; decide) rfl rfl
    failed

end Iterabase.Gateway
