/-
**The tool gateway — what a duplicate call is told.**

The call that executes an invocation answers from what it just did; a later call with the same key
answers from the row.
-/

import Iterabase.Gateway.Effects

namespace Iterabase.Gateway

open Conc Data Option State ErrorDetail

variable {cfg : Config} {c : Conc.Config Unit Input State}

/-! ### Responses -/

def InvokeResponse.errorDetail (resp : InvokeResponse) : ErrorDetail := resp.error.getD {}

/-- Two responses tell a caller the same. -/
structure InvokeResponse.Same (resp resp' : InvokeResponse) : Prop where
  state : resp.state = resp'.state
  resultJSON : resp.resultJSON = resp'.resultJSON
  artifactOutputRefs : resp.artifactOutputRefs = resp'.artifactOutputRefs
  code : resp.errorDetail.code = resp'.errorDetail.code
  message : resp.errorDetail.message = resp'.errorDetail.message
  retryability : resp.errorDetail.retryability = resp'.errorDetail.retryability

/-- The error that the live response of a failed tool carries. -/
def toolFailed (detailsJSON : String) : ErrorDetail :=
  { code := "tool_failed", message := "tool execution failed", retryability := .unknown, detailsJSON }

/-- **The paths whose response a duplicate gets too**: not `finishFailed`, whose errors all carry a
retryability, and a runner's failure only if it reported the very error of the live response. -/
def Path.Replays : Path → Prop
  | .failed err => err.retryability = .unspecified
  | .reported r => r.state = .succeeded ∨
      ∃ detailsJSON, r.errorDetail = some (mustMarshalError (some (toolFailed detailsJSON)))
  | .duplicate | .ambiguous _ _ | .committed => True

open Gateway.Path

/-! ### What is read back -/

theorem jsonbParam_value {column : String} {text : Option JsonText} {value : Option Json}
    (written : jsonbParam column text = .ok value) : value = text.bind JsonText.value := by
  unfold jsonbParam at written
  split at written
  · cases written
    rfl
  split at written
  · cases written
  rename_i held
  cases written
  unfold JsonText.column at held
  split at held
  · exact held.symm
  · cases held

/-- An error without a retryability is read back as it was. -/
theorem parseError_plain (err : ErrorDetail) (unset : err.retryability.number = 0) :
    parseError (some err.json) = some { err with retryability := .unspecified } := by
  obtain ⟨code, message, retryability, detailsJSON⟩ := err
  have fields : parseErrorFields (omitEmpty "code" code ++ omitEmpty "message" message ++ [] ++
      omitEmpty "details_json" detailsJSON) = some ⟨code, message, .unspecified, detailsJSON⟩ := by
    unfold omitEmpty
    split <;> split <;> split <;> subst_vars <;> rfl
  simp only [json, if_pos unset, parseError]
  exact fields

theorem parseError_struct_retryability (err : ErrorDetail) :
    ((parseError (some err.json)).getD {}).retryability = .unspecified := by
  by_cases set : err.retryability.number = 0
  · rw [parseError_plain err set]
    rfl
  · rw [parseError_struct set]
    rfl

theorem parseRetryability_unknown {retryability : Retryability}
    (read : parseRetryability (retryabilityToStorage retryability) = .unknown) :
    retryability = .unknown := by
  cases retryability with
  | unknown => rfl
  | _ => cases read

/-! ### Replays -/

variable {msg : RunnerMessage} {id : InvocationID} {report : Report} {thread : Nat} {o : Obs}

theorem dispatch_detail (made : msg.dispatch = some (id, report))
    (failed : report.state ≠ .succeeded) :
    report.state = .failed ∧ ∃ err, report.errorDetail = some (mustMarshalError err) := by
  have state := (dispatch_terminal made).resolve_left failed
  refine ⟨state, ?_⟩
  cases msg with
  | invokeResult r =>
    cases made
    unfold invokeResultToDispatch at failed ⊢
    split
    · rename_i success
      simp only [success] at failed
      exact absurd rfl failed
    · exact ⟨_, rfl⟩
    · exact ⟨_, rfl⟩
  | invokeError id' err =>
    cases made
    exact ⟨err, rfl⟩
  | register | retired => cases made

variable {inv : Invocation}

theorem failed_same_iff {err : ErrorDetail} (written : (failed err).columns = .ok inv.columns) :
    (invocationToResponse inv).Same ((failed err).response inv.id) ↔ err.retryability =
    .unspecified := by
  obtain ⟨result, refs, error, state⟩ := columns_eq_ok.mp written
  have refs := some.inj (jsonbParam_value refs)
  have error := jsonbParam_value error
  simp only [Invocation.columns] at refs error state
  simp only [invocationToResponse, state, refs, error, response]
  constructor
  · intro same
    have read := same.retryability
    exact read.symm.trans (parseError_struct_retryability err)
  · intro unset
    have read := parseError_plain err (by rw [unset]; rfl)
    have same : (parseError (some err.json)).getD {} = err := by
      rw [read, ← unset]
      rfl
    exact ⟨rfl, rfl, rfl, congrArg code same, congrArg message same,
      congrArg retryability same⟩

theorem ambiguous_same {effectClass : EffectClass} {reason : String}
    (written : (ambiguous effectClass reason).columns = .ok inv.columns) :
    (invocationToResponse inv).Same ((ambiguous effectClass reason).response inv.id) := by
  obtain ⟨result, refs, error, state⟩ := columns_eq_ok.mp written
  have refs := some.inj (jsonbParam_value refs)
  have error := jsonbParam_value error
  simp only [Invocation.columns] at refs error state
  rcases effectClass with _ | _ | _ <;>
    simp only [invocationToResponse, state, refs, error, response, ambiguousState,
      ambiguousResponse] <;>
    exact ⟨rfl, rfl, rfl, rfl, rfl, rfl⟩

theorem reported_same_iff (made : msg.dispatch = some (id, report))
    (written : (reported report).columns = .ok inv.columns) :
    (invocationToResponse inv).Same ((reported report).response inv.id) ↔
    (reported report).Replays := by
  obtain ⟨result, refs, error, state⟩ := columns_eq_ok.mp written
  have result := jsonbParam_value result
  have refs := jsonbParam_value refs
  have error := jsonbParam_value error
  simp only [Invocation.columns] at result refs error state
  have sameRefs : parseArtifactRefs (some inv.artifactOutputRefs) = report.refs := by
    rw [refs]
    rfl
  by_cases success : report.state = .succeeded
  · simp only [invocationToResponse, state, success, sameRefs, response, reportResponse, if_true,
      result, Path.Replays, true_or, iff_true]
    exact ⟨rfl, rfl, rfl, rfl, rfl, rfl⟩
  obtain ⟨failed, err, detail⟩ := dispatch_detail made success
  have stored : inv.error = some (errorJSON err) := by
    rw [error, detail]
    rfl
  simp only [invocationToResponse, state, failed, sameRefs, stored, response, reportResponse,
    Path.Replays, detail, if_neg (show ¬ InvocationState.failed = .succeeded by decide)]
  cases err with
  | none =>
    refine ⟨fun same => ?_, fun replays => ?_⟩
    · have code : "" = "tool_failed" := same.code
      exact absurd code (by decide)
    · rcases replays with absurd | ⟨_, same⟩
      · cases absurd
      · cases same
  | some err =>
    refine ⟨fun same => .inr ⟨err.detailsJSON, ?_⟩, fun replays => ?_⟩
    · obtain ⟨code, message, retryability, detailsJSON⟩ := err
      have code' : code = "tool_failed" := same.code
      have message' : message = "tool execution failed" := same.message
      have retryability' := parseRetryability_unknown same.retryability
      subst code' message' retryability'
      rfl
    · rcases replays with absurd | ⟨details, same⟩
      · cases absurd
      · have fields := congrArg JsonText.value (some.inj same)
        obtain ⟨code, message, retryability, detailsJSON⟩ := err
        simp only [mustMarshalError, marshalJSON, errorJSON, toolFailed, some.injEq,
          Json.object.injEq, List.cons.injEq, Prod.mk.injEq, Json.string.injEq, true_and,
          and_true] at fields
        obtain ⟨rfl, rfl, stored, _⟩ := fields
        refine ⟨rfl, rfl, rfl, rfl, rfl, ?_⟩
        exact congrArg parseRetryability stored

/-- **A duplicate is told what the first call was told exactly where its path replays**: once the call that
inserted the row has answered, what a later call with the same key computes from the row agrees with that
answer iff the path of the answer replays. -/
theorem replay_same_iff (reached : (gateway cfg).Reaches .free State.start c) {thread : Nat}
    {call : Call} {id : InvocationID} {path : Path} {resp : InvokeResponse} {inv : Invocation}
    (begun : .begun thread call id true ∈ c.shared.trace)
    (responded : .responded thread id path resp ∈ c.shared.trace) (executed : path ≠ .duplicate)
    (read : c.shared.getInvocationByKey call.key = .ok inv) :
    (invocationToResponse inv).Same resp ↔ path.Replays := by
  have base := reaches_base reached
  obtain ⟨inv₀, row⟩ := base.sound _ begun
  obtain ⟨⟨inv', found, recorded⟩, reports⟩ := base.sound _ responded
  -- the key finds the row of the first call
  have here : inv' = inv := by
    cases found.symm.trans row.found
    have looked := Ledger.findKey_of_find row.found
    rw [row.key] at looked
    simp only [getInvocationByKey, looked] at read
    exact Except.ok.inj read
  subst here
  cases path with
  | duplicate => exact absurd rfl executed
  | failed err =>
    obtain ⟨_, written, rfl⟩ := recorded
    exact failed_same_iff written
  | ambiguous effectClass reason =>
    obtain ⟨_, written, rfl⟩ := recorded
    exact ⟨fun _ => trivial, fun _ => ambiguous_same written⟩
  | reported report =>
    obtain ⟨_, written, rfl⟩ := recorded
    obtain ⟨conn, msg, _, made⟩ := reports report rfl
    exact reported_same_iff made written
  | committed =>
    obtain ⟨_, rfl⟩ := recorded
    exact ⟨fun _ => trivial, fun _ => ⟨rfl, rfl, rfl, rfl, rfl, rfl⟩⟩

def Obs.answers (thread : Nat) (id : InvocationID) (kind : Path → Bool) : Obs → Bool
  | .responded t id' path _ => t = thread ∧ id' = id ∧ kind path
  | _ => false

def Obs.beginsRow (s : State) (thread : Nat) (id : InvocationID) (kind : Invocation → Bool) : Obs → Bool
  | .begun t call id' true => t = thread ∧ id' = id ∧ (s.ledger.findKey call.key).any kind
  | _ => false

theorem Obs.answers_responded {id : InvocationID} {kind : Path → Bool} (answers : o.answers thread id kind) :
    ∃ path resp, o = .responded thread id path resp ∧ kind path := by
  unfold Obs.answers at answers
  split at answers
  · obtain ⟨rfl, rfl, holds⟩ := of_decide_eq_true answers
    exact ⟨_, _, rfl, holds⟩
  · cases answers

theorem Obs.beginsRow_begun {s : State} {id : InvocationID} {kind : Invocation → Bool}
    (begins : o.beginsRow s thread id kind) : ∃ call inv, o = .begun thread call id true ∧
    s.getInvocationByKey call.key = .ok inv ∧ kind inv := by
  unfold Obs.beginsRow at begins
  split at begins
  · obtain ⟨rfl, rfl, row⟩ := of_decide_eq_true begins
    obtain ⟨inv, found, holds⟩ := (any_eq_true _ _).mp row
    exact ⟨_, inv, rfl, by rw [getInvocationByKey, found], holds⟩
  · cases begins

def Path.isAmbiguous : Path → Bool
  | .ambiguous _ _ => true
  | _ => false

/-- A write whose stream is lost replays. -/
theorem replay_same_lost : ∃ c call path resp inv, (gateway {}).Reaches .free State.start c ∧
    .begun 2 call "inv" true ∈ c.shared.trace ∧ .responded 2 "inv" path resp ∈ c.shared.trace ∧
    c.shared.getInvocationByKey call.key = .ok inv ∧ (invocationToResponse inv).Same resp := by
  obtain ⟨c, reached, ⟨_, answered, answers⟩, _, began, begins⟩ := (gateway {}).reaches_of_replay
    .free State.start
    (sendsInvoke .nonIdempotentWrite ++ .start (.runnerLost 0) ::
      List.replicate 3 (.run 3 {}) ++ List.replicate 4 (.run 2 {}))
    (fun s => (∃ o ∈ s.trace, o.answers 2 "inv" isAmbiguous) ∧
      ∃ o ∈ s.trace, o.beginsRow s 2 "inv" fun _ => true)
    (by decide +kernel)
  obtain ⟨path, resp, rfl, ambiguous⟩ := Obs.answers_responded answers
  obtain ⟨call, inv, rfl, read, -⟩ := Obs.beginsRow_begun begins
  have replay := replay_same_iff reached began answered (by rintro rfl; cases ambiguous) read
  refine ⟨c, call, path, resp, inv, reached, began, answered, read, replay.mpr ?_⟩
  cases path with
  | ambiguous effectClass reason => trivial
  | _ => cases ambiguous

/-- `finishFailed` answered that a retry may help. -/
def Path.isRetryable : Path → Bool
  | .failed err => err.retryability = .retryable
  | _ => false

/-- **A duplicate is told less than the first call.** The first call finds no runner and is told to
retry; the row's error is not read back. -/
theorem replay_differs : ¬ ∀ (cfg : Config) (c : Conc.Config Unit Input State) (thread : Nat)
    (call : Call) (id : InvocationID) (path : Path) (resp : InvokeResponse) (inv : Invocation),
    (gateway cfg).Reaches .free State.start c → .begun thread call id true ∈ c.shared.trace →
    .responded thread id path resp ∈ c.shared.trace → path ≠ .duplicate →
    c.shared.getInvocationByKey call.key = .ok inv → (invocationToResponse inv).Same resp := by
  intro claim
  obtain ⟨c, reached, ⟨_, answered, answers⟩, _, began, begins⟩ := (gateway {}).reaches_of_replay
    .free State.start
    (.start (.invokeTool (callOf .readOnly)) :: .run 0 { uuid := "inv" } ::
      List.replicate 4 (.run 0 {}))
    (fun s => (∃ o ∈ s.trace, o.answers 0 "inv" isRetryable) ∧
      ∃ o ∈ s.trace, o.beginsRow s 0 "inv" fun inv => (invocationToResponse inv).error.isNone)
    (by decide +kernel)
  obtain ⟨path, resp, rfl, retryable⟩ := Obs.answers_responded answers
  obtain ⟨call, inv, rfl, read, silent⟩ := Obs.beginsRow_begun begins
  have same := claim {} c 0 call "inv" path resp inv reached began answered
    (by rintro rfl; cases retryable) read
  cases path with
  | failed err =>
    obtain ⟨⟨_, _, recorded⟩, _⟩ := (reaches_base reached).sound _ answered
    have told : resp.errorDetail.retryability = .retryable := by
      rw [recorded.2.2]
      exact of_decide_eq_true retryable
    have read := same.retryability
    rw [told, InvokeResponse.errorDetail, isNone_iff_eq_none.mp silent] at read
    cases read
  | _ => cases retryable

end Iterabase.Gateway
