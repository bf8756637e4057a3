/-
**The tool gateway — the commit of what a runner reports.**

The receive loop hands a runner's message to the call that waits for it, and the call writes it to the
row: whether the columns take it is decided by which message built the report.
-/

import Iterabase.Gateway.Effects

namespace Iterabase.Gateway

open Conc Data Option State Prog

variable {report : Report} {id : InvocationID} {msg : RunnerMessage} {denied : Option ArtifactDenial}

/-! ### The path -/

/-- A message arrives for the call that waits on channel `ch`, which takes the report and commits it,
with no other action between and no failure of the store. -/
def State.settle (s : State) (cfg : Config) (tv : ToolVersion) (conn ch : Nat) (id : InvocationID)
    (msg : RunnerMessage) (denied : Option ArtifactDenial) : Option (Answer × State) :=
  let s := s.receive conn msg
  match (s.channels[ch]?).bind Channel.result with
  | some (.reported report) =>
      (finishFromResult cfg id tv report).exec [{ artifacts := denied }, {}] s
  | _ => none

/-- The row is terminal, and the call has an answer. -/
def Committed (id : InvocationID) (answer : Answer) (s : State) : Prop :=
  (∃ path resp, answer = .ok (path, resp)) ∧
    ∃ inv, s.ledger.find id = some inv ∧ inv.state.isTerminal = true

/-! ### What the columns hold -/

def ArtifactRef.Storable (ref : ArtifactRef) : Prop :=
  storableText ref.artifactID ∧ storableText ref.mimeType ∧ storableText ref.digest

def ErrorDetail.Storable (err : ErrorDetail) : Prop :=
  storableText err.code ∧ storableText err.message ∧ storableText err.detailsJSON

/-- A success that is not committed as such: a refused reference, or a result that is too long or no
JSON. -/
def InvokeResult.Flawed (cfg : Config) (denied : Option ArtifactDenial) (r : InvokeResult) : Prop :=
  (r.artifactOutputRefs ≠ [] ∧ denied.isSome) ∨ cfg.inlineLimit < r.resultJSON.length ∨
    (r.resultJSON.length ≠ 0 ∧ r.resultJSON.text.value = none)

/-- **The messages that the row can hold.** -/
def RunnerMessage.Storable (cfg : Config) (denied : Option ArtifactDenial) : RunnerMessage → Prop
  | .invokeResult r =>
      match r.state with
      | .succeeded => r.Flawed cfg denied ∨ ((∀ ref ∈ r.artifactOutputRefs, ref.Storable) ∧
          (r.resultJSON.length = 0 ∨ r.resultJSON.text.jsonb))
      | .failed => (∀ ref ∈ r.artifactOutputRefs, ref.Storable) ∧
          ∀ err, r.error = some err → err.Storable
      | _ => ∀ ref ∈ r.artifactOutputRefs, ref.Storable
  | .invokeError _ _ | .register _ _ | .retired _ _ => False

theorem storable_artifactRefs (refs : List ArtifactRef) :
    (artifactRefsJSON refs).storable = true ↔ ∀ ref ∈ refs, ref.Storable := by
  simp only [artifactRefsJSON, Json.storable]
  induction refs with
  | nil => simp [storableItems]
  | cons ref rest ih =>
    have names : storableText "artifact_id" ∧ storableText "mime_type" ∧
        storableText "size_bytes" ∧ storableText "digest" := by decide
    simp only [List.map_cons, storableItems, Bool.and_eq_true, ih, List.forall_mem_cons,
      ArtifactRef.json, Json.storable, storableFields, names, true_and, and_true,
      ArtifactRef.Storable]

theorem storable_error (err : Option ErrorDetail) :
    (errorJSON err).storable = true ↔ ∀ e, err = some e → e.Storable := by
  have names : storableText "code" ∧ storableText "message" ∧ storableText "retryability" ∧
      storableText "details_json" := by decide
  cases err with
  | none => simp [errorJSON, Json.storable, storableFields]
  | some err =>
    have retryability : storableText (retryabilityToStorage err.retryability) := by
      rcases err.retryability with _ | _ | _ | _ | _ <;> rfl
    simp only [errorJSON, Json.storable, storableFields, Bool.and_eq_true, names, retryability,
      true_and, and_true, some.injEq, forall_eq', ErrorDetail.Storable]

variable {cfg : Config}

theorem storable_flaw {reason : String} (flawed : report.flaw cfg denied = some reason)
    (effectClass : EffectClass) : (ambiguousJSON effectClass reason).storable = true := by
  have storable : storableText reason = true := by
    unfold Report.flaw at flawed
    split at flawed
    · rename_i denial _
      cases flawed
      cases denial <;> decide +kernel
    · dsimp only at flawed
      split at flawed
      · cases flawed
        decide
      split at flawed
      · cases flawed
        decide
      · cases flawed
    · cases flawed
  have names : storableText "code" ∧ storableText "outcome_unknown" ∧ storableText "message" ∧
      storableText "retryability" ∧ storableText "unknown" ∧ storableText "effect_class" := by decide
  have stored : storableText effectClass.text := by cases effectClass <;> decide
  simp only [ambiguousJSON, Json.storable, storableFields, names, stored, storable, Bool.and_self]

/-! ### Commits -/

def Held (text : Option JsonText) : Prop := ∀ t, text = some t → t.column.isSome

theorem held_iff {column : String} {text : Option JsonText} :
    Held text ↔ ∃ value, State.jsonbParam column text = .ok value := by
  cases text with
  | none => simp [Held, jsonbParam]
  | some text => cases held : text.column <;> simp [Held, jsonbParam, held]

theorem columns_ok_iff (state : InvocationState) {result artifactRefs error : Option JsonText} :
    (∃ c, State.columns state result artifactRefs error = .ok c) ↔ Held result ∧
    (artifactRefs.isSome ∧ Held artifactRefs) ∧ Held error := by
  constructor
  · rintro ⟨c, written⟩
    obtain ⟨result, refs, error, _⟩ := State.columns_eq_ok.mp written
    refine ⟨held_iff.mpr ⟨_, result⟩, ⟨?_, held_iff.mpr ⟨_, refs⟩⟩, held_iff.mpr ⟨_, error⟩⟩
    cases artifactRefs with
    | none => cases refs
    | some text => rfl
  · rintro ⟨result, ⟨present, refs⟩, error⟩
    obtain ⟨value, result⟩ := held_iff.mp result
    obtain ⟨detail, error⟩ := held_iff.mp error
    obtain ⟨refsText, rfl⟩ := isSome_iff_exists.mp present
    obtain ⟨refs, stored⟩ := isSome_iff_exists.mp (refs _ rfl)
    refine ⟨⟨state, value, refs, detail⟩, State.columns_eq_ok.mpr ⟨result, ?_, error, rfl⟩⟩
    simp only [jsonbParam, stored]

/-- **A commit of a live row fails only on its columns.** -/
theorem finish_commits_iff {s : State} {inv : Invocation} (found : s.ledger.find id = some inv)
    (live : inv.state.isTerminal = false) {state : InvocationState}
    (terminal : state.isTerminal = true) (result artifactRefs error : Option JsonText) (path : Path)
    (resp : InvokeResponse) :
    ∃ answer s', (finish id state result artifactRefs error path resp).exec [{}] s =
    some (answer, s') ∧
    (Committed id answer s' ↔ Held result ∧ (artifactRefs.isSome ∧ Held artifactRefs) ∧ Held error) := by
  rw [← columns_ok_iff state]
  cases written : State.columns state result artifactRefs error with
  | error err =>
    refine ⟨.error err, s, ?_, ⟨?_, ?_⟩⟩
    · simp only [finish, store, atomic, act_bind, done_bind, exec,
        finishInvocation, written, bind_some, pure_eq]
    · rintro ⟨⟨path, resp, answered⟩, _⟩
      cases answered
    · rintro ⟨c, absurd⟩
      cases absurd
  | ok c =>
    have becomes : c.state = state := (State.columns_eq_ok.mp written).2.2.2
    let ledger := s.ledger.update (fun inv => inv.id = id) c.write fun _ => ⟨rfl, rfl⟩
    refine ⟨.ok (path, resp), ({ s with ledger := ledger } : State).observe (.finished id), ?_,
      ⟨fun _ => ⟨c, rfl⟩, fun _ => ⟨⟨path, resp, rfl⟩, ?_⟩⟩⟩
    · simp only [finish, store, atomic, act_bind, done_bind, exec,
        finishInvocation, written, updateInvocation, found, live, Bool.not_false,
        if_true, bind_some, pure_eq]
      rfl
    · refine ⟨c.write inv, ?_, ?_⟩
      · have here : decide (inv.id = id) = true := decide_eq_true (Ledger.find_id found)
        simp only [observe, ledger, Ledger.find_update, found, map_some, here, if_true]
      · rw [State.Columns.write, becomes]
        exact terminal

/-- The report reaches the call, and the ledger is as before. -/
theorem receive_reported {s : State} {conn ch : Nat} {channel : Channel}
    (made : msg.dispatch = some (id, report))
    (pending : ((s.conns[conn]?).bind fun rc => rc.pending.find? (·.1 = id)) = some (id, ch))
    (waiting : s.channels[ch]? = some channel) (empty : channel.result = none) :
    ((s.receive conn msg).channels[ch]?).bind Channel.result = some (.reported report) ∧
    (s.receive conn msg).ledger = s.ledger := by
  have received : s.receive conn msg = s.offer ch (.reported report) := by
    cases msg with
    | register | retired => cases made
    | invokeResult | invokeError => simp only [receive, made, deliver, pending]
  rw [received]
  refine ⟨?_, rfl⟩
  simp only [offer, List.getElem?_modify_eq, waiting, map_eq_map, map_some,
    bind_some, empty, none_or]

theorem held_none : Held none := nofun

theorem held_marshal (value : Json) : Held (some (marshalJSON value)) ↔ value.storable = true := by
  cases storable : value.storable <;> simp [Held, JsonText.column, marshalJSON, storable]

/-! ### Reports -/

/-- The refusal that `finishFromResult` sees: references are checked where there are some. -/
def Report.refusal (r : Report) (denied : Option ArtifactDenial) : Option ArtifactDenial :=
  if r.state = .succeeded ∧ r.refs ≠ [] then denied else none

open Report

theorem dispatch_refs (r : InvokeResult) : (invokeResultToDispatch r).refs = r.artifactOutputRefs := by
  have refs : (invokeResultToDispatch r).artifactRefs =
      some (marshalArtifactRefs r.artifactOutputRefs) := by
    unfold invokeResultToDispatch
    split <;> rfl
  rw [Report.refs, refs]
  exact parseArtifactRefs_marshal r.artifactOutputRefs

variable {r : InvokeResult}

theorem dispatch_succeeded (success : r.state = .succeeded) :
    invokeResultToDispatch r = {
      state := .succeeded
      resultJSON := some r.resultJSON
      artifactRefs := some (marshalArtifactRefs r.artifactOutputRefs) } := by
  simp only [invokeResultToDispatch, success]

theorem refusal_none_iff (success : r.state = .succeeded) (denied : Option ArtifactDenial) :
    (invokeResultToDispatch r).refusal denied = none ↔
    ¬ (r.artifactOutputRefs ≠ [] ∧ denied.isSome) := by
  have state : (invokeResultToDispatch r).state = .succeeded := by rw [dispatch_succeeded success]
  rw [refusal, dispatch_refs, state]
  by_cases nothing : r.artifactOutputRefs = [] <;> simp [nothing]

theorem flaw_none_iff (success : r.state = .succeeded) (denied : Option ArtifactDenial) :
    (invokeResultToDispatch r).flaw cfg ((invokeResultToDispatch r).refusal denied) = none ↔
    ¬ r.Flawed cfg denied := by
  have refused := refusal_none_iff success denied
  rw [InvokeResult.Flawed, not_or, ← refused]
  cases (invokeResultToDispatch r).refusal denied with
  | some denial => simp [dispatch_succeeded success, flaw]
  | none =>
    simp only [dispatch_succeeded success, flaw, map_some, getD_some,
      bind_some, isNone_iff_eq_none, true_and]
    by_cases long : cfg.inlineLimit < r.resultJSON.length
    · simp [long]
    by_cases malformed : r.resultJSON.length ≠ 0 ∧ r.resultJSON.text.value = none
    · simp [long, malformed]
    · simp [long, malformed]

theorem result_held_iff (success : r.state = .succeeded) (flawless : ¬ r.Flawed cfg denied) :
    Held (invokeResultToDispatch r).result ↔ r.resultJSON.length = 0 ∨ r.resultJSON.text.jsonb := by
  rw [dispatch_succeeded success]
  by_cases nothing : r.resultJSON.length = 0
  · simp only [result, nothing, if_true, held_marshal, true_or, iff_true]
    rfl
  have valid : r.resultJSON.text.value ≠ none := fun malformed =>
    flawless (.inr (.inr ⟨nothing, malformed⟩))
  obtain ⟨value, valid⟩ := ne_none_iff_exists'.mp valid
  cases jsonb : r.resultJSON.text.jsonb <;>
    simp [result, nothing, Held, JsonText.column, jsonb, valid]

theorem reported_held_iff
    (made : msg.dispatch = some (id, report))
    (sound : report.flaw cfg (report.refusal denied) = none) :
    (Held report.result ∧ (report.artifactRefs.isSome ∧ Held report.artifactRefs) ∧
      Held report.errorDetail) ↔ msg.Storable cfg denied := by
  cases msg with
  | register | retired => cases made
  | invokeError id' err =>
    cases made
    simp [RunnerMessage.Storable]
  | invokeResult r =>
    cases made
    cases state : r.state with
    | succeeded =>
      have flawless := (flaw_none_iff state denied).mp sound
      rw [result_held_iff state flawless]
      simp only [invokeResultToDispatch, state, RunnerMessage.Storable, flawless, false_or,
        marshalArtifactRefs, held_marshal, storable_artifactRefs, isSome_some, true_and,
        held_none, and_comm]
    | failed =>
      simp only [invokeResultToDispatch, state, RunnerMessage.Storable, result, map_none,
        marshalArtifactRefs, mustMarshalError, held_marshal, storable_artifactRefs, storable_error,
        isSome_some, true_and, held_none]
    | _ =>
      simp only [invokeResultToDispatch, state, RunnerMessage.Storable, result, map_none,
        marshalArtifactRefs, mustMarshalError, held_marshal, storable_artifactRefs,
        isSome_some, true_and, held_none]
      exact and_iff_left (by decide)

/-- A report with a flaw is one of a storable message: the flaw is committed in its place. -/
theorem storable_of_flaw (made : msg.dispatch = some (id, report)) {reason : String}
    (flawed : report.flaw cfg (report.refusal denied) = some reason) : msg.Storable cfg denied := by
  cases msg with
  | register | retired => cases made
  | invokeError id' err =>
    cases made
    cases flawed
  | invokeResult r =>
    cases made
    cases state : r.state with
    | succeeded =>
      have flawed' : r.Flawed cfg denied := by
        by_contra flawless
        rw [(flaw_none_iff state denied).mpr flawless] at flawed
        cases flawed
      simp only [RunnerMessage.Storable, state]
      exact .inl flawed'
    | _ =>
      simp only [invokeResultToDispatch, state] at flawed
      cases flawed

/-- **A message is committed exactly if the row can hold it**: for every live row whose call waits for it,
the message reaches the call, which commits a terminal row iff the message is storable. -/
theorem settle_commits_iff (cfg : Config) (tv : ToolVersion) {s : State} {conn ch : Nat}
    {id : InvocationID} {msg : RunnerMessage} {report : Report} {channel : Channel} {inv : Invocation}
    (made : msg.dispatch = some (id, report))
    (pending : ((s.conns[conn]?).bind fun rc => rc.pending.find? (·.1 = id)) = some (id, ch))
    (waiting : s.channels[ch]? = some channel) (empty : channel.result = none)
    (found : s.ledger.find id = some inv) (live : inv.state.isTerminal = false)
    (denied : Option ArtifactDenial) :
    ∃ answer s', s.settle cfg tv conn ch id msg denied = some (answer, s') ∧
      (Committed id answer s' ↔ msg.Storable cfg denied) := by
  obtain ⟨taken, ledger⟩ := receive_reported made pending waiting empty
  have found' : (s.receive conn msg).ledger.find id = some inv := by rw [ledger, found]
  cases flaw : report.flaw cfg (report.refusal denied) with
  | some reason =>
    have ran : s.settle cfg tv conn ch id msg denied =
        (classifyAmbiguous id tv reason).exec [{}] (s.receive conn msg) := by
      simp only [settle, taken, finishFromResult, locally, atomic, act_bind,
        done_bind, exec, bind_some]
      unfold refusal at flaw
      rw [flaw]
    have terminal : (ambiguousState tv.effectClass).isTerminal = true := by
      cases tv.effectClass <;> rfl
    obtain ⟨answer, s', finished, committed⟩ := finish_commits_iff found' live terminal none
      (some (marshalJSON (.array []))) (some (marshalJSON (ambiguousJSON tv.effectClass reason)))
      (.ambiguous tv.effectClass reason) (ambiguousResponse id tv.effectClass reason)
    refine ⟨answer, s', ran.trans finished, ?_⟩
    simp only [committed, held_none, held_marshal, storable_flaw flaw, storable_of_flaw made flaw,
      isSome_some, true_and, and_true, iff_true]
    rfl
  | none =>
    have ran : s.settle cfg tv conn ch id msg denied =
        (finish id report.state report.result report.artifactRefs report.errorDetail
          (.reported report) (reportResponse id report)).exec [{}] (s.receive conn msg) := by
      simp only [settle, taken, finishFromResult, locally, atomic, act_bind,
        done_bind, exec, bind_some]
      unfold refusal at flaw
      rw [flaw]
    have terminal : report.state.isTerminal = true := by
      rcases dispatch_terminal made with state | state <;> rw [state] <;> rfl
    obtain ⟨answer, s', finished, committed⟩ := finish_commits_iff found' live terminal report.result
      report.artifactRefs report.errorDetail (.reported report) (reportResponse id report)
    exact ⟨answer, s', ran.trans finished, committed.trans (reported_held_iff made flaw)⟩

theorem settle_commits_success : ∃ (s : State) (inv : Invocation) (answer : Answer) (s' : State),
    s.ledger.find "inv" = some inv ∧ inv.state = .running ∧
    s.settle {} (callOf .readOnly).tv 0 0 "inv"
      (.invokeResult { invocationID := "inv", state := .succeeded }) none = some (answer, s') ∧
    Committed "inv" answer s' := by
  obtain ⟨c, _, ⟨inv, found, running⟩, pending, channel, waiting, empty⟩ :=
    (gateway {}).reaches_of_replay .free State.start (sendsInvoke .readOnly)
    (fun s => (∃ inv ∈ s.ledger.find "inv", inv.state = .running) ∧
      ((s.conns[0]?).bind fun rc => rc.pending.find? (·.1 = "inv")) = some ("inv", 0) ∧
      ∃ channel ∈ s.channels[0]?, channel.result = none)
    (by decide +kernel)
  have made : (RunnerMessage.invokeResult { invocationID := "inv", state := .succeeded }).dispatch =
    some ("inv", _) := rfl
  obtain ⟨answer, s', settled, committed⟩ := settle_commits_iff {} (callOf .readOnly).tv made pending
    waiting empty found (by rw [running]; rfl) none
  refine ⟨c.shared, inv, answer, s', found, running, settled, committed.mpr ?_⟩
  refine Or.inr ⟨?_, .inl rfl⟩
  intro ref listed
  cases listed

/-- **An InvokeError is not committed.** Its report has no artifact references, and the column is
NOT NULL. -/
theorem invokeError_uncommitted : ¬ ∀ (cfg : Config) (tv : ToolVersion) (s : State) (conn ch : Nat)
    (id : InvocationID) (msg : RunnerMessage) (report : Report) (channel : Channel) (inv : Invocation)
    (denied : Option ArtifactDenial), msg.dispatch = some (id, report) →
    ((s.conns[conn]?).bind fun rc => rc.pending.find? (·.1 = id)) = some (id, ch) →
    s.channels[ch]? = some channel → channel.result = none → s.ledger.find id = some inv →
    inv.state.isTerminal = false →
      ∃ answer s', s.settle cfg tv conn ch id msg denied = some (answer, s') ∧
        Committed id answer s' := by
  intro claim
  obtain ⟨c, _, ⟨inv, found, running⟩, pending, ⟨channel, waiting, empty⟩, uncommitted⟩ :=
    (gateway {}).reaches_of_replay .free State.start (sendsInvoke .readOnly)
    (fun s => (∃ inv ∈ s.ledger.find "inv", inv.state = .running) ∧
      ((s.conns[0]?).bind fun rc => rc.pending.find? (·.1 = "inv")) = some ("inv", 0) ∧
      (∃ channel ∈ s.channels[0]?, channel.result = none) ∧
      (s.settle {} (callOf .readOnly).tv 0 0 "inv" (.invokeError "inv" none) none).any fun result =>
        !result.1.isOk)
    (by decide +kernel)
  obtain ⟨answer, s', settled, ⟨path, resp, rfl⟩, _⟩ := claim {} (callOf .readOnly).tv c.shared 0 0
    "inv" (.invokeError "inv" none) _ channel inv none rfl pending waiting empty
    found (by rw [running]; rfl)
  rw [settled] at uncommitted
  cases uncommitted

end Iterabase.Gateway
