/-
**The tool gateway — what is stored of a result, and how it is read back.**

`conversions.go`. An error is written by three encoders (the struct itself, a hand-built map, SQL) and
read by one decoder, which wants the retryability as a string.

* `invocationToResponse` — the response a duplicate call gets from a row.
* `RunnerMessage.dispatch` — what a runner's message becomes for the dispatcher.
* `parseArtifactRefs_marshal`, `parseError_mustMarshal` — what is read back is what was written.
* `parseError_struct` — **an error that `encoding/json` wrote with its retryability is not read back.**
-/

import Iterabase.Gateway.Types

namespace Iterabase.Gateway

open Data Json

/-! ### Artifact references -/

def ArtifactRef.json (ref : ArtifactRef) : Json :=
  .object [("artifact_id", .string ref.artifactID), ("mime_type", .string ref.mimeType),
    ("size_bytes", .number ref.sizeBytes.toInt), ("digest", .string ref.digest)]

def artifactRefsJSON (refs : List ArtifactRef) : Json := .array (refs.map ArtifactRef.json)

def marshalArtifactRefs (refs : List ArtifactRef) : JsonText := marshalJSON (artifactRefsJSON refs)

def parseArtifactRef : Json → Option ArtifactRef
  | .object fields => do
      let artifactID ← stringField fields "artifact_id"
      let mimeType ← stringField fields "mime_type"
      let sizeBytes ← int64Field fields "size_bytes"
      let digest ← stringField fields "digest"
      return ⟨artifactID, mimeType, sizeBytes, digest⟩
  | .null => some ⟨"", "", 0, ""⟩
  | _ => none

/-- `parseArtifactRefs`: nothing is read from a value it cannot decode. -/
def parseArtifactRefs : Option Json → List ArtifactRef
  | some (.array items) => (items.mapM parseArtifactRef).getD []
  | _ => []

theorem parseArtifactRef_json (ref : ArtifactRef) : parseArtifactRef ref.json = some ref := by
  have size : int64Field [("artifact_id", .string ref.artifactID),
      ("mime_type", .string ref.mimeType), ("size_bytes", .number ref.sizeBytes.toInt),
      ("digest", .string ref.digest)] "size_bytes" = some ref.sizeBytes := int64Field_toInt rfl
  simp only [ArtifactRef.json, parseArtifactRef, size]
  rfl

theorem parseArtifactRefs_marshal (refs : List ArtifactRef) :
    parseArtifactRefs (some (artifactRefsJSON refs)) = refs := by
  have each : (refs.map ArtifactRef.json).mapM parseArtifactRef = some refs := by
    induction refs with
    | nil => rfl
    | cons ref rest ih =>
      simp only [List.map_cons, List.mapM_cons, parseArtifactRef_json, ih]
      rfl
  simp only [artifactRefsJSON, parseArtifactRefs, each, Option.getD_some]

/-! ### Errors -/

def parseRetryability (text : String) : Retryability :=
  if text = "retryable" then .retryable
  else if text = "non_retryable" then .nonRetryable
  else if text = "unknown" then .unknown
  else .unspecified

def retryabilityToStorage : Retryability → String
  | .retryable => "retryable"
  | .nonRetryable => "non_retryable"
  | .unknown => "unknown"
  | .unspecified | .unrecognized _ => ""

def Retryability.number : Retryability → Int
  | .unspecified => 0
  | .retryable => 1
  | .nonRetryable => 2
  | .unknown => 3
  | .unrecognized value => value

def omitEmpty (name value : String) : List (String × Json) :=
  if value = "" then [] else [(name, .string value)]

/-- `encoding/json` on `v1.ErrorDetail`: every field is `omitempty`, and an enumeration is a number. -/
def ErrorDetail.json (err : ErrorDetail) : Json :=
  .object (omitEmpty "code" err.code ++ omitEmpty "message" err.message ++
    (if err.retryability.number = 0 then []
      else [("retryability", .number err.retryability.number)]) ++
    omitEmpty "details_json" err.detailsJSON)

def errorJSON : Option ErrorDetail → Json
  | none => .object []
  | some err => .object [("code", .string err.code), ("message", .string err.message),
      ("retryability", .string (retryabilityToStorage err.retryability)),
      ("details_json", .string err.detailsJSON)]

def mustMarshalError (err : Option ErrorDetail) : JsonText := marshalJSON (errorJSON err)

def EffectClass.text : EffectClass → String
  | .readOnly => "read_only"
  | .idempotentWrite => "idempotent_write"
  | .nonIdempotentWrite => "non_idempotent_write"

def ambiguousJSON (effectClass : EffectClass) (reason : String) : Json :=
  .object [("code", .string "outcome_unknown"), ("message", .string reason),
    ("retryability", .string "unknown"), ("effect_class", .string effectClass.text)]

/-- The struct `parseError` decodes an object into. -/
def parseErrorFields (fields : List (String × Json)) : Option ErrorDetail := do
  let code ← stringField fields "code"
  let message ← stringField fields "message"
  let retryability ← stringField fields "retryability"
  let detailsJSON ← stringField fields "details_json"
  return ⟨code, message, parseRetryability retryability, detailsJSON⟩

def parseError : Option Json → Option ErrorDetail
  | some (.object fields) => parseErrorFields fields
  | some .null => some {}
  | _ => none

/-- **An error written as a struct is not read back**: its retryability is a number. -/
theorem parseError_struct {err : ErrorDetail} (set : err.retryability.number ≠ 0) :
    parseError (some err.json) = none := by
  have found : lookup (omitEmpty "code" err.code ++ omitEmpty "message" err.message ++
      [("retryability", .number err.retryability.number)] ++
      omitEmpty "details_json" err.detailsJSON) "retryability" =
        some (.number err.retryability.number) := by
    unfold omitEmpty
    split <;> split <;> rfl
  have mistyped : stringField (omitEmpty "code" err.code ++ omitEmpty "message" err.message ++
      [("retryability", .number err.retryability.number)] ++
      omitEmpty "details_json" err.detailsJSON) "retryability" = none := by
    simp only [stringField, found]
  simp only [ErrorDetail.json, if_neg set, parseError, parseErrorFields, mistyped]
  rcases stringField _ "code" with _ | code
  · rfl
  · rcases stringField _ "message" with _ | message <;> rfl

/-! ### Responses -/

def invocationToResponse (inv : Invocation) : InvokeResponse :=
  let resp : InvokeResponse :=
    { invocationID := inv.id, artifactOutputRefs := parseArtifactRefs (some inv.artifactOutputRefs) }
  match inv.state with
  | .succeeded => { resp with state := .succeeded, resultJSON := inv.resultJSON }
  | .failed => { resp with state := .failed, error := parseError inv.error }
  | .outcomeUnknown => { resp with state := .outcomeUnknown, error := parseError inv.error }
  | .dispatching | .running => { resp with state := .inProgress, existingInvocationID := inv.id }

/-! ### Runner results -/

def invokeResultToDispatch (r : InvokeResult) : Report :=
  let refs := some (marshalArtifactRefs r.artifactOutputRefs)
  match r.state with
  | .succeeded => { state := .succeeded, artifactRefs := refs, resultJSON := some r.resultJSON }
  | .failed => { state := .failed, artifactRefs := refs, errorDetail := some (mustMarshalError r.error) }
  -- a result that is not terminal is taken for a failure
  | _ => {
      state := .failed
      artifactRefs := refs
      errorDetail := some (mustMarshalError (some {
        code := "unexpected_state"
        message := "runner reported non-terminal result state" })) }

/-- What the receive loop hands to the dispatcher of an invocation. An InvokeError sets no artifact
references. -/
def RunnerMessage.dispatch : RunnerMessage → Option (InvocationID × Report)
  | .invokeResult r => some (r.invocationID, invokeResultToDispatch r)
  | .invokeError id err => some (id, { state := .failed, errorDetail := some (mustMarshalError err) })
  | .register _ _ | .retired _ _ => none

end Iterabase.Gateway
