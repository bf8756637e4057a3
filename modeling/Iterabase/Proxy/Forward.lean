/-
**The inference gateway — the model a request is forwarded with.**

`ChatCompletions` reads the body twice: into a struct, to authorize the model and to choose the response
path, and into a map, to apply the alias's transforms and to forward it. The struct takes keys in any
case and leaves a field as it is at a null; the map takes keys as they are.

* `decodeRequest`, `decodeMap` — the two readings; `lastValue` — what they have in common.
* `forwarded_model_authorized` — **when the backend gets the authorized model**.
-/

import Iterabase.Data.Json
import Mathlib

namespace Iterabase.Proxy

open Data List Option

abbrev Fields := List (String × Json)

/-! ### The two readings -/

/-- `foldRune`, as far as it reaches letters of ASCII: the long s and the Kelvin sign do. -/
def foldRune (c : Char) : Char :=
  if c = Char.ofNat 0x17F then 's' else if c = Char.ofNat 0x212A then 'k' else c.toLower

def foldName (key : String) : List Char := key.toList.map foldRune

structure ChatCompletionRequest where
  model : String := ""
  stream : Bool := false
  deriving DecidableEq

def decodeField (req : ChatCompletionRequest) (field : String × Json) : Option ChatCompletionRequest :=
  if foldName field.1 = "model".toList then
    match field.2 with
    | .null => some req
    | .string model => some { req with model := model }
    | _ => none
  else if foldName field.1 = "stream".toList then
    match field.2 with
    | .null => some req
    | .bool stream => some { req with stream := stream }
    | _ => none
  else some req

/-- `json.Unmarshal` into `chatCompletionRequest`. -/
def decodeRequest : Json → Option ChatCompletionRequest
  | .object fields => fields.foldlM decodeField {}
  | .null => some {}
  | _ => none

def mapSet (m : Fields) (key : String) (value : Json) : Fields :=
  (key, value) :: m.filter fun field => field.1 ≠ key

def decodeMap (fields : Fields) : Fields := fields.foldl (fun m field => mapSet m field.1 field.2) []

/-- The number is no error for `strconv.ParseFloat`. -/
def fitsFloat (value : Rat) : Bool :=
  -(2 ^ 1024 - 2 ^ 970) < value ∧ value < 2 ^ 1024 - 2 ^ 970

mutual

/-- The value can be decoded into an `any`. -/
def decodable : Json → Bool
  | .number value => fitsFloat value
  | .array items => decodableItems items
  | .object fields => decodableFields fields
  | _ => true

def decodableItems : List Json → Bool
  | [] => true
  | item :: rest => decodable item && decodableItems rest

def decodableFields : Fields → Bool
  | [] => true
  | (_, value) :: rest => decodable value && decodableFields rest

end

/-- A body: as it was received, or marshalled from a map. -/
inductive Body
  | received (value : Json)
  | marshalled (m : Fields)

/-- `json.Unmarshal` into a map; what was made of a map gives the map again. -/
def Body.unmarshal : Body → Option Fields
  | .received (.object fields) => if decodableFields fields then some (decodeMap fields) else none
  | .received _ => none
  | .marshalled m => some m

def Body.field : Body → String → Option Json
  | .received (.object fields), key => Json.lookup (decodeMap fields) key
  | .received _, _ => none
  | .marshalled m, key => Json.lookup m key

/-- The edit is made in the map and marshalled; a body that is no map is left as it is. -/
def Body.edit (body : Body) (change : Fields → Fields) : Body :=
  match body.unmarshal with
  | none => body
  | some m => .marshalled (change m)

/-! ### The transforms of an alias -/

structure DefaultParams where
  temperature : Option Rat := none
  topP : Option Rat := none
  maxTokens : Option Int := none
  frequencyPenalty : Option Rat := none
  presencePenalty : Option Rat := none
  repetitionPenalty : Option Rat := none
  topK : Option Int := none
  minP : Option Rat := none
  stop : List String := []

/-- `CatalogEntry`, with its `ReasoningConfig` and `Transforms`. -/
structure CatalogEntry where
  modelID : String
  backendModelID : String
  backendURL : String
  defaultParams : DefaultParams := {}
  enableThinking : Option Bool := none
  systemPromptPrefix : String := ""
  rewriteModelName : Bool := false
  available : Bool := true

def DefaultParams.entries (d : DefaultParams) : List (String × Option Json) := [
  ("temperature", d.temperature.map .number),
  ("top_p", d.topP.map .number),
  ("max_tokens", d.maxTokens.map fun n => .number n),
  ("frequency_penalty", d.frequencyPenalty.map .number),
  ("presence_penalty", d.presencePenalty.map .number),
  ("repetition_penalty", d.repetitionPenalty.map .number),
  ("top_k", d.topK.map fun n => .number n),
  ("min_p", d.minP.map .number),
  ("stop", if d.stop = [] then none else some (.array (d.stop.map .string)))]

def setIfAbsent (m : Fields) (entry : String × Option Json) : Fields :=
  match entry.2 with
  | none => m
  | some value => if (Json.lookup m entry.1).isSome then m else mapSet m entry.1 value

def applyDefaultParams (m : Fields) (defaults : DefaultParams) : Fields :=
  defaults.entries.foldl setIfAbsent m

/-- The map under the key, or a new one. -/
def subMap (m : Fields) (key : String) : Fields :=
  match Json.lookup m key with
  | some (.object fields) => decodeMap fields
  | _ => []

def applyReasoningConfig (m : Fields) : Option Bool → Fields
  | none => m
  | some enable => mapSet m "chat_template_kwargs"
      (.object (mapSet (subMap m "chat_template_kwargs") "enable_thinking" (.bool enable)))

def textOf (message : Fields) (key : String) : String :=
  match Json.lookup message key with
  | some (.string text) => text
  | _ => ""

def applySystemPromptPrefix (m : Fields) (text : String) : Fields :=
  let systemMsg := Json.object [("role", .string "system"), ("content", .string text)]
  if text = "" then m
  else
    match Json.lookup m "messages" with
    | some (.array (.object fields :: rest)) =>
        let first := decodeMap fields
        if textOf first "role" = "system" then
          mapSet m "messages" (.array (.object (mapSet first "content"
            (.string (text ++ "\n" ++ textOf first "content"))) :: rest))
        else mapSet m "messages" (.array (systemMsg :: .object fields :: rest))
    | some (.array (_ :: _)) => m
    | _ => mapSet m "messages" (.array [systemMsg])

def applyRequestTransforms (body : Body) (entry : CatalogEntry) : Body :=
  body.edit fun m => applySystemPromptPrefix (applyReasoningConfig
    (applyDefaultParams m entry.defaultParams) entry.enableThinking) entry.systemPromptPrefix

def rewriteModelInRequest (body : Body) (modelID : String) : Body :=
  body.edit fun m => mapSet m "model" (.string modelID)

def injectStreamOptions (body : Body) : Body :=
  body.edit fun m => mapSet m "stream_options" (.object (mapSet
    (mapSet (subMap m "stream_options") "include_usage" (.bool true)) "continuous_usage_stats" (.bool true)))

/-! ### The handler -/

/-- The snapshot: resources granted to an identity, and the entry of an alias. -/
structure Snapshot where
  capabilities : String → List String
  catalogEntry : String → Option CatalogEntry

/-- Who asks; a workload asks for the turn it is assigned to. -/
structure Caller where
  identityID : String
  assignedModel : Option String := none

inductive Response
  | refused (status : Nat) (message code : String)
  | forwarded (url : String) (body : Body) (streaming : Bool)

def Snapshot.allowsModel (cache : Snapshot) (identityID model : String) : Bool :=
  (cache.capabilities identityID).any fun resource =>
    resource = "*" ∨ resource = "model:*" ∨ resource = "model:" ++ model

/-- Whether the alias is replaced by the backend's model. -/
def CatalogEntry.rewrites (entry : CatalogEntry) : Bool :=
  entry.rewriteModelName ∧ entry.backendModelID ≠ ""

/-- What is sent: `handleStreaming` asks for the usage besides. -/
def forwardedBody (entry : CatalogEntry) (body : Body) (stream : Bool) : Body :=
  let transformed := applyRequestTransforms body entry
  let named := if entry.rewrites then rewriteModelInRequest transformed entry.backendModelID
    else transformed
  if stream then injectStreamOptions named else named

/-- `ChatCompletions`, on a body that is JSON. -/
def chatCompletions (cache : Snapshot) (caller : Caller) (body : Json) : Response :=
  match decodeRequest body with
  | none => .refused 400 "invalid JSON in request body" "invalid_request_error"
  | some req =>
      if req.model = "" then .refused 400 "model is required" "invalid_request_error"
      else if caller.assignedModel.any fun model => req.model ≠ model then
        .refused 403 s!"requested model '{req.model}' does not match the assigned model for this turn"
          "model_mismatch"
      else if cache.allowsModel caller.identityID req.model = false then
        .refused 403 s!"identity is not allowed to access model '{req.model}'" "model_not_allowed"
      else
        match cache.catalogEntry req.model with
        | none => .refused 404 s!"model '{req.model}' not found" "model_not_found"
        | some entry =>
            if entry.available = false then
              .refused 503 s!"model '{req.model}' is not available" "service_unavailable"
            else
              .forwarded (entry.backendURL ++ "/v1/chat/completions")
                (forwardedBody entry (.received body) req.stream) req.stream

/-! ### Maps -/

theorem lookup_mapSet (m : Fields) (key : String) (value : Json) (key' : String) :
    Json.lookup (mapSet m key value) key' = if key = key' then some value else Json.lookup m key' := by
  unfold Json.lookup mapSet
  by_cases same : key = key'
  · simp [same]
  · rw [if_neg same, find?_cons_of_neg (by simpa using same), find?_filter]
    congr 2
    funext field
    by_cases here : field.1 = key'
    · simp [here, Ne.symm same]
    · simp [here]

theorem decodeMap_append (fields : Fields) (field : String × Json) :
    decodeMap (fields ++ [field]) = mapSet (decodeMap fields) field.1 field.2 := by
  unfold decodeMap
  rw [foldl_append, foldl_cons, foldl_nil]

/-- A key that no transform writes, nor the request for the usage. -/
structure Spared (key : String) : Prop where
  params : ∀ d : DefaultParams, ∀ entry ∈ d.entries, entry.1 ≠ key
  kwargs : "chat_template_kwargs" ≠ key
  messages : "messages" ≠ key
  options : "stream_options" ≠ key

theorem spared_model : Spared "model" := ⟨by simp [DefaultParams.entries], by decide, by decide, by decide⟩

theorem spared_stream : Spared "stream" := ⟨by simp [DefaultParams.entries], by decide, by decide, by decide⟩

variable {key : String}

theorem lookup_defaults (entries : List (String × Option Json))
    (spared : ∀ entry ∈ entries, entry.1 ≠ key) (m : Fields) :
    Json.lookup (entries.foldl setIfAbsent m) key = Json.lookup m key := by
  induction entries generalizing m with
  | nil => rfl
  | cons entry rest ih =>
    rw [foldl_cons, ih fun other member => spared other (.tail _ member)]
    unfold setIfAbsent
    split
    · rfl
    split
    · rfl
    · rw [lookup_mapSet, if_neg (spared entry (.head _))]

theorem lookup_systemPrompt (spared : "messages" ≠ key) (m : Fields) (text : String) :
    Json.lookup (applySystemPromptPrefix m text) key = Json.lookup m key := by
  unfold applySystemPromptPrefix
  dsimp only
  repeat' split
  all_goals first
    | rfl
    | rw [lookup_mapSet, if_neg spared]

theorem lookup_transforms (spared : Spared key) (m : Fields) (entry : CatalogEntry) :
    Json.lookup (applySystemPromptPrefix (applyReasoningConfig
      (applyDefaultParams m entry.defaultParams) entry.enableThinking) entry.systemPromptPrefix) key =
        Json.lookup m key := by
  rw [lookup_systemPrompt spared.messages]
  have defaults := lookup_defaults entry.defaultParams.entries (spared.params _) m
  cases entry.enableThinking with
  | none => exact defaults
  | some enable =>
    simp only [applyReasoningConfig]
    rw [lookup_mapSet, if_neg spared.kwargs]
    exact defaults

/-! ### Edits of a body -/

section Edit

variable {body : Body} {change : Fields → Fields}

theorem field_of_unmarshal {m : Fields} (read : body.unmarshal = some m) (key : String) :
    body.field key = Json.lookup m key := by
  unfold Body.unmarshal at read
  split at read
  · split at read
    · cases read
      rfl
    · cases read
  · cases read
  · cases read
    rfl

theorem edit_field (spares : ∀ m, Json.lookup (change m) key = Json.lookup m key) :
    (body.edit change).field key = body.field key := by
  unfold Body.edit
  split
  · rfl
  · rename_i m read
    rw [field_of_unmarshal read]
    exact spares m

theorem edit_unmarshal : (body.edit change).unmarshal.isSome = body.unmarshal.isSome := by
  unfold Body.edit
  split
  · rfl
  · rename_i m read
    rw [read]
    rfl

end Edit

section Forwarded

variable (entry : CatalogEntry) (body : Body) (stream : Bool)

theorem injected_field (spared : Spared key) :
    (if stream then injectStreamOptions body else body).field key = body.field key := by
  split
  · exact edit_field fun m => by rw [lookup_mapSet, if_neg spared.options]
  · rfl

theorem transformed_field (spared : Spared key) :
    (applyRequestTransforms body entry).field key = body.field key :=
  edit_field fun m => lookup_transforms spared m entry

/-- **The forwarded `stream` is the received one.** -/
theorem forwardedBody_stream : (forwardedBody entry body stream).field "stream" = body.field "stream" := by
  refine (injected_field _ stream spared_stream).trans (Eq.trans ?_ (transformed_field entry body spared_stream))
  split
  · exact edit_field fun m => by rw [lookup_mapSet, if_neg (by decide)]
  · rfl

/-- **The forwarded `model` is the received one**, unless it is rewritten in a body that is a map. -/
theorem forwardedBody_model : (forwardedBody entry body stream).field "model" =
    if body.unmarshal.isSome ∧ entry.rewrites then some (.string entry.backendModelID)
    else body.field "model" := by
  have transformed := transformed_field entry body spared_model
  refine (injected_field _ stream spared_model).trans ?_
  by_cases rewrites : entry.rewrites
  · rw [if_pos rewrites]
    unfold rewriteModelInRequest Body.edit
    have same : (applyRequestTransforms body entry).unmarshal.isSome = body.unmarshal.isSome := edit_unmarshal
    split
    · rename_i failed
      rw [failed] at same
      rw [transformed, if_neg fun ⟨read, _⟩ => by simp [← same] at read]
    · rename_i m read
      rw [read] at same
      rw [if_pos ⟨same.symm, rewrites⟩]
      exact (lookup_mapSet _ "model" _ "model").trans (if_pos rfl)
  · rw [if_neg rewrites, if_neg fun ⟨_, other⟩ => rewrites other]
    exact transformed

end Forwarded

/-! ### The last value of a key -/

variable {fields : Fields} {name : String}

/-- The value of the last field that has the property. -/
def lastValue (named : String × Json → Bool) (fields : Fields) : Option Json :=
  (fields.filter named).getLast?.map Prod.snd

/-- The key is spelled exactly so: what a map, and the backend, reads. -/
def exactly (name : String) (field : String × Json) : Bool := field.1 = name

/-- The key is `name` in any case and the value is no null: what the struct reads. -/
def folded (name : String) (field : String × Json) : Bool :=
  foldName field.1 = name.toList ∧ field.2 ≠ .null

theorem lastValue_append {named : String × Json → Bool} (field : String × Json) :
    lastValue named (fields ++ [field]) = if named field then some field.2 else lastValue named fields := by
  unfold lastValue
  rw [filter_append]
  by_cases here : named field
  · simp [here]
  · simp [here]

theorem lookup_decodeMap : Json.lookup (decodeMap fields) name = lastValue (exactly name) fields := by
  induction fields using List.reverseRecOn with
  | nil => rfl
  | append_singleton fields field ih =>
    rw [decodeMap_append, lookup_mapSet, lastValue_append, ih]
    simp [exactly]

variable {req : ChatCompletionRequest}

/-- **The struct reads the last value that is no null**, or has its zero value. What one field does to
the struct is a parameter. -/
theorem decoded_last {α : Type} {inject : α → Json} (get : ChatCompletionRequest → α)
    (step : ∀ {req req' field}, decodeField req field = some req' →
      if folded name field then field.2 = inject (get req') else get req' = get req)
    (decoded : fields.foldlM decodeField {} = some req) :
    lastValue (folded name) fields = some (inject (get req)) ∨
      lastValue (folded name) fields = none ∧ get req = get {} := by
  induction fields using List.reverseRecOn generalizing req with
  | nil =>
    cases decoded
    exact .inr ⟨rfl, rfl⟩
  | append_singleton fields field ih =>
    rw [foldlM_append] at decoded
    obtain ⟨before, earlier, last⟩ := bind_eq_some_iff.mp decoded
    obtain ⟨_, last, done⟩ := bind_eq_some_iff.mp last
    cases done
    have did := step last
    rw [lastValue_append]
    split at did
    · rename_i here
      rw [if_pos here, did]
      exact .inl rfl
    · rename_i other
      rw [if_neg other, did]
      exact ih earlier

theorem decoded_model (decoded : fields.foldlM decodeField {} = some req) :
    lastValue (folded "model") fields = some (.string req.model) ∨
      lastValue (folded "model") fields = none ∧ req.model = "" := by
  refine decoded_last ChatCompletionRequest.model (fun {req req' field} did => ?_) decoded
  unfold decodeField at did
  repeat' split at did
  all_goals cases did
  all_goals simp_all [folded]

theorem decoded_stream (decoded : fields.foldlM decodeField {} = some req) :
    lastValue (folded "stream") fields = some (.bool req.stream) ∨
      lastValue (folded "stream") fields = none ∧ req.stream = false := by
  refine decoded_last ChatCompletionRequest.stream (fun {req req' field} did => ?_) decoded
  unfold decodeField at did
  repeat' split at did
  all_goals cases did
  all_goals simp_all [folded]

variable {cache : Snapshot} {caller : Caller} {body : Json} {url : String} {sent : Body} {streaming : Bool}

/-! ### The forwarded body -/

/-- The alias that was read passed the checks, and the request goes to the backend of its entry. -/
structure Checked (cache : Snapshot) (caller : Caller) (body : Json) (url : String)
    (req : ChatCompletionRequest) (entry : CatalogEntry) : Prop where
  decoded : decodeRequest body = some req
  assigned : ∀ model ∈ caller.assignedModel, req.model = model
  allowed : cache.allowsModel caller.identityID req.model
  found : cache.catalogEntry req.model = some entry
  url : url = entry.backendURL ++ "/v1/chat/completions"

theorem chatCompletions_forwarded (forwarded : chatCompletions cache caller body = .forwarded url sent streaming) :
    ∃ req entry, Checked cache caller body url req entry ∧ req.model ≠ "" ∧
      sent = forwardedBody entry (.received body) req.stream ∧ streaming = req.stream := by
  unfold chatCompletions at forwarded
  split at forwarded
  · cases forwarded
  rename_i req decoded
  split at forwarded
  · cases forwarded
  rename_i named
  split at forwarded
  · cases forwarded
  rename_i assigned
  split at forwarded
  · cases forwarded
  rename_i allowed
  split at forwarded
  · cases forwarded
  rename_i entry found
  split at forwarded
  · cases forwarded
  cases forwarded
  refine ⟨req, entry, ⟨decoded, fun model is => ?_, by simpa using allowed, found, rfl⟩, named, rfl, rfl⟩
  by_contra different
  exact assigned (by simp [mem_def.mp is, different])

/-- What was authorized is what is forwarded: the backend's model where it is rewritten, and else the
alias that passed the checks, and the response path is that of the forwarded `stream`. -/
def Faithful (cache : Snapshot) (caller : Caller) (body : Json) (url : String) (sent : Body)
    (streaming : Bool) : Prop :=
  ∃ req entry, Checked cache caller body url req entry ∧
    sent.field "model" = some (.string (if entry.rewrites then entry.backendModelID else req.model)) ∧
    (streaming ↔ sent.field "stream" = some (.bool true))

/-- The two readings of the fields agree: on the model, unless it is rewritten and every number can be
decoded, and on whether to stream. -/
def Agree (fields : Fields) (entry : CatalogEntry) (model : String) : Prop :=
  (decodableFields fields ∧ entry.rewrites ∨ lastValue (exactly "model") fields =
    some (.string (if entry.rewrites then entry.backendModelID else model))) ∧
  (lastValue (folded "stream") fields = some (.bool true) ↔
    lastValue (exactly "stream") fields = some (.bool true))

def Unambiguous (cache : Snapshot) : Json → Prop
  | .object fields => ∀ model entry, lastValue (folded "model") fields = some (.string model) →
      cache.catalogEntry model = some entry → Agree fields entry model
  | _ => True

theorem received_field (fields : Fields) (key : String) :
    (Body.received (.object fields)).field key = lastValue (exactly key) fields := lookup_decodeMap

theorem received_unmarshal (fields : Fields) :
    (Body.received (.object fields)).unmarshal.isSome = decodableFields fields := by
  rw [Body.unmarshal]
  split <;> simp_all

theorem faithful_iff_agree {entry : CatalogEntry} (checked : Checked cache caller (.object fields) url req entry) :
    Faithful cache caller (.object fields) url (forwardedBody entry (.received (.object fields)) req.stream)
      req.stream ↔ Agree fields entry req.model := by
  have stream : lastValue (folded "stream") fields = some (.bool true) ↔ req.stream = true := by
    rcases decoded_stream checked.decoded with last | ⟨last, none⟩
    · simp [last]
    · simp [last, none]
  unfold Faithful Agree
  rw [forwardedBody_model, forwardedBody_stream, received_field, received_field, received_unmarshal, stream]
  constructor
  · rintro ⟨req', entry', checked', sent, streams⟩
    cases checked.decoded.symm.trans checked'.decoded
    cases checked.found.symm.trans checked'.found
    refine ⟨?_, streams⟩
    by_cases both : decodableFields fields ∧ entry.rewrites
    · exact .inl both
    · rw [if_neg both] at sent
      exact .inr sent
  · rintro ⟨sent, streams⟩
    refine ⟨req, entry, checked, ?_, streams⟩
    split
    · rename_i both
      rw [if_pos both.2]
    · rename_i other
      exact sent.resolve_left other

/-- **The forwarded model is the authorized model** exactly where the two readings agree. -/
theorem forwarded_model_authorized
    (forwarded : chatCompletions cache caller body = .forwarded url sent streaming) :
    Faithful cache caller body url sent streaming ↔ Unambiguous cache body := by
  obtain ⟨req, entry, checked, named, rfl, rfl⟩ := chatCompletions_forwarded forwarded
  cases body with
  | object fields =>
    have read : lastValue (folded "model") fields = some (.string req.model) :=
      (decoded_model checked.decoded).resolve_right fun none => named none.2
    rw [faithful_iff_agree checked]
    constructor
    · intro agree model entry' read' found
      cases read.symm.trans read'
      cases checked.found.symm.trans found
      exact agree
    · intro agree
      exact agree req.model entry read checked.found
  | null =>
    cases checked.decoded
    exact absurd rfl named
  | _ => cases checked.decoded

def smallEntry (rewrite : Bool) : CatalogEntry :=
  { modelID := "small", backendModelID := "hf/small", backendURL := "http://backend", rewriteModelName := rewrite }

/-- It is all that is granted to anyone. -/
def smallOnly (rewrite : Bool) : Snapshot where
  capabilities _ := ["model:small"]
  catalogEntry model := if model = "small" then some (smallEntry rewrite) else none

theorem small_forwarded {rewrite : Bool} (decoded : decodeRequest body = some ⟨"small", false⟩) :
    chatCompletions (smallOnly rewrite) ⟨"i", none⟩ body = .forwarded "http://backend/v1/chat/completions"
    (forwardedBody (smallEntry rewrite) (.received body) false) false := by
  simp only [chatCompletions, decoded]
  rfl

/-- The key is misspelled, but it is rewritten. -/
theorem forwarded_model_authorized_small :
    Faithful (smallOnly true) ⟨"i", none⟩ (.object [("Model", .string "small")])
    "http://backend/v1/chat/completions"
    (forwardedBody (smallEntry true) (.received (.object [("Model", .string "small")])) false) false := by
  refine (forwarded_model_authorized (small_forwarded (by decide))).mpr fun model entry read found => ?_
  have small : model = "small" := by
    cases read
    rfl
  subst small
  cases found
  exact ⟨.inl (by decide), by decide⟩

/-- **A model that was not authorized is forwarded**: the struct reads the last spelling of the key, and
the backend the exact one. -/
theorem unauthorized_model_forwarded :
    ¬ ∀ (cache : Snapshot) (caller : Caller) (body : Json) (url : String) (sent : Body)
    (streaming : Bool), chatCompletions cache caller body = .forwarded url sent streaming →
    Faithful cache caller body url sent streaming := by
  intro claim
  obtain ⟨req, entry, checked, sent, _⟩ := claim (smallOnly false) ⟨"i", none⟩
    (.object [("model", .string "large"), ("Model", .string "small")]) _ _ _ (small_forwarded (by decide))
  obtain rfl : req = ⟨"small", false⟩ := (some.inj checked.decoded).symm
  cases checked.found
  exact absurd sent (by decide)

end Iterabase.Proxy
