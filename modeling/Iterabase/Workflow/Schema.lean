/-
**Workflow definitions — the schemas of results and responses.**

The part of `graph.go` that holds the presentation of a result, or of a human gate, against the JSON
schema it presents. Errors carry their messages, without the text a library adds to them.

* `structFields`, `named` — how `encoding/json` decodes an object into a struct: a field is matched
  whatever its case, and the last value of a field stands.
* `validateResultFields` — every property path of a result schema is presented exactly once.
* `validateDashboardResponseSchema`, `validateHumanGatePresentation` — the same for a human gate.
-/

import Mathlib
import Iterabase.Workflow.Types

namespace Iterabase.Workflow

open Data

/-! ### Errors -/

def refuse (p : Prop) [Decidable p] (message : String) : Except String Unit :=
  if p then .error message else .ok ()

def forEach {α : Type} (check : Nat → α → Except String Unit) : Nat → List α → Except String Unit
  | _, [] => .ok ()
  | i, x :: rest => do
      check i x
      forEach check (i + 1) rest

/-- One character of `%q`, where it is ASCII or printable. -/
def quoteChar (c : Char) : String :=
  if c = '"' then "\\\""
  else if c = '\\' then "\\\\"
  else if c.toNat = 7 then "\\a"
  else if c.toNat = 8 then "\\b"
  else if c.toNat = 9 then "\\t"
  else if c.toNat = 10 then "\\n"
  else if c.toNat = 11 then "\\v"
  else if c.toNat = 12 then "\\f"
  else if c.toNat = 13 then "\\r"
  else if c.toNat < 16 then "\\x0" ++ String.ofList (Nat.toDigits 16 c.toNat)
  else if c.toNat < 32 ∨ c.toNat = 127 then "\\x" ++ String.ofList (Nat.toDigits 16 c.toNat)
  else c.toString

def quote (text : String) : String := "\"" ++ String.join (text.toList.map quoteChar) ++ "\""

/-! ### Decoding -/

/-- The fields of an object that is decoded into a struct or a map. -/
def structFields : Json → Option (List (String × Json))
  | .object fields => some fields
  | .null => some []
  | _ => none

/-- The smallest character that folds to this one, of those that fold to a letter. -/
def foldChar (c : Char) : Char :=
  if c = Char.ofNat 0x17F then 'S' else if c = Char.ofNat 0x212A then 'K' else c.toUpper

def foldName (name : String) : String := String.ofList (name.toList.map foldChar)

def named (name : String) (fields : List (String × Json)) : List Json :=
  (fields.filter fun field => foldName field.1 = foldName name).map Prod.snd

def decodeString (values : List Json) : Option String :=
  values.foldlM (fun text value => match value with
    | .null => some text
    | .string text => some text
    | _ => none) ""

def decodeBool (values : List Json) : Option (Option Bool) :=
  values.foldlM (fun _ value => match value with
    | .null => some none
    | .bool flag => some (some flag)
    | _ => none) none

def decodeMap (values : List Json) : Option (List (String × Json)) :=
  values.foldlM (fun entries value => match value with
    | .null => some []
    | .object fields => some (entries ++ fields)
    | _ => none) []

def decodeSlice (values : List Json) : Option (List Json) :=
  values.foldlM (fun _ value => match value with
    | .null => some []
    | .array items => some items
    | _ => none) []

def decodeStrings : Json → Option (List String)
  | .null => some []
  | .array items => items.mapM fun
      | .string text => some text
      | .null => some ""
      | _ => none
  | _ => none

def mapGet (fields : List (String × Json)) (key : String) : Option Json :=
  (fields.reverse.find? fun field => field.1 = key).map Prod.snd

def mapKeys (fields : List (String × Json)) : List String :=
  (fields.map Prod.fst).eraseDups.insertionSort (· ≤ ·)

/-! ### Labels -/

def validateLocalizedLabels (labels : List LocalizedText) (path : String) : Except String Unit :=
  forEach (fun i label => refuse (¬ label.complete) s!"{path}[{i}] requires en and pt text") 0 labels

def compileSchema (lib : Library) (schema : Option RawMessage) : Except String Unit :=
  match schema with
  | none | some .blank | some .emptyObject => .ok ()
  | some schema => refuse (¬ lib.compiles schema) "compile JSON Schema"

/-! ### Responses -/

def responseSchemaProperties : RawMessage → Except String (List (String × Json))
  | .blank | .emptyObject => .ok []
  | .text value =>
      match (value.bind structFields).bind fun fields => decodeMap (named "properties" fields) with
      | none => .error "read response-schema properties"
      | some properties => .ok properties

/-- The keywords of a response schema that the form supports. -/
def responseKeywords : List String :=
  ["$comment", "$id", "$schema", "additionalProperties", "default", "deprecated", "description",
    "examples", "properties", "readOnly", "required", "title", "type", "writeOnly"]

/-- The keywords of a property that the form supports. -/
def propertyKeywords : List String :=
  ["$comment", "$id", "$schema", "default", "deprecated", "description", "enum", "examples",
    "readOnly", "title", "type", "writeOnly"]

def validateDashboardResponseProperty (key : String) (raw : Json) : Except String Unit := do
  match structFields raw with
  | none => .error s!"property {quote key} must be a JSON object"
  | some property =>
      forEach (fun _ keyword => refuse (keyword ∉ propertyKeywords)
        s!"property {quote key} keyword {quote keyword} is not supported by the v1 Dashboard form")
        0 (mapKeys property)
      match mapGet property "enum" with
      | some values =>
          refuse ((decodeSlice [values]).all List.isEmpty)
            s!"property {quote key} enum must contain at least one value"
      | none =>
          match (mapGet property "type").bind fun type => decodeString [type] with
          | none => .error s!"property {quote key} must declare a direct type or enum"
          | some type =>
              refuse (type ∉ ["string", "boolean", "number", "integer", "object", "array"])
                s!"property {quote key} type {quote type} is not supported by the v1 Dashboard form"

def validateDashboardResponseSchema (raw : RawMessage) : Except String Unit :=
  match raw with
  | .blank | .emptyObject => .ok ()
  | .text value => do
      match value.bind structFields with
      | none => .error "must be a JSON object"
      | some schema =>
          forEach (fun _ keyword => refuse (keyword ∉ responseKeywords)
            s!"keyword {quote keyword} is not supported by the v1 Dashboard form") 0 (mapKeys schema)
          refuse (((mapGet schema "type").bind fun type => decodeString [type]) ≠ some "object")
            "must declare type object for the v1 Dashboard form"
          let properties ← responseSchemaProperties raw
          match mapGet schema "required" with
          | none => pure ()
          | some required =>
              match decodeStrings required with
              | none => .error "required must be an array of property names"
              | some required =>
                  forEach (fun _ key => refuse (key ∉ properties.map Prod.fst)
                    s!"required property {quote key} must be declared directly in properties")
                    0 required
          match mapGet schema "additionalProperties" with
          | none | some .null | some (.bool _) => pure ()
          | some _ => .error "additionalProperties must be a boolean for the v1 Dashboard form"
          forEach (fun _ key =>
            validateDashboardResponseProperty key ((mapGet properties key).getD .null))
            0 (mapKeys properties)

/-- `indexHumanGateFields`, with the keys that were indexed. -/
def indexHumanGateFields (indexed : List String) :
    Nat → List HumanGateFieldPresentation → Except String Unit
  | _, [] => .ok ()
  | i, field :: rest => do
      refuse (field.key = "") s!"fields[{i}].key is required"
      refuse (field.key ∈ indexed) s!"field {quote field.key} is duplicated"
      refuse (¬ field.label.complete) s!"field {quote field.key} label requires en and pt text"
      indexHumanGateFields (field.key :: indexed) (i + 1) rest

def validateHumanGateFieldOptions (key : String) (raw : Json) (labels : List LocalizedText) :
    Except String Unit :=
  match (structFields raw).bind fun fields => decodeSlice (named "enum" fields) with
  | none => .error s!"responseSchema property {quote key} must be an object"
  | some enum => do
      refuse (labels.length ≠ enum.length)
        s!"field {quote key} options must provide one localized label for each enum value"
      validateLocalizedLabels labels s!"field {quote key} options"

def validateHumanGatePresentation (outcomes : List String) (gate : HumanGate) :
    Except String Unit := do
  let presentation := gate.presentation
  refuse (presentation.outcomes.length ≠ outcomes.length)
    "outcomes must provide one localized label for each declared outcome"
  validateLocalizedLabels presentation.outcomes "outcomes"
  let properties ← responseSchemaProperties gate.responseSchema
  indexHumanGateFields [] 0 presentation.fields
  forEach (fun _ field => refuse (field.key ∉ properties.map Prod.fst)
    s!"field {quote field.key} does not exist in responseSchema.properties") 0 presentation.fields
  forEach (fun _ key =>
    match presentation.fields.find? fun field => field.key = key with
    | none => .error s!"responseSchema property {quote key} requires localized presentation"
    | some field =>
        validateHumanGateFieldOptions key ((mapGet properties key).getD .null) field.options)
    0 (mapKeys properties)

/-! ### Results -/

def resultPathLabel (path : List String) : String := "/" ++ String.intercalate "/" path

/-- The keywords that a presented schema may not use. -/
def composedKeywords : List String := ["$ref", "allOf", "anyOf", "if", "not", "oneOf"]

/-- The `type` of a schema; what is no text is ignored. -/
def schemaType (schema : List (String × Json)) : String :=
  match mapGet schema "type" with
  | some (.string type) => type
  | _ => ""

/-- `effectiveResultSchema`: the schema that is presented (the items of an array), its type, and
whether it enumerates values. -/
def effectiveResultSchema (raw : Json) (path : String) : Except String (Json × String × Bool) := do
  match structFields raw with
  | none => .error s!"{path} schema must be an object"
  | some schema =>
      forEach (fun _ keyword => refuse ((mapGet schema keyword).isSome)
        s!"{path} schema keyword {quote keyword} is not supported by resultPresentation")
        0 composedKeywords
      if (mapGet schema "enum").isSome then return (raw, schemaType schema, true)
      else if schemaType schema = "array" then
        match mapGet schema "items" with
        | none => .error s!"{path} array schema must declare direct items"
        | some items =>
            match structFields items with
            | none => .error s!"{path} item schema must be an object"
            | some schema =>
                forEach (fun _ keyword => refuse ((mapGet schema keyword).isSome)
                  s!"{path} item schema keyword {quote keyword} is not supported by resultPresentation")
                  0 composedKeywords
                if (mapGet schema "enum").isSome then return (items, schemaType schema, true)
                else if schemaType schema = "" then
                  .error s!"{path} schema must declare a direct type or enum"
                else return (items, schemaType schema, false)
      else if schemaType schema = "" then .error s!"{path} schema must declare a direct type or enum"
      else return (raw, schemaType schema, false)

/-- `validateResultOptions`, from the values that are left to match. -/
def matchResultOptions (lib : Library) (path : String) :
    Nat → List Json → List ResultValuePresentation → Except String Unit
  | _, _, [] => .ok ()
  | i, values, option :: rest => do
      refuse (¬ option.label.complete) s!"{path} options[{i}] label requires en and pt text"
      match values.findIdx? fun value => lib.equalJSON option.value value with
      | none => .error s!"{path} options[{i}] value is not an unmatched schema enum value"
      | some j => matchResultOptions lib path (i + 1) (values.eraseIdx j) rest

def validateResultOptions (lib : Library) (enum : Option Json)
    (options : List ResultValuePresentation) (path : String) : Except String Unit :=
  match enum with
  | none => refuse (options ≠ []) s!"{path} options require a schema enum"
  | some enum =>
      match decodeSlice [enum] with
      | none | some [] => .error s!"{path} enum must contain at least one value"
      | some values => do
          refuse (options.length ≠ values.length)
            s!"{path} options must localize every enum value exactly once"
          matchResultOptions lib path 0 values options

def validateResultFieldSchema (lib : Library) (raw : Json) (options : List ResultValuePresentation)
    (path : String) : Except String Unit := do
  let (effective, type, hasEnum) ← effectiveResultSchema raw path
  match structFields effective with
  | none => .error s!"{path} schema must be an object"
  | some schema =>
      validateResultOptions lib (mapGet schema "enum") options path
      refuse (¬ hasEnum ∧ type ∉ ["string", "boolean", "number", "integer", "object"])
        s!"{path} type {quote type} is not supported by resultPresentation"

def validatePropertylessResultRoot (type : String) (additional : Option Bool) (path : String) :
    Except String Unit := do
  refuse (type ≠ "object") s!"{path} requires a direct object schema"
  refuse (additional.getD true) s!"{path} root schema must set additionalProperties to false"

/-- `collectResultSchemaFields`: the schemas of the nested properties, by path. The rounds bound the
depth of the schema. -/
def collectResultSchemaFields (path : String) :
    Nat → List String → Json → Except String (List (List String × Json))
  | 0, _, _ => .error s!"{path} schema must be an object"
  | rounds + 1, base, raw =>
      match (structFields raw).bind fun fields => do
          let type ← decodeString (named "type" fields)
          let properties ← decodeMap (named "properties" fields)
          let additional ← decodeBool (named "additionalProperties" fields)
          return (type, properties, additional) with
      | none => .error s!"{path} schema must be an object"
      | some (type, properties, additional) =>
          if properties = [] then
            if base ≠ [] then
              .error s!"{path} object path {quote (resultPathLabel base)} must declare direct properties"
            else do
              validatePropertylessResultRoot type additional path
              return []
          else do
            refuse (type ≠ "object") s!"{path} requires a direct object schema"
            refuse (additional.getD true)
              s!"{path} schema with presented properties must set additionalProperties to false"
            (mapKeys properties).foldlM (fun collected key => do
              let fieldPath := base ++ [key]
              let fieldSchema := (mapGet properties key).getD .null
              let (effective, type, hasEnum) ←
                effectiveResultSchema fieldSchema s!"{path} path {quote (resultPathLabel fieldPath)}"
              let nested ←
                if ¬ hasEnum ∧ type = "object" then
                  collectResultSchemaFields path rounds fieldPath effective
                else pure []
              return collected ++ (fieldPath, fieldSchema) :: nested) []

/-- `indexResultPresentations`, with the paths that were indexed. -/
def indexResultPresentations (lib : Library) (schemas : List (List String × Json)) (path : String) :
    Nat → List (List String) → List ResultFieldPresentation → Except String (List (List String))
  | _, indexed, [] => .ok indexed
  | i, indexed, field :: rest => do
      let label := s!"{path} path {quote (resultPathLabel field.path)}"
      refuse (field.path = []) s!"{path}[{i}].path is required"
      refuse ("" ∈ field.path) s!"{path}[{i}].path cannot contain an empty segment"
      refuse (field.path ∈ indexed) s!"{label} is duplicated"
      refuse (¬ field.label.complete) s!"{label} label requires en and pt text"
      match schemas.find? fun entry => entry.1 = field.path with
      | none => .error s!"{label} does not exist in the result schema"
      | some (_, schema) =>
          validateResultFieldSchema lib schema field.options label
          indexResultPresentations lib schemas path (i + 1) (field.path :: indexed) rest

mutual

def depth : Json → Nat
  | .array items => depthItems items + 1
  | .object fields => depthFields fields + 1
  | _ => 1

def depthItems : List Json → Nat
  | [] => 0
  | item :: rest => max (depth item) (depthItems rest)

def depthFields : List (String × Json) → Nat
  | [] => 0
  | (_, value) :: rest => max (depth value) (depthFields rest)

end

def validateResultFields (lib : Library) (raw : RawMessage) (fields : List ResultFieldPresentation)
    (path : String) : Except String Unit :=
  match raw with
  | .blank | .emptyObject =>
      refuse (fields ≠ []) s!"{path} cannot declare fields without a direct object schema"
  | .text none => .error s!"{path} schema must be an object"
  | .text (some schema) => do
      let schemas ← collectResultSchemaFields path (depth schema) [] schema
      let indexed ← indexResultPresentations lib schemas path 0 [] fields
      refuse (indexed.length ≠ schemas.length)
        s!"{path} must present every declared schema property exactly once"
      forEach (fun _ entry => refuse (entry.1 ∉ indexed)
        s!"{path} schema property path {quote (resultPathLabel entry.1)} requires localized presentation")
        0 schemas

end Iterabase.Workflow
