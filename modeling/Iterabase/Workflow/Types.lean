/-
**Workflow definitions.**

The canonical specification of a workflow, as it is decoded from a definition: the graph an attempt
walks, and what each node shows and asks. A kind or a type that a specification may get wrong stays a
text.

* `CanonicalSpec`, `CanonicalGraph`, `CanonicalNode` — the data of `store.go`.
-/

import Iterabase.Data.Json

namespace Iterabase.Workflow

open Data

structure LocalizedText where
  en : String := ""
  pt : String := ""

def LocalizedText.complete (text : LocalizedText) : Bool := text.en ≠ "" ∧ text.pt ≠ ""

/-- `json.RawMessage`, up to white space around it. -/
inductive RawMessage
  | blank
  /-- The two bytes of an empty object. -/
  | emptyObject
  /-- Any other text, and its value where it has one. -/
  | text (value : Option Json)
  deriving DecidableEq

/-- What is taken from libraries. -/
structure Library where
  compiles : RawMessage → Bool
  /-- The value conforms to a schema that compiles. -/
  conforms : Json → RawMessage → Bool
  /-- `reflect.DeepEqual` on the decoded values. -/
  equalJSON : RawMessage → Json → Bool
  /-- The floating-point product that scales a fraction to its unit. -/
  fraction : Nat → Nat → Nat → Nat

/-! ### Presentation -/

structure ResultOutcomePresentation where
  outcome : String
  summary : LocalizedText

structure ResultValuePresentation where
  value : RawMessage
  label : LocalizedText

structure ResultFieldPresentation where
  path : List String
  label : LocalizedText
  options : List ResultValuePresentation := []

structure ResultPresentation where
  outcomes : List ResultOutcomePresentation
  fields : List ResultFieldPresentation := []

structure HumanGateFieldPresentation where
  key : String
  label : LocalizedText
  options : List LocalizedText := []

structure HumanGatePresentation where
  outcomes : List LocalizedText
  fields : List HumanGateFieldPresentation := []

structure HumanGate where
  type : String
  title : LocalizedText
  description : LocalizedText
  responseSchema : RawMessage := .blank
  presentation : HumanGatePresentation

/-! ### Graphs -/

def nodeAgentTask : String := "agent_task"

def nodeHumanGate : String := "human_gate"

structure CanonicalNode where
  key : String
  label : LocalizedText
  kind : String
  prompt : String := ""
  modelRef : String := ""
  skills : List String := []
  capabilities : List String := []
  workspaceTools : Bool := false
  timeout : String := ""
  outcomes : List String
  outputSchema : Option RawMessage := none
  resultPresentation : Option ResultPresentation := none
  humanGate : Option HumanGate := none

structure CanonicalEdge where
  fromNode : String
  outcome : String
  toNode : String

structure CanonicalTerminalOutcome where
  node : String
  outcome : String

structure CanonicalGraph where
  entryNode : String
  maxTransitions : Int
  nodes : List CanonicalNode
  edges : List CanonicalEdge := []
  terminalOutcomes : List CanonicalTerminalOutcome

structure CanonicalSkill where
  name : String
  version : String
  digest : String

structure CanonicalCapability where
  tool : String
  maxEffectClass : String

/-- `CanonicalSpec`, as far as attempts use it. -/
structure CanonicalSpec where
  skills : List CanonicalSkill := []
  requestedCapabilities : List CanonicalCapability := []
  defaultModelRef : String := ""
  valueModelRef : String := ""
  graph : CanonicalGraph

end Iterabase.Workflow
