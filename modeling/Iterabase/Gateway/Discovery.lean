/-
**The tool gateway — which tools a caller is shown, and which it may invoke.**

One policy, written twice: `DiscoverEffectiveTools` is a join of the pins, the versions and the grants
of a pool, filtered by a map from the tool to a requested capability; `InvokeTool` resolves the pin
and asks `authorize`, which goes through the capabilities in order.

* `Registry` — `tool_versions`, `attempt_tool_pins` and `pool_grants` with their unique keys.
* `discoverEffectiveTools`, `resolveTool` — the two paths.
* `mem_discoverEffectiveTools`, `resolveTool_eq_ok` — what each of them admits.
* `discovery_iff_authorization` — **where they agree.**
-/

import Iterabase.Data.Except
import Iterabase.Gateway.Conversions
import Mathlib

namespace Iterabase.Gateway

open Conc Data List Option Table

/-! ### Tables -/

structure ToolPin where
  attemptID : String
  toolName : String
  toolVersionDigest : String

structure PoolGrant where
  poolID : String
  toolName : String
  maxEffectClass : EffectClass
  allowedActions : Json := .array []
  deleted : Bool := false

/-- `Capability`. The ceiling is a text of the workflow definition. -/
structure Capability where
  tool : String
  maxEffectClass : String := ""
  actions : List String := []

structure Registry where
  versions : Table fun tv : ToolVersion => (tv.name, tv.digest) := .empty
  pins : Table fun pin : ToolPin => (pin.attemptID, pin.toolName) := .empty
  grants : Table fun grant : PoolGrant => (grant.poolID, grant.toolName) := .empty

/-! ### Effects and actions -/

def effectRank (effect : String) : Nat :=
  if effect = "read_only" then 1
  else if effect = "idempotent_write" then 2
  else if effect = "non_idempotent_write" then 3
  else 0

def actionForTool (tv : ToolVersion) : String := tv.name

/-- One of these actions is the tool's, or the wildcard; no action at all narrows nothing. -/
def actionsAllow (actions : List String) (tv : ToolVersion) : Bool :=
  actions.isEmpty || actions.any fun action => action = actionForTool tv || action = "*"

def capabilityAllowsAction (capability : Capability) (tv : ToolVersion) : Bool :=
  actionsAllow capability.actions tv

/-- The tool's effect exceeds the capability's ceiling, where it has one. -/
def exceedsCapability (capability : Capability) (tv : ToolVersion) : Bool :=
  capability.maxEffectClass ≠ "" &&
    effectRank capability.maxEffectClass < effectRank tv.effectClass.text

/-- `json.Unmarshal` of `allowed_actions` into a slice of strings, whose error is dropped: an element
of another type is left empty, and a value that is no array leaves no slice. -/
def PoolGrant.actions (grant : PoolGrant) : List String :=
  match grant.allowedActions with
  | .array items => items.map fun
      | .string action => action
      | _ => ""
  | _ => []

/-! ### Discovery -/

/-- `capByTool`: a later capability of a tool replaces an earlier one. -/
def capByTool (permitted : List Capability) : String → Option Capability :=
  permitted.foldl (fun byTool capability => Function.update byTool capability.tool (some capability))
    fun _ => none

namespace Registry

variable (r : Registry)

/-- The query of `DiscoverEffectiveTools`, up to its ORDER BY. No names at all is SQL's NULL. -/
def discoverRows (attemptID poolID : String) (names : Option (List String)) :
    List ToolVersion :=
  r.versions.rows.flatMap fun tv =>
    (r.pins.rows.filter fun pin => pin.toolName = tv.name ∧ pin.toolVersionDigest = tv.digest ∧
      pin.attemptID = attemptID).flatMap fun _ =>
        (r.grants.rows.filter fun grant => grant.toolName = tv.name ∧ grant.deleted = false ∧
          grant.poolID = poolID ∧
          effectRank tv.effectClass.text ≤ effectRank grant.maxEffectClass.text ∧
          names.all fun names => tv.name ∈ names).map fun _ => tv

/-- The filter on the rows: `nil` is the turn path. -/
def shown (permitted : Option (List Capability)) (tv : ToolVersion) : Bool :=
  match permitted with
  | none => true
  | some permitted =>
      match capByTool permitted tv.name with
      | none => false
      | some capability => !exceedsCapability capability tv && capabilityAllowsAction capability tv

def discoverEffectiveTools (attemptID poolID : String)
    (permitted : Option (List Capability)) : List ToolVersion :=
  (r.discoverRows attemptID poolID (permitted.map fun permitted => permitted.map Capability.tool)).filter
    (shown permitted)

/-! ### Authorization -/

def getAttemptToolPin (attemptID toolName : String) : Option String :=
  (r.pins.find (attemptID, toolName)).map ToolPin.toolVersionDigest

def getToolVersion (name digest : String) : Option ToolVersion :=
  r.versions.find (name, digest)

def getPoolGrant (poolID toolName : String) : Option PoolGrant :=
  (r.grants.find (poolID, toolName)).filter fun grant => !grant.deleted

end Registry

/-- Why a call is refused before its arguments are looked at. -/
inductive Refusal
  | notPinned (tool attemptID : String)
  | digestMismatch (requested pinned attemptID : String)
  | unavailable (tool digest : String)
  | workflowCeiling (effect ceiling : String)
  | workflowAction (action : String)
  | notInWorkflow
  | notGranted
  | poolCeiling (effect ceiling : String)
  | poolAction (action : String)

/-- What the caller reads, with `strconv.Quote` for the actions. -/
def Refusal.text (quote : String → String) : Refusal → String
  | .notPinned tool attemptID =>
      s!"tool {tool} is not pinned for attempt {attemptID}; no substitution (ARCH-007)"
  | .digestMismatch requested pinned attemptID =>
      s!"requested digest {requested} does not match the pinned digest {pinned} for attempt {attemptID} (ARCH-007)"
  | .unavailable tool digest => s!"pinned tool {tool}@{digest} unavailable; no substitution (ARCH-007)"
  | .workflowCeiling effect ceiling =>
      s!"tool effect_class {effect} exceeds workflow-requested ceiling {ceiling}"
  | .workflowAction action => "action " ++ quote action ++ " not permitted by workflow capability"
  | .notInWorkflow => "tool not in workflow-permitted set"
  | .notGranted => "tool not granted to pool"
  | .poolCeiling effect ceiling =>
      s!"tool effect_class {effect} exceeds pool grant ceiling {ceiling}"
  | .poolAction action => "action " ++ quote action ++ " not permitted by pool grant"

/-- The loop of `authorizeWorkflowCapability`: the first capability of the tool decides. -/
def authorizeCapabilities (tv : ToolVersion) : List Capability → Except Refusal Unit
  | [] => .error .notInWorkflow
  | capability :: rest =>
      if capability.tool ≠ tv.name then authorizeCapabilities tv rest
      else if exceedsCapability capability tv then
        .error (.workflowCeiling tv.effectClass.text capability.maxEffectClass)
      else if capabilityAllowsAction capability tv then .ok ()
      else .error (.workflowAction (actionForTool tv))

/-- `authorizeWorkflowCapability`: `nil` is the turn path. -/
def authorizeWorkflowCapability (permitted : Option (List Capability)) (tv : ToolVersion) :
    Except Refusal Unit :=
  match permitted with
  | none => .ok ()
  | some permitted => authorizeCapabilities tv permitted

namespace Registry

def authorize (r : Registry) (poolID : String) (tv : ToolVersion)
    (permitted : Option (List Capability)) : Except Refusal Unit := do
  authorizeWorkflowCapability permitted tv
  match r.getPoolGrant poolID tv.name with
  | none => throw .notGranted
  | some grant =>
      if effectRank grant.maxEffectClass.text < effectRank tv.effectClass.text then
        throw (.poolCeiling tv.effectClass.text grant.maxEffectClass.text)
      else if actionsAllow grant.actions tv then return ()
      else throw (.poolAction (actionForTool tv))

/-- Steps 2 and 3 of `InvokeTool`: the version it goes on with. An empty digest is none. -/
def resolveTool (r : Registry) (attemptID poolID : String) (permitted : Option (List Capability))
    (toolName digest : String) : Except Refusal ToolVersion := do
  match r.getAttemptToolPin attemptID toolName with
  | none => throw (.notPinned toolName attemptID)
  | some pinned =>
      if digest ≠ "" ∧ digest ≠ pinned then throw (.digestMismatch digest pinned attemptID)
      else
        match r.getToolVersion toolName pinned with
        | none => throw (.unavailable toolName pinned)
        | some tv =>
            r.authorize poolID tv permitted
            return tv

end Registry

/-! ### What the capabilities say -/

def Capability.admits (capability : Capability) (tv : ToolVersion) : Bool :=
  !exceedsCapability capability tv && capabilityAllowsAction capability tv

def firstCapability (permitted : List Capability) (tool : String) : Option Capability :=
  permitted.find? fun capability => capability.tool = tool

def lastCapability (permitted : List Capability) (tool : String) : Option Capability :=
  firstCapability permitted.reverse tool

/-- No narrowing, or the chosen capability of the tool admits the version. -/
def admittedBy (choose : List Capability → String → Option Capability)
    (permitted : Option (List Capability)) (tv : ToolVersion) : Bool :=
  permitted.all fun permitted => (choose permitted tv.name).any fun c => c.admits tv

/-- **The map holds the last capability of each tool.** -/
theorem capByTool_eq_lastCapability (permitted : List Capability) (tool : String) :
    capByTool permitted tool = lastCapability permitted tool := by
  -- a fold over an extended list sees the last capability last
  induction permitted using List.reverseRecOn with
  | nil => rfl
  | append_singleton permitted capability ih =>
    unfold capByTool at ih ⊢
    rw [foldl_append]
    simp only [foldl_cons, foldl_nil, lastCapability, firstCapability, reverse_append,
      reverse_cons, reverse_nil, nil_append, cons_append, find?_cons]
    by_cases same : capability.tool = tool
    · subst same
      simp
    · rw [Function.update_of_ne (Ne.symm same)]
      simpa [same, lastCapability, firstCapability] using ih

theorem shown_eq_admittedBy (permitted : Option (List Capability)) (tv : ToolVersion) :
    Registry.shown permitted tv = admittedBy lastCapability permitted tv := by
  cases permitted with
  | none => rfl
  | some permitted =>
    simp only [Registry.shown, admittedBy, all_some, capByTool_eq_lastCapability]
    cases lastCapability permitted tv.name <;> rfl

theorem authorizeCapabilities_eq_ok (tv : ToolVersion) (permitted : List Capability) :
    authorizeCapabilities tv permitted = .ok () ↔ (firstCapability permitted tv.name).any fun c =>
    c.admits tv := by
  induction permitted with
  | nil => simp [authorizeCapabilities, firstCapability]
  | cons capability rest ih =>
    unfold authorizeCapabilities firstCapability
    by_cases same : capability.tool = tv.name
    · by_cases exceeds : exceedsCapability capability tv <;>
        by_cases allows : capabilityAllowsAction capability tv <;>
        simp [same, exceeds, allows, Capability.admits]
    · simpa [same, firstCapability] using ih

theorem authorizeWorkflowCapability_eq_ok (permitted : Option (List Capability)) (tv : ToolVersion) :
    authorizeWorkflowCapability permitted tv = .ok () ↔ admittedBy firstCapability permitted tv := by
  cases permitted with
  | none => simp [authorizeWorkflowCapability, admittedBy]
  | some permitted => exact authorizeCapabilities_eq_ok tv permitted

theorem mem_names_of_admitted {permitted : Option (List Capability)} {tv : ToolVersion}
    (admitted : admittedBy lastCapability permitted tv) :
    (permitted.map fun permitted => permitted.map Capability.tool).all fun names => tv.name ∈
    names := by
  cases permitted with
  | none => rfl
  | some permitted =>
    simp only [admittedBy, Option.all_some, Option.any_eq_true] at admitted
    obtain ⟨capability, found, _⟩ := admitted
    have member := mem_reverse.mp (mem_of_find?_eq_some found)
    have same : capability.tool = tv.name := by simpa using find?_some found
    simp only [map_some, all_some, decide_eq_true_eq, ← same]
    exact mem_map_of_mem member

/-! ### What each path admits -/

namespace Registry

variable {r : Registry} {attemptID poolID : String} {permitted : Option (List Capability)}
  {tv : ToolVersion}

/-- **The version is pinned for the attempt and within the ceiling of the pool's grant**: what both
paths ask. -/
structure Eligible (r : Registry) (attemptID poolID : String) (tv : ToolVersion) (grant : PoolGrant) :
    Prop where
  pinned : r.getAttemptToolPin attemptID tv.name = some tv.digest
  version : r.getToolVersion tv.name tv.digest = some tv
  granted : r.getPoolGrant poolID tv.name = some grant
  ceiling : effectRank tv.effectClass.text ≤ effectRank grant.maxEffectClass.text

theorem getAttemptToolPin_eq_some {tool digest : String} :
    r.getAttemptToolPin attemptID tool = some digest ↔ ∃ pin ∈ r.pins.rows, pin.toolName = tool ∧
    pin.toolVersionDigest = digest ∧ pin.attemptID = attemptID := by
  simp only [getAttemptToolPin, map_eq_some_iff, find_eq_some, Prod.mk.injEq]
  constructor
  · rintro ⟨pin, ⟨member, attempt, name⟩, same⟩
    exact ⟨pin, member, name, same, attempt⟩
  · rintro ⟨pin, member, name, same, attempt⟩
    exact ⟨pin, ⟨member, attempt, name⟩, same⟩

theorem getPoolGrant_eq_some {tool : String} {grant : PoolGrant} :
    r.getPoolGrant poolID tool = some grant ↔ grant ∈ r.grants.rows ∧ grant.toolName = tool ∧
    grant.deleted = false ∧ grant.poolID = poolID := by
  simp only [getPoolGrant, filter_eq_some_iff, find_eq_some, Prod.mk.injEq,
    Bool.not_eq_true']
  constructor
  · rintro ⟨⟨member, pool, name⟩, live⟩
    exact ⟨member, name, live, pool⟩
  · rintro ⟨member, name, live, pool⟩
    exact ⟨⟨member, pool, name⟩, live⟩

theorem getToolVersion_self : r.getToolVersion tv.name tv.digest = some tv ↔ tv ∈ r.versions.rows := by
  simp only [getToolVersion, find_eq_some, and_true]

theorem getToolVersion_key {name digest : String} (found : r.getToolVersion name digest = some tv) :
    tv.name = name ∧ tv.digest = digest := by
  simpa using find_key found

theorem mem_discoverEffectiveTools : tv ∈ r.discoverEffectiveTools attemptID poolID permitted ↔
    (∃ grant, r.Eligible attemptID poolID tv grant) ∧ admittedBy lastCapability permitted tv := by
  simp only [discoverEffectiveTools, discoverRows, mem_filter, mem_flatMap, List.mem_map,
    decide_eq_true_eq, shown_eq_admittedBy]
  constructor
  · rintro ⟨⟨tv', version, pin, ⟨member, pinned⟩, grant, ⟨listed, name, live, pool, ceiling, _⟩,
      rfl⟩, admitted⟩
    exact ⟨⟨grant, getAttemptToolPin_eq_some.mpr ⟨pin, member, pinned⟩,
      getToolVersion_self.mpr version, getPoolGrant_eq_some.mpr ⟨listed, name, live, pool⟩,
      ceiling⟩, admitted⟩
  · rintro ⟨⟨grant, eligible⟩, admitted⟩
    obtain ⟨pin, member, pinned⟩ := getAttemptToolPin_eq_some.mp eligible.pinned
    obtain ⟨listed, name, live, pool⟩ := getPoolGrant_eq_some.mp eligible.granted
    exact ⟨⟨tv, getToolVersion_self.mp eligible.version, pin, ⟨member, pinned⟩, grant,
      ⟨listed, name, live, pool, eligible.ceiling, mem_names_of_admitted admitted⟩, rfl⟩, admitted⟩

theorem authorize_eq_ok : r.authorize poolID tv permitted = .ok () ↔
    admittedBy firstCapability permitted tv ∧ ∃ grant, r.getPoolGrant poolID tv.name = some grant ∧
    effectRank tv.effectClass.text ≤ effectRank grant.maxEffectClass.text ∧
    actionsAllow grant.actions tv := by
  rw [← authorizeWorkflowCapability_eq_ok]
  simp only [authorize, bind_ok]
  refine ⟨fun ⟨_, capable, granted⟩ => ⟨capable, ?_⟩, fun ⟨capable, grant, found, ceiling, allows⟩ =>
    ⟨(), capable, by simp [found, Nat.not_lt.mpr ceiling, allows]⟩⟩
  split at granted
  · cases granted
  rename_i grant _
  split at granted
  · cases granted
  rename_i ceiling
  split at granted
  · exact ⟨grant, ‹_›, Nat.le_of_not_lt ceiling, ‹_›⟩
  · cases granted

/-- **What may be invoked**, where the caller names no digest. -/
theorem resolveTool_eq_ok {toolName : String} : r.resolveTool attemptID poolID permitted toolName "" =
    .ok tv ↔ tv.name = toolName ∧ admittedBy firstCapability permitted tv ∧ ∃ grant,
    r.Eligible attemptID poolID tv grant ∧ actionsAllow grant.actions tv := by
  unfold resolveTool
  rcases pinned : r.getAttemptToolPin attemptID toolName with _ | digest
  · simp only [throw_ok, false_iff]
    rintro ⟨rfl, _, grant, eligible, _⟩
    rw [eligible.pinned] at pinned
    cases pinned
  rcases version : r.getToolVersion toolName digest with _ | tv'
  · simp only [throw_ok, ne_eq, not_true_eq_false, false_and, if_false, version, false_iff]
    rintro ⟨rfl, _, grant, eligible, _⟩
    rw [eligible.pinned] at pinned
    cases pinned
    rw [eligible.version] at version
    cases version
  -- the row that is found has the name and the digest of the pin
  obtain ⟨rfl, rfl⟩ := getToolVersion_key version
  simp only [ne_eq, not_true_eq_false, false_and, if_false, version, bind_ok, return_ok]
  constructor
  · rintro ⟨_, authorized, rfl⟩
    obtain ⟨admitted, grant, granted, ceiling, allows⟩ := authorize_eq_ok.mp authorized
    exact ⟨rfl, admitted, grant, ⟨pinned, version, granted, ceiling⟩, allows⟩
  · rintro ⟨name, admitted, grant, eligible, allows⟩
    -- the pin and the version it leads to are unique
    have digest : tv.digest = tv'.digest := by
      have same := eligible.pinned
      rw [name, pinned] at same
      exact (Option.some.inj same).symm
    have same : tv' = tv := by
      have found := eligible.version
      rw [name, digest, version] at found
      exact Option.some.inj found
    subst same
    exact ⟨(), authorize_eq_ok.mpr ⟨admitted, grant, eligible.granted, eligible.ceiling, allows⟩, rfl⟩

/-! ### Agreement -/

/-- The last capability of the tool admits its eligible version if and only if the first one and the
grant's action list do. -/
def Agrees (r : Registry) (attemptID poolID : String) (permitted : Option (List Capability))
    (toolName : String) : Prop :=
  ∀ tv grant, tv.name = toolName → r.Eligible attemptID poolID tv grant →
    (admittedBy lastCapability permitted tv ↔
      admittedBy firstCapability permitted tv ∧ actionsAllow grant.actions tv)

theorem Eligible.unique {tv' : ToolVersion} {grant grant' : PoolGrant}
    (eligible : r.Eligible attemptID poolID tv grant)
    (eligible' : r.Eligible attemptID poolID tv' grant') (name : tv.name = tv'.name) :
    tv = tv' ∧ grant = grant' := by
  have digest : tv.digest = tv'.digest := by
    have same := eligible.pinned
    rw [name, eligible'.pinned] at same
    exact (Option.some.inj same).symm
  have version := eligible.version
  rw [name, digest, eligible'.version] at version
  have granted := eligible.granted
  rw [name, eligible'.granted] at granted
  exact ⟨(Option.some.inj version).symm, (Option.some.inj granted).symm⟩

/-- **Discovery equals authorization exactly where the capabilities and the action list agree**: a tool is
discovered iff a call that names no digest gets past the pin, the version and `authorize`, precisely if for
its eligible version the last capability says what the first one and the grant's actions say together. -/
theorem discovery_iff_authorization (r : Registry) (attemptID poolID : String)
    (permitted : Option (List Capability)) (toolName : String) :
    ((∃ tv ∈ r.discoverEffectiveTools attemptID poolID permitted, tv.name = toolName) ↔
      ∃ tv, r.resolveTool attemptID poolID permitted toolName "" = .ok tv) ↔
    r.Agrees attemptID poolID permitted toolName := by
  constructor
  · intro agree tv grant name eligible
    constructor
    · intro last
      obtain ⟨tv', resolved⟩ := agree.mp
        ⟨tv, mem_discoverEffectiveTools.mpr ⟨⟨grant, eligible⟩, last⟩, name⟩
      obtain ⟨name', first, grant', eligible', allows⟩ := resolveTool_eq_ok.mp resolved
      obtain ⟨rfl, rfl⟩ := eligible.unique eligible' (name.trans name'.symm)
      exact ⟨first, allows⟩
    · rintro ⟨first, allows⟩
      obtain ⟨tv', found, name'⟩ := agree.mpr
        ⟨tv, resolveTool_eq_ok.mpr ⟨name, first, grant, eligible, allows⟩⟩
      obtain ⟨⟨grant', eligible'⟩, last⟩ := mem_discoverEffectiveTools.mp found
      obtain ⟨rfl, rfl⟩ := eligible.unique eligible' (name.trans name'.symm)
      exact last
  · intro agree
    constructor
    · rintro ⟨tv, found, name⟩
      obtain ⟨⟨grant, eligible⟩, last⟩ := mem_discoverEffectiveTools.mp found
      obtain ⟨first, allows⟩ := (agree tv grant name eligible).mp last
      exact ⟨tv, resolveTool_eq_ok.mpr ⟨name, first, grant, eligible, allows⟩⟩
    · rintro ⟨tv, resolved⟩
      obtain ⟨name, first, grant, eligible, allows⟩ := resolveTool_eq_ok.mp resolved
      have last := (agree tv grant name eligible).mpr ⟨first, allows⟩
      exact ⟨tv, mem_discoverEffectiveTools.mpr ⟨⟨grant, eligible⟩, last⟩, name⟩

def granting (actions : List String) : Registry where
  versions := ⟨[{ name := "mail.send", digest := "d", effectClass := .readOnly }], by decide⟩
  pins := ⟨[⟨"attempt", "mail.send", "d"⟩], by decide⟩
  grants := ⟨[{ poolID := "pool", toolName := "mail.send", maxEffectClass := .readOnly,
                allowedActions := .array (actions.map .string) }], by simp⟩

/-- A repeated capability whose entries agree, under a wildcard grant. -/
theorem discovery_iff_authorization_repeated :
    (∃ tv ∈ (granting ["*"]).discoverEffectiveTools "attempt" "pool"
      (some [⟨"mail.send", "read_only", []⟩, ⟨"mail.send", "", ["*"]⟩]), tv.name = "mail.send") ↔
    ∃ tv, (granting ["*"]).resolveTool "attempt" "pool"
      (some [⟨"mail.send", "read_only", []⟩, ⟨"mail.send", "", ["*"]⟩]) "mail.send" "" = .ok tv := by
  refine (discovery_iff_authorization _ _ _ _ _).mpr fun tv grant _ eligible => ?_
  have version := getToolVersion_self.mp eligible.version
  have granted := (getPoolGrant_eq_some.mp eligible.granted).1
  obtain rfl := mem_singleton.mp version
  obtain rfl := mem_singleton.mp granted
  exact ⟨fun _ => ⟨rfl, rfl⟩, fun _ => rfl⟩

/-- **The pool's action list is not part of discovery**: a tool whose grant allows another action only
is shown to the caller and refused when it is invoked. -/
theorem discovery_ignores_pool_actions : ¬ ∀ (r : Registry) (attemptID poolID : String)
    (permitted : Option (List Capability)) (toolName : String),
    (∃ tv ∈ r.discoverEffectiveTools attemptID poolID permitted, tv.name = toolName) ↔
      ∃ tv, r.resolveTool attemptID poolID permitted toolName "" = .ok tv := by
  intro claim
  obtain ⟨tv, resolved⟩ := (claim (granting ["mail.read"]) "attempt" "pool" none "mail.send").mp
    (by decide)
  have refused : (granting ["mail.read"]).resolveTool "attempt" "pool" none "mail.send" "" =
      .error (.poolAction "mail.send") := by rfl
  cases resolved

/-- Two capabilities of one tool: the first one refuses what the last one shows. -/
example : ((granting []).discoverEffectiveTools "attempt" "pool"
      (some [⟨"mail.send", "", ["mail.read"]⟩, ⟨"mail.send", "", []⟩])).length = 1 ∧
    (granting []).resolveTool "attempt" "pool"
      (some [⟨"mail.send", "", ["mail.read"]⟩, ⟨"mail.send", "", []⟩]) "mail.send" "" =
        .error (.workflowAction "mail.send") := by
  exact ⟨rfl, rfl⟩

end Registry

end Iterabase.Gateway
