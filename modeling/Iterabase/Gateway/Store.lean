/-
**The tool gateway — the ledger's transactions.**

`store.go`: one statement each, atomic, with the row counts that its callers check.

* `Ledger.find_insert`, `Ledger.find_update` — lookups after a write.
* `markRunning`, `renewDispatchLease`, `finishInvocation` — `UPDATE … WHERE state IN (…)`.
* `recoverReadOnly`, `recoverWrites` — the two statements of `RecoverOrphanedInvocations`.
-/

import Iterabase.Data.Except
import Iterabase.Gateway.Conversions

namespace Iterabase.Gateway

open Conc Data List Table

/-! ### The table -/

namespace Ledger

def find (l : Ledger) (id : InvocationID) : Option Invocation := l.rows.find id

def findKey (l : Ledger) (key : InvocationKey) : Option Invocation :=
  l.rows.rows.find? fun inv => inv.key = key

def insert (l : Ledger) (inv : Invocation) : Option Ledger :=
  if taken : inv.key ∈ l.rows.rows.map Invocation.key then none
  else
    match inserted : l.rows.insert inv with
    | none => none
    | some rows => some ⟨rows, by
        have same : rows.rows = inv :: l.rows.rows := by
          unfold Table.insert at inserted
          split at inserted
          · cases inserted
          · cases inserted
            rfl
        rw [same, map_cons]
        exact nodup_cons.mpr ⟨taken, l.unique⟩⟩

/-- Rewrite the rows `p` selects, up to their id and key. -/
def update (l : Ledger) (p : Invocation → Bool) (f : Invocation → Invocation)
    (keeps : ∀ inv, (f inv).id = inv.id ∧ (f inv).key = inv.key) : Ledger where
  rows := l.rows.update p f fun inv => (keeps inv).1
  unique := by
    have same : (l.rows.update p f fun inv => (keeps inv).1).rows.map Invocation.key =
        l.rows.rows.map Invocation.key := by
      simp only [Table.update, map_map]
      refine map_congr_left fun inv _ => ?_
      simp only [Function.comp_apply]
      split
      · exact (keeps inv).2
      · rfl
    rw [same]
    exact l.unique

variable {l : Ledger} {id : InvocationID} {inv : Invocation}

theorem find_id (found : l.find id = some inv) :
    inv.id = id := find_key found

theorem findKey_key {key : InvocationKey} (found : l.findKey key = some inv) : inv.key = key := by
  have selected := find?_some found
  exact of_decide_eq_true selected

theorem findKey_find {key : InvocationKey}
    (found : l.findKey key = some inv) : l.find inv.id = some inv :=
  find_of_mem (mem_of_find?_eq_some found)

theorem key_unique {id' : InvocationID} {inv' : Invocation} (found : l.find id = some inv)
    (found' : l.find id' = some inv') (same : inv.key = inv'.key) : inv = inv' :=
  inj_on_of_nodup_map l.unique (find_mem found) (find_mem found') same

theorem findKey_of_find (found : l.find id = some inv) : l.findKey inv.key = some inv := by
  cases looked : l.findKey inv.key with
  | none =>
    have missed := find?_eq_none.mp looked inv (find_mem found)
    simp at missed
  | some inv' => rw [key_unique (findKey_find looked) found (findKey_key looked)]

/-- What an insert does: the id and the key were free, and every other row is kept. -/
theorem insert_cases {l' : Ledger} (inserted : l.insert inv = some l') :
    l.find inv.id = none ∧ ∀ id, l'.find id = if inv.id = id then some inv else l.find id := by
  unfold insert at inserted
  split at inserted
  · cases inserted
  split at inserted
  · cases inserted
  rename_i rows done
  cases inserted
  exact ⟨insert_fresh done, find_insert done⟩

theorem find_update (l : Ledger) (p : Invocation → Bool) (f : Invocation → Invocation)
    (keeps : ∀ inv, (f inv).id = inv.id ∧ (f inv).key = inv.key) (id : InvocationID) :
    (l.update p f keeps).find id = (l.find id).map fun inv => if p inv then f inv else inv :=
  Table.find_update l.rows p f (fun inv => (keeps inv).1) id

end Ledger

/-! ### Statements -/

/-- The row of a call, with the values of its `jsonb` columns. -/
def Call.row (call : Call) (thread : Nat) (id : InvocationID) (lease : Int)
    (arguments refs : Json) : Invocation where
  id := id
  key := call.key
  effectClass := call.tv.effectClass
  argumentsJSON := arguments
  artifactInputRefs := refs
  owner := thread
  dispatchLeaseExpiresAt := some lease

namespace State

variable (s : State)

def observe (o : Obs) : State := { s with trace := o :: s.trace }

/-- The insert of `BeginInvocation`: the new id, or nothing where the key is taken. -/
def insertInvocation (thread : Nat) (call : Call) (id : InvocationID) (lease : Int) :
    Except Err (Option InvocationID) × State :=
  match call.argumentsJSON.column, (marshalArtifactRefs call.artifactInputRefs).column with
  | none, _ => (.error (.constraint "arguments_json"), s)
  | some _, none => (.error (.constraint "artifact_input_refs"), s)
  | some arguments, some refs =>
      if (s.ledger.findKey call.key).isSome then (.ok none, s)
      else
        match s.ledger.insert (call.row thread id lease arguments refs) with
        | none => (.error (.constraint "invocations_pkey"), s)
        | some ledger => (.ok (some id), { s with ledger := ledger })

/-- **What the insert does**: nothing, or it adds the row of the call. -/
theorem insertInvocation_cases (thread : Nat) (call : Call) (id : InvocationID)
    (lease : Int) :
    ((s.insertInvocation thread call id lease).2 = s ∧
      ∀ id', (s.insertInvocation thread call id lease).1 ≠ .ok (some id')) ∨
    ∃ arguments refs ledger, call.argumentsJSON.column = some arguments ∧
      (marshalArtifactRefs call.artifactInputRefs).column = some refs ∧
      s.ledger.insert (call.row thread id lease arguments refs) = some ledger ∧
      s.insertInvocation thread call id lease = (.ok (some id), { s with ledger := ledger }) := by
  unfold insertInvocation
  split
  · exact .inl ⟨rfl, nofun⟩
  · exact .inl ⟨rfl, nofun⟩
  rename_i arguments refs written stored
  split
  · exact .inl ⟨rfl, nofun⟩
  split
  · exact .inl ⟨rfl, nofun⟩
  · rename_i ledger inserted
    exact .inr ⟨arguments, refs, ledger, written, stored, inserted, rfl⟩

def getInvocation (id : InvocationID) : Except Err Invocation :=
  match s.ledger.find id with
  | none => .error .notFound
  | some inv => .ok inv

def getInvocationByKey (key : InvocationKey) : Except Err Invocation :=
  match s.ledger.findKey key with
  | none => .error .notFound
  | some inv => .ok inv

/-- `UPDATE … WHERE id = $1 AND state IN (…)`, and its row count. -/
def updateInvocation (id : InvocationID) (allowed : InvocationState → Bool)
    (f : Invocation → Invocation) (keeps : ∀ inv, (f inv).id = inv.id ∧ (f inv).key = inv.key) :
    Except Err Unit × State :=
  match s.ledger.find id with
  | none => (.error .invalidTransition, s)
  | some inv =>
      if allowed inv.state then
        (.ok (), { s with ledger := s.ledger.update (fun inv => inv.id = id) f keeps })
      else (.error .invalidTransition, s)

def markRunning (id : InvocationID) (lease : Int) : Except Err Unit × State :=
  s.updateInvocation id (· = .dispatching)
    (fun inv => { inv with state := .running, dispatchLeaseExpiresAt := some lease })
    fun _ => ⟨rfl, rfl⟩

def renewDispatchLease (id : InvocationID) (lease : Int) : Except Err Unit × State :=
  s.updateInvocation id (fun state => !state.isTerminal)
    (fun inv => { inv with dispatchLeaseExpiresAt := some lease }) fun _ => ⟨rfl, rfl⟩

structure Columns where
  state : InvocationState
  resultJSON : Option Json
  artifactOutputRefs : Json
  error : Option Json

def Columns.write (c : Columns) (inv : Invocation) : Invocation :=
  { inv with
    state := c.state
    resultJSON := c.resultJSON
    artifactOutputRefs := c.artifactOutputRefs
    error := c.error
    finished := true
    dispatchLeaseExpiresAt := none }

/-- A parameter of a `jsonb` column: a nil slice is NULL, and a text that is no `jsonb` is an
error. -/
def jsonbParam (column : String) : Option JsonText → Except Err (Option Json)
  | none => .ok none
  | some text =>
      match text.column with
      | none => .error (.constraint column)
      | some value => .ok (some value)

/-- The columns `FinishInvocation` writes. `artifact_output_refs` is NOT NULL. -/
def columns (state : InvocationState) (result artifactRefs error : Option JsonText) :
    Except Err Columns := do
  let result ← jsonbParam "result_json" result
  let refs ← jsonbParam "artifact_output_refs" artifactRefs
  let error ← jsonbParam "error" error
  match refs with
  | none => throw (.constraint "artifact_output_refs")
  | some refs => return ⟨state, result, refs, error⟩

/-- **What is written**: each column is the value of its text, and the references are not NULL. -/
theorem columns_eq_ok {state : InvocationState} {result artifactRefs error : Option JsonText}
    {c : Columns} : columns state result artifactRefs error = .ok c ↔
    jsonbParam "result_json" result = .ok c.resultJSON ∧
    jsonbParam "artifact_output_refs" artifactRefs = .ok (some c.artifactOutputRefs) ∧
    jsonbParam "error" error = .ok c.error ∧ c.state = state := by
  obtain ⟨state', value, refs, detail⟩ := c
  simp only [columns, bind_ok]
  constructor
  · rintro ⟨_, first, refs', second, _, third, made⟩
    cases refs' with
    | none => cases made
    | some refs' =>
      cases made
      exact ⟨first, second, third, rfl⟩
  · rintro ⟨first, second, third, rfl⟩
    exact ⟨_, first, _, second, _, third, rfl⟩

def finishInvocation (id : InvocationID) (state : InvocationState)
    (result artifactRefs error : Option JsonText) : Except Err Unit × State :=
  match columns state result artifactRefs error with
  | .error err => (.error err, s)
  | .ok c =>
      match s.updateInvocation id (fun state => !state.isTerminal) c.write fun _ => ⟨rfl, rfl⟩ with
      | (.ok (), s) => (.ok (), s.observe (.finished id))
      | (.error err, s) => (.error err, s)

/-- The rows whose lease has expired by `now`, of the given effect classes. -/
def orphaned (now : Int) (classes : EffectClass → Bool) (inv : Invocation) : Bool :=
  !inv.state.isTerminal && !inv.finished && inv.dispatchLeaseExpiresAt.any (· < now) &&
    classes inv.effectClass

def orphanError (message retryability : String) : Json :=
  .object [("code", .string "outcome_unknown"), ("message", .string message),
    ("retryability", .string retryability)]

def recover (now : Int) (classes : EffectClass → Bool) (state : InvocationState)
    (error : Json) : State :=
  { s with
    ledger := s.ledger.update (orphaned now classes)
      (fun inv => { inv with
        state := state, error := some error, finished := true, dispatchLeaseExpiresAt := none })
      fun _ => ⟨rfl, rfl⟩
    trace := ((s.ledger.rows.rows.filter (orphaned now classes)).map fun inv => .finished inv.id) ++
      s.trace }

def recoverReadOnly (now : Int) : State :=
  s.recover now (· = .readOnly) .failed
    (orphanError "dispatch lease expired during recovery (read_only)" "retryable")

def recoverWrites (now : Int) : State :=
  s.recover now (· ≠ .readOnly) .outcomeUnknown
    (orphanError "dispatch lease expired during recovery (possible effect, no committed result)"
      "unknown")

end State

end Iterabase.Gateway
