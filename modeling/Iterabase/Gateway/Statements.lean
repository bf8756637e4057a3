/-
**The tool gateway — what its statements do to one row.**

The ledger is written by five statements. What each of them makes of a row is said once, and every
action of a call, of a runner and of the sweep is one of them, or leaves the ledger alone.

* `execute_changes` — **all that the call which inserted a row runs changes the ledger in this way.**
-/

import Iterabase.Gateway.Sound

namespace Iterabase.Gateway

open Conc Data List State Option

variable {cfg : Config} {t : Nat} {call : Call} {id : InvocationID} {s s' : State}
  {closes : Invocation → InvocationState → Prop} {states : InvocationState → Prop}

/-! ### Rows -/

/-- What becomes of a row, with the observations `new`. Rows are closed as `closes` allows. -/
inductive Invocation.Turns (closes : Invocation → InvocationState → Prop) (new : List Obs)
    (inv : Invocation) : Invocation → Prop
  | stays (quiet : ∀ o ∈ new, o.finishes inv.id = false) : Turns closes new inv inv
  | leased (state : InvocationState) (lease : Int) (live : inv.state.isTerminal = false)
      (advances : state = inv.state ∨ inv.state = .dispatching ∧ state = .running)
      (renewed : ∃ o ∈ new, o.renews inv.id) (quiet : ∀ o ∈ new, o.finishes inv.id = false) :
      Turns closes new inv { inv with state := state, dispatchLeaseExpiresAt := some lease }
  | closed (c : State.Columns) (live : inv.state.isTerminal = false) (allowed : closes inv c.state)
      (once : new.countP (Obs.finishes inv.id) = 1) : Turns closes new inv (c.write inv)

/-- An action that inserts no row and tells no call that it is a duplicate. -/
structure Changes (closes : Invocation → InvocationState → Prop) (new : List Obs) (s s' : State) :
    Prop where
  trace : s'.trace = new ++ s.trace
  begun : ∀ thread call id, .begun thread call id false ∉ new
  free : ∀ id, s.ledger.find id = none → s'.ledger.find id = none
  rows : ∀ id inv, s.ledger.find id = some inv →
    ∃ inv', s'.ledger.find id = some inv' ∧ inv.Turns closes new inv'

theorem Changes.of_eq (ledger : s'.ledger = s.ledger) (trace : s'.trace = s.trace) :
    Changes closes [] s s' where
  trace := trace
  begun := fun _ _ _ => not_mem_nil
  free := fun _ free => by rwa [ledger]
  rows := fun _ inv found => ⟨inv, by rwa [ledger], .stays fun _ => nofun⟩

variable {o : Obs} {artifactRefs error result : Option JsonText} {α : Type} {tv : ToolVersion}

theorem Changes.observed (ledger : s'.ledger = s.ledger) (trace : s'.trace = s.trace)
    (other : ∀ thread call id, o ≠ .begun thread call id false)
    (quiet : ∀ id, o.finishes id = false) : Changes closes [o] s (s'.observe o) where
  trace := congrArg (o :: ·) trace
  begun := fun thread call id member => other thread call id (mem_singleton.mp member).symm
  free := fun _ free => by rwa [State.observe, ledger]
  rows := by
    refine fun _ inv found => ⟨inv, by rwa [State.observe, ledger], .stays fun o' member => ?_⟩
    rw [mem_singleton.mp member]
    exact quiet _

theorem Changes.observe (other : ∀ thread call id, o ≠ .begun thread call id false)
    (quiet : ∀ id, o.finishes id = false) : Changes closes [o] s (s.observe o) :=
  .observed rfl rfl other quiet

theorem Changes.row {inv inv' : Invocation} {ledger : Ledger}
    (found : s.ledger.find id = some inv) (turns : inv.Turns closes [o] inv')
    (lookups : ∀ id', ledger.find id' = if id' = id then some inv' else s.ledger.find id')
    (other : ∀ thread call id, o ≠ .begun thread call id false)
    (quiet : ∀ id', id' ≠ id → o.finishes id' = false) :
    Changes closes [o] s (State.observe { s with ledger := ledger } o) where
  trace := rfl
  begun := fun thread call id member => other thread call id (mem_singleton.mp member).symm
  free := by
    intro id' free
    change ledger.find id' = none
    rw [lookups, if_neg, free]
    rintro rfl
    rw [found] at free
    cases free
  rows := by
    intro id' inv₀ found₀
    change ∃ inv', ledger.find id' = some inv' ∧ _
    by_cases here : id' = id
    · subst here
      cases found.symm.trans found₀
      exact ⟨inv', by rw [lookups, if_pos rfl], turns⟩
    · refine ⟨inv₀, by rw [lookups, if_neg here, found₀], .stays fun o' member => ?_⟩
      rw [mem_singleton.mp member, Ledger.find_id found₀]
      exact quiet id' here

theorem renewing_changes {allowed : InvocationState → Bool} {f : Invocation → Invocation}
    {keeps : ∀ inv, (f inv).id = inv.id ∧ (f inv).key = inv.key}
    (leases : ∀ (inv : Invocation) (new : List Obs), allowed inv.state → (∃ o ∈ new, o.renews inv.id) →
      (∀ o ∈ new, o.finishes inv.id = false) → inv.Turns closes new (f inv)) :
    ∃ new, Changes closes new s (renewing t id (s.updateInvocation id allowed f keeps)).2 := by
  rcases updateInvocation_cases s id allowed f keeps with
    failed | ⟨inv, ledger, found, allows, ran, lookups⟩
  · rw [failed]
    exact ⟨[], .of_eq rfl rfl⟩
  rw [ran]
  refine ⟨_, Changes.row found (leases inv _ allows ?_ ?_) lookups (fun _ _ _ => nofun) fun _ _ => rfl⟩
  · exact ⟨_, mem_singleton_self _, decide_eq_true (Ledger.find_id found).symm⟩
  · intro o member
    rw [mem_singleton.mp member]
    rfl

theorem markRunning_changes (lease : Int) :
    ∃ new, Changes closes new s (renewing t id (s.markRunning id lease)).2 := by
  refine renewing_changes fun inv new dispatching renewed quiet => ?_
  have dispatching := of_decide_eq_true dispatching
  exact .leased .running lease (by rw [dispatching]; rfl) (.inr ⟨dispatching, rfl⟩) renewed quiet

theorem renewDispatchLease_changes (lease : Int) :
    ∃ new, Changes closes new s (renewing t id (s.renewDispatchLease id lease)).2 :=
  renewing_changes fun inv _ live renewed quiet =>
    .leased inv.state lease (by simpa using live) (.inl rfl) renewed quiet

/-- The row `id` may be closed in the given states, and no other one. -/
def closing (id : InvocationID) (states : InvocationState → Prop) (inv : Invocation)
    (state : InvocationState) : Prop := inv.id = id ∧ states state

variable {state : InvocationState}

theorem finishInvocation_changes (allowed : states state) :
    ∃ new,
    Changes (closing id states) new s (s.finishInvocation id state result artifactRefs error).2 := by
  unfold finishInvocation
  rcases wrote : State.columns state result artifactRefs error with err | c
  · exact ⟨[], .of_eq rfl rfl⟩
  dsimp only
  rcases updateInvocation_cases s id (fun state => !state.isTerminal) c.write (fun _ => ⟨rfl, rfl⟩)
    with failed | ⟨inv, ledger, found, allows, ran, lookups⟩
  · rw [failed]
    exact ⟨[], .of_eq rfl rfl⟩
  rw [ran]
  have here := Ledger.find_id found
  refine ⟨[.finished id], Changes.row found ?_ lookups (fun _ _ _ => nofun) fun id' other => ?_⟩
  · refine .closed c (by simpa using allows) ⟨here, ?_⟩ ?_
    · rw [(columns_eq_ok.mp wrote).2.2.2]
      exact allowed
    · simp [Obs.finishes, here]
  · exact decide_eq_false fun same => other same.symm

/-! ### The sweep -/

/-- What the two statements of the sweep may close: a read-only row has failed, a write has an unknown
outcome. -/
def swept (inv : Invocation) (state : InvocationState) : Prop := state = ambiguousState inv.effectClass

theorem recover_changes {now : Int} {classes : EffectClass → Bool}
    {error : Json} (fits : ∀ effectClass, classes effectClass → state = ambiguousState effectClass) :
    ∃ new, Changes swept new s (s.recover now classes state error) := by
  refine ⟨_, rfl, fun thread call id member => ?_, fun id free => ?_, fun id inv found => ?_⟩
  · obtain ⟨_, _, same⟩ := mem_map.mp member
    cases same
  · simp only [recover, Ledger.find_update, free, map_none]
  · refine ⟨_, by simp only [recover, Ledger.find_update, found, map_some]; rfl, ?_⟩
    split
    · rename_i orphan
      have parts := orphan
      simp only [orphaned, Bool.and_eq_true, Bool.not_eq_true'] at parts
      refine .closed ⟨state, inv.resultJSON, inv.artifactOutputRefs, some error⟩ parts.1.1.1
        (fits _ parts.2) ?_
      -- the ids of a table are distinct, so that the sweep names the row once
      have distinct := s.ledger.rows.distinct.sublist
        ((filter_sublist (p := State.orphaned now classes)).map Invocation.id)
      have selected := mem_map_of_mem (f := Invocation.id)
        (mem_filter.mpr ⟨Table.find_mem found, orphan⟩)
      rw [countP_map, ← count_eq_one_of_mem distinct selected, List.count, countP_map]
      exact countP_congr fun _ _ => by simp [Obs.finishes]
    · rename_i spared
      refine .stays fun o member => ?_
      obtain ⟨inv', selected, rfl⟩ := mem_map.mp member
      obtain ⟨present, orphan⟩ := mem_filter.mp selected
      refine decide_eq_false fun same => spared ?_
      rwa [inj_on_of_nodup_map s.ledger.rows.distinct present (Table.find_mem found) same] at orphan

/-! ### Programs -/

def ChangedBy (closes : Invocation → InvocationState → Prop) (γ : Type) (_ : Unit)
    (run : Input → State → Option (γ × State)) : Prop :=
  ∀ {input s answer s'}, run input s = some (answer, s') → ∃ new, Changes closes new s s'

theorem store_changes {tx : Input → State → Except Err α × State}
    (changes : ∀ input s, ∃ new, Changes closes new s (tx input s).2) :
    (store tx).All (ChangedBy closes) := by
  refine .atomic fun {input s answer s'} ran => ?_
  have same := congrArg Prod.snd (some.inj ran)
  subst same
  split
  · exact changes input s
  · exact ⟨[], .of_eq rfl rfl⟩
  · exact changes input s

theorem locally_changes {f : Input → State → α × State}
    (changes : ∀ input s, ∃ new, Changes closes new s (f input s).2) :
    (locally f).All (ChangedBy closes) := by
  refine .atomic fun {input s answer s'} ran => ?_
  have same := congrArg Prod.snd (some.inj ran)
  subst same
  exact changes input s

theorem read_changes {f : Input → State → α} :
    (locally fun input s => (f input s, s)).All (ChangedBy closes) :=
  locally_changes fun _ _ => ⟨[], .of_eq rfl rfl⟩

theorem finish_changes {path : Path} {resp : InvokeResponse} (allowed : states state) :
    (finish id state result artifactRefs error path resp).All (ChangedBy (closing id states)) := by
  refine .bind (store_changes fun _ s => finishInvocation_changes allowed) fun answer => ?_
  rcases answer with err | _ <;> exact .done _

theorem finishFromResult_changes {r : Report} (ambiguous : states (ambiguousState tv.effectClass))
    (reported : states r.state) :
    (finishFromResult cfg id tv r).All (ChangedBy (closing id states)) := by
  refine .bind read_changes fun denied => ?_
  rcases r.flaw cfg denied with _ | reason
  · exact finish_changes reported
  · exact finish_changes ambiguous

theorem abortAfterLeaseFailure_changes {reason : String}
    (ambiguous : states (ambiguousState tv.effectClass)) :
    (abortAfterLeaseFailure id tv reason).All (ChangedBy (closing id states)) := by
  refine .bind (store_changes fun _ s => ⟨[], .of_eq rfl rfl⟩) fun answer => ?_
  rcases answer with err | inv
  · exact finish_changes ambiguous
  dsimp only
  split
  · exact .done _
  · exact finish_changes ambiguous

theorem renewDispatchLease_changed : (renewDispatchLease cfg t call id).All (ChangedBy closes) := by
  refine .bind (store_changes fun _ s => markRunning_changes _) fun answer => ?_
  split
  · exact .done _
  · exact store_changes fun _ s => renewDispatchLease_changes _
  · exact .done _

theorem await_changes (ch : Nat) (timeout : Int) : (await ch timeout).All (ChangedBy closes) := by
  refine .atomic fun {input s answer s'} ran => ⟨[], ?_⟩
  split at ran
  · obtain ⟨_, _, same⟩ := map_eq_some_iff.mp ran
    cases same
    exact .of_eq rfl rfl
  · split at ran
    · cases ran
      exact .of_eq rfl rfl
    · cases ran
  · cases ran
    exact .of_eq rfl rfl

theorem dispatchToRunner_changes {invoke : Invoke} :
    (dispatchToRunner cfg t call invoke).All (ChangedBy closes) := by
  refine .bind read_changes fun picked => ?_
  rcases picked with _ | i
  · exact .done _
  refine .bind ?_ fun _ => .done _
  refine .bind (locally_changes fun _ s => ?_) fun entered => ?_
  · unfold enter
    split <;> exact ⟨[], .of_eq rfl rfl⟩
  · rcases entered with _ | ch
    · exact .done _
    · refine .bind (locally_changes fun input s => ?_) fun sent => ?_
      · split
        · exact ⟨[], .of_eq rfl rfl⟩
        · exact ⟨_, .observe (fun _ _ _ => nofun) fun _ => rfl⟩
      · have leaves : ∀ result : DispatchResult, (do
            locally fun _ s => ((), s.leave i invoke.invocationID)
            return result : Program DispatchResult).All (ChangedBy closes) := fun result =>
          .bind (locally_changes fun _ s => ⟨[], .of_eq rfl rfl⟩) fun _ => .done _
        cases sent with
        | true => exact .bind (await_changes ch _) leaves
        | false => exact leaves _

theorem dispatchLoop_changes (all : ∀ state, states state) (left : Nat) :
    (dispatchLoop cfg t call id left).All (ChangedBy (closing id states)) := by
  induction left with
  | zero => exact finish_changes (all _)
  | succ left ih =>
    refine .bind renewDispatchLease_changed fun renewed => ?_
    rcases renewed with err | _
    · exact abortAfterLeaseFailure_changes (all _)
    refine .bind dispatchToRunner_changes fun result => ?_
    split
    · exact finish_changes (all _)
    · split
      · exact ih
      · exact finish_changes (all _)
    · exact finishFromResult_changes (all _) (all _)

theorem execute_changes (all : ∀ state, states state) :
    (execute cfg t call id).All (ChangedBy (closing id states)) := by
  refine .bind read_changes fun available => ?_
  split
  · refine .bind read_changes fun credentials => ?_
    rcases credentials with _ | message
    · exact dispatchLoop_changes all _
    · exact finish_changes (all _)
  · exact finish_changes (all _)

theorem recoverOrphanedInvocations_changes : recoverOrphanedInvocations.All (ChangedBy swept) := by
  refine .bind (store_changes fun _ s => recover_changes fun effectClass readOnly => ?_) fun answer => ?_
  · rw [of_decide_eq_true readOnly]
    rfl
  · rcases answer with err | _
    · exact .done _
    · refine .bind (store_changes fun _ s => recover_changes fun effectClass write => ?_) fun _ => .done _
      cases effectClass with
      | readOnly => cases write
      | _ => rfl

theorem offer_foldl (entries : List (InvocationID × Nat)) (s : State) (result : DispatchResult) :
    (entries.foldl (fun s entry => s.offer entry.2 result) s).ledger = s.ledger ∧
    (entries.foldl (fun s entry => s.offer entry.2 result) s).trace = s.trace := by
  induction entries generalizing s with
  | nil => exact ⟨rfl, rfl⟩
  | cons entry rest ih => exact ih (s.offer entry.2 result)

theorem teardown_changes (i : Nat) : (teardown i).All (ChangedBy closes) := by
  refine .bind (locally_changes fun _ s => ⟨[], .of_eq rfl rfl⟩) fun _ =>
    .bind (locally_changes fun _ s => ⟨[], .of_eq rfl rfl⟩) fun _ => locally_changes fun _ s => ?_
  obtain ⟨ledger, trace⟩ := offer_foldl ((s.conns[i]?.map RunnerConn.pending).getD []) s .streamLost
  exact ⟨[], .of_eq ledger trace⟩

theorem receive_changes (s : State) (i : Nat) (msg : RunnerMessage) :
    Changes swept [.runner i msg] s ((s.receive i msg).observe (.runner i msg)) := by
  have delivers : ∀ id result, (s.deliver i id result).ledger = s.ledger ∧
      (s.deliver i id result).trace = s.trace := by
    intro id result
    unfold deliver
    split <;> exact ⟨rfl, rfl⟩
  have same : (s.receive i msg).ledger = s.ledger ∧ (s.receive i msg).trace = s.trace := by
    cases msg with
    | register | retired => exact ⟨rfl, rfl⟩
    | invokeResult | invokeError => exact delivers ..
  exact .observed same.1 same.2 (fun _ _ _ => nofun) fun _ => rfl

end Iterabase.Gateway
