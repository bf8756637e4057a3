/-
**The tool gateway — whose request a duplicate is answered with.**

A row keeps the arguments and the artifact references of the call that inserted it. The key that finds
it again is chosen by the caller and says nothing of them, and a duplicate is answered from the row.

* `replay_of_own_request` — **where a key stands for one request, a duplicate is answered with the row
  of its own request.**
-/

import Iterabase.Gateway.Replay
import Iterabase.Gateway.Statements

namespace Iterabase.Gateway

open Conc Data Option State

variable {cfg : Config} {t : Nat} {call : Call} {s s' : State}

/-- What a call asks for: the value of its arguments, and its artifact references. -/
abbrev Asked := Option Json × List ArtifactRef

def Call.asked (call : Call) : Asked := (call.argumentsJSON.value, call.artifactInputRefs)

def Invocation.Carries (inv : Invocation) (asked : Asked) : Prop :=
  some inv.argumentsJSON = asked.1 ∧ inv.artifactInputRefs = artifactRefsJSON asked.2

/-! ### Actions that begin nothing -/

/-- No row was inserted, no row changed what it was asked for, and no call was told that it is a
duplicate. -/
structure Kept (s s' : State) : Prop where
  rows : ∀ id inv', s'.ledger.find id = some inv' → ∃ inv, s.ledger.find id = some inv ∧
    inv'.key = inv.key ∧ inv'.argumentsJSON = inv.argumentsJSON ∧
    inv'.artifactInputRefs = inv.artifactInputRefs
  begun : ∀ thread call id, .begun thread call id false ∈ s'.trace →
    .begun thread call id false ∈ s.trace

theorem Changes.kept {closes : Invocation → InvocationState → Prop} {new : List Obs}
    (changes : Changes closes new s s') : Kept s s' where
  rows := by
    intro id inv' found
    rcases before : s.ledger.find id with _ | inv
    · rw [changes.free id before] at found
      cases found
    obtain ⟨inv'', found', turns⟩ := changes.rows id inv before
    cases found.symm.trans found'
    refine ⟨inv, rfl, ?_⟩
    cases turns with
    | stays | leased | closed => exact ⟨rfl, rfl, rfl⟩
  begun := by
    intro thread call id member
    rw [changes.trace] at member
    rcases List.mem_append.mp member with here | there
    · exact absurd here (changes.begun thread call id)
    · exact there

/-! ### Keys that stand for a request -/

/-- **Every row and every duplicate carries the request that its key stands for.** -/
structure Faithful (requestOf : InvocationKey → Asked) (s : State) : Prop where
  rows : ∀ id inv, s.ledger.find id = some inv → inv.Carries (requestOf inv.key)
  begun : ∀ thread call id, .begun thread call id false ∈ s.trace →
    call.asked = requestOf call.key ∧ ∃ inv, s.ledger.find id = some inv ∧ inv.key = call.key

open Faithful

/-- A key is used for one request only. -/
def Request.Respects (requestOf : InvocationKey → Asked) : Request → Prop
  | .invokeTool call => call.asked = requestOf call.key
  | _ => True

instance (requestOf : InvocationKey → Asked) (request : Request) :
    Decidable (request.Respects requestOf) := by
  cases request <;> unfold Request.Respects <;> infer_instance

/-- Runs in which every key stands for one request. -/
def respecting (requestOf : InvocationKey → Asked) : System.Guard Unit Input Request State where
  action := fun _ _ _ => True
  request := fun request _ => request.Respects requestOf
  restart := fun _ => True

section Decidable

variable (requestOf : InvocationKey → Asked)

instance (label : Unit) (input : Input) (s : State) :
    Decidable ((respecting requestOf).action label input s) := .isTrue trivial

instance (request : Request) (s : State) : Decidable ((respecting requestOf).request request s) :=
  inferInstanceAs (Decidable (request.Respects requestOf))

instance (s : State) : Decidable ((respecting requestOf).restart s) := .isTrue trivial

end Decidable

def requestLayer (requestOf : InvocationKey → Asked) : Layer Unit Input Request State where
  inv := Faithful requestOf
  guard := respecting requestOf

variable {requestOf : InvocationKey → Asked}

theorem Faithful.kept (faithful : Faithful requestOf s) (kept : Kept s s') (moves : Moves s s') :
    Faithful requestOf s' where
  rows := by
    intro id inv' found
    obtain ⟨inv, before, key, arguments, refs⟩ := kept.rows id inv' found
    have carries := faithful.rows id inv before
    rw [key]
    exact ⟨by rw [arguments]; exact carries.1, refs.trans carries.2⟩
  begun := by
    intro thread call id member
    obtain ⟨asked, inv, found, key⟩ := faithful.begun thread call id (kept.begun thread call id member)
    obtain ⟨inv', found', becomes⟩ := moves.rows id inv found
    exact ⟨asked, inv', found', becomes.key.trans key⟩

theorem Faithful.step (faithful : Faithful requestOf s') :
    (requestLayer requestOf).Step t s s' := ⟨faithful, fun _ _ => trivial⟩

abbrev Keeping (cfg : Config) (requestOf : InvocationKey → Asked) (t : Nat) :=
  Keeps (baseRules cfg) (requestLayer requestOf) t fun _ => True

theorem ChangedBy.keeping {α : Type} (closes : Invocation → InvocationState → Prop) {p : Program α}
    (changed : p.All (ChangedBy closes)) : p.All (Keeping cfg requestOf t) := by
  refine changed.mono fun {γ label run} each => ?_
  intro input s answer s' _ faithful _ _ ran did
  obtain ⟨new, changes⟩ := each ran
  exact ⟨(faithful.kept changes.kept did.2.1).step, trivial⟩

theorem observe_keeping {α : Type} {o : Obs} {answer : State → α}
    (other : ∀ thread call id, o ≠ .begun thread call id false) (quiet : ∀ id, o.finishes id = false) :
    (locally fun _ s => (answer s, s.observe o)).All (Keeping cfg requestOf t) :=
  ChangedBy.keeping swept (locally_changes fun _ _ => ⟨_, .observe other quiet⟩)

theorem column_value {text : JsonText} {value : Json} (stored : text.column = some value) :
    text.value = some value := by
  unfold JsonText.column at stored
  split at stored
  · exact stored
  · cases stored

theorem insertInvocation_faithful (asked : call.asked = requestOf call.key)
    (faithful : Faithful requestOf s) (uuid : InvocationID) (lease : Int) :
    Faithful requestOf (s.insertInvocation t call uuid lease).2 := by
  rcases insertInvocation_cases s t call uuid lease with
    ⟨same, _⟩ | ⟨arguments, refs, ledger, written, stored, inserted, same⟩
  · rw [same]
    exact faithful
  rw [same]
  obtain ⟨free, after⟩ := Ledger.insert_cases inserted
  constructor
  · intro id inv found
    rw [after] at found
    split at found
    · cases found
      show _ = (requestOf call.key).1 ∧ _ = artifactRefsJSON (requestOf call.key).2
      rw [← asked]
      exact ⟨(column_value written).symm, (some.inj (column_value stored)).symm⟩
    · exact faithful.rows id inv found
  · intro thread call' id member
    obtain ⟨asked', inv, found, key⟩ := faithful.begun thread call' id member
    refine ⟨asked', inv, ?_, key⟩
    rw [after, if_neg, found]
    intro taken
    rw [taken, found] at free
    cases free

theorem readBack_faithful (asked : call.asked = requestOf call.key) (faithful : Faithful requestOf s)
    (looked : s.ledger.findKey call.key = some inv) :
    Faithful requestOf (s.observe (.begun t call inv.id false)) := by
  refine ⟨faithful.rows, fun thread call' id member => ?_⟩
  rcases List.mem_cons.mp member with here | there
  · cases here
    exact ⟨asked, inv, Ledger.findKey_find looked, Ledger.findKey_key looked⟩
  · exact faithful.begun thread call' id there

/-- **A call that respects its key keeps the layer.** -/
theorem invokeTool_keeping (asked : call.asked = requestOf call.key) :
    (invokeTool cfg t call).All (Keeping cfg requestOf t) := by
  have inserts : (store fun input s => s.insertInvocation t call input.uuid
      (input.now + dispatchTimeout cfg call.tv + cfg.dispatchLease)).All
        (Keeping cfg requestOf t) := by
    refine .atomic fun {input s answer s'} _ faithful _ _ ran _ => ?_
    have same := congrArg Prod.snd (some.inj ran)
    subst same
    refine ⟨step ?_, trivial⟩
    split
    · exact insertInvocation_faithful asked faithful _ _
    · exact faithful
    · exact insertInvocation_faithful asked faithful _ _
  have begins : (beginInvocation cfg t call).All (Keeping cfg requestOf t) := by
    refine .bind inserts fun answer => ?_
    -- the row is read back, by its key for a duplicate
    rcases answer with err | _ | id
    · exact .done _
    · refine .atomic fun {input s answer s'} _ faithful _ _ ran _ => ?_
      have same := congrArg Prod.snd (some.inj ran)
      subst same
      refine ⟨step ?_, trivial⟩
      rcases looked : s.ledger.findKey call.key with _ | inv
      · simp only [getInvocationByKey, looked]
        split <;> exact faithful
      · simp only [getInvocationByKey, looked]
        split
        · exact readBack_faithful asked faithful looked
        · exact faithful
        · exact readBack_faithful asked faithful looked
    · refine ChangedBy.keeping swept (store_changes fun _ s => ?_)
      dsimp only
      split
      · exact ⟨[], .of_eq rfl rfl⟩
      · exact ⟨_, .observe (fun _ _ _ => by simp) fun _ => rfl⟩
  refine .bind begins fun answer => ?_
  split
  · exact .done _
  · exact observe_keeping (fun _ _ _ => by simp) fun _ => rfl
  refine .bind (ChangedBy.keeping (closing _ fun _ => True) (execute_changes fun _ => trivial))
    fun answer => ?_
  rcases answer with err | ⟨path, resp⟩
  · exact .done _
  · exact observe_keeping (fun _ _ _ => by simp) fun _ => rfl

theorem requestLayer_proved (cfg : Config) (requestOf : InvocationKey → Asked) :
    (gateway cfg).Proved (baseRules cfg) (requestLayer requestOf) where
  sound := gateway_sound cfg
  start := by
    intro request t s s' p base faithful respects started did
    have along : ∀ {p : Program Unit} {s : State}, p.All (Keeping cfg requestOf t) →
        Runs (baseRules cfg) (requestLayer requestOf) t p s := fun all =>
      (Along.of_all (fun _ _ _ => trivial) trivial all).mono fun _ _ _ => trivial
    replace started : startRequest cfg request t s = some (s', p) := started
    cases request with
    | invokeTool call =>
      cases started
      exact ⟨step faithful, along (invokeTool_keeping respects)⟩
    | registerRunner runnerID =>
      cases started
      exact ⟨step { faithful with }, trivial⟩
    | runnerMessage i msg =>
      simp only [startRequest] at started
      split at started
      · cases started
      cases started
      have changes := receive_changes s i msg
      exact ⟨(faithful.kept changes.kept did.2.1).step, trivial⟩
    | runnerLost i =>
      simp only [startRequest] at started
      split at started
      · cases started
      · cases started
        exact ⟨step faithful, along (ChangedBy.keeping swept (teardown_changes i))⟩
    | sweep =>
      cases started
      exact ⟨step faithful, along (ChangedBy.keeping swept recoverOrphanedInvocations_changes)⟩
  restart := fun _ faithful _ _ => ⟨faithful.rows, faithful.begun⟩

/-! ### Duplicates -/

/-- **Where a key stands for one request, a duplicate is answered with the row of its own request**: the row
it finds stores its own arguments and artifact references. -/
theorem replay_of_own_request (requestOf : InvocationKey → Asked) {c : Conc.Config Unit Input State}
    (reached : (gateway cfg).Reaches (respecting requestOf) State.start c) {thread : Nat} {call : Call}
    {id : InvocationID} {inv : Invocation} (begun : .begun thread call id false ∈ c.shared.trace)
    (found : c.shared.ledger.find id = some inv) : inv.Carries call.asked := by
  have initial : Faithful requestOf State.start := ⟨nofun, nofun⟩
  obtain ⟨_, faithful⟩ := (requestLayer_proved cfg requestOf).invariant (start_base cfg) initial reached
  obtain ⟨asked, inv', found', key⟩ := faithful.begun thread call id begun
  rw [found] at found'
  cases found'
  rw [asked, ← key]
  exact faithful.rows id inv found

def Obs.repeats (s : State) (kind : Call → Invocation → Bool) : Obs → Bool
  | .begun _ call id false => (s.ledger.find id).any (kind call)
  | _ => false

theorem Obs.repeats_begun {s : State} {kind : Call → Invocation → Bool} {o : Obs}
    (repeats : o.repeats s kind) : ∃ thread call id inv, o = .begun thread call id false ∧
    s.ledger.find id = some inv ∧ kind call inv := by
  unfold Obs.repeats at repeats
  split at repeats
  · obtain ⟨inv, found, holds⟩ := (any_eq_true _ _).mp repeats
    exact ⟨_, _, _, inv, rfl, found, holds⟩
  · cases repeats

/-- A call finds no runner, and the same call is made again. -/
theorem replay_of_own_request_repeated : ∃ c thread call id inv,
    (gateway {}).Reaches (respecting fun _ => (some (.object []), [])) State.start c ∧
    .begun thread call id false ∈ c.shared.trace ∧ c.shared.ledger.find id = some inv ∧
    inv.state.isTerminal ∧ inv.Carries call.asked := by
  obtain ⟨c, reached, _, member, repeats⟩ := (gateway {}).reaches_of_replay
    (respecting fun _ => (some (.object []), [])) State.start
    (.start (.invokeTool (callOf .readOnly)) :: .run 0 { uuid := "inv" } ::
      List.replicate 4 (.run 0 {}) ++ .start (.invokeTool (callOf .readOnly)) ::
      List.replicate 2 (.run 1 {}))
    (fun s => ∃ o ∈ s.trace, o.repeats s fun _ inv => inv.state.isTerminal)
    (by decide +kernel)
  obtain ⟨thread, call, id, inv, rfl, found, terminal⟩ := Obs.repeats_begun repeats
  exact ⟨c, thread, call, id, inv, reached, member, found, terminal,
    replay_of_own_request _ reached member found⟩

def otherCall (effectClass : EffectClass) : Call :=
  { callOf effectClass with argumentsJSON := marshalJSON (.object [("to", .string "someone else")]) }

/-- **A call is answered with the result of another call's arguments.** A write succeeds; a second call
reuses its key with other arguments, and is told the first one's success. -/
theorem replay_of_other_request : ¬ ∀ (cfg : Config) (c : Conc.Config Unit Input State) (thread : Nat)
    (call : Call) (id : InvocationID) (inv : Invocation),
    (gateway cfg).Reaches .free State.start c → .begun thread call id false ∈ c.shared.trace →
    c.shared.ledger.find id = some inv → inv.state.isTerminal → inv.Carries call.asked := by
  intro claim
  obtain ⟨c, reached, _, member, repeats⟩ := (gateway {}).reaches_of_replay .free State.start
    (sendsInvoke .nonIdempotentWrite ++
      .start (.runnerMessage 0 (.invokeResult { invocationID := "inv", state := .succeeded })) ::
      List.replicate 5 (.run 2 {}) ++ .start (.invokeTool (otherCall .nonIdempotentWrite)) ::
      List.replicate 2 (.run 4 {}))
    (fun s => ∃ o ∈ s.trace, o.repeats s fun call inv =>
      inv.state = .succeeded ∧ some inv.argumentsJSON ≠ call.argumentsJSON.value)
    (by decide +kernel)
  obtain ⟨thread, call, id, inv, rfl, found, holds⟩ := Obs.repeats_begun repeats
  obtain ⟨succeeded, other⟩ := of_decide_eq_true holds
  exact other (claim {} c thread call id inv reached member found (by rw [succeeded]; rfl)).1

end Iterabase.Gateway
