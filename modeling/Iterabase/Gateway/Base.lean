/-
**The tool gateway — the base layer.**

What every action keeps, and what the call that inserted a row tolerates from everyone else: nobody
else begins, renews or sends for it, and its row changes only by the sweep.

* `Moves` — rows keep their identity, and a terminal row never changes.
-/

import Iterabase.Conc.Logic
import Iterabase.Gateway.Service

namespace Iterabase.Gateway

open Conc Data List

/-! ### Observations of a row -/

namespace Obs

variable (id : InvocationID)

def begins : Obs → Bool
  | .begun _ _ id' true => id' = id
  | _ => false

def invokes : Obs → Bool
  | .invoked _ _ _ invoke => invoke.invocationID = id
  | _ => false

def renews : Obs → Bool
  | .renewed _ id' => id' = id
  | _ => false

/-- What only the owner of the row does. -/
def acts (o : Obs) : Bool := o.begins id || o.invokes id || o.renews id


def finishes : Obs → Bool
  | .finished id' => id' = id
  | _ => false

end Obs

/-- The lease was renewed since the last Invoke of the row, while the row was open. -/
def Renewed (id : InvocationID) (trace : List Obs) : Prop :=
  ∃ newer o older, trace = newer ++ o :: older ∧ o.renews id ∧ (∀ o ∈ newer, o.invokes id = false) ∧
    ∀ o ∈ older, o.finishes id = false

variable {id : InvocationID}

theorem Renewed.append {trace new : List Obs} (renewed : Renewed id trace)
    (quiet : ∀ o ∈ new, o.acts id = false) : Renewed id (new ++ trace) := by
  obtain ⟨newer, o, older, rfl, renews, silent, open_⟩ := renewed
  refine ⟨new ++ newer, o, older, (append_assoc _ _ _).symm, renews, fun o' member => ?_, open_⟩
  rcases mem_append.mp member with here | there
  · have still := quiet o' here
    simp only [Obs.acts, Bool.or_eq_false_iff] at still
    exact still.1.2
  · exact silent o' there

/-- **The trace of a row in order.** -/
structure Orderly (cfg : Config) (trace : List Obs) : Prop where
  begunOnce : ∀ id, trace.countP (Obs.begins id) ≤ 1
  renewed : ∀ newer thread call conn invoke older,
    trace = newer ++ .invoked thread call conn invoke :: older → Renewed invoke.invocationID older
  bounded : ∀ thread call id, .begun thread call id true ∈ trace →
    trace.countP (Obs.invokes id) ≤ attempts cfg call.tv id

/-! ### Rows -/

def Invocation.columns (inv : Invocation) : State.Columns :=
  ⟨inv.state, inv.resultJSON, inv.artifactOutputRefs, inv.error⟩

structure Invocation.Becomes (inv inv' : Invocation) : Prop where
  key : inv'.key = inv.key
  effectClass : inv'.effectClass = inv.effectClass
  owner : inv'.owner = inv.owner
  fixed : inv.state.isTerminal → inv' = inv

theorem Invocation.Becomes.refl (inv : Invocation) : inv.Becomes inv := ⟨rfl, rfl, rfl, fun _ => rfl⟩

theorem Invocation.Becomes.trans {a b c : Invocation} (first : a.Becomes b) (second : b.Becomes c) :
    a.Becomes c where
  key := second.key.trans first.key
  effectClass := second.effectClass.trans first.effectClass
  owner := second.owner.trans first.owner
  fixed := by
    intro terminal
    obtain rfl := first.fixed terminal
    exact second.fixed terminal

/-- What the sweep may make of a row. -/
def Invocation.Quiet (inv inv' : Invocation) : Prop :=
  inv' = inv ∨ inv.state.isTerminal = false ∧ inv'.state.isTerminal ∧
    (inv.effectClass ≠ .readOnly → inv'.state ≠ .failed)

/-! ### Steps -/

structure Moves (s s' : State) : Prop where
  trace : s.trace <:+ s'.trace := by exact suffix_refl _
  rows : ∀ id inv, s.ledger.find id = some inv → ∃ inv', s'.ledger.find id = some inv' ∧
    inv.Becomes inv' := by exact fun _ inv found => ⟨inv, found, .refl inv⟩
  channels : ∀ (ch : Nat) (c : Channel), s.channels[ch]? = some c →
    ∃ c' : Channel, s'.channels[ch]? = some c' ∧ c'.invocationID = c.invocationID := by
      exact fun _ c found => ⟨c, found, rfl⟩

theorem Moves.refl (s : State) : Moves s s := {}

theorem Moves.trans (first : Moves a b) (second : Moves b c) : Moves a c where
  trace := first.trace.trans second.trace
  rows := carried_trans (fun becomes becomes' => becomes.trans becomes') first.rows second.rows
  channels := carried_trans (fun same same' => same'.trans same) first.channels second.channels

/-- The call of thread `t` inserted the row. -/
def Owner (t : Nat) (id : InvocationID) (s : State) : Prop :=
  ∃ inv, s.ledger.find id = some inv ∧ inv.owner = t

theorem Owner.moves (owner : Owner t id s) (moves : Moves s s') : Owner t id s' := by
  obtain ⟨inv, found, own⟩ := owner
  obtain ⟨inv', found', becomes⟩ := moves.rows id inv found
  exact ⟨inv', found', becomes.owner.trans own⟩

/-- Nobody touched the row, but perhaps the sweep. -/
structure Untouched (id : InvocationID) (s s' : State) : Prop where
  silent : ∀ new, s'.trace = new ++ s.trace → ∀ o ∈ new, o.acts id = false
  quiet : ∀ inv inv', s.ledger.find id = some inv → s'.ledger.find id = some inv' → inv.Quiet inv'

theorem Untouched.of_eq (trace : s'.trace = s.trace) (row : s'.ledger.find id = s.ledger.find id) :
    Untouched id s s' where
  silent := by
    intro new same o member
    rw [trace] at same
    obtain rfl := self_eq_append_left.mp same
    cases member
  quiet := fun inv inv' found found' => by
    rw [row, found] at found'
    cases found'
    exact .inl rfl

/-- **What the thread `t` tolerates from the others.** -/
structure Rely (t : Nat) (s s' : State) : Prop extends Moves s s' where
  own : ∀ id, Owner t id s → Untouched id s s'

theorem Rely.refl (t : Nat) (s : State) : Rely t s s where
  toMoves := .refl s
  own := fun _ _ => .of_eq rfl rfl

theorem Rely.trans (first : Rely t a b) (second : Rely t b c) : Rely t a c where
  toMoves := first.toMoves.trans second.toMoves
  own := by
    intro id owner
    have before := first.own id owner
    have after := second.own id (owner.moves first.toMoves)
    refine ⟨fun new same o member => ?_, fun inv inv'' found found'' => ?_⟩
    · obtain ⟨new₁, same₁⟩ := first.trace
      obtain ⟨new₂, same₂⟩ := second.trace
      have whole : new = new₂ ++ new₁ := by
        rw [← same₂, ← same₁, ← append_assoc] at same
        exact (append_cancel_right same).symm
      subst whole
      rcases mem_append.mp member with late | early
      · exact after.silent new₂ same₂.symm o late
      · exact before.silent new₁ same₁.symm o early
    · obtain ⟨inv', found', _⟩ := first.rows id inv found
      rcases before.quiet inv inv' found found' with rfl | ⟨open_, closed, kind⟩
      · exact after.quiet inv' inv'' found' found''
      rcases after.quiet inv' inv'' found' found'' with rfl | ⟨still, _⟩
      · exact .inr ⟨open_, closed, kind⟩
      · rw [closed] at still
        cases still

/-! ### The invariant -/

def Reports (id : InvocationID) (report : Report) (s : State) : Prop :=
  ∃ conn msg, .runner conn msg ∈ s.trace ∧ msg.dispatch = some (id, report)

theorem Reports.moves (reports : Reports id report s) (moves : Moves s s') :
    Reports id report s' := by
  obtain ⟨conn, msg, member, made⟩ := reports
  exact ⟨conn, msg, moves.trace.subset member, made⟩

theorem dispatch_terminal {msg : RunnerMessage} (made : msg.dispatch = some (id, report)) :
    report.state = .succeeded ∨ report.state = .failed := by
  cases msg with
  | invokeResult r =>
    cases made
    unfold invokeResultToDispatch
    split
    · exact .inl rfl
    · exact .inr rfl
    · exact .inr rfl
  | invokeError id err =>
    cases made
    exact .inr rfl
  | register | retired => cases made

def Path.columns : Path → Except Err State.Columns
  | .failed err => State.columns .failed none (some (marshalJSON (.array [])))
      (some (marshalJSON err.json))
  | .ambiguous effectClass reason => State.columns (ambiguousState effectClass) none
      (some (marshalJSON (.array []))) (some (marshalJSON (ambiguousJSON effectClass reason)))
  | .reported r => State.columns r.state r.result r.artifactRefs r.errorDetail
  | .duplicate | .committed => .error .notFound

/-- The response a path returns, besides the one it reads from the row. -/
def Path.response (id : InvocationID) : Path → InvokeResponse
  | .failed err => { invocationID := id, state := .failed, error := some err }
  | .ambiguous effectClass reason => ambiguousResponse id effectClass reason
  | .reported r => reportResponse id r
  | .duplicate | .committed => {}

/-- The row is the one the response was made with. -/
def Path.Recorded (inv : Invocation) (resp : InvokeResponse) : Path → Prop
  | .duplicate => True
  | .committed => inv.state.isTerminal ∧ resp = invocationToResponse inv
  | path => inv.state.isTerminal ∧ path.columns = .ok inv.columns ∧ resp = path.response inv.id

structure RowOf (thread : Nat) (call : Call) (id : InvocationID) (s : State) (inv : Invocation) :
    Prop where
  found : s.ledger.find id = some inv
  owner : inv.owner = thread
  key : inv.key = call.key
  effectClass : inv.effectClass = call.tv.effectClass

theorem RowOf.moves {thread : Nat} {call : Call} {inv : Invocation}
    (row : RowOf thread call id s inv) (moves : Moves s s') :
    ∃ inv', RowOf thread call id s' inv' := by
  obtain ⟨inv', found, becomes⟩ := moves.rows id inv row.found
  exact ⟨inv', found, becomes.owner.trans row.owner, becomes.key.trans row.key,
    becomes.effectClass.trans row.effectClass⟩

/-- What an observation says of the rows. -/
def Obs.Sound (s : State) : Obs → Prop
  | .begun thread call id true => ∃ inv, RowOf thread call id s inv
  | .invoked thread call _ invoke => (∃ inv, RowOf thread call invoke.invocationID s inv) ∧
      .begun thread call invoke.invocationID true ∈ s.trace ∧
      invoke.idempotencyKey = upstreamKey call invoke.invocationID
  | .renewed thread id => Owner thread id s
  | .finished id => ∃ inv, s.ledger.find id = some inv ∧ inv.state.isTerminal
  | .responded _ id path resp => (∃ inv, s.ledger.find id = some inv ∧ path.Recorded inv resp) ∧
      ∀ report, path = .reported report → Reports id report s
  | _ => True

theorem Obs.Sound.moves {o : Obs} (sound : o.Sound s) (moves : Moves s s') : o.Sound s' := by
  cases o with
  | begun thread call id inserted =>
    cases inserted with
    | true =>
      obtain ⟨inv, row⟩ := sound
      exact row.moves moves
    | false => trivial
  | invoked thread call conn invoke =>
    obtain ⟨⟨inv, row⟩, begun, key⟩ := sound
    exact ⟨row.moves moves, moves.trace.subset begun, key⟩
  | renewed thread id => exact Owner.moves sound moves
  | finished id =>
    obtain ⟨inv, found, terminal⟩ := sound
    obtain ⟨inv', found', becomes⟩ := moves.rows id inv found
    obtain rfl := becomes.fixed terminal
    exact ⟨inv', found', terminal⟩
  | runner conn msg => trivial
  | responded thread id path resp =>
    obtain ⟨⟨inv, found, recorded⟩, reports⟩ := sound
    obtain ⟨inv', found', becomes⟩ := moves.rows id inv found
    refine ⟨⟨inv', found', ?_⟩, fun report same => (reports report same).moves moves⟩
    cases path with
    | duplicate => trivial
    | _ =>
      obtain rfl := becomes.fixed recorded.1
      exact recorded

/-- No Invoke of the row was sent. -/
def Unsent (id : InvocationID) (s : State) : Prop := ∀ o ∈ s.trace, o.invokes id = false

def Invocation.FailedWrite (inv : Invocation) : Prop :=
  inv.effectClass ≠ .readOnly ∧ inv.state = .failed

structure Base (cfg : Config) (s : State) : Prop where
  sound : ∀ o ∈ s.trace, o.Sound s
  orderly : Orderly cfg s.trace
  failed : ∀ id inv, s.ledger.find id = some inv → inv.FailedWrite → Unsent id s ∨
    ∃ report, Reports id report s ∧ report.state = .failed
  results : ∀ (ch : Nat) (c : Channel) report, s.channels[ch]? = some c → c.result = some (.reported report) →
    Reports c.invocationID report s
  pending : ∀ (i : Nat) (rc : RunnerConn) entry, s.conns[i]? = some rc → entry ∈ rc.pending →
    ∃ c : Channel, s.channels[entry.2]? = some c ∧ c.invocationID = entry.1

def baseRules (cfg : Config) : Rules State where
  inv := Base cfg
  moves := Moves
  rely := Rely
  rely_refl := Rely.refl
  rely_trans := Rely.trans

end Iterabase.Gateway
