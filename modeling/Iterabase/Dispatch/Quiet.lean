/-
**Durable dispatch — every thread keeps the base layer.**

Almost every action of the service is `Quiet`: it keeps the rules and no handler changes hands. A
program of quiet actions keeps any assertion that is `Steady`. What is left are the receive loop's own
transitions and the append of an event, which needs to know that the row is the stream's.
-/

import Iterabase.Dispatch.Actions
import Iterabase.Dispatch.Base

namespace Iterabase.Dispatch

open Conc List Option Table

variable {s s' : State} {w : ConnRef} {label : Label} {te : TurnEvent}

/-! ### The frame rule -/

def SameLoops (s s' : State) : Prop :=
  ∀ k c, s.conns.find k = some c →
    ∃ c', s'.conns.find k = some c' ∧ c'.ref = c.ref ∧ c'.loop = c.loop

theorem SameLoops.of_eq (same : s'.conns = s.conns) : SameLoops s s' :=
  fun _ c found => ⟨c, same ▸ found, rfl, rfl⟩

/-- An action of thread `t` that keeps the rules under `K` and no handler changes hands. -/
def Quiet (t : Nat) (K : State → Prop) (γ : Type) (_ : Label)
    (run : Input → State → Option (γ × State)) : Prop :=
  ∀ {input s answer s'}, Base s → K s → run input s = some (answer, s') →
    BaseStep t s s' ∧ SameLoops s s'

/-- An assertion that thread `t`'s quiet actions and the others keep. -/
structure Steady (t : Nat) (K : State → Prop) : Prop where
  own : ∀ {s s'}, Grows s s' → SameLoops s s' → K s → K s'
  rely : ∀ {s s'}, Rely t s s' → K s → K s'

variable {t : Nat} {K : State → Prop}

variable {α : Type} {p : Program α} {new : List Obs} {c : WorkerConn} {o : Obs} {a : Assignment}
  {kind : RuntimeEvent}

/-- **A program of quiet actions keeps a steady assertion.** -/
theorem wp_of_quiet (steady : Steady t K) (start : K s) (all : p.All (Quiet t K)) :
    Wp baseRules t p (fun _ s => K s) s := by
  induction p generalizing s with
  | done value => exact start
  | act label run next ih =>
    intro s₁ moved inv input answer s₂ ran
    have kept := steady.rely moved start
    obtain ⟨step, loops⟩ := all.1 inv kept ran
    exact ⟨baseStep inv step, ih answer (steady.own step.grows loops kept) (all.2 answer)⟩

theorem wp_quiet_bind {β : Type} {f : α → Program β} {Q : β → State → Prop} (steady : Steady t K)
    (start : K s) (all : p.All (Quiet t K)) (rest : ∀ value s, K s → Wp baseRules t (f value) Q s) :
    Wp baseRules t (p >>= f) Q s :=
  (wp_of_quiet steady start all).andThen rest

theorem Steady.true (t : Nat) : Steady t fun _ => True := ⟨fun _ _ _ => trivial, fun _ _ => trivial⟩

theorem Steady.held (t : Nat) (w : ConnRef) : Steady t (Held t w) where
  own := by
    rintro s s' _ loops ⟨c, found, ref, loop⟩
    obtain ⟨c', found', ref', loop'⟩ := loops _ c found
    exact ⟨c', found', ref'.trans ref, loop'.trans loop⟩
  rely := fun moved held => held.rely moved

def Known (w : ConnRef) (s : State) : Prop := ∃ c, s.conns.find w.id = some c ∧ c.ref = w

theorem Known.grows (known : Known w s) (grows : Grows s s') : Known w s' := by
  obtain ⟨c, found, ref⟩ := known
  obtain ⟨c', found', ref'⟩ := grows.conns _ c found
  exact ⟨c', found', ref'.trans ref⟩

/-- The row of the event's turn was assigned under the generation of `w`. -/
def Owns (w : ConnRef) (te : TurnEvent) (s : State) : Prop :=
  ∃ a, s.assignments.find te.turnID = some a ∧ a.fencingGeneration = w.gen

theorem Owns.grows (owns : Owns w te s) (grows : Grows s s') : Owns w te s' := by
  obtain ⟨a, found, gen⟩ := owns
  obtain ⟨a', found', becomes⟩ := grows.rows _ a found
  exact ⟨a', found', becomes.gen.trans gen⟩

theorem Steady.of_grows (kept : ∀ {s s'}, Grows s s' → K s → K s') : Steady t K :=
  ⟨fun grows _ => kept grows, fun moved => kept moved.toGrows⟩

theorem Steady.known (t : Nat) (w : ConnRef) : Steady t (Known w) :=
  .of_grows fun grows known => known.grows grows

theorem Steady.owns (t : Nat) (w : ConnRef) (te : TurnEvent) : Steady t (Owns w te) :=
  .of_grows fun grows owns => owns.grows grows

theorem Steady.and {K' : State → Prop} (first : Steady t K) (second : Steady t K') :
    Steady t fun s => K s ∧ K' s :=
  ⟨fun grows loops both => ⟨first.own grows loops both.1, second.own grows loops both.2⟩,
    fun moved both => ⟨first.rely moved both.1, second.rely moved both.2⟩⟩

/-! ### The four kinds of action -/

def Obs.Plain (o : Obs) : Prop := o.conn = none ∧ o.owner = none ∧ ∀ s, o.Rows s

theorem StoreStep.base (step : StoreStep s s' new)
    (fresh : ∀ o ∈ new, o.Rows s' ∧ (∀ w, o.conn = some w → w.id < s.nextConn) ∧
      ∀ w, o.owner = some w → Held t w s) : BaseStep t s s' where
  durable := step.durable
  conns := .of_eq step.conns
  rows := fun k a' found => .inl (step.rows k a' found)
  gen := step.gen
  nextConn := step.nextConn
  fresh := by
    intro o member old
    rw [step.trace] at member
    rcases mem_append.mp member with here | there
    · exact fresh o here
    · exact absurd there old
  turnNamed := step.named

open StoreStep

theorem StoreStep.plain (step : StoreStep s s' new) (plain : ∀ o ∈ new, o.Plain) :
    BaseStep t s s' :=
  step.base fun o member =>
    have quiet := plain o member
    ⟨quiet.2.2 s', fun w about => (by rw [quiet.1] at about; cases about),
      fun w owned => (by rw [quiet.2.1] at owned; cases owned)⟩

section Actions

variable {t : Nat} {K : State → Prop} {α : Type} {tx : Input → State → Except Err α × State}

theorem store_quiet
    (quiet : ∀ {input s answer s'}, Base s → K s → tx input s = (answer, s') →
      BaseStep t s s' ∧ SameLoops s s') : (store label tx).All (Quiet t K) := by
  refine .atomic fun {input s answer s'} base kept ran => ?_
  exact call_keeps ran ⟨(StoreStep.refl _).plain (by simp), .of_eq rfl⟩ fun ran => quiet base kept ran

theorem store_plain
    (plain : ∀ {input s answer s'}, tx input s = (answer, s') →
      ∃ new, StoreStep s s' new ∧ ∀ o ∈ new, o.Plain) : (store label tx).All (Quiet t K) :=
  store_quiet fun _ _ ran =>
    have ⟨_, step, quiet⟩ := plain ran
    ⟨step.plain quiet, .of_eq step.conns⟩

theorem query_quiet {read : State → Except Err α} : (query label read).All (Quiet t K) :=
  store_plain fun ran => by
    cases ran
    exact ⟨[], .refl _, by simp⟩

theorem read_quiet {f : Input → State → α} :
    (locally fun input s => (f input s, s)).All (Quiet t K) := by
  refine .atomic fun {input s answer s'} base kept ran => ?_
  cases ran
  exact ⟨(refl s).plain (by simp), .of_eq rfl⟩

theorem modifyConns_find (s : State) (p : WorkerConn → Bool) (f : WorkerConn → WorkerConn)
    (keeps : ∀ c, (f c).ref = c.ref) (k : Nat) : (s.modifyConns p f keeps).conns.find k =
    (s.conns.find k).map fun c => if p c then f c else c :=
  find_update s.conns p f (fun c => congrArg ConnRef.id (keeps c)) k

theorem modifyConn_lookup (f : WorkerConn → WorkerConn) (keeps : ∀ c, (f c).ref = c.ref) (k : Nat) :
    (s.modifyConn w f keeps).conns.find k = (s.conns.find k).map fun c => if c.id =
    w.id then f c else c := by
  refine (modifyConns_find s _ f keeps k).trans ?_
  simp only [decide_eq_true_eq]

variable {f : WorkerConn → WorkerConn}

theorem modifyConn_find {keeps : ∀ c, (f c).ref = c.ref} (found : s.conns.find w.id = some c) :
    (s.modifyConn w f keeps).conns.find w.id = some (f c) := by
  rw [modifyConn_lookup, found, map_some, if_pos (show c.id = w.id from find_key found)]

theorem add_find (k : Nat) :
    (s.add w).2.conns.find k = (s.conns.find k).map fun c =>
      if State.underKey w.poolID w.workerID c || decide (c.id = w.id) then
        (if c.id = w.id then { c with registered := true, workspaceGated := s.poolGate w.poolID }
          else { c with registered := false })
      else c :=
  modifyConns_find s _ _ (fun c => by split <;> rfl) k

theorem applyWorkspaceStatus_find (gated : Bool) (k : Nat) :
    (s.applyWorkspaceStatus w gated).conns.find k = (s.conns.find k).map fun c => if decide
    (c.registered = true ∧ c.ref.poolID = w.poolID) then c.applyWorkspaceStatus gated (c.id = w.id)
    else c :=
  find_update s.conns _ (fun c => c.applyWorkspaceStatus gated (c.id = w.id)) (fun _ => rfl) k

variable {p : WorkerConn → Bool}

theorem modifyConns_base
    {keeps : ∀ c, (f c).ref = c.ref}
    (calm : ∀ k c, s.conns.find k = some c → p c → ∀ other, other ≠ t → c.loop = .held other →
      c.Calm (f c)) : BaseStep t s (s.modifyConns p f keeps) where
  durable := {}
  conns :=
    { kept := by
        intro k c found
        refine ⟨if p c then f c else c, ?_, ?_, fun other different held => ?_⟩
        · rw [modifyConns_find, found]
          rfl
        · split
          · exact keeps c
          · rfl
        · split
          · exact calm k c found ‹_› other different held
          · exact .refl c
      noNew := by
        intro k c' found
        rw [modifyConns_find, map_eq_some_iff] at found
        obtain ⟨c, found, _⟩ := found
        exact ⟨c, found⟩ }
  rows := fun _ a found => .inl ⟨a, found, .refl a⟩
  gen := rfl
  nextConn := rfl
  fresh := fun _ member old => absurd member old
  turnNamed := fun named => named

theorem modifyConns_loops {keeps : ∀ c, (f c).ref = c.ref} (loops : ∀ c, (f c).loop = c.loop) :
    SameLoops s (s.modifyConns p f keeps) := by
  intro k c found
  refine ⟨if p c then f c else c, ?_, ?_, ?_⟩
  · rw [modifyConns_find, found]
    rfl
  · split
    · exact keeps c
    · rfl
  · split
    · exact loops c
    · rfl

theorem modifyConn_quiet {keeps : ∀ c, (f c).ref = c.ref} (calm : ∀ c : WorkerConn, c.Calm (f c)) :
    (locally (fun _ s => ((), s.modifyConn w f keeps)) label).All (Quiet t K) := by
  refine .atomic fun {input s answer s'} base kept ran => ?_
  cases ran
  exact ⟨modifyConns_base fun _ c _ _ _ _ _ => calm c, modifyConns_loops fun c => (calm c).loop⟩

theorem modifyConns_quiet {f : Input → State → α} {p : State → WorkerConn → Bool}
    {g : State → WorkerConn → WorkerConn} {keeps : ∀ s c, (g s c).ref = c.ref}
    (calm : ∀ s (c : WorkerConn), c.Calm (g s c)) :
    (locally fun input s => (f input s, s.modifyConns (p s) (g s) (keeps s))).All (Quiet t K) := by
  refine .atomic fun {input s answer s'} base kept ran => ?_
  cases ran
  exact ⟨modifyConns_base fun _ c _ _ _ _ _ => calm s c,
    modifyConns_loops fun c => (calm s c).loop⟩

variable {msg : ControlMessage} {answers : Option TurnEvent}

theorem send_cases {input : Input} {answer : Except Err Unit}
    (ran : (s.conns.find w.id).map (fun c =>
      if c.closed then (Except.error Err.connClosed, s)
      else (if input.fail then .error .infrastructure else .ok (), s.observe (.sent w msg answers))) =
        some (answer, s')) :
    ∃ c, s.conns.find w.id = some c ∧ ((c.closed = true ∧ s' = s ∧ answer = .error .connClosed) ∨
      (c.closed = false ∧ s' = s.observe (.sent w msg answers) ∧
        (input.fail = false → answer = .ok ()))) := by
  obtain ⟨c, found, ran⟩ := map_eq_some_iff.mp ran
  refine ⟨c, found, ?_⟩
  split at ran
  · cases ran
    exact .inl ⟨‹_›, rfl, rfl⟩
  rename_i open_
  cases ran
  exact .inr ⟨by simpa using open_, rfl, fun went => by simp [went]⟩

theorem send_base (base : Base s) (found : s.conns.find w.id = some c)
    (sent : o = .sent w msg answers) (after : s' = s ∨ s' = s.observe o)
    (held : ∀ w', o.owner = some w' → Held t w' s) : BaseStep t s s' := by
  subst sent
  rcases after with rfl | rfl
  · exact (refl _).plain (by simp)
  have step : StoreStep s (s.observe (.sent w msg answers)) [.sent w msg answers] :=
    .observe trivial
  refine step.base fun o' member => ?_
  rw [mem_singleton] at member
  subst member
  refine ⟨trivial, fun w' about => ?_, held⟩
  cases about
  exact base.connNext _ c found

theorem send_quiet (held : ∀ {s}, K s → ∀ w', (Obs.sent w msg answers).owner = some w' → Held t w' s)
    : (send w msg answers).All (Quiet t K) := by
  refine .atomic fun {input s answer s'} base kept ran => ?_
  obtain ⟨c, found, ran⟩ := map_eq_some_iff.mp ran
  split at ran
  · cases ran
    exact ⟨send_base base found rfl (.inl rfl) (held kept), .of_eq rfl⟩
  · cases ran
    exact ⟨send_base base found rfl (.inr rfl) (held kept), .of_eq rfl⟩

/-! ### The functions of the service -/

theorem Internal.plain (internal : Internal s s') :
    ∃ new, StoreStep s s' new ∧ ∀ o ∈ new, o.Plain := by
  obtain ⟨new, step, inner⟩ := internal.step
  refine ⟨new, step, fun o member => ?_⟩
  have turn := inner o member
  cases o <;> first | exact turn.elim | exact ⟨rfl, rfl, fun _ => trivial⟩

theorem modifyConn_logs_quiet {keeps : ∀ c, (f c).ref = c.ref} {o : State → Obs}
    (calm : ∀ c : WorkerConn, c.Calm (f c)) (plain : ∀ s, (o s).Plain ∧ ∀ s', (o s).Honest s') :
    (locally (fun _ s => ((), (s.modifyConn w f keeps).observe (o s))) label).All (Quiet t K) := by
  refine .atomic fun {input s answer s'} base kept ran => ?_
  cases ran
  obtain ⟨⟨unplaced, unowned, rows⟩, honest⟩ := plain s
  have step : BaseStep t s (s.modifyConn w f keeps) :=
    modifyConns_base fun _ c _ _ _ _ _ => calm c
  have loops : SameLoops s (s.modifyConn w f keeps) := modifyConns_loops fun c => (calm c).loop
  refine ⟨step.observe (honest s) (rows _) ⟨fun w about => ?_, fun w owned => ?_⟩, loops⟩
  · rw [unplaced] at about
    cases about
  · rw [unowned] at owned
    cases owned

theorem releaseFor_quiet : (releasing w a).All (Quiet t K) :=
  modifyConn_logs_quiet
    (fun _ => { spent := fun credit _ => ⟨credit, rfl⟩ })
    fun _ => ⟨⟨rfl, rfl, fun _ => trivial⟩, fun _ => trivial⟩

theorem background_quiet : Background (Every (Quiet t K)) where
  toSequential := every_sequential _
  query := query_quiet
  read := read_quiet
  send := fun {w msg} ordinary => send_quiet fun _ w' owned => by
    cases msg with
    | welcome gen => exact absurd rfl (ordinary gen)
    | _ => cases owned
  settle := store_plain fun ran => (Internal.settle ran).plain
  terminalize := store_plain fun ran => by
    cases ran
    exact (Internal.terminalize _ _).plain
  fence := store_plain fun ran => (Internal.fence ran).plain
  markClosed := modifyConn_quiet fun _ =>
    {}
  releaseTurn := releaseFor_quiet

theorem record_quiet {report : CompletionReport} : (recordTx te report).All (Quiet t K) :=
  store_plain fun ran => (Internal.record ran).plain

theorem add_quiet (w : ConnRef) : (locally fun _ s => s.add w).All (Quiet t K) := by
  refine modifyConns_quiet fun s c => ?_
  split <;> exact {}

theorem applyWorkspaceStatus_quiet (w : ConnRef) (gated : Bool) :
    (publishing w gated).All (Quiet t K) := by
  refine .atomic fun {input s answer s'} base kept ran => ?_
  cases ran
  have calm : ∀ (c : WorkerConn) (observed : Bool),
      c.Calm (c.applyWorkspaceStatus gated observed) := fun c observed =>
    { observed := fun seen => by simp [WorkerConn.applyWorkspaceStatus, seen] }
  have step : BaseStep t s (s.modifyConns (fun c => c.registered ∧ c.ref.poolID = w.poolID)
      (fun c => c.applyWorkspaceStatus gated (c.id = w.id)) fun _ => rfl) :=
    modifyConns_base fun _ c _ _ _ _ _ => calm c _
  have loops : SameLoops s (s.modifyConns (fun c => c.registered ∧ c.ref.poolID = w.poolID)
      (fun c => c.applyWorkspaceStatus gated (c.id = w.id)) fun _ => rfl) :=
    modifyConns_loops fun c => (calm c _).loop
  exact ⟨⟨⟨step.durable.rows, step.durable.turns, step.durable.trace, step.durable.honest, le_refl _⟩,
    ⟨step.conns.kept, step.conns.noNew⟩, step.rows, rfl, rfl, step.fresh, step.turnNamed⟩, loops⟩

/-! ### The handler's own functions -/

theorem Held.fresh (held : Held t w s) (base : Base s) (about : o.conn = some w)
    (owned : o.owner = some w ∨ o.owner = none) :
    (∀ w', o.conn = some w' → w'.id < s.nextConn) ∧ ∀ w', o.owner = some w' → Held t w' s := by
  refine ⟨fun w' about' => ?_, fun w' owned' => ?_⟩
  · cases about.symm.trans about'
    obtain ⟨c, found, _⟩ := held
    exact base.connNext _ c found
  · rcases owned with same | none
    · cases same.symm.trans owned'
      exact held
    · rw [none] at owned'
      cases owned'

theorem ack_quiet (te : TurnEvent) (held : ∀ {s}, K s → Held t w s) : (ack w te).All (Quiet t K) := by
  refine send_quiet fun kept w' owned => ?_
  cases owned
  exact held kept

theorem audit_quiet (held : ∀ {s}, K s → Held t w s) : (auditTx w te kind).All (Quiet t K) := by
  refine store_quiet fun {input s answer s'} base kept ran => ?_
  rcases appendAfterTerminalEvent_cases ran with
    ⟨_, rfl, _⟩ | ⟨a, found, _, _, ⟨_, rfl, _⟩ | ⟨_, rfl⟩ | ⟨_, next, rfl⟩⟩
  · refine ⟨(observe (o := .unowned w te) trivial).base fun o member => ?_, .of_eq rfl⟩
    rw [mem_singleton] at member
    subst member
    exact ⟨trivial, (held kept).fresh base rfl (.inl rfl)⟩
  · exact ⟨(refl _).plain (by simp), .of_eq rfl⟩
  · exact ⟨(refl _).plain (by simp), .of_eq rfl⟩
  · refine ⟨(committed_step _ (o := .audited w te) found next trivial).1.base fun o member => ?_,
      .of_eq rfl⟩
    rw [mem_singleton] at member
    subst member
    exact ⟨trivial, (held kept).fresh base rfl (.inl rfl)⟩

theorem auditAndAck_quiet (te : TurnEvent) (held : ∀ {s}, K s → Held t w s) :
    (auditAndAck w te).All (Quiet t K) := by
  refine .bind (appendAfterTerminal_all fun _ => audit_quiet held) fun answer => ?_
  split
  · exact .done _
  · exact ack_quiet te held

theorem append_quiet : (appendTx w te kind).All (Quiet t fun s => Held t w s ∧ Owns w te s) := by
  refine store_quiet fun {input s answer s'} base kept ran => ?_
  rcases appendTurnEvent_cases ran with
    ⟨_, _, rfl, _⟩ | ⟨a, found, active, ⟨_, rfl, _⟩ | ⟨_, next, rfl⟩⟩
  · exact ⟨(refl _).plain (by simp), .of_eq rfl⟩
  · exact ⟨(refl _).plain (by simp), .of_eq rfl⟩
  obtain ⟨held, owned, found', gen⟩ := kept
  cases found.symm.trans found'
  obtain ⟨step, after⟩ :=
    committed_step kind (o := .appended w te) found next (appended_honest found active next)
  refine ⟨step.base fun o member => ?_, .of_eq rfl⟩
  rw [mem_singleton] at member
  subst member
  exact ⟨⟨_, after, gen, le_refl _⟩, held.fresh base rfl (.inl rfl)⟩

theorem reconnectFence_quiet (held : ∀ {s}, K s → Held t w s) :
    (reconnectTx w).All
      (Quiet t K) := by
  refine store_quiet fun {input s answer s'} base kept ran => ?_
  rcases fenced : s.fenceWorkerGeneration w.poolID w.workerID input.pick with ⟨answer', middle⟩
  simp only [fenced] at ran
  cases ran
  have step := fenceWhere_step fenced
  exact ⟨(step.plain (by simp)).observe trivial trivial ((held kept).fresh base rfl (.inl rfl)),
    .of_eq step.conns⟩

theorem createAssignment_quiet {turn : Turn} :
    (createTx w (rowFor turn w.poolID w)).All (Quiet t (Known w)) := by
  refine store_quiet fun {input s answer s'} base known ran => ?_
  rcases createAssignmentFor_cases ran with ⟨_, _, rfl⟩ | ⟨rows, _, inserted, rfl⟩
  · exact ⟨(refl _).plain (by simp), .of_eq rfl⟩
  have after := find_insert inserted
  have fresh := insert_fresh inserted
  have row : BaseStep t s ({ s with assignments := rows }) := by
    refine ⟨⟨fun k a found => ⟨a, ?_, .refl a⟩, fun _ u found => ⟨u, found, .refl u⟩,
      suffix_rfl, fun o member old => absurd member old, le_refl _⟩, .of_eq rfl,
      fun k a found => ?_, rfl, rfl, fun o member old => absurd member old, fun named => named⟩
    · refine (after k).trans ?_
      rw [if_neg, found]
      rintro rfl
      rw [fresh] at found
      cases found
    · have found' := (after k).symm.trans found
      split at found'
      · cases found'
        obtain ⟨c, found'', ref⟩ := known
        exact .inr ⟨_, c, found'', by rw [ref]; rfl, by rw [ref]; rfl, by rw [ref]; rfl⟩
      · exact .inl ⟨a, found', .refl a⟩
  have here := (after turn.id).trans (if_pos rfl)
  have nobody : (∀ w', (none : Option ConnRef) = some w' → w'.id < s.nextConn) ∧
      ∀ w', (none : Option ConnRef) = some w' → Held t w' s :=
    ⟨fun _ about => (by cases about), fun _ owned => (by cases owned)⟩
  have noted := row.observe (o := .assigned (rowFor turn w.poolID w)) trivial ⟨_, here, .refl _⟩ nobody
  exact ⟨noted.observe (o := .holds w turn.id _) trivial ⟨_, here, rfl⟩ nobody, .of_eq rfl⟩

theorem syncWorkspaceCapacity_quiet (states : List WorkspaceCapacityState) :
    (syncing states).All (Quiet t K) := by
  refine .atomic fun {input s answer s'} base kept ran => ?_
  cases ran
  have same : StoreStep s (s.syncWorkspaceCapacity states) [] := {}
  exact ⟨same.plain (by simp), .of_eq rfl⟩

end Actions

end Iterabase.Dispatch
