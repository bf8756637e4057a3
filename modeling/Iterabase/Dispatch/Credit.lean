/-
**Durable dispatch — the one-credit protocol as a layer.**

What the service has to keep for a compliant worker: its connection holds no turn while the worker is
between two turns, and the turn the worker runs keeps its active assignment until its WorkerOutcome is
appended.

* `compliantGuard` — the runs of compliant workers: every store call succeeds, no lease expires, and a
  worker opens one stream.
* `creditGuard` — besides, `CancelTurn` fences no turn whose WorkerOutcome is not yet appended, and no
  `Send` of the stream fails.
* `CreditInv`, `CreditRely` — the layer's invariant, and what the handler of a connection and the
  dispatcher that reserved one may count on.
-/

import Iterabase.Dispatch.Phase

namespace Iterabase.Dispatch

open Conc List

variable {turnID : TurnID} {o : Obs} {new : List Obs} {w : ConnRef}

/-! ### The runs of compliant workers -/

def Obs.finishes (turnID : TurnID) : Obs → Bool
  | .appended _ te => te.turnID = turnID ∧ te.kind.outcome.isSome
  | _ => false

def Finished (turnID : TurnID) (s : State) : Prop := ∃ o ∈ s.trace, o.finishes turnID

instance (turnID : TurnID) (s : State) : Decidable (Finished turnID s) :=
  inferInstanceAs (Decidable (∃ o ∈ s.trace, o.finishes turnID))

variable {s s₁ s₂ s₃ s' : State} {q q₁ q₂ q₃ : Phase} {c' d e : WorkerConn} {gen k t : Nat}

theorem Finished.grows (finished : Finished turnID s) (grows : Grows s s') :
    Finished turnID s' := by
  obtain ⟨o, member, finishes⟩ := finished
  exact ⟨o, grows.trace.subset member, finishes⟩

/-- Every store call succeeds, and a worker opens one stream. -/
def Compliant (label : Label) (input : Input) (s : State) : Prop :=
  match label with
  | .send _ _ => True
  | .register poolID workerID => input.fail = false ∧
      ∀ c ∈ s.conns.rows, c.ref.poolID = poolID → c.ref.workerID ≠ workerID
  | _ => input.fail = false

instance (label : Label) (input : Input) (s : State) : Decidable (Compliant label input s) := by
  cases label <;> unfold Compliant <;> infer_instance

/-- The worker keeps the protocol, and no lease expires. -/
def CompliantRequest (request : Request) (s : State) : Prop :=
  match request with
  | .workerSends conn msg => ∀ c ∈ s.conns.find conn, (s.phase .worker c.ref).Allows msg
  | .expireLease _ => False
  | _ => True

instance (request : Request) (s : State) : Decidable (CompliantRequest request s) := by
  cases request <;> unfold CompliantRequest <;> infer_instance

/-- A fence of `CancelTurn` finds only turns whose WorkerOutcome is appended, and a message enters
the stream or is refused. -/
def CancelsFinished (label : Label) (input : Input) (s : State) : Prop :=
  match label with
  | .send _ _ => input.fail = false
  | .fence (.cancel turnID) poolID workerID gen => ∀ a ∈ s.assignments.rows,
      State.activeForGen poolID workerID gen a → Finished a.turnID s ∧ Finished turnID s
  | _ => True

instance (label : Label) (input : Input) (s : State) : Decidable (CancelsFinished label input s) := by
  cases label with
  | fence cause => cases cause <;> unfold CancelsFinished <;> infer_instance
  | _ => unfold CancelsFinished; infer_instance

abbrev compliantGuard : System.Guard Label Input Request State :=
  ⟨Compliant, CompliantRequest, fun _ => True⟩

abbrev creditGuard : System.Guard Label Input Request State :=
  ⟨fun label input s => Compliant label input s ∧ CancelsFinished label input s, CompliantRequest,
    fun _ => True⟩

/-! ### The invariant -/

/-- The turn has an active assignment of the generation, and its WorkerOutcome is not appended. -/
def Live (turnID : TurnID) (gen : Nat) (s : State) : Prop :=
  (∃ a, s.assignments.find turnID = some a ∧ a.state = .active ∧ a.fencingGeneration = gen) ∧
    ¬ Finished turnID s

/-- A connection between two messages of its worker. -/
structure WorkerConn.AtRest (q : Phase) (c : WorkerConn) : Prop where
  closed : c.closed = false
  registered : c.registered = true
  spent : q.Unassigned → c.creditAdvertised = false ∧ c.activeTurn = ""
  observed : q ≠ .fresh → c.workspaceObserved = true

/-- A connection whose worker is at `p`, which the receive loop sees at `q`. -/
structure WorkerConn.Obeys (p q : Phase) (c : WorkerConn) : Prop where
  view : p = c.inbox.foldl Phase.after q
  legal : q.Legal c.inbox
  waiting : c.loop = .waiting → c.AtRest q
  credit : c.creditAdvertised = true → q = .armed ∧ c.activeTurn = ""

structure CreditInv (s : State) : Prop where
  conn : ∀ k c, s.conns.find k = some c →
    c.Obeys (s.phase .worker c.ref) (s.phase .handler c.ref)
  live : ∀ k c turnID n, s.conns.find k = some c → c.closed = false →
    s.phase .handler c.ref = .running turnID n → Live turnID c.ref.gen s
  key : ∀ k c k' c', s.conns.find k = some c → s.conns.find k' = some c' →
    c.ref.poolID = c'.ref.poolID → c.ref.workerID = c'.ref.workerID → k = k'
  valid : ∀ w valid, .readyAnswered w valid ∈ s.trace → valid = true

/-! ### What a thread may count on -/

/-- How others move the phase of a connection: they assign the turn that was waited for. -/
def Phase.Moves (q q' : Phase) : Prop := q' = q ∨ q = .armed ∧ ∃ turnID, q' = .running turnID 0

open Phase

theorem Phase.Moves.trans (first : q₁.Moves q₂) (second : q₂.Moves q₃) : q₁.Moves q₃ := by
  rcases first with rfl | ⟨rfl, turnID, rfl⟩
  · exact second
  rcases second with rfl | ⟨armed, _⟩
  · exact .inr ⟨rfl, turnID, rfl⟩
  · cases armed

/-- The dispatcher `t` consumed the credit and has not assigned its turn. -/
def WorkerConn.Reserved (t : Nat) (q : Phase) (c : WorkerConn) : Prop :=
  c.reservedBy = some t ∧ c.activeTurn ≠ "" ∧ q = .armed

/-- What others may do to a connection, and its phase, while its handler runs. -/
structure WorkerConn.Drift (q : Phase) (c : WorkerConn) (q' : Phase) (c' : WorkerConn) : Prop where
  loop : c'.loop = c.loop := by rfl
  closed : c'.closed = c.closed := by rfl
  registered : c'.registered = c.registered := by rfl
  observed : c.workspaceObserved = true → c'.workspaceObserved = true := by exact fun seen => seen
  phase : q.Moves q'
  spent : c.creditAdvertised = false → c.activeTurn = "" →
    c'.creditAdvertised = false ∧ c'.activeTurn = "" ∧ q' = q

theorem WorkerConn.Drift.refl {q' : Phase} (c : WorkerConn) (same : q' = q) : c.Drift q q' c :=
  { phase := .inl same, spent := fun credit turn => ⟨credit, turn, same⟩ }

variable {c : WorkerConn}

theorem WorkerConn.Drift.trans (first : c.Drift q₁ q₂ d) (second : d.Drift q₂ q₃ e) :
    c.Drift q₁ q₃ e where
  loop := second.loop.trans first.loop
  closed := second.closed.trans first.closed
  registered := second.registered.trans first.registered
  observed := second.observed ∘ first.observed
  phase := first.phase.trans second.phase
  spent := by
    intro credit turn
    obtain ⟨credit', turn', same⟩ := first.spent credit turn
    obtain ⟨credit'', turn'', same'⟩ := second.spent credit' turn'
    exact ⟨credit'', turn'', same'.trans same⟩

structure ConnRely (t : Nat) (s s' : State) (c c' : WorkerConn) : Prop where
  ref : c'.ref = c.ref
  closed : c.closed = true → c'.closed = true
  held : c.loop = .held t → c.Drift (s.phase .handler c.ref) (s'.phase .handler c.ref) c'
  live : c.loop = .held t → c.closed = false → ∀ turnID n,
    s.phase .handler c.ref = .finishing turnID n → Live turnID c.ref.gen s →
      Live turnID c.ref.gen s'
  reserved : c.Reserved t (s.phase .handler c.ref) → c'.closed = true ∨
    (c'.reservedBy = c.reservedBy ∧ c'.activeTurn = c.activeTurn ∧
      s'.phase .handler c.ref = .armed ∧
      (Live c.activeTurn c.ref.gen s → Live c.activeTurn c.ref.gen s'))

def CreditRely (t : Nat) (s s' : State) : Prop :=
  ∀ k c, s.conns.find k = some c → ∃ c', s'.conns.find k = some c' ∧ ConnRely t s s' c c'

theorem CreditRely.refl (t : Nat) (s : State) : CreditRely t s s := fun _ c found =>
  ⟨c, found, rfl, id, fun _ => .refl c rfl, fun _ _ _ _ _ live => live,
    fun reserved => .inr ⟨rfl, rfl, reserved.2.2, id⟩⟩

theorem ConnRely.trans (first : ConnRely t s₁ s₂ c d) (second : ConnRely t s₂ s₃ d e) :
    ConnRely t s₁ s₃ c e where
  ref := second.ref.trans first.ref
  closed := second.closed ∘ first.closed
  held := by
    intro held
    have here := first.held held
    have there := second.held (here.loop.trans held)
    rw [first.ref] at there
    exact here.trans there
  live := by
    intro held open_ turnID n finishing live
    have here := first.held held
    have same : s₂.phase .handler c.ref = .finishing turnID n := by
      rcases here.phase with same | ⟨armed, _⟩
      · rw [same, finishing]
      · rw [finishing] at armed
        cases armed
    have onward := second.live (here.loop.trans held) (here.closed.trans open_) turnID n
    rw [first.ref] at onward
    exact onward same (first.live held open_ turnID n finishing live)
  reserved := by
    intro reserved
    rcases first.reserved reserved with closed | ⟨by_, turn, armed, live⟩
    · exact .inl (second.closed closed)
    have again : d.Reserved t (s₂.phase .handler d.ref) :=
      ⟨by_.trans reserved.1, turn ▸ reserved.2.1, first.ref ▸ armed⟩
    rcases second.reserved again with closed | ⟨by', turn', armed', live'⟩
    · exact .inl closed
    · rw [turn, first.ref] at live'
      exact .inr ⟨by'.trans by_, turn'.trans turn, first.ref ▸ armed', live' ∘ live⟩

theorem CreditRely.trans (first : CreditRely t s₁ s₂) (second : CreditRely t s₂ s₃) :
    CreditRely t s₁ s₃ :=
  carried_trans (fun kept kept' => kept.trans kept') first second

def creditLayer : Layer Label Input Request State where
  inv := CreditInv
  guard := creditGuard
  rely := CreditRely
  rely_refl := CreditRely.refl
  rely_trans := CreditRely.trans

/-! ### Steps -/

/-- What thread `t` may do to a connection whose worker goes from `p` to `p'`. -/
structure ConnEdit (t : Nat) (p p' : Side → Phase) (c c' : WorkerConn) : Prop where
  obeys : c.Obeys (p .worker) (p .handler) → c'.Obeys (p' .worker) (p' .handler)
  closed : c.closed = true → c'.closed = true := by exact fun closed => closed
  held : ∀ other, other ≠ t → c.loop = .held other → c.Drift (p .handler) (p' .handler) c'
  reserved : ∀ other, other ≠ t → c.Reserved other (p .handler) → c'.closed = true ∨
    (c'.reservedBy = c.reservedBy ∧ c'.activeTurn = c.activeTurn ∧ p' .handler = .armed)

/-- A connection may lose the turn: it is closed, or the turn is taken by its own handler when the
worker neither waits for it nor runs it. -/
def Forfeits (t : Nat) (s : State) (c : WorkerConn) (turnID : TurnID) : Prop :=
  c.closed = true ∨ (c.loop = .held t ∧ s.phase .handler c.ref ≠ .armed ∧
    ∀ n, s.phase .handler c.ref ≠ .running turnID n)

def Spares (t : Nat) (s s' : State) : Prop :=
  ∀ k c turnID, s.conns.find k = some c → Live turnID c.ref.gen s → Live turnID c.ref.gen s' ∨
    Forfeits t s c turnID

/-- What an action of thread `t` that makes no connection has to show. -/
structure CreditStep (t : Nat) (s s' : State) : Prop where
  conns : ∀ k c, s.conns.find k = some c → ∃ c', s'.conns.find k = some c' ∧ c'.ref = c.ref ∧
    ConnEdit t (s.phase · c.ref) (s'.phase · c.ref) c c'
  running : ∀ k c turnID n, s.conns.find k = some c → s'.phase .handler c.ref = .running turnID n →
    (∃ m, s.phase .handler c.ref = .running turnID m) ∨ Live turnID c.ref.gen s'
  noNew : ∀ k c', s'.conns.find k = some c' → ∃ c, s.conns.find k = some c
  spares : Spares t s s'
  valid : ∀ w valid, .readyAnswered w valid ∈ s'.trace →
    .readyAnswered w valid ∈ s.trace ∨ valid = true

namespace CreditStep

variable {t : Nat} {s s' : State}

section Step

variable (step : CreditStep t s s')

include step

theorem back (found : s'.conns.find k = some c') :
    ∃ c, s.conns.find k = some c ∧ c'.ref = c.ref ∧
      ConnEdit t (s.phase · c.ref) (s'.phase · c.ref) c c' := by
  obtain ⟨c, found₀⟩ := step.noNew k c' found
  obtain ⟨c'', found', edit⟩ := step.conns k c found₀
  cases found.symm.trans found'
  exact ⟨c, found₀, edit⟩

theorem inv (inv : CreditInv s) : CreditInv s' where
  conn := by
    intro k c' found
    obtain ⟨c, found₀, ref, edit⟩ := step.back found
    rw [ref]
    exact edit.obeys (inv.conn k c found₀)
  live := by
    intro k c' turnID n found open_ running
    obtain ⟨c, found₀, ref, edit⟩ := step.back found
    rw [ref] at running ⊢
    rcases step.running k c turnID n found₀ running with ⟨m, running₀⟩ | live
    · have open₀ : c.closed = false := Bool.eq_false_iff.mpr fun closed => by
        cases open_.symm.trans (edit.closed closed)
      have live := inv.live k c turnID m found₀ open₀ running₀
      rcases step.spares k c turnID found₀ live with live' | closed | ⟨_, _, other⟩
      · exact live'
      · cases open₀.symm.trans closed
      · exact absurd running₀ (other m)
    · exact live
  key := by
    intro k c k' c' found found' pool worker
    obtain ⟨c₀, found₀, ref, _⟩ := step.back found
    obtain ⟨c₀', found₀', ref', _⟩ := step.back found'
    rw [ref, ref'] at pool worker
    exact inv.key k c₀ k' c₀' found₀ found₀' pool worker
  valid := by
    intro w valid member
    rcases step.valid w valid member with old | new
    · exact inv.valid w valid old
    · exact new

theorem live {other : Nat} (found : s.conns.find k = some c) (open_ : c.closed = false)
    (different : other ≠ t) (mine : c.loop = .held other ∨ s.phase .handler c.ref = .armed)
    (live : Live turnID c.ref.gen s) : Live turnID c.ref.gen s' := by
  rcases step.spares k c turnID found live with live' | closed | ⟨held, notArmed, _⟩
  · exact live'
  · cases open_.symm.trans closed
  rcases mine with held' | armed
  · cases held.symm.trans held'
    exact absurd rfl different
  · exact absurd armed notArmed

theorem guarantee : creditLayer.Guarantee t s s' := by
  intro other different k c found
  obtain ⟨c', found', ref, edit⟩ := step.conns k c found
  refine ⟨c', found', ref, edit.closed, edit.held other different,
    fun held open_ turnID n _ live => ?_, fun reserved => ?_⟩
  · exact step.live found open_ different (.inl held) live
  · rcases edit.reserved other different reserved with closed | ⟨by_, turn, armed⟩
    · exact .inl closed
    · by_cases closed : c.closed = true
      · exact .inl (edit.closed closed)
      · exact .inr ⟨by_, turn, armed, fun live => step.live found (by simpa using closed) different
          (.inr reserved.2.2) live⟩

theorem keeps (inv : CreditInv s) : creditLayer.Step t s s' :=
  ⟨step.inv inv, step.guarantee⟩

end Step

end CreditStep

/-! ### Steps on connections -/

theorem ConnEdit.refl {p p' : Side → Phase} (c : WorkerConn) (same : ∀ side, p' side = p side) :
    ConnEdit t p p' c c where
  obeys := fun obeys => by rwa [same, same]
  held := fun _ _ _ => .refl c (same _)
  reserved := fun _ _ reserved => .inr ⟨rfl, rfl, (same _).trans reserved.2.2⟩

section Steps

variable {t : Nat} {s s₁ s' : State} {f : WorkerConn → WorkerConn}

theorem Live.same (rows : s'.assignments = s.assignments) (trace : s'.trace = s.trace)
    (live : Live turnID gen s) : Live turnID gen s' := by
  obtain ⟨⟨a, found, row⟩, unfinished⟩ := live
  refine ⟨⟨a, rows ▸ found, row⟩, fun ⟨o, member, finishes⟩ => unfinished ?_⟩
  exact ⟨o, trace ▸ member, finishes⟩

theorem Finished.of_new (trace : s'.trace = new ++ s.trace)
    (unfinishing : ∀ o ∈ new, o.finishes turnID = false) (finished : Finished turnID s') :
    Finished turnID s := by
  obtain ⟨o, member, finishes⟩ := finished
  rw [trace] at member
  rcases mem_append.mp member with here | there
  · rw [unfinishing o here] at finishes
    cases finishes
  · exact ⟨o, there, finishes⟩

theorem Live.observe (live : Live turnID gen s) (unfinishing : o.finishes turnID = false) :
    Live turnID gen (s.observe o) := by
  have trace : (s.observe o).trace = [o] ++ s.trace := rfl
  refine ⟨live.1, fun finished => live.2 ?_⟩
  exact finished.of_new trace fun _ member => mem_singleton.mp member ▸ unfinishing

theorem Spares.of_live (live : ∀ {turnID gen}, Live turnID gen s → Live turnID gen s') :
    Spares t s s' := fun _ _ _ _ here => .inl (live here)

theorem phase_same (trace : s'.trace = s.trace) (side : Side) (w : ConnRef) :
    s'.phase side w = s.phase side w :=
  congrArg (List.foldr (see side w) .fresh) trace

theorem CreditStep.of_map (conns : ∀ k, s'.conns.find k = (s.conns.find k).map f)
    (keeps : ∀ c, (f c).ref = c.ref) (edits : ∀ k c, s.conns.find k = some c →
      ConnEdit t (s.phase · c.ref) (s'.phase · c.ref) c (f c))
    (running : ∀ k c turnID n, s.conns.find k = some c → s'.phase .handler c.ref = .running turnID n →
      (∃ m, s.phase .handler c.ref = .running turnID m) ∨ Live turnID c.ref.gen s')
    (spares : Spares t s s') (valid : ∀ w valid, .readyAnswered w valid ∈ s'.trace →
      .readyAnswered w valid ∈ s.trace ∨ valid = true) : CreditStep t s s' where
  conns := by
    intro k c found
    refine ⟨f c, ?_, keeps c, edits k c found⟩
    rw [conns, found]
    rfl
  running := running
  noNew := by
    intro k c' found
    rw [conns, Option.map_eq_some_iff] at found
    obtain ⟨c, found, _⟩ := found
    exact ⟨c, found⟩
  spares := spares
  valid := valid

theorem CreditStep.modify {p : WorkerConn → Bool}
    (conns : ∀ k, s'.conns.find k = (s.conns.find k).map fun c => if p c then f c else c)
    (keeps : ∀ c, (f c).ref = c.ref)
    (rows : s'.assignments = s.assignments) (trace : s'.trace = s.trace)
    (edits : ∀ k c, s.conns.find k = some c → p c →
      ConnEdit t (s.phase · c.ref) (s.phase · c.ref) c (f c)) : CreditStep t s s' := by
  refine .of_map conns (fun c => ?_) (fun k c found => ?_) (fun k c turnID n _ running => ?_)
    (fun _ _ _ _ live => .inl (live.same rows trace)) fun _ _ member => .inl (trace ▸ member)
  · split
    · exact keeps c
    · rfl
  · simp only [phase_same trace]
    split
    · exact edits k c found ‹_›
    · exact .refl c fun _ => rfl
  · exact .inl ⟨n, (phase_same trace _ _).symm.trans running⟩

theorem CreditStep.modifyOne {keeps : ∀ c, (f c).ref = c.ref} (found : s.conns.find w.id = some c)
    (ref : c.ref = w) (edit : ConnEdit t (s.phase · w) (s.phase · w) c (f c)) :
    CreditStep t s (s.modifyConn w f keeps) := by
  refine .modify (modifyConns_find s _ f keeps) keeps rfl rfl fun k c' found' here => ?_
  obtain ⟨rfl, rfl⟩ := Table.find_unique found found' (of_decide_eq_true here)
  rw [ref]
  exact edit

/-- **A step on one connection** that is observed, and that no other worker sees. -/
theorem CreditStep.at (found : s.conns.find w.id = some c) (ref : c.ref = w)
    (conns : ∀ k, s₁.conns.find k = (s.conns.find k).map fun c => if c.id = w.id then f c else c)
    (keeps : ∀ c, (f c).ref = c.ref)
    (rows : s₁.assignments = s.assignments) (trace : s₁.trace = s.trace)
    (others : ∀ side w' q, w' ≠ w → see side w' o q = q)
    (unfinishing : ∀ turnID, o.finishes turnID = false)
    (answers : ∀ w valid, o = .readyAnswered w valid → valid = true)
    (edit : ConnEdit t (s.phase · w) (fun side => (s.phase side w).see side w o) c (f c))
    (running : ∀ turnID n, (s.phase .handler w).see .handler w o = .running turnID n →
      (∃ m, s.phase .handler w = .running turnID m) ∨ Live turnID w.gen s) :
    CreditStep t s (s₁.observe o) := by
  have phase : ∀ side w', (s₁.observe o).phase side w' = (s.phase side w').see side w' o :=
    fun side w' => congrArg (see side w' o) (phase_same trace side w')
  have live : ∀ {turnID gen}, Live turnID gen s → Live turnID gen (s₁.observe o) := fun live =>
    (live.same rows trace).observe (unfinishing _)
  refine .of_map conns (fun c => ?_) (fun k c' found' => ?_) (fun k c' turnID n found' goes => ?_)
    (.of_live live) fun w' valid member => ?_
  · split
    · exact keeps c
    · rfl
  · simp only [phase]
    split
    · rename_i here
      obtain ⟨rfl, rfl⟩ := Table.find_unique found found' here
      rw [ref]
      exact edit
    · rename_i elsewhere
      exact .refl c' fun side => others side _ _ fun same => elsewhere (congrArg ConnRef.id same)
  · rw [phase] at goes
    by_cases same : c'.ref = w
    · rw [same] at goes ⊢
      exact (running turnID n goes).imp id live
    · rw [others _ _ _ same] at goes
      exact .inl ⟨n, goes⟩
  · rcases mem_cons.mp member with same | there
    · exact .inr (answers w' valid same.symm)
    · exact .inl (trace ▸ there)

end Steps

/-! ### Actions that move no connection -/

section Unmoved

variable {t : Nat} {s s' : State}

/-- No connection changed, and no worker moved. -/
structure Unmoved (s s' : State) : Prop where
  conns : s'.conns = s.conns
  phase : ∀ side w, s'.phase side w = s.phase side w
  answers : ∀ w valid, .readyAnswered w valid ∈ s'.trace → .readyAnswered w valid ∈ s.trace

def Obs.Idle : Obs → Prop
  | .worker _ _ => False
  | .taken _ _ => False
  | .sent _ msg _ => Phase.Neutral msg
  | .readyAnswered _ _ => False
  | _ => True

theorem Phase.see_idle {side : Side} (idle : o.Idle) (q : Phase) : q.see side w o = q := by
  cases o with
  | worker | taken | readyAnswered => cases idle
  | sent w' msg answers =>
    simp only [see, told_neutral idle]
    split <;> rfl
  | _ => rfl

theorem Unmoved.of_new (conns : s'.conns = s.conns)
    (trace : s'.trace = new ++ s.trace) (idle : ∀ o ∈ new, o.Idle) : Unmoved s s' where
  conns := conns
  phase := by
    intro side w
    unfold State.phase
    rw [trace, foldr_append]
    generalize s.trace.foldr (see side w) fresh = q
    clear trace
    induction new with
    | nil => rfl
    | cons o rest ih =>
      rw [foldr_cons, ih fun o' member => idle o' (.tail _ member)]
      exact see_idle (idle o (.head _)) q
  answers := by
    intro w valid member
    rw [trace] at member
    rcases mem_append.mp member with here | there
    · exact (idle _ here).elim
    · exact there

theorem Unmoved.of_store (step : StoreStep s s' new) (idle : ∀ o ∈ new, o.Idle) : Unmoved s s' :=
  .of_new step.conns step.trace idle

theorem Unmoved.refl (s : State) : Unmoved s s := .of_store (.refl s) (by simp)

theorem Unmoved.logged (conns : s'.conns = s.conns) (trace : s'.trace = [o] ++ s.trace)
    (idle : o.Idle) : Unmoved s s' :=
  .of_new conns trace fun _ member => mem_singleton.mp member ▸ idle

theorem Unmoved.observe (idle : o.Idle) : Unmoved s (s.observe o) :=
  .logged rfl rfl idle

/-- **An action that moves no connection** only has to spare the live turns. -/
theorem CreditStep.of_unmoved (unmoved : Unmoved s s') (spares : Spares t s s') :
    CreditStep t s s' where
  conns := fun _ c found =>
    ⟨c, unmoved.conns ▸ found, rfl, .refl c fun _ => unmoved.phase _ _⟩
  running := fun _ _ _ n _ running => .inl ⟨n, (unmoved.phase _ _).symm.trans running⟩
  noNew := fun _ c found => ⟨c, unmoved.conns ▸ found⟩
  spares := spares
  valid := fun w valid member => .inl (unmoved.answers w valid member)

theorem Spares.refl (t : Nat) (s : State) : Spares t s s := .of_live id

theorem Live.advance {a : Assignment} {te : TurnEvent} {kind : RuntimeEvent}
    (live : Live turnID gen s) : Live turnID gen (s.advanceWatermark a te kind) := by
  obtain ⟨⟨b, found, active, same⟩, unfinished⟩ := live
  refine ⟨⟨if b.turnID = te.turnID then { b with highestAppliedSequence := te.sequence } else b, ?_,
    ?_, ?_⟩, unfinished⟩
  · unfold State.advanceWatermark State.appendEvent
    rw [Table.find_update, found]
    simp
  · split <;> exact active
  · split <;> exact same

theorem Spares.observe (unfinishing : ∀ turnID, o.finishes turnID = false) :
    Spares t s (s.observe o) :=
  .of_live fun live => live.observe (unfinishing _)

theorem Spares.of_store (step : StoreStep s s' new)
    (unfinishing : ∀ o ∈ new, ∀ turnID, o.finishes turnID = false)
    (active : ∀ k c turnID, s.conns.find k = some c → Live turnID c.ref.gen s →
      RowActive turnID s' ∨ Forfeits t s c turnID) : Spares t s s' := by
  intro k c turnID found live
  rcases active k c turnID found live with ⟨a', found', active'⟩ | forfeits
  · obtain ⟨⟨a, foundRow, _, gen⟩, unfinished⟩ := live
    obtain ⟨a'', found'', becomes⟩ := step.durable.rows _ a foundRow
    cases found'.symm.trans found''
    exact .inl ⟨⟨a', found', active', becomes.gen.trans gen⟩, fun finished =>
      unfinished (finished.of_new step.trace fun o member => unfinishing o member turnID)⟩
  · exact .inr forfeits

theorem Spares.of_rows (step : StoreStep s s' new)
    (unfinishing : ∀ o ∈ new, ∀ turnID, o.finishes turnID = false)
    (rows : s'.assignments = s.assignments) : Spares t s s' :=
  .of_store step unfinishing fun _ _ _ _ ⟨⟨a, found, active, _⟩, _⟩ =>
    .inl ⟨a, rows ▸ found, active⟩

theorem CreditStep.refl (t : Nat) (s : State) : CreditStep t s s := .of_unmoved (.refl s) (.refl t s)

end Unmoved

end Iterabase.Dispatch
