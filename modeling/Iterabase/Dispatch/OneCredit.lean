/-
**Durable dispatch — one credit, one assignment.**

A valid Ready gives a connection one credit, a dispatcher consumes it to reserve the connection, and
AssignTurn is handed to the stream by the dispatcher that holds the reservation. The credit goes back to
the connection where the assignment fails before that.

* `ledgerGuard` — no turn is released on a connection that is reserved and not yet assigned.
* `LedgerInv`, `LedgerRely`, `ledgerLayer_proved` — a dispatcher keeps what it reserved until it hands
  AssignTurn over or gives the credit back.
* `one_credit_one_assignment` — **credits are conserved**.
-/

import Iterabase.Dispatch.Books

namespace Iterabase.Dispatch

open Conc List WorkerConn Option Along

/-! ### Readys and AssignTurns of one stream -/

/-- A Ready was answered as valid on `w`, or AssignTurn was handed to its stream. -/
def Obs.arms (w : ConnRef) : Obs → Option Bool
  | .readyAnswered w' true => if w' = w then some true else none
  | .sent w' (.assignTurn _) _ => if w' = w then some false else none
  | _ => none

/-- A valid Ready was answered on `w` since AssignTurn was last handed to its stream. -/
def armed (trace : List Obs) (w : ConnRef) : Bool := latest (Obs.arms w) trace

theorem armed_cons (o : Obs) (trace : List Obs) (w : ConnRef) :
    armed (o :: trace) w = (o.arms w).getD (armed trace w) :=
  latest_cons _ o trace

variable {o : Obs}

theorem Obs.arms_ready {w : ConnRef} (ready : o.arms w = some true) : o = .readyAnswered w true := by
  unfold Obs.arms at ready
  split at ready
  · split at ready
    · rename_i same
      rw [same]
    · cases ready
  · split at ready
    · cases ready
    · cases ready
  · cases ready

theorem Obs.arms_booked (unbooked : ¬ o.Booked) (w : ConnRef) : o.arms w = none := by
  unfold Obs.arms
  split
  · exact absurd trivial unbooked
  · exact absurd trivial unbooked
  · rfl

/-- AssignTurn is handed to a stream only where it is armed. -/
def Spaced (trace : List Obs) : Prop :=
  ∀ w o earlier, o.arms w = some false → (o :: earlier) <:+ trace → armed earlier w = true

theorem Spaced.tail {trace : List Obs} (spaced : Spaced (o :: trace)) : Spaced trace :=
  fun w o' earlier hands suffix => spaced w o' earlier hands (suffix.trans (suffix_cons _ _))

theorem Spaced.cons {o : Obs} {trace : List Obs} (spaced : Spaced trace)
    (here : ∀ w, o.arms w = some false → armed trace w = true) : Spaced (o :: trace) := by
  intro w o' earlier hands suffix
  rcases suffix_cons_iff.mp suffix with same | there
  · cases same
    exact here w hands
  · exact spaced w o' earlier hands there

/-- **No more AssignTurns than valid Readys**, with one to spare where the stream is armed. -/
theorem Spaced.count {trace : List Obs} (spaced : Spaced trace) (w : ConnRef) :
    (trace.countP fun o => o.arms w = some false) + (armed trace w).toNat ≤ trace.countP fun o =>
    o.arms w = some true := by
  induction trace with
  | nil => exact le_refl _
  | cons o earlier ih =>
    have before := ih spaced.tail
    rw [countP_cons, countP_cons, armed_cons]
    rcases kind : o.arms w with _ | _ | _
    · simpa using before
    · have ready := spaced w o earlier kind (suffix_refl _)
      rw [ready] at before
      simpa using before
    simp only [some.injEq, Bool.true_eq_false, decide_false, Bool.false_eq_true, if_false,
      decide_true, if_true, getD_some, Bool.toNat_true, Nat.add_zero]
    omega

/-- **A valid Ready lies between two AssignTurns.** -/
theorem Spaced.between {newer between older : List Obs} {o' : Obs} {w : ConnRef}
    (spaced : Spaced (newer ++ o' :: (between ++ o :: older))) (second : o'.arms w = some false)
    (first : o.arms w = some false) : .readyAnswered w true ∈ between := by
  have ready := spaced w o' _ second (suffix_append _ _)
  unfold armed latest at ready
  rw [findSome?_append, findSome?_cons, first] at ready
  rcases found : between.findSome? (Obs.arms w) with _ | _ | _
  · rw [found] at ready
    cases ready
  · rw [found] at ready
    cases ready
  · obtain ⟨o₁, member, kind⟩ := exists_of_findSome?_eq_some found
    rwa [Obs.arms_ready kind] at member

/-! ### The layer -/

/-- A turn is released on a connection that is closed, not reserved, or assigned already. -/
def Releasable (s : State) (w : ConnRef) : Prop :=
  ∀ c ∈ s.conns.find w.id, c.closed = true ∨ c.activeTurn = "" ∨ armed s.trace c.ref = false

instance (s : State) (w : ConnRef) : Decidable (Releasable s w) :=
  inferInstanceAs (Decidable (∀ c ∈ s.conns.find w.id, _))

/-- No `releaseTurn` meets a connection that is reserved and not yet assigned. -/
def ReleasesAssigned (label : Label) (_ : Input) (s : State) : Prop :=
  match label with
  | .release w _ => Releasable s w
  | .restore w _ true _ => Releasable s w
  | _ => True

instance (label : Label) (input : Input) (s : State) : Decidable (ReleasesAssigned label input s) := by
  induction label using Label.casesOn with
  | restore w turnID deliveryAttempted =>
    induction deliveryAttempted using Bool.casesOn <;> unfold ReleasesAssigned <;> infer_instance
  | _ =>
    unfold ReleasesAssigned
    infer_instance

abbrev ledgerGuard : System.Guard Label Input Request State := .onActions ReleasesAssigned

/-- What is logged of a consumed credit and of one that is given back. -/
def Obs.Fair : Obs → Prop
  | .picked w _ _ before => ∃ c, before = some c ∧ c.ref = w ∧ c.closed = false ∧
      c.workspaceGated = false ∧ c.workspaceObserved = true
  | .restored w turnID attempted before => ∃ c, before = some c ∧ c.ref = w ∧
      (attempted = false → c.closed = false → c.activeTurn = turnID ∧ c.creditAdvertised = false)
  | _ => True

theorem Obs.fair_unbooked (unbooked : ¬ o.Booked) : o.Fair := by
  unfold Obs.Fair
  split
  · exact absurd trivial unbooked
  · exact absurd trivial unbooked
  · trivial

structure LedgerInv (s : State) : Prop where
  books : Books s
  credit : ∀ k c, s.conns.find k = some c → c.creditAdvertised = true → armed s.trace c.ref = true
  spaced : Spaced s.trace
  fair : ∀ o ∈ s.trace, o.Fair

/-- The dispatcher `t` reserved the connection and has not handed AssignTurn to it. -/
structure WorkerConn.Pledged (t : Nat) (trace : List Obs) (c : WorkerConn) : Prop where
  reserved : c.reservedBy = some t
  turn : c.activeTurn ≠ ""
  armed : armed trace c.ref = true

structure PledgeKept (t : Nat) (s s' : State) (c c' : WorkerConn) : Prop where
  ref : c'.ref = c.ref
  closed : c.closed = true → c'.closed = true
  pledged : c.Pledged t s.trace →
    c'.closed = true ∨ (c'.Pledged t s'.trace ∧ c'.activeTurn = c.activeTurn)

def LedgerRely (t : Nat) (s s' : State) : Prop :=
  ∀ k c, s.conns.find k = some c → ∃ c', s'.conns.find k = some c' ∧ PledgeKept t s s' c c'

theorem PledgeKept.refl (t : Nat) (s : State) (c : WorkerConn) : PledgeKept t s s c c :=
  ⟨rfl, fun closed => closed, fun pledged => .inr ⟨pledged, rfl⟩⟩

theorem PledgeKept.trans {t : Nat} {s₁ s₂ s₃ : State} {c d e : WorkerConn}
    (first : PledgeKept t s₁ s₂ c d) (second : PledgeKept t s₂ s₃ d e) : PledgeKept t s₁ s₃ c e where
  ref := second.ref.trans first.ref
  closed := second.closed ∘ first.closed
  pledged := by
    intro pledged
    rcases first.pledged pledged with closed | ⟨pledged', turn⟩
    · exact .inl (second.closed closed)
    rcases second.pledged pledged' with closed | ⟨pledged'', turn'⟩
    · exact .inl closed
    · exact .inr ⟨pledged'', turn'.trans turn⟩

def ledgerLayer : Layer Label Input Request State where
  inv := LedgerInv
  guard := ledgerGuard
  rely := LedgerRely
  rely_refl := fun t s _ c found => ⟨c, found, .refl t s c⟩
  rely_trans := carried_trans fun kept kept' => kept.trans kept'

variable {t : Nat} {w : ConnRef} {s s' : State}

/-! ### Steps that write no books -/

theorem Silent.armed (silent : Silent Obs.Booked s s') (w : ConnRef) :
    armed s'.trace w = armed s.trace w := by
  obtain ⟨new, same, unbooked⟩ := silent
  rw [same]
  exact latest_append fun o member => Obs.arms_booked (unbooked o member) w

theorem Moves.ledger (moves : Unbooked s s') : LedgerRely t s s' := by
  intro k c found
  obtain ⟨c', found', moved⟩ := moves.conns k c found
  refine ⟨c', found', moved.ref, moved.closed, fun pledged => .inr ⟨⟨?_, ?_, ?_⟩, moved.turn⟩⟩
  · rw [moved.reserved]
    exact pledged.reserved
  · rw [moved.turn]
    exact pledged.turn
  · rw [moves.silent.armed, moved.ref]
    exact pledged.armed

theorem ledgerLayer_framed : Framed baseRules ledgerLayer Unbooked where
  toExtends := baseRules_extends
  kept := by
    intro s s' _ _ _ moves inv
    refine ⟨inv.books.moves moves, fun k c' found credit => ?_, fun w o earlier hands suffix => ?_,
      fun o member => ?_⟩
    · rw [moves.silent.armed]
      rcases moves.back found with ⟨c, before, moved⟩ | ⟨w, thread, rfl, _⟩
      · rw [moved.ref]
        exact inv.credit k c before (moved.credit ▸ credit)
      · cases credit
    · refine inv.spaced w o earlier hands (moves.silent.suffix ?_ suffix)
      by_contra unbooked
      rw [Obs.arms_booked unbooked] at hands
      cases hands
    · by_cases booked : o.Booked
      · exact inv.fair o (moves.silent.member booked member)
      · exact Obs.fair_unbooked booked
  tolerated := fun _ _ _ _ moves => moves.ledger

/-! ### Steps that do -/

/-- **What a step that writes the books of one connection has to show.** -/
theorem Entry.keeps {k : Nat} {c c' : WorkerConn} (entry : Entry k c c' o s s')
    (inv : LedgerInv s) (about : ∀ w, w ≠ c.ref → o.arms w = none)
    (balanced : c.Balanced → c'.Balanced) (closed : c.closed = true → c'.closed = true)
    (credit : c'.creditAdvertised = true → armed (o :: s.trace) c.ref = true)
    (hands : o.arms c.ref = some false → armed s.trace c.ref = true) (fair : o.Fair)
    (pledged : ∀ other, other ≠ t → c.Pledged other s.trace → c'.closed = true ∨
      (c'.Pledged other (o :: s.trace) ∧ c'.activeTurn = c.activeTurn)) :
    ledgerLayer.Step t s s' := by
  -- every other connection has another stream
  have elsewhere : ∀ {k' d}, k' ≠ k → s.conns.find k' = some d →
      armed s'.trace d.ref = armed s.trace d.ref := by
    intro k' d other found
    rw [entry.trace, armed_cons, about _ (entry.other other found)]
    rfl
  refine ⟨⟨fun k' d found => ?_, fun k' d found advertised => ?_, ?_, fun o' member => ?_⟩,
    fun other different k' d found => ?_⟩
  · by_cases here : k' = k
    · subst here
      cases entry.after.symm.trans found
      exact balanced (inv.books _ c entry.found)
    · exact inv.books k' d (entry.others k' here ▸ found)
  · by_cases here : k' = k
    · subst here
      cases entry.after.symm.trans found
      rw [entry.trace, entry.ref]
      exact credit advertised
    · have before := (entry.others k' here).symm.trans found
      rw [elsewhere here before]
      exact inv.credit k' d before advertised
  · rw [entry.trace]
    refine inv.spaced.cons fun w' handed => ?_
    by_cases here : w' = c.ref
    · subst here
      exact hands handed
    · rw [about w' here] at handed
      cases handed
  · rw [entry.trace] at member
    rcases mem_cons.mp member with rfl | there
    · exact fair
    · exact inv.fair o' there
  · by_cases here : k' = k
    · subst here
      cases entry.found.symm.trans found
      refine ⟨c', entry.after, entry.ref, closed, fun mine => ?_⟩
      rw [entry.trace]
      exact pledged other different mine
    · refine ⟨d, (entry.others k' here).trans found, rfl, fun closed => closed, fun mine => .inr ⟨⟨
        mine.reserved, mine.turn, ?_⟩, rfl⟩⟩
      rw [elsewhere here found]
      exact mine.armed

theorem LedgerInv.logs (inv : LedgerInv s) (new : List Obs)
    (conns : ∀ k, s'.conns.find k = s.conns.find k) (trace : s'.trace = new ++ s.trace)
    (silent : ∀ o ∈ new, (∀ w, o.arms w = none) ∧ o.Fair) : ledgerLayer.Step t s s' := by
  have same : ∀ w, armed s'.trace w = armed s.trace w := fun w => by
    rw [trace]
    exact latest_append fun o member => (silent o member).1 w
  refine ⟨⟨fun k c found => inv.books k c (conns k ▸ found), fun k c found credit => ?_, ?_,
    fun o member => ?_⟩, fun other _ k c found => ⟨c, (conns k).trans found, rfl,
      fun closed => closed, fun mine => .inr ⟨⟨mine.reserved, mine.turn, ?_⟩, rfl⟩⟩⟩
  · rw [same]
    exact inv.credit k c (conns k ▸ found) credit
  · rw [trace]
    clear trace same
    induction new with
    | nil => exact inv.spaced
    | cons o rest ih =>
      refine (ih fun o member => silent o (.tail _ member)).cons fun w handed => ?_
      rw [(silent o (.head _)).1] at handed
      cases handed
  · rw [trace] at member
    rcases mem_append.mp member with here | there
    · exact (silent o here).2
    · exact inv.fair o there
  · rw [same]
    exact mine.armed

/-! ### Threads -/

theorem answerReady_ledger (held : Held t w s) :
    Runs baseRules ledgerLayer t (answerReady w) s := by
  refine action fun s₁ moved _ _ inv input answer s₂ _ ran _ _ => ⟨?_, trivial⟩
  obtain ⟨c, found, ran⟩ := map_eq_some_iff.mp ran
  cases ran
  obtain ⟨c', found', ref, _⟩ := held.rely moved
  cases found.symm.trans found'
  have entry := Entry.modifyConn found (fun c => c.grantCreditIfIdle.2)
    grantCreditIfIdle_ref (.readyAnswered w c.grantCreditIfIdle.1)
  rcases c.grantCreditIfIdle_cases with refused | ⟨_, free, _, granted⟩
  · rw [refused] at entry ⊢
    exact entry.keeps inv (fun _ _ => rfl) (fun balanced => balanced) (fun closed => closed)
      (inv.credit _ c found) (fun hands => (nomatch hands)) trivial
      fun _ _ pledged => .inr ⟨⟨pledged.reserved, pledged.turn, pledged.armed⟩, rfl⟩
  have valid : (Obs.readyAnswered w true).arms c.ref = some true := by
    rw [ref]
    exact if_pos rfl
  have balanced : c.Balanced → c.grantCreditIfIdle.2.Balanced := fun b => b.grantCreditIfIdle
  rw [granted] at entry balanced ⊢
  refine entry.keeps inv (fun w' other => if_neg fun (here : w = w') => other (here.symm.trans ref.symm))
    balanced (fun closed => closed) (fun _ => ?_) (fun hands => ?_) trivial
    fun _ _ pledged => absurd free pledged.turn
  · rw [armed_cons, valid]
    rfl
  · rw [valid] at hands
    cases hands

/-- **A turn is released**, of no connection that is reserved and not yet assigned. -/
theorem Releasable.step {o : Obs} (releasable : Releasable s w) (inv : LedgerInv s)
    (silent : ∀ w, o.arms w = none) (fair : o.Fair) :
    ledgerLayer.Step t s ((s.modifyConn w WorkerConn.releaseTurn fun _ => rfl).observe o) := by
  cases found : s.conns.find w.id with
  | none =>
    refine inv.logs [o] (fun k => ?_) rfl fun o' member => ?_
    · refine (modifyConn_lookup WorkerConn.releaseTurn (fun _ => rfl) k).trans ?_
      cases before : s.conns.find k with
      | none => rfl
      | some d =>
        have key : d.id = k := Table.find_key before
        have other : d.id ≠ w.id := by
          intro here
          rw [← key, here, found] at before
          cases before
        rw [map_some, if_neg other]
    · cases mem_singleton.mp member
      exact ⟨silent, fair⟩
  | some c =>
    have entry := Entry.modifyConn found WorkerConn.releaseTurn (fun _ => rfl) o
    have same : armed (o :: s.trace) c.ref = armed s.trace c.ref := by
      rw [armed_cons, silent]
      rfl
    refine entry.keeps inv (fun w' _ => silent w') (fun balanced => balanced.releaseTurn)
      (fun closed => closed) (fun credit => ?_) (fun hands => ?_) fair fun other _ pledged => ?_
    · rw [same]
      exact inv.credit _ c found credit
    · rw [silent] at hands
      cases hands
    · rcases releasable c found with closed | free | unarmed
      · exact .inl closed
      · exact absurd free pledged.turn
      · have ready := pledged.armed
        rw [unarmed] at ready
        cases ready

/-- The connection is reserved by thread `t` for the turn, or it was closed. -/
def Pledge (t : Nat) (w : ConnRef) (turnID : TurnID) (s : State) : Prop :=
  ∃ c, s.conns.find w.id = some c ∧ c.ref = w ∧
    (c.closed = true ∨ (c.Pledged t s.trace ∧ c.activeTurn = turnID))

variable {turnID : TurnID}

theorem Pledge.rely (pledge : Pledge t w turnID s) (moved : LedgerRely t s s') :
    Pledge t w turnID s' := by
  obtain ⟨c, found, ref, held⟩ := pledge
  obtain ⟨c', found', kept⟩ := moved _ c found
  refine ⟨c', found', kept.ref.trans ref, ?_⟩
  rcases held with closed | ⟨pledged, turn⟩
  · exact .inl (kept.closed closed)
  · exact (kept.pledged pledged).imp_right fun ⟨pledged', same⟩ => ⟨pledged', same.trans turn⟩

theorem Pledge.lasts :
    Lasts baseRules ledgerLayer Unbooked t (Pledge t w turnID) where
  rely := fun _ moved pledge => pledge.rely moved
  own := fun _ _ _ moves pledge => pledge.rely moves.ledger

theorem reserve_ledger {poolID : PoolID} (named : turnID ≠ "") :
    Along baseRules ledgerLayer t (reserving poolID turnID t)
    (fun answer s => ∀ w, answer = some w → Pledge t w turnID s) s := by
  refine action fun s₁ _ _ _ inv input answer s₂ _ ran _ _ => ?_
  rcases reserve_cases (some.inj ran) with _ | ⟨c, found, _, _, usable⟩
  · exact ⟨.refl inv t, fun w same => by cases same⟩
  obtain ⟨⟨opened, idle, credit, free⟩, consumed⟩ := WorkerConn.consumed usable t
  have entry := Entry.modifyConn found _ (consuming_ref turnID t)
    (.picked c.ref turnID t (some c))
  have balanced := inv.books _ c found
  have ready := inv.credit _ c found credit
  simp only [consumed] at entry
  refine ⟨entry.keeps inv (fun _ _ => rfl) (fun balanced => balanced.consumed credit _ _)
    (fun closed => closed) (fun advertised => (nomatch advertised)) (fun hands => (nomatch hands))
    ⟨c, rfl, rfl, opened, (balanced.usable idle).2, (balanced.credit credit).2⟩
    fun _ _ pledged => absurd free pledged.turn, fun w same => ?_⟩
  cases same
  exact ⟨_, entry.after, rfl, .inr ⟨⟨rfl, named, ready⟩, rfl⟩⟩

theorem create_ledger {a : Assignment} (pledge : Pledge t w turnID s) :
    Along baseRules ledgerLayer t
    (createTx w a)
    (fun _ s => Pledge t w turnID s) s := by
  refine action fun s₁ _ moved _ inv input answer s₂ _ ran _ _ => ?_
  have pledge := pledge.rely moved
  have still : ledgerLayer.Step t s₁ s₁ ∧ Pledge t w turnID s₁ := ⟨.refl inv t, pledge⟩
  rcases call_effect ran with rfl | ⟨_, ran⟩
  · exact still
  rcases createAssignmentFor_cases ran with ⟨_, _, rfl⟩ | ⟨rows, _, _, rfl⟩
  · exact still
  obtain ⟨c, found, ref, held⟩ := pledge
  refine ⟨inv.logs [.holds w a.turnID _, .assigned a] (fun _ => rfl) rfl fun o member =>
    ?_, c, found, ref, held.imp_right fun ⟨pledged, turn⟩ =>
      ⟨⟨pledged.reserved, pledged.turn, pledged.armed⟩, turn⟩⟩
  simp only [mem_cons, not_mem_nil, or_false] at member
  rcases member with rfl | rfl
  · exact ⟨fun _ => rfl, trivial⟩
  · exact ⟨fun _ => rfl, trivial⟩

/-- **AssignTurn is handed over** by the dispatcher that holds the reservation. -/
theorem sendAssign_ledger (pledge : Pledge t w turnID s) :
    Along baseRules ledgerLayer t (send w (.assignTurn turnID)) (fun _ s => Known w s) s := by
  refine action fun s₁ _ moved _ inv input answer s₂ _ ran _ _ => ?_
  obtain ⟨c, found, ref, held⟩ := pledge.rely moved
  obtain ⟨c', found', ⟨_, rfl, _⟩ | ⟨opened, rfl, _⟩⟩ := send_cases ran
  · exact ⟨.refl inv t, c, found, ref⟩
  cases found.symm.trans found'
  rcases held with closed | ⟨pledged, _⟩
  · rw [opened] at closed
    cases closed
  refine ⟨(Entry.observe found _).keeps inv (fun w' other => if_neg fun (here : w = w') =>
    other (here.symm.trans ref.symm)) (fun balanced => balanced) (fun closed => closed)
    (fun credit => absurd ((inv.books _ c found).credit credit).1 pledged.turn)
    (fun _ => pledged.armed) trivial fun other different pledged' => ?_, c, found, ref⟩
  have same := pledged.reserved.symm.trans pledged'.reserved
  exact absurd (some.inj same).symm different

theorem WorkerConn.releaseAssignmentFailure_closed (c : WorkerConn)
    (closed : c.closed = true) : c.releaseAssignmentFailure turnID false = c := by
  simp [releaseAssignmentFailure, restoreCreditAfterPreDeliveryFailure, closed]

/-- **The credit is given back** where nothing was handed over. -/
theorem giveBack_ledger (named : turnID ≠ "") (pledge : Pledge t w turnID s) :
    Runs baseRules ledgerLayer t (restoring w turnID false t) s := by
  refine action fun s₁ _ moved _ inv input answer s₂ _ ran _ _ => ⟨?_, trivial⟩
  cases ran
  obtain ⟨c, found, ref, held⟩ := pledge.rely moved
  have entry := Entry.modifyConn found (fun c => c.releaseAssignmentFailure turnID false)
    (fun c => releaseAssignmentFailure_ref c turnID false)
    (.restored w turnID false (s₁.conns.find w.id))
  have fair : (Obs.restored w turnID false (s₁.conns.find w.id)).Fair := by
    refine ⟨c, found, ref, fun _ opened => ?_⟩
    rcases held with closed | ⟨pledged, turn⟩
    · rw [opened] at closed
      cases closed
    · refine ⟨turn, Bool.eq_false_iff.mpr fun credit => ?_⟩
      exact pledged.turn ((inv.books _ c found).credit credit).1
  refine entry.keeps inv (fun _ _ => rfl) (fun balanced => balanced.releaseAssignmentFailure named _)
    (fun closed => ?_) (fun credit => ?_) (fun hands => (nomatch hands)) fair
    fun other different pledged' => ?_
  · rw [c.releaseAssignmentFailure_closed closed]
    exact closed
  · rcases held with closed | ⟨pledged, _⟩
    · rw [c.releaseAssignmentFailure_closed closed] at credit
      exact inv.credit _ c found credit
    · exact pledged.armed
  · rcases held with closed | ⟨pledged, _⟩
    · refine .inl ?_
      rw [c.releaseAssignmentFailure_closed closed]
      exact closed
    · have same := pledged.reserved.symm.trans pledged'.reserved
      exact absurd (some.inj same).symm different

def ledgerOutline {turn : Turn} (named : turn.id ≠ "") (t : Nat) (poolID : PoolID) :
    DispatchOutline baseRules ledgerLayer t turn poolID where
  reserved w := Pledge t w turn.id
  made w := Pledge t w turn.id
  tried := Known
  fenced := Known
  reserve := reserve_ledger named
  check := fun pledge => ledgerLayer_framed.along Pledge.lasts pledge ending_unbooked.query
  create := fun pledge => (create_ledger pledge).mono fun _ _ pledge =>
    ⟨fun _ => pledge, fun _ _ => pledge⟩
  send := fun pledge => (sendAssign_ledger pledge).mono fun _ _ known _ _ => known
  fence := fun {w _} known => ledgerLayer_framed.along
    (.of_grows baseRules_extends fun grows known => Known.grows known grows) known
    ending_unbooked.losing.lose
  giveBack := giveBack_ledger named
  giveUp := fun {w s} known => by
    refine action fun s₁ moved _ _ inv input answer s₂ admitted ran _ _ => ⟨?_, trivial⟩
    cases ran
    obtain ⟨c, found, ref⟩ := Known.grows known moved.toGrows
    exact Releasable.step admitted inv (fun _ => rfl) ⟨c, found, ref, fun pre => (nomatch pre)⟩

theorem ledgerLayer_proved : service.Proved baseRules ledgerLayer where
  sound := service_sound
  toLayered := by
    have settling : ∀ t, Settling (Every (Keeps baseRules ledgerLayer t fun _ => True)) := fun t =>
      { toEnding := ending_unbooked.mono (ledgerLayer_framed.keeps fun _ _ _ _ _ => trivial)
        releaseTurn := fun {w a} => .atomic fun _ inv _ admitted ran _ => by
          cases ran
          exact ⟨Releasable.step admitted inv (fun _ => rfl) trivial, trivial⟩ }
    refine ledgerLayer_framed.booked (fun _ inv _ _ => ?_) answerReady_ledger
      (fun _ => of_all (fun _ _ _ => trivial) trivial ?_)
      fun named => DispatchOutline.along (ledgerOutline named _)
        (ledgerLayer_framed.along_true ending_unbooked.query)
    · exact ⟨fun _ _ found => (by cases found), fun _ _ found => (by cases found), inv.spaced, inv.fair⟩
    · exact handleTurnEvent_of_routine (settling _) fun does =>
        ledgerLayer_framed.keeps (fun _ _ _ _ _ => trivial) (does.mono Routine.unbooked)

/-! ### Credits are conserved -/

theorem State.Initial.ledger (initial : s.Initial) : LedgerInv s where
  books := fun k c found => by
    rw [initial.conns, Table.find_empty] at found
    cases found
  credit := fun k c found => by
    rw [initial.conns, Table.find_empty] at found
    cases found
  spaced := fun w o earlier _ suffix => by
    rw [initial.trace] at suffix
    exact absurd (suffix_nil.mp suffix) (cons_ne_nil _ _)
  fair := fun o member => by
    rw [initial.trace] at member
    cases member

/-- **One credit, one assignment.** No stream is handed more AssignTurns than it had valid Readys, and a
valid Ready lies between any two; a failure before the delivery gives the consumed credit back to the
connection it was taken from, unless that was closed, and one after it gives nothing; and a credit is
consumed only on an open connection that has reported its workspace and is not gated. -/
theorem one_credit_one_assignment {s₀ : State} {c : Config Label Input State} (initial : s₀.Initial)
    (reached : service.Reaches ledgerGuard s₀ c) :
    (∀ w, (c.shared.trace.countP fun o => o.arms w = some false) ≤
      c.shared.trace.countP fun o => o.arms w = some true) ∧
    (∀ w turnID turnID' answers answers' newer between older,
      c.shared.trace = newer ++ .sent w (.assignTurn turnID') answers' ::
        (between ++ .sent w (.assignTurn turnID) answers :: older) →
          .readyAnswered w true ∈ between) ∧
    (∀ w turnID before, .restored w turnID false before ∈ c.shared.trace →
      ∃ conn, before = some conn ∧ conn.ref = w ∧ (conn.closed = false → conn.activeTurn = turnID ∧
        conn.creditAdvertised = false ∧
        (conn.releaseAssignmentFailure turnID false).creditAdvertised = true)) ∧
    (∀ w turnID before, .restored w turnID true before ∈ c.shared.trace →
      ∃ conn, before = some conn ∧ conn.ref = w ∧
        (conn.releaseAssignmentFailure turnID true).creditAdvertised = conn.creditAdvertised) ∧
    ∀ w turnID dispatcher before, .picked w turnID dispatcher before ∈ c.shared.trace →
      ∃ conn, before = some conn ∧ conn.ref = w ∧ conn.closed = false ∧ conn.workspaceGated = false ∧
        conn.workspaceObserved = true := by
  obtain ⟨_, inv⟩ := ledgerLayer_proved.invariant initial.base initial.ledger reached
  refine ⟨fun w => ?_, fun w turnID turnID' answers answers' newer between older same => ?_,
    fun w turnID before member => ?_, fun w turnID before member => ?_,
    fun w turnID dispatcher before member => inv.fair _ member⟩
  · exact le_trans (Nat.le_add_right _ _) (inv.spaced.count w)
  · have spaced := inv.spaced
    rw [same] at spaced
    exact spaced.between (if_pos rfl) (if_pos rfl)
  · obtain ⟨conn, rfl, ref, fair⟩ := inv.fair _ member
    refine ⟨conn, rfl, ref, fun opened => ?_⟩
    obtain ⟨turn, spent⟩ := fair rfl opened
    refine ⟨turn, spent, ?_⟩
    simp [releaseAssignmentFailure, restoreCreditAfterPreDeliveryFailure, opened,
      turn]
  · obtain ⟨conn, rfl, ref, _⟩ := inv.fair _ member
    exact ⟨conn, rfl, ref, rfl⟩

def reservedFirst : WorkerConn where
  ref := firstConn
  activeTurn := "t"
  reservedBy := some 5
  workspaceObserved := true
  workspaceGated := false
  registered := true
  loop := .waiting

/-- An assignment fails before its delivery, and the credit it gave back serves the next attempt. -/
theorem one_credit_one_assignment_retry : ∃ c, service.Reaches ledgerGuard onePool c ∧
    (∃ conn : WorkerConn, .restored firstConn "t" false (some conn) ∈ c.shared.trace ∧
      conn.activeTurn = "t" ∧ (conn.releaseAssignmentFailure "t" false).creditAdvertised = true) ∧
    .sent firstConn (.assignTurn "t") none ∈ c.shared.trace ∧
    0 < c.shared.trace.countP fun o => o.arms firstConn = some true := by
  obtain ⟨c, reached, restored, sent, once⟩ := service.reaches_of_replay ledgerGuard onePool
    (connectWorker :: steps 0 7 ++ deliver 1 (.workspaceStatus ⟨1, 2, 1 / 2, false, false⟩) 3 ++
      deliver 3 .ready 2 ++ [.start (.dispatchRun "run"), .run 5 plainTurn] ++ steps 5 3 ++
      [.run 5 { fail := true }, .run 5 {}, .start (.dispatchRun "run"), .run 6 plainTurn] ++ steps 6 6)
    (fun s => .restored firstConn "t" false (some reservedFirst) ∈ s.trace ∧
      .sent firstConn (.assignTurn "t") none ∈ s.trace ∧
      0 < s.trace.countP fun o => o.arms firstConn = some false)
    (by decide +kernel)
  obtain ⟨counts, _, back, _⟩ := one_credit_one_assignment onePool_initial reached
  obtain ⟨conn, same, _, fair⟩ := back firstConn "t" _ restored
  cases same
  obtain ⟨turn, _, credit⟩ := fair rfl
  exact ⟨c, reached, ⟨_, restored, turn, credit⟩, sent, lt_of_lt_of_le once (counts firstConn)⟩

def deliverSecond (thread : Nat) (msg : WorkerMessage) (count : Nat) : List (Move Input Request) :=
  [.start (.workerSends 1 msg), .start (.receive 1)] ++ steps (thread + 1) count

def twoRuns : State := { onePool with
  runs := ⟨[{ id := "run", poolID := some "pool" }, { id := "next", poolID := some "pool" }], by decide⟩ }

theorem twoRuns_initial : twoRuns.Initial := ⟨rfl, rfl, rfl, rfl⟩

def nextTurn : Input := { turn := { id := "u", runID := "next" } }

/-- The worker of turn `t` comes back before the handler of its first stream, thread 7, has released the
turn. It advertises its credit on the second stream, and a dispatcher, thread 13, reserves it for turn
`u`. -/
def staleHandler : List (Move Input Request) :=
  assignTurn plainTurn ++ deliver 6 (.turnEvent ⟨"t", 1, .workerOutcome .completed⟩) 6 ++
    connectWorker :: steps 8 8 ++
    deliverSecond 9 (.workspaceStatus ⟨1, 2, 1 / 2, false, false⟩) 3 ++ deliverSecond 11 .ready 2 ++
    [.start (.dispatchRun "next"), .run 13 nextTurn] ++ steps 13 3

def releasedSecond : WorkerConn where
  ref := secondConn
  reservedBy := some 13
  workspaceObserved := true
  workspaceGated := false
  registered := true
  loop := .waiting

/-- **A credit is lost.** The handler of the worker's first stream looks the connection up by pool and
worker, finds the second stream and releases it, while a dispatcher holds its credit: when the assignment
fails before its delivery, the connection no longer holds the turn. -/
theorem credit_lost_by_stale_handler : ¬ ∀ (s₀ : State) (c : Config Label Input State), s₀.Initial →
    service.Reaches .free s₀ c → ∀ w turnID before, .restored w turnID false before ∈ c.shared.trace →
      ∃ conn, before = some conn ∧ conn.ref = w ∧ (conn.closed = false →
        (conn.releaseAssignmentFailure turnID false).creditAdvertised = true) := by
  intro claim
  obtain ⟨c, reached, restored⟩ := service.reaches_of_replay .free twoRuns
    (staleHandler ++ steps 7 2 ++ [.run 13 { fail := true }, .run 13 {}])
    (fun s => .restored secondConn "u" false (some releasedSecond) ∈ s.trace)
    (by decide +kernel)
  obtain ⟨conn, same, _, back⟩ := claim twoRuns c twoRuns_initial reached secondConn "u" _ restored
  cases same
  exact absurd (back rfl) (by decide)

end Iterabase.Dispatch
