/-
**Durable dispatch — the handler of a compliant worker.**

* `answerReady_credit`, `handleWorkspaceStatus_credit` — a Ready is granted, a report is taken in.
* `serve_credit`, `teardown_credit` — **one round of the receive loop, and its end.**
-/

import Iterabase.Dispatch.Harmless

namespace Iterabase.Dispatch

open Conc Option Table WorkerConn Along

variable {t : Nat} {w : ConnRef} {s s' : State}

/-! ### What a handler knows -/

/-- Thread `t` runs the handler of `w`, and knows `C` of its phase and its connection. -/
def Handling (t : Nat) (w : ConnRef) (C : Phase → WorkerConn → Prop) (s : State) : Prop :=
  ∃ c, s.conns.find w.id = some c ∧ c.ref = w ∧ c.loop = .held t ∧ C (s.phase .handler w) c

/-- What the others leave as it is. -/
def Lasting (C : Phase → WorkerConn → Prop) : Prop :=
  ∀ {q c q' c'}, WorkerConn.Drift q c q' c' → C q c → C q' c'

variable {C : Phase → WorkerConn → Prop}

theorem Handling.local (lasting : Lasting C) : Local t (Handling t w C) where
  rely := by
    rintro s s' _ moved ⟨c, found, ref, loop, knows⟩
    obtain ⟨c', found', kept⟩ := moved _ c found
    have drift := kept.held loop
    rw [ref] at drift
    exact ⟨c', found', kept.ref.trans ref, drift.loop.trans loop, lasting drift knows⟩
  unmoved := by
    rintro s s' unmoved _ ⟨c, found, ref, loop, knows⟩
    exact ⟨c, unmoved.conns ▸ found, ref, loop, by rw [unmoved.phase]; exact knows⟩

theorem Handling.held (handling : Handling t w C s) : Held t w s := by
  obtain ⟨c, found, ref, loop, _⟩ := handling
  exact ⟨c, found, ref, loop⟩

theorem Held.local (t : Nat) (w : ConnRef) : Local t (Held t w) where
  rely := fun moved _ held => held.rely moved
  unmoved := by
    rintro s s' unmoved _ ⟨c, found, ref, loop⟩
    exact ⟨c, unmoved.conns ▸ found, ref, loop⟩

variable {q q' : Phase} {K Q : State → Prop} {c : WorkerConn} {n : Nat} {turnID : TurnID}
  {a : Assignment}

theorem Phase.Moves.unassigned (moves : q.Moves q') (unassigned : q'.Unassigned) : q' = q := by
  rcases moves with same | ⟨_, turnID, rfl⟩
  · exact same
  · rcases unassigned with same | same <;> cases same

open Phase

theorem Phase.Moves.notFresh (moves : q.Moves q') (notFresh : q' ≠ .fresh) : q ≠ .fresh := by
  rcases moves with rfl | ⟨rfl, _⟩
  · exact notFresh
  · simp

theorem WorkerConn.Drift.unassigned {c' : WorkerConn} (drift : c.Drift q q' c')
    (spent : q.Unassigned → c.creditAdvertised = false ∧ c.activeTurn = "")
    (unassigned : q'.Unassigned) : c'.creditAdvertised = false ∧ c'.activeTurn = "" := by
  have same := drift.phase.unassigned unassigned
  subst same
  obtain ⟨credit, turn⟩ := spent unassigned
  obtain ⟨credit', turn', _⟩ := drift.spent credit turn
  exact ⟨credit', turn'⟩

theorem atRest_lasting : Lasting fun q c => c.AtRest q := fun drift rest =>
  ⟨drift.closed.trans rest.closed, drift.registered.trans rest.registered,
    drift.unassigned rest.spent,
    fun notFresh => drift.observed (rest.observed (drift.phase.notFresh notFresh))⟩

variable {f : WorkerConn → WorkerConn}

/-! ### The handler's own connection -/

theorem not_held {other : Nat} (loop : c.loop = .held t) (different : other ≠ t) :
    c.loop ≠ .held other := by
  intro held
  cases loop.symm.trans held
  exact different rfl

theorem along_one {keeps : ∀ c, (f c).ref = c.ref} (known : Local t K) (start : K s)
    (holds : ∀ {s}, CreditInv s → K s → ∃ c, s.conns.find w.id = some c ∧ c.ref = w ∧
      ConnEdit t (s.phase · w) (s.phase · w) c (f c) ∧ Q (s.modifyConn w f keeps)) :
    Along baseRules creditLayer t (locally fun _ s => ((), s.modifyConn w f keeps))
      (fun _ s => Q s) s := by
  refine along_action fun s₁ moved moved' _ inv input answer s₂ _ ran _ _ => ?_
  cases ran
  obtain ⟨c, found, ref, edit, post⟩ := holds inv (known.rely moved moved' start)
  exact ⟨.modifyOne found ref edit, post⟩

theorem ConnEdit.own {p : Side → Phase} {c' : WorkerConn} (loop : c.loop = .held t)
    (inbox : c'.inbox = c.inbox) (waiting : c'.loop = .waiting → c'.AtRest (p .handler))
    (credit : c'.creditAdvertised = c.creditAdvertised) (turn : c'.activeTurn = c.activeTurn)
    (reserved : c'.reservedBy = c.reservedBy) (closed : c.closed = true → c'.closed = true) :
    ConnEdit t p p c c' where
  obeys := fun obeys => ⟨inbox ▸ obeys.view, inbox ▸ obeys.legal, waiting, fun advertised => by
    rw [turn]
    exact obeys.credit (credit ▸ advertised)⟩
  closed := closed
  held := fun _ different held => absurd held (not_held loop different)
  reserved := fun _ _ held => .inr ⟨reserved, turn, held.2.2⟩

theorem setLoop_waiting (handling : Handling t w (fun q c => c.AtRest q) s) :
    Runs baseRules creditLayer t (setLoop w .waiting) s := by
  refine along_one (Handling.local atRest_lasting) handling fun {s} _ handling => ?_
  obtain ⟨c, found, ref, loop, rest⟩ := handling
  refine ⟨c, found, ref, .own loop rfl (fun _ => ?_) rfl rfl rfl fun closed => closed, trivial⟩
  exact ⟨rest.closed, rest.registered, rest.spent, rest.observed⟩

theorem teardown_credit (held : Held t w s) : Runs baseRules creditLayer t (teardown w) s := by
  have known := (Held.local t w).and (Lost.local t w)
  refine (along_one (Q := fun s => Held t w s ∧ Lost w s) (Held.local t w) held
    fun {s} _ held => ?_).andThen fun _ s lost => ?_
  · obtain ⟨c, found, ref, loop⟩ := held
    refine ⟨c, found, ref, .own loop rfl (fun waiting => ?_) rfl rfl rfl fun _ => rfl,
      ⟨_, modifyConn_find found, ref, loop⟩, ⟨_, modifyConn_find found, ref, rfl⟩⟩
    exact absurd (loop.symm.trans waiting) (by simp)
  refine (along_one (Q := fun s => Held t w s ∧ Lost w s) known lost
    fun {s} _ lost => ?_).andThen fun _ s lost => ?_
  · obtain ⟨⟨c, found, ref, loop⟩, c', found', _, closed⟩ := lost
    cases found.symm.trans found'
    refine ⟨c, found, ref, .own loop rfl (fun waiting => ?_) rfl rfl rfl fun closed => closed,
      ⟨_, modifyConn_find found, ref, loop⟩, ⟨_, modifyConn_find found, ref, closed⟩⟩
    exact absurd (loop.symm.trans waiting) (by simp)
  refine bind (.mono (Q := fun _ s => Held t w s ∧ Lost w s) (fun _ s lost => ?_) ?_)
  · refine along_one (Held.local t w) lost.1 fun {s} _ held => ?_
    obtain ⟨c, found, ref, loop⟩ := held
    exact ⟨c, found, ref, .own loop rfl (nofun) rfl rfl rfl
      fun closed => closed, trivial⟩
  · refine known.along_bind lost read_harmless fun turn s lost => ?_
    split
    · exact lost
    · exact (fenceAndTerminalize_lost known (fun lost => lost.2) .workerLoss w.poolID
        lost).andThen fun _ _ lost => lost

/-! ### Messages to a worker -/

section Send

variable {msg : ControlMessage} {answers : Option TurnEvent} {c : WorkerConn}

theorem phase_sent (side : Side) (w' : ConnRef) :
    (s.observe (.sent w msg answers)).phase side w' =
      if w = w' then (s.phase side w').told msg else s.phase side w' := rfl

theorem Unmoved.send (inv : CreditInv s) (found : s.conns.find w.id = some c) (ref : c.ref = w)
    (expected : (s.phase .handler w).Expects msg)
    (still : (s.phase .handler w).told msg = s.phase .handler w) :
    Unmoved s (s.observe (.sent w msg answers)) where
  conns := rfl
  phase := by
    intro side w'
    rw [phase_sent]
    split
    · rename_i same
      subst same
      have obeys := inv.conn _ c found
      rw [ref] at obeys
      cases side with
      | worker =>
        rw [obeys.view, (view_told obeys.legal expected).1, still]
      | handler => exact still
    · rfl
  answers := by
    intro w' valid member
    rcases List.mem_cons.mp member with same | there
    · cases same
    · exact there

theorem CreditStep.send (found : s.conns.find w.id = some c) (ref : c.ref = w)
    (expected : (s.phase .handler w).Expects msg)
    (rest : c.loop = .waiting → c.AtRest (s.phase .handler w) →
      c.AtRest ((s.phase .handler w).told msg))
    (credit : c.creditAdvertised = true → c.activeTurn = "" →
      (s.phase .handler w).told msg = .armed)
    (drift : ∀ other, other ≠ t → c.loop = .held other →
      c.Drift (s.phase .handler w) ((s.phase .handler w).told msg) c)
    (reserved : ∀ other, other ≠ t → c.Reserved other (s.phase .handler w) →
      (s.phase .handler w).told msg = .armed)
    (running : ∀ turnID n, (s.phase .handler w).told msg = .running turnID n →
      (∃ m, s.phase .handler w = .running turnID m) ∨ Live turnID w.gen s) :
    CreditStep t s (s.observe (.sent w msg answers)) := by
  have told : ∀ {side q}, see side w (.sent w msg answers) q = q.told msg := if_pos rfl
  refine .at (f := fun c => c) found ref (by simp) (fun _ => rfl) rfl rfl
    (fun side w' q other => if_neg (Ne.symm other)) (fun _ => rfl) (nofun) ?_
    fun turnID n goes => running turnID n (told.symm.trans goes)
  simp only [told]
  refine { obeys := fun obeys => ?_, held := drift, reserved := fun other different held => ?_ }
  · obtain ⟨view, legal⟩ := view_told obeys.legal expected
    exact ⟨by rw [obeys.view, view], legal, fun waiting => rest waiting (obeys.waiting waiting),
      fun advertised => ⟨credit advertised (obeys.credit advertised).2, (obeys.credit advertised).2⟩⟩
  · exact .inr ⟨rfl, rfl, reserved other different held⟩

end Send

/-! ### Handling messages -/

/-- A worker that just advertised its credit, before the service has granted it. -/
structure Advertising (q : Phase) (c : WorkerConn) : Prop where
  closed : c.closed = false
  registered : c.registered = true
  observed : c.workspaceObserved = true
  armed : q = .armed
  spent : c.creditAdvertised = false ∧ c.activeTurn = ""

theorem advertising_lasting : Lasting Advertising := by
  rintro q c q' c' drift ⟨closed, registered, observed, armed, credit, turn⟩
  obtain ⟨credit', turn', same⟩ := drift.spent credit turn
  exact ⟨drift.closed.trans closed, drift.registered.trans registered, drift.observed observed,
    same.trans armed, credit', turn'⟩

theorem CreditStep.logs {keeps : ∀ c, (f c).ref = c.ref} {o : Obs}
    (found : s.conns.find w.id = some c) (ref : c.ref = w)
    (edit : ConnEdit t (s.phase · w) (s.phase · w) c (f c))
    (still : ∀ side w q, see side w o q = q) (unfinishing : ∀ turnID, o.finishes turnID = false)
    (answers : ∀ w valid, o = .readyAnswered w valid → valid = true) :
    CreditStep t s ((s.modifyConn w f keeps).observe o) := by
  refine .at found ref (modifyConn_lookup f keeps) keeps rfl rfl (fun side w' q _ => still side w' q)
    unfinishing answers ?_ fun turnID n goes => .inl ⟨n, (still _ _ _).symm.trans goes⟩
  simp only [still]
  exact edit

theorem along_logs {label : Label} {keeps : ∀ c, (f c).ref = c.ref} {o : State → Obs}
    (known : Local t K) (start : K s)
    (idle : ∀ s, (o s).Idle ∧ ∀ turnID, (o s).finishes turnID = false)
    (holds : ∀ {s}, CreditInv s → K s → ∃ c, s.conns.find w.id = some c ∧ c.ref = w ∧
      ConnEdit t (s.phase · w) (s.phase · w) c (f c) ∧
        Q ((s.modifyConn w f keeps).observe (o s))) :
    Along baseRules creditLayer t
      (locally (fun _ s => ((), (s.modifyConn w f keeps).observe (o s))) label)
      (fun _ s => Q s) s := by
  refine along_action fun s₁ moved moved' _ inv input answer s₂ _ ran _ _ => ?_
  cases ran
  obtain ⟨c, found, ref, edit, post⟩ := holds inv (known.rely moved moved' start)
  refine ⟨.logs found ref edit (fun _ _ => see_idle (idle s₁).1) (idle s₁).2
    fun w valid same => ?_, post⟩
  have here := (idle s₁).1
  rw [same] at here
  cases here

theorem answerReady_credit (handling : Handling t w Advertising s) :
    Along baseRules creditLayer t (answerReady w)
    (fun valid s => valid = true ∧ Handling t w (fun q c => c.AtRest q) s) s := by
  refine along_action fun s₁ moved moved' _ inv input answer s₂ _ ran _ _ => ?_
  obtain ⟨c, found, ref, loop, closed, registered, observed, armed, credit, turn⟩ :=
    (Handling.local advertising_lasting).rely moved moved' handling
  obtain ⟨c', found', ran⟩ := map_eq_some_iff.mp ran
  cases found.symm.trans found'
  have granted : c.grantCreditIfIdle =
      (true, { c with creditAdvertised := true, idle := !c.workspaceGated }) := by
    simp [grantCreditIfIdle, closed, turn, observed]
  rw [granted] at ran
  cases ran
  have rest : c.grantCreditIfIdle.2.AtRest (s₁.phase .handler w) := by
    rw [granted, armed]
    exact ⟨closed, registered, fun unassigned => absurd unassigned (by simp [Phase.Unassigned]),
      fun _ => observed⟩
  have after : (s₁.modifyConn w (fun c => c.grantCreditIfIdle.2)
      WorkerConn.grantCreditIfIdle_ref).conns.find w.id = some c.grantCreditIfIdle.2 :=
    modifyConn_find found
  refine ⟨.logs found ref ⟨fun obeys => ?_, fun shut => ?_, fun other different held =>
    absurd held (not_held loop different), fun other different reserved => absurd turn reserved.2.1⟩
      (fun _ _ _ => rfl) (fun _ => rfl) (fun _ _ same => by cases same; rfl),
    rfl, _, after, (WorkerConn.grantCreditIfIdle_ref c).trans ref, ?_, rest⟩
  · rw [granted] at rest ⊢
    exact ⟨obeys.view, obeys.legal, fun _ => rest, fun _ => ⟨armed, turn⟩⟩
  · rw [granted]
    exact shut
  · rw [granted]
    exact loop

def Reporting (q : Phase) (c : WorkerConn) : Prop :=
  c.closed = false ∧ c.registered = true ∧
    (q.Unassigned → c.creditAdvertised = false ∧ c.activeTurn = "")

theorem reporting_lasting : Lasting Reporting := fun drift ⟨closed, registered, spent⟩ =>
  ⟨drift.closed.trans closed, drift.registered.trans registered, drift.unassigned spent⟩

theorem applyWorkspaceStatus_edit (p : Side → Phase) (c : WorkerConn) (gated observes : Bool) :
    ConnEdit t p p c (c.applyWorkspaceStatus gated observes) where
  obeys := fun obeys => ⟨obeys.view, obeys.legal, fun waiting => by
    have rest := obeys.waiting waiting
    exact ⟨rest.closed, rest.registered, rest.spent, fun notFresh => by
      simp [applyWorkspaceStatus, rest.observed notFresh]⟩, obeys.credit⟩
  held := fun _ _ _ =>
    { observed := fun seen => by simp [applyWorkspaceStatus, seen]
      phase := .inl rfl, spent := fun credit turn => ⟨credit, turn, rfl⟩ }
  reserved := fun _ _ held => .inr ⟨rfl, rfl, held.2.2⟩

theorem handleWorkspaceStatus_credit (status : WorkspaceStatus) (handling : Handling t w Reporting s)
    : Along baseRules creditLayer t (handleWorkspaceStatus w status)
    (fun goesOn s => Held t w s ∧ (goesOn = true → Handling t w (fun q c => c.AtRest q) s)) s := by
  have known : Local t (Handling t w Reporting) := Handling.local reporting_lasting
  unfold handleWorkspaceStatus
  split
  · refine known.along_bind handling observeWorkspaceCapacity_harmless fun answer s handling => ?_
    split
    · exact ⟨handling.held, nofun⟩
    rename_i capacity
    refine bind (along_action fun s₁ moved moved' _ inv input answer s₂ _ ran _ _ => ?_)
    obtain ⟨c, found, ref, loop, closed, registered, spent⟩ := known.rely moved moved' handling
    cases ran
    have conns := applyWorkspaceStatus_find (s := s₁) (w := w) capacity.freshCreditGated
    have mine : decide (c.registered = true ∧ c.ref.poolID = w.poolID) = true :=
      decide_eq_true ⟨registered, congrArg ConnRef.poolID ref⟩
    have after := conns w.id
    rw [found, map_some, if_pos mine] at after
    have here : c.id = w.id := find_key found
    refine ⟨.modify conns (fun _ => rfl) rfl rfl fun _ c _ _ => applyWorkspaceStatus_edit _ c _ _,
      ⟨_, after, ref, loop⟩, fun _ => ⟨_, after, ref, loop, closed, registered, spent, fun _ => ?_⟩⟩
    simp [applyWorkspaceStatus, here]
  · exact ⟨handling.held, nofun⟩

/-! ### Handling events -/

/-- The handler of an open connection that saw a report, at the phase `q₀`. -/
structure Working (q₀ : Phase) (q : Phase) (c : WorkerConn) : Prop where
  closed : c.closed = false
  registered : c.registered = true
  observed : c.workspaceObserved = true
  phase : q = q₀

variable {q₀ : Phase}

theorem working_lasting (notArmed : q₀ ≠ .armed) : Lasting (Working q₀) := by
  rintro q c q' c' drift ⟨closed, registered, observed, rfl⟩
  refine ⟨drift.closed.trans closed, drift.registered.trans registered, drift.observed observed, ?_⟩
  rcases drift.phase with same | ⟨armed, _⟩
  · exact same
  · exact absurd armed notArmed

theorem Handling.atRest (assigned : ¬ q₀.Unassigned)
    (handling : Handling t w (Working q₀) s) : Handling t w (fun q c => c.AtRest q) s := by
  obtain ⟨c, found, ref, loop, closed, registered, observed, same⟩ := handling
  refine ⟨c, found, ref, loop, closed, registered, fun unassigned => ?_, fun _ => observed⟩
  rw [same] at unassigned
  exact absurd unassigned assigned

theorem running_assigned : ¬ (running turnID n).Unassigned := by
  simp [Phase.Unassigned]

theorem finishing_assigned : ¬ (finishing turnID n).Unassigned := by
  simp [Phase.Unassigned]

theorem ack_harmless (te : TurnEvent) :
    (ack w te).All (Harmless t (Handling t w (Working (.running te.turnID te.sequence)))) := by
  refine .atomic fun {input s answer s'} _ inv handling _ ran => ?_
  obtain ⟨c, found, ref, loop, _, _, _, running⟩ := handling
  obtain ⟨c', found', ⟨_, rfl, _⟩ | ⟨_, rfl, _⟩⟩ := send_cases ran
  · exact ⟨.refl _, .refl t _⟩
  · exact ⟨.send inv found ref (by rw [running]; exact ⟨rfl, le_refl _⟩) (by rw [running]; rfl),
      .observe fun _ => rfl⟩

variable {te : TurnEvent}

theorem handleTurnEvent_plain (plain : te.kind.outcome = none) :
    (handleTurnEvent w te).All
    (Harmless t (Handling t w (Working (.running te.turnID te.sequence)))) := by
  refine handleTurnEvent_parts query_harmless (fun _ => append_harmless plain)
    (fun _ => audit_harmless) (fun _ => record_harmless) (ack_harmless te) (fun a => ?_)
    fun a runState => ?_
  · simp only [projectOutcome, plain]
    exact .done _
  · refine .bind (ack_harmless te) fun answer => ?_
    split
    · exact .done _
    · simp only [plain, isSome_none, Bool.false_eq_true, if_false]
      exact .done _

/-- The handler took the outcome of a live turn. -/
def Finishing (t : Nat) (w : ConnRef) (te : TurnEvent) (s : State) : Prop :=
  Handling t w (Working (.finishing te.turnID te.sequence)) s ∧ Live te.turnID w.gen s

theorem finishing_lasting :
    Lasting (Working (.finishing te.turnID te.sequence)) := working_lasting (by simp)

theorem Finishing.rely (finishing : Finishing t w te s) (moved : Rely t s s')
    (moved' : CreditRely t s s') : Finishing t w te s' := by
  refine ⟨(Handling.local finishing_lasting).rely moved moved' finishing.1, ?_⟩
  obtain ⟨⟨c, found, ref, loop, closed, _, _, phase⟩, live⟩ := finishing
  obtain ⟨c', _, kept⟩ := moved' _ c found
  have stays := kept.live loop closed te.turnID te.sequence
  rw [ref] at stays
  exact stays phase live

/-- The handler may take the turn that its worker has finished: no other connection has the
generation that the turn was assigned under. -/
theorem Handling.forfeits {k : Nat} (base : Base s)
    (handling : Handling t w (Working (.finishing te.turnID te.sequence)) s) (owns : Owns w te s)
    (found : s.conns.find k = some c) (live : Live te.turnID c.ref.gen s) :
    Forfeits t s c te.turnID := by
  obtain ⟨c', found', ref, loop, _, _, _, phase⟩ := handling
  obtain ⟨row, foundRow, gen⟩ := owns
  obtain ⟨⟨row', foundRow', _, gen'⟩, _⟩ := live
  cases foundRow.symm.trans foundRow'
  have same := base.sameGen k c w.id c' found found' (by rw [← gen', gen, ref])
  subst same
  cases found.symm.trans found'
  rw [← ref] at phase
  exact .inr ⟨loop, by rw [phase]; simp, fun n => by rw [phase]; simp⟩

theorem appendOutcome_credit {kind : RuntimeEvent}
    (finishing : Finishing t w te s) :
    Along baseRules creditLayer t (appendTx w te kind)
      (fun answer s => answer ≠ .error .assignmentNotActive ∧
        Handling t w (Working (.finishing te.turnID te.sequence)) s ∧ Owns w te s) s := by
  refine along_action fun s₁ moved moved' base inv input answer s₂ admitted ran _ grows => ?_
  obtain ⟨handling, ⟨row, foundRow, active, gen⟩, _⟩ := finishing.rely moved moved'
  have owns : Owns w te s₁ := ⟨row, foundRow, gen⟩
  rw [call_went admitted.1, some.injEq] at ran
  rcases appendTurnEvent_cases ran with
    ⟨err, rfl, rfl, late⟩ | ⟨a, found, _, ⟨rfl, rfl, _⟩ | ⟨rfl, next, rfl⟩⟩
  · refine ⟨.refl t _, fun same => ?_, handling, owns⟩
    cases same
    exact late rfl row foundRow active
  · exact ⟨.refl t _, by simp, handling, owns⟩
  cases found.symm.trans foundRow
  have step := (committed_step kind found next (appended_honest (w := w) found active next)).1
  have unmoved : Unmoved s₁ ((s₁.advanceWatermark row te kind).observe (.appended w te)) :=
    .of_store step (by simp [Obs.Idle])
  refine ⟨.of_unmoved unmoved fun k c turnID found' live' => ?_, by simp,
    (Handling.local finishing_lasting).unmoved unmoved grows handling, owns.grows grows⟩
  by_cases same : turnID = te.turnID
  · subst same
    exact .inr (handling.forfeits base owns found' live')
  · exact .inl (live'.advance.observe (by simp [Obs.finishes, Ne.symm same]))

/-- **The ACK of the outcome** sends the worker back to where it may advertise its credit. -/
theorem ackOutcome_credit (handling : Handling t w (Working (.finishing te.turnID te.sequence)) s) :
    Along baseRules creditLayer t (ack w te)
    (fun answer s => answer = .ok () ∧ Handling t w (Working .observed) s) s := by
  refine along_action fun s₁ moved moved' _ inv input answer s₂ admitted ran _ _ => ?_
  obtain ⟨c, found, ref, loop, open_, registered, observed, phase⟩ :=
    (Handling.local finishing_lasting).rely moved moved' handling
  obtain ⟨c', found', ⟨closed, _⟩ | ⟨_, rfl, went⟩⟩ := send_cases ran
  · cases found.symm.trans found'
    rw [open_] at closed
    cases closed
  have told : (s₁.phase .handler w).told (.eventAck te.turnID te.sequence) = .observed := by
    rw [phase]
    exact if_pos ⟨rfl, le_refl _⟩
  refine ⟨.send found ref (by rw [phase]; exact ⟨rfl, le_refl _⟩) (fun waiting => ?_)
    (fun credit _ => ?_) (fun _ different held => absurd held (not_held loop different))
    (fun other _ reserved => ?_) (fun turnID n goes => ?_), went admitted.2, c, found, ref, loop, open_,
    registered, observed,
    (phase_sent _ _).trans ((if_pos rfl).trans told)⟩
  · rw [loop] at waiting
    cases waiting
  · have armed := ((inv.conn _ c found).credit credit).1
    rw [ref, phase] at armed
    cases armed
  · rw [phase] at reserved
    cases reserved.2.2
  · rw [told] at goes
    cases goes

theorem get_own (inv : CreditInv s) (handling : Handling t w (Working q₀) s) :
    s.get w.poolID w.workerID = some w := by
  obtain ⟨c, found, ref, _, _, registered, _⟩ := handling
  have mine : State.underKey w.poolID w.workerID c := by
    simp [State.underKey, registered, ref]
  unfold State.get
  rcases first : s.conns.rows.find? (State.underKey w.poolID w.workerID) with _ | c'
  · rw [List.find?_eq_none] at first
    exact absurd mine (first c (find_mem found))
  have under := List.find?_some first
  have found' := find_of_mem (List.mem_of_find?_eq_some first)
  simp only [State.underKey, Bool.decide_and, Bool.and_eq_true, decide_eq_true_eq] at under
  have same := inv.key _ c' w.id c found' found (by rw [under.2.1, ref]) (by rw [under.2.2, ref])
  rw [same, found] at found'
  cases found'
  exact congrArg some ref

theorem releaseFor_credit (handling : Handling t w (Working .observed) s) :
    Along baseRules creditLayer t (releasing w a)
    (fun _ s => Handling t w (fun q c => c.AtRest q) s) s := by
  refine along_logs (Handling.local (working_lasting (by simp))) handling
    (fun _ => ⟨trivial, fun _ => rfl⟩) fun {s} inv handling => ?_
  obtain ⟨c, found, ref, loop, closed, registered, observed, phase⟩ := handling
  have spent : c.creditAdvertised = false := by
    by_contra advertised
    have armed := ((inv.conn _ c found).credit (by simpa using advertised)).1
    rw [ref, phase] at armed
    cases armed
  have after : (s.modifyConn w WorkerConn.releaseTurn fun _ => rfl).conns.find w.id =
      some c.releaseTurn := modifyConn_find found
  refine ⟨c, found, ref, ⟨fun obeys => ?_, fun closed => closed, fun _ different held =>
    absurd held (not_held loop different), fun other _ reserved => ?_⟩, c.releaseTurn, after, ref, loop,
    closed, registered, fun _ => ⟨spent, rfl⟩, fun _ => observed⟩
  · exact ⟨obeys.view, obeys.legal, fun waiting => absurd (loop.symm.trans waiting) (by simp),
      fun advertised => ⟨(obeys.credit advertised).1, rfl⟩⟩
  · rw [phase] at reserved
    cases reserved.2.2

theorem finishTurnOutcome_credit {runState : Option RunState} (pool : a.poolID = w.poolID)
    (worker : a.workerID = w.workerID) (handling : Handling t w (Working .observed) s) :
    Along baseRules creditLayer t (finishTurnOutcome a runState)
    (fun _ s => Handling t w (fun q c => c.AtRest q) s) s := by
  have known : Local t (Handling t w (Working .observed)) :=
    Handling.local (working_lasting (by simp))
  have rested : Local t (Handling t w fun q c => c.AtRest q) := Handling.local atRest_lasting
  refine bind (along_action fun s₁ moved moved' _ inv input answer s₂ _ ran _ _ => ?_)
  have handling := known.rely moved moved' handling
  cases ran
  refine ⟨.refl t _, ?_⟩
  rw [pool, worker, get_own inv handling]
  refine (releaseFor_credit handling).andThen fun _ s handling => ?_
  split
  · refine rested.along handling (.bind query_harmless fun answer => ?_)
    split
    · exact .done _
    · exact .bind (send_harmless trivial) fun _ => .done _
  · exact handling

/-- **The outcome of a live turn** is appended, settled and ACKed, and its turn is released. -/
theorem handleTurnEvent_finishing {outcome : Outcome} (kind : te.kind = .workerOutcome outcome)
    (finishing : Finishing t w te s) : Along baseRules creditLayer t (handleTurnEvent w te)
    (fun _ s => Handling t w (fun q c => c.AtRest q) s) s := by
  have known : Local t fun s => Handling t w (Working (.finishing te.turnID te.sequence)) s ∧
      Owns w te s :=
    (Handling.local finishing_lasting).and (.of_grows fun grows owns => Owns.grows owns grows)
  have runtime : turnEventToRuntime te.kind = some .settled := by rw [kind]; rfl
  have report : te.kind.report = none := by rw [kind]; rfl
  have isOutcome : te.kind.outcome = some outcome := by rw [kind]; rfl
  unfold handleTurnEvent
  split
  · exact finishing.1.atRest finishing_assigned
  refine bind (along_action fun s₁ moved moved' base _ input answer s₂ admitted ran _ _ => ?_)
  have finishing := finishing.rely moved moved'
  obtain ⟨⟨c, found, ref, _⟩, ⟨row, foundRow, active, gen⟩, _⟩ := id finishing
  rw [call_went admitted.1] at ran
  cases ran
  refine ⟨.refl t _, ?_⟩
  dsimp only
  rw [resolveActiveAssignment_ok.mpr ⟨foundRow, active⟩]
  obtain ⟨pool, worker⟩ := base.rowConn _ row _ c foundRow found (by rw [gen, ref])
  rw [ref] at pool worker
  have mine : ¬ (row.workerID ≠ w.workerID ∨ row.fencingGeneration ≠ w.gen) := by
    simp [worker, gen]
  simp only [if_neg mine, runtime]
  refine (appendOutcome_credit finishing).andThen fun answer s appended => ?_
  obtain ⟨stillActive, kept⟩ := appended
  split
  · exact absurd rfl stillActive
  · exact kept.1.atRest finishing_assigned
  simp only [projectCompletion, report, projectOutcome, isOutcome, terminalizeTurnOutcome]
  refine bind ?_
  refine known.along_bind kept (commitTurnTerminal_harmless fun base kept k c found live => ?_)
    fun answer s kept => ?_
  · rw [show row.turnID = te.turnID from find_key foundRow] at live ⊢
    exact kept.1.forfeits base kept.2 found live
  · split
    · exact kept.1.atRest finishing_assigned
    · refine (ackOutcome_credit kept.1).andThen fun answer s acked => ?_
      obtain ⟨rfl, handling⟩ := acked
      simp only [isOutcome, isSome_some, if_true]
      exact (finishTurnOutcome_credit pool worker handling).andThen fun _ _ rested => rested

/-! ### The receive loop -/

/-- What the loop knows of a message it took: a compliant worker sent it. -/
def Took (t : Nat) (w : ConnRef) (msg : WorkerMessage) (s : State) : Prop :=
  match msg with
  | .ready => Handling t w Advertising s
  | .workspaceStatus _ => Handling t w Reporting s
  | .turnEvent te => if te.kind.outcome.isSome then Finishing t w te s
      else Handling t w (Working (.running te.turnID te.sequence)) s
  | _ => Handling t w (fun q c => c.AtRest q) s

theorem serve_credit {msg : WorkerMessage} (took : Took t w msg s) :
    Runs baseRules creditLayer t (serve w msg) s := by
  have next : ∀ (goesOn : Bool) s, Held t w s ∧
      (goesOn = true → Handling t w (fun q c => c.AtRest q) s) →
        Runs baseRules creditLayer t (if goesOn then setLoop w .waiting else teardown w) s := by
    intro goesOn s known
    split
    · exact setLoop_waiting (known.2 ‹_›)
    · exact teardown_credit known.1
  refine bind (.mono next ?_)
  cases msg with
  | ready =>
    exact (answerReady_credit took).mono fun valid s granted =>
      ⟨granted.2.held, fun _ => granted.2⟩
  | workspaceStatus status => exact handleWorkspaceStatus_credit status took
  | turnEvent te =>
    refine bind (.mono (Q := fun _ s => Handling t w (fun q c => c.AtRest q) s)
      (fun _ s rested => ⟨rested.held, fun _ => rested⟩) ?_)
    by_cases isOutcome : te.kind.outcome.isSome
    · simp only [Took, if_pos isOutcome] at took
      cases kind : te.kind with
      | workerOutcome outcome => exact handleTurnEvent_finishing kind took
      | _ => rw [kind] at isOutcome; cases isOutcome
    · simp only [Took, if_neg isOutcome] at took
      have plain : te.kind.outcome = none := by simpa using isOutcome
      exact ((Handling.local (working_lasting (by simp))).along took (handleTurnEvent_plain plain)).mono
        fun _ _ handling => handling.atRest running_assigned
  | _ => exact ⟨Handling.held took, fun _ => took⟩

end Iterabase.Dispatch
