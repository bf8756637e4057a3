/-
**Durable dispatch — compliant workers are never rejected.**

* `cancelTurn_credit` — a cancelled turn is finished.
* `dispatchRun_credit` — the dispatcher: the worker waits for the turn as long as the credit that was
  consumed for it is not given back.
* `ready_granted` — **every Ready of a compliant worker is valid**, if no turn is cancelled before its
  WorkerOutcome is appended.
-/

import Iterabase.Dispatch.Serving

namespace Iterabase.Dispatch

open Conc Table Option WorkerConn

variable {t : Nat} {w : ConnRef} {s s' : State}

/-! ### Opening a stream -/

structure Opening (registered : Bool) (q : Phase) (c : WorkerConn) : Prop where
  closed : c.closed = false
  registered : c.registered = registered
  fresh : q = .fresh
  spent : c.creditAdvertised = false ∧ c.activeTurn = ""

variable {registered : Bool} {workerID : WorkerID} {turn : Turn} {label : Label}
  {msg : WorkerMessage}

theorem opening_lasting : Lasting (Opening registered) := by
  rintro q c q' c' drift ⟨closed, same, fresh, credit, turn⟩
  obtain ⟨credit', turn', still⟩ := drift.spent credit turn
  exact ⟨drift.closed.trans closed, drift.registered.trans same, still.trans fresh, credit', turn'⟩

theorem opening_local : Local t (Handling t w (Opening registered)) :=
  Handling.local opening_lasting

variable {poolID : PoolID}

theorem register_credit :
    Along baseRules creditLayer t
    (.atomic (.register poolID workerID) fun _ s => s.register poolID workerID t)
    (fun w s => Handling t w (Opening false) s) s := by
  refine Along.action fun s₁ _ _ base inv input w s₂ admitted ran _ _ => ?_
  obtain ⟨conns, after⟩ := register_cases base ran
  have unseen : ∀ side, s₁.phase side ⟨s₁.nextConn, poolID, workerID, s₁.gen + 1⟩ = .fresh :=
    fun side => phase_fresh fun o member about =>
      absurd (base.traceNext o member _ about) (Nat.lt_irrefl _)
  have newKey : ∀ {k c}, s₁.conns.find k = some c → c.ref.poolID = poolID →
      c.ref.workerID = workerID → False := fun found pool worker =>
    admitted.1.2 _ (find_mem found) pool worker
  refine ⟨⟨⟨?_, ?_, ?_, inv.valid⟩, fun other _ k c found => ?_⟩, ?_⟩
  · intro k c found
    rcases (after k c).mp found with ⟨rfl, rfl⟩ | old
    · exact ⟨(unseen _).trans (unseen _).symm, trivial, nofun,
        nofun⟩
    · exact inv.conn k c old
  · intro k c turnID n found open_ running
    rcases (after k c).mp found with ⟨rfl, rfl⟩ | old
    · exact absurd ((unseen _).symm.trans running) (by simp)
    · exact inv.live k c turnID n old open_ running
  · intro k c k' c' found found' pool worker
    rcases (after k c).mp found with ⟨rfl, rfl⟩ | old <;>
      rcases (after k' c').mp found' with ⟨rfl, rfl⟩ | old'
    · rfl
    · exact (newKey old' pool.symm worker.symm).elim
    · exact (newKey old pool worker).elim
    · exact inv.key k c k' c' old old' pool worker
  · exact ⟨c, (after k c).mpr (.inr found), rfl, fun closed => closed, fun _ => .refl c rfl,
      fun _ _ _ _ _ live => live, fun reserved => .inr ⟨rfl, rfl, reserved.2.2, fun live => live⟩⟩
  · exact ⟨_, (after _ _).mpr (.inl ⟨rfl, rfl⟩), rfl, rfl, rfl, rfl, unseen _, rfl, rfl⟩

variable {c : WorkerConn}

theorem Handling.only {C : Phase → WorkerConn → Prop} {k : Nat} (inv : CreditInv s)
    (handling : Handling t w C s) (found : s.conns.find k = some c) (pool : c.ref.poolID = w.poolID)
    (worker : c.ref.workerID = w.workerID) :
    c.ref = w ∧ c.loop = .held t ∧ C (s.phase .handler w) c := by
  obtain ⟨c', found', ref, loop, knows⟩ := handling
  have same := inv.key k c w.id c' found found' (by rw [pool, ref]) (by rw [worker, ref])
  subst same
  cases found.symm.trans found'
  exact ⟨ref, loop, knows⟩

/-- **The new connection enters the map**, and replaces none. -/
theorem add_credit (handling : Handling t w (Opening false) s) :
    Along baseRules creditLayer t (locally fun _ s => s.add w)
    (fun old s => old = none ∧ Handling t w (Opening true) s) s := by
  refine along_action fun s₁ moved moved' _ inv input old s₂ _ ran _ _ => ?_
  have handling := opening_local.rely moved moved' handling
  have added : s₁.add w = (old, s₂) := some.inj ran
  have second : s₂ = (s₁.add w).2 := by rw [added]
  have first : s₁.get w.poolID w.workerID = old := congrArg Prod.fst added
  subst second
  -- the only connection under the key is the new one, which the map does not hold
  have unregistered : ∀ c ∈ s₁.conns.rows, State.underKey w.poolID w.workerID c = false := by
    intro c member
    by_contra under
    simp only [State.underKey, Bool.decide_and, Bool.not_eq_false, Bool.and_eq_true,
      decide_eq_true_eq] at under
    obtain ⟨_, _, _, registered, _⟩ :=
      handling.only inv (find_of_mem member) under.2.1 under.2.2
    rw [registered] at under
    cases under.1
  have none : old = none := by
    rw [← first]
    unfold State.get
    rw [List.find?_eq_none.mpr fun c member => by simp [unregistered c member]]
    rfl
  obtain ⟨c, found, ref, loop, closed, registered, phase, credit, turn⟩ := handling
  have here : c.id = w.id := find_key found
  have after := add_find (s := s₁) (w := w) w.id
  rw [found, map_some, if_pos (by simp [here]), if_pos here] at after
  refine ⟨.modify add_find (fun c => by split <;> rfl) rfl rfl fun k c' found' selected => ?_, none, _,
    after, ref, loop, closed, rfl, phase, credit, turn⟩
  rw [unregistered c' (find_mem found'), Bool.false_or, decide_eq_true_eq] at selected
  obtain ⟨rfl, rfl⟩ := find_unique found found' selected
  rw [if_pos selected]
  exact .own loop rfl (fun waiting => absurd (loop.symm.trans waiting) (by simp)) rfl rfl rfl
    fun closed => closed

theorem watermark_harmless (turnID : TurnID) (through : Nat) :
    (send w (.eventAck turnID through)).All (Harmless t (Handling t w (Opening true))) := by
  refine .atomic fun {input s answer s'} _ inv handling _ ran => ?_
  obtain ⟨c, found, ref, _, _, _, fresh, _⟩ := handling
  obtain ⟨c', _, ⟨_, rfl, _⟩ | ⟨_, rfl, _⟩⟩ := send_cases ran
  · exact ⟨.refl _, .refl t _⟩
  · exact ⟨.send inv found ref (by rw [fresh]; trivial) (by rw [fresh]; rfl), .observe fun _ => rfl⟩

/-- **The reconnect fence** of a worker's only connection takes no turn that a worker runs. -/
theorem reconnectFence_credit (handling : Handling t w (Opening true) s) :
    Along baseRules creditLayer t (reconnectTx w)
      (fun answer s => Handling t w (Opening true) s ∧
        ∀ a, answer = .ok a → RowInactive a.turnID s) s := by
  refine along_action fun s₁ moved moved' base inv input answer s₂ admitted ran _ grows => ?_
  have handling := opening_local.rely moved moved' handling
  rw [call_went admitted.1] at ran
  rcases fenced : s₁.fenceWorkerGeneration w.poolID w.workerID input.pick with ⟨answer', middle⟩
  simp only [fenced] at ran
  cases ran
  have step := fenceWhere_step fenced
  have unmoved : Unmoved s₁ (middle.observe (.fencedFor w)) :=
    .logged step.conns (congrArg _ step.trace) trivial
  refine ⟨.of_unmoved unmoved fun k c turnID found live => ?_,
    opening_local.unmoved unmoved grows handling, fun a same => ?_⟩
  · obtain ⟨⟨row, foundRow, active, gen⟩, unfinished⟩ := live
    by_cases selected : State.activeFor w.poolID w.workerID row
    · -- the row is of the generation of a connection under the key, which is the new one
      simp only [State.activeFor, Bool.decide_and, Bool.and_eq_true, decide_eq_true_eq] at selected
      obtain ⟨pool, worker⟩ := base.rowConn _ row k c foundRow found gen
      obtain ⟨ref, loop, _, _, phase, _⟩ := handling.only inv found (pool.symm.trans selected.1)
        (worker.symm.trans selected.2.1)
      rw [← ref] at phase
      exact .inr (.inr ⟨loop, by rw [phase]; simp, fun n => by rw [phase]; simp⟩)
    · have kept : Live turnID c.ref.gen middle :=
        ⟨⟨row, fenceWhere_keeps fenced foundRow selected, active, gen⟩, fun finished =>
          unfinished (finished.of_new step.trace (by simp))⟩
      exact .inl (kept.observe rfl)
  · subst same
    have taken : RowInactive a.turnID middle := fenceWhere_returned fenced
    exact taken

theorem fenceOldGeneration_credit (handling : Handling t w (Opening true) s) :
    Along baseRules creditLayer t (fenceOldGeneration w none)
    (fun _ s => Handling t w (Opening true) s) s := by
  refine (reconnectFence_credit handling).andThen fun answer s fenced => ?_
  split
  · refine (commitTurnTerminal_doomed opening_local fenced.1
      (.inr (fenced.2 _ rfl))).andThen fun answer s handling => ?_
    split <;> exact handling
  · exact fenced.1
  · exact fenced.1

theorem work_credit {id : Identity} {hello : Hello} :
    Runs baseRules creditLayer t (work t id hello) s := by
  unfold work
  split
  · trivial
  split
  · trivial
  refine (Local.true t).along_bind trivial query_harmless fun answer s _ => ?_
  split
  · trivial
  refine register_credit.andThen fun w s handling => ?_
  refine (add_credit handling).andThen fun old s added => ?_
  obtain ⟨rfl, handling⟩ := added
  refine (fenceOldGeneration_credit handling).andThen fun answer s handling => ?_
  split
  · exact teardown_credit handling.held
  refine opening_local.along_bind handling (send_harmless trivial) fun answer s handling => ?_
  split
  · exact teardown_credit handling.held
  refine opening_local.along_bind handling ?_ fun _ s handling => ?_
  · refine .bind query_harmless fun answer => ?_
    split
    · exact .done _
    · exact .bind (watermark_harmless _ _) fun _ => .done _
  · obtain ⟨c, found, ref, loop, closed, registered, phase, spent⟩ := handling
    exact setLoop_waiting ⟨c, found, ref, loop, closed, registered, fun _ => spent,
      fun notFresh => absurd phase notFresh⟩

variable {turnID : TurnID}

/-! ### Cancelling a turn -/

theorem cancelFence_credit {gen : Nat} :
    Along baseRules creditLayer t (store (.fence (.cancel turnID) poolID workerID gen) fun input s =>
      s.fenceWorkerGenerationIf poolID workerID gen input.pick)
      (fun answer s => ∀ a, answer = .ok a → Finished turnID s) s := by
  refine along_action fun s₁ _ _ _ _ input answer s₂ admitted ran _ grows => ?_
  rw [call_went admitted.1] at ran
  have ran := some.inj ran
  have step := fenceWhere_step ran
  have finds := admitted.2
  refine ⟨.of_unmoved (.of_store step (by simp)) (.of_store step (by simp)
    fun k c turn found live => ?_), fun a same => ?_⟩
  · obtain ⟨⟨row, foundRow, active, _⟩, unfinished⟩ := live
    refine .inl ⟨row, fenceWhere_keeps ran foundRow fun selected => unfinished ?_, active⟩
    rw [← find_key foundRow]
    exact (finds row (find_mem foundRow) selected).1
  · subst same
    rcases fenceWhere_cases ran with ⟨missed, _⟩ | ⟨row, _, foundRow, selected, _⟩
    · cases missed
    · exact (finds row (find_mem foundRow) selected).2.grows grows

theorem cancelTurn_credit (turnID : TurnID) :
    Runs baseRules creditLayer t (cancelTurn turnID) s := by
  refine Along.bind (along_action fun s₁ _ _ _ _ input answer s₂ _ ran _ _ => ?_)
  obtain ⟨rfl, row⟩ := resolved_found ran
  refine ⟨.refl t _, ?_⟩
  split
  · trivial
  rename_i a
  refine (Local.true t).along_bind trivial (.bind read_harmless fun found => ?_) fun _ s _ => ?_
  · split
    · exact .done _
    · exact .bind (send_harmless trivial) fun _ => .done _
  · refine cancelFence_credit.andThen fun answer s finished => ?_
    split
    · trivial
    have doomed : Doomed a.turnID s := .inl (by rw [find_key (row a rfl)]; exact finished _ rfl)
    exact (commitTurnTerminal_doomed (Local.true t) trivial doomed).andThen fun _ _ _ => trivial

/-! ### The dispatcher -/

/-- The dispatcher `t` reserved the connection for the turn, which is live once it is `made`, or the
connection is lost. -/
def Pledged (t : Nat) (w : ConnRef) (turnID : TurnID) (made : Bool) (s : State) : Prop :=
  ∃ c, s.conns.find w.id = some c ∧ c.ref = w ∧ (c.closed = true ∨
    (c.reservedBy = some t ∧ c.activeTurn = turnID ∧ s.phase .handler w = .armed ∧
      (made = true → Live turnID w.gen s)))

variable {made : Bool}

theorem Pledged.rely (named : turnID ≠ "") (pledged : Pledged t w turnID made s)
    (moved : CreditRely t s s') : Pledged t w turnID made s' := by
  obtain ⟨c, found, ref, pledge⟩ := pledged
  obtain ⟨c', found', kept⟩ := moved _ c found
  refine ⟨c', found', kept.ref.trans ref, ?_⟩
  rcases pledge with closed | ⟨by_, turn, armed, live⟩
  · exact .inl (kept.closed closed)
  rcases kept.reserved ⟨by_, turn ▸ named, ref ▸ armed⟩ with closed | ⟨by', turn', armed', live'⟩
  · exact .inl closed
  · rw [turn, ref] at live'
    exact .inr ⟨by'.trans by_, turn'.trans turn, ref ▸ armed', live' ∘ live⟩

theorem pledged_local (named : turnID ≠ "") : Local t (Pledged t w turnID false) where
  rely := fun _ moved pledged => pledged.rely named moved
  unmoved := by
    rintro s s' unmoved _ ⟨c, found, ref, pledged⟩
    refine ⟨c, unmoved.conns ▸ found, ref, ?_⟩
    rw [unmoved.phase]
    exact pledged.imp id fun ⟨by_, turn, armed, _⟩ => ⟨by_, turn, armed, nofun⟩

theorem reserve_credit :
    Along baseRules creditLayer t (reserving poolID turnID t)
    (fun answer s => ∀ w, answer = some w → Pledged t w turnID false s) s := by
  refine along_action fun s₁ _ _ _ inv input answer s₂ _ ran _ _ => ?_
  rcases reserve_cases (some.inj ran) with _ | ⟨c, found, registered, _, usable⟩
  · exact ⟨.refl t _, fun _ same => by cases same⟩
  have obeys := inv.conn _ c found
  obtain ⟨⟨open_, _, credit, free⟩, consumed⟩ := consumed usable t
  have armed := (obeys.credit credit).1
  refine ⟨.logs found rfl ?_ (fun _ _ _ => rfl) (fun _ => rfl) (fun _ _ same => by cases same), fun w same => ?_⟩
  · rw [consumed]
    refine ⟨fun obeys => ⟨obeys.view, obeys.legal, fun waiting => ?_, fun advertised => ?_⟩,
      fun closed => closed, fun other _ held => ?_, fun other _ reserved => absurd free reserved.2.1⟩
    · have rest := obeys.waiting waiting
      exact ⟨rest.closed, rest.registered, fun unassigned => absurd unassigned
        (by rw [armed]; simp [Phase.Unassigned]), rest.observed⟩
    · cases advertised
    · exact ⟨rfl, rfl, rfl, id, .inl rfl, fun spent _ => absurd (credit.symm.trans spent) (by simp)⟩
  · cases same
    have after : (s₁.modifyConn c.ref (·.consuming turnID t) (consuming_ref turnID t)).conns.find
        c.ref.id = some _ := modifyConn_find found
    refine ⟨_, after, consuming_ref turnID t c, .inr ?_⟩
    rw [consumed]
    exact ⟨rfl, rfl, armed, fun same => by cases same⟩

/-- **The assignment's row**: the turn had none, so it is live. -/
theorem createAssignment_credit {a : Assignment} (row : a.turnID = turn.id)
    (gen : a.fencingGeneration = w.gen) (active : a.state = .active) (named : turn.id ≠ "")
    (pledged : Pledged t w turn.id false s) :
    Along baseRules creditLayer t (createTx w a) (fun answer s => Pledged t w turn.id false s ∧
      (answer = .ok () → Pledged t w turn.id true s)) s := by
  refine along_action fun s₁ moved moved' base _ input answer s₂ admitted ran _ grows => ?_
  have known := pledged_local (t := t) (w := w) named
  have pledged := known.rely moved moved' pledged
  rw [call_went admitted.1] at ran
  rcases createAssignmentFor_cases (some.inj ran) with
    ⟨err, rfl, rfl⟩ | ⟨rows, rfl, inserted, rfl⟩
  · exact ⟨.refl t _, pledged, fun same => by cases same⟩
  have after := find_insert inserted
  have fresh : s₁.assignments.find turn.id = none := row ▸ insert_fresh inserted
  have unmoved : Unmoved s₁ (({ s₁ with assignments := rows }.observe (.assigned a)).observe
      (.holds w a.turnID ((s₁.conns.find w.id).bind reservedBy))) :=
    @Unmoved.of_new [_, _] _ _ rfl rfl (by simp [Obs.Idle])
  refine ⟨.of_unmoved unmoved (.of_live fun {turnID gen} live => ?_),
    known.unmoved unmoved grows pledged, fun _ => ?_⟩
  · have kept : Live turnID gen { s₁ with assignments := rows } := by
      obtain ⟨⟨b, found, active, same⟩, unfinished⟩ := live
      refine ⟨⟨b, ?_, active, same⟩, unfinished⟩
      rw [after, if_neg, found]
      rintro rfl
      rw [row, fresh] at found
      cases found
    exact (kept.observe rfl).observe rfl
  · obtain ⟨c, found, ref, closed | ⟨by_, turnID, armed, _⟩⟩ := pledged
    · exact ⟨c, found, ref, .inl closed⟩
    · refine ⟨c, found, ref, .inr ⟨by_, turnID, armed, fun _ => ?_⟩⟩
      have live : Live turn.id w.gen { s₁ with assignments := rows } := by
        refine ⟨⟨a, (after _).trans (if_pos row), active, gen⟩, fun finished => ?_⟩
        obtain ⟨o, member, finishes⟩ := finished
        -- an outcome of the turn was appended to a row of it, and it had none
        cases o with
        | appended w' te =>
          obtain ⟨row, foundRow, _⟩ := base.traceRows _ member
          rw [show te.turnID = turn.id from (of_decide_eq_true finishes).1, fresh] at foundRow
          cases foundRow
        | _ => cases finishes
      exact (live.observe rfl).observe rfl

/-- **AssignTurn** reaches the worker that waits for it, or the connection is lost. -/
theorem sendAssign_credit (named : turnID ≠ "") (pledged : Pledged t w turnID true s) :
    Along baseRules creditLayer t (send w (.assignTurn turnID))
    (fun answer s => ∀ err, answer = .error err → Lost w s) s := by
  refine along_action fun s₁ _ moved' _ inv input answer s₂ admitted ran _ _ => ?_
  obtain ⟨c, found, ref, pledge⟩ := pledged.rely named moved'
  obtain ⟨c', found', ⟨closed, rfl, _⟩ | ⟨open_, rfl, went⟩⟩ := send_cases ran
  · cases found.symm.trans found'
    exact ⟨.refl t _, fun err _ => ⟨c, found, ref, closed⟩⟩
  cases found.symm.trans found'
  rcases pledge with closed | ⟨by_, turn, armed, live⟩
  · cases open_.symm.trans closed
  have told : (s₁.phase .handler w).told (.assignTurn turnID) = .running turnID 0 := by
    rw [armed]
    rfl
  have busy : c.activeTurn ≠ "" := turn ▸ named
  refine ⟨.send found ref armed (fun _ rest => ?_) (fun _ free => absurd free busy)
    (fun other _ _ => ?_) (fun other different reserved => ?_) (fun turnID' n goes => ?_),
    fun err same => ?_⟩
  · rw [told]
    exact ⟨rest.closed, rest.registered, fun unassigned => absurd unassigned running_assigned,
      fun _ => rest.observed (by rw [armed]; simp)⟩
  · exact ⟨rfl, rfl, rfl, id, .inr ⟨armed, turnID, told⟩, fun _ free => absurd free busy⟩
  · cases by_.symm.trans reserved.1
    exact absurd rfl different
  · rw [told] at goes
    cases goes
    exact .inr (live rfl)
  · rw [went admitted.2] at same
    cases same

theorem releaseLost_credit (lost : Lost w s) :
    Runs baseRules creditLayer t (locally (fun _ s => ((), s.restore w turnID true)) label) s := by
  refine along_logs (Lost.local t w) lost (fun _ => ⟨trivial, fun _ => rfl⟩) fun {s} inv lost => ?_
  obtain ⟨c, found, ref, closed⟩ := lost
  refine ⟨c, found, ref, ⟨fun obeys => ⟨obeys.view, obeys.legal, fun waiting => ?_, fun advertised =>
    ⟨(obeys.credit advertised).1, rfl⟩⟩, fun closed => closed, fun other _ _ => ?_,
    fun _ _ _ => .inl closed⟩, trivial⟩
  · rw [(obeys.waiting waiting).closed] at closed
    cases closed
  · exact ⟨rfl, rfl, rfl, id, .inl rfl, fun credit _ => ⟨credit, rfl, rfl⟩⟩

theorem restoreCredit_credit (named : turnID ≠ "") (pledged : Pledged t w turnID false s) :
    Runs baseRules creditLayer t (locally (fun _ s => ((), s.restore w turnID false)) label) s := by
  refine along_logs (pledged_local named) pledged (fun _ => ⟨trivial, fun _ => rfl⟩)
    fun {s} inv pledged => ?_
  obtain ⟨c, found, ref, pledge⟩ := pledged
  refine ⟨c, found, ref, ?_, trivial⟩
  simp only [releaseAssignmentFailure, Bool.false_eq_true, if_false]
  unfold restoreCreditAfterPreDeliveryFailure
  split
  · exact .refl c fun _ => rfl
  rename_i holding
  rw [not_or, not_not] at holding
  rcases pledge with closed | ⟨by_, turn, armed, _⟩
  · exact absurd closed holding.1
  have busy : c.activeTurn ≠ "" := turn ▸ named
  refine ⟨fun obeys => ⟨obeys.view, obeys.legal, fun waiting => ?_, fun _ => ⟨armed, rfl⟩⟩,
    fun closed => closed, fun other _ _ => ⟨rfl, rfl, rfl, id, .inl rfl, fun _ free => absurd free busy⟩,
    fun other different reserved => ?_⟩
  · have rest := obeys.waiting waiting
    exact ⟨rest.closed, rest.registered, fun unassigned => absurd unassigned
      (by rw [armed]; simp [Phase.Unassigned]), rest.observed⟩
  · cases by_.symm.trans reserved.1
    exact absurd rfl different

def creditOutline (named : turn.id ≠ "") (t : Nat) (poolID : PoolID) :
    DispatchOutline baseRules creditLayer t turn poolID where
  reserved w := Pledged t w turn.id false
  made w := Pledged t w turn.id true
  tried := Lost
  fenced := Lost
  reserve := reserve_credit
  check := fun pledged => (pledged_local named).along pledged query_harmless
  create := fun pledged => (createAssignment_credit rfl rfl rfl named pledged).mono
    fun _ _ made => ⟨made.2, fun _ _ => made.1⟩
  send := sendAssign_credit named
  fence := fenceAndTerminalize_lost (Lost.local t _) (fun lost => lost) .sendFailed poolID
  giveBack := restoreCredit_credit named
  giveUp := releaseLost_credit

theorem dispatchRun_credit (runID : RunID) :
    Runs baseRules creditLayer t (dispatchRun t runID) s := by
  refine Along.bind (along_action fun s₁ _ _ base _ input answer s₂ admitted ran _ _ => ?_)
  have prepared : CreditStep t s₁ s₂ ∧ ∀ turn, answer = .ok turn → turn.id ≠ "" := by
    rw [call_went admitted.1] at ran
    have ran := some.inj ran
    have step := prepareTurn_step ran
    refine ⟨.of_unmoved (.of_store step (by simp)) (.of_rows step (by simp) (prepareTurn_rows ran)),
      fun turn same => ?_⟩
    subst same
    exact prepareTurn_named base ran
  refine ⟨prepared.1, ?_⟩
  split
  · trivial
  rename_i turn
  exact DispatchOutline.along (creditOutline (prepared.2 turn rfl) t)
    ((Local.true t).along trivial query_harmless)

theorem syncWorkspaceCapacityState_credit :
    Runs baseRules creditLayer t syncWorkspaceCapacityState s := by
  refine (Local.true t).along trivial (.bind query_harmless fun answer => ?_)
  split
  · exact .done _
  refine .atomic fun _ _ _ _ ran => ?_
  cases ran
  exact ⟨@Unmoved.of_new [] _ _ rfl rfl (by simp), .of_live fun live => live⟩

/-! ### The system -/

theorem enqueue_credit (inv : CreditInv s) (found : s.conns.find c.ref.id = some c)
    (allowed : (s.phase .worker c.ref).Allows msg) : CreditStep t s (s.enqueue c.ref msg) := by
  have worker : ∀ {q}, Phase.see .worker c.ref (.worker c.ref msg) q = q.after msg := if_pos ⟨rfl, rfl⟩
  have handler : ∀ {q}, Phase.see .handler c.ref (.worker c.ref msg) q = q := by simp [Phase.see]
  have obeys := inv.conn _ c found
  refine .at found rfl (modifyConn_lookup (fun c => { c with inbox := c.inbox ++ [msg] }) fun _ => rfl)
    (fun _ => rfl) rfl rfl (fun _ _ _ other => if_neg fun same => other same.2.symm) (fun _ => rfl)
    (fun _ _ same => by cases same) ⟨fun _ => ?_, id, fun _ _ _ => ?_, fun _ _ reserved => ?_⟩
    fun turnID n running => .inl ⟨n, handler.symm.trans running⟩
  · rw [worker, handler]
    refine ⟨by rw [obeys.view, List.foldl_append]; rfl, obeys.legal.append (obeys.view ▸ allowed),
      fun waiting => ?_, obeys.credit⟩
    have rest := obeys.waiting waiting
    exact ⟨rest.closed, rest.registered, rest.spent, rest.observed⟩
  · exact ⟨rfl, rfl, rfl, id, .inl handler, fun credit turn => ⟨credit, turn, handler⟩⟩
  · exact .inr ⟨rfl, rfl, handler.trans reserved.2.2⟩

theorem take_credit {rest : List WorkerMessage} (inv : CreditInv s)
    (found : s.conns.find c.ref.id = some c) (waiting : c.loop = .waiting)
    (next : c.inbox = msg :: rest) :
    CreditStep t s ((s.hold c.ref t rest).observe (.taken c.ref msg))
    ∧ Took t c.ref msg ((s.hold c.ref t rest).observe (.taken c.ref msg)) := by
  have obeys := inv.conn _ c found
  have quiet := obeys.waiting waiting
  have view := obeys.view
  have legal := obeys.legal
  rw [next] at view legal
  have handled : ∀ {q}, Phase.see .handler c.ref (.taken c.ref msg) q = q.after msg :=
    if_pos ⟨rfl, rfl⟩
  have worker : ∀ {q}, Phase.see .worker c.ref (.taken c.ref msg) q = q := by simp [Phase.see]
  have handler : ((s.hold c.ref t rest).observe (.taken c.ref msg)).phase .handler c.ref =
      (s.phase .handler c.ref).after msg := handled
  have after : (s.hold c.ref t rest).conns.find c.ref.id =
      some { c with loop := .held t, inbox := rest } := modifyConn_find found
  constructor
  · refine .at found rfl (modifyConn_lookup (fun c => { c with loop := .held t, inbox := rest }) fun _ => rfl)
      (fun _ => rfl) rfl rfl (fun _ _ _ other => if_neg fun same => other same.2.symm) (fun _ => rfl)
      (fun _ _ same => by cases same) ⟨fun _ => ?_, id, fun other _ held => ?_, fun _ _ reserved => ?_⟩
      fun turnID n running => .inl (Phase.after_running (handled.symm.trans running))
    · rw [worker, handled]
      refine ⟨view, legal.2, fun still => (by cases still), fun advertised => ?_⟩
      obtain ⟨armed, turn⟩ := obeys.credit advertised
      rw [armed] at legal ⊢
      exact ⟨legal.1.armed, turn⟩
    · rw [waiting] at held
      cases held
    · refine .inr ⟨rfl, rfl, ?_⟩
      have armed := reserved.2.2
      rw [handled, armed]
      rw [armed] at legal
      exact legal.1.armed
  · have allowed := legal.1
    have rested : (s.phase .handler c.ref).after msg = s.phase .handler c.ref →
        Handling t c.ref (fun q c => c.AtRest q)
          ((s.hold c.ref t rest).observe (.taken c.ref msg)) := by
      intro still
      refine ⟨_, after, rfl, rfl, ?_⟩
      rw [handler, still]
      exact ⟨quiet.closed, quiet.registered, quiet.spent, quiet.observed⟩
    cases msg with
    | ready =>
      have observed : s.phase .handler c.ref = .observed := allowed
      refine ⟨_, after, rfl, rfl, quiet.closed, quiet.registered, quiet.observed (by rw [observed]; simp),
        ?_, quiet.spent (.inr observed)⟩
      rw [handler, observed]
      rfl
    | workspaceStatus status =>
      refine ⟨_, after, rfl, rfl, quiet.closed, quiet.registered, fun unassigned => ?_⟩
      rw [handler] at unassigned
      exact quiet.spent (Phase.after_status unassigned)
    | turnEvent te =>
      -- only a worker that runs the event's turn sends it
      obtain ⟨n, running⟩ : ∃ n, s.phase .handler c.ref = .running te.turnID n := by
        cases phase : s.phase .handler c.ref with
        | running turnID n =>
          rw [phase] at allowed
          exact ⟨n, by rw [allowed.1]⟩
        | _ =>
          rw [phase] at allowed
          cases allowed
      have observed := quiet.observed (by rw [running]; simp)
      by_cases outcome : te.kind.outcome.isSome
      · simp only [Took, if_pos outcome]
        have live : Live te.turnID c.ref.gen (s.hold c.ref t rest) :=
          inv.live _ c _ n found quiet.closed running
        refine ⟨⟨_, after, rfl, rfl, quiet.closed, quiet.registered, observed, ?_⟩, live.observe rfl⟩
        rw [handler, running]
        exact if_pos outcome
      · simp only [Took, if_neg outcome]
        refine ⟨_, after, rfl, rfl, quiet.closed, quiet.registered, observed, ?_⟩
        rw [handler, running]
        exact if_neg outcome
    | heartbeat => exact rested (by cases s.phase .handler c.ref <;> rfl)
    | tokenDelta => exact rested (by cases s.phase .handler c.ref <;> rfl)

theorem hold_credit (found : s.conns.find c.ref.id = some c)
    (waiting : c.loop = .waiting) : CreditStep t s (s.hold c.ref t c.inbox) := by
  refine .modifyOne found rfl ⟨fun obeys => ⟨obeys.view, obeys.legal, nofun, obeys.credit⟩,
    fun closed => closed, fun other _ held => ?_, fun _ _ reserved => .inr ⟨rfl, rfl, reserved.2.2⟩⟩
  rw [waiting] at held
  cases held

/-- **The one-credit protocol holds in every run of compliant workers.** -/
theorem creditLayer_proved : service.Proved baseRules creditLayer where
  sound := service_sound
  start := by
    intro request t s s' p base inv admitted started _
    have still : creditLayer.Step t s s := .refl inv t
    refine startRequest_cases
      (P := fun request s' p => CompliantRequest request s → creditLayer.Step t s s' ∧
        Runs baseRules creditLayer t p s')
      started (fun _ _ _ => ⟨still, work_credit⟩)
      (fun c msg found allowed => ⟨(enqueue_credit inv found (allowed c found)).keeps inv, trivial⟩)
      (fun c msg rest found waiting next _ => ?_) (fun c found waiting _ => ?_)
      (fun turnID _ => ⟨still, cancelTurn_credit turnID⟩) (fun _ _ expired => expired.elim)
      (fun runID _ => ⟨still, dispatchRun_credit runID⟩)
      (fun _ => ⟨still, syncWorkspaceCapacityState_credit⟩)
      (fun _ _ _ => ⟨CreditStep.keeps (.of_unmoved (.of_store (show StoreStep _ _ [] from {})
        (by simp)) (.of_live fun live => live)) inv, trivial⟩) admitted
    · obtain ⟨step, took⟩ := take_credit (t := t) inv found waiting next
      exact ⟨step.keeps inv, serve_credit took⟩
    · exact ⟨(hold_credit found waiting).keeps inv,
        teardown_credit (hold_step (t := t) c.inbox found waiting).2⟩
  restart := by
    intro s _ inv _ _
    have gone : ∀ {k c}, (restartService s).conns.find k = some c → False := fun found => by
      cases found
    exact ⟨fun _ _ found => (gone found).elim, fun _ _ _ _ found => (gone found).elim,
      fun _ _ _ _ found => (gone found).elim, inv.valid⟩

theorem State.Initial.credit (initial : s.Initial) : CreditInv s := by
  have none : ∀ {k c}, s.conns.find k = some c → False := fun found => by
    rw [initial.conns, find_empty] at found
    cases found
  refine ⟨fun _ _ found => (none found).elim, fun _ _ _ _ found => (none found).elim,
    fun _ _ _ _ found => (none found).elim, fun _ _ member => ?_⟩
  rw [initial.trace] at member
  cases member

/-! ### Compliant workers -/

/-- **Every Ready of a compliant worker is valid**, where store calls succeed, no lease expires, each worker
opens one stream, `CancelTurn` fences no turn whose WorkerOutcome is not appended yet, and every `Send`
succeeds. -/
theorem ready_granted {s₀ : State} {c : Config Label Input State} {w : ConnRef} {valid : Bool}
    (initial : s₀.Initial) (reached : service.Reaches creditGuard s₀ c)
    (answered : .readyAnswered w valid ∈ c.shared.trace) : valid = true :=
  (creditLayer_proved.invariant initial.base initial.credit reached).2.valid w valid answered

/-- A worker that finishes a turn gets its next Ready granted, and is granted both. -/
theorem ready_granted_again : ∃ c, service.Reaches creditGuard onePool c ∧
    2 ≤ c.shared.trace.count (.readyAnswered firstConn true) ∧
    ∀ w valid, .readyAnswered w valid ∈ c.shared.trace → valid = true := by
  refine reach_of_replay_and (assignTurn plainTurn ++
    deliver 6 (.turnEvent ⟨"t", 1, .workerOutcome .completed⟩) 11 ++ deliver 8 .ready 2)
    (by decide +kernel) fun reached _ w valid answered => ?_
  exact ready_granted onePool_initial reached answered

/-- **A compliant worker is rejected after a cancelled turn.** It ends the turn with an outcome, which is
audited after the fact and ACKed, but the connection still holds the turn, so the next Ready is a protocol
violation. -/
theorem ready_not_always_granted : ¬ ∀ (s₀ : State) (c : Config Label Input State), s₀.Initial →
    service.Reaches compliantGuard s₀ c → ∀ w valid, .readyAnswered w valid ∈ c.shared.trace →
      valid = true := by
  intro claim
  obtain ⟨c, reached, rejected⟩ := service.reaches_of_replay compliantGuard onePool
    (assignTurn plainTurn ++ .start (.cancelTurn "t") :: steps 6 7 ++
      deliver 7 (.turnEvent ⟨"t", 1, .workerOutcome .aborted⟩) 4 ++ deliver 9 .ready 1)
    (fun s => .readyAnswered firstConn false ∈ s.trace)
    (by decide +kernel)
  cases claim onePool c onePool_initial reached firstConn false rejected

end Iterabase.Dispatch
