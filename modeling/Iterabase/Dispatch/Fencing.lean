/-
**Durable dispatch — reconnect fencing.**

A worker that reconnects is welcomed only after the fence of its older generations. The fence and the
settlement of the turn it took are two transactions, and the fence returns one row at most, so the
welcome settles what the fence returns and nothing else.

* `welcome_fenced` — **under that condition a welcomed worker has no older turn running.**
-/

import Iterabase.Dispatch.Watch

namespace Iterabase.Dispatch

open Conc List State Along

/-! ### Settled turns -/

def TurnSettled (turnID : TurnID) (s : State) : Prop :=
  ∃ u, s.turns.find turnID = some u ∧ u.state ≠ .running

instance (turnID : TurnID) (s : State) : Decidable (TurnSettled turnID s) :=
  decidable_of_iff ((s.turns.find turnID).any fun u => decide (u.state ≠ .running)) (by
    simp [TurnSettled, Option.any_eq_true])

variable {s : State}

variable {s' : State} {turnID : TurnID} {reason : Reason} {earlier : List Obs}

theorem TurnSettled.durable (settled : TurnSettled turnID s) (durable : Durable s s') :
    TurnSettled turnID s' := by
  obtain ⟨u, found, stopped⟩ := settled
  obtain ⟨u', found', becomes⟩ := durable.turns _ u found
  exact ⟨u', found', by rwa [becomes.settled stopped]⟩

theorem settle_settles {isGraph : Bool} {advance : Option RunState} {answer : Except Err RunState}
    (ran : s.settle isGraph turnID reason advance = (answer, s'))
    (final : ∀ err, answer = .error err → err = .invalidTransition) : TurnSettled turnID s' := by
  rcases settle_cases ran with
    ⟨err, rfl, rfl, before⟩ | ⟨_, turn, target, _, found, running, stopped, _, same⟩
  · exact before (final err rfl)
  have after := (settled_step found running same).2.2 turnID turn found
  rw [if_pos rfl] at after
  exact ⟨_, after, stopped⟩

/-! ### The layer -/

def Obs.IsOpening (o : Obs) : Prop :=
  (∃ w, o = .fencedFor w) ∨ ∃ w gen answers, o = .sent w (.welcome gen) answers

theorem isOpening_owned (o : Obs) (isOpening : o.IsOpening) : o.owner.isSome := by
  rcases isOpening with ⟨w, rfl⟩ | ⟨w, gen, answers, rfl⟩ <;> rfl

/-- What the reconnect fence of `w` finds: each turn that the worker holds under an older generation
is settled, or the fence returns its row. -/
def FenceFinds (w : ConnRef) (pick : Nat) (s : State) : Prop :=
  ∀ b ∈ s.assignments.rows, b.poolID = w.poolID ∧ b.workerID = w.workerID ∧
    b.fencingGeneration < w.gen → TurnSettled b.turnID s ∨
      let hit := s.assignments.rows.filter (State.activeFor w.poolID w.workerID)
      hit[pick % hit.length]? = some b

instance (w : ConnRef) (pick : Nat) (s : State) : Decidable (FenceFinds w pick s) := by
  unfold FenceFinds
  infer_instance

/-- A reconnect fence finds all older turns settled, or returns their row. -/
def FenceReady (label : Label) (input : Input) (s : State) : Prop :=
  match label with
  | .reconnectFence w => FenceFinds w input.pick s
  | _ => True

instance (label : Label) (input : Input) (s : State) : Decidable (FenceReady label input s) := by
  induction label using Label.casesOn <;> unfold FenceReady <;> infer_instance

abbrev fencingGuard : System.Guard Label Input Request State := .onActions FenceReady

/-- The turns assigned to the worker of `w` in `earlier`, under an older generation, are done. -/
def OlderDone (w : ConnRef) (earlier : List Obs) (s : State) : Prop :=
  ∀ a, .assigned a ∈ earlier → a.poolID = w.poolID → a.workerID = w.workerID →
    a.fencingGeneration < w.gen → TurnSettled a.turnID s ∧ RowInactive a.turnID s

variable {w : ConnRef}

theorem OlderDone.durable (done : OlderDone w earlier s) (durable : Durable s s') :
    OlderDone w earlier s' :=
  fun a assigned pool worker older =>
    have ⟨settled, inactive⟩ := done a assigned pool worker older
    ⟨settled.durable durable, inactive.durable durable⟩

/-- The connection's fence ran, and what it was to fence is done. -/
def Fenced (w : ConnRef) (s : State) : Prop :=
  ∃ earlier, (.fencedFor w :: earlier) <:+ s.trace ∧ OlderDone w earlier s

theorem Fenced.durable (fenced : Fenced w s) (durable : Durable s s') : Fenced w s' := by
  obtain ⟨earlier, suffix, done⟩ := fenced
  exact ⟨earlier, suffix.trans durable.trace, done.durable durable⟩

/-- A connection is fenced once, and welcomed after its fence has done its work. -/
structure WelcomesFenced (s : State) : Prop where
  once : ∀ w earlier, (.fencedFor w :: earlier) <:+ s.trace → .fencedFor w ∉ earlier
  welcomed : ∀ w gen answers, .sent w (.welcome gen) answers ∈ s.trace → gen = w.gen ∧ Fenced w s

def fencingLayer : Layer Label Input Request State :=
  { inv := WelcomesFenced, guard := fencingGuard }

theorem fencingLayer_watched : Watched fencingLayer Obs.IsOpening where
  kept := by
    intro s s' _ durable silent inv
    refine ⟨fun w earlier suffix => inv.once w earlier (silent.suffix (.inl ⟨w, rfl⟩) suffix),
      fun w gen answers member => ?_⟩
    obtain ⟨named, fenced⟩ :=
      inv.welcomed w gen answers (silent.member (.inr ⟨w, gen, answers, rfl⟩) member)
    exact ⟨named, fenced.durable durable⟩

section Programs

variable {t : Nat} {w : ConnRef} {s s' : State}

/-- **A terminalization that succeeds leaves its turn settled.** -/
theorem commitTurnTerminal_settles {L : Layer Label Input Request State} {watched : Obs → Prop}
    (watch : Watched L watched) (owned : ∀ o, watched o → o.owner.isSome) {K : State → Prop}
    (stable : ∀ {s s'}, Grows s s' → K s → K s') {a : Assignment} (start : K s) :
    Along baseRules L t (commitTurnTerminal a reason)
    (fun answer s => K s ∧ ∀ runState, answer = .ok runState → TurnSettled a.turnID s) s := by
  have background := background_silent owned
  have stable' : ∀ {s s'}, Grows s s' → K s ∧ TurnSettled a.turnID s →
      K s' ∧ TurnSettled a.turnID s' := fun grows kept =>
    ⟨stable grows kept.1, kept.2.durable grows.toDurable⟩
  refine watch.along_bind stable start background.query fun answer s kept => ?_
  cases answer with
  | error err => exact ⟨kept, nofun⟩
  | ok isGraph =>
    refine bind (watch.atomic fun s₁ moved _ inv input answer s₂ _ ran base' moves => ?_)
    have settles : (store (.settle a.turnID reason) fun input s =>
        s.settle isGraph a.turnID reason input.advance).All (Silently watched) := background.settle
    have kept := stable moves (stable moved.toGrows kept)
    refine ⟨watch.kept base' moves.toDurable (settles.1 ran) inv, ?_⟩
    -- the settlement went through, or found the turn settled: then its row is terminalized
    have settled : (∀ err, answer = .error err → err = .invalidTransition) →
        TurnSettled a.turnID s₂ := by
      intro final
      rcases call_answer ran with rfl | ⟨ran, _⟩
      · exact absurd (final _ rfl) (by simp)
      · exact settle_settles ran final
    split
    · refine watch.along_bind stable' ⟨kept, settled nofun⟩
        background.terminalize fun answer s kept => ?_
      split
      · exact ⟨kept.1, nofun⟩
      · exact ⟨kept.1, fun _ _ => kept.2⟩
    · refine watch.along_bind stable' ⟨kept, settled fun err same => by cases same; rfl⟩
        background.terminalize fun answer s kept => ?_
      split
      · exact ⟨kept.1, nofun⟩
      · exact ⟨kept.1, fun _ _ => kept.2⟩
    · exact ⟨kept, nofun⟩

/-- After the fence: what it was to fence is done, but for the turn of the row it returned. -/
def HalfFenced (w : ConnRef) (returned : Option TurnID) (s : State) : Prop :=
  ∃ earlier, (.fencedFor w :: earlier) <:+ s.trace ∧
    ∀ a, .assigned a ∈ earlier → a.poolID = w.poolID → a.workerID = w.workerID →
      a.fencingGeneration < w.gen →
        (TurnSettled a.turnID s ∨ returned = some a.turnID) ∧ RowInactive a.turnID s

variable {returned : Option TurnID}

theorem HalfFenced.grows (grows : Grows s s')
    (half : HalfFenced w returned s) : HalfFenced w returned s' := by
  obtain ⟨earlier, suffix, done⟩ := half
  refine ⟨earlier, suffix.trans grows.trace, fun a assigned pool worker older => ?_⟩
  obtain ⟨settled, inactive⟩ := done a assigned pool worker older
  exact ⟨settled.imp_left fun settled => settled.durable grows.toDurable,
    inactive.durable grows.toDurable⟩

theorem HalfFenced.fenced (half : HalfFenced w returned s)
    (settled : ∀ turnID, returned = some turnID → TurnSettled turnID s) : Fenced w s := by
  obtain ⟨earlier, suffix, done⟩ := half
  refine ⟨earlier, suffix, fun a assigned pool worker older => ?_⟩
  obtain ⟨either, inactive⟩ := done a assigned pool worker older
  exact ⟨either.elim id (settled _), inactive⟩

theorem fenceWorkerGeneration_half {pick : Nat} {answer : Except Err Assignment} (base : Base s)
    (finds : FenceFinds w pick s)
    (ran : s.fenceWorkerGeneration w.poolID w.workerID pick = (answer, s')) :
    (answer = .error .notFound ∧ HalfFenced w none (s'.observe (.fencedFor w))) ∨ ∃ a,
    answer = .ok a ∧ HalfFenced w (some a.turnID) (s'.observe (.fencedFor w)) := by
  have step := fenceWhere_step ran
  -- the row of a turn that was assigned before the fence, as the fence finds it
  have row : ∀ {a}, .assigned a ∈ s.trace → a.poolID = w.poolID → a.workerID = w.workerID →
      a.fencingGeneration < w.gen → ∃ b, s.assignments.find a.turnID = some b ∧
        b.poolID = w.poolID ∧ b.workerID = w.workerID ∧ (TurnSettled a.turnID s ∨
          let hit := s.assignments.rows.filter (State.activeFor w.poolID w.workerID)
          hit[pick % hit.length]? = some b) := by
    intro a assigned pool worker older
    obtain ⟨b, found, becomes⟩ := base.traceRows _ assigned
    have pool' := becomes.poolID.trans pool
    have worker' := becomes.workerID.trans worker
    have key : b.turnID = a.turnID := Table.find_key found
    refine ⟨b, found, pool', worker', ?_⟩
    rw [← key]
    exact finds b (Table.find_mem found) ⟨pool', worker', by rwa [becomes.gen]⟩
  have suffix : (.fencedFor w :: s.trace) <:+ (s'.observe (.fencedFor w)).trace := by
    rw [observe, step.trace]
    exact suffix_refl _
  -- no active row of the worker is left
  have shut : ∀ {k b}, s.assignments.find k = some b → b.poolID = w.poolID →
      b.workerID = w.workerID → RowInactive k s' := by
    intro k b found pool worker
    refine fenceWhere_inactive ran found fun active => ?_
    simp [activeFor, pool, worker, active]
  rcases fenceWhere_cases ran with ⟨rfl, rfl, missed⟩ | ⟨r, rfl, _, selected, _⟩
  · refine .inl ⟨rfl, s'.trace, suffix_refl _, fun a assigned pool worker older => ?_⟩
    obtain ⟨b, found, pool', worker', settled | returned⟩ := row assigned pool worker older
    · exact ⟨.inl settled, shut found pool' worker'⟩
    obtain ⟨_, active⟩ := mem_filter.mp (mem_of_getElem? returned)
    rw [missed _ b found] at active
    cases active
  · refine .inr ⟨_, rfl, s.trace, suffix, fun a assigned pool worker older => ?_⟩
    obtain ⟨b, found, pool', worker', settled | returned⟩ := row assigned pool worker older
    · have settled' : TurnSettled a.turnID s' := settled.durable step.durable
      exact ⟨.inl settled', shut found pool' worker'⟩
    refine ⟨.inr ?_, shut found pool' worker'⟩
    unfold fenceWorkerGeneration fenceWhere at ran
    simp only [returned] at ran
    have same := (Prod.mk.inj ran).1
    simp only [Except.ok.injEq] at same
    rw [← Table.find_key found]
    exact congrArg some (congrArg Assignment.turnID same).symm

/-- A connection whose handler is at the fence, and that was not fenced before. -/
def Unfenced (t : Nat) (w : ConnRef) (s : State) : Prop := Held t w s ∧ .fencedFor w ∉ s.trace

theorem Unfenced.rely (unfenced : Unfenced t w s) (moved : Rely t s s') : Unfenced t w s' := by
  refine ⟨unfenced.1.rely moved, fun member => unfenced.2 ?_⟩
  obtain ⟨c, found, ref, loop⟩ := unfenced.1
  exact moved.mine _ c found loop _ member w rfl (by rw [ref])

/-- **The reconnect fence, with the terminalization of what it returned.** -/
theorem fenceOldGeneration_fences {old : Option ConnRef} (unfenced : Unfenced t w s) :
    Along baseRules fencingLayer t (fenceOldGeneration w old)
    (fun answer s => answer = .ok () → Fenced w s) s := by
  have background := background_silent isOpening_owned
  have watch := fencingLayer_watched
  -- closing the prior connection changes nothing the layer looks at
  have closes := background.closeOld old
  have closing : ∀ {p : Program Unit} {answer : Except Err Unit} {K : State → Prop} {s},
      (∀ {s s'}, Grows s s' → K s → K s') → K s → p.All (Silently Obs.IsOpening) →
      (∀ s, K s → answer = .ok () → Fenced w s) → Along baseRules fencingLayer t (p >>= fun _ => pure answer)
        (fun answer s => answer = .ok () → Fenced w s) s :=
    fun stable start closes finish =>
      watch.along_bind stable start closes fun _ s kept => finish s kept
  refine bind (atomic fun s₁ moved base inv input answer s₂ admitted ran base' moves => ?_)
  have unfenced := unfenced.rely moved
  rcases reconnect_cases ran with ⟨rfl, rfl⟩ | ⟨_, middle, fenced, rfl, lost⟩
  · exact ⟨inv, closing (fun _ _ => trivial) trivial closes fun _ _ => nofun⟩
  have step := fenceWhere_step fenced
  have trace : (middle.observe (.fencedFor w)).trace = .fencedFor w :: s₁.trace :=
    congrArg _ step.trace
  have inv' : WelcomesFenced (middle.observe (.fencedFor w)) := by
    refine ⟨fun w' earlier suffix => ?_, fun w' gen answers member => ?_⟩
    · rw [trace] at suffix
      rcases suffix_cons_iff.mp suffix with here | there
      · cases here
        exact unfenced.2
      · exact inv.once w' earlier there
    · rw [trace] at member
      rcases mem_cons.mp member with here | there
      · cases here
      · obtain ⟨named, done⟩ := inv.welcomed w' gen answers there
        exact ⟨named, done.durable moves.toDurable⟩
  refine ⟨inv', ?_⟩
  rcases lost with rfl | rfl
  · exact closing (fun _ _ => trivial) trivial closes fun _ _ => nofun
  rcases fenceWorkerGeneration_half base admitted fenced with ⟨rfl, half⟩ | ⟨a, rfl, half⟩
  · exact closing HalfFenced.grows half closes fun s half _ => half.fenced fun _ same => by cases same
  refine (commitTurnTerminal_settles watch isOpening_owned HalfFenced.grows half).andThen fun answer s settled => ?_
  split
  · exact closing (fun _ _ => trivial) trivial closes fun _ _ => nofun
  have done : Fenced w s := settled.1.fenced fun turnID same => by
    cases same
    exact settled.2 _ rfl
  exact closing (fun grows done => Fenced.durable done grows.toDurable) done closes fun _ done _ => done

theorem register_unfenced {poolID : PoolID} {workerID : WorkerID} (base : Base s)
    (ran : s.register poolID workerID t = some (w, s')) : Unfenced t w s' ∧ s'.trace = s.trace := by
  have held := (register_step base ran).2
  obtain ⟨conns, _, made⟩ := Option.map_eq_some_iff.mp ran
  cases made
  refine ⟨⟨held, fun member => ?_⟩, rfl⟩
  exact Nat.lt_irrefl _ (base.traceNext _ member _ rfl)

theorem work_fences {id : Identity} {hello : Hello} :
    Runs baseRules fencingLayer t (work t id hello) s := by
  have background := background_silent isOpening_owned
  have watch := fencingLayer_watched
  unfold work
  split
  · trivial
  split
  · trivial
  refine watch.along_bind (K := fun _ => True) (fun _ _ => trivial) trivial background.query
    fun answer s _ => ?_
  split
  · trivial
  refine bind (atomic fun s₁ moved base inv input w s₂ _ ran base' moves => ?_)
  obtain ⟨unfenced, trace⟩ := register_unfenced base ran
  refine ⟨watch.kept base' moves.toDurable (.of_eq trace) inv, ?_⟩
  refine bind (atomic fun s₁ moved base inv input old s₂ _ ran base' moves => ?_)
  have unfenced := unfenced.rely moved
  cases ran
  have loops : SameLoops s₁ (s₁.add w).2 := by
    unfold add
    dsimp only
    exact modifyConns_loops fun c => by split <;> rfl
  refine ⟨watch.kept base' moves.toDurable (.of_eq rfl) inv, ?_⟩
  have unfenced' : Unfenced t w (s₁.add w).2 :=
    ⟨(Steady.held t w).own moves loops unfenced.1, unfenced.2⟩
  refine (fenceOldGeneration_fences unfenced').andThen fun answer s fenced => ?_
  split
  · exact watch.along_true (teardown_silent isOpening_owned w)
  refine bind (atomic fun s₁ moved base inv input answer s₂ _ ran base' moves => ?_)
  have fenced := (fenced rfl).durable moved.toDurable
  obtain ⟨c, _, ran⟩ := Option.map_eq_some_iff.mp ran
  have inv' : WelcomesFenced s₂ := by
    split at ran
    · cases ran
      exact inv
    cases ran
    refine ⟨fun w' earlier suffix => ?_, fun w' gen answers member => ?_⟩
    · rcases suffix_cons_iff.mp suffix with here | there
      · cases here
      · exact inv.once w' earlier there
    · rcases mem_cons.mp member with here | there
      · cases here
        exact ⟨rfl, fenced.durable moves.toDurable⟩
      · obtain ⟨named, done⟩ := inv.welcomed w' gen answers there
        exact ⟨named, done.durable moves.toDurable⟩
  refine ⟨inv', ?_⟩
  split
  · exact watch.along_true (teardown_silent isOpening_owned w)
  · exact watch.along_true (.bind (background.ackReconnectWatermark w _ _ background.acks) fun _ =>
      locally_silent fun _ _ => rfl)

theorem handleTurnEvent_openSilent (te : TurnEvent) :
    (handleTurnEvent w te).All (Silently Obs.IsOpening) := by
  have background := background_silent isOpening_owned
  refine handleTurnEvent_all background.toSettling (fun _ => append_silent ?_)
    (fun _ => audit_silent ?_ ?_) (record_does (Internal.silent isOpening_owned)) (send_silent ?_)
    fun _ => background.ends
  all_goals rintro (⟨_, same⟩ | ⟨_, _, _, same⟩) <;> cases same

end Programs

theorem fencingLayer_proved : service.Proved baseRules fencingLayer :=
  fencingLayer_watched.proved isOpening_owned
    (fun _ _ opening => by rcases opening with ⟨_, same⟩ | ⟨_, _, _, same⟩ <;> cases same)
    (fun {_ _ te _} _ => fencingLayer_watched.along_true (handleTurnEvent_openSilent te))
    work_fences

/-! ### Reconnect fencing -/

theorem WelcomesFenced.unique {earlier' : List Obs} (inv : WelcomesFenced s)
    (suffix : (.fencedFor w :: earlier) <:+ s.trace)
    (suffix' : (.fencedFor w :: earlier') <:+ s.trace) : earlier = earlier' := by
  have apart : ∀ {l l' : List Obs}, (.fencedFor w :: l') <:+ s.trace →
      (.fencedFor w :: l) <:+ (.fencedFor w :: l') → l = l' := by
    intro l l' placed nested
    rcases suffix_cons_iff.mp nested with same | inside
    · exact (List.cons.inj same).2
    · exact absurd (inside.subset (.head _)) (inv.once w l' placed)
  rcases suffix_or_suffix_of_suffix suffix suffix' with nested | nested
  · exact apart suffix' nested
  · exact (apart suffix nested).symm

/-- **A welcomed worker has no older turn running.** Where each reconnect fence finds the older turns of its
worker settled or returns their row, a welcomed connection has been fenced, and every turn assigned to its
worker before that fence, under an older generation, is settled and its row is not active. -/
theorem welcome_fenced {s₀ : State} {c : Config Label Input State} {w : ConnRef} {gen : Nat}
    {answers : Option TurnEvent} (initial : s₀.Initial) (reached : service.Reaches fencingGuard s₀ c)
    (welcomed : .sent w (.welcome gen) answers ∈ c.shared.trace) :
    (∃ earlier, (.fencedFor w :: earlier) <:+ c.shared.trace) ∧
      ∀ earlier, (.fencedFor w :: earlier) <:+ c.shared.trace → ∀ a, .assigned a ∈ earlier →
        a.poolID = w.poolID → a.workerID = w.workerID → a.fencingGeneration < gen →
          (∃ u, c.shared.turns.find a.turnID = some u ∧ u.state ≠ .running) ∧
            ∃ b, c.shared.assignments.find a.turnID = some b ∧ b.state ≠ .active := by
  have none : WelcomesFenced s₀ := by
    constructor
    · intro w earlier suffix
      rw [initial.trace] at suffix
      cases suffix_nil.mp suffix
    · intro w gen answers member
      rw [initial.trace] at member
      cases member
  have inv := (fencingLayer_proved.invariant initial.base none reached).2
  obtain ⟨rfl, earlier, suffix, done⟩ := inv.welcomed w gen answers welcomed
  refine ⟨⟨earlier, suffix⟩, fun earlier' suffix' a assigned pool worker older => ?_⟩
  rw [← inv.unique suffix suffix'] at assigned
  exact done a assigned pool worker older

def firstRow : Assignment := ⟨"t", "run", "pool", "w", 1, .active, 0⟩

/-- A worker that loses its stream and comes back is welcomed with its turn settled. -/
theorem welcome_fenced_reconnect : ∃ c, service.Reaches fencingGuard onePool c ∧
    .sent ⟨1, "pool", "w", 2⟩ (.welcome 2) none ∈ c.shared.trace ∧
    ∀ earlier, (.fencedFor ⟨1, "pool", "w", 2⟩ :: earlier) <:+ c.shared.trace →
      .assigned firstRow ∈ earlier →
        ∃ u, c.shared.turns.find "t" = some u ∧ u.state ≠ .running := by
  refine reach_of_replay_and (assignTurn plainTurn ++ connectWorker :: steps 6 9) (by decide +kernel)
    fun reached welcomed earlier suffix assigned => ?_
  exact ((welcome_fenced onePool_initial reached welcomed).2 earlier suffix firstRow assigned rfl rfl
    (by decide)).1

/-- **A half-done fence is not completed by the next one.** The worker reconnects, its fence commits
and the terminalization fails, so it is refused. It tries again: the second fence finds no active row, and
the worker is welcomed while its old turn is running. -/
theorem welcome_not_always_fenced : ¬ ∀ (s₀ : State) (c : Config Label Input State), s₀.Initial →
    service.Reaches .free s₀ c → ∀ w gen answers, .sent w (.welcome gen) answers ∈ c.shared.trace →
      ∀ earlier, (.fencedFor w :: earlier) <:+ c.shared.trace → ∀ a, .assigned a ∈ earlier →
        a.poolID = w.poolID → a.workerID = w.workerID → a.fencingGeneration < gen →
          (∃ u, c.shared.turns.find a.turnID = some u ∧ u.state ≠ .running) ∧
            ∃ b, c.shared.assignments.find a.turnID = some b ∧ b.state ≠ .active := by
  intro claim
  obtain ⟨c, reached, welcomed, fenced, assigned, running⟩ := service.reaches_of_replay .free onePool
    (assignTurn plainTurn ++ connectWorker :: steps 6 4 ++ .run 6 { fail := true } :: steps 6 5 ++
      connectWorker :: steps 7 5)
    (fun s => .sent ⟨2, "pool", "w", 3⟩ (.welcome 3) none ∈ s.trace ∧
      s.trace.tail.head? = some (.fencedFor ⟨2, "pool", "w", 3⟩) ∧
      .assigned firstRow ∈ s.trace.tail.tail ∧ ¬ TurnSettled "t" s)
    (by decide +kernel)
  obtain ⟨earlier, fenced⟩ := head?_eq_some_iff.mp fenced
  rw [fenced] at assigned
  have suffix := tail_suffix c.shared.trace
  rw [fenced] at suffix
  exact running (claim onePool c onePool_initial reached _ _ _ welcomed earlier suffix firstRow
    assigned rfl rfl (by decide)).1

end Iterabase.Dispatch
