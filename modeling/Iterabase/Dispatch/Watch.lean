/-
**Durable dispatch — properties of the trace.**

A property such as "every ACK is covered" is about a few kinds of observation. An action that makes
none of them cannot break it, since whatever the property says of the rows is durable.

* `background_silent`, `dispatchRun_silent`, `teardown_silent`, … — the functions that are silent.
* `Watched.proved` — **the frame of a property of the trace**: what is left to prove about it are the
  handler of a TurnEvent and the opening of a connection.
-/

import Iterabase.Dispatch.Sound

namespace Iterabase.Dispatch

open Conc List Option

variable {s s' : State} {w : ConnRef} {label : Label}

variable {watched : Obs → Prop}

/-! ### Silent steps -/

/-- The trace grew by nothing that is watched. -/
def Silent (watched : Obs → Prop) (s s' : State) : Prop :=
  ∃ new, s'.trace = new ++ s.trace ∧ ∀ o ∈ new, ¬ watched o

theorem Silent.of_eq (same : s'.trace = s.trace) : Silent watched s s' :=
  ⟨[], same, by simp⟩

open Silent

variable {o : Obs} {γ : Type} {run : Input → State → Option (γ × State)} {kind : RuntimeEvent}

theorem Silent.observe (silent : Silent watched s s') (unwatched : ¬ watched o) :
    Silent watched s (s'.observe o) := by
  obtain ⟨new, same, unseen⟩ := silent
  refine ⟨o :: new, congrArg (o :: ·) same, fun o' member => ?_⟩
  rcases mem_cons.mp member with rfl | there
  · exact unwatched
  · exact unseen o' there

theorem Silent.trans {s₁ s₂ s₃ : State} (first : Silent watched s₁ s₂)
    (second : Silent watched s₂ s₃) : Silent watched s₁ s₃ := by
  obtain ⟨new, same, unseen⟩ := first
  obtain ⟨new', same', unseen'⟩ := second
  refine ⟨new' ++ new, by rw [same', same, append_assoc], fun o member => ?_⟩
  rcases mem_append.mp member with here | there
  · exact unseen' o here
  · exact unseen o there

theorem StoreStep.silent {new : List Obs} (step : StoreStep s s' new)
    (unseen : ∀ o ∈ new, ¬ watched o) : Silent watched s s' :=
  ⟨new, step.trace, unseen⟩

theorem Silent.member (silent : Silent watched s s') (seen : watched o) (member : o ∈ s'.trace) :
    o ∈ s.trace := by
  obtain ⟨new, same, unseen⟩ := silent
  rw [same] at member
  rcases mem_append.mp member with here | there
  · exact absurd seen (unseen o here)
  · exact there

theorem Silent.suffix {earlier : List Obs} (silent : Silent watched s s') (seen : watched o)
    (suffix : (o :: earlier) <:+ s'.trace) : (o :: earlier) <:+ s.trace := by
  obtain ⟨new, same, unseen⟩ := silent
  rw [same] at suffix
  clear same
  induction new with
  | nil => exact suffix
  | cons first rest ih =>
    rcases suffix_cons_iff.mp suffix with here | there
    · cases here
      exact absurd seen (unseen _ (.head _))
    · exact ih there fun o member => unseen o (.tail _ member)

/-- An action all of whose steps are in `Q`. -/
def Does (Q : State → State → Prop) : ActionProp := fun _ _ run =>
  ∀ {input s answer s'}, run input s = some (answer, s') → Q s s'

variable {Q : State → State → Prop}

theorem Does.mono {R : State → State → Prop} (weaker : ∀ {s s'}, Q s s' → R s s')
    (does : Does Q γ label run) : Does R γ label run :=
  fun ran => weaker (does ran)

abbrev Silently (watched : Obs → Prop) : ActionProp := Does (Silent watched)

variable {te : TurnEvent}

section Actions

variable {α : Type} {tx : Input → State → Except Err α × State}

theorem store_does (refl : ∀ s, Q s s)
    (does : ∀ {input s answer s'}, tx input s = (answer, s') → Q s s') :
    (store label tx).All (Does Q) := by
  exact .atomic fun {input s answer s'} ran => call_keeps ran (refl s) does

variable {f : Input → State → α × State}

theorem locally_does (does : ∀ input s, Q s (f input s).2) : (locally f label).All (Does Q) := by
  refine .atomic fun {input s answer s'} ran => ?_
  have here := does input s
  rwa [some.inj ran] at here

variable {msg : ControlMessage} {answers : Option TurnEvent}

theorem send_does (refl : ∀ s, Q s s)
    (sends : ∀ s, Q s (s.observe (.sent w msg answers))) : (send w msg answers).All (Does Q) := by
  refine .atomic fun {input s answer s'} ran => ?_
  obtain ⟨c, _, ran⟩ := map_eq_some_iff.mp ran
  split at ran
  · cases ran
    exact refl _
  · cases ran
    exact sends _

theorem register_does {poolID : PoolID} {workerID : WorkerID}
    {thread : Nat} (does : ∀ {s conns}, Q s { s with
      gen := s.gen + 1, conns := conns, nextConn := s.nextConn + 1 }) :
    Prog.All (Does Q) (.atomic (.register poolID workerID) fun _ s =>
      s.register poolID workerID thread : Program ConnRef) := by
  refine .atomic fun {input s answer s'} ran => ?_
  obtain ⟨conns, _, made⟩ := map_eq_some_iff.mp ran
  cases made
  exact does

/-- **A relation that every transaction on turns is in.** -/
theorem Ending.of_internal (inner : ∀ {s s'}, Internal s s' → Q s s')
    (closes : ∀ s (w : ConnRef), Q s (s.modifyConn w WorkerConn.markClosed fun _ => rfl)) :
    Ending (Every (Does Q)) where
  toSequential := every_sequential _
  query := store_does (fun s => inner (.refl s)) fun ran => by
    cases ran
    exact inner (.refl _)
  read := locally_does fun _ s => inner (.refl s)
  markClosed := locally_does fun _ s => closes s _
  settle := store_does (fun s => inner (.refl s)) fun ran => inner (.settle ran)
  terminalize := store_does (fun s => inner (.refl s)) fun ran => by
    cases ran
    exact inner (.terminalize _ _)
  fence := store_does (fun s => inner (.refl s)) fun ran => inner (.fence ran)

theorem record_does (inner : ∀ {s s'}, Internal s s' → Q s s') (report : CompletionReport) :
    (recordTx te report).All (Does Q) :=
  store_does (fun s => inner (.refl s)) fun ran => inner (.record ran)

theorem prepare_does (inner : ∀ {s s'}, Internal s s' → Q s s') {runID : RunID} :
    (store (.prepare runID) fun input s => s.prepareTurn runID input).All (Does Q) :=
  store_does (fun s => inner (.refl s)) fun ran => inner (.prepare ran)

theorem append_does (refl : ∀ s, Q s s)
    (commits : ∀ {s a}, s.assignments.find te.turnID = some a → a.state = .active →
      te.sequence = a.highestAppliedSequence + 1 →
      Q s ((s.advanceWatermark a te kind).observe (.appended w te))) :
    (appendTx w te kind).All (Does Q) := by
  refine store_does refl fun ran => ?_
  rcases appendTurnEvent_cases ran with
    ⟨_, _, rfl, _⟩ | ⟨_, found, active, ⟨_, rfl, _⟩ | ⟨_, next, rfl⟩⟩
  · exact refl _
  · exact refl _
  · exact commits found active next

theorem audit_does (refl : ∀ s, Q s s) (unowned : ∀ s, Q s (s.observe (.unowned w te)))
    (commits : ∀ {s a}, s.assignments.find te.turnID = some a →
      te.sequence = a.highestAppliedSequence + 1 →
      Q s ((s.advanceWatermark a te kind).observe (.audited w te))) :
    (auditTx w te kind).All (Does Q) := by
  refine store_does refl fun ran => ?_
  rcases appendAfterTerminalEvent_cases ran with
    ⟨_, rfl, _⟩ | ⟨_, found, _, _, ⟨_, rfl, _⟩ | ⟨_, rfl⟩ | ⟨_, next, rfl⟩⟩
  · exact unowned _
  · exact refl _
  · exact refl _
  · exact commits found next

theorem ready_does (does : ∀ s valid, Q s ((s.modifyConn w (fun c => c.grantCreditIfIdle.2)
      WorkerConn.grantCreditIfIdle_ref).observe (.readyAnswered w valid))) :
    (answerReady w).All (Does Q) := by
  refine .atomic fun {input s answer s'} ran => ?_
  obtain ⟨c, _, ran⟩ := map_eq_some_iff.mp ran
  cases ran
  exact does s _

theorem reconnect_does (refl : ∀ s, Q s s) (does : ∀ {s s' pick answer},
      s.fenceWorkerGeneration w.poolID w.workerID pick = (answer, s') →
        Q s (s'.observe (.fencedFor w))) : (reconnectTx w).All (Does Q) := by
  refine store_does refl fun {input s answer s'} ran => ?_
  rcases fenced : s.fenceWorkerGeneration w.poolID w.workerID input.pick with ⟨answer', middle⟩
  simp only [fenced] at ran
  cases ran
  exact does fenced

theorem store_silent (silent : ∀ {input s answer s'}, tx input s = (answer, s') → Silent watched s s')
    : (store label tx).All (Silently watched) :=
  store_does (fun _ => .of_eq rfl) silent

theorem locally_silent
    (same : ∀ input s, (f input s).2.trace = s.trace) : (locally f label).All (Silently watched) :=
  locally_does fun input s => .of_eq (same input s)

theorem send_silent
    (unwatched : ¬ watched (.sent w msg answers)) : (send w msg answers).All (Silently watched) :=
  send_does (fun _ => .of_eq rfl) fun _ => (of_eq rfl).observe unwatched

/-! ### Silent functions -/

theorem append_silent (unwatched : ¬ watched (.appended w te)) :
    (appendTx w te kind).All (Silently watched) :=
  append_does (fun _ => .of_eq rfl) fun _ _ _ => (of_eq rfl).observe unwatched

theorem audit_silent (audited : ¬ watched (.audited w te)) (unowned : ¬ watched (.unowned w te)) :
    (auditTx w te kind).All (Silently watched) :=
  audit_does (fun _ => .of_eq rfl) (fun _ => (of_eq rfl).observe unowned) fun _ _ =>
    (of_eq rfl).observe audited

theorem reconnectFence_silent (unwatched : ¬ watched (.fencedFor w)) :
    (reconnectTx w).All (Silently watched) :=
  reconnect_does (fun _ => .of_eq rfl) fun fenced =>
    ((fenceWhere_step fenced).silent (by simp)).observe unwatched

theorem handleWorkspaceStatus_does {status : WorkspaceStatus}
    (observes : ∀ s capacities, Q s { s with capacities })
    (apply : ∀ gated, (publishing w gated).All (Does Q)) :
    (handleWorkspaceStatus w status).All (Does Q) := by
  refine handleWorkspaceStatus_all (store_does (fun s => observes s s.capacities)
    fun {input s answer s'} ran => ?_) apply
  cases ran
  obtain ⟨capacities, same⟩ := observeWorkspaceCapacity_eq s w.poolID status.freeRatio
  rw [same]
  exact observes s capacities

end Actions

section Unowned

variable (owned : ∀ o, watched o → o.owner.isSome)

include owned

theorem not_watched (unowned : o.owner = none) : ¬ watched o := by
  intro seen
  have owner := owned o seen
  rw [unowned] at owner
  cases owner

theorem Internal.silent (internal : Internal s s') : Silent watched s s' := by
  obtain ⟨new, step, plain⟩ := internal.plain
  exact step.silent fun o member => not_watched owned (plain o member).2.1

theorem background_silent : Background (Every (Silently watched)) where
  toEnding := .of_internal (Internal.silent owned) fun _ _ => .of_eq rfl
  send := fun {w msg} ordinary => send_silent (not_watched owned (by
    cases msg with
    | welcome gen => exact absurd rfl (ordinary gen)
    | _ => rfl))
  releaseTurn := locally_does fun _ _ => (of_eq rfl).observe (not_watched owned rfl)

theorem teardown_silent (w : ConnRef) : (teardown w).All (Silently watched) :=
  teardown_all (background_silent owned).losing (locally_silent fun _ _ => rfl) (locally_silent fun _ _ => rfl)

theorem dispatchRun_silent (t : Nat) (runID : RunID) :
    (dispatchRun t runID).All (Silently watched) := by
  refine dispatchRun_all (background_silent owned).losing (background_silent owned).delivers
    (prepare_does (Internal.silent owned))
    (fun poolID turnID => .atomic fun {input s answer s'} ran => ?_)
    (fun _ _ _ => store_silent fun ran => ?_)
    (fun w turnID attempted => locally_does fun _ _ => ?_)
  · rcases reserve_cases (some.inj ran) with _ | _
    · exact .of_eq rfl
    · exact (of_eq rfl).observe (not_watched owned rfl)
  · rcases createAssignmentFor_cases ran with ⟨_, _, rfl⟩ | ⟨_, _, _, rfl⟩
    · exact .of_eq rfl
    · exact ((of_eq rfl).observe (not_watched owned rfl)).observe (not_watched owned rfl)
  · exact (of_eq rfl).observe (not_watched owned rfl)

end Unowned

/-! ### The frame -/

theorem runs_sequential (R : Rules State) (L : Layer Label Input Request State) (t : Nat) :
    Sequential fun p => ∀ s, Runs R L t p s :=
  ⟨fun _ _ => trivial, fun first rest s => (first s).andThen fun value s _ => rest value s⟩

structure Extends (R : Rules State) : Prop where
  base : ∀ {s}, R.inv s → Base s
  grows : ∀ {s s'}, R.moves s s' → Grows s s'
  rely : ∀ {t s s'}, R.rely t s s' → Rely t s s'

theorem baseRules_extends : Extends baseRules := ⟨id, id, id⟩

/-- A layer that every step in `Q` keeps and every thread tolerates. -/
structure Framed (R : Rules State) (L : Layer Label Input Request State)
    (Q : State → State → Prop) : Prop extends Extends R where
  kept : ∀ {s s'}, R.inv s → R.inv s' → R.moves s s' → Q s s' → L.inv s → L.inv s'
  tolerated : ∀ {t s s'}, R.inv s → L.inv s → R.moves s s' → R.rely t s s' → Q s s' → L.rely t s s'

/-- What thread `t` knows, and neither the others nor a step in `Q` undoes. -/
structure Lasts (R : Rules State) (L : Layer Label Input Request State) (Q : State → State → Prop)
    (t : Nat) (K : State → Prop) : Prop where
  rely : ∀ {s s'}, R.rely t s s' → L.rely t s s' → K s → K s'
  own : ∀ {s s'}, R.inv s → L.inv s → R.moves s s' → Q s s' → K s → K s'

variable {K : State → Prop}

theorem Lasts.of_grows {R : Rules State} {L : Layer Label Input Request State} {t : Nat} (wide : Extends R)
    (stable : ∀ {s s'}, Grows s s' → K s → K s') : Lasts R L Q t K :=
  ⟨fun moved _ => stable (wide.rely moved).toGrows, fun _ _ moves _ => stable (wide.grows moves)⟩

namespace Framed

variable {R : Rules State} {L : Layer Label Input Request State} {Q : State → State → Prop} {t : Nat}
  {K : State → Prop} {s s' : State} {α β : Type}

section Framed

variable (framed : Framed R L Q)

include framed

theorem step (inv : R.inv s) (layer : L.inv s) (did : R.Step t s s') (made : Q s s') :
    L.Step t s s' :=
  ⟨framed.kept inv did.1 did.2.1 made layer,
    fun other different => framed.tolerated inv layer did.2.1 (did.2.2 other different) made⟩

theorem keeps (own : ∀ {s s'}, R.inv s → L.inv s → R.moves s s' → Q s s' → K s → K s')
    (does : Does Q γ label run) : Keeps R L t K γ label run :=
  fun inv layer known _ ran did =>
    ⟨framed.step inv layer did (does ran), own inv layer did.2.1 (does ran) known⟩

/-- **A program whose steps are in `Q` keeps the layer**, and every assertion that lasts. -/
theorem along (lasts : Lasts R L Q t K) {p : Program α} (start : K s) (all : p.All (Does Q)) :
    Along R L t p (fun _ s => K s) s :=
  Along.of_all lasts.rely start (all.mono (framed.keeps lasts.own))

theorem along_true {p : Program α} (all : p.All (Does Q)) : Runs R L t p s :=
  framed.along ⟨fun _ _ _ => trivial, fun _ _ _ _ _ => trivial⟩ trivial all

/-- **A message is served** as its handler says, and then the loop goes on or the stream ends. -/
theorem serves {w : ConnRef} {msg : WorkerMessage} (ready : Runs R L t (answerReady w) s)
    (status : ∀ status, (handleWorkspaceStatus w status).All (Does Q))
    (event : ∀ te, msg = .turnEvent te → Runs R L t (handleTurnEvent w te) s)
    (loops : (setLoop w .waiting).All (Does Q)) (close : ∀ {s}, Runs R L t (teardown w) s) :
    Runs R L t (serve w msg) s := by
  refine .seq ?_ fun goesOn s => ?_
  · cases msg with
    | ready => exact ready
    | workspaceStatus report => exact framed.along_true (status report)
    | heartbeat | tokenDelta => trivial
    | turnEvent te => exact (event te rfl).bind
  · split
    · exact framed.along_true loops
    · exact close

/-- **A layer holds if each of the service's threads keeps it.** A request itself changes no row and
observes at most the worker's message. -/
theorem layered (hold : ∀ s w t rest, Q s (s.hold w t rest))
    (authorize : ∀ s poolID authorized, L.guard.request (.authorizeStorage poolID authorized) s →
      Q s { s with
        capacities := s.capacities.update (fun r => r.poolID = poolID)
          (fun r => { r with storageAuthorized := authorized }) fun _ => rfl })
    (enqueue : ∀ s w msg, Q s (s.enqueue w msg))
    (takes : ∀ s w t rest msg, Q s ((s.hold w t rest).observe (.taken w msg)))
    (restart : ∀ {s}, R.inv s → L.inv s → L.guard.restart s → R.inv (restartService s) →
      L.inv (restartService s)) (connect : ∀ {t id hello s}, Runs R L t (work t id hello) s)
    (receive : ∀ {t w msg s}, Held t w s → .taken w msg ∈ s.trace → R.inv s → L.inv s →
      Runs R L t (serve w msg) s) (close : ∀ {t w s}, Held t w s → Runs R L t (teardown w) s)
    (cancel : ∀ {t turnID s}, Runs R L t (cancelTurn turnID) s)
    (expire : ∀ {t w s}, Runs R L t (expireLease w) s)
    (dispatch : ∀ {t runID s}, Runs R L t (dispatchRun t runID) s)
    (sync : ∀ {t s}, Runs R L t syncWorkspaceCapacityState s) : service.Layered R L where
  start := by
    intro request t s s' p inv layer admitted started did
    have base := framed.base inv
    have kept : ∀ {s'}, R.Step t s s' → Q s s' → L.Step t s s' := framed.step inv layer
    have still : L.Step t s s := .refl layer t
    refine startRequest_cases
      (P := fun request s' p => L.guard.request request s → R.Step t s s' →
        L.Step t s s' ∧ Runs R L t p s')
      started (fun _ _ _ _ => ⟨still, connect⟩)
      (fun c msg _ _ did => ⟨kept did (enqueue _ _ _), trivial⟩)
      (fun c msg rest found waiting _ _ did => ?_)
      (fun c found waiting _ did => ?_) (fun _ _ _ => ⟨still, cancel⟩)
      (fun _ _ _ _ => ⟨still, expire⟩) (fun _ _ _ => ⟨still, dispatch⟩)
      (fun _ _ => ⟨still, sync⟩)
      (fun _ _ admitted did => ⟨kept did (authorize _ _ _ admitted), trivial⟩)
      admitted did
    · have made := kept did (takes _ _ _ _ _)
      exact ⟨made, receive (take_step (t := t) rest base found waiting).2 (.head _) did.1
        made.1⟩
    · exact ⟨kept did (hold _ _ _ _), close (hold_step (t := t) c.inbox found waiting).2⟩
  restart := restart

end Framed

end Framed

/-- A layer that the durable steps in `Q` keep. It asks nothing further of the other threads. -/
structure Frame (L : Layer Label Input Request State) (Q : State → State → Prop) : Prop where
  free : ∀ t s s', L.rely t s s' := by intros; trivial
  kept : ∀ {s s'}, Base s' → Durable s s' → Q s s' → L.inv s → L.inv s'

/-- A layer that a durable step keeps when it makes no watched observation. -/
abbrev Watched (L : Layer Label Input Request State) (watched : Obs → Prop) : Prop :=
  Frame L (Silent watched)

namespace Frame

variable {L : Layer Label Input Request State} {Q : State → State → Prop} {t : Nat} {s : State}
  {α β : Type}

section Frame

variable (frame : Frame L Q)

include frame

theorem framed : Framed baseRules L Q where
  toExtends := baseRules_extends
  kept := fun _ base' grows made layer => frame.kept base' (Grows.toDurable grows) made layer
  tolerated := fun _ _ _ _ _ => frame.free _ _ _

theorem atomic {run : Input → State → Option (α × State)} {R : α → State → Prop}
    (holds : ∀ s₁, Rely t s s₁ → Base s₁ → L.inv s₁ → ∀ input answer s₂,
      L.guard.action label input s₁ → run input s₁ = some (answer, s₂) → Base s₂ →
        Grows s₁ s₂ → L.inv s₂ ∧ R answer s₂) : Along baseRules L t (Prog.atomic label run) R s :=
  Along.atomic (R := baseRules) holds frame.free

theorem along (stable : ∀ {s s'}, Grows s s' → K s → K s') {p : Program α} (start : K s)
    (all : p.All (Does Q)) : Along baseRules L t p (fun _ s => K s) s :=
  frame.framed.along (.of_grows baseRules_extends stable) start all

theorem along_bind (stable : ∀ {s s'}, Grows s s' → K s → K s') {p : Program α}
    {f : α → Program β} {R : β → State → Prop} (start : K s) (all : p.All (Does Q))
    (rest : ∀ value s, K s → Along baseRules L t (f value) R s) :
    Along baseRules L t (p >>= f) R s :=
  ((frame.along stable start all).mono rest).bind

theorem along_true {p : Program α} (all : p.All (Does Q)) : Runs baseRules L t p s :=
  frame.along (fun _ _ => trivial) trivial all

/-- **A layer over the base holds if each of the service's threads keeps it.** -/
theorem proved (hold : ∀ s w t rest, Q s (s.hold w t rest))
    (authorize : ∀ s capacities, Q s { s with capacities := capacities })
    (restart : ∀ s, Q s (restartService s)) (enqueue : ∀ s w msg, Q s (s.enqueue w msg))
    (takes : ∀ s w msg, Q s (s.observe (.taken w msg)))
    (trans : ∀ {s₁ s₂ s₃}, Q s₁ s₂ → Q s₂ s₃ → Q s₁ s₃)
    (connect : ∀ {t id hello s}, Runs baseRules L t (work t id hello) s)
    (receive : ∀ {t w msg s}, Held t w s → .taken w msg ∈ s.trace →
      Runs baseRules L t (serve w msg) s)
    (close : ∀ {t w s}, Held t w s → Runs baseRules L t (teardown w) s)
    (cancel : ∀ {t turnID s}, Runs baseRules L t (cancelTurn turnID) s)
    (expire : ∀ {t w s}, Runs baseRules L t (expireLease w) s)
    (dispatch : ∀ {t runID s}, Runs baseRules L t (dispatchRun t runID) s)
    (sync : ∀ {t s}, Runs baseRules L t syncWorkspaceCapacityState s) :
    service.Proved baseRules L where
  toLayered := frame.framed.layered hold (fun s _ _ _ => authorize s _) enqueue
    (fun s w t rest msg => trans (hold s w t rest) (takes _ w msg))
    (fun {s} _ inv _ base' => frame.kept base' (restart_durable s) (restart s) inv) connect
    (fun held taken _ _ => receive held taken) close cancel expire dispatch sync
  sound := service_sound

end Frame

end Frame

namespace Watched

variable {L : Layer Label Input Request State} {t : Nat} {s : State}

section Serving

variable (watch : Watched L watched) (owned : ∀ o, watched o → o.owner.isSome)
  (ready : ∀ w valid, ¬ watched (.readyAnswered w valid))
  (event : ∀ {t w te s}, Held t w s → Runs baseRules L t (handleTurnEvent w te) s)

include watch owned ready event

theorem serve (msg : WorkerMessage) (held : Held t w s) : Runs baseRules L t (serve w msg) s :=
  watch.framed.serves
    (watch.along_true (ready_does fun _ _ => (of_eq rfl).observe (ready _ _)))
    (fun _ => handleWorkspaceStatus_does (fun _ _ => .of_eq rfl) fun _ => locally_silent fun _ _ => rfl)
    (fun _ _ => event held) (locally_silent fun _ _ => rfl)
    (watch.along_true (teardown_silent owned w))

/-- **The frame of a layer about owned observations.** -/
theorem proved (connect : ∀ {t id hello s}, Runs baseRules L t (work t id hello) s) :
    service.Proved baseRules L :=
  Frame.proved watch (fun _ _ _ _ => .of_eq rfl) (fun _ _ => .of_eq rfl) (fun _ => .of_eq rfl)
    (fun _ _ _ => (of_eq rfl).observe (not_watched owned rfl))
    (fun _ _ _ => (of_eq rfl).observe (not_watched owned rfl)) trans connect
    (fun {_ _ msg _} held _ => watch.serve owned ready event msg held)
    (fun _ => watch.along_true (teardown_silent owned _))
    (watch.along_true ((background_silent owned).cancelTurn _ (background_silent owned).aborts))
    (watch.along_true ((background_silent owned).losing.expireLease _))
    (watch.along_true (dispatchRun_silent owned _ _))
    (watch.along_true (syncWorkspaceCapacityState_all (background_silent owned).toReading
      fun _ => locally_silent fun _ _ => rfl))

end Serving

end Watched

end Iterabase.Dispatch
