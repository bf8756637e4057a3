/-
**Durable dispatch — where a compliant worker is.**

A worker that keeps the one-credit protocol reports its workspace, advertises one credit with a Ready,
waits for AssignTurn, streams the turn's events in order and ends them with one WorkerOutcome, and is
back where it was before the Ready once that outcome is ACKed.

* `Phase.Allows` — what a compliant worker may send.
-/

import Iterabase.Dispatch.Sound

namespace Iterabase.Dispatch

open Conc

/-- The place of a worker in the one-credit protocol. -/
inductive Phase
  /-- It has not reported its workspace. -/
  | fresh
  | observed
  /-- It advertised its credit. -/
  | armed
  /-- It was assigned the turn, and sent its events through the sequence. -/
  | running (turnID : TurnID) (sequence : Nat)
  /-- It sent the turn's WorkerOutcome with the sequence. -/
  | finishing (turnID : TurnID) (sequence : Nat)
  deriving DecidableEq

variable {n : Nat} {turnID : TurnID} {side : Side} {w : ConnRef}

namespace Phase

def Unassigned (q : Phase) : Prop := q = .fresh ∨ q = .observed

def after : Phase → WorkerMessage → Phase
  | .fresh, .workspaceStatus status => if validateWorkspaceStatus status then .observed else .fresh
  | .observed, .ready => .armed
  | .running turnID _, .turnEvent te =>
      if te.kind.outcome.isSome then .finishing turnID te.sequence else .running turnID te.sequence
  | q, _ => q

def told : Phase → ControlMessage → Phase
  | .armed, .assignTurn turnID => .running turnID 0
  | .finishing turnID sequence, .eventAck turnID' through =>
      if turnID' = turnID ∧ sequence ≤ through then .observed else .finishing turnID sequence
  | q, _ => q

def Allows : Phase → WorkerMessage → Prop
  | q, .ready => q = .observed
  | .running turnID sequence, .turnEvent te => te.turnID = turnID ∧ sequence < te.sequence
  | _, .turnEvent _ => False
  | _, _ => True

instance (q : Phase) (msg : WorkerMessage) : Decidable (q.Allows msg) := by
  cases q <;> cases msg <;> unfold Allows <;> infer_instance

variable {msg : WorkerMessage}

theorem Allows.armed (allowed : Phase.armed.Allows msg) : Phase.armed.after msg = .armed := by
  cases msg <;> rfl

variable {q : Phase}

theorem after_running (runs : q.after msg = .running turnID n) : ∃ m, q = .running turnID m := by
  cases q with
  | running turnID' m =>
    refine ⟨m, ?_⟩
    cases msg with
    | turnEvent te =>
      simp only [after] at runs
      split at runs
      · cases runs
      · rw [(Phase.running.inj runs).1]
    | _ =>
      cases runs
      rfl
  | fresh =>
    cases msg with
    | workspaceStatus status =>
      simp only [after] at runs
      split at runs <;> cases runs
    | _ => cases runs
  | _ => cases msg <;> cases runs

theorem after_status {status : WorkspaceStatus}
    (unassigned : (q.after (.workspaceStatus status)).Unassigned) : q.Unassigned := by
  cases q with
  | fresh => exact .inl rfl
  | _ => exact unassigned

/-- What a compliant worker may have put on its stream. -/
def Legal (q : Phase) : List WorkerMessage → Prop
  | [] => True
  | msg :: rest => q.Allows msg ∧ Legal (q.after msg) rest

theorem Legal.append {inbox : List WorkerMessage} (legal : q.Legal inbox)
    (allowed : (inbox.foldl after q).Allows msg) : q.Legal (inbox ++ [msg]) := by
  induction inbox generalizing q with
  | nil => exact ⟨allowed, trivial⟩
  | cons first rest ih => exact ⟨legal.1, ih legal.2 allowed⟩

/-! ### What the stream holds -/

section Stream

variable {inbox : List WorkerMessage} {q : Phase}

/-- Only a worker that is to act sends a Ready or an event. -/
theorem Legal.waits (legal : q.Legal inbox) (waits : q = .armed ∨ ∃ turnID n, q = .finishing turnID n) :
    inbox.foldl after q = q ∧ ∀ q' : Phase, q' ≠ .fresh → inbox.foldl after q' = q' ∧ q'.Legal inbox := by
  induction inbox with
  | nil => exact ⟨rfl, fun _ _ => ⟨rfl, trivial⟩⟩
  | cons msg rest ih =>
    obtain ⟨allowed, legal⟩ := legal
    -- the message moves no worker that has reported its workspace
    have neutral : ∀ q' : Phase, q' ≠ .fresh → q'.after msg = q' ∧ q'.Allows msg := by
      intro q' notFresh
      cases msg with
      | ready | turnEvent => rcases waits with rfl | ⟨_, _, rfl⟩ <;> cases allowed
      | workspaceStatus status => cases q' <;> first | exact absurd rfl notFresh | exact ⟨rfl, trivial⟩
      | _ => cases q' <;> exact ⟨rfl, trivial⟩
    have stays : q.after msg = q := by
      rcases waits with rfl | ⟨_, _, rfl⟩
      · exact (neutral .armed (by simp)).1
      · exact (neutral _ (by simp)).1
    rw [stays] at legal
    obtain ⟨same, others⟩ := ih legal
    refine ⟨by rw [List.foldl_cons, stays, same], fun q' notFresh => ?_⟩
    obtain ⟨same', legal'⟩ := others q' notFresh
    obtain ⟨moved, allowed'⟩ := neutral q' notFresh
    exact ⟨by rw [List.foldl_cons, moved, same'], allowed', by rw [moved]; exact legal'⟩

/-- Past its events of a turn, a worker has sent later ones of the same turn. -/
theorem Legal.runs (legal : (running turnID n).Legal inbox) :
    (∃ m, inbox.foldl after (.running turnID n) = .running turnID m) ∨ ∃ m,
    inbox.foldl after (.running turnID n) = .finishing turnID m ∧ n < m := by
  induction inbox generalizing n with
  | nil => exact .inl ⟨n, rfl⟩
  | cons msg rest ih =>
    obtain ⟨allowed, legal⟩ := legal
    rw [List.foldl_cons]
    cases msg with
    | ready => cases allowed
    | turnEvent te =>
      simp only [after] at legal ⊢
      split at legal
      · rename_i outcome
        rw [if_pos outcome]
        exact .inr ⟨te.sequence, (legal.waits (.inr ⟨_, _, rfl⟩)).1, allowed.2⟩
      · rename_i plain
        rw [if_neg plain]
        rcases ih legal with ⟨m, same⟩ | ⟨m, same, later⟩
        · exact .inl ⟨m, same⟩
        · exact .inr ⟨m, same, lt_trans allowed.2 later⟩
    | _ => exact ih legal

theorem Legal.idles (legal : q.Legal inbox) (idle : q = .fresh ∨ q = .observed ∨ q = .armed) :
    inbox.foldl after q = .fresh ∨ inbox.foldl after q = .observed ∨ inbox.foldl after q =
    .armed := by
  induction inbox generalizing q with
  | nil => exact idle
  | cons msg rest ih =>
    obtain ⟨allowed, legal⟩ := legal
    refine ih legal ?_
    cases msg with
    | turnEvent te => rcases idle with rfl | rfl | rfl <;> cases allowed
    | workspaceStatus status =>
      rcases idle with rfl | rfl | rfl
      · simp only [after]
        split
        · exact .inr (.inl rfl)
        · exact .inl rfl
      · exact .inr (.inl rfl)
      · exact .inr (.inr rfl)
    | ready => rcases idle with rfl | rfl | rfl <;> simp [after]
    | _ => rcases idle with rfl | rfl | rfl <;> simp [after]

/-- The messages that the service sends in the phase `q` of the receive loop. -/
def Expects : Phase → ControlMessage → Prop
  | q, .assignTurn _ => q = .armed
  | .fresh, .eventAck _ _ => True
  | .running turnID sequence, .eventAck turnID' through => turnID' = turnID ∧ through ≤ sequence
  | .finishing turnID sequence, .eventAck turnID' through => turnID' = turnID ∧ sequence ≤ through
  | _, .eventAck _ _ => False
  | _, _ => True

/-- The messages that move nobody. -/
def Neutral : ControlMessage → Prop
  | .assignTurn _ => False
  | .eventAck _ _ => False
  | _ => True

theorem told_neutral {msg : ControlMessage} (neutral : Neutral msg) (q : Phase) : q.told msg = q := by
  cases q <;> cases msg <;> first | rfl | cases neutral

/-- **The views stay apart by the stream.** -/
theorem view_told {msg : ControlMessage} (legal : q.Legal inbox) (expected : q.Expects msg) :
    (inbox.foldl after q).told msg = inbox.foldl after (q.told msg) ∧ (q.told msg).Legal inbox := by
  by_cases neutral : Neutral msg
  · rw [told_neutral neutral, told_neutral neutral]
    exact ⟨rfl, legal⟩
  cases msg with
  | assignTurn turnID =>
    cases expected
    obtain ⟨same, others⟩ := legal.waits (.inl rfl)
    obtain ⟨same', legal'⟩ := others (.running turnID 0) (by simp)
    exact ⟨by rw [same]; exact same'.symm, legal'⟩
  | eventAck turnID through =>
    cases q with
    | fresh =>
      refine ⟨?_, legal⟩
      rcases legal.idles (.inl rfl) with same | same | same <;> rw [same] <;> exact same.symm
    | observed | armed => cases expected
    | running turnID' n =>
      refine ⟨?_, legal⟩
      obtain ⟨rfl, early⟩ := expected
      rcases legal.runs with ⟨m, same⟩ | ⟨m, same, later⟩
      · rw [same]
        exact same.symm
      -- the outcome on the stream is later than what is ACKed
      rw [same]
      have unacked : ¬ (turnID = turnID ∧ m ≤ through) := fun acked =>
        absurd (lt_of_lt_of_le later acked.2) (not_lt_of_ge early)
      exact (if_neg unacked).trans same.symm
    | finishing turnID' n =>
      obtain ⟨same, others⟩ := legal.waits (.inr ⟨_, _, rfl⟩)
      have told : (finishing turnID' n).told (.eventAck turnID through) = .observed := if_pos expected
      rw [same, told]
      obtain ⟨same', legal'⟩ := others .observed (by simp)
      exact ⟨same'.symm, legal'⟩
  | _ => exact absurd trivial neutral

end Stream

end Phase

/-! ### The phase in the trace -/

inductive Side
  | worker
  | handler
  deriving DecidableEq

/-- What an observation means for the worker of `w`. -/
def Phase.see (side : Side) (w : ConnRef) (o : Obs) (q : Phase) : Phase :=
  match o with
  | .worker w' msg => if side = .worker ∧ w' = w then q.after msg else q
  | .taken w' msg => if side = .handler ∧ w' = w then q.after msg else q
  | .sent w' msg _ => if w' = w then q.told msg else q
  | _ => q

/-- The place of the worker of `w`, as seen from a side. -/
def State.phase (s : State) (side : Side) (w : ConnRef) : Phase :=
  s.trace.foldr (Phase.see side w) .fresh

theorem Phase.see_of_ne {o : Obs} (other : o.conn ≠ some w) (q : Phase) : q.see side w o = q := by
  cases o with
  | worker | taken => exact if_neg fun same => other (congrArg some same.2)
  | sent w' msg answers => exact if_neg fun same => other (congrArg some same)
  | _ => rfl

theorem phase_fresh {s : State} (unseen : ∀ o ∈ s.trace, o.conn ≠ some w) :
    s.phase side w = .fresh := by
  unfold State.phase
  generalize s.trace = trace at unseen ⊢
  induction trace with
  | nil => rfl
  | cons o rest ih =>
    rw [List.foldr_cons, ih fun o' member => unseen o' (.tail _ member)]
    exact Phase.see_of_ne (unseen o (.head _)) _

end Iterabase.Dispatch
