/-
**The combined system — a completed turn and the loss of its worker.**

The service commits a worker's outcome by one transaction and settles the turn by a second one. When
the second one fails, the outcome is not acknowledged, and the supervisor sends it again only after it
has reconnected. Worker loss and the reconnect itself fence the assignment before that.
-/

import Iterabase.Combined.System
import Iterabase.Dispatch.Outcome

namespace Iterabase.Combined

open Conc
open Dispatch (Completed TurnID outcomeGuard outcomeLayer_proved steps graphPool graphTurn)

/-- **A completed turn is never aborted.** In every run of the service and its workers that meets the
condition, a turn whose successful outcome was accepted is not settled as aborted. -/
theorem completed_not_aborted {w₀ w : World} (initial : w₀.Initial)
    (reached : Reach World.next (World.Guarded outcomeGuard) w₀ w) (turnID : TurnID)
    (completed : Completed turnID w.service.shared) :
    .settled turnID .aborted ∉ w.service.shared.trace := by
  have safe : Dispatch.OutcomeSafe w₀.service.shared := by
    rintro turnID ⟨o, member, _⟩
    rw [initial.service.trace] at member
    cases member
  have invariant := outcomeLayer_proved.invariant initial.service.base safe
    (World.service_reached initial reached)
  exact (invariant.2 turnID completed).1

def crew : World where
  service := ⟨graphPool, []⟩
  workers := [{
    identity := ⟨.supervisor, "spiffe://org/pool/w", "uid", "w"⟩
    hello := ⟨"uid", "w"⟩
    supervisor := { bound := 4, workspaceStatus := some ⟨1, 2, 1 / 2, false, false⟩ } }]

theorem crew_initial : crew.Initial where
  service := Dispatch.graphPool_initial
  threads := rfl
  workers := by
    intro wk member
    obtain rfl := List.mem_singleton.mp member
    exact ⟨⟨4, some ⟨1, 2, 1 / 2, false, false⟩, rfl⟩, rfl⟩
  streams := rfl

def serves (thread count : Nat) : List Move := (steps thread count).map .service

/-- The first message in flight reaches the service, and its loop takes `count` actions over it.
`thread` is the next free thread. -/
def takes (thread count : Nat) : List Move :=
  [.transmit 0, .service (.start (.receive 0))] ++ serves (thread + 1) count

/-- The worker connects, advertises its credit, and starts the turn it is assigned. -/
def startsTurn : List Move :=
  [.worker 0 (.connect true), .dial 0] ++ serves 0 7 ++ [.deliver 0 .welcome {}] ++ takes 1 3 ++
    takes 3 2 ++ [.service (.start (.dispatchRun "run")), .service (.run 5 graphTurn)] ++ serves 5 6 ++
    [.deliver 0 (.assignTurn Harness.nodeTurn) {}, .worker 0 (.materialized 0 true),
      .worker 0 (.discovered 0 (.discovered none))] ++ takes 6 4

/-- The child reports its completion and exits, and the service takes in the report. -/
def reportsCompletion : List Move :=
  [.worker 0 (.childRpc 0 (.stepCompletion ⟨"done", "ok", []⟩)), .worker 0 (.eventsEnd 0),
    .worker 0 (.rpcEnds 0), .worker 0 (.childResult 0 .completed), .worker 0 (.rpcDone 0)] ++ takes 8 5

/-- The stream is lost, and the service handles the loss. -/
def losesWorker (count : Nat) : List Move :=
  [.drop 0, .service (.start (.close 0))] ++ serves 12 count

/-- The outcome is settled before the worker is lost. -/
theorem completed_not_aborted_settled : ∃ w, Reach World.next (World.Guarded outcomeGuard) crew w ∧
    Completed "t" w.service.shared ∧ .reported "t" ∈ w.service.shared.trace ∧
    .settled "t" .aborted ∉ w.service.shared.trace := by
  obtain ⟨w, reached, completed, reported⟩ := reach_of_replay World.next (World.Guarded outcomeGuard)
    crew (startsTurn ++ reportsCompletion ++ takes 10 9 ++ losesWorker 4)
    (fun w => Completed "t" w.service.shared ∧ .reported "t" ∈ w.service.shared.trace)
    (by decide +kernel)
  exact ⟨w, reached, completed, reported, completed_not_aborted crew_initial reached "t" completed⟩

/-- **A completed turn is aborted.** The transaction that settles the turn fails once, and the worker's
stream drops before the outcome is sent again: the handling of the loss aborts the turn. -/
theorem completed_aborted : ¬ ∀ w₀ w : World, w₀.Initial →
    Reach World.next (World.Guarded .free) w₀ w → ∀ turnID, Completed turnID w.service.shared →
      .reported turnID ∈ w.service.shared.trace →
      .settled turnID .aborted ∉ w.service.shared.trace := by
  intro claim
  obtain ⟨w, reached, completed, reported, aborted⟩ := reach_of_replay World.next
    (World.Guarded .free) crew
    (startsTurn ++ reportsCompletion ++ takes 10 3 ++ .service (.run 11 { fail := true }) ::
      serves 11 1 ++ losesWorker 8)
    (fun w => Completed "t" w.service.shared ∧ .reported "t" ∈ w.service.shared.trace ∧
      .settled "t" .aborted ∈ w.service.shared.trace)
    (by decide +kernel)
  exact claim crew w crew_initial reached "t" completed reported aborted

end Iterabase.Combined
