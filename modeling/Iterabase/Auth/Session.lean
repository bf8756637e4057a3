/-
**Browser authentication — the lifetime of a session.**

A session ends when it was idle for too long, and at an absolute end. The row has the time of the last
activity, which moves at most once in five minutes, and when the session will have been idle for too long; the
idle lifetime itself is not stored, but computed again from the two.

* `createBrowserSession`, `resolveBrowserSession` — the row, and what one request does to it.
* `session_lifetime` — **the idle lifetime is never lost.**
-/

import Iterabase.Conc.Run
import Mathlib

namespace Iterabase.Auth

open Conc

namespace Session

inductive AccountStatus
  | setupPending
  | active
  | disabled
  deriving DecidableEq

inductive Termination
  | revoked
  | idleExpired
  | absoluteExpired
  | accountRevoked
  | passwordRevoked
  | roleRevoked

/-- The address and the location of the client, as far as they are known. -/
structure Network where
  ip : Option String := none
  location : Option (String × String) := none

/-- A row of `identity.browser_sessions`. Times and durations are in microseconds. -/
structure BrowserSession where
  createdAt : Int
  lastAuthorizedAt : Int
  idleExpiresAt : Int
  absoluteExpiresAt : Int
  terminated : Option (Int × Termination) := none
  last : Network := {}

inductive Err
  | sessionInvalid
  | sessionExpired
  | sessionIneligible

def sessionActivityCoalesce : Int := 5 * 60 * 1000000

/-- The idle end, which is not after the absolute one. -/
def clipped (idle absolute : Int) : Int := if absolute < idle then absolute else idle

def createBrowserSession (idleTTL absoluteTTL now : Int) (network : Network) : BrowserSession where
  createdAt := now
  lastAuthorizedAt := now
  idleExpiresAt := clipped (now + idleTTL) (now + absoluteTTL)
  absoluteExpiresAt := now + absoluteTTL
  last := network

def revokeSession (now : Int) (reason : Termination) (s : BrowserSession) : BrowserSession :=
  if s.terminated.isSome then s else { s with terminated := some (now, reason) }

def coalesceSessionActivity (now : Int) (network : Network) (s : BrowserSession) : BrowserSession :=
  if now - s.lastAuthorizedAt < sessionActivityCoalesce then s
  else { s with
    lastAuthorizedAt := now
    idleExpiresAt := clipped (now + (s.idleExpiresAt - s.lastAuthorizedAt)) s.absoluteExpiresAt
    last := ⟨network.ip <|> s.last.ip, network.location <|> s.last.location⟩ }

/-- A request with the token of a session, whose account may have no local user. -/
structure Request where
  now : Int
  account : Option AccountStatus := some .active
  network : Network := {}

abbrev Request.eligible (r : Request) : Prop := r.account = none ∨ r.account = some .active

/-- `ResolveBrowserSessionWithNetwork`. -/
def resolveBrowserSession (r : Request) (s : BrowserSession) : Except Err Unit × BrowserSession :=
  if s.terminated.isSome then (.error .sessionInvalid, s)
  else if ¬ r.eligible then
    (.error .sessionIneligible, revokeSession r.now .accountRevoked s)
  else if s.absoluteExpiresAt ≤ r.now then (.error .sessionExpired, revokeSession r.now .absoluteExpired s)
  else if s.idleExpiresAt ≤ r.now then (.error .sessionExpired, revokeSession r.now .idleExpired s)
  else (.ok (), coalesceSessionActivity r.now r.network s)

/-! ### Runs -/

/-- A session, the time of its last activity, of its last request, and whether a request was rejected. -/
structure Run where
  session : BrowserSession
  active : Int
  latest : Int
  rejected : Bool := false

def start (idleTTL absoluteTTL created : Int) (network : Network) : Run where
  session := createBrowserSession idleTTL absoluteTTL created network
  active := created
  latest := created

/-- A request, or a session that is revoked by someone else. -/
inductive Move
  | request (r : Request)
  | revoke (now : Int) (reason : Termination)

def next (run : Run) : Move → Option Run
  | .request r =>
      match resolveBrowserSession r run.session with
      | (.ok _, session) => some { run with
          session, latest := r.now
          active := if run.active + sessionActivityCoalesce ≤ r.now then r.now else run.active }
      | (.error _, session) => some { run with session, latest := r.now, rejected := true }
  | .revoke now reason => some { run with session := revokeSession now reason run.session }

/-- Requests come one after another. -/
def Later (run : Run) : Move → Prop
  | .request r => run.latest ≤ r.now
  | .revoke .. => True

instance (run : Run) (m : Move) : Decidable (Later run m) := by
  cases m <;> unfold Later <;> infer_instance

/-- **The idle lifetime counts from the last activity**, which is recent at the last request. -/
structure Kept (idleTTL ends : Int) (run : Run) : Prop where
  absolute : run.session.absoluteExpiresAt = ends
  last : run.session.lastAuthorizedAt = run.active
  idle : run.session.idleExpiresAt = min (run.active + idleTTL) ends
  past : run.active ≤ run.latest
  recent : run.session.terminated = none → run.latest < run.active + sessionActivityCoalesce
  ended : run.rejected → run.session.terminated ≠ none

/-- What a session admits. -/
def BrowserSession.Admits (s : BrowserSession) (r : Request) : Prop :=
  s.terminated = none ∧ r.eligible ∧ r.now < s.absoluteExpiresAt ∧ r.now < s.idleExpiresAt

section Lifetime

variable {idleTTL ends : Int} {run run' : Run} {m : Move} {s : BrowserSession} {r : Request}

theorem clipped_eq (idle absolute : Int) : clipped idle absolute = min idle absolute := by
  unfold clipped
  omega

theorem revokeSession_eq (now : Int) (reason : Termination) (s : BrowserSession) :
    ∃ t, revokeSession now reason s = { s with terminated := some t } := by
  unfold revokeSession
  split
  · next ended => exact ⟨s.terminated.get ended, by rw [Option.some_get ended]⟩
  · exact ⟨_, rfl⟩

/-- **A request is admitted, or leaves the session terminated.** -/
theorem resolve_cases (r : Request) (s : BrowserSession) :
    (s.Admits r ∧ resolveBrowserSession r s = (.ok (), coalesceSessionActivity r.now r.network s)) ∨
    ¬ s.Admits r ∧ ∃ err t, resolveBrowserSession r s = (.error err, { s with terminated := some t }) := by
  have revoked (reason : Termination) (err : Err) : ∃ err' t, ((.error err, revokeSession r.now reason s) :
      Except Err Unit × BrowserSession) = (.error err', { s with terminated := some t }) := by
    obtain ⟨t, same⟩ := revokeSession_eq r.now reason s
    exact ⟨err, t, by rw [same]⟩
  unfold resolveBrowserSession
  split
  · next ended =>
    refine .inr ⟨fun admits => ?_, _, s.terminated.get ended, by rw [Option.some_get ended]⟩
    simp [admits.1] at ended
  split
  · next other => exact .inr ⟨fun admits => other admits.2.1, revoked _ _⟩
  split
  · next late => exact .inr ⟨fun admits => Int.not_le.mpr admits.2.2.1 late, revoked _ _⟩
  split
  · next late => exact .inr ⟨fun admits => Int.not_le.mpr admits.2.2.2 late, revoked _ _⟩
  · next live eligible early fresh =>
    refine .inl ⟨⟨by simpa using live, not_not.mp eligible, Int.not_le.mp early, Int.not_le.mp fresh⟩, rfl⟩

theorem Kept.step (kept : Kept idleTTL ends run) (later : Later run m) (moved : next run m = some run') :
    Kept idleTTL ends run' := by
  cases m with
  | revoke now reason =>
    cases moved
    obtain ⟨t, same⟩ := revokeSession_eq now reason run.session
    rw [same]
    exact { kept with recent := nofun, ended := fun _ => nofun }
  | request r =>
    simp only [next] at moved
    have later : run.latest ≤ r.now := later
    rcases resolve_cases r run.session with ⟨admits, same⟩ | ⟨_, err, t, same⟩ <;> rw [same] at moved <;>
      cases moved
    · obtain ⟨absolute, last, idle, past, _, ended⟩ := kept
      unfold coalesceSessionActivity
      split
      · next soon =>
        refine ⟨absolute, ?_, ?_, ?_, ?_, ended⟩ <;> dsimp only <;> rw [if_neg (by omega)]
        all_goals omega
      · next long =>
        rw [clipped_eq, absolute, idle, last]
        refine ⟨rfl, ?_, ?_, ?_, ?_, ended⟩ <;> dsimp only <;> rw [if_pos (by omega)]
        all_goals unfold sessionActivityCoalesce at *; omega
    · exact { kept with past := Int.le_trans kept.past later, recent := nofun, ended := fun _ => nofun }

/-- **The lifetime of a session.** Its idle end is computed from the last activity; a request is accepted
before both ends, so that frequent requests keep it to the absolute one, and a rejected request is its end. -/
theorem session_lifetime {idleTTL absoluteTTL created : Int} {network : Network}
    (reached : Reach next Later (start idleTTL absoluteTTL created network) run) :
    run.session.idleExpiresAt = min (run.active + idleTTL) (created + absoluteTTL) ∧
    ∀ r, run.latest ≤ r.now → ((resolveBrowserSession r run.session).1 = .ok () ↔
        run.session.terminated = none ∧ r.eligible ∧
        r.now < created + absoluteTTL ∧ r.now < min (run.active + idleTTL) (created + absoluteTTL)) ∧
      (run.session.terminated = none → r.eligible →
        r.now < created + absoluteTTL → r.now - run.latest < idleTTL - sessionActivityCoalesce →
        (resolveBrowserSession r run.session).1 = .ok ()) ∧
      (run.active + idleTTL ≤ r.now → (resolveBrowserSession r run.session).1 ≠ .ok ()) ∧
      (run.rejected → (resolveBrowserSession r run.session).1 ≠ .ok ()) := by
  have kept : Kept idleTTL (created + absoluteTTL) run := by
    refine reached.invariant ?_ fun _ _ _ kept later moved => kept.step later moved
    exact ⟨rfl, rfl, clipped_eq _ _, Int.le_refl _, fun _ => Int.lt_add_of_pos_right _ (by decide), nofun⟩
  obtain ⟨absolute, last, idle, past, recent, ended⟩ := kept
  refine ⟨idle, fun r later => ?_⟩
  have accepted : (resolveBrowserSession r run.session).1 = .ok () ↔ run.session.Admits r := by
    rcases resolve_cases r run.session with ⟨admits, same⟩ | ⟨rejects, err, t, same⟩ <;> rw [same]
    · exact iff_of_true rfl admits
    · exact iff_of_false nofun rejects
  rw [BrowserSession.Admits, absolute, idle] at accepted
  refine ⟨accepted, fun live eligible early often => ?_, fun idled => ?_, fun rejected => ?_⟩
  · refine accepted.mpr ⟨live, eligible, early, ?_⟩
    have := recent live
    omega
  · rw [Ne, accepted]
    omega
  · rw [Ne, accepted]
    exact fun admits => ended rejected admits.1

theorem session_lifetime_moved : ∃ run, Reach next Later (start 600000000 3600000000 0 {}) run ∧
    run.active = 400000000 ∧ run.session.idleExpiresAt = 1000000000 := by
  obtain ⟨run, reached, active⟩ := reach_of_replay next Later (start 600000000 3600000000 0 {})
    [.request ⟨400000000, none, {}⟩] (fun run => run.active = 400000000) (by decide)
  refine ⟨run, reached, active, ?_⟩
  rw [(session_lifetime reached).1, active]
  decide

end Lifetime

end Session

end Iterabase.Auth
