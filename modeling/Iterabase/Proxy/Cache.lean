/-
**The gateway's snapshot.**

`refresh` reads four views one after the other and then swaps the four maps. The listen loop and the
poll loop refresh without excluding each other, and the control plane commits in between.

* `snapshot_never_older` — **where no commit falls between the queries of a refresh, and no refresh
  swaps after one that began on a later state, the maps never go back.**
* `snapshot_goes_back` — a poll that read before a revocation swaps after the refresh for it.
-/

import Iterabase.Conc.Run
import Iterabase.Proxy.Forward

namespace Iterabase.Proxy.Cache

open Conc

structure APIKey where
  keyHash : String
  identityID : String

structure Capability where
  identityID : String
  resource : String
  action : String

structure IdentityRateLimits where
  identityID : String
  rpm : Int
  tpm : Int

/-- What `ListCatalog`, `AllAPIKeys`, `AllCapabilities` and `AllRateLimits` return on one state of the
database. -/
structure Views where
  catalog : List CatalogEntry := []
  apiKeys : List APIKey := []
  capabilities : List Capability := []
  rateLimits : List IdentityRateLimits := []

/-- The maps of the `Cache`, as `CatalogEntry`, `IdentityByAPIKey`, `Capabilities` and `RateLimits` look
them up. -/
structure Maps where
  catalog : String → Option CatalogEntry
  apiKeys : String → Option String
  caps : String → List Capability
  rl : String → Option IdentityRateLimits

/-- The loops of `refresh`: a later row of a key overwrites an earlier one, capabilities are collected. -/
def Maps.of (views : Views) : Maps where
  catalog modelID := views.catalog.reverse.find? (·.modelID = modelID)
  apiKeys keyHash := (views.apiKeys.reverse.find? (·.keyHash = keyHash)).map (·.identityID)
  caps identityID := views.capabilities.filter (·.identityID = identityID)
  rl identityID := views.rateLimits.reverse.find? (·.identityID = identityID)

/-- Who calls `refresh`: `Start` until it succeeds, then the two loops. -/
inductive Caller
  | start
  | listenLoop
  | pollLoop
  deriving DecidableEq

/-- A call of `refresh` before its next query, or before the swap, with what it has read. -/
inductive Refresh
  | keys (catalog : List CatalogEntry)
  | capabilities (catalog : List CatalogEntry) (keys : List APIKey)
  | rateLimits (catalog : List CatalogEntry) (keys : List APIKey) (caps : List Capability)
  | swap (views : Views)

def Refresh.reading : Refresh → Bool
  | .swap _ => false
  | _ => true

structure State where
  /-- The states of the database so far, numbered by the commits before them. -/
  committed : Nat → Views
  version : Nat := 0
  maps : Maps := .of {}
  /-- The calls under way, each with the number of the state it began on. -/
  running : Caller → Option (Nat × Refresh) := fun _ => none
  /-- The states on which the calls began that have swapped the maps. -/
  swapped : List Nat := []

inductive Move
  | commit (views : Views)
  /-- A call begins, with its first query. -/
  | refresh (caller : Caller)
  /-- The next query, or the swap. -/
  | step (caller : Caller)
  /-- A query fails, and the call returns. -/
  | fail (caller : Caller)

def State.set (s : State) (caller : Caller) (call : Option (Nat × Refresh)) : State :=
  { s with running := fun c => if c = caller then call else s.running c }

def next (s : State) : Move → Option State
  | .commit views => some { s with
      version := s.version + 1
      committed := fun n => if n = s.version + 1 then views else s.committed n }
  | .refresh caller =>
    if s.running caller = none ∧ (caller = .start ↔ s.swapped = []) then
      some (s.set caller (some (s.version, .keys (s.committed s.version).catalog)))
    else none
  | .step caller =>
    let db := s.committed s.version
    match s.running caller with
    | none => none
    | some (n, .keys catalog) => some (s.set caller (some (n, .capabilities catalog db.apiKeys)))
    | some (n, .capabilities catalog keys) =>
      some (s.set caller (some (n, .rateLimits catalog keys db.capabilities)))
    | some (n, .rateLimits catalog keys caps) =>
      some (s.set caller (some (n, .swap ⟨catalog, keys, caps, db.rateLimits⟩)))
    | some (n, .swap views) =>
      some { s.set caller none with maps := .of views, swapped := n :: s.swapped }
  | .fail caller => some (s.set caller none)

/-- No commit falls between the queries of a call, and no call swaps after one that began on a later
state. -/
def Orderly (s : State) : Move → Prop
  | .commit _ => ∀ caller ∈ [Caller.start, .listenLoop, .pollLoop], ∀ call ∈ s.running caller,
      call.2.reading = false
  | .step caller => ∀ call ∈ s.running caller, call.2.reading = false → ∀ m ∈ s.swapped, m ≤ call.1
  | _ => True

instance (s : State) (m : Move) : Decidable (Orderly s m) := by
  cases m <;> unfold Orderly <;> infer_instance

/-- What a call has read is of this state. -/
def Refresh.Of : Refresh → Views → Prop
  | .keys catalog, views => catalog = views.catalog
  | .capabilities catalog read, views => catalog = views.catalog ∧ read = views.apiKeys
  | .rateLimits catalog read caps, views =>
    catalog = views.catalog ∧ read = views.apiKeys ∧ caps = views.capabilities
  | .swap read, views => read = views

/-- **Every call reads one state**, the current one as long as it reads. -/
structure Coherent (s : State) : Prop where
  calls : ∀ caller n r, s.running caller = some (n, r) →
    n ≤ s.version ∧ r.Of (s.committed n) ∧ (r.reading → n = s.version)
  maps : ∀ b ∈ s.swapped, ∃ n, b ≤ n ∧ n ≤ s.version ∧ s.maps = .of (s.committed n)

namespace Coherent

variable {s s' : State}

theorem set (coherent : Coherent s) (caller : Caller) {call : Option (Nat × Refresh)}
    (new : ∀ n r, call = some (n, r) →
      n ≤ s.version ∧ r.Of (s.committed n) ∧ (r.reading → n = s.version)) :
    Coherent (s.set caller call) where
  calls := by
    intro c n r here
    simp only [State.set] at here
    split at here
    · exact new n r here
    · exact coherent.calls c n r here
  maps := coherent.maps

theorem commit (coherent : Coherent s) (views : Views) (orderly : Orderly s (.commit views))
    (moved : next s (.commit views) = some s') : Coherent s' := by
  cases moved
  have old : ∀ {n}, n ≤ s.version → (if n = s.version + 1 then views else s.committed n) =
      s.committed n := fun bound => if_neg (by omega)
  refine ⟨fun caller n r here => ?_, fun b member => ?_⟩
  · obtain ⟨bound, read, _⟩ := coherent.calls caller n r here
    have done := orderly caller (by cases caller <;> simp) (n, r) here
    refine ⟨Nat.le_succ_of_le bound, (congrArg r.Of (old bound)).mpr read, fun reading => ?_⟩
    rw [done] at reading
    cases reading
  · obtain ⟨n, later, bound, same⟩ := coherent.maps b member
    exact ⟨n, later, Nat.le_succ_of_le bound, same.trans (congrArg Maps.of (old bound).symm)⟩

theorem step (coherent : Coherent s) (m : Move) (orderly : Orderly s m) (moved : next s m = some s') :
    Coherent s' := by
  cases m with
  | commit views => exact coherent.commit views orderly moved
  | fail caller => cases moved; exact coherent.set caller nofun
  | refresh caller =>
    simp only [next] at moved
    split at moved
    · cases moved
      refine coherent.set caller fun n r here => ?_
      cases here
      exact ⟨Nat.le_refl _, rfl, fun _ => rfl⟩
    · cases moved
  | step caller =>
    rcases here : s.running caller with _ | ⟨n, r⟩
    · simp only [next, here] at moved
      cases moved
    obtain ⟨bound, read, current⟩ := coherent.calls caller n r here
    cases r with
    | swap views =>
      simp only [next, here] at moved
      cases moved
      have after : Coherent (s.set caller none) := coherent.set caller nofun
      refine ⟨after.calls, fun b member => ⟨n, ?_, bound, congrArg Maps.of read⟩⟩
      rcases List.mem_cons.mp member with rfl | old
      · exact Nat.le_refl _
      · exact orderly (n, .swap views) here rfl b old
    | _ =>
      -- a call that still reads, reads the state it began on
      obtain rfl := current rfl
      simp only [next, here] at moved
      cases moved
      refine coherent.set caller fun n r same => ?_
      cases same
      simp only [Refresh.Of] at read ⊢
      simp [read]

end Coherent

/-- **The snapshot never goes back**: once a call that began on state `b` has swapped, the maps are
those of one committed state, `b` or a later one. -/
theorem snapshot_never_older {views : Views} {s : State}
    (reached : Reach next Orderly { committed := fun _ => views } s) :
    ∀ b ∈ s.swapped, ∃ n, b ≤ n ∧ n ≤ s.version ∧ s.maps = .of (s.committed n) := by
  have coherent : Coherent s := reached.invariant ⟨nofun, nofun⟩
    fun _ m _ coherent orderly moved => coherent.step m orderly moved
  exact coherent.maps

/-- The state before and after the revocation of the one key. -/
def keyed : Views := { apiKeys := [⟨"hash", "identity"⟩] }

def revoked : Views := {}

def whole (caller : Caller) : List Move := .refresh caller :: List.replicate 4 (.step caller)

theorem snapshot_never_older_revoked : ∃ s, Reach next Orderly { committed := fun _ => keyed } s ∧
    s.maps.apiKeys "hash" = none ∧ ∃ n, 1 ≤ n ∧ n ≤ s.version ∧ s.maps = .of (s.committed n) := by
  obtain ⟨s, reached, swapped, gone⟩ := reach_of_replay next Orderly { committed := fun _ => keyed }
    (whole .start ++ .commit revoked :: whole .listenLoop)
    (fun s => 1 ∈ s.swapped ∧ s.maps.apiKeys "hash" = none) (by decide +kernel)
  exact ⟨s, reached, gone, snapshot_never_older reached 1 swapped⟩

/-- **The snapshot goes back.** The poll loop has read the keys when one is revoked; the listen loop
refreshes for the revocation, and then the poll loop swaps. -/
theorem snapshot_goes_back : ¬ ∀ (views : Views) (s : State),
    Reach next (fun _ _ => True) { committed := fun _ => views } s →
      ∀ b ∈ s.swapped, ∃ n, b ≤ n ∧ n ≤ s.version ∧ s.maps = .of (s.committed n) := by
  intro claim
  obtain ⟨s, reached, swapped, one, gone, kept⟩ := reach_of_replay next (fun _ _ => True)
    { committed := fun _ => keyed }
    (whole .start ++ [.refresh .pollLoop, .step .pollLoop, .commit revoked] ++ whole .listenLoop ++
      List.replicate 3 (.step .pollLoop))
    (fun s => 1 ∈ s.swapped ∧ s.version = 1 ∧ (s.committed 1).apiKeys = [] ∧
      s.maps.apiKeys "hash" = some "identity") (by decide +kernel)
  obtain ⟨n, later, bound, same⟩ := claim keyed s reached 1 swapped
  obtain rfl : n = 1 := by omega
  rw [same, Maps.of, gone] at kept
  cases kept

end Iterabase.Proxy.Cache
