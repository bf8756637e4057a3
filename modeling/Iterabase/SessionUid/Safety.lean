/-
**Session UIDs — no sharing, no early reuse.**

* `lastChange`, `holder` — the last thing that happened to a UID, and the session that has it in use.
* `Inv`, `system_sound` — the invariant, and that every statement keeps it.
* `session_uids_safe` — **the four guarantees**, in every interleaving.
-/

import Iterabase.SessionUid.Allocator

namespace Iterabase.SessionUid

open Conc List Table Option

variable {s : State} {uid : UID}

/-! ### Traces -/

/-- The event changes who has a UID. -/
def Event.changes (uid : UID) : Event → Bool
  | .claimed u _ _ _ _ _ => u = uid
  | .reclaimed u _ _ _ => u = uid
  | .freed u _ _ => u = uid
  | .returned _ _ _ _ _ _ => false

open Event

def lastChange (trace : List Event) (uid : UID) : Option Event := trace.find? (changes uid)

def Event.takenBy : Event → Option SessionID
  | .claimed _ sessionID _ _ _ _ => some sessionID
  | .reclaimed _ sessionID _ _ => some sessionID
  | .freed _ _ _ => none
  | .returned _ _ _ _ _ _ => none

def holder (trace : List Event) (uid : UID) : Option SessionID :=
  (lastChange trace uid).bind takenBy

/-- What an event needs of the events before it. -/
def Event.Allowed (earlier : List Event) : Event → Prop
  | .claimed uid _ base n clock grace =>
      (base.toNat ≤ uid ∧ uid < base.toNat + n.toNat) ∧ holder earlier uid = none ∧
        ∀ owner time, lastChange earlier uid = some (.freed uid owner time) → time + grace < clock
  | .reclaimed uid sessionID clock grace =>
      ∃ time, lastChange earlier uid = some (.freed uid sessionID time) ∧ time + grace < clock
  | .freed uid sessionID _ => holder earlier uid = some sessionID
  | .returned uid sessionID _ _ _ _ => holder earlier uid = some sessionID

/-- Every event of a trace, newest first, is allowed after those before it. -/
def Lawful (trace : List Event) : Prop := ∀ e earlier, (e :: earlier) <:+ trace → e.Allowed earlier

theorem lastChange_cons (e : Event) (trace : List Event) (uid : UID) :
    lastChange (e :: trace) uid = if e.changes uid then some e else lastChange trace uid := by
  unfold lastChange
  rw [find?_cons]
  cases e.changes uid <;> rfl

theorem lawful_nil : Lawful [] := fun _ _ before => absurd (suffix_nil.mp before)
    (cons_ne_nil _ _)

variable {trace : List Event}

theorem lawful_cons {e : Event} : Lawful (e :: trace) ↔ e.Allowed trace ∧ Lawful trace := by
  constructor
  · intro lawful
    exact ⟨lawful e trace suffix_rfl, fun e' earlier before =>
      lawful e' earlier (before.trans (suffix_cons e trace))⟩
  · rintro ⟨allowed, lawful⟩ e' earlier before
    rcases suffix_cons_iff.mp before with same | older
    · cases same
      exact allowed
    · exact lawful e' earlier older

variable {sessionID : SessionID}

/-- The session has claimed the UID from the range of some call. -/
def Claimed (trace : List Event) (uid : UID) (sessionID : SessionID) : Prop :=
  ∃ base n : UInt32, ∃ clock grace, .claimed uid sessionID base n clock grace ∈ trace ∧
    base.toNat ≤ uid ∧ uid < base.toNat + n.toNat

theorem Claimed.mono {trace' : List Event} (claimed : Claimed trace uid sessionID) (sub : trace ⊆ trace') :
    Claimed trace' uid sessionID := by
  obtain ⟨base, n, clock, grace, member, range⟩ := claimed
  exact ⟨base, n, clock, grace, sub member, range⟩

/-- The session that has a UID, or freed it last, has claimed it. -/
theorem claimed_of_last (lawful : Lawful trace)
    (last : holder trace uid = some sessionID ∨
      ∃ time, lastChange trace uid = some (.freed uid sessionID time)) : Claimed trace uid sessionID := by
  induction trace with
  | nil =>
    rcases last with held | ⟨_, freed⟩
    · cases held
    · cases freed
  | cons e trace ih =>
    obtain ⟨allowed, older⟩ := lawful_cons.mp lawful
    -- a claim further back is a claim of the whole trace
    have back := fun before => (ih older before).mono (subset_cons_self e trace)
    unfold holder at last
    rw [lastChange_cons] at last
    split at last
    · next here =>
      rcases last with held | ⟨time, freed⟩
      · cases e with
        | claimed u owner base n clock grace =>
          cases held
          obtain rfl : u = uid := of_decide_eq_true here
          exact ⟨base, n, clock, grace, .head _, allowed.1⟩
        | reclaimed u owner clock grace =>
          cases held
          obtain rfl : u = uid := of_decide_eq_true here
          obtain ⟨time, was, _⟩ := allowed
          exact back (.inr ⟨time, was⟩)
        | _ => cases held
      · cases freed
        exact back (.inl allowed)
    · exact back last

/-! ### The invariant -/

/-- A row says what happened last to its UID. -/
def Recorded (trace : List Event) (uid : UID) (row : Option Allocation) : Prop :=
  match row with
  | none => lastChange trace uid = none
  | some r => (r.state = .inUse ∧ holder trace uid = some r.sessionID) ∨
      ∃ time, r.state = .freed ∧ r.freedAt = some time ∧
        lastChange trace uid = some (.freed uid r.sessionID time)

/-- The session of an active assignment holds the assignment's UID. -/
def Held (s : State) (a : Assignment) : Prop :=
  ∃ run r, s.runs.find a.runID = some run ∧ s.allocations.table.find a.sandboxUID = some r ∧
    r.state = .inUse ∧ r.sessionID = run.sessionID

structure Inv (s : State) : Prop where
  recorded : ∀ uid, Recorded s.trace uid (s.allocations.table.find uid)
  lawful : Lawful s.trace
  held : ∀ turnID a, s.assignments.find turnID = some a → a.state = .active → Held s a
  sent : ∀ m ∈ s.sent, ∃ a, s.assignments.find m.turnID = some a ∧ a.sandboxUID = m.uid

/-- An assignment stays, and so does its UID. -/
def Kept (s s' : State) : Prop :=
  ∀ turnID a, s.assignments.find turnID = some a →
    ∃ a', s'.assignments.find turnID = some a' ∧ a'.sandboxUID = a.sandboxUID

theorem Kept.refl (s : State) : Kept s s := fun _ a found => ⟨a, found, rfl⟩

theorem Kept.trans {s₁ s₂ s₃ : State} (first : Kept s₁ s₂) (second : Kept s₂ s₃) : Kept s₁ s₃ :=
  carried_trans (fun same same' => same'.trans same) first second

/-- The rules of the pool: every action keeps the invariant and the assignments. -/
def rules : Rules State where
  inv := Inv
  moves _ _ := True
  rely _ := Kept
  rely_refl _ := Kept.refl
  rely_trans := Kept.trans

def Keeps (s s' : State) : Prop := Inv s' ∧ Kept s s'

theorem Keeps.step {s s' : State} (keeps : Keeps s s') (t : Nat) : rules.Step t s s' :=
  ⟨keeps.1, trivial, fun _ _ => keeps.2⟩

theorem Inv.same (inv : Inv s) : Keeps s s := ⟨inv, Kept.refl s⟩

theorem Inv.assigns (inv : Inv s) {assignments : Table Assignment.turnID}
    (kept : Kept s { s with assignments })
    (held : ∀ turnID a, assignments.find turnID = some a → a.state = .active → Held s a) :
    Keeps s { s with assignments } := by
  refine ⟨⟨inv.recorded, inv.lawful, held, fun m member => ?_⟩, kept⟩
  obtain ⟨a, has, same⟩ := inv.sent m member
  obtain ⟨a', has', same'⟩ := kept _ a has
  exact ⟨a', has', same'.trans same⟩

variable {r : Allocation}

/-! ### Rows -/

theorem ofSession_find {a : Allocations} (found : a.ofSession sessionID = some r) :
    a.table.find r.uid = some r ∧ r.sessionID = sessionID := by
  have selected := find?_some found
  exact ⟨find_of_mem (mem_of_find?_eq_some found), of_decide_eq_true selected⟩

theorem set_find (a : Allocations) (uid : UID) (state : AllocationState) (freedAt : Option Time)
    (k : UID) : (a.set uid state freedAt).table.find k = (a.table.find k).map fun r => if k =
    uid then { r with state := state, freedAt := freedAt } else r := by
  unfold Allocations.set
  rw [find_update]
  cases found : a.table.find k with
  | none => rfl
  | some r =>
    have key := find_key found
    simp only [map_some, key, decide_eq_true_eq]

theorem expired_freedAt {before : Time} (expired : r.expired before) :
    r.state = .freed ∧ ∃ time, r.freedAt = some time ∧ time < before := by
  obtain ⟨freed, past⟩ := of_decide_eq_true expired
  refine ⟨freed, ?_⟩
  cases is : r.freedAt with
  | none =>
    rw [is] at past
    cases past
  | some time =>
    rw [is] at past
    exact ⟨time, rfl, of_decide_eq_true past⟩

/-- An expired row was freed last by its session, and its grace period is over. -/
theorem Inv.freed_of_expired (inv : Inv s) {clock grace : Time}
    (found : s.allocations.table.find uid = some r) (expired : r.expired (clock - grace)) :
    ∃ time, lastChange s.trace uid = some (.freed uid r.sessionID time) ∧ time + grace < clock := by
  obtain ⟨freed, time, is, past⟩ := expired_freedAt expired
  have recorded := inv.recorded uid
  rw [found] at recorded
  rcases recorded with ⟨inUse, _⟩ | ⟨time', _, is', last⟩
  · rw [freed] at inUse
    cases inUse
  rw [is] at is'
  cases is'
  exact ⟨time, last, Int.add_lt_of_lt_sub_right past⟩

/-- No active assignment depends on a UID that is not in use. -/
theorem Inv.vacant (inv : Inv s)
    (unused : ∀ r, s.allocations.table.find uid = some r → r.state ≠ .inUse) (turnID : TurnID)
    (a : Assignment) (found : s.assignments.find turnID = some a) (active : a.state = .active) :
    a.sandboxUID ≠ uid := by
  rintro rfl
  obtain ⟨_, r, _, row, inUse, _⟩ := inv.held turnID a found active
  exact unused r row inUse

variable {allocations : Allocations}

/-- **One UID changes**, and no active assignment depends on it. -/
theorem Inv.change (inv : Inv s) {e : Event} (allowed : e.Allowed s.trace)
    (about : ∀ k, e.changes k = decide (uid = k))
    (here : Recorded (e :: s.trace) uid (allocations.table.find uid))
    (others : ∀ k, k ≠ uid → allocations.table.find k = s.allocations.table.find k)
    (vacant : ∀ turnID a, s.assignments.find turnID = some a → a.state = .active → a.sandboxUID ≠ uid)
    : Keeps s (({ s with allocations := allocations }).record e) := by
  refine ⟨⟨fun k => ?_, lawful_cons.mpr ⟨allowed, inv.lawful⟩, fun turnID a found active => ?_,
    inv.sent⟩, Kept.refl s⟩
  · by_cases same : k = uid
    · rw [same]
      exact here
    · have before := inv.recorded k
      show Recorded (e :: s.trace) k (allocations.table.find k)
      rw [others k same]
      unfold Recorded holder at before ⊢
      have kept : lastChange (e :: s.trace) k = lastChange s.trace k := by
        rw [lastChange_cons, about, if_neg (by simpa using Ne.symm same)]
      rw [kept]
      exact before
  · obtain ⟨run, r, hasRun, row, rest⟩ := inv.held turnID a found active
    exact ⟨run, r, hasRun, (others _ (vacant turnID a found active)).trans row, rest⟩

theorem Inv.returns (inv : Inv s) (call : Call)
    (holds : holder s.trace uid = some call.sessionID) : Keeps s (call.returns uid s) := by
  refine ⟨⟨fun k => ?_, lawful_cons.mpr ⟨holds, inv.lawful⟩, inv.held, inv.sent⟩, Kept.refl s⟩
  exact inv.recorded k

/-! ### Statements -/

/-- What a statement of a call that answers with a UID does: on an answer its session holds it. -/
def Serves (call : Call) (run : Time → State → Except Err (Option UID) × State) : Prop :=
  ∀ now s, Inv s → Keeps s (run now s).2 ∧
    ∀ uid, (run now s).1 = .ok (some uid) → holder (run now s).2.trace uid = some call.sessionID

/-- A session has the UID of its row that is not freed. -/
theorem Inv.holds (inv : Inv s) (found : s.allocations.ofSession sessionID = some r)
    (used : r.state ≠ .freed) : holder s.trace r.uid = some sessionID := by
  obtain ⟨row, owner⟩ := ofSession_find found
  have recorded := inv.recorded r.uid
  rw [row] at recorded
  rcases recorded with ⟨_, holds⟩ | ⟨_, freed, _⟩
  · rw [holds, owner]
  · exact absurd freed used

theorem holdUID_serves (call : Call) : Serves call (holdUID call.sessionID) := by
  intro now s inv
  unfold holdUID
  cases found : s.allocations.ofSession call.sessionID with
  | none => exact ⟨inv.same, by simp⟩
  | some r =>
    obtain ⟨row, owner⟩ := ofSession_find found
    dsimp only
    split
    · next inUse =>
      have holds := inv.holds found (by simp [inUse])
      -- the row stays in use for the same session
      refine ⟨⟨⟨fun k => ?_, inv.lawful, fun turnID a has active => ?_, inv.sent⟩, Kept.refl s⟩, ?_⟩
      · rw [set_find]
        by_cases same : k = r.uid
        · rw [same, row]
          exact .inl ⟨by simp, by simp [holds, owner]⟩
        · simpa [same] using inv.recorded k
      · obtain ⟨run, r', hasRun, has', inUse', same⟩ := inv.held turnID a has active
        refine ⟨run, _, hasRun, (set_find ..).trans (congrArg _ has'), ?_, ?_⟩
        · split
          · rfl
          · exact inUse'
        · split <;> exact same
      · intro uid is
        cases is
        exact holds
    · exact ⟨inv.same, by simp⟩

theorem reclaimUID_serves (call : Call) :
    Serves call (reclaimUID call.sessionID call.clock call.grace) := by
  intro now s inv
  unfold reclaimUID
  cases found : s.allocations.ofSession call.sessionID with
  | none => exact ⟨inv.same, by simp⟩
  | some r =>
    obtain ⟨row, owner⟩ := ofSession_find found
    dsimp only
    split
    · next expired =>
      obtain ⟨time, last, past⟩ := inv.freed_of_expired row expired
      rw [owner] at last
      refine ⟨inv.change ⟨time, last, past⟩ (fun k => rfl) ?_ (fun k other => ?_)
        (inv.vacant fun r' row' => ?_), ?_⟩
      · rw [set_find, row]
        refine .inl ⟨by simp, ?_⟩
        simp [holder, lastChange_cons, changes, takenBy, owner]
      · rw [set_find]
        simp [other]
      · cases row.symm.trans row'
        rw [(expired_freedAt expired).1]
        simp
      · intro uid is
        cases is
        simp [State.record, holder, lastChange_cons, changes, takenBy]
    · exact ⟨inv.same, by simp⟩

theorem Inv.claims (inv : Inv s) (call : Call) {candidate : UID} {clock : Time}
    (range : call.base.toNat ≤ candidate ∧ candidate < call.base.toNat + call.n.toNat)
    (free : ∀ r, s.allocations.table.find candidate = some r → r.expired (clock - call.grace))
    (here : allocations.table.find candidate = some ⟨candidate, call.sessionID, .inUse, none⟩)
    (others : ∀ k, k ≠ candidate → allocations.table.find k = s.allocations.table.find k) :
    Keeps s (({ s with allocations := allocations }).record
      (.claimed candidate call.sessionID call.base call.n clock call.grace)) := by
  -- nothing happened to the candidate, or it was freed and its grace period is over
  have last : lastChange s.trace candidate = none ∨ ∃ owner time,
      lastChange s.trace candidate = some (.freed candidate owner time) ∧ time + call.grace < clock := by
    have recorded := inv.recorded candidate
    cases row : s.allocations.table.find candidate with
    | none =>
      rw [row] at recorded
      exact .inl recorded
    | some r => exact .inr ⟨r.sessionID, inv.freed_of_expired row (free r row)⟩
  refine inv.change ⟨range, ?_, fun owner time freed => ?_⟩ (fun k => rfl) ?_ others
    (inv.vacant fun r row => ?_)
  · unfold holder
    rcases last with none | ⟨owner, time, last, _⟩
    · rw [none]
      rfl
    · rw [last]
      rfl
  · rcases last with none | ⟨owner, time', last, past⟩
    · cases none.symm.trans freed
    · cases last.symm.trans freed
      exact past
  · rw [here]
    refine .inl ⟨rfl, ?_⟩
    simp [holder, lastChange_cons, changes, takenBy]
  · rw [(expired_freedAt (free r row)).1]
    nofun

theorem write_ok {table : Table Allocation.uid}
    (written : Allocations.write table = .ok allocations) : allocations.table = table := by
  unfold Allocations.write at written
  split at written
  · cases written
    rfl
  · cases written

theorem claimUID_serves (call : Call) {candidate : UID} (clock : Time)
    (range : call.base.toNat ≤ candidate ∧ candidate < call.base.toNat + call.n.toNat) :
    Serves call (claimUID call candidate clock) := by
  intro now s inv
  -- after the claim the session holds the candidate
  have holds : ∀ (s : State) (uid : UID), (Except.ok (some candidate) : Except Err (Option UID)) = .ok (some uid) →
      holder (s.record (.claimed candidate call.sessionID call.base call.n clock call.grace)).trace uid =
        some call.sessionID := by
    intro s uid is
    cases is
    simp [State.record, holder, lastChange_cons, changes, takenBy]
  unfold claimUID
  cases row : s.allocations.table.find candidate with
  | none =>
    cases inserted : s.allocations.table.insert ⟨candidate, call.sessionID, .inUse, none⟩ with
    | none => exact ⟨inv.same, by simp⟩
    | some table =>
      dsimp only
      cases written : Allocations.write table with
      | error e => exact ⟨inv.same, by simp⟩
      | ok allocations =>
        refine ⟨inv.claims call range (fun r there => ?_) ?_ fun k other => ?_, holds _⟩
        · rw [row] at there
          cases there
        · rw [write_ok written, find_insert inserted, if_pos rfl]
        · rw [write_ok written, find_insert inserted, if_neg (Ne.symm other)]
  | some r =>
    dsimp only
    split
    · next expired =>
      cases written : Allocations.write (s.allocations.table.update (fun r => r.uid = candidate)
          (fun r => { r with sessionID := call.sessionID, state := .inUse, freedAt := none })
          fun _ => rfl) with
      | error e => exact ⟨inv.same, by simp⟩
      | ok allocations =>
        have key := find_key row
        refine ⟨inv.claims call range (fun r' there => ?_) ?_ fun k other => ?_, holds _⟩
        · cases row.symm.trans there
          exact expired
        · rw [write_ok written, find_update, row]
          simp [key]
        · rw [write_ok written]
          exact find_update_other _ (fun _ => of_decide_eq_true) other
    · exact ⟨inv.same, by simp⟩

theorem releaseSessionUID_keeps (sessionID : SessionID) (now : Time) (inv : Inv s) :
    Keeps s (releaseSessionUID sessionID now s).2 := by
  unfold releaseSessionUID
  cases found : s.allocations.ofSession sessionID with
  | none => exact inv.same
  | some r =>
    obtain ⟨row, owner⟩ := ofSession_find found
    dsimp only
    split
    · exact inv.same
    rename_i freed
    split
    · exact inv.same
    rename_i busy
    refine inv.change (inv.holds found freed) (fun k => rfl) ?_ (fun k other => ?_) fun turnID a has active same => ?_
    · rw [set_find, row]
      refine .inr ⟨now, by simp, by simp, ?_⟩
      simp [lastChange_cons, changes, owner]
    · rw [set_find]
      simp [other]
    · -- the assignment's session is the one being released
      obtain ⟨run, r', hasRun, has', _, session⟩ := inv.held turnID a has active
      rw [same, row] at has'
      cases has'
      refine busy (any_eq_true.mpr ⟨a, find_mem has, decide_eq_true ⟨active, ?_⟩⟩)
      rw [hasRun]
      exact decide_eq_true (session.symm.trans owner)

theorem createAssignment_keeps (turnID : TurnID) (runID : RunID) (sessionID : SessionID) (uid gid : UID)
    (now : Time) (inv : Inv s) :
    Keeps s (createAssignment turnID runID sessionID uid gid now s).2 ∧
      ((createAssignment turnID runID sessionID uid gid now s).1 = .ok () →
        ∃ a, (createAssignment turnID runID sessionID uid gid now s).2.assignments.find turnID = some a ∧
          a.sandboxUID = uid) := by
  have refused : ∀ e : Err, Keeps s s ∧ ((Except.error e : Except Err Unit) = .ok () →
      ∃ a, s.assignments.find turnID = some a ∧ a.sandboxUID = uid) :=
    fun e => ⟨inv.same, by simp⟩
  unfold createAssignment
  split
  · exact refused _
  cases hasRun : s.runs.find runID with
  | none => exact refused _
  | some run =>
  dsimp only
  split
  · exact refused _
  rename_i foreign
  cases found : s.allocations.ofSession sessionID with
  | none => exact refused _
  | some r =>
  obtain ⟨row, owner⟩ := ofSession_find found
  dsimp only
  split
  · exact refused _
  rename_i unused
  split
  · exact refused _
  rename_i mismatch
  cases inserted : s.assignments.insert ⟨turnID, runID, uid, .active⟩ with
  | none => exact refused _
  | some assignments =>
  refine ⟨inv.assigns (fun id a has => ⟨a, find_insert_old inserted has, rfl⟩)
    fun id a has active => ?_, fun _ => ⟨_, (find_insert inserted turnID).trans (if_pos rfl), rfl⟩⟩
  rw [find_insert inserted] at has
  split at has
  · cases has
    refine ⟨run, r, hasRun, ?_, not_not.mp unused, owner.trans (not_not.mp foreign).symm⟩
    rw [← not_not.mp mismatch]
    exact row
  · exact inv.held id a has active

theorem setAssignment_keeps (turnID : TurnID) (p : AssignmentState → Bool) {target : AssignmentState}
    (inactive : target ≠ .active) (inv : Inv s) : Keeps s (s.setAssignment turnID p target) := by
  have rewritten : ∀ id, (s.setAssignment turnID p target).assignments.find id =
      (s.assignments.find id).map fun a =>
        if decide (a.turnID = turnID ∧ p a.state) then { a with state := target } else a :=
    fun id => find_update s.assignments _ (fun a => { a with state := target }) (fun _ => rfl) id
  have kept : Kept s (s.setAssignment turnID p target) := by
    intro id a has
    refine ⟨if decide (a.turnID = turnID ∧ p a.state) then { a with state := target } else a, ?_, ?_⟩
    · rw [rewritten, has]
      rfl
    · split <;> rfl
  refine inv.assigns kept fun id a has active => ?_
  obtain ⟨a', has', same⟩ := map_eq_some_iff.mp ((rewritten id).symm.trans has)
  split at same
  · rw [← same] at active
    exact absurd active inactive
  · cases same
    exact inv.held id a has' active

theorem createRun_keeps (id : RunID) (sessionID : SessionID) (now : Time) (inv : Inv s) :
    Keeps s (createRun id sessionID now s).2 := by
  unfold createRun
  cases inserted : s.runs.insert ⟨id, sessionID⟩ with
  | none => exact inv.same
  | some runs =>
    refine ⟨⟨inv.recorded, inv.lawful, fun turnID a has active => ?_, inv.sent⟩, Kept.refl s⟩
    obtain ⟨run, r, hasRun, rest⟩ := inv.held turnID a has active
    exact ⟨run, r, find_insert_old inserted hasRun, rest⟩

/-! ### Programs -/

section Programs

variable {t : Nat} {s : State} {α : Type} {run : Time → State → Except Err α × State}

/-- A statement that keeps the invariant; a failure says nothing of the state. -/
theorem statement_wp {Q : Except Err α → State → Prop}
    (failed : ∀ s, Q (.error .store) s)
    (holds : ∀ s₁, Kept s s₁ → Inv s₁ → ∀ now,
      Keeps s₁ (run now s₁).2 ∧ Q (run now s₁).1 (run now s₁).2) :
    Wp rules t (statement run) Q s := by
  refine Wp.atomic fun s₁ moved inv input answer s₂ ran => ?_
  obtain ⟨keeps, post⟩ := holds s₁ moved inv input.now
  cases failure : input.failure with
  | none =>
    simp only [failure, some.injEq] at ran
    rw [ran] at keeps post
    exact ⟨keeps.step t, post⟩
  | before =>
    simp only [failure] at ran
    cases ran
    exact ⟨inv.same.step t, failed s₁⟩
  | after =>
    simp only [failure] at ran
    cases ran
    exact ⟨keeps.step t, failed _⟩

theorem answering_wp {call : Call} {run : Time → State → Except Err (Option UID) × State}
    (serves : Serves call run) : Follows rules t (answering call run) s := by
  refine Wp.atomic fun s₁ _ inv input answer s₂ ran => ?_
  obtain ⟨keeps, holds⟩ := serves input.now s₁ inv
  refine ⟨?_, trivial⟩
  cases failure : input.failure with
  | none =>
    simp only [failure] at ran
    split at ran
    · rename_i uid s' served
      rw [served] at keeps holds
      cases ran
      obtain ⟨inv', kept⟩ := keeps.1.returns call (holds uid rfl)
      exact Keeps.step ⟨inv', keeps.2.trans kept⟩ t
    · rw [some.inj ran] at keeps
      exact keeps.step t
  | before =>
    simp only [failure] at ran
    cases ran
    exact inv.same.step t
  | after =>
    simp only [failure] at ran
    cases ran
    exact keeps.step t

theorem clock_wp : Follows rules t clock s := by
  refine Wp.atomic fun s₁ _ inv input answer s₂ ran => ?_
  cases ran
  exact ⟨inv.same.step t, trivial⟩

theorem selectFree_range {base n : UInt32} {before now : Time}
    (selected : (selectFree base n before now s).1 = .ok (some uid)) :
    base.toNat ≤ uid ∧ uid < base.toNat + n.toNat := by
  unfold selectFree at selected
  split at selected
  · cases selected
  simp only [Except.ok.injEq] at selected
  have member := mem_of_find?_eq_some selected
  rw [mem_range'_1] at member
  have last := UInt32.toNat_sub (base + n) 1
  rw [UInt32.toNat_add] at last
  simp only [UInt32.toNat_one] at last
  refine ⟨member.1, Nat.lt_of_lt_of_le member.2 ?_⟩
  rcases Nat.eq_zero_or_pos ((base.toNat + n.toNat) % 2 ^ 32) with none | some
  · omega
  · omega

theorem tryAllocSessionUID_wp (call : Call) : Follows rules t (tryAllocSessionUID call) s := by
  refine clock_wp.seq fun now s₁ => Wp.bind (statement_wp (fun _ => trivial) fun s₂ _ inv now' => ⟨?_, ?_⟩)
  · unfold selectFree
    split <;> exact inv.same
  · cases selected : (selectFree call.base call.n (now - call.grace) now' s₂).1 with
    | error e => trivial
    | ok candidate =>
      cases candidate with
      | none => trivial
      | some candidate =>
        refine (answering_wp (claimUID_serves call now (selectFree_range selected))).seq fun answer s₃ => ?_
        cases answer with
        | error e => trivial
        | ok uid => cases uid <;> trivial

theorem retry_wp (call : Call) (attempts : Nat) : Follows rules t (retry call attempts) s := by
  induction attempts generalizing s with
  | zero => trivial
  | succ attempts ih =>
    refine (tryAllocSessionUID_wp call).seq fun answer s₁ => ?_
    cases answer with
    | ok uid => trivial
    | error e => cases e <;> first | trivial | exact ih

theorem allocateSessionUID_wp (sessionID : SessionID) (base n : UInt32) (grace : Time) :
    Follows rules t (allocateSessionUID sessionID base n grace) s := by
  unfold allocateSessionUID
  split
  · trivial
  refine clock_wp.seq fun now s₁ => ?_
  refine (answering_wp (holdUID_serves ⟨sessionID, base, n, grace, now⟩)).seq fun answer s₂ => ?_
  rcases answer with e | (_ | uid)
  · trivial
  · refine (answering_wp (reclaimUID_serves ⟨sessionID, base, n, grace, now⟩)).seq fun answer s₃ => ?_
    rcases answer with e | (_ | uid)
    · trivial
    · refine Wp.bind (statement_wp (fun _ => trivial) fun s₄ _ inv now' => ⟨inv.same, ?_⟩)
      cases (freedWithin sessionID (now - grace) now' s₄).1 with
      | error e => trivial
      | ok within =>
        cases within with
        | true => trivial
        | false => exact retry_wp _ 8
    · trivial
  · trivial

theorem assign_wp (turnID : TurnID) (runID : RunID) (sessionID : SessionID) (base n : UInt32)
    (grace : Time) : Follows rules t (assign turnID runID sessionID base n grace) s := by
  refine (allocateSessionUID_wp sessionID base n grace).seq fun answer s₁ => ?_
  cases answer with
  | error e => trivial
  | ok uid =>
    refine Wp.bind (statement_wp (fun _ => trivial) fun s₂ _ inv now => ?_)
    obtain ⟨keeps, created⟩ := createAssignment_keeps turnID runID sessionID uid uid now inv
    refine ⟨keeps, ?_⟩
    cases answer : (createAssignment turnID runID sessionID uid uid now s₂).1 with
    | error e => trivial
    | ok done =>
      obtain ⟨a, has, same⟩ := created answer
      refine Wp.atomic fun s₃ moved inv' _ _ s₄ ran => ⟨?_, trivial⟩
      cases ran
      obtain ⟨a', has', same'⟩ := moved turnID a has
      have keeps : Keeps s₃ { s₃ with sent := ⟨turnID, sessionID, uid⟩ :: s₃.sent } := by
        refine ⟨⟨inv'.recorded, inv'.lawful, inv'.held, fun m member => ?_⟩, Kept.refl s₃⟩
        rcases mem_cons.mp member with rfl | old
        · exact ⟨a', has', same'.trans same⟩
        · exact inv'.sent m old
      exact keeps.step t

theorem single_wp (keeps : ∀ now s, Inv s → Keeps s (run now s).2) :
    Follows rules t (statement run >>= fun _ => pure ()) s :=
  Wp.bind (statement_wp (fun _ => trivial) fun s₁ _ inv now => ⟨keeps now s₁ inv, trivial⟩)

theorem program_wp (request : Request) : Follows rules t request.program s := by
  cases request with
  | createRun id sessionID => exact single_wp fun now _ inv => createRun_keeps id sessionID now inv
  | allocate sessionID base n grace =>
    exact (allocateSessionUID_wp sessionID base n grace).seq fun _ _ => trivial
  | create turnID runID sessionID uid gid =>
    exact single_wp fun now _ inv => (createAssignment_keeps turnID runID sessionID uid gid now inv).1
  | assign turnID runID sessionID base n grace => exact assign_wp turnID runID sessionID base n grace
  | fence turnID =>
    have inactive : AssignmentState.fenced ≠ .active := by decide
    exact single_wp fun _ _ inv => setAssignment_keeps turnID (· = .active) inactive inv
  | terminalize turnID =>
    have inactive : AssignmentState.terminal ≠ .active := by decide
    exact single_wp fun _ _ inv =>
      setAssignment_keeps turnID (fun state => state = .active ∨ state = .fenced) inactive inv
  | release sessionID => exact single_wp fun now _ inv => releaseSessionUID_keeps sessionID now inv

end Programs

theorem system_sound : system.Sound rules where
  start inv started := by
    cases started
    exact ⟨inv.same.step _, program_wp _⟩
  restart inv := inv

theorem inv_init : Inv {} where
  recorded _ := rfl
  lawful := lawful_nil
  held _ _ found := nomatch found
  sent _ none := absurd none not_mem_nil

/-! ### The guarantees -/

structure Safe (s : State) : Prop where
  /-- No two sessions have one UID in use. -/
  exclusive : ∀ r ∈ s.allocations.table.rows, ∀ r' ∈ s.allocations.table.rows, r.state = .inUse →
    r'.state = .inUse → r.uid = r'.uid → r.sessionID = r'.sessionID
  /-- A UID is put to use again only past the grace period of its release, and returned to the session
  that has it in use only. -/
  graced : Lawful s.trace
  /-- A UID that is returned was claimed by its session from the range of a call. -/
  ranged : ∀ uid sessionID base n clock grace,
    .returned uid sessionID base n clock grace ∈ s.trace → ∃ base' n' clock' grace',
      .claimed uid sessionID base' n' clock' grace' ∈ s.trace ∧
        base'.toNat ≤ uid ∧ uid < base'.toNat + n'.toNat
  /-- While all calls use one range, what is returned lies in it. -/
  oneRange : ∀ base n : UInt32, (∀ uid sessionID base' n' clock grace,
      .claimed uid sessionID base' n' clock grace ∈ s.trace → base' = base ∧ n' = n) →
    ∀ uid sessionID base' n' clock grace, .returned uid sessionID base' n' clock grace ∈ s.trace →
      base.toNat ≤ uid ∧ uid < base.toNat + n.toNat
  /-- The session of an active assignment has the UID in use that its `AssignTurn` names. -/
  held : ∀ a ∈ s.assignments.rows, a.state = .active → ∃ run r, s.runs.find a.runID = some run ∧
    r ∈ s.allocations.table.rows ∧ r.state = .inUse ∧ r.sessionID = run.sessionID ∧
      ∀ m ∈ s.sent, m.turnID = a.turnID → m.uid = r.uid

theorem claimed_of_returned (lawful : Lawful trace) {base n : UInt32} {clock grace : Time}
    (member : .returned uid sessionID base n clock grace ∈ trace) : Claimed trace uid sessionID := by
  obtain ⟨later, earlier, rfl⟩ := append_of_mem member
  have older := lawful _ earlier (suffix_append later _)
  have lawful' : Lawful earlier := fun e before suffix => lawful e before
    ((suffix.trans (suffix_cons _ _)).trans (suffix_append later _))
  exact (claimed_of_last lawful' (.inl older)).mono fun _ known => mem_append_right _ (.tail _ known)

theorem Inv.safe (inv : Inv s) : Safe s where
  exclusive r member r' member' _ _ same := by
    have found := find_of_mem member
    rw [same, find_of_mem member'] at found
    cases found
    rfl
  graced := inv.lawful
  ranged _ _ _ _ _ _ member := claimed_of_returned inv.lawful member
  oneRange base n one uid sessionID base' n' clock grace member := by
    obtain ⟨_, _, _, _, claimed, range⟩ := claimed_of_returned inv.lawful member
    obtain ⟨rfl, rfl⟩ := one _ _ _ _ _ _ claimed
    exact range
  held a member active := by
    obtain ⟨run, r, hasRun, row, inUse, session⟩ :=
      inv.held a.turnID a (find_of_mem member) active
    refine ⟨run, r, hasRun, find_mem row, inUse, session, fun m sent same => ?_⟩
    obtain ⟨a', has, uid⟩ := inv.sent m sent
    rw [same, find_of_mem member] at has
    cases has
    rw [← uid]
    exact (find_key row).symm

/-- **Session UIDs are safe**, in every interleaving of the calls and with restarts. -/
theorem session_uids_safe {c : Config Unit Input State} (reached : system.Reaches .free {} c) :
    Safe c.shared :=
  (system_sound.invariant inv_init reached).safe

def assigning : List (Move Input Request) :=
  [.start (.createRun "r" "s"), .run 0 {}, .start (.assign "t" "r" "s" 100 4 10)] ++
    List.replicate 9 (.run 1 {})

theorem session_uids_safe_assigned : ∃ c, system.Reaches .free {} c ∧
    c.shared.sent = [⟨"t", "s", 100⟩] ∧ Safe c.shared := by
  exact reach_of_replay_and assigning (by decide +kernel) fun reached _ => session_uids_safe reached

/-- A call reads its clock and is overtaken by a release and by another call of its session. -/
def overtaken : List (Move Input Request) :=
  [.start (.allocate "s" 100 4 10)] ++ List.replicate 7 (.run 0 {}) ++
    [.start (.allocate "s" 100 4 10), .run 1 ⟨20, .none⟩, .start (.release "s"), .run 2 ⟨15, .none⟩,
      .start (.allocate "s" 100 4 10), .run 3 ⟨30, .none⟩, .run 3 {}, .run 3 {}, .run 1 {}]

/-- A session that holds a UID of one range asks for one of another. -/
def elsewhere : List (Move Input Request) :=
  [.start (.allocate "s" 100 4 10)] ++ List.replicate 7 (.run 0 {}) ++
    [.start (.allocate "s" 200 4 10), .run 1 {}, .run 1 {}]

/-- What a call returns need not be past the grace period by the call's own clock, nor of its range: a
session that has a UID in use gets it. -/
theorem session_uid_returned_early :
    (∃ c, system.Reaches .free {} c ∧ ∃ later earlier, c.shared.trace =
      later ++ .returned 100 "s" 100 4 20 10 :: earlier ∧ .freed 100 "s" 15 ∈ earlier ∧
        (20 : Time) ≤ 15 + 10) ∧
      ∃ c, system.Reaches .free {} c ∧ .returned 100 "s" 200 4 0 10 ∈ c.shared.trace := by
  constructor
  · obtain ⟨c, reached, trace⟩ := System.reaches_of_replay system .free {} overtaken
      (fun s => s.trace = [.returned 100 "s" 100 4 20 10, .returned 100 "s" 100 4 30 10,
        .reclaimed 100 "s" 30 10, .freed 100 "s" 15, .returned 100 "s" 100 4 0 10,
        .claimed 100 "s" 100 4 0 10]) (by decide +kernel)
    refine ⟨c, reached, [], _, trace, by decide, by decide⟩
  · exact reach_of_replay _ _ _ elsewhere _ (by decide +kernel)

end Iterabase.SessionUid
