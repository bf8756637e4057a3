/-
**Session UIDs — two calls for one session.**

The statement that finds the UID a session holds stands before the retries, so a call that has passed it
meets the row of the other call only as a conflict, on every retry.

* `concurrent_calls_agree` — **two calls return the same UID if one of them is past its claim before the
  other looks for it.**
-/

import Iterabase.SessionUid.Allocator

namespace Iterabase.SessionUid

open Conc Prog List Table

variable {s : State} {candidate : UID} {sessionID : SessionID} {base n : UInt32} {grace : Time}

theorem ofSession_of_mem {a : Allocations} {r : Allocation} (member : r ∈ a.table.rows) :
    a.ofSession r.sessionID = some r := by
  rcases found : a.ofSession r.sessionID with _ | r'
  · exact absurd (decide_eq_true rfl) (find?_eq_none.mp found r member)
  have same : r'.sessionID = r.sessionID := by simpa using find?_some found
  rw [inj_on_of_nodup_map a.sessions (mem_of_find?_eq_some found) member same]

theorem write_of_nodup {table : Table Allocation.uid} (distinct : (table.rows.map Allocation.sessionID).Nodup) :
    Allocations.write table = .ok ⟨table, distinct⟩ := dif_pos distinct

/-- **A claim succeeds** where the candidate is free and the session has no row. -/
theorem claimUID_ok (call : Call) {clock : Time} (now : Time)
    (unallocated : s.allocations.ofSession call.sessionID = none)
    (free : (s.allocations.table.find candidate).all fun r => r.expired (clock - call.grace)) :
    ∃ s', claimUID call candidate clock now s = (.ok (some candidate), s') ∧
      ⟨candidate, call.sessionID, .inUse, none⟩ ∈ s'.allocations.table.rows := by
  have others : ∀ r ∈ s.allocations.table.rows, r.sessionID ≠ call.sessionID := fun r member same =>
    find?_eq_none.mp unallocated r member (decide_eq_true same)
  unfold claimUID
  rcases found : s.allocations.table.find candidate with _ | r
  · obtain ⟨table, inserted⟩ := insert_of_fresh (r := (⟨candidate, call.sessionID, .inUse, none⟩ : Allocation)) found
    have rows := insert_rows inserted
    have distinct : (table.rows.map Allocation.sessionID).Nodup := by
      rw [rows]
      refine nodup_cons.mpr ⟨fun known => ?_, s.allocations.sessions⟩
      obtain ⟨r, member, same⟩ := mem_map.mp known
      exact others r member same
    simp only [inserted, write_of_nodup distinct]
    exact ⟨_, rfl, by simp [State.record, rows]⟩
  · rw [found] at free
    have distinct : ((s.allocations.table.update (fun r => r.uid = candidate)
        (fun r => { r with sessionID := call.sessionID, state := .inUse, freedAt := none })
        fun _ => rfl).rows.map Allocation.sessionID).Nodup := by
      rw [update, map_map]
      refine List.Nodup.map_on (fun r member r' member' same => ?_) s.allocations.table.distinct.of_map
      simp only [Function.comp_apply, decide_eq_true_eq] at same
      split at same
      · rename_i own
        split at same
        · rename_i own'
          exact inj_on_of_nodup_map s.allocations.table.distinct member member' (own.trans own'.symm)
        · exact absurd same.symm (others r' member')
      · split at same
        · exact absurd same (others r member)
        · exact inj_on_of_nodup_map s.allocations.sessions member member' same
    simp only [Option.all_some] at free
    simp only [free, if_true, write_of_nodup distinct]
    refine ⟨_, rfl, mem_map.mpr ⟨r, find_mem found, ?_⟩⟩
    have own := find_key found
    simp [own]

/-- A UID of the range is free, or was freed long enough before `time`. -/
def Claimable (s : State) (base n : UInt32) (before : Time) : Prop :=
  ∃ uid, base.toNat ≤ uid ∧ uid < base.toNat + n.toNat ∧
    (s.allocations.table.find uid).all fun r => r.expired before

theorem selectFree_ok {before before' : Time} (now : Time) (range : base.toNat + n.toNat ≤ 2 ^ 31)
    (claimable : Claimable s base n before) (later : before ≤ before') :
    ∃ uid, selectFree base n before' now s = (.ok (some uid), s) ∧
      (s.allocations.table.find uid).all fun r => r.expired before' := by
  obtain ⟨uid, least, most, free⟩ := claimable
  have last : (base + n - 1).toNat = base.toNat + n.toNat - 1 := by
    rw [UInt32.toNat_sub, UInt32.toNat_add, UInt32.toNat_one]
    omega
  have expired : (s.allocations.table.find uid).all fun r => r.expired before' := by
    rcases found : s.allocations.table.find uid with _ | r
    · rfl
    rw [found] at free
    simp only [Option.all_some, Allocation.expired, decide_eq_true_eq] at free ⊢
    refine ⟨free.1, ?_⟩
    rcases at_ : r.freedAt with _ | time
    · simp [at_] at free
    · simp only [at_, Option.any_some, decide_eq_true_eq] at free ⊢
      exact Int.lt_of_lt_of_le free.2 later
  have fits : ¬ (2 ^ 31 ≤ base.toNat ∨ 2 ^ 31 ≤ (base + n - 1).toNat) := by
    rw [last]
    omega
  unfold selectFree
  rw [if_neg fits, last]
  rcases found : List.find? _ _ with _ | candidate
  · have missed := find?_eq_none.mp found uid (mem_range'_1.mpr (by omega))
    exact absurd expired missed
  · have chosen := find?_some found
    exact ⟨candidate, rfl, chosen⟩

theorem retry_alone (call : Call) {i₁ i₂ i₃ : Input} {time : Time} (attempts : Nat)
    (late : time ≤ i₁.now) (quiet₂ : i₂.failure = .none) (quiet₃ : i₃.failure = .none)
    (unallocated : s.allocations.ofSession call.sessionID = none)
    (range : call.base.toNat + call.n.toNat ≤ 2 ^ 31)
    (claimable : Claimable s call.base call.n (time - call.grace)) :
    ∃ uid s', (retry call (attempts + 1)).advance [i₁, i₂, i₃] s = some (.done (.ok uid), s') ∧
      ⟨uid, call.sessionID, .inUse, none⟩ ∈ s'.allocations.table.rows := by
  obtain ⟨uid, selected, free⟩ := selectFree_ok i₂.now range claimable (Int.sub_le_sub_right late _)
  obtain ⟨s', claimed, held⟩ := claimUID_ok call i₃.now unallocated free
  refine ⟨uid, call.returns uid s', ?_, held⟩
  simp [retry, tryAllocSessionUID, clock, answering, statement, atomic, advance, selected, claimed, quiet₂,
    quiet₃]

/-- **A call alone** for a session without a row returns a UID that it has claimed, with seven inputs. -/
theorem allocate_alone {given : List Input} {time : Time} (seven : given.length = 7)
    (steady : ∀ input ∈ given, input.failure = .none ∧ time ≤ input.now)
    (unallocated : s.allocations.ofSession sessionID = none) (range : base.toNat + n.toNat ≤ 2 ^ 31)
    (claimable : Claimable s base n (time - grace)) :
    ∃ uid s', (allocateSessionUID sessionID base n grace).advance given s = some (.done (.ok uid), s') ∧
      ⟨uid, sessionID, .inUse, none⟩ ∈ s'.allocations.table.rows := by
  match given, seven with
  | [i₁, i₂, i₃, i₄, i₅, i₆, i₇], _ =>
    simp only [forall_mem_cons] at steady
    obtain ⟨-, ⟨quiet₂, -⟩, ⟨quiet₃, -⟩, ⟨quiet₄, -⟩, ⟨-, late⟩, ⟨quiet₆, -⟩, ⟨quiet₇, -⟩, -⟩ := steady
    have some : n ≠ 0 := by
      rintro rfl
      obtain ⟨uid, least, most, -⟩ := claimable
      rw [UInt32.toNat_zero] at most
      omega
    obtain ⟨uid, s', ran, held⟩ := retry_alone ⟨sessionID, base, n, grace, i₁.now⟩ 7 late quiet₆ quiet₇
      unallocated range claimable
    refine ⟨uid, s', ?_, held⟩
    simpa [allocateSessionUID, some, clock, answering, statement, atomic, advance, quiet₂, quiet₃, quiet₄,
      holdUID, reclaimUID, freedWithin, unallocated] using ran

/-- **A session that holds a UID** is given it by the second action of a call. -/
theorem allocate_held (base : UInt32) (grace : Time) (i₁ : Input) {i₂ : Input} {r : Allocation}
    (nonzero : n ≠ 0) (quiet : i₂.failure = .none)
    (held : s.allocations.ofSession sessionID = some r) (inUse : r.state = .inUse) :
    ∃ s', (allocateSessionUID sessionID base n grace).advance [i₁, i₂] s = some (.done (.ok r.uid), s') := by
  simp [allocateSessionUID, nonzero, clock, answering, atomic, advance, quiet, holdUID, held, inUse]

/-- **Two calls for a session without a row return the same UID**, in every interleaving in which the first
has taken its seven actions before the second has taken its second one. -/
theorem concurrent_calls_agree (time : Time) {base' n' : UInt32} {grace' : Time}
    {schedule : List (Bool × Input)}
    (unallocated : s.allocations.ofSession sessionID = none) (nonzero : n' ≠ 0)
    (range : base.toNat + n.toNat ≤ 2 ^ 31) (claimable : Claimable s base n (time - grace))
    (steady : ∀ mark, ∀ input ∈ inputs mark schedule, input.failure = .none ∧ time ≤ input.now)
    (whole : 2 ≤ (inputs false schedule).length)
    (ahead : ∃ first after, schedule = first ++ after ∧ (inputs true first).length = 7 ∧
      (inputs false first).length ≤ 1) :
    ∃ uid s', race (allocateSessionUID sessionID base n grace) (allocateSessionUID sessionID base' n' grace')
      schedule s = some ((.ok uid, .ok uid), s') := by
  obtain ⟨first, after, rfl, seven, few⟩ := ahead
  simp only [inputs_append, forall_mem_append, length_append] at steady whole
  obtain ⟨uid, s', ran, held⟩ := allocate_alone seven (steady true).1 unallocated range claimable
  obtain ⟨next, second⟩ : ∃ next, allocateSessionUID sessionID base' n' grace' =
      .act () (fun input s => some (input.now, s)) next := by
    rw [allocateSessionUID, if_neg nonzero]
    exact ⟨_, rfl⟩
  have looks : ∀ (i₁ : Input), ∀ i₂ ∈ inputs false after,
      ∃ s'', (next i₁.now).advance [i₂] s' = some (.done (.ok uid), s'') := by
    intro i₁ i₂ member
    obtain ⟨s'', looked⟩ := allocate_held base' grace' i₁ nonzero ((steady false).2 i₂ member).1
      (ofSession_of_mem held) rfl
    exact ⟨s'', by rwa [second] at looked⟩
  rw [second, race_ahead ran few]
  rcases early : inputs false first with _ | ⟨i₁, others⟩
  · -- both of its actions come after the first call
    rw [early] at whole
    match late : inputs false after, whole with
    | i₁ :: i₂ :: rest, _ =>
      obtain ⟨s'', looked⟩ := looks i₁ i₂ (by rw [late]; exact .tail _ (.head _))
      have both : advance (.act () (fun input s => some (input.now, s)) next) [i₁, i₂] s' =
        some (.done (.ok uid), s'') := looked
      exact ⟨uid, s'', race_behind both (by rw [late]; exact ⟨rest, rfl⟩)⟩
  · -- it has read the clock
    rw [early] at whole few
    match late : inputs false after, whole with
    | [], whole => simp only [length_cons, length_nil] at whole few; omega
    | i₂ :: rest, _ =>
      obtain ⟨s'', looked⟩ := looks i₁ i₂ (by rw [late]; exact .head _)
      exact ⟨uid, s'', race_behind looked (by rw [late]; exact ⟨rest, rfl⟩)⟩

/-- So many actions of one of the calls. -/
def turns (first : Bool) (count : Nat) : List (Bool × Input) := List.replicate count (first, {})

/-- The second call starts while the first one runs. -/
theorem concurrent_calls_agree_late :
    ∃ uid s', race (allocateSessionUID "s" 100000 10 0) (allocateSessionUID "s" 100000 10 0)
      (turns true 3 ++ turns false 1 ++ turns true 4 ++ turns false 1) {} = some ((.ok uid, .ok uid), s') :=
  concurrent_calls_agree 0 rfl (by decide) (by decide) ⟨100000, by decide, by decide, rfl⟩ (by decide)
    (by decide) ⟨turns true 3 ++ turns false 1 ++ turns true 4, turns false 1, rfl, by decide, by decide⟩

/-- **The second call looks for the UID of its session before the first has claimed it**, meets the row of
the first on each of its retries and fails. -/
theorem concurrent_call_exhausted :
    ∃ schedule s', race (allocateSessionUID "s" 100000 10 0) (allocateSessionUID "s" 100000 10 0) schedule {} =
      some ((.ok 100000, .error .retriesExhausted), s') := by
  exact ⟨turns true 2 ++ turns false 2 ++ turns true 5 ++ turns false 26, _, rfl⟩

end Iterabase.SessionUid
