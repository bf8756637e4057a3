/-
**The tool gateway — who keeps a registration alive.**

A heartbeat renews every active row of its runner and generation. The generation comes from a counter
that starts again in every process, so it names a stream only within one process.

* `renewed_by_own_stream` — **where no stream gets a generation that another process's stream of the
  runner still uses, a row is renewed by the stream that registered it.**
-/

import Iterabase.Gateway.Runners

namespace Iterabase.Gateway.Runners

open Conc List Runners.State

variable {s s' : State}

/-! ### Moves that name nothing new -/

structure Stream.Same (st st' : Stream) : Prop where
  process : st'.process = st.process := by rfl
  runner : st'.runnerID = st.runnerID := by rfl
  gen : st'.gen = st.gen := by rfl
  phase : st'.phase = .receiving → st.phase = .receiving := by exact id

structure Registration.Same (r r' : Registration) : Prop where
  runner : r'.runnerID = r.runnerID := by rfl
  gen : r'.fencingGeneration = r.fencingGeneration := by rfl
  stream : r'.stream = r.stream := by rfl
  active : r'.active → r.active := by exact fun active => active
  renewed : r'.renewedBy = r.renewedBy := by rfl

/-- No stream is new or takes up receiving again, no row is new or becomes active again, and no row is
renewed. -/
structure Same (s s' : State) : Prop where
  processes : ∀ (p : Nat) process, s.processes[p]? = some process →
    ∃ process', s'.processes[p]? = some process' ∧ process.gen ≤ process'.gen := by
      exact fun _ process found => ⟨process, found, le_rfl⟩
  kept : ∀ (i : Nat) st, s.streams[i]? = some st → ∃ st', s'.streams[i]? = some st' ∧ st.Same st' := by
    exact fun _ st found => ⟨st, found, {}⟩
  streams : ∀ (i : Nat) st', s'.streams[i]? = some st' →
    ∃ st, s.streams[i]? = some st ∧ st.Same st' := by exact fun _ st found => ⟨st, found, {}⟩
  rows : ∀ r' ∈ s'.registrations, ∃ r ∈ s.registrations, r.Same r' := by
    exact fun r member => ⟨r, member, {}⟩

theorem Stream.Same.trans {a b c : Stream} (first : a.Same b) (second : b.Same c) : a.Same c where
  process := second.process.trans first.process
  runner := second.runner.trans first.runner
  gen := second.gen.trans first.gen
  phase := first.phase ∘ second.phase

theorem Registration.Same.trans {a b c : Registration} (first : a.Same b) (second : b.Same c) :
    a.Same c where
  runner := second.runner.trans first.runner
  gen := second.gen.trans first.gen
  stream := second.stream.trans first.stream
  active := first.active ∘ second.active
  renewed := second.renewed.trans first.renewed

theorem Same.trans {s'' : State} (first : Same s s') (second : Same s' s'') : Same s s'' where
  processes := carried_trans (fun le le' => le.trans le') first.processes second.processes
  kept := carried_trans (fun same same' => same.trans same') first.kept second.kept
  streams := carried_trans (fun same' same => same.trans same') second.streams first.streams
  rows := by
    intro r'' member
    obtain ⟨r', member', same'⟩ := second.rows r'' member
    obtain ⟨r, member, same⟩ := first.rows r' member'
    exact ⟨r, member, same.trans same'⟩

theorem Same.updateRows (p : Registration → Bool) (f : Registration → Registration)
    (keeps : ∀ r : Registration, r.Same (f r)) : Same s (s.updateRows p f) := by
  refine { rows := fun r' member => ?_ }
  obtain ⟨r, old, rfl⟩ := mem_map.mp member
  refine ⟨r, old, ?_⟩
  split
  · exact keeps r
  · exact {}

theorem Same.modifyStream (i : Nat) (f : Stream → Stream) (keeps : ∀ st : Stream, st.Same (f st)) :
    Same s (s.modifyStream i f) where
  kept := by
    intro j st found
    simp only [State.modifyStream, getElem?_modify, found]
    split
    · exact ⟨f st, rfl, keeps st⟩
    · exact ⟨st, rfl, {}⟩
  streams := by
    intro j st' found
    simp only [State.modifyStream, getElem?_modify] at found
    obtain ⟨st, before, rfl⟩ := Option.map_eq_some_iff.mp found
    refine ⟨st, before, ?_⟩
    split
    · exact keeps st
    · exact {}

variable {i : Nat}

theorem register_same {v : Version} (moved : s.register i v = some s') : Same s s' := by
  obtain ⟨st, _, made⟩ := Option.bind_eq_some_iff.mp moved
  obtain ⟨published, publish, made⟩ := Option.bind_eq_some_iff.mp made
  cases made
  obtain ⟨versions, rfl⟩ := publish_cases publish
  have same : Same s { s with versions } := {}
  exact same.trans (.modifyStream i _ fun _ => {})

theorem disconnect_same (moved : s.disconnect i = some s') : Same s s' := by
  obtain ⟨_, _, made⟩ := Option.bind_eq_some_iff.mp moved
  cases made
  apply Same.modifyStream i
  exact fun _ => { phase := nofun }

theorem deactivate_same (moved : s.deactivate i = some s') : Same s s' := by
  obtain ⟨st, _, made⟩ := Option.bind_eq_some_iff.mp moved
  cases made
  refine Same.trans ?_ (Same.modifyStream i _ ?_)
  · apply Same.updateRows st.addresses
    exact fun _ => { active := nofun }
  · exact fun _ => { phase := nofun }

theorem crash_same (s : State) (p : Nat) : Same s (s.crash p) := by
  have stopped : ∀ st : Stream, st.Same (if st.process = p then { st with phase := .ended } else st) := by
    intro st
    split
    · exact { phase := nofun }
    · exact {}
  refine { processes := fun q process found => ?_, kept := fun i st found => ⟨_, ?_, stopped st⟩,
           streams := fun i st' found => ?_ }
  · simp only [crash, getElem?_modify, found]
    split <;> exact ⟨_, rfl, le_rfl⟩
  · simp only [crash, getElem?_map, found, Option.map_some]
  · simp only [crash, getElem?_map] at found
    obtain ⟨st, before, rfl⟩ := Option.map_eq_some_iff.mp found
    exact ⟨st, before, stopped st⟩

theorem startProcess_same (s : State) : Same s { s with processes := s.processes ++ [{}] } where
  processes := by
    intro p process found
    have inside := (List.getElem?_eq_some_iff.mp found).1
    exact ⟨process, by rw [getElem?_append_left inside, found], le_rfl⟩

/-! ### The invariant -/

/-- The stream and the row carry the same runner and generation. -/
def Stream.Names (st : Stream) (r : Registration) : Prop :=
  st.runnerID = r.runnerID ∧ st.gen = r.fencingGeneration

/-- **Generations name streams.** -/
structure Generations (s : State) : Prop where
  owner : ∀ r ∈ s.registrations, ∃ st, s.streams[r.stream]? = some st ∧ st.Names r
  counted : ∀ (i : Nat) st, s.streams[i]? = some st →
    ∃ process, s.processes[st.process]? = some process ∧ st.gen ≤ process.gen
  alone : ∀ (i j : Nat) st st', s.streams[i]? = some st → s.streams[j]? = some st' →
    st.phase = .receiving → st'.phase = .receiving → st.runnerID = st'.runnerID →
    st.gen = st'.gen → i = j
  own : ∀ r ∈ s.registrations, r.active → ∀ (i : Nat) st, s.streams[i]? = some st →
    st.phase = .receiving → st.Names r → i = r.stream
  renewed : ∀ r ∈ s.registrations, ∀ i, r.renewedBy = some i → i = r.stream

theorem Generations.same (holds : Generations s) (same : Same s s') : Generations s' where
  owner := by
    intro r' member
    obtain ⟨r, old, row⟩ := same.rows r' member
    obtain ⟨st, found, names⟩ := holds.owner r old
    obtain ⟨st', found', stream⟩ := same.kept r.stream st found
    exact ⟨st', by rwa [row.stream], (stream.runner.trans names.1).trans row.runner.symm,
      (stream.gen.trans names.2).trans row.gen.symm⟩
  counted := by
    intro i st' found
    obtain ⟨st, old, stream⟩ := same.streams i st' found
    obtain ⟨pr, running, le⟩ := holds.counted i st old
    obtain ⟨pr', running', le'⟩ := same.processes st.process pr running
    exact ⟨pr', by rwa [stream.process], by rw [stream.gen]; exact le.trans le'⟩
  alone := by
    intro i j a' b' founda foundb phasea phaseb runner gen
    obtain ⟨a, olda, first⟩ := same.streams i a' founda
    obtain ⟨b, oldb, second⟩ := same.streams j b' foundb
    exact holds.alone i j a b olda oldb (first.phase phasea) (second.phase phaseb)
      (first.runner.symm.trans (runner.trans second.runner)) (first.gen.symm.trans (gen.trans second.gen))
  own := by
    intro r' member active i st' found phase names
    obtain ⟨r, old, row⟩ := same.rows r' member
    obtain ⟨st, before, stream⟩ := same.streams i st' found
    rw [row.stream]
    exact holds.own r old (row.active active) i st before (stream.phase phase)
      ⟨(stream.runner.symm.trans names.1).trans row.runner, (stream.gen.symm.trans names.2).trans row.gen⟩
  renewed := by
    intro r' member i renewed
    obtain ⟨r, old, row⟩ := same.rows r' member
    rw [row.stream]
    exact holds.renewed r old i (row.renewed.symm.trans renewed)

/-! ### Moves of the rows and the calls -/

theorem beginDrain_same {refs : List ToolRef} (moved : s.beginDrain i refs = some s') :
    Same s s' := by
  obtain ⟨st, _, rfl⟩ := beginDrain_cases moved
  exact .updateRows st.addresses _ fun _ => {}

theorem report_same {delivered : Bool} (moved : s.report i delivered = some s') : Same s s' := by
  obtain ⟨st, _, made⟩ := Option.bind_eq_some_iff.mp moved
  split at made
  · cases made
    exact {}
  · cases made
    exact {}

theorem retire_same {ref : ToolRef} (moved : s.retire i ref = some s') : Same s s' := by
  obtain ⟨st, _, _, rfl⟩ := retire_cases moved
  have rows := Same.updateRows (s := s) (State.drained st ref)
    (fun r => { r with active := false, acceptingNew := false, retired := true })
    fun _ => { active := nofun }
  exact rows.trans {}

theorem choose_same {c : Nat} {name : String} {granted requested : EffectClass}
    (moved : s.choose c name granted requested = some s') : Same s s' := by
  obtain ⟨_, _, made⟩ := Option.bind_eq_some_iff.mp moved
  obtain ⟨_, _, made⟩ := Option.bind_eq_some_iff.mp made
  cases made
  exact {}

theorem commit_same {c : Nat} (moved : s.commit c = some s') : Same s s' := by
  obtain ⟨_, _, _, rfl⟩ := commit_cases moved
  exact {}

variable {st : Stream}

/-! ### The three moves that name something -/

theorem receiving_eq_some :
    s.receiving i = some st ↔ s.streams[i]? = some st ∧ st.phase = .receiving := by
  simp [receiving, Option.filter_eq_some_iff]

theorem serving_eq_some (found : s.serving i = some st) :
    s.streams[i]? = some st ∧ st.phase = .receiving :=
  receiving_eq_some.mp (Option.filter_eq_some_iff.mp found).1

theorem addresses_iff {r : Registration} : st.addresses r ↔ r.active ∧ st.Names r := by
  simp only [Stream.addresses, Stream.Names, Bool.and_eq_true, decide_eq_true_eq]
  exact ⟨fun ⟨⟨runner, gen⟩, active⟩ => ⟨active, runner.symm, gen.symm⟩,
    fun ⟨active, runner, gen⟩ => ⟨⟨runner.symm, gen.symm⟩, active⟩⟩

/-- Whoever of the runner uses the generation that a new stream gets belongs to the same process. -/
def Unambiguous (s : State) : Move → Prop
  | .connect p runnerID => ∀ process ∈ s.processes[p]?,
      (∀ r ∈ s.registrations, r.active → r.runnerID = runnerID →
        r.fencingGeneration = process.gen + 1 → ∃ st ∈ s.streams[r.stream]?, st.process = p) ∧
      ∀ st ∈ s.streams, st.phase = .receiving → st.runnerID = runnerID →
        st.gen = process.gen + 1 → st.process = p
  | _ => True

instance (s : State) (m : Move) : Decidable (Unambiguous s m) := by
  unfold Unambiguous
  cases m <;> infer_instance

/-- **A new stream gets a generation of its own.** -/
theorem connect_generations {p : Nat} {runnerID : String} (holds : Generations s)
    (unambiguous : Unambiguous s (.connect p runnerID)) (moved : s.connect p runnerID = some s') :
    Generations s' := by
  obtain ⟨process, live, made⟩ := Option.bind_eq_some_iff.mp moved
  obtain ⟨running, _⟩ := Option.filter_eq_some_iff.mp live
  cases made
  obtain ⟨rows, others⟩ := unambiguous process running
  -- one process does not repeat a generation
  have used : ∀ {i : Nat} {st : Stream}, s.streams[i]? = some st → st.process = p →
      st.gen ≠ process.gen + 1 := by
    intro i st found same
    obtain ⟨process', running', le⟩ := holds.counted i st found
    rw [same, running] at running'
    cases running'
    omega
  have unused : ∀ {i : Nat} {st : Stream}, s.streams[i]? = some st → st.phase = .receiving →
      st.runnerID = runnerID → st.gen ≠ process.gen + 1 := by
    intro i st found phase runner same
    exact used found (others st (mem_of_getElem? found) phase runner same) same
  constructor
  · intro r member
    obtain ⟨st, found, names⟩ := holds.owner r member
    have inside := (List.getElem?_eq_some_iff.mp found).1
    exact ⟨st, by rw [getElem?_append_left inside, found], names⟩
  · intro i st found
    rcases getElem?_concat_cases found with before | ⟨_, rfl⟩
    · obtain ⟨process', running', le⟩ := holds.counted i st before
      simp only [getElem?_set]
      split
      · next same =>
        rw [← same, running] at running'
        cases running'
        exact ⟨_, if_pos (List.getElem?_eq_some_iff.mp running).1, by simpa using by omega⟩
      · exact ⟨process', running', le⟩
    · exact ⟨{ process with gen := process.gen + 1 },
        by simp [(List.getElem?_eq_some_iff.mp running).1], le_rfl⟩
  · intro i j a b founda foundb phasea phaseb runner gen
    rcases getElem?_concat_cases founda with olda | ⟨placea, rfl⟩ <;>
      rcases getElem?_concat_cases foundb with oldb | ⟨placeb, rfl⟩
    · exact holds.alone i j a b olda oldb phasea phaseb runner gen
    · exact absurd gen (unused olda phasea runner)
    · exact absurd gen.symm (unused oldb phaseb runner.symm)
    · rw [placea, placeb]
  · intro r member active i st found phase names
    rcases getElem?_concat_cases found with before | ⟨_, rfl⟩
    · exact holds.own r member active i st before phase names
    obtain ⟨owner, registered, same⟩ := rows r member active names.1.symm names.2.symm
    obtain ⟨owner', registered', names'⟩ := holds.owner r member
    have eq : owner = owner' := Option.some.inj (registered.symm.trans registered')
    subst eq
    exact absurd (names'.2.trans names.2.symm) (used registered same)
  · exact holds.renewed

theorem upsert_generations (holds : Generations s) (moved : s.upsert i = some s') :
    Generations s' := by
  obtain ⟨st, receiving, made⟩ := Option.bind_eq_some_iff.mp moved
  obtain ⟨⟨v, accepting⟩, registering, made⟩ := Option.bind_eq_some_iff.mp made
  cases made
  obtain ⟨found, phase⟩ := receiving_eq_some.mp receiving
  refine Generations.same ?_ (Same.modifyStream i _ fun _ => {})
  have fenced := holds.same (Same.updateRows (fun r => r.runnerID = st.runnerID &&
    r.toolName = v.name && r.toolVersion = v.version && r.active)
    (fun r => { r with active := false }) fun _ => { active := nofun })
  exact {
    owner := forall_mem_cons.mpr ⟨⟨st, found, rfl, rfl⟩, fenced.owner⟩
    counted := fenced.counted
    alone := fenced.alone
    own := forall_mem_cons.mpr ⟨fun _ j st' found' phase' names =>
      holds.alone j i st' st found' found phase' phase names.1 names.2, fenced.own⟩
    renewed := forall_mem_cons.mpr ⟨nofun, fenced.renewed⟩ }

/-- **A heartbeat renews what its stream registered.** -/
theorem heartbeat_generations (holds : Generations s) (moved : s.heartbeat i = some s') :
    Generations s' := by
  obtain ⟨st, serving, made⟩ := Option.bind_eq_some_iff.mp moved
  cases made
  obtain ⟨found, phase⟩ := serving_eq_some serving
  -- every row after the heartbeat is an old one up to who renewed it
  have rows : ∀ r' ∈ (s.updateRows st.addresses fun r =>
      { r with lastHeartbeatAt := s.now, renewedBy := some i }).registrations,
      ∃ r ∈ s.registrations, r'.runnerID = r.runnerID ∧
        r'.fencingGeneration = r.fencingGeneration ∧ r'.active = r.active ∧ r'.stream = r.stream ∧
        (r'.renewedBy = r.renewedBy ∨ st.addresses r ∧ r'.renewedBy = some i) := by
    intro r' member
    obtain ⟨r, old, rfl⟩ := mem_map.mp member
    refine ⟨r, old, ?_⟩
    split
    · next addressed => exact ⟨rfl, rfl, rfl, rfl, .inr ⟨addressed, rfl⟩⟩
    · exact ⟨rfl, rfl, rfl, rfl, .inl rfl⟩
  constructor
  · intro r' member
    obtain ⟨r, old, runner, gen, _, stream, _⟩ := rows r' member
    obtain ⟨owner, registered, names⟩ := holds.owner r old
    exact ⟨owner, by rwa [stream], names.1.trans runner.symm, names.2.trans gen.symm⟩
  · exact holds.counted
  · exact holds.alone
  · intro r' member active j st' found' phase' names
    obtain ⟨r, old, runner, gen, same, stream, _⟩ := rows r' member
    rw [stream]
    exact holds.own r old (same ▸ active) j st' found' phase'
      ⟨names.1.trans runner, names.2.trans gen⟩
  · intro r' member j renewed
    obtain ⟨r, old, _, _, _, stream, same | ⟨addressed, by'⟩⟩ := rows r' member
    · rw [stream]
      exact holds.renewed r old j (same.symm.trans renewed)
    obtain ⟨active, names⟩ := addresses_iff.mp addressed
    cases by'.symm.trans renewed
    rw [stream]
    exact holds.own r old active i st found phase names

/-! ### Whole runs -/

theorem generations_init : Generations {} where
  owner := nofun
  counted := fun _ _ found => by simp at found
  alone := fun _ _ _ _ found => by simp at found
  own := nofun
  renewed := nofun

theorem next_generations (s : State) (m : Move) (s' : State) (holds : Generations s)
    (unambiguous : Unambiguous s m) (moved : next s m = some s') : Generations s' := by
  cases m with
  | startProcess => cases moved; exact holds.same (startProcess_same s)
  | crash p => cases moved; exact holds.same (crash_same s p)
  | connect p runnerID => exact connect_generations holds unambiguous moved
  | register i v => exact holds.same (register_same moved)
  | upsert i => exact upsert_generations holds moved
  | heartbeat i => exact heartbeat_generations holds moved
  | disconnect i => exact holds.same (disconnect_same moved)
  | deactivate i => exact holds.same (deactivate_same moved)
  | beginDrain i refs => exact holds.same (beginDrain_same moved)
  | report i delivered => exact holds.same (report_same moved)
  | retire i ref => exact holds.same (retire_same moved)
  | beginAttempt | rollback | finish | tick => cases moved; exact holds.same {}
  | choose c name granted requested => exact holds.same (choose_same moved)
  | commit c => exact holds.same (commit_same moved)

/-- A row is renewed by no stream but the one that registered it. -/
def Registration.Own (r : Registration) : Prop := ∀ i, r.renewedBy = some i → i = r.stream

instance (r : Registration) : Decidable r.Own :=
  decidable_of_iff (∀ i ∈ r.renewedBy, i = r.stream) Iff.rfl

/-- **A registration is kept alive by its own stream**, where no stream of another process that uses the
generation is left when a stream gets it, and a version that is available is so by such a row. -/
theorem renewed_by_own_stream (reached : Reach next Unambiguous {} s) :
    (∀ r ∈ s.registrations, r.Own) ∧ ∀ v, s.available v → ∃ r ∈ s.registrations, r.ref = v.ref ∧
      r.active ∧ r.acceptingNew ∧ s.now - 30 < r.lastHeartbeatAt ∧ r.Own := by
  have holds := reached.invariant generations_init next_generations
  refine ⟨holds.renewed, fun v available => ?_⟩
  simp only [State.available, Bool.and_eq_true, any_eq_true, decide_eq_true_eq] at available
  obtain ⟨_, r, member, ⟨⟨ref, active⟩, accepting⟩, recent⟩ := available
  exact ⟨r, member, ref, active, accepting, recent, holds.renewed r member⟩

/-! ### Runs -/

def readFile (version digest : String) : Version := ⟨"read_file", version, digest, .readOnly, true⟩

def arrive (process stream : Nat) (v : Version) : List Move :=
  [.connect process "runner", .register stream v, .upsert stream, .heartbeat stream]

/-- After a clean disconnect the next process may give the same generation. -/
theorem renewed_by_own_stream_restarted : ∃ s, Reach next Unambiguous {} s ∧
    s.available (readFile "2" "d2") ∧ ∀ r ∈ s.registrations, r.Own := by
  exact reach_of_replay_and ([.startProcess] ++ arrive 0 0 (readFile "1" "d1") ++
      [.disconnect 0, .deactivate 0, .crash 0, .startProcess] ++ arrive 1 1 (readFile "2" "d2"))
    (by decide +kernel) fun reached _ => (renewed_by_own_stream reached).1

/-- **A dead stream's row kept alive.** The process crashes and its row stays active. The runner connects
to the next process, whose counter starts again, with another version; its heartbeat renews the row of the
version that it no longer has. -/
theorem renewed_by_other_stream : ¬ ∀ s, Reach next (fun _ _ => True) {} s →
    ∀ r ∈ s.registrations, r.active → r.Own := by
  intro own
  obtain ⟨s, reached, other⟩ := reach_of_replay next (fun _ _ => True) {}
    ([.startProcess] ++ arrive 0 0 (readFile "1" "d1") ++ [.crash 0, .startProcess] ++
      arrive 1 1 (readFile "2" "d2") ++ [.tick 60, .heartbeat 1])
    (fun s => s.available (readFile "1" "d1") ∧ ∃ r ∈ s.registrations, r.active ∧ ¬ r.Own)
    (by decide +kernel)
  obtain ⟨_, r, member, active, not⟩ := other
  exact not (own s reached r member active)

end Iterabase.Gateway.Runners
