/-
**The tool gateway — unloading a version that attempts pin.**

`DrainingStatus` reads the pins that are committed, and `RetireVersions` does not read them again. What
lies between the two is the runner's: a transaction that had chosen the version may commit, and another
runner may still offer it.

* `retired_unpinned` — **where every report saw every transaction that chose its version, a retired
  version is not needed.**
-/

import Iterabase.Gateway.Liveness

namespace Iterabase.Gateway.Runners

open Conc List Runners.State

variable {s s' : State} {ref : ToolRef}

/-! ### Pins that are committed, and pins that are not -/

/-- No unfinished attempt pins the version, and none is about to. -/
structure Free (s : State) (ref : ToolRef) : Prop where
  pinned : ¬ s.pinned ref
  choosing : ¬ s.choosing ref

def Names (pin : ToolPin) (ref : ToolRef) : Prop :=
  pin.toolName = ref.name ∧ pin.toolVersionDigest = ref.digest

theorem pinned_iff : s.pinned ref ↔ ∃ pin ∈ s.pins, Names pin ref ∧ s.unfinished pin.attemptID := by
  simp only [pinned, any_eq_true, Bool.and_eq_true, decide_eq_true_eq, Names]

theorem chose_iff {creation : Creation} : creation.chose ref ↔ ∃ pin ∈ creation.pins, Names pin ref := by
  simp only [Creation.chose, any_eq_true, Bool.and_eq_true, decide_eq_true_eq, Names]

theorem choosing_iff : s.choosing ref ↔
    ∃ creation ∈ s.creations, creation.running ∧ creation.chose ref := by
  simp only [choosing, any_eq_true, Bool.and_eq_true]

/-- A version stays free where no pin of it becomes unfinished and no transaction newly chooses it. -/
theorem Free.of_imp (free : Free s ref) (pinned : s'.pinned ref → s.pinned ref)
    (choosing : s'.choosing ref → s.choosing ref) : Free s' ref where
  pinned := free.pinned ∘ pinned
  choosing := free.choosing ∘ choosing

/-- **What was reported is so**, unless the report could not see it. -/
def Informed (s : State) : Prop := ∀ told ∈ s.reported, told.unseen = false → Free s told.ref

variable {c : Nat}

/-! ### What a move does to a free version -/

theorem creating_eq_some {creation : Creation} (found : s.creating c = some creation) :
    s.creations[c]? = some creation ∧ creation.running :=
  Option.filter_eq_some_iff.mp found

theorem mem_addPin {pins : List ToolPin} {pin p : ToolPin} (member : p ∈ State.addPin pins pin) :
    p ∈ pins ∨ p = pin := by
  simp only [addPin] at member
  split at member
  · exact .inl member
  rcases mem_cons.mp member with new | old
  · exact .inr new
  · exact .inl old

theorem mem_foldl_addPin (new : List ToolPin) : ∀ {pins : List ToolPin} {p : ToolPin},
    p ∈ new.foldl State.addPin pins → p ∈ pins ∨ p ∈ new := by
  induction new with
  | nil => exact fun member => .inl member
  | cons pin rest ih =>
    intro pins p member
    rcases ih member with before | later
    · rcases mem_addPin before with old | rfl
      · exact .inl old
      · exact .inr (.head _ ..)
    · exact .inr (.tail _ later)

theorem close_choosing (c : Nat) (choosing : (s.close c).choosing ref) : s.choosing ref := by
  obtain ⟨creation, member, running, chose⟩ := choosing_iff.mp choosing
  rcases mem_modify member with old | ⟨_, _, rfl⟩
  · exact choosing_iff.mpr ⟨creation, old, running, chose⟩
  · cases running

/-- **A commit pins what its transaction had chosen**, so that a version no open transaction has chosen
stays free. -/
theorem commit_free (free : Free s ref) (moved : s.commit c = some s') : Free s' ref := by
  obtain ⟨creation, creating, new, rfl⟩ := commit_cases moved
  obtain ⟨found, running⟩ := creating_eq_some creating
  -- the row of the attempt is new, and an attempt without a row counts as unfinished
  have unfinished : ∀ attemptID, ((if creation.recorded then ⟨creation.attemptID, false⟩ :: s.attempts
      else s.attempts).find? fun a => a.id = attemptID).all (fun a => !a.finished) →
      s.unfinished attemptID := by
    intro attemptID
    split
    · next recorded =>
      simp only [unfinished, find?_cons]
      split
      · next same =>
        have absent : s.attempts.find? (fun a => a.id = attemptID) = none := by
          simpa [← of_decide_eq_true same] using new recorded
        simp [absent]
      · exact id
    · exact id
  refine free.of_imp (fun pinned => ?_) (close_choosing c)
  obtain ⟨pin, member, names, open'⟩ := pinned_iff.mp pinned
  rcases mem_foldl_addPin _ member with old | new
  · exact pinned_iff.mpr ⟨pin, old, names, unfinished _ open'⟩
  · exact absurd (choosing_iff.mpr ⟨creation, mem_of_getElem? found, running,
      chose_iff.mpr ⟨pin, new, names⟩⟩) free.choosing

theorem finish_free (attemptID : String) (free : Free s ref) : Free (s.finish attemptID) ref := by
  refine free.of_imp (fun pinned => ?_) id
  obtain ⟨pin, member, names, open'⟩ := pinned_iff.mp pinned
  refine pinned_iff.mpr ⟨pin, member, names, ?_⟩
  have same : (fun a : Attempt => decide (a.id = pin.attemptID)) ∘ (fun a =>
      if a.id = attemptID then { a with finished := true } else a) =
      fun a => decide (a.id = pin.attemptID) := by
    funext a
    simp only [Function.comp]
    split <;> rfl
  simp only [unfinished, finish, find?_map, same, Option.all_map] at open' ⊢
  rcases found : s.attempts.find? (fun a => decide (a.id = pin.attemptID)) with _ | a
  · rw [found]
    rfl
  simp only [found, Option.all_some] at open' ⊢
  split at open'
  · cases open'
  · exact open'

/-- **A transaction makes no version less free but the one that it chooses.** -/
theorem choose_free {name : String} {granted requested : EffectClass} {told : Report}
    (moved : s.choose c name granted requested = some s') (member : told ∈ s'.reported)
    (seen : told.unseen = false) : told ∈ s.reported ∧ (Free s told.ref → Free s' told.ref) := by
  obtain ⟨creation, creating, made⟩ := Option.bind_eq_some_iff.mp moved
  obtain ⟨v, chosen, made⟩ := Option.bind_eq_some_iff.mp made
  cases made
  obtain ⟨found, running⟩ := creating_eq_some creating
  have named : v.name = name := by
    have := find?_some chosen
    simp only [Bool.and_eq_true, decide_eq_true_eq] at this
    exact this.1.1.1
  -- a report of the chosen version would have been marked
  obtain ⟨old, reported, marked⟩ := mem_map.mp member
  split at marked
  · cases marked
    cases seen
  next other =>
  cases marked
  refine ⟨reported, fun free => free.of_imp id fun choosing => ?_⟩
  obtain ⟨creation', member, running', chose⟩ := choosing_iff.mp choosing
  rcases mem_modify member with before | ⟨before, place, rfl⟩
  · exact choosing_iff.mpr ⟨creation', before, running', chose⟩
  obtain ⟨pin, pinned, names⟩ := chose_iff.mp chose
  rcases mem_append.mp pinned with had | new
  · exact choosing_iff.mpr ⟨creation, mem_of_getElem? found, running,
      chose_iff.mpr ⟨pin, had, names⟩⟩
  cases mem_singleton.mp new
  refine absurd ?_ other
  rw [Version.ref, named]
  exact (congrArg₂ ToolRef.mk names.1 names.2).symm

/-! ### What is reported -/

theorem Informed.of_eq (informed : Informed s) (pins : s'.pins = s.pins)
    (attempts : s'.attempts = s.attempts) (creations : s'.creations = s.creations)
    (reported : ∀ told ∈ s'.reported, told ∈ s.reported) : Informed s' := by
  intro told member seen
  refine (informed told (reported told member) seen).of_imp (fun pinned => ?_) fun choosing => ?_
  · simpa only [State.pinned, State.unfinished, pins, attempts] using pinned
  · simpa only [State.choosing, creations] using choosing

/-- **A report is true of what it can see.** -/
theorem report_informed {i : Nat} {delivered : Bool} (informed : Informed s)
    (moved : s.report i delivered = some s') : Informed s' := by
  obtain ⟨st, _, made⟩ := Option.bind_eq_some_iff.mp moved
  split at made
  · cases made
    intro told member seen
    rcases mem_append.mp member with new | old
    · obtain ⟨ref, releasable, rfl⟩ := mem_map.mp new
      have unpinned : ¬ s.pinned ref := by simpa using (mem_filter.mp releasable).2
      have unchosen : ¬ s.choosing ref := by simpa using seen
      exact ⟨unpinned, unchosen⟩
    · exact (informed told (mem_filter.mp old).1 seen).of_imp id id
  · cases made
    exact informed

theorem commit_informed (informed : Informed s) (moved : s.commit c = some s') : Informed s' := by
  intro told member seen
  have reported : s'.reported = s.reported := by
    obtain ⟨_, _, _, rfl⟩ := commit_cases moved
    rfl
  exact commit_free (informed told (reported ▸ member) seen) moved

theorem next_informed (s : State) (m : Move) (s' : State) (informed : Informed s)
    (moved : next s m = some s') : Informed s' := by
  cases m with
  | startProcess | crash | tick => cases moved; exact informed.of_eq rfl rfl rfl fun _ => id
  | connect | heartbeat | disconnect | deactivate =>
    obtain ⟨_, _, made⟩ := Option.bind_eq_some_iff.mp moved
    cases made
    exact informed.of_eq rfl rfl rfl fun _ => id
  | register i v =>
    obtain ⟨_, _, made⟩ := Option.bind_eq_some_iff.mp moved
    obtain ⟨published, publish, made⟩ := Option.bind_eq_some_iff.mp made
    obtain ⟨versions, rfl⟩ := publish_cases publish
    cases made
    exact informed.of_eq rfl rfl rfl fun _ => id
  | upsert i =>
    obtain ⟨_, _, made⟩ := Option.bind_eq_some_iff.mp moved
    obtain ⟨_, _, made⟩ := Option.bind_eq_some_iff.mp made
    cases made
    exact informed.of_eq rfl rfl rfl fun _ => id
  | beginDrain i refs =>
    obtain ⟨_, _, rfl⟩ := beginDrain_cases moved
    exact informed.of_eq rfl rfl rfl fun _ => id
  | report i delivered => exact report_informed informed moved
  | retire i ref =>
    obtain ⟨st, _, _, rfl⟩ := retire_cases moved
    exact informed.of_eq rfl rfl rfl fun _ member => (mem_filter.mp member).1
  | beginAttempt attemptID recorded =>
    cases moved
    intro told member seen
    refine (informed told member seen).of_imp id fun choosing => ?_
    obtain ⟨creation, added, running, chose⟩ := choosing_iff.mp choosing
    rcases mem_append.mp added with old | new
    · exact choosing_iff.mpr ⟨creation, old, running, chose⟩
    · cases mem_singleton.mp new
      cases chose
  | choose c name granted requested =>
    intro told member seen
    obtain ⟨before, free⟩ := choose_free moved member seen
    exact free (informed told before seen)
  | commit c => exact commit_informed informed moved
  | rollback c =>
    cases moved
    exact fun told member seen => (informed told member seen).of_imp id (close_choosing c)
  | finish attemptID =>
    cases moved
    exact fun told member seen => finish_free attemptID (informed told member seen)

/-! ### Whole runs -/

def Served (s : State) (ref : ToolRef) : Prop := ∃ r ∈ s.registrations, r.ref = ref ∧ r.active

instance (s : State) (ref : ToolRef) : Decidable (Served s ref) :=
  inferInstanceAs (Decidable (∃ r ∈ s.registrations, r.ref = ref ∧ r.active))

/-- The runner unloads a version only where the report on which it does so saw every transaction that
has chosen it, or where another registration serves it. -/
def Covered (s : State) : Move → Prop
  | .retire i ref => ∀ st ∈ s.serving i,
      (∀ told ∈ s.reported, told.allows st ref → told.unseen = false) ∨
      ∃ r ∈ s.registrations, r.ref = ref ∧ r.active ∧ ¬ State.drained st ref r
  | _ => True

instance (s : State) (m : Move) : Decidable (Covered s m) := by
  induction m using Move.casesOn <;> unfold Covered <;> infer_instance

/-- **Drain safety.** -/
theorem retired_unpinned {i : Nat} (reached : Reach next Covered {} s)
    (covered : Covered s (.retire i ref)) (moved : next s (.retire i ref) = some s') :
    ¬ s'.pinned ref ∨ Served s' ref := by
  have informed : Informed s :=
    reached.invariant (I := Informed) nofun fun s m s' informed _ moved =>
      next_informed s m s' informed moved
  obtain ⟨st, serving, ⟨told, member, allows⟩, rfl⟩ := retire_cases moved
  rcases covered st serving with seen | ⟨r, registered, same, active, other⟩
  · have names : told.ref = ref := by
      simp only [Report.allows, Bool.and_eq_true, decide_eq_true_eq] at allows
      exact allows.2
    exact .inl (names ▸ (informed told member (seen told member allows)).pinned)
  · exact .inr ⟨r, mem_map.mpr ⟨r, registered, if_neg other⟩, same, active⟩

/-! ### Runs -/

def readRef : ToolRef := ⟨"read_file", "d1"⟩

def chooseFirst : List Move :=
  [.startProcess] ++ arrive 0 0 (readFile "1" "d1") ++
    [.beginAttempt "attempt" true, .choose 0 "read_file" .readOnly .readOnly]

/-- The attempt is finished before the version is drained. -/
theorem retired_unpinned_finished : ∃ s s', Reach next Covered {} s ∧
    next s (.retire 0 readRef) = some s' ∧ ¬ s'.pinned readRef ∧ ¬ Served s' readRef := by
  obtain ⟨s, reached, covered, ⟨s', moved⟩, unserved⟩ := reach_of_replay next Covered {}
    (chooseFirst ++ [.commit 0, .finish "attempt", .beginDrain 0 [readRef], .report 0 true])
    (fun s => Covered s (.retire 0 readRef) ∧ (∃ s' ∈ next s (.retire 0 readRef), True) ∧
      ∀ s' ∈ next s (.retire 0 readRef), ¬ Served s' readRef)
    (by decide +kernel)
  have moved : next s (.retire 0 readRef) = some s' := moved.1
  have none := unserved s' moved
  exact ⟨s, s', reached, moved, (retired_unpinned reached covered moved).resolve_right none, none⟩

/-- **An attempt is created across a report.** Its transaction has chosen the version and is open when
the runner is told that no attempt pins it; it commits, and then the runner unloads the version. -/
theorem retired_while_creating : ¬ ∀ s s' i ref, Reach next (fun _ _ => True) {} s →
    next s (.retire i ref) = some s' → ¬ s'.pinned ref ∨ Served s' ref := by
  intro safe
  obtain ⟨s, reached, s', moved, pinned, unserved⟩ := reach_of_replay next (fun _ _ => True) {}
    (chooseFirst ++ [.beginDrain 0 [readRef], .report 0 true, .commit 0])
    (fun s => ∃ s' ∈ next s (.retire 0 readRef), s'.pinned readRef ∧ ¬ Served s' readRef)
    (by decide +kernel)
  rcases safe s s' 0 readRef reached moved with unpinned | served
  · exact unpinned pinned
  · exact unserved served

end Iterabase.Gateway.Runners
