/-
**Artifacts — the life of one artifact.**

Every action concerns one artifact and leaves the others alone. So the invariant is one of a single
artifact: of its row, its object, and the upload that works on it.

* `Good` — the object has a row from which it can be found, an upload that goes on has a pending row,
  and (where an error of `Finalize` means that it did not commit) an available row has its bytes.
* `lifeLayer` — the layer of all artifacts, where a stale row is swept only after its upload has ended.
* `create_step`, `put_step`, `available_step`, `erase_step`, … — **what each write keeps**, and when.
-/

import Iterabase.Artifact.Service

namespace Iterabase.Artifact

open Conc List Option Table State

variable {lib : Library} {certain : Prop} {t : Nat} {s s' s'' : State} {id : String}

/-! ### One artifact -/

def Complete (lib : Library) (s : State) (id : String) : Prop :=
  ∀ a, s.row id = some a → a.state = .available → ∃ content, s.object id = some content ∧
    a.sizeBytes = some content.length ∧ a.digest = some (lib.digest content)

structure Good (lib : Library) (certain : Prop) (s : State) (id : String) : Prop where
  key : ∀ a, s.row id = some a → a.storageKey = objectKey id
  fresh : id ∉ s.issued → s.row id = none ∧ s.object id = none ∧ s.uploads id = none ∧
    id ∉ s.created
  handle : ∀ content, s.object id = some content → ∃ a, s.row id = some a ∧ a.state ≠ .deleted
  working : ∀ u, s.uploads id = some u → s.row id = none ∧ id ∉ s.created ∨
    ∃ a, s.row id = some a ∧ a.state = .pending
  complete : certain → Complete lib s id

def Lifecycle.Ending (state : Lifecycle) : Prop := state = .deleting ∨ state = .deleted

/-- The row after the others have worked on an artifact that nobody uploads. -/
structure Later (before after : Option Artifact) : Prop where
  absent : before = none → after = none
  pending : ∀ a, before = some a → a.state = .pending → after = none ∨ after = some a
  settled : ∀ a, before = some a → a.state ≠ .pending → ∃ b, after = some b ∧ b.state ≠ .pending
  ending : ∀ a, before = some a → a.state.Ending → ∃ b, after = some b ∧ b.state.Ending

theorem Later.refl (row : Option Artifact) : Later row row where
  absent := id
  pending := fun _ found _ => .inr found
  settled := fun a found state => ⟨a, found, state⟩
  ending := fun a found state => ⟨a, found, state⟩

theorem Later.trans {r r' r'' : Option Artifact} (first : Later r r') (second : Later r' r'') :
    Later r r'' where
  absent := second.absent ∘ first.absent
  pending := by
    intro a found state
    rcases first.pending a found state with gone | same
    · exact .inl (second.absent gone)
    · exact second.pending a same state
  settled := by
    intro a found state
    obtain ⟨b, found', state'⟩ := first.settled a found state
    exact second.settled b found' state'
  ending := by
    intro a found state
    obtain ⟨b, found', state'⟩ := first.ending a found state
    exact second.ending b found' state'

/-- What thread `t` tolerates of the others, for one artifact. -/
structure Tolerated (t : Nat) (s s' : State) (id : String) : Prop where
  issued : id ∈ s.issued → id ∈ s'.issued := by exact fun known => known
  mine : ∀ u, s.uploads id = some u → u.thread = t → u.process ∈ s'.crashed ∨
    s'.uploads id = some u ∧ s'.row id = s.row id ∧ s'.object id = s.object id
  settled : id ∈ s.issued → s.uploads id = none → s'.uploads id = none ∧
    Later (s.row id) (s'.row id) ∧ (s'.object id = s.object id ∨ s'.object id = none)

structure SameAt (s s' : State) (id : String) : Prop where
  row : s'.row id = s.row id := by rfl
  object : s'.object id = s.object id := by rfl
  uploads : s'.uploads id = s.uploads id := by rfl
  issued : id ∈ s'.issued ↔ id ∈ s.issued := by rfl
  created : id ∈ s'.created ↔ id ∈ s.created := by rfl

theorem SameAt.good (same : SameAt s s' id) (good : Good lib certain s id) : Good lib certain s'
    id where
  key := by
    rw [same.row]
    exact good.key
  fresh := by
    rw [same.row, same.object, same.uploads, same.issued, same.created]
    exact good.fresh
  handle := by
    rw [same.row, same.object]
    exact good.handle
  working := by
    rw [same.row, same.uploads, same.created]
    exact good.working
  complete := by
    unfold Complete
    rw [same.row, same.object]
    exact good.complete

theorem SameAt.tolerated (same : SameAt s s' id) (t : Nat) : Tolerated t s s' id where
  issued := same.issued.mpr
  mine := fun _ working _ => .inr ⟨same.uploads.trans working, same.row, same.object⟩
  settled := fun _ free => ⟨same.uploads.trans free, same.row ▸ .refl _, .inl same.object⟩

/-! ### The layer -/

def Keyed (s : State) : Prop := ∀ key content, s.objects key = some content → ∃ id, key = objectKey id

def Rely (t : Nat) (s s' : State) : Prop :=
  (∀ process ∈ s.crashed, process ∈ s'.crashed) ∧ ∀ id, Tolerated t s s' id

theorem Rely.refl (t : Nat) (s : State) : Rely t s s :=
  ⟨fun _ ended => ended, fun _ => SameAt.tolerated {} t⟩

theorem Rely.trans (first : Rely t s s') (second : Rely t s' s'') : Rely t s s'' := by
  refine ⟨fun p ended => second.1 p (first.1 p ended), fun id => ?_⟩
  obtain ⟨issued, mine, settled⟩ := first.2 id
  obtain ⟨issued', mine', settled'⟩ := second.2 id
  refine ⟨issued' ∘ issued, fun u working own => ?_, fun known free => ?_⟩
  · rcases mine u working own with ended | ⟨going, row, object⟩
    · exact .inl (second.1 _ ended)
    · rcases mine' u going own with ended | ⟨going', row', object'⟩
      · exact .inl ended
      · exact .inr ⟨going', row'.trans row, object'.trans object⟩
  · obtain ⟨free', later, object⟩ := settled known free
    obtain ⟨free'', later', object'⟩ := settled' (issued known) free'
    refine ⟨free'', later.trans later', ?_⟩
    rcases object' with same | gone
    · rw [same]
      exact object
    · exact .inr gone

/-- A stale row is listed only after its upload has ended, and, where `certain` holds, an error of
`Finalize` means that it did not commit. -/
def Prompt (certain : Prop) : Label → Input → State → Prop
  | .stalePending ttl, input, s =>
      ∀ a ∈ s.stalePending (input.now - ttl) 100, s.uploads a.id = none
  | .finalize, input, _ => certain → ¬ input.fault.lost
  | .plain, _, _ => True

instance [Decidable certain] (label : Label) (input : Input) (s : State) :
    Decidable (Prompt certain label input s) := by
  cases label <;> unfold Prompt <;> infer_instance

abbrev Holds (lib : Library) (certain : Prop) (s : State) : Prop := Keyed s ∧ ∀ id, Good lib certain s id

def lifeLayer (lib : Library) (certain : Prop) : Layer Label Input Request State where
  inv := Holds lib certain
  guard := .onActions (Prompt certain)
  rely := Rely
  rely_refl := Rely.refl
  rely_trans := Rely.trans

theorem step_at (id : String) (holds : Holds lib certain s)
    (others : ∀ id', id' ≠ id → SameAt s s' id') (crashed : s'.crashed = s.crashed)
    (keyed : ∀ key content, s'.objects key = some content → s.objects key = some content ∨
      key = objectKey id)
    (good : Good lib certain s' id) (tolerated : ∀ other, other ≠ t → Tolerated other s s' id) :
    (lifeLayer lib certain).Step t s s' := by
  refine ⟨⟨fun key content found => ?_, fun id' => ?_⟩, fun other different =>
    ⟨by rw [crashed]; exact fun _ ended => ended, fun id' => ?_⟩⟩
  · rcases keyed key content found with old | new
    · exact holds.1 key content old
    · exact ⟨id, new⟩
  · rcases eq_or_ne id' id with rfl | other
    · exact good
    · exact (others id' other).good (holds.2 id')
  · rcases eq_or_ne id' id with rfl | other'
    · exact tolerated other different
    · exact (others id' other').tolerated other

/-! ### What a thread may rely on -/

/-- The artifact is known and nobody uploads it. -/
def Closed (s : State) (id : String) : Prop := id ∈ s.issued ∧ s.uploads id = none

/-- Nobody uploads the artifact, and it never became available. -/
structure Abandoned (s : State) (id : String) : Prop where
  closed : Closed s id
  row : ∀ a, s.row id = some a → a.state = .pending

/-- The artifact is being deleted. -/
structure Retiring (s : State) (id : String) : Prop where
  closed : Closed s id
  row : ∃ a, s.row id = some a ∧ a.state.Ending

/-- The artifact has no object, and none will come. -/
structure Erased (s : State) (id : String) : Prop where
  closed : Closed s id
  object : s.object id = none

theorem Closed.later (closed : Closed s id) (rely : Rely t s s') : Closed s' id :=
  ⟨(rely.2 id).issued closed.1, ((rely.2 id).settled closed.1 closed.2).1⟩

theorem Abandoned.later (abandoned : Abandoned s id) (rely : Rely t s s') : Abandoned s' id := by
  refine ⟨abandoned.closed.later rely, fun a found => ?_⟩
  obtain ⟨_, later, _⟩ := (rely.2 id).settled abandoned.closed.1 abandoned.closed.2
  rcases before : s.row id with _ | b
  · cases (later.absent before).symm.trans found
  have state := abandoned.row b before
  rcases later.pending b before state with gone | same
  · cases gone.symm.trans found
  · cases same.symm.trans found
    exact state

theorem Retiring.later (retiring : Retiring s id) (rely : Rely t s s') : Retiring s' id := by
  obtain ⟨a, found, state⟩ := retiring.row
  obtain ⟨_, later, _⟩ := (rely.2 id).settled retiring.closed.1 retiring.closed.2
  exact ⟨retiring.closed.later rely, later.ending a found state⟩

theorem Erased.later (erased : Erased s id) (rely : Rely t s s') : Erased s' id := by
  refine ⟨erased.closed.later rely, ?_⟩
  obtain ⟨_, _, same | gone⟩ := (rely.2 id).settled erased.closed.1 erased.closed.2
  · exact same.trans erased.object
  · exact gone

/-- What no other thread undoes, the thread's own actions do not undo either. -/
theorem rely_of_step (step : (lifeLayer lib certain).Step t s s') : Rely (t + 1) s s' :=
  step.2 (t + 1) (Nat.succ_ne_self t)

/-! ### Rows and objects after a write -/

theorem row_updateRow (p : Lifecycle → Bool) (f : Artifact → Artifact) (keeps : ∀ a, (f a).id = a.id)
    (id' : String) : (s.updateRow id p f keeps).row id' = (s.row id').map fun a => if a.id =
    id && p a.state then f a else a := find_update s.artifacts _ f keeps id'

theorem row_id {a : Artifact} (found : s.row id = some a) : a.id = id := find_key found

theorem row_updateRow_ne (p : Lifecycle → Bool) (f : Artifact → Artifact)
    (keeps : ∀ a, (f a).id = a.id) {id' : String} (other : id' ≠ id) :
    (s.updateRow id p f keeps).row id' = s.row id' := by
  rw [row_updateRow]
  rcases found : s.row id' with _ | a
  · rfl
  · have ne : a.id ≠ id := by rwa [row_id found]
    simp [ne]

theorem row_updateRow_self (s : State) (id : String) (p : Lifecycle → Bool) (f : Artifact → Artifact)
    (keeps : ∀ a, (f a).id = a.id) :
    (s.updateRow id p f keeps).row id = (s.row id).map fun a => if p a.state then f a else a := by
  rw [row_updateRow]
  rcases found : s.row id with _ | a
  · rfl
  · simp [row_id found]

theorem row_deletePending (id' : String) : (s.deletePending id).row id' =
    (s.row id').filter fun a => !(a.id = id && a.state = .pending) := by
  rw [State.row, State.deletePending, find_remove]
  rfl

theorem object_putObject (content : Bytes) (id' : String) :
    (s.putObject (objectKey id) content).object id' = if id' = id then some content else s.object
    id' := by
  simp only [State.object, State.putObject, objectKey_inj]

theorem object_removeObject (id' : String) :
    (s.removeObject (objectKey id)).object id' = if id' = id then none else s.object id' := by
  simp only [object, removeObject, objectKey_inj]

/-! ### What each write keeps -/

theorem update_step (p : Lifecycle → Bool) (f : Artifact → Artifact) (keeps : ∀ a, (f a).id = a.id)
    (holds : Holds lib certain s) (settled : ∀ state, p state → state ≠ .pending)
    (key : ∀ a, (f a).storageKey = a.storageKey) (ending : ∀ a, p a.state → (f a).state.Ending)
    (erased : ∀ a, p a.state → (f a).state = .deleted → s.object id = none) :
    (lifeLayer lib certain).Step t s (s.updateRow id p f keeps) := by
  have good := holds.2 id
  have row := row_updateRow_self s id p f keeps
  -- the row after the update, for each row before it
  have after : ∀ a, s.row id = some a → (s.updateRow id p f keeps).row id =
      some (if p a.state then f a else a) := by
    intro a found
    rw [row, found]
    rfl
  have pending : ∀ a, s.row id = some a → a.state = .pending →
      (s.updateRow id p f keeps).row id = some a := by
    intro a found state
    rw [after a found, if_neg fun selected => settled _ selected state]
  have unread : ∀ state, state = Lifecycle.deleting ∨ state = .deleted → state ≠ .pending := by
    rintro _ (rfl | rfl) <;> nofun
  refine step_at id holds (fun id' other => { row := row_updateRow_ne p f keeps other }) rfl
    (fun _ _ found => .inl found) ?_ fun other _ => ?_
  · refine ⟨fun a' found => ?_, fun unknown => ?_, fun content found => ?_, fun u working => ?_,
      fun sure a' found state => ?_⟩
    · rw [row] at found
      obtain ⟨a, before, rfl⟩ := map_eq_some_iff.mp found
      split
      · exact (key a).trans (good.key a before)
      · exact good.key a before
    · obtain ⟨absent, rest⟩ := good.fresh unknown
      exact ⟨by rw [row, absent]; rfl, rest⟩
    · obtain ⟨a, before, state⟩ := good.handle content found
      refine ⟨_, after a before, ?_⟩
      split
      · next selected =>
        intro deleted
        cases (erased a selected deleted).symm.trans found
      · exact state
    · rcases good.working u working with ⟨absent, new⟩ | ⟨a, before, state⟩
      · exact .inl ⟨by rw [row, absent]; rfl, new⟩
      · exact .inr ⟨a, pending a before state, state⟩
    · rw [row] at found
      obtain ⟨a, before, rfl⟩ := map_eq_some_iff.mp found
      split at state
      · next selected => rcases ending a selected with gone | gone <;> cases gone.symm.trans state
      next kept =>
      rw [if_neg kept]
      exact good.complete sure a before state
  · refine { mine := fun u working _ => .inr ⟨working, ?_, rfl⟩, settled := fun _ free => ⟨free,
      ⟨fun absent => ?_, fun a found state => ?_, fun a found state => ?_, fun a found state => ?_⟩, .inl rfl⟩ }
    · rcases good.working u working with ⟨absent, _⟩ | ⟨a, before, state⟩
      · rw [row, absent]
        rfl
      · rw [pending a before state, before]
    · rw [row, absent]
      rfl
    · exact .inr (pending a found state)
    · refine ⟨_, after a found, ?_⟩
      split
      · next selected => exact unread _ (ending a selected)
      · exact state
    · refine ⟨_, after a found, ?_⟩
      split
      · next selected => exact ending a selected
      · exact state

theorem beginDelete_cases (s : State) (id reason : String) (now : Int) :
    s.beginDelete id reason now = (none, s) ∨ ∃ a, s.row id = some a ∧ a.state ≠ .pending ∧
    (s.beginDelete id reason now).1 = some (a.startDeleting reason now) ∧
    (s.beginDelete id reason now).2.row id = some (a.startDeleting reason now) := by
  unfold State.beginDelete
  split
  · exact .inl rfl
  next a selected =>
  obtain ⟨found, live⟩ := filter_eq_some_iff.mp selected
  refine .inr ⟨a, found, ?_, rfl, ?_⟩
  · intro pending
    simp [pending] at live
  · have updated := row_updateRow_self s id
      (fun state => state = .available || state = .deleting) (Artifact.startDeleting reason now)
      fun _ => rfl
    rw [found, map_some, if_pos live] at updated
    exact updated

theorem beginDelete_step (reason : String) (now : Int) (holds : Holds lib certain s) :
    (lifeLayer lib certain).Step t s (s.beginDelete id reason now).2 := by
  unfold State.beginDelete
  split
  · exact .refl holds t
  refine update_step (fun state => state = .available || state = .deleting)
    (Artifact.startDeleting reason now) (fun _ => rfl) holds ?_ ?_ ?_ ?_
  · rintro _ selected rfl
    cases selected
  · exact fun _ => rfl
  · exact fun _ _ => .inl rfl
  · exact fun _ _ => nofun

theorem finishDelete_step (holds : Holds lib certain s) (erased : Erased s id) :
    (lifeLayer lib certain).Step t s (s.finishDelete id).2 := by
  refine update_step (· = .deleting) Artifact.finishDeleting (fun _ => rfl) holds ?_ ?_ ?_ ?_
  · rintro _ selected rfl
    cases selected
  · exact fun _ => rfl
  · exact fun _ _ => .inr rfl
  · exact fun _ _ _ => erased.object

theorem recordDeleteError_step (text : String) (holds : Holds lib certain s) :
    (lifeLayer lib certain).Step t s (s.recordDeleteError id text) := by
  apply update_step _ _ _ holds
  · rintro _ selected rfl
    cases selected
  · exact fun _ => rfl
  · exact fun _ selected => .inl (of_decide_eq_true selected)
  · intro a selected deleted
    cases (of_decide_eq_true selected).symm.trans deleted

theorem deletePending_step (holds : Holds lib certain s) (erased : Erased s id) :
    (lifeLayer lib certain).Step t s (s.deletePending id) := by
  have good := holds.2 id
  have row : (s.deletePending id).row id = (s.row id).filter fun a => a.state ≠ .pending := by
    rw [row_deletePending]
    rcases found : s.row id with _ | a
    · rfl
    · simp [Option.filter, row_id found]
  have kept : ∀ a, s.row id = some a → a.state ≠ .pending → (s.deletePending id).row id = some a := by
    intro a found state
    rw [row, found]
    simp [state]
  have old : ∀ a, (s.deletePending id).row id = some a → s.row id = some a := by
    intro a found
    rw [row] at found
    exact (filter_eq_some_iff.mp found).1
  refine step_at id holds (fun id' other => { row := ?_ }) rfl (fun _ _ found => .inl found)
    ⟨fun a found => good.key a (old a found), fun unknown => absurd erased.closed.1 unknown,
      fun content found => ?_, fun u working => ?_, fun sure a found state => ?_⟩
    fun other _ => { mine := fun u working => ?_, settled := fun _ free =>
      ⟨free, ⟨fun absent => ?_, fun a found state => .inl ?_, fun a found state => ⟨a, kept a found state,
        state⟩, fun a found state => ⟨a, kept a found ?_, state⟩⟩, .inl rfl⟩ }
  · rw [row_deletePending]
    rcases found : s.row id' with _ | a
    · rfl
    · have ne : a.id ≠ id := by rwa [row_id found]
      simp [ne]
  · cases erased.object.symm.trans found
  · cases erased.closed.2.symm.trans working
  · exact good.complete sure a (old a found) state
  · cases erased.closed.2.symm.trans working
  · rw [row, absent]
    rfl
  · rw [row, found]
    simp [state]
  · rcases state with state | state <;> rw [state] <;> nofun

/-- **An object goes** that nobody uploads and no available row needs. -/
theorem erase_step (holds : Holds lib certain s) (closed : Closed s id)
    (unavailable : certain → ∀ a, s.row id = some a → a.state ≠ .available) :
    (lifeLayer lib certain).Step t s (s.removeObject (objectKey id)) := by
  have good := holds.2 id
  have gone : (s.removeObject (objectKey id)).object id = none := by
    rw [object_removeObject, if_pos rfl]
  refine step_at id holds (fun id' other => { object := ?_ }) rfl (fun key content found => ?_)
    ⟨good.key, fun unknown => absurd closed.1 unknown, fun content found => ?_, good.working,
      fun sure a found state => absurd state (unavailable sure a found)⟩
    fun other _ => { mine := fun u working => ?_, settled := fun _ free => ⟨free, .refl _, .inr gone⟩ }
  · rw [object_removeObject, if_neg other]
  · simp only [removeObject] at found
    split at found
    · cases found
    · exact .inl found
  · cases gone.symm.trans found
  · cases closed.2.symm.trans working

/-! ### Uploads -/

/-- The thread uploads the artifact, and its process is running. -/
structure Owned (t process : Nat) (s : State) (id : String) : Prop where
  upload : s.uploads id = some ⟨t, process⟩
  running : process ∉ s.crashed

variable {process : Nat}

theorem Owned.later (mine : s.uploads id = some ⟨t, process⟩) (rely : Rely t s s')
    (running : process ∉ s'.crashed) : Owned t process s' id ∧ s'.row id = s.row id ∧ s'.object id =
    s.object id := by
  rcases (rely.2 id).mine ⟨t, process⟩ mine rfl with ended | ⟨going, row, object⟩
  · exact absurd ended running
  · exact ⟨⟨going, running⟩, row, object⟩

theorem Owned.tolerated (owned : Owned t process s id) (issued : s'.issued = s.issued) (other : Nat)
    (different : other ≠ t) : Tolerated other s s' id where
  issued := (issued ▸ ·)
  mine := by
    intro u working own
    cases owned.upload.symm.trans working
    exact absurd own.symm different
  settled := by
    intro _ free
    cases owned.upload.symm.trans free

theorem Owned.issued (owned : Owned t process s id) (good : Good lib certain s id) :
    id ∈ s.issued := by
  by_contra unknown
  cases (good.fresh unknown).2.2.1.symm.trans owned.upload

section Upload

variable (holds : Holds lib certain s) (owned : Owned t process s id)

include holds owned

theorem giveUp_step : (lifeLayer lib certain).Step t s (s.giveUp id) := by
  have good := holds.2 id
  have ended : (s.giveUp id).uploads id = none := if_pos rfl
  refine step_at id holds (fun id' other => { uploads := if_neg other }) rfl
    (fun _ _ found => .inl found) ⟨good.key, fun unknown => ?_, good.handle, fun u working => ?_,
      good.complete⟩ (owned.tolerated rfl)
  · obtain ⟨row, object, _, new⟩ := good.fresh unknown
    exact ⟨row, object, ended, new⟩
  · cases ended.symm.trans working

theorem create_step {in' : UploadInput} {now : Int} :
    (lifeLayer lib certain).Step t s (s.createPending id (objectKey id) in' now).2 := by
  have good := holds.2 id
  unfold State.createPending
  split
  · exact .refl holds t
  next artifacts inserted =>
  have row := find_insert inserted
  have new : artifacts.find id = some (in'.row id (objectKey id) now) := (row id).trans (if_pos rfl)
  refine step_at id holds (fun id' other => { row := ?_, created := ?_ }) rfl (fun _ _ found => .inl found)
    ⟨fun a found => ?_, fun unknown => absurd (owned.issued good) unknown, fun _ _ => ⟨_, new, nofun⟩,
      fun _ _ => .inr ⟨_, new, rfl⟩, fun _ a found state => ?_⟩
    (owned.tolerated rfl)
  · exact (row id').trans (if_neg (Ne.symm other))
  · exact mem_cons.trans (or_iff_right other)
  · cases new.symm.trans found
    rfl
  · cases new.symm.trans found
    cases state

theorem put_step {content : Bytes} {a : Artifact} (found : s.row id = some a)
    (pending : a.state = .pending) :
    (lifeLayer lib certain).Step t s (s.putObject (objectKey id) content) := by
  have good := holds.2 id
  refine step_at id holds (fun id' other => { object := ?_ }) rfl (fun key _ stored => ?_)
    ⟨good.key, fun unknown => absurd (owned.issued good) unknown, fun _ _ => ⟨a, found, ?_⟩,
      good.working, fun _ a' found' state => ?_⟩
    (owned.tolerated rfl)
  · rw [object_putObject, if_neg other]
  · simp only [State.putObject] at stored
    split at stored
    · next same => exact .inr same
    · exact .inl stored
  · rw [pending]
    nofun
  · cases found.symm.trans found'
    cases pending.symm.trans state

theorem available_step {content : Bytes} (stored : s.object id = some content) :
    (lifeLayer lib certain).Step t s
    ((s.makeAvailable id content.length (lib.digest content)).giveUp id) := by
  have good := holds.2 id
  have row : ((s.makeAvailable id content.length (lib.digest content)).giveUp id).row id =
      (s.row id).map fun a => if a.state = .pending then
        a.finalized content.length (lib.digest content) else a := by
    have updated := row_updateRow_self s id (· = .pending)
      (Artifact.finalized content.length (lib.digest content)) fun _ => rfl
    simp only [decide_eq_true_eq] at updated
    exact updated
  obtain ⟨a, found, state⟩ : ∃ a, s.row id = some a ∧ a.state = .pending := by
    obtain ⟨a, found, _⟩ := good.handle content stored
    rcases good.working _ owned.upload with ⟨absent, _⟩ | pending
    · cases absent.symm.trans found
    · exact pending
  rw [found, map_some, if_pos state] at row
  have ended : ((s.makeAvailable id content.length (lib.digest content)).giveUp id).uploads id = none :=
    if_pos rfl
  refine step_at id holds (fun id' other => ⟨row_updateRow_ne (s := s) (· = .pending)
      (Artifact.finalized content.length (lib.digest content)) (fun _ => rfl) other, rfl, if_neg other,
      .rfl, .rfl⟩) rfl (fun _ _ found => .inl found)
    ⟨fun a' found' => ?_, fun unknown => absurd (owned.issued good) unknown,
      fun _ _ => ⟨_, row, nofun⟩, fun u working => ?_, fun _ a' found' _ => ?_⟩
    (owned.tolerated rfl)
  · cases row.symm.trans found'
    exact good.key a found
  · cases ended.symm.trans working
  · cases row.symm.trans found'
    exact ⟨content, stored, rfl, rfl⟩

end Upload

theorem issue_step (holds : Holds lib certain s) (unknown : id ∉ s.issued) :
    (lifeLayer lib certain).Step t s { s with
      issued := id :: s.issued
      uploads := fun k => if k = id then some ⟨t, process⟩ else s.uploads k } := by
  have good := holds.2 id
  obtain ⟨row, object, free, new⟩ := good.fresh unknown
  refine step_at id holds
    (fun id' other => { uploads := if_neg other, issued := mem_cons.trans (or_iff_right other) }) rfl
    (fun _ _ found => .inl found)
    ⟨good.key, fun still => absurd (.head _ ..) still, good.handle,
      fun _ _ => .inl ⟨row, new⟩, good.complete⟩
    fun other _ => { issued := .tail _, mine := fun u working => ?_, settled := (absurd · unknown) }
  cases free.symm.trans working

theorem crash_step (process : Nat) (holds : Holds lib certain s) :
    (lifeLayer lib certain).Step t s (s.crash process) := by
  have uploads : ∀ id u, (s.crash process).uploads id = some u → s.uploads id = some u :=
    fun _ _ working => (filter_eq_some_iff.mp working).1
  refine ⟨⟨holds.1, fun id => ?_⟩, fun other _ => ⟨fun _ => mem_cons_of_mem _, fun id => ?_⟩⟩
  · have good := holds.2 id
    refine ⟨good.key, fun unknown => ?_, good.handle, fun u working => good.working u (uploads id u working),
      good.complete⟩
    obtain ⟨row, object, free, new⟩ := good.fresh unknown
    exact ⟨row, object, by simp [crash, free], new⟩
  · refine { mine := fun u working _ => ?_, settled := fun _ free =>
      ⟨by simp [crash, free], .refl _, .inl rfl⟩ }
    by_cases same : u.process = process
    · exact .inl (same ▸ (.head _) ..)
    · exact .inr ⟨by simp [crash, working, same], rfl, rfl⟩

theorem restart_good (holds : Holds lib certain s) :
    Holds lib certain { s with uploads := fun _ => none } := by
  refine ⟨holds.1, fun id => ?_⟩
  have good := holds.2 id
  refine ⟨good.key, fun unknown => ?_, good.handle, nofun, good.complete⟩
  obtain ⟨row, object, _, new⟩ := good.fresh unknown
  exact ⟨row, object, rfl, new⟩

theorem init_good : Holds lib certain {} := by
  have absent : ∀ id, ({} : State).row id = none := fun _ => rfl
  have empty : ∀ id, ({} : State).object id = none := fun _ => rfl
  refine ⟨fun key content found => ?_, fun id => ⟨fun a found => ?_, fun _ => ?_, fun content found => ?_,
    fun u working => ?_, fun _ a found => ?_⟩⟩
  · cases found
  · cases (absent id).symm.trans found
  · exact ⟨absent id, empty id, rfl, not_mem_nil⟩
  · cases (empty id).symm.trans found
  · cases working
  · cases (absent id).symm.trans found

end Iterabase.Artifact
