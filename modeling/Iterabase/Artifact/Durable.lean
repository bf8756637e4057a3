/-
**Artifacts — what the two stores hold together.**

The row comes before the object and goes after it, so that an object can always be found again; the
row becomes available after the object is written, and stops being so before it is deleted. Both
orders are kept by each procedure alone. What breaks them is a sweep that takes a slow upload for an
abandoned one, and an upload that takes a commit whose answer was lost for one that failed.

* `upload_goes`, `delete_goes`, `sweep_goes` — the three procedures, action by action.
* `objects_have_rows`, `available_have_bytes` — **what holds where neither happens.**
* `object_without_row`, `available_without_bytes` — a slow upload, and a lost answer.
-/

import Iterabase.Artifact.Lifecycle

namespace Iterabase.Artifact

open Conc Option

variable {lib : Library} {cfg : Config} {certain : Prop} {t process : Nat} {s s' : State} {id : String}

/-! ### Actions -/

abbrev Goes (lib : Library) (certain : Prop) (t : Nat) {α : Type} (p : Program α)
    (Q : α → State → Prop) (s : State) : Prop := Along Rules.free (lifeLayer lib certain) t p Q s

variable {label : Label}

variable {α : Type} {Q : α → State → Prop} {tx : Input → State → Except Err α × State}
  {content : Bytes}

theorem locally_goes {f : Input → State → α × State}
    (holds : ∀ s₁, Rely t s s₁ → Holds lib certain s₁ → process ∉ s₁.crashed → ∀ input,
      Prompt certain label input s₁ → (lifeLayer lib certain).Step t s₁ (f input s₁).2 ∧
        Q (f input s₁).1 (f input s₁).2) : Goes lib certain t (locally process label f) Q s := by
  refine Along.step fun s₁ _ rely _ inv input answer s₂ admitted ran _ => ?_
  split at ran
  · cases ran
  next running =>
  obtain ⟨rfl, rfl⟩ := Prod.mk.inj (Option.some.inj ran)
  exact holds s₁ rely inv running input admitted

theorem call_goes {Q : Except Err α → State → Prop}
    (holds : ∀ s₁, Rely t s s₁ → Holds lib certain s₁ → process ∉ s₁.crashed → ∀ input,
      Prompt certain label input s₁ → (lifeLayer lib certain).Step t s₁ (tx input s₁).2 ∧
        Q (tx input s₁).1 (tx input s₁).2 ∧ ∀ err, Q (.error err) s₁ ∧ Q (.error err) (tx input s₁).2) :
    Goes lib certain t (locally process label (call tx)) Q s := by
  refine locally_goes fun s₁ rely inv running input admitted => ?_
  obtain ⟨step, answered, failed⟩ := holds s₁ rely inv running input admitted
  unfold call
  split
  · exact ⟨step, answered⟩
  · exact ⟨.refl inv t, (failed _).1⟩
  · exact ⟨step, (failed _).2⟩

theorem read_goes {f : Input → State → Except Err α} :
    Goes lib certain t (locally process label (call fun input s => (f input s, s))) (fun _ _ => True) s :=
  call_goes fun _ _ inv _ _ _ => ⟨.refl inv t, trivial, fun _ => ⟨trivial, trivial⟩⟩

/-! ### Deletion -/

/-- Nobody uploads the artifact, and where errors can be trusted it is not available. -/
def Unneeded (certain : Prop) (s : State) (id : String) : Prop :=
  Closed s id ∧ (certain → ∀ a, s.row id = some a → a.state ≠ .available)

theorem deleteObject_goes {K : State → Prop} (stable : ∀ {u s s'}, Rely u s s' → K s → K s')
    (unneeded : ∀ {s}, K s → Unneeded certain s id)
    (start : K s) : Goes lib certain t (deleteObject process (objectKey id))
    (fun answer s => K s ∧ (answer = .ok () → Erased s id)) s := by
  refine call_goes fun s₁ rely inv _ input _ => ?_
  have before := stable rely start
  obtain ⟨closed, unavailable⟩ := unneeded before
  have step : (lifeLayer lib certain).Step t s₁ (s₁.removeObject (objectKey id)) :=
    erase_step inv closed unavailable
  have after := stable (rely_of_step step) before
  refine ⟨step, ⟨after, fun _ => ⟨(unneeded after).1, ?_⟩⟩, fun err => ⟨⟨before, nofun⟩, after, nofun⟩⟩
  rw [object_removeObject, if_pos rfl]

theorem Abandoned.unneeded (abandoned : Abandoned s id) : Unneeded certain s id := by
  refine ⟨abandoned.closed, fun _ a found => ?_⟩
  rw [abandoned.row a found]
  nofun

theorem Retiring.unneeded (retiring : Retiring s id) : Unneeded certain s id := by
  refine ⟨retiring.closed, fun _ a found => ?_⟩
  obtain ⟨b, same, state⟩ := retiring.row
  cases same.symm.trans found
  rcases state with state | state <;> rw [state] <;> nofun

variable {a : Artifact}

/-- **What is left of an upload is removed**, the object before the row. -/
theorem removePending_goes (abandoned : Abandoned s a.id) (key : a.storageKey = objectKey a.id) :
    Goes lib certain t (removePending process a) (fun _ _ => True) s := by
  unfold removePending
  rw [key]
  refine .andThen (deleteObject_goes (K := (Abandoned · a.id)) (fun rely holds => holds.later rely)
    Abandoned.unneeded abandoned) fun answer s₁ after => ?_
  rcases answer with err | _
  · trivial
  · refine .bind (call_goes fun s₂ rely inv _ input _ => ?_)
    exact ⟨deletePending_step inv ((after.2 rfl).later rely), trivial, fun _ => ⟨trivial, trivial⟩⟩

theorem beginDelete_goes (reason : String) :
    Goes lib certain t (beginDelete process id reason) (fun answer s => ∀ a, answer = .ok a →
      a.state ≠ .deleted → a.storageKey = objectKey id ∧ Retiring s id) s := by
  refine .bind (.mono (Q := fun answer s => ∀ a, answer = .ok (some a) →
    a.storageKey = objectKey id ∧ Retiring s id) (fun answer s₁ after => ?_) ?_)
  · rcases answer with err | _ | a
    · intro _ same
      cases same
    · refine .seq read_goes fun existing s₂ => ?_
      rcases existing with err | existing
      · intro _ same
        cases same
      dsimp only
      split
      · next deleted =>
        intro a same live
        cases same
        exact absurd deleted live
      · intro _ same
        cases same
    · intro b same _
      cases same
      exact after a rfl
  · refine call_goes fun s₁ _ inv _ input _ => ⟨beginDelete_step reason input.now inv, ?_, fun _ =>
      ⟨fun _ same => (nomatch same), fun _ same => (nomatch same)⟩⟩
    intro a same
    replace same := Except.ok.inj same
    have good := inv.2 id
    rcases beginDelete_cases s₁ id reason input.now with nothing | ⟨b, found, settled, answer, after⟩
    · rw [nothing] at same
      cases same
    have free : s₁.uploads id = none := by
      by_contra working
      obtain ⟨u, working⟩ := ne_none_iff_exists'.mp working
      rcases good.working u working with ⟨absent, _⟩ | ⟨c, other, pending⟩
      · cases absent.symm.trans found
      · cases found.symm.trans other
        exact settled pending
    have known : id ∈ s₁.issued := by
      by_contra unknown
      cases (good.fresh unknown).1.symm.trans found
    have closed : Closed (s₁.beginDelete id reason input.now).2 id :=
      Closed.later ⟨known, free⟩ (rely_of_step (beginDelete_step (t := t) reason input.now inv))
    rw [answer] at same
    cases same
    exact ⟨good.key b found, closed, b.startDeleting reason input.now, after, .inl rfl⟩

theorem finishDelete_goes (erased : Erased s id) :
    Goes lib certain t (finishDelete process id) (fun _ _ => True) s := by
  refine .seq (call_goes fun s₁ rely inv _ input _ => ⟨finishDelete_step inv (erased.later rely), trivial,
    fun _ => ⟨trivial, trivial⟩⟩) fun answer s₁ => ?_
  rcases answer with err | _ | _
  · trivial
  · refine .seq read_goes fun existing s₂ => ?_
    rcases existing with err | existing
    · trivial
    · dsimp only
      split <;> trivial
  · trivial

/-- **Deletion**: the row stops being available, then the object goes, then the row is marked. -/
theorem delete_goes (reason : String) :
    Goes lib certain t (delete process id reason) (fun _ _ => True) s := by
  refine .andThen (beginDelete_goes _) fun answer s₁ begun => ?_
  rcases answer with err | a
  · trivial
  dsimp only
  split
  · trivial
  next live =>
  obtain ⟨key, retiring⟩ := begun a rfl live
  rw [key]
  refine .andThen (deleteObject_goes (K := (Retiring · id)) (fun rely holds => holds.later rely)
    Retiring.unneeded retiring) fun answer s₂ after => ?_
  rcases answer with err | _
  · refine .bind (.bind (call_goes fun s₃ _ inv _ input _ => ?_))
    exact ⟨recordDeleteError_step _ inv, trivial, fun _ => ⟨trivial, trivial⟩⟩
  refine .seq (finishDelete_goes (after.2 rfl)) fun answer s₃ => ?_
  rcases answer with err | _
  · trivial
  · exact read_goes

theorem deleteAll_goes (reason : Artifact → String) (rows : List Artifact) :
    Goes lib certain t (deleteAll process reason rows) (fun _ _ => True) s := by
  induction rows generalizing s with
  | nil => trivial
  | cons a rest ih => exact .seq (delete_goes _) fun _ _ => ih

/-! ### The sweep -/

def AllAbandoned (rows : List Artifact) (s : State) : Prop :=
  ∀ a ∈ rows, Abandoned s a.id ∧ a.storageKey = objectKey a.id

variable {rows : List Artifact}

theorem AllAbandoned.later (all : AllAbandoned rows s) (rely : Rely t s s') : AllAbandoned rows s' :=
  fun a member => ⟨(all a member).1.later rely, (all a member).2⟩

theorem removeAll_goes (all : AllAbandoned rows s) :
    Goes lib certain t (removeAll process rows) (fun _ _ => True) s := by
  induction rows generalizing s with
  | nil => trivial
  | cons a rest ih =>
    obtain ⟨⟨abandoned, key⟩, others⟩ := List.forall_mem_cons.mp all
    -- the rows that are still to be removed stay abandoned meanwhile
    exact .andThen (.frame (K := AllAbandoned rest) (fun _ rely holds => holds.later rely)
      (fun step holds => holds.later (rely_of_step step)) others (removePending_goes abandoned key))
      fun _ _ after => ih after.2

theorem mem_listLifecycle {p : Artifact → Bool} {limit : Nat}
    (member : a ∈ s.listLifecycle p limit) : s.row a.id = some a ∧ p a := by
  have listed := (List.mem_insertionSort _).mp (List.mem_of_mem_take member)
  obtain ⟨stored, selected⟩ := List.mem_filter.mp listed
  exact ⟨Table.find_of_mem stored, selected⟩

theorem stalePending_abandoned {before : Int} (inv : Holds lib certain s)
    (ended : ∀ a ∈ s.stalePending before 100, s.uploads a.id = none) :
    AllAbandoned (s.stalePending before 100) s := by
  intro a member
  obtain ⟨found, stale⟩ := mem_listLifecycle member
  have good := inv.2 a.id
  have pending : a.state = .pending := by
    simp only [Bool.and_eq_true, decide_eq_true_eq] at stale
    exact stale.1
  have known : a.id ∈ s.issued := by
    by_contra unknown
    cases (good.fresh unknown).1.symm.trans found
  refine ⟨⟨⟨known, ended a member⟩, fun b same => ?_⟩, good.key a found⟩
  cases found.symm.trans same
  exact pending

theorem forList_goes {listed : Program (Except Err (List Artifact))} {f : List Artifact → Program Unit}
    (holds : Goes lib certain t listed (fun rows s => ∀ l, rows = .ok l →
      Goes lib certain t (f l) (fun _ _ => True) s) s) :
    Goes lib certain t (forList listed f) (fun _ _ => True) s := by
  refine .andThen holds fun rows _ after => ?_
  rcases rows with err | rows
  · trivial
  · exact after rows rfl

theorem sweep_goes : Goes lib certain t (sweep cfg process) (fun _ _ => True) s := by
  have stale : Goes lib certain t (forList (list process (.stalePending cfg.pendingTTL) fun now s =>
      s.stalePending (now - cfg.pendingTTL) 100) (removeAll process)) (fun _ _ => True) s := by
    refine forList_goes (call_goes fun s₁ _ inv _ input ended => ⟨.refl inv t, fun l same => ?_,
      fun _ => ⟨fun _ same => (nomatch same), fun _ same => (nomatch same)⟩⟩)
    cases same
    apply removeAll_goes
    exact stalePending_abandoned inv ended
  have others : ∀ (rows : Int → State → List Artifact) (reason : Artifact → String) (s : State),
      Goes lib certain t (forList (list process .plain rows) (deleteAll process reason))
        (fun _ _ => True) s :=
    fun rows reason s => forList_goes (.mono (fun _ _ _ l _ => deleteAll_goes reason l) read_goes)
  exact .seq stale fun _ s => .seq (others _ _ s) fun _ s => others _ _ s

/-! ### Uploads -/

theorem Owned.abandoned (owned : Owned t process s id) (inv : Holds lib certain s) :
    Abandoned (s.giveUp id) id := by
  have good := inv.2 id
  refine ⟨⟨owned.issued good, if_pos rfl⟩, fun a found => ?_⟩
  rcases good.working _ owned.upload with ⟨absent, _⟩ | ⟨b, same, pending⟩
  · cases absent.symm.trans found
  · cases same.symm.trans found
    exact pending

/-- After a call an upload goes on, or what it leaves is abandoned. -/
def Left {α : Type} (id : String) (leaves : Bool) (Q : α → State → Prop) (answer : Except Err α)
    (s : State) : Prop := match answer with
  | .ok value => if leaves then Abandoned s id else Q value s
  | .error _ => Abandoned s id

theorem leaving_goes {leaves : Bool} (mine : s.uploads id = some ⟨t, process⟩)
    (holds : ∀ s₁, Owned t process s₁ id → s₁.row id = s.row id → Holds lib certain s₁ →
      ∀ input, (lifeLayer lib certain).Step t s₁ (tx input s₁).2 ∧ Owned t process (tx input s₁).2 id ∧
        ∀ value, (tx input s₁).1 = .ok value → Q value (tx input s₁).2) :
    Goes lib certain t (locally process .plain fun input s => leaving id leaves (call tx input s))
      (Left id leaves Q) s := by
  refine locally_goes fun s₁ rely inv running input _ => ?_
  obtain ⟨owned, row, _⟩ := Owned.later mine rely running
  obtain ⟨step, owned', goes⟩ := holds s₁ owned row inv input
  have left : ∀ {s₂}, (lifeLayer lib certain).Step t s₁ s₂ → Owned t process s₂ id →
      (lifeLayer lib certain).Step t s₁ (s₂.giveUp id) ∧ Abandoned (s₂.giveUp id) id :=
    fun step owned => ⟨step.trans (giveUp_step step.1 owned), owned.abandoned step.1⟩
  have failed : ∀ {s₂} (err : Err), (lifeLayer lib certain).Step t s₁ s₂ → Owned t process s₂ id →
      (lifeLayer lib certain).Step t s₁ (leaving id leaves (.error err, s₂) : Except Err α × State).2 ∧
        Left id leaves Q (.error err)
          (leaving id leaves (.error err, s₂) : Except Err α × State).2 := by
    intro s₂ err step owned
    have gone : (leaving id leaves (.error err, s₂) : Except Err α × State).2 = s₂.giveUp id := by
      simp [leaving, Except.isOk, Except.toBool]
    rw [gone]
    exact left step owned
  unfold call
  split
  · rcases answered : tx input s₁ with ⟨err | value, s₂⟩
    · rw [answered] at step owned'
      exact failed err step owned'
    · rw [answered] at step owned' goes
      cases leaves with
      | true => exact left step owned'
      | false => exact ⟨step, goes value rfl⟩
  · exact failed _ (.refl inv t) owned
  · exact failed _ step owned'

structure Begun (t process : Nat) (id : String) (a : Artifact) (s : State) : Prop where
  upload : s.uploads id = some ⟨t, process⟩
  row : s.row id = some a
  named : a.id = id
  key : a.storageKey = objectKey id
  pending : a.state = .pending

variable {in' : UploadInput}

theorem createPending_goes (mine : s.uploads id = some ⟨t, process⟩) :
    Goes lib certain t (createPending process id (objectKey id) in')
    (Left id false fun a s => Begun t process id a s) s := by
  refine leaving_goes mine fun s₁ owned _ inv input => ⟨create_step inv owned, ?_, fun a same => ?_⟩
  · unfold State.createPending
    split <;> exact ⟨owned.upload, owned.running⟩
  · unfold State.createPending at same ⊢
    split at same
    · cases same
    next artifacts inserted =>
    cases same
    exact ⟨owned.upload, (Table.find_insert inserted id).trans (if_pos rfl), rfl, rfl, rfl⟩

theorem statObject_goes (begun : Begun t process id a s) :
    Goes lib certain t (statObject process id (objectKey id))
    (Left id false fun _ s => Begun t process id a s) s := by
  refine leaving_goes begun.upload fun s₁ owned row inv input => ?_
  have same : Begun t process id a s₁ :=
    ⟨owned.upload, row.trans begun.row, begun.named, begun.key, begun.pending⟩
  split
  · exact ⟨.refl inv t, owned, fun _ failed => (nomatch failed)⟩
  · exact ⟨.refl inv t, owned, fun _ _ => same⟩

/-- **The bytes are written**, and a refused upload leaves them to its cleanup. -/
theorem put_goes {refused : Bool} (begun : Begun t process id a s) :
    Goes lib certain t (put process id (objectKey id) content refused)
    (Left id refused fun _ s => s.uploads id = some ⟨t, process⟩ ∧ s.object id = some content) s := by
  refine .andThen (statObject_goes begun) fun answer s₁ after => ?_
  rcases answer with err | _
  · exact after
  have begun : Begun t process id a s₁ := after
  refine leaving_goes begun.upload fun s₂ owned row inv input =>
    ⟨put_step inv owned (row.trans begun.row) begun.pending, ⟨owned.upload, owned.running⟩, fun _ _ =>
      ⟨owned.upload, ?_⟩⟩
  rw [object_putObject, if_pos rfl]

theorem finalize_cases (s : State) (id : String) (size : Nat) (digest : String) (scope : Option Scope)
    (input : Input) : (∃ err, s.finalize id size digest scope input = (.error err, s)) ∨ ∃ a,
    s.finalize id size digest scope input = (.ok a, s.makeAvailable id size digest) := by
  unfold State.finalize
  split
  · exact .inl ⟨_, rfl⟩
  split
  · exact .inl ⟨_, rfl⟩
  · exact .inr ⟨_, rfl⟩

/-- Nobody uploads the artifact, and where errors can be trusted it never became available. -/
def Failed (certain : Prop) (id : String) (s : State) : Prop :=
  Closed s id ∧ (certain → Abandoned s id)

theorem Failed.later (failed : Failed certain id s) (rely : Rely t s s') : Failed certain id s' :=
  ⟨failed.1.later rely, fun sure => (failed.2 sure).later rely⟩

theorem Failed.unneeded (failed : Failed certain id s) : Unneeded certain s id :=
  ⟨failed.1, fun sure => (failed.2 sure).unneeded.2 sure⟩

theorem finalize_goes {scope : Option Scope} (mine : s.uploads id = some ⟨t, process⟩)
    (stored : s.object id = some content) :
    Goes lib certain t (finalize process id content.length (lib.digest content) scope)
    (fun answer s => ∀ err, answer = .error err → Failed certain id s) s := by
  refine locally_goes fun s₁ rely inv running input trusted => ?_
  obtain ⟨owned, _, object⟩ := Owned.later mine rely running
  have nothing : (lifeLayer lib certain).Step t s₁ (s₁.giveUp id) := giveUp_step inv owned
  have abandoned := owned.abandoned inv
  have done := available_step inv owned (object.trans stored)
  have closed : Closed ((s₁.makeAvailable id content.length (lib.digest content)).giveUp id) id :=
    ⟨owned.issued (inv.2 id), if_pos rfl⟩
  unfold call
  split
  · dsimp only
    rcases finalize_cases s₁ id content.length (lib.digest content) scope input with
      ⟨err, same⟩ | ⟨a, same⟩ <;> rw [same]
    · exact ⟨nothing, fun _ _ => ⟨abandoned.closed, fun _ => abandoned⟩⟩
    · exact ⟨done, fun _ failed => (nomatch failed)⟩
  · exact ⟨nothing, fun _ _ => ⟨abandoned.closed, fun _ => abandoned⟩⟩
  · next text lost =>
    dsimp only
    rcases finalize_cases s₁ id content.length (lib.digest content) scope input with
      ⟨err, same⟩ | ⟨a, same⟩ <;> rw [same]
    · exact ⟨nothing, fun _ _ => ⟨abandoned.closed, fun _ => abandoned⟩⟩
    · exact ⟨done, fun _ _ => ⟨closed, fun sure => absurd (by rw [lost]; rfl) (trusted sure)⟩⟩

theorem uploadAs_goes {body : Bytes} (mine : s.uploads id = some ⟨t, process⟩) :
    Goes lib certain t (uploadAs lib cfg process in' body id) (fun _ _ => True) s := by
  refine .andThen (createPending_goes mine) fun answer s₁ after => ?_
  rcases answer with err | pending
  · trivial
  have begun : Begun t process id pending s₁ := after
  -- both cleanups
  have removed : ∀ {err : Err} {s₂}, Abandoned s₂ id → Goes lib certain t (do
      removePending process pending
      return .error err : Program (Except Err Artifact)) (fun _ _ => True) s₂ := by
    intro err s₂ abandoned
    refine .seq (removePending_goes (begun.named ▸ abandoned) ?_) fun _ _ => trivial
    rw [begun.named]
    exact begun.key
  refine .andThen (put_goes begun) fun answer s₂ after => ?_
  rcases answer with err | _
  · exact removed after
  cases refused : refusal lib cfg in' (body.take cfg.limit) with
  | some err =>
    simp only [refused, Left, isSome_some, if_true] at after
    exact removed after
  | none =>
    simp only [refused, Left, isSome_none] at after
    refine .andThen (finalize_goes after.1 after.2) fun answer s₃ after => ?_
    rcases answer with err | a
    · exact .andThen (deleteObject_goes (K := Failed certain id) (fun rely holds => holds.later rely)
        Failed.unneeded (after err rfl)) fun _ _ _ => trivial
    · trivial

theorem upload_goes {body : Option Bytes} :
    Goes lib certain t (upload lib cfg process t in' body) (fun _ _ => True) s := by
  unfold upload
  split
  · trivial
  · trivial
  refine .bind (Along.step fun s₁ _ _ _ inv input answer s₂ _ ran _ => ?_)
  split at ran
  · cases ran
  next fresh =>
  cases ran
  simp only [Bool.or_eq_true, decide_eq_true_eq, not_or] at fresh
  exact ⟨issue_step inv fresh.2, uploadAs_goes (if_pos rfl)⟩

/-! ### Whole runs -/

theorem lifeLayer_proved (lib : Library) (cfg : Config) (certain : Prop) :
    (service lib cfg).Proved Rules.free (lifeLayer lib certain) where
  sound := .free _
  start := by
    intro request t s s' p _ inv _ started _
    cases started
    cases request with
    | upload process in' body =>
      exact ⟨.refl inv t, .seq upload_goes fun _ _ => trivial⟩
    | delete process id reason =>
      exact ⟨.refl inv t, .seq (delete_goes reason) fun _ _ => trivial⟩
    | sweep process => exact ⟨.refl inv t, sweep_goes⟩
    | crash process => exact ⟨crash_step process inv, trivial⟩
  restart := fun _ inv _ _ => restart_good inv

variable {c : Iterabase.Conc.Config Label Input State}

/-- **No object is orphaned.** A stale row is swept only after its upload has ended. Then every object
has a row that is not deleted, and once a row is gone or deleted there is no object and no upload that
could write one. -/
theorem objects_have_rows (reached : (service lib cfg).Reaches (.onActions (Prompt False)) {} c) :
    (∀ key content, c.shared.objects key = some content → ∃ id a, key = objectKey id ∧
      c.shared.row id = some a ∧ a.state ≠ .deleted) ∧
    ∀ id ∈ c.shared.created, (∀ a, c.shared.row id = some a → a.state = .deleted) →
      c.shared.object id = none ∧ c.shared.uploads id = none := by
  obtain ⟨_, keyed, good⟩ := (lifeLayer_proved lib cfg False).invariant trivial init_good reached
  refine ⟨fun key content found => ?_, fun id created gone => ⟨?_, ?_⟩⟩
  · obtain ⟨id, rfl⟩ := keyed key content found
    obtain ⟨a, row, state⟩ := (good id).handle content found
    exact ⟨id, a, rfl, row, state⟩
  · by_contra present
    obtain ⟨content, present⟩ := ne_none_iff_exists'.mp present
    obtain ⟨a, row, state⟩ := (good id).handle content present
    exact state (gone a row)
  · by_contra working
    obtain ⟨u, working⟩ := ne_none_iff_exists'.mp working
    rcases (good id).working u working with ⟨_, new⟩ | ⟨a, row, pending⟩
    · exact new created
    · cases pending.symm.trans (gone a row)

/-- **Available artifacts have their bytes.** A stale row is swept only after its upload has ended, and
an error of `Finalize` means that it did not commit. -/
theorem available_have_bytes (reached : (service lib cfg).Reaches (.onActions (Prompt True)) {} c)
    {a : Artifact} (found : c.shared.row id = some a) (available : a.state = .available) :
    ∃ content, c.shared.objects a.storageKey = some content ∧ a.sizeBytes = some content.length ∧
      a.digest = some (lib.digest content) := by
  obtain ⟨_, _, good⟩ := (lifeLayer_proved lib cfg True).invariant trivial init_good reached
  rw [(good id).key a found]
  exact (good id).complete trivial a found available

/-! ### Runs -/

def plainLibrary : Library := ⟨fun _ => "00", fun _ => none⟩

def startUpload (process : Nat) : Conc.Move Input Request :=
  .start (.upload process ⟨"user_upload", "someone", "text/plain", none, "", none, none⟩ (some [1]))

def acts (thread count : Nat) (now : Int) : List (Conc.Move Input Request) :=
  List.replicate count (.run thread { now := now })

def takeID (thread : Nat) (id : String) : Conc.Move Input Request := .run thread { uuid := id }

/-- An upload is done; another one is cut off by a crash after its `Put`, and swept later. -/
theorem objects_have_rows_swept : ∃ c, (service plainLibrary {}).Reaches (.onActions (Prompt False))
    {} c ∧ c.shared.object "a" = some [1] ∧ (∃ a, c.shared.row "a" = some a ∧ a.state ≠ .deleted) ∧
      "b" ∈ c.shared.created ∧ c.shared.object "b" = none := by
  obtain ⟨c, reached, stored, created, gone⟩ := System.reaches_of_replay (service plainLibrary {})
    (.onActions (Prompt False)) {}
    ([startUpload 0, takeID 0 "a"] ++ acts 0 4 0 ++ [startUpload 1, takeID 1 "b"] ++ acts 1 3 0 ++
      [.start (.crash 1), .start (.sweep 0)] ++ acts 3 3 5000)
    (fun s => s.object "a" = some [1] ∧ "b" ∈ s.created ∧ s.row "b" = none) (by decide +kernel)
  obtain ⟨rows, objects⟩ := objects_have_rows reached
  obtain ⟨id, a, key, row, state⟩ := rows (objectKey "a") [1] stored
  cases objectKey_inj.mp key
  refine ⟨c, reached, stored, ⟨a, row, state⟩, created, (objects "b" created fun a found => ?_).1⟩
  cases gone.symm.trans found

/-- **An orphaned object.** An upload takes longer than `PendingTTL`; a sweep deletes the object that is
not there yet, and the row; then the bytes are written. -/
theorem object_without_row : ¬ ∀ c, (service plainLibrary {}).Reaches .free {} c →
    ∀ key content, c.shared.objects key = some content → ∃ id a, key = objectKey id ∧
      c.shared.row id = some a ∧ a.state ≠ .deleted := by
  intro rows
  obtain ⟨c, reached, stored, gone⟩ := System.reaches_of_replay (service plainLibrary {}) .free {}
    ([startUpload 0, takeID 0 "a"] ++ acts 0 1 0 ++ [.start (.sweep 1)] ++ acts 1 3 5000 ++ acts 0 2 5000)
    (fun s => s.object "a" = some [1] ∧ s.row "a" = none) (by decide +kernel)
  obtain ⟨id, a, key, row, _⟩ := rows c reached (objectKey "a") [1] stored
  cases objectKey_inj.mp key
  cases gone.symm.trans row

/-- An upload is done and read back. -/
theorem available_have_bytes_uploaded : ∃ c a, (service plainLibrary {}).Reaches
    (.onActions (Prompt True)) {} c ∧ c.shared.row "a" = some a ∧ ∃ content,
      c.shared.objects a.storageKey = some content ∧ a.sizeBytes = some content.length := by
  obtain ⟨c, reached, a, found, available⟩ := System.reaches_of_replay (service plainLibrary {})
    (.onActions (Prompt True)) {} ([startUpload 0, takeID 0 "a"] ++ acts 0 4 0)
    (fun s => ∃ a ∈ s.row "a", a.state = .available) (by decide +kernel)
  obtain ⟨content, stored, size, _⟩ := available_have_bytes reached found available
  exact ⟨c, a, reached, found, content, stored, size⟩

def HaveBytes (lib : Library) (s : State) : Prop :=
  ∀ id a, s.row id = some a → a.state = .available → ∃ content, s.objects a.storageKey = some content ∧
    a.sizeBytes = some content.length ∧ a.digest = some (lib.digest content)

/-- **An available artifact without bytes.** `Finalize` commits and its answer is lost, and the upload
deletes the object. -/
theorem available_without_bytes : ¬ ∀ c, (service plainLibrary {}).Reaches .free {} c →
    HaveBytes plainLibrary c.shared := by
  intro bytes
  obtain ⟨c, reached, a, found, available, gone⟩ := System.reaches_of_replay (service plainLibrary {})
    .free {} ([startUpload 0, takeID 0 "a"] ++ acts 0 3 0 ++ [.run 0 { fault := .after "timeout" }] ++
      acts 0 1 0)
    (fun s => ∃ a ∈ s.row "a", a.state = .available ∧ s.objects a.storageKey = none) (by decide +kernel)
  obtain ⟨content, stored, _⟩ := bytes c reached "a" a found available
  cases gone.symm.trans stored

end Iterabase.Artifact
