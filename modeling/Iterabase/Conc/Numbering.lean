/-
**Row numbers under concurrent transactions.**

Transactions append rows to one table, each under the next number of its group. A statement takes its
number from the rows its transaction sees: those committed when the statement starts, and its own. The
row is inserted only after that, and a unique index over group and number makes the insert wait while
another open transaction holds the number, and fail where the number is committed by then.

* `System.Appending.gapless` — **every interleaving keeps the numbers without a gap.**
-/

import Iterabase.Conc.Program
import Iterabase.Conc.Table

namespace Iterabase.Conc

open List Table Option

structure Numbered (κ ρ : Type) where
  group : κ
  seq : Nat
  row : ρ

/-- An open transaction, with what it has inserted, newest first. -/
structure Open (κ ρ Lock δ : Type) where
  id : Nat
  inserted : List (Numbered κ ρ) := []
  inserting : Option (Numbered κ ρ) := none
  locks : List Lock := []
  writes : δ → δ := fun data => data

/-- The rows and the other data that are committed, newest row first, and the open transactions. -/
structure Db (κ ρ Lock δ : Type) where
  rows : List (Numbered κ ρ) := []
  data : δ
  opened : Table (Open.id : Open κ ρ Lock δ → Nat) := .empty

variable {κ ρ Lock δ : Type} [DecidableEq κ]

def numbers (g : κ) (rows : List (Numbered κ ρ)) : List Nat :=
  (rows.filter fun r => r.group = g).map Numbered.seq

def count (g : κ) (rows : List (Numbered κ ρ)) : Nat := (numbers g rows).length

/-- `COALESCE(MAX(seq), 0) + 1`. -/
def nextNumber (g : κ) (rows : List (Numbered κ ρ)) : Nat := (numbers g rows).foldr max 0 + 1

theorem numbers_append (g : κ) (rows rows' : List (Numbered κ ρ)) :
    numbers g (rows ++ rows') = numbers g rows ++ numbers g rows' := by
  simp [numbers]

theorem numbers_cons (g : κ) (r : Numbered κ ρ) (rows : List (Numbered κ ρ)) :
    numbers g (r :: rows) = if r.group = g then r.seq :: numbers g rows else numbers g rows := by
  unfold numbers
  by_cases here : r.group = g
  · rw [if_pos here, filter_cons_of_pos (by simpa using here), map_cons]
  · rw [if_neg here, filter_cons_of_neg (by simpa using here)]

theorem count_append (g : κ) (rows rows' : List (Numbered κ ρ)) :
    count g (rows ++ rows') = count g rows + count g rows' := by
  unfold count
  rw [numbers_append, length_append]

theorem foldr_max_le {l : List Nat} {n : Nat} (all : ∀ x ∈ l, x ≤ n) : l.foldr max 0 ≤ n := by
  induction l with
  | nil => exact Nat.zero_le n
  | cons x l ih =>
    exact Nat.max_le.mpr ⟨all x (.head _), ih fun y member =>
      all y (.tail _ member)⟩

theorem foldr_max_range (n : Nat) : (List.range' 1 n).reverse.foldr max 0 = n := by
  cases n with
  | zero => rfl
  | succ n =>
    rw [range'_1_concat, reverse_append, reverse_singleton, singleton_append,
      foldr_cons]
    have below : (List.range' 1 n).reverse.foldr max 0 ≤ n := by
      refine foldr_max_le fun x member => ?_
      rw [mem_reverse, mem_range'_1] at member
      omega
    omega

theorem range'_reverse_append (n m : Nat) :
    (List.range' (n + 1) m).reverse ++ (List.range' 1 n).reverse = (List.range' 1 (n + m)).reverse := by
  rw [← reverse_append, Nat.add_comm n 1, range'_append_1]

namespace Db

def change (db : Db κ ρ Lock δ) (t : Nat) (f : Open κ ρ Lock δ → Open κ ρ Lock δ)
    (keeps : ∀ o, (f o).id = o.id) : Db κ ρ Lock δ :=
  { db with opened := db.opened.update (fun o => o.id = t) f keeps }

def close (db : Db κ ρ Lock δ) (t : Nat) : Db κ ρ Lock δ :=
  { db with
    opened := ⟨db.opened.rows.filter fun o => o.id ≠ t,
      db.opened.distinct.sublist (filter_sublist.map _)⟩ }

/-- A row is in the way of the unique index: committed, or inserted by another open transaction. -/
def Taken (db : Db κ ρ Lock δ) (t : Nat) (r : Numbered κ ρ) : Prop :=
  r.seq ∈ numbers r.group db.rows ∨
    ∃ o ∈ db.opened.rows, o.id ≠ t ∧ r.seq ∈ numbers r.group o.inserted

end Db

/-- What a statement of the transaction `t` may do. -/
inductive Step (t : Nat) (db : Db κ ρ Lock δ) : Db κ ρ Lock δ → Prop
  | same : Step t db db
  | begins {opened : Table Open.id} : db.opened.insert { id := t } = some opened →
      Step t db { db with opened := opened }
  | writes {f : Open κ ρ Lock δ → Open κ ρ Lock δ} {keeps : ∀ o, (f o).id = o.id} :
      (∀ o, (f o).inserted = o.inserted) → (∀ o, (f o).inserting = o.inserting) →
      Step t db (db.change t f keeps)
  | numbers (g : κ) (row : ρ) : Step t db (db.change t (fun o =>
      { o with inserting := some ⟨g, nextNumber g (o.inserted ++ db.rows), row⟩ }) fun _ => rfl)
  | inserts {o : Open κ ρ Lock δ} {r : Numbered κ ρ} : db.opened.find t = some o →
      o.inserting = some r → ¬ db.Taken t r → Step t db (db.change t (fun o =>
        { o with inserting := none, inserted := r :: o.inserted }) fun _ => rfl)
  | commits {o : Open κ ρ Lock δ} : db.opened.find t = some o →
      Step t db { db.close t with rows := o.inserted ++ db.rows, data := o.writes db.data }
  | rollsBack : Step t db (db.close t)

/-! ### The invariant -/

/-- The row an open transaction is about to insert has at most the number after those it sees. Once it
has rows of the group, exactly that one: nobody else can add to the group then. -/
def Db.Fits (db : Db κ ρ Lock δ) (o : Open κ ρ Lock δ) : Prop :=
  ∀ r, o.inserting = some r → 0 < r.seq ∧
    r.seq ≤ count r.group db.rows + 1 + count r.group o.inserted ∧
    (0 < count r.group o.inserted → r.seq = count r.group db.rows + 1 + count r.group o.inserted)

/-- No gap in the numbers of any group. -/
structure Gapless (db : Db κ ρ Lock δ) : Prop where
  committed : ∀ g, numbers g db.rows = (List.range' 1 (count g db.rows)).reverse
  inserted : ∀ o ∈ db.opened.rows, ∀ g,
    numbers g o.inserted = (List.range' (count g db.rows + 1) (count g o.inserted)).reverse
  alone : ∀ o ∈ db.opened.rows, ∀ o' ∈ db.opened.rows, ∀ g, 0 < count g o.inserted →
    0 < count g o'.inserted → o.id = o'.id
  fits : ∀ o ∈ db.opened.rows, db.Fits o

section Steps

variable {t : Nat} {db : Db κ ρ Lock δ}

variable {f : Open κ ρ Lock δ → Open κ ρ Lock δ}

omit [DecidableEq κ] in
theorem mem_change {keeps : ∀ o, (f o).id = o.id}
    {o' : Open κ ρ Lock δ} (member : o' ∈ (db.change t f keeps).opened.rows) :
    ∃ o ∈ db.opened.rows, (o.id = t ∧ o' = f o) ∨ (o.id ≠ t ∧ o' = o) := by
  obtain ⟨o, there, rfl⟩ := mem_map.mp member
  refine ⟨o, there, ?_⟩
  by_cases here : o.id = t
  · exact .inl ⟨here, by simp [here]⟩
  · exact .inr ⟨here, by simp [here]⟩

variable {o : Open κ ρ Lock δ}

omit [DecidableEq κ] in
theorem mem_close (member : o ∈ (db.close t).opened.rows) : o ∈ db.opened.rows ∧ o.id ≠ t := by
  obtain ⟨there, other⟩ := mem_filter.mp member
  exact ⟨there, by simpa using other⟩

variable {db' : Db κ ρ Lock δ}

section Gapless

variable (gapless : Gapless db)

include gapless

theorem Gapless.fewer (rows : db'.rows = db.rows)
    (fewer : ∀ o ∈ db'.opened.rows, o ∈ db.opened.rows) : Gapless db' where
  committed := by
    rw [rows]
    exact gapless.committed
  inserted o member := by
    rw [rows]
    exact gapless.inserted o (fewer o member)
  alone o member o' member' := gapless.alone o (fewer o member) o' (fewer o' member')
  fits o member := by
    unfold Db.Fits
    rw [rows]
    exact gapless.fits o (fewer o member)

theorem Gapless.joined (member : o ∈ db.opened.rows) (g : κ) :
    numbers g (o.inserted ++ db.rows) =
    (List.range' 1 (count g db.rows + count g o.inserted)).reverse := by
  rw [numbers_append, gapless.inserted o member g, gapless.committed g, range'_reverse_append]

theorem Gapless.nextNumber (member : o ∈ db.opened.rows) (g : κ) :
    nextNumber g (o.inserted ++ db.rows) = count g db.rows + 1 + count g o.inserted := by
  unfold Conc.nextNumber
  rw [gapless.joined member, foldr_max_range]
  omega

theorem Gapless.begins {opened : Table Open.id}
    (inserted : db.opened.insert { id := t } = some opened) :
    Gapless { db with opened := opened } := by
  have cases_of : ∀ o ∈ opened.rows, o = { id := t } ∨ o ∈ db.opened.rows := by
    intro o member
    rw [insert_rows inserted] at member
    exact mem_cons.mp member
  refine ⟨gapless.committed, fun o member g => ?_, fun o member o' member' g has has' => ?_,
    fun o member => ?_⟩
  · rcases cases_of o member with rfl | old
    · rfl
    · exact gapless.inserted o old g
  · rcases cases_of o member with rfl | old
    · exact absurd has (Nat.lt_irrefl 0)
    · rcases cases_of o' member' with rfl | old'
      · exact absurd has' (Nat.lt_irrefl 0)
      · exact gapless.alone o old o' old' g has has'
  · rcases cases_of o member with rfl | old
    · exact fun r picked => nomatch picked
    · exact gapless.fits o old

theorem Gapless.change {keeps : ∀ o, (f o).id = o.id}
    (inserted : ∀ o, (f o).inserted = o.inserted) (fits : ∀ o ∈ db.opened.rows, db.Fits (f o)) :
    Gapless (db.change t f keeps) := by
  have cases_of : ∀ o' ∈ (db.change t f keeps).opened.rows, db.Fits o' ∧
      ∃ o ∈ db.opened.rows, o'.id = o.id ∧ o'.inserted = o.inserted := by
    intro o' member
    obtain ⟨o, old, ⟨_, rfl⟩ | ⟨_, rfl⟩⟩ := mem_change member
    · exact ⟨fits o old, o, old, keeps o, inserted o⟩
    · exact ⟨gapless.fits o' old, o', old, rfl, rfl⟩
  refine ⟨gapless.committed, fun o' member g => ?_, fun o₁ member₁ o₂ member₂ g has₁ has₂ => ?_,
    fun o' member => (cases_of o' member).1⟩
  · obtain ⟨_, o, old, _, same⟩ := cases_of o' member
    rw [same]
    exact gapless.inserted o old g
  · obtain ⟨_, p₁, old₁, id₁, same₁⟩ := cases_of o₁ member₁
    obtain ⟨_, p₂, old₂, id₂, same₂⟩ := cases_of o₂ member₂
    rw [id₁, id₂]
    rw [same₁] at has₁
    rw [same₂] at has₂
    exact gapless.alone p₁ old₁ p₂ old₂ g has₁ has₂

theorem Gapless.numbers (g : κ) (row : ρ) :
    Gapless (db.change t (fun o => { o with
      inserting := some ⟨g, Conc.nextNumber g (o.inserted ++ db.rows), row⟩ }) fun _ => rfl) := by
  refine gapless.change (fun _ => rfl) fun o old r picked => ?_
  cases picked
  show 0 < Conc.nextNumber g (o.inserted ++ db.rows) ∧ _
  rw [gapless.nextNumber old g]
  exact ⟨by omega, Nat.le_refl _, fun _ => rfl⟩

end Gapless

variable {r : Numbered κ ρ}

/-- A row that is not in the way of the unique index follows all that its transaction sees. -/
theorem Gapless.seq_eq (gapless : Gapless db)
    (member : o ∈ db.opened.rows) (picked : o.inserting = some r) (free : ¬ db.Taken t r) :
    r.seq = count r.group db.rows + 1 + count r.group o.inserted := by
  obtain ⟨positive, below, exact_of⟩ := gapless.fits o member r picked
  rcases Nat.eq_zero_or_pos (count r.group o.inserted) with none | some
  · have uncommitted : r.seq ∉ Conc.numbers r.group db.rows := fun there => free (.inl there)
    rw [gapless.committed, mem_reverse, mem_range'_1] at uncommitted
    omega
  · exact exact_of some

theorem Gapless.empty_of_free (gapless : Gapless db) {o' : Open κ ρ Lock δ}
    (member : o ∈ db.opened.rows) (here : o.id = t) (picked : o.inserting = some r)
    (free : ¬ db.Taken t r) (member' : o' ∈ db.opened.rows) (other : o'.id ≠ t) :
    count r.group o'.inserted = 0 := by
  by_contra some'
  have has' : 0 < count r.group o'.inserted := Nat.pos_of_ne_zero some'
  rcases Nat.eq_zero_or_pos (count r.group o.inserted) with none | some
  · -- the other transaction holds the number
    refine free (.inr ⟨o', member', other, ?_⟩)
    rw [gapless.seq_eq member picked free, gapless.inserted o' member', mem_reverse,
      mem_range'_1]
    omega
  · exact other ((gapless.alone o' member' o member _ has' some).trans here)

theorem Gapless.inserts (gapless : Gapless db) (found : db.opened.find t = some o)
    (picked : o.inserting = some r) (free : ¬ db.Taken t r) : Gapless
    (db.change t (fun o => { o with inserting := none, inserted := r :: o.inserted }) fun _ => rfl) := by
  have member := find_mem found
  have here := find_key found
  have seq := gapless.seq_eq member picked free
  have only : ∀ p ∈ db.opened.rows, p.id = t → p = o := by
    intro p old same
    have again := find_of_mem old
    rw [same, found] at again
    exact (some.inj again).symm
  refine ⟨gapless.committed, fun p' changed g => ?_, fun p₁ changed₁ p₂ changed₂ g has₁ has₂ => ?_,
    fun p' changed => ?_⟩
  · obtain ⟨p, old, ⟨same, rfl⟩ | ⟨_, rfl⟩⟩ := mem_change changed
    · rw [only p old same]
      have before := gapless.inserted o member g
      show Conc.numbers g (r :: o.inserted) = (List.range' _ (Conc.numbers g (r :: o.inserted)).length).reverse
      rw [numbers_cons]
      split
      · rename_i group
        rw [length_cons, range'_1_concat, reverse_append, reverse_singleton,
          singleton_append, ← group, seq]
        rw [← group] at before
        exact congrArg₂ List.cons rfl before
      · exact before
    · exact gapless.inserted p' old g
  · obtain ⟨p, old, at₁⟩ := mem_change changed₁
    obtain ⟨q, old', at₂⟩ := mem_change changed₂
    -- a transaction other than this one has rows of `g`, so `g` is not the group of `r`
    have apart : ∀ p ∈ db.opened.rows, ∀ q ∈ db.opened.rows, p.id = t → q.id ≠ t →
        0 < count g (r :: p.inserted) → 0 < count g q.inserted → False := by
      intro p old q old' same other has has'
      have empty := gapless.empty_of_free member here picked free old' other
      have group : r.group ≠ g := by
        rintro rfl
        omega
      unfold count at has
      rw [numbers_cons, if_neg group] at has
      exact other ((gapless.alone q old' p old g has' has).trans same)
    rcases at₁ with ⟨same₁, rfl⟩ | ⟨other₁, rfl⟩ <;> rcases at₂ with ⟨same₂, rfl⟩ | ⟨other₂, rfl⟩
    · exact same₁.trans same₂.symm
    · exact (apart p old p₂ old' same₁ other₂ has₁ has₂).elim
    · exact (apart q old' p₁ old same₂ other₁ has₂ has₁).elim
    · exact gapless.alone p₁ old p₂ old' g has₁ has₂
  · obtain ⟨p, old, ⟨_, rfl⟩ | ⟨_, rfl⟩⟩ := mem_change changed
    · exact fun r picked => nomatch picked
    · exact gapless.fits p' old

theorem Gapless.commits (gapless : Gapless db) (found : db.opened.find t = some o) (data : δ) :
    Gapless { db.close t with rows := o.inserted ++ db.rows, data := data } := by
  have member := find_mem found
  have here := find_key found
  -- a transaction that stays open has no rows of a group the closing one has rows of
  have apart : ∀ p ∈ (db.close t).opened.rows, ∀ g, 0 < count g p.inserted →
      count g (o.inserted ++ db.rows) = count g db.rows := by
    intro p stays g has
    obtain ⟨old, other⟩ := mem_close stays
    rw [count_append]
    by_contra some
    have has' : 0 < count g o.inserted := by omega
    exact other ((gapless.alone p old o member g has has').trans here)
  refine ⟨fun g => ?_, fun p stays g => ?_, fun p stays q stays' => ?_, fun p stays r picked => ?_⟩
  · rw [gapless.joined member, count_append, Nat.add_comm]
  · rcases Nat.eq_zero_or_pos (count g p.inserted) with none | some
    · rw [none]
      exact eq_nil_of_length_eq_zero none
    · rw [apart p stays g some]
      exact gapless.inserted p (mem_close stays).1 g
  · exact gapless.alone p (mem_close stays).1 q (mem_close stays').1
  · obtain ⟨positive, below, exact_of⟩ := gapless.fits p (mem_close stays).1 r picked
    refine ⟨positive, ?_, fun has => ?_⟩
    · have grown := count_append r.group o.inserted db.rows
      show r.seq ≤ count r.group (o.inserted ++ db.rows) + 1 + _
      omega
    · rw [apart p stays _ has]
      exact exact_of has

/-- **A statement leaves no gap.** -/
theorem Step.gapless (step : Step t db db') (gapless : Gapless db) : Gapless db' := by
  cases step with
  | same => exact gapless
  | begins inserted => exact gapless.begins inserted
  | writes inserted inserting =>
    refine gapless.change inserted fun o old => ?_
    unfold Db.Fits
    rw [inserted, inserting]
    exact gapless.fits o old
  | numbers g row => exact gapless.numbers g row
  | inserts found picked free => exact gapless.inserts found picked free
  | commits found => exact gapless.commits found _
  | rollsBack => exact gapless.fewer rfl fun o stays => (mem_close stays).1

/-- What a statement does to what is committed: nothing, or what its own transaction did. -/
theorem Step.effects (step : Step t db db') : (db'.rows = db.rows ∧ db'.data = db.data) ∨ ∃ o,
    db.opened.find t = some o ∧ db'.rows = o.inserted ++ db.rows ∧ db'.data = o.writes db.data := by
  cases step with
  | commits found => exact .inr ⟨_, found, rfl, rfl⟩
  | same | begins | writes | numbers | inserts | rollsBack => exact .inl ⟨rfl, rfl⟩

end Steps

/-! ### Sessions -/

/-- The statements of one transaction. The environment makes a statement fail; an answer `none` means
that the transaction is rolled back, and the program ends there. -/
abbrev Session (κ ρ Lock δ : Type) := OptionT (Prog Unit Bool (Db κ ρ Lock δ))

namespace Session

variable {α β : Type}

/-- A statement of the open transaction `t`: blocked, rolled back, or done. -/
def statement (t : Nat) (body : Open κ ρ Lock δ → Db κ ρ Lock δ → Option (Option α × Db κ ρ Lock δ)) :
    Session κ ρ Lock δ α :=
  OptionT.mk (.atomic () fun fails db =>
    match db.opened.find t with
    | none => some (none, db)
    | some o => if fails then some (none, db.close t) else body o db)

def start (t : Nat) : Session κ ρ Lock δ Unit :=
  OptionT.mk (.atomic () fun fails db =>
    if fails then some (none, db)
    else (db.opened.insert { id := t }).map fun opened => (some (), { db with opened := opened }))

def lockedElsewhere [DecidableEq Lock] (db : Db κ ρ Lock δ) (t : Nat) (lock : Lock) : Bool :=
  db.opened.rows.any fun o => o.id ≠ t ∧ lock ∈ o.locks

/-- Read what the transaction sees, and lock it as soon as it is free. Where nothing is found the
transaction is rolled back. -/
def need [DecidableEq Lock] (t : Nat) (read : δ → Option α) (locks : α → List Lock) :
    Session κ ρ Lock δ α :=
  statement t fun o db =>
    match read (o.writes db.data) with
    | none => some (none, db.close t)
    | some answer =>
        if (locks answer).any (lockedElsewhere db t) then none
        else some (some answer, db.change t (fun o => { o with locks := locks answer ++ o.locks })
          fun _ => rfl)

/-- Change the rows an `UPDATE` matches, as soon as their locks are free. -/
def update [DecidableEq Lock] (t : Nat) (matched : δ → Bool) (locks : List Lock) (f : δ → δ) :
    Session κ ρ Lock δ Unit :=
  statement t fun o db =>
    if !matched (o.writes db.data) then some (some (), db)
    else if locks.any (lockedElsewhere db t) then none
    else some (some (), db.change t (fun o =>
      { o with locks := locks ++ o.locks, writes := fun data => f (o.writes data) }) fun _ => rfl)

/-- The `INSERT` of a row under the next number of its group. Between the read of the number and the
insert others may commit. -/
def append (t : Nat) (g : κ) (row : ρ) : Session κ ρ Lock δ Unit := do
  statement t fun _ db => some (some (), db.change t (fun o =>
    { o with inserting := some ⟨g, nextNumber g (o.inserted ++ db.rows), row⟩ }) fun _ => rfl)
  statement t fun o db =>
    match o.inserting with
    | none => some (none, db.close t)
    | some r =>
        if db.opened.rows.any fun o' => o'.id ≠ t ∧ r.seq ∈ numbers r.group o'.inserted then none
        else if r.seq ∈ numbers r.group db.rows then some (none, db.close t)
        else some (some (), db.change t (fun o =>
          { o with inserting := none, inserted := r :: o.inserted }) fun _ => rfl)

def commit (t : Nat) : Session κ ρ Lock δ Unit :=
  statement t fun o db =>
    some (some (), { db.close t with rows := o.inserted ++ db.rows, data := o.writes db.data })

def rollback (t : Nat) : Session κ ρ Lock δ Unit :=
  statement t fun _ db => some (none, db.close t)

/-- Every action of the program is a statement of the transaction `t`. -/
def Of (t : Nat) (p : Session κ ρ Lock δ α) : Prop :=
  p.run.All fun _ _ run => ∀ {input db answer db'}, run input db = some (answer, db') → Step t db db'

variable {t : Nat}

namespace Of

theorem pure (value : α) : Of t (Pure.pure value : Session κ ρ Lock δ α) := trivial

theorem bind {p : Session κ ρ Lock δ α} {f : α → Session κ ρ Lock δ β} (first : Of t p)
    (rest : ∀ value, Of t (f value)) : Of t (p >>= f) := by
  refine Prog.All.bind first fun value => ?_
  cases value with
  | none => trivial
  | some value => exact rest value

theorem statement {body : Open κ ρ Lock δ → Db κ ρ Lock δ → Option (Option α × Db κ ρ Lock δ)}
    (steps : ∀ {o db answer db'}, db.opened.find t = some o → body o db = some (answer, db') →
      Step t db db') : Of t (Session.statement t body) := by
  refine Prog.All.atomic fun {fails db answer db'} ran => ?_
  cases found : db.opened.find t with
  | none =>
    simp only [found] at ran
    cases ran
    exact .same
  | some o =>
    simp only [found] at ran
    split at ran
    · cases ran
      exact .rollsBack
    · exact steps found ran

theorem start : Of t (Session.start t : Session κ ρ Lock δ Unit) := by
  refine Prog.All.atomic fun {fails db answer db'} ran => ?_
  split at ran
  · cases ran
    exact .same
  obtain ⟨opened, inserted, made⟩ := map_eq_some_iff.mp ran
  cases made
  exact .begins inserted

theorem need [DecidableEq Lock] {read : δ → Option α} {locks : α → List Lock} :
    Of t (Session.need t read locks : Session κ ρ Lock δ α) := by
  refine statement fun {o db answer db'} _ ran => ?_
  split at ran
  · cases ran
    exact .rollsBack
  split at ran
  · cases ran
  · cases ran
    exact .writes (fun _ => rfl) fun _ => rfl

theorem update [DecidableEq Lock] {matched : δ → Bool} {locks : List Lock} {f : δ → δ} :
    Of t (Session.update t matched locks f : Session κ ρ Lock δ Unit) := by
  refine statement fun {o db answer db'} _ ran => ?_
  split at ran
  · cases ran
    exact .same
  split at ran
  · cases ran
  · cases ran
    exact .writes (fun _ => rfl) fun _ => rfl

theorem append {g : κ} {row : ρ} : Of t (Session.append t g row : Session κ ρ Lock δ Unit) := by
  refine bind (statement fun {o db answer db'} _ ran => ?_) fun _ =>
    statement fun {o db answer db'} found ran => ?_
  · cases ran
    exact .numbers g row
  · split at ran
    · cases ran
      exact .rollsBack
    · rename_i r picked
      split at ran
      · cases ran
      rename_i unheld
      split at ran
      · cases ran
        exact .rollsBack
      rename_i uncommitted
      cases ran
      refine .inserts found picked ?_
      rintro (committed | ⟨o', member, other, held⟩)
      · exact uncommitted committed
      · exact unheld (any_eq_true.mpr ⟨o', member, decide_eq_true ⟨other, held⟩⟩)

theorem commit : Of t (Session.commit t : Session κ ρ Lock δ Unit) := by
  refine statement fun {o db answer db'} found ran => ?_
  cases ran
  exact .commits found

theorem rollback : Of t (Session.rollback t : Session κ ρ Lock δ Unit) := by
  refine statement fun {o db answer db'} _ ran => ?_
  cases ran
  exact .rollsBack

end Of

end Session

/-! ### Systems of transactions -/

variable {Request : Type}

/-- A system whose threads run one transaction each. A restart rolls back what is open. -/
structure System.Appending (sys : System Unit Bool Request (Db κ ρ Lock δ)) : Prop where
  start : ∀ {request t db db' p}, sys.start request t db = some (db', p) → db' = db ∧
    p.All fun _ _ run => ∀ {input db answer db'}, run input db = some (answer, db') → Step t db db'
  restart : ∀ db, sys.restart db = { db with opened := .empty }

namespace System.Appending

variable {sys : System Unit Bool Request (Db κ ρ Lock δ)}
  {guard : Guard Unit Bool Request (Db κ ρ Lock δ)} {c c' : Config Unit Bool (Db κ ρ Lock δ)} {data : δ}
  {m : Move Bool Request}

section Runs

variable (appending : sys.Appending) (reached : sys.Reaches guard { data := data } c)

include appending reached

/-- A thread's action is a statement of its transaction; no other move changes anything but the open
transactions, and a restart takes those away. -/
theorem moves (moved : sys.next c m = some c') :
    (∃ t, (∃ input, m = .run t input) ∧ Step t c.shared c'.shared)
    ∨ c'.shared = c.shared ∨ c'.shared = { c.shared with opened := .empty } := by
  cases m with
  | run t input =>
    left
    refine ⟨t, ⟨input, rfl⟩, ?_⟩
    have statements := reached.threads_all (fun started => (appending.start started).2)
    dsimp only [System.next] at moved
    split at moved
    · rename_i label run next running
      obtain ⟨⟨answer, db'⟩, ran, rfl⟩ := map_eq_some_iff.mp moved
      exact (statements t _ running).1 ran
    · cases moved
  | start request =>
    obtain ⟨⟨db', p⟩, started, rfl⟩ := map_eq_some_iff.mp moved
    exact .inr (.inl (appending.start started).1)
  | restart =>
    cases moved
    exact .inr (.inr (appending.restart _))

/-- **Every interleaving keeps the numbers without a gap.** -/
theorem gapless : Gapless c.shared := by
  induction reached with
  | start =>
    exact ⟨fun _ => rfl, fun _ none => absurd none not_mem_nil,
      fun _ none => absurd none not_mem_nil, fun _ none => absurd none not_mem_nil⟩
  | move reached _ moved ih =>
    rcases appending.moves reached moved with ⟨t, _, step⟩ | same | restarted
    · exact step.gapless ih
    · rw [same]
      exact ih
    · rw [restarted]
      exact ih.fewer rfl fun _ none => absurd none not_mem_nil

/-- **Only a commit changes what is committed**, by what its own transaction did. -/
theorem effects (moved : sys.next c m = some c') :
    (c'.shared.rows = c.shared.rows ∧ c'.shared.data = c.shared.data) ∨ ∃ t input o,
    m = .run t input ∧ c.shared.opened.find t = some o ∧
    c'.shared.rows = o.inserted ++ c.shared.rows ∧ c'.shared.data = o.writes c.shared.data := by
  rcases appending.moves reached moved with ⟨t, ⟨input, taken⟩, step⟩ | same | restarted
  · rcases step.effects with unchanged | ⟨o, found, rows, changed⟩
    · exact .inl unchanged
    · exact .inr ⟨t, input, o, taken, found, rows, changed⟩
  · rw [same]
    exact .inl ⟨rfl, rfl⟩
  · rw [restarted]
    exact .inl ⟨rfl, rfl⟩

end Runs

end System.Appending

end Iterabase.Conc
