/-
**Transactions.**

A transaction reads and writes a state and either returns, with the state it leaves, or fails. A
failed transaction is rolled back, so a program sees it as one atomic action.

* `bind_ok`, `need_ok`, … — what a transaction that returned has done.
* `need_then`, `write_then`, … — the same for a statement and what follows it.
-/

import Mathlib

namespace Iterabase.Conc

def Tx (ε σ α : Type) : Type := σ → Except ε (α × σ)

namespace Tx

variable {ε σ α β : Type}

def bind (x : Tx ε σ α) (f : α → Tx ε σ β) : Tx ε σ β := fun s =>
  match x s with
  | .error err => .error err
  | .ok (a, s') => f a s'

instance : Monad (Tx ε σ) where
  pure a := fun s => .ok (a, s)
  bind := bind

def fail (err : ε) : Tx ε σ α := fun _ => .error err

def read (f : σ → α) : Tx ε σ α := fun s => .ok (f s, s)

def write (f : σ → σ) : Tx ε σ Unit := fun s => .ok ((), f s)

/-- A write that a constraint may refuse. -/
def attempt (f : σ → Except ε σ) : Tx ε σ Unit := fun s => (f s).map fun s' => ((), s')

def need (f : σ → Option α) (err : ε) : Tx ε σ α := fun s =>
  match f s with
  | none => .error err
  | some a => .ok (a, s)

/-- A computation on the state that may fail. -/
def check (f : σ → Except ε α) : Tx ε σ α := fun s => (f s).map fun a => (a, s)

def refuse (p : Prop) [Decidable p] (err : ε) : Tx ε σ Unit := if p then fail err else pure ()

/-! ### What was done -/

variable {s s' : σ} {a : α}

@[simp] theorem pure_ok {b : α} : (pure a : Tx ε σ α) s = .ok (b, s') ↔ a = b ∧ s = s' := by
  constructor
  · intro same
    cases same
    exact ⟨rfl, rfl⟩
  · rintro ⟨rfl, rfl⟩
    rfl

variable {x : Tx ε σ α}

@[simp] theorem bind_ok {f : α → Tx ε σ β} {b : β} :
    (x >>= f) s = .ok (b, s') ↔ ∃ a s₁, x s = .ok (a, s₁) ∧ f a s₁ = .ok (b, s') := by
  change Tx.bind x f s = _ ↔ _
  unfold Tx.bind
  rcases x s with err | ⟨a, s₁⟩
  · simp
  constructor
  · exact fun rest => ⟨a, s₁, rfl, rest⟩
  · rintro ⟨_, _, same, rest⟩
    cases same
    exact rest

variable {err : ε}

@[simp] theorem fail_ok : (fail err : Tx ε σ α) s = .ok (a, s') ↔ False := by
  simp [fail]

variable {u : Unit}

@[simp] theorem write_ok {f : σ → σ} : (write f : Tx ε σ Unit) s = .ok (u, s') ↔ f s = s' := by
  simp [write]

@[simp] theorem attempt_ok {f : σ → Except ε σ} : attempt f s = .ok (u, s') ↔ f s = .ok s' := by
  unfold attempt
  cases f s with
  | error | ok => simp [Except.map]

@[simp] theorem need_ok {f : σ → Option α} : need f err s = .ok (a, s') ↔ f s = some a ∧ s = s' := by
  unfold need
  cases f s with
  | none => simp
  | some a => simp

@[simp] theorem check_ok {f : σ → Except ε α} : check f s = .ok (a, s') ↔ f s = .ok a ∧ s = s' := by
  unfold check
  cases f s with
  | error | ok => simp [Except.map]

variable {p : Prop}

@[simp] theorem refuse_ok [Decidable p] :
    (refuse p err : Tx ε σ Unit) s = .ok (u, s') ↔ ¬ p ∧ s = s' := by
  unfold refuse
  by_cases holds : p
  · simp [holds]
  · simp [holds]

/-! ### Statement by statement -/

variable {f : α → Tx ε σ β} {b : β}

theorem need_then {g : σ → Option α} :
    (need g err >>= f) s = .ok (b, s') ↔ ∃ a, g s = some a ∧ f a s = .ok (b, s') := by
  rw [bind_ok]
  constructor
  · rintro ⟨a, s₁, got, rest⟩
    obtain ⟨found, rfl⟩ := need_ok.mp got
    exact ⟨a, found, rest⟩
  · rintro ⟨a, found, rest⟩
    exact ⟨a, s, need_ok.mpr ⟨found, rfl⟩, rest⟩

theorem read_then {g : σ → α} : (read g >>= f) s = .ok (b, s') ↔ f (g s) s = .ok (b, s') := Iff.rfl

theorem write_then {g : σ → σ} {f : Unit → Tx ε σ β} :
    (write g >>= f) s = .ok (b, s') ↔ f () (g s) = .ok (b, s') := Iff.rfl

variable {g : σ → Except ε σ}

theorem attempt_then {f : Unit → Tx ε σ β} :
    (attempt g >>= f) s = .ok (b, s') ↔ ∃ s₁, g s = .ok s₁ ∧ f () s₁ = .ok (b, s') := by
  rw [bind_ok]
  constructor
  · rintro ⟨_, s₁, done, rest⟩
    exact ⟨s₁, attempt_ok.mp done, rest⟩
  · rintro ⟨s₁, done, rest⟩
    exact ⟨(), s₁, attempt_ok.mpr done, rest⟩

theorem check_then {g : σ → Except ε α} :
    (check g >>= f) s = .ok (b, s') ↔ ∃ a, g s = .ok a ∧ f a s = .ok (b, s') := by
  rw [bind_ok]
  constructor
  · rintro ⟨a, s₁, got, rest⟩
    obtain ⟨passed, rfl⟩ := check_ok.mp got
    exact ⟨a, passed, rest⟩
  · rintro ⟨a, passed, rest⟩
    exact ⟨a, s, check_ok.mpr ⟨passed, rfl⟩, rest⟩

theorem refuse_then [Decidable p] {f : Unit → Tx ε σ β} :
    (refuse p err >>= f) s = .ok (b, s') ↔ ¬ p ∧ f () s = .ok (b, s') := by
  rw [bind_ok]
  constructor
  · rintro ⟨_, s₁, passed, rest⟩
    obtain ⟨holds, rfl⟩ := refuse_ok.mp passed
    exact ⟨holds, rest⟩
  · rintro ⟨holds, rest⟩
    exact ⟨(), s, refuse_ok.mpr ⟨holds, rfl⟩, rest⟩

/-! ### How a transaction fails -/

/-- A transaction does not fail in this way. -/
def Avoids (bad : ε → Prop) (tx : Tx ε σ α) (s : σ) : Prop := ∀ err, tx s = .error err → ¬ bad err

namespace Avoids

variable {bad : ε → Prop}

theorem bind (first : Avoids bad x s)
    (rest : ∀ a s₁, x s = .ok (a, s₁) → Avoids bad (f a) s₁) : Avoids bad (x >>= f) s := by
  intro err failed
  change Tx.bind x f s = _ at failed
  unfold Tx.bind at failed
  split at failed
  · rename_i failed'
    cases failed
    exact first err failed'
  · rename_i a s₁ went
    exact rest a s₁ went err failed

theorem pure (a : α) : Avoids bad (Pure.pure a : Tx ε σ α) s := by
  intro err failed
  cases failed

theorem need {g : σ → Option α} (missing : g s = none → ¬ bad err) :
    Avoids bad (Tx.need g err) s := by
  intro err' failed
  unfold Tx.need at failed
  split at failed
  · rename_i none
    cases failed
    exact missing none
  · cases failed

theorem refuse [Decidable p] (refused : p → ¬ bad err) : Avoids bad (Tx.refuse p err) s := by
  intro err' failed
  unfold Tx.refuse at failed
  split at failed
  · rename_i holds
    cases failed
    exact refused holds
  · cases failed

theorem attempt (refused : ∀ err, g s = .error err → ¬ bad err) : Avoids bad (Tx.attempt g) s := by
  intro err failed
  unfold Tx.attempt at failed
  cases went : g s with
  | error err' =>
    rw [went] at failed
    cases failed
    exact refused err went
  | ok s₁ =>
    rw [went] at failed
    cases failed

theorem check {g : σ → Except ε α} (failed : ∀ err, g s = .error err → ¬ bad err) :
    Avoids bad (Tx.check g) s := by
  intro err went
  unfold Tx.check at went
  cases result : g s with
  | error err' =>
    rw [result] at went
    cases went
    exact failed err result
  | ok a =>
    rw [result] at went
    cases went

theorem need_then {g : σ → Option α} (missing : g s = none → ¬ bad err)
    (rest : ∀ a, g s = some a → Avoids bad (f a) s) : Avoids bad (Tx.need g err >>= f) s := by
  refine bind (need missing) fun a s₁ got => ?_
  obtain ⟨found, rfl⟩ := need_ok.mp got
  exact rest a found

theorem refuse_then [Decidable p] {f : Unit → Tx ε σ β} (refused : p → ¬ bad err)
    (rest : ¬ p → Avoids bad (f ()) s) : Avoids bad (Tx.refuse p err >>= f) s := by
  refine bind (refuse refused) fun _ s₁ passed => ?_
  obtain ⟨holds, rfl⟩ := refuse_ok.mp passed
  exact rest holds

theorem check_then {g : σ → Except ε α} (failed : ∀ err, g s = .error err → ¬ bad err)
    (rest : ∀ a, g s = .ok a → Avoids bad (f a) s) : Avoids bad (Tx.check g >>= f) s := by
  refine bind (check failed) fun a s₁ got => ?_
  obtain ⟨passed, rfl⟩ := check_ok.mp got
  exact rest a passed

theorem attempt_then {f : Unit → Tx ε σ β} (refused : ∀ err, g s = .error err → ¬ bad err)
    (rest : ∀ s₁, g s = .ok s₁ → Avoids bad (f ()) s₁) : Avoids bad (Tx.attempt g >>= f) s :=
  bind (attempt refused) fun _ s₁ done => rest s₁ (attempt_ok.mp done)

theorem write_then {g : σ → σ} {f : Unit → Tx ε σ β} (rest : Avoids bad (f ()) (g s)) :
    Avoids bad (Tx.write g >>= f) s := rest

theorem read_then {g : σ → α} (rest : Avoids bad (f (g s)) s) : Avoids bad (Tx.read g >>= f) s := rest

end Avoids

/-! ### What a transaction keeps -/

/-- Where a transaction returns, `P` holds if it held before. -/
def Keeps (P : σ → Prop) (tx : Tx ε σ α) : Prop := ∀ s a s', P s → tx s = .ok (a, s') → P s'

namespace Keeps

variable {P : σ → Prop}

theorem bind {f : α → Tx ε σ β} (first : Keeps P x) (rest : ∀ a, Keeps P (f a)) :
    Keeps P (x >>= f) := by
  intro s b s' holds ran
  obtain ⟨a, s₁, went, ran⟩ := bind_ok.mp ran
  exact rest a s₁ b s' (first s a s₁ holds went) ran

theorem of_read {tx : Tx ε σ α} (same : ∀ {s a s'}, tx s = .ok (a, s') → s = s') : Keeps P tx := by
  intro s a s' holds ran
  exact same ran ▸ holds

theorem pure (a : α) : Keeps P (Pure.pure a : Tx ε σ α) := of_read fun ran => (pure_ok.mp ran).2

theorem write {g : σ → σ} (kept : ∀ s, P s → P (g s)) : Keeps P (Tx.write g : Tx ε σ Unit) := by
  intro s _ s' holds ran
  exact write_ok.mp ran ▸ kept s holds

theorem attempt (kept : ∀ s s', P s → g s = .ok s' → P s') : Keeps P (Tx.attempt g) :=
  fun s _ s' holds ran => kept s s' holds (attempt_ok.mp ran)

end Keeps

/-! ### The atomic action -/

/-- Run a transaction: a failed one leaves the state as it was. -/
def commit (tx : Tx ε σ α) (s : σ) : Except ε α × σ :=
  match tx s with
  | .error err => (.error err, s)
  | .ok (a, s') => (.ok a, s')

/-- What a transaction can make of the state: nothing, or what it does where it returns. -/
theorem commit_cases (tx : Tx ε σ α) (s : σ) :
    (tx.commit s).2 = s ∨ ∃ a, tx s = .ok (a, (tx.commit s).2) := by
  unfold commit
  cases ran : tx s with
  | error err => exact .inl rfl
  | ok result => exact .inr ⟨result.1, rfl⟩

end Tx

end Iterabase.Conc
