/-
**Programs of atomic actions, and pools of threads running them.**

A thread of a server is a program whose actions are atomic on a shared state: a store transaction, a
critical section under a lock, one message taken from or put on a stream. Between two actions any
other thread may run.

* `Prog Λ ι σ α` — a program over the shared state `σ` returning `α`. An action carries a label in
  `Λ`, reads one input in `ι` from the environment (a failure, a peer's answer, a clock), and is
  blocked where it returns `none`.
* `System.next` — one move of the pool: a thread's next action, a new request, or a restart. Thread
  ids are positions and are never reused.
-/

import Iterabase.Conc.Run

namespace Iterabase.Conc

open List Option

inductive Prog (Λ ι σ α : Type) : Type 1
  | done (value : α) : Prog Λ ι σ α
  | act {β : Type} (label : Λ) (run : ι → σ → Option (β × σ)) (next : β → Prog Λ ι σ α) :
      Prog Λ ι σ α

namespace Prog

variable {Λ ι σ α β : Type}

def bind : Prog Λ ι σ α → (α → Prog Λ ι σ β) → Prog Λ ι σ β
  | .done value, f => f value
  | .act label run next, f => .act label run fun answer => (next answer).bind f

instance : Monad (Prog Λ ι σ) where
  pure := .done
  bind := bind

def atomic (label : Λ) (run : ι → σ → Option (α × σ)) : Prog Λ ι σ α :=
  .act label run .done

@[simp] theorem pure_eq (value : α) : (pure value : Prog Λ ι σ α) = .done value := rfl

@[simp] theorem done_bind (value : α) (f : α → Prog Λ ι σ β) : (Prog.done value >>= f) = f value :=
  rfl

@[simp] theorem act_bind {γ : Type} (label : Λ) (run : ι → σ → Option (γ × σ))
    (next : γ → Prog Λ ι σ α) (f : α → Prog Λ ι σ β) :
    (Prog.act label run next >>= f) = .act label run fun answer => next answer >>= f := rfl

/-- Run a program alone, with these inputs. -/
def exec : Prog Λ ι σ α → List ι → σ → Option (α × σ)
  | .done value, _, s => some (value, s)
  | .act _ _ _, [], _ => none
  | .act _ run next, input :: rest, s =>
      (run input s).bind fun result => (next result.1).exec rest result.2

def isDone : Prog Λ ι σ α → Bool
  | .done _ => true
  | .act _ _ _ => false

/-- Every action of every path of the program satisfies `P`. -/
def All (P : (γ : Type) → Λ → (ι → σ → Option (γ × σ)) → Prop) : Prog Λ ι σ α → Prop
  | .done _ => True
  | .act label run next => P _ label run ∧ ∀ answer, (next answer).All P

variable {P P' : (γ : Type) → Λ → (ι → σ → Option (γ × σ)) → Prop} {p : Prog Λ ι σ α}

theorem All.done (value : α) : (Prog.done value : Prog Λ ι σ α).All P := trivial

theorem All.atomic {label : Λ} {run : ι → σ → Option (α × σ)} (holds : P _ label run) :
    (Prog.atomic label run).All P :=
  ⟨holds, fun _ => trivial⟩

theorem All.bind {f : α → Prog Λ ι σ β} (first : p.All P) (rest : ∀ value, (f value).All P) :
    (p >>= f).All P := by
  induction p with
  | done value => exact rest value
  | act label run next ih => exact ⟨first.1, fun answer => ih answer (first.2 answer)⟩

theorem All.mono (weaker : ∀ {γ label run}, P γ label run → P' γ label run) (all : p.All P) : p.All P' := by
  induction p with
  | done value => trivial
  | act label run next ih => exact ⟨weaker all.1, fun answer => ih answer (all.2 answer)⟩

end Prog

/-- A pool of threads over a shared state. A thread's id is its position. -/
structure Config (Λ ι σ : Type) : Type 1 where
  shared : σ
  threads : List (Prog Λ ι σ Unit)

def Config.Finished {Λ ι σ : Type} (c : Config Λ ι σ) : Prop := c.threads.all Prog.isDone

instance {Λ ι σ : Type} (c : Config Λ ι σ) : Decidable c.Finished :=
  inferInstanceAs (Decidable (c.threads.all Prog.isDone = true))

inductive Move (ι ρ : Type) : Type
  /-- Thread `thread` takes its next action on the environment's `input`. -/
  | run (thread : Nat) (input : ι)
  /-- A request arrives and starts a new thread. -/
  | start (request : ρ)
  | restart

/-- What requests start and what a restart keeps. -/
structure System (Λ ι ρ σ : Type) : Type 1 where
  /-- The program a request starts as the given thread, and the state it starts in. -/
  start : ρ → Nat → σ → Option (σ × Prog Λ ι σ Unit)
  /-- The state after a restart. Every thread of the old process is gone. -/
  restart : σ → σ

namespace System

variable {Λ ι ρ σ : Type}

def next (sys : System Λ ι ρ σ) (c : Config Λ ι σ) : Move ι ρ → Option (Config Λ ι σ)
  | .run thread input =>
      match c.threads[thread]? with
      | some (.act _ run next) =>
          (run input c.shared).map fun result => ⟨result.2, c.threads.set thread (next result.1)⟩
      | _ => none
  | .start request =>
      (sys.start request c.threads.length c.shared).map fun result =>
        ⟨result.1, c.threads ++ [result.2]⟩
  | .restart => some ⟨sys.restart c.shared, c.threads.map fun _ => .done ()⟩

/-- What a run may do: actions by label, input and state, requests by state. -/
structure Guard (Λ ι ρ σ : Type) : Type where
  action : Λ → ι → σ → Prop
  request : ρ → σ → Prop
  restart : σ → Prop

/-- Any request may come at any time; the actions meet `P`. -/
def Guard.onActions (P : Λ → ι → σ → Prop) : Guard Λ ι ρ σ := ⟨P, fun _ _ => True, fun _ => True⟩

abbrev Guard.free : Guard Λ ι ρ σ := .onActions fun _ _ _ => True

section Decidable

variable (P : Λ → ι → σ → Prop)

instance [∀ l i s, Decidable (P l i s)] (label : Λ) (input : ι) (s : σ) :
    Decidable ((Guard.onActions P : Guard Λ ι ρ σ).action label input s) :=
  inferInstanceAs (Decidable (P label input s))

instance (request : ρ) (s : σ) : Decidable ((Guard.onActions P : Guard Λ ι ρ σ).request request s) :=
  .isTrue trivial

instance (s : σ) : Decidable ((Guard.onActions P : Guard Λ ι ρ σ).restart s) := .isTrue trivial

end Decidable

def Guard.Admits (guard : Guard Λ ι ρ σ) (c : Config Λ ι σ) : Move ι ρ → Prop
  | .run thread input =>
      match c.threads[thread]? with
      | some (.act label _ _) => guard.action label input c.shared
      | _ => True
  | .start request => guard.request request c.shared
  | .restart => guard.restart c.shared

instance (guard : Guard Λ ι ρ σ) [∀ l i s, Decidable (guard.action l i s)]
    [∀ r s, Decidable (guard.request r s)] [∀ s, Decidable (guard.restart s)] (c : Config Λ ι σ)
    (m : Move ι ρ) : Decidable (guard.Admits c m) := by
  cases m with
  | run thread input => unfold Guard.Admits; dsimp only; split <;> infer_instance
  | start | restart => unfold Guard.Admits; infer_instance

/-- The configurations a guarded run reaches from the state `s₀` with no thread. -/
def Reaches (sys : System Λ ι ρ σ) (guard : Guard Λ ι ρ σ) (s₀ : σ) (c : Config Λ ι σ) : Prop :=
  Reach sys.next guard.Admits ⟨s₀, []⟩ c

/-- What holds of every action of every started program holds of every thread. -/
theorem Reaches.threads_all {sys : System Λ ι ρ σ} {guard : Guard Λ ι ρ σ} {s₀ : σ} {c : Config Λ ι σ}
    {P : Nat → (γ : Type) → Λ → (ι → σ → Option (γ × σ)) → Prop} (reached : sys.Reaches guard s₀ c)
    (started : ∀ {request t s s' p}, sys.start request t s = some (s', p) → p.All (P t)) :
    ∀ (t : Nat) (p : Prog Λ ι σ Unit), c.threads[t]? = some p → p.All (P t) := by
  induction reached with
  | start => exact fun t p found => nomatch found
  | @move c c' m _ _ moved ih =>
    intro t p found
    cases m with
    | run thread input =>
      dsimp only [System.next] at moved
      split at moved
      · rename_i label run next running
        obtain ⟨⟨answer, s'⟩, _, rfl⟩ := map_eq_some_iff.mp moved
        by_cases here : t = thread
        · subst here
          rw [List.getElem?_set_self (List.getElem?_eq_some_iff.mp running).1] at found
          cases found
          exact (ih t _ running).2 answer
        · rw [getElem?_set_ne (Ne.symm here)] at found
          exact ih t p found
      · cases moved
    | start request =>
      obtain ⟨⟨s', q⟩, began, rfl⟩ := map_eq_some_iff.mp moved
      rcases getElem?_concat_cases found with old | ⟨rfl, rfl⟩
      · exact ih t p old
      · exact started began
    | restart =>
      cases moved
      rw [getElem?_map] at found
      obtain ⟨_, _, rfl⟩ := map_eq_some_iff.mp found
      trivial

theorem reaches_of_replay (sys : System Λ ι ρ σ) (guard : Guard Λ ι ρ σ)
    [∀ c m, Decidable (guard.Admits c m)] (s₀ : σ) (moves : List (Move ι ρ)) (P : σ → Prop)
    [DecidablePred P]
    (ran : (replay sys.next guard.Admits ⟨s₀, []⟩ moves).any fun c => decide (P c.shared)) :
    ∃ c, sys.Reaches guard s₀ c ∧ P c.shared :=
  reach_of_replay sys.next guard.Admits ⟨s₀, []⟩ moves (fun c => P c.shared) ran

end System

namespace Prog

variable {Λ ι σ α β : Type}

/-- What is left of a program after it took these inputs. -/
def advance : Prog Λ ι σ α → List ι → σ → Option (Prog Λ ι σ α × σ)
  | p, [], s => some (p, s)
  | .done _, _ :: _, _ => none
  | .act _ run next, input :: rest, s =>
      (run input s).bind fun result => (next result.1).advance rest result.2

/-- Two programs on one state, until both are done: the inputs of the first are marked. An input for a
program that is done is lost. -/
def race : Prog Λ ι σ α → Prog Λ ι σ β → List (Bool × ι) → σ → Option ((α × β) × σ)
  | .done a, .done b, _, s => some ((a, b), s)
  | _, _, [], _ => none
  | .act _ run next, q, (true, input) :: rest, s =>
      (run input s).bind fun result => race (next result.1) q rest result.2
  | .done a, q, (true, _) :: rest, s => race (.done a) q rest s
  | p, .act _ run next, (false, input) :: rest, s =>
      (run input s).bind fun result => race p (next result.1) rest result.2
  | p, .done b, (false, _) :: rest, s => race p (.done b) rest s

/-- The inputs of one of the two programs. -/
def inputs (first : Bool) : List (Bool × ι) → List ι
  | [] => []
  | (mark, input) :: rest => if mark = first then input :: inputs first rest else inputs first rest

theorem inputs_append (mark : Bool) (before after : List (Bool × ι)) :
    inputs mark (before ++ after) = inputs mark before ++ inputs mark after := by
  induction before with
  | nil => rfl
  | cons step rest ih =>
    simp only [cons_append, inputs, ih]
    split <;> rfl

variable {p p' : Prog Λ ι σ α} {q q' : Prog Λ ι σ β} {s s' : σ} {schedule after : List (Bool × ι)}

theorem race_act {γ : Type} {label : Λ} {run : ι → σ → Option (γ × σ)} {next : γ → Prog Λ ι σ α}
    {input : ι} {answer : γ} (acted : run input s = some (answer, s')) :
    race (.act label run next) q ((true, input) :: after) s = race (next answer) q after s' := by
  cases q <;> simp only [race, acted, bind_some]

/-- The first program runs ahead. -/
theorem race_first (ran : p.advance (inputs true schedule) s = some (p', s'))
    (alone : inputs false schedule = []) : race p q (schedule ++ after) s = race p' q after s' := by
  induction schedule generalizing p s with
  | nil =>
    simp only [inputs, advance, some.injEq, Prod.mk.injEq] at ran
    rw [ran.1, ran.2]
    rfl
  | cons step rest ih =>
    obtain ⟨_ | _, input⟩ := step
    · cases alone
    cases p with
    | done a => cases ran
    | act label run next =>
      obtain ⟨⟨answer, middle⟩, acted, later⟩ := bind_eq_some_iff.mp ran
      rw [cons_append, race_act acted]
      exact ih later alone

/-- The first program runs ahead, while the second takes at most one action, which changes nothing. -/
theorem race_ahead {γ : Type} {label : Λ} {answer : ι → γ} {next : γ → Prog Λ ι σ β}
    (ran : p.advance (inputs true schedule) s = some (p', s'))
    (few : (inputs false schedule).length ≤ 1) :
    race p (.act label (fun input s => some (answer input, s)) next) (schedule ++ after) s =
      match inputs false schedule with
      | [] => race p' (.act label (fun input s => some (answer input, s)) next) after s'
      | input :: _ => race p' (next (answer input)) after s' := by
  induction schedule generalizing p s with
  | nil => exact race_first ran rfl
  | cons step rest ih =>
    obtain ⟨_ | _, input⟩ := step
    · have alone : inputs false rest = [] :=
        eq_nil_of_length_eq_zero (Nat.le_zero.mp (Nat.le_of_succ_le_succ few))
      have later : race p (next (answer input)) (rest ++ after) s = race p' (next (answer input)) after s' :=
        race_first ran alone
      refine Eq.trans ?_ later
      cases p <;> rfl
    cases p with
    | done a => cases ran
    | act label run next =>
      obtain ⟨⟨answer, middle⟩, acted, later⟩ := bind_eq_some_iff.mp ran
      rw [cons_append, race_act acted]
      exact ih later few

/-- The second program runs to its end after the first. -/
theorem race_behind {a : α} {b : β} {used : List ι} (ran : q.advance used s = some (.done b, s'))
    (enough : used <+: inputs false after) : race (.done a) q after s = some ((a, b), s') := by
  induction after generalizing q s used with
  | nil =>
    rw [prefix_nil.mp enough] at ran
    simp only [advance, some.injEq, Prod.mk.injEq] at ran
    rw [ran.1, ran.2]
    rfl
  | cons step rest ih =>
    obtain ⟨first, input⟩ := step
    cases q with
    | done c =>
      cases used with
      | nil => cases ran; simp [race]
      | cons _ _ => cases ran
    | act label run next =>
      cases first with
      | true => exact ih ran enough
      | false =>
        cases used with
        | nil => cases ran
        | cons x used =>
          obtain ⟨rfl, further⟩ := cons_prefix_cons.mp enough
          obtain ⟨⟨answer, middle⟩, acted, later⟩ := bind_eq_some_iff.mp ran
          simp only [race, acted, bind_some]
          exact ih later further

end Prog

end Iterabase.Conc
