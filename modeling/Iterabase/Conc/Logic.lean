/-
**Thread-local reasoning about a pool of threads.**

A proof about a server is done one thread at a time, against what the other threads may do, and in
layers: a base layer fixes what every action keeps and what a thread tolerates from the others, and
each further property is proved on top of it.

* `System.Proved.invariant` — **soundness**: if every request starts a program that meets its
  obligations, both invariants hold in every configuration a guarded run reaches.
-/

import Iterabase.Conc.Program

namespace Iterabase.Conc

variable {Λ ι ρ σ α β : Type}

/-- An invariant, what every action keeps, and what each thread tolerates from the others. -/
structure Rules (σ : Type) where
  inv : σ → Prop
  moves : σ → σ → Prop
  rely : Nat → σ → σ → Prop
  rely_refl : ∀ t s, rely t s s
  rely_trans : ∀ {t s₁ s₂ s₃}, rely t s₁ s₂ → rely t s₂ s₃ → rely t s₁ s₃

/-- What thread `t` may do: nothing another thread does not tolerate. -/
def Rules.Guarantee (R : Rules σ) (t : Nat) (s s' : σ) : Prop :=
  ∀ other, other ≠ t → R.rely other s s'

/-- What an action of thread `t` must keep. -/
def Rules.Step (R : Rules σ) (t : Nat) (s s' : σ) : Prop :=
  R.inv s' ∧ R.moves s s' ∧ R.Guarantee t s s'

def Rules.free : Rules σ where
  inv _ := True
  moves _ _ := True
  rely _ _ _ := True
  rely_refl _ _ := trivial
  rely_trans _ _ := trivial

/-! ### The base layer -/

/-- The base obligation of a program of thread `t`. -/
def Wp (R : Rules σ) (t : Nat) : Prog Λ ι σ α → (α → σ → Prop) → σ → Prop
  | .done value, Q, s => Q value s
  | .act _ run next, Q, s =>
      ∀ s₁, R.rely t s s₁ → R.inv s₁ → ∀ input answer s₂, run input s₁ = some (answer, s₂) →
        R.Step t s₁ s₂ ∧ Wp R t (next answer) Q s₂

/-- The obligation of a program of which nothing is known when it returns. -/
abbrev Follows (R : Rules σ) (t : Nat) (p : Prog Λ ι σ α) (s : σ) : Prop := Wp R t p (fun _ _ => True) s

namespace Wp

variable {R : Rules σ} {t : Nat} {p : Prog Λ ι σ α} {f : α → Prog Λ ι σ β} {s s' : σ}
  {Q : α → σ → Prop} {Q' : β → σ → Prop}

theorem andThen (first : Wp R t p Q s) (rest : ∀ value s, Q value s → Wp R t (f value) Q' s) :
    Wp R t (p >>= f) Q' s := by
  induction p generalizing s with
  | done value => exact rest _ _ first
  | act label run next ih =>
    intro s₁ moved inv input answer s₂ ran
    obtain ⟨step, later⟩ := first s₁ moved inv input answer s₂ ran
    exact ⟨step, ih _ later⟩

theorem bind (holds : Wp R t p (fun value s => Wp R t (f value) Q' s) s) : Wp R t (p >>= f) Q' s :=
  holds.andThen fun _ _ rest => rest

theorem seq (first : Follows R t p s) (rest : ∀ value s, Wp R t (f value) Q' s) : Wp R t (p >>= f) Q' s :=
  first.andThen fun value s _ => rest value s

theorem atomic {label : Λ} {run : ι → σ → Option (α × σ)}
    (holds : ∀ s₁, R.rely t s s₁ → R.inv s₁ → ∀ input answer s₂,
      run input s₁ = some (answer, s₂) → R.Step t s₁ s₂ ∧ Q answer s₂) :
    Wp R t (Prog.atomic label run) Q s := holds

/-- What the others do before a program starts does not matter. -/
theorem stable {p : Prog Λ ι σ Unit} (moved : R.rely t s s') (holds : Follows R t p s) :
    Follows R t p s' := by
  cases p with
  | done value => exact trivial
  | act label run next => exact fun s₁ further => holds s₁ (R.rely_trans moved further)

theorem free (t : Nat) (p : Prog Λ ι σ α) (s : σ) : Follows Rules.free t p s := by
  induction p generalizing s with
  | done value => trivial
  | act label run next ih =>
    exact fun s₁ _ _ input answer s₂ _ => ⟨⟨trivial, trivial, fun _ _ => trivial⟩, ih answer s₂⟩

end Wp

/-! ### Further layers -/

/-- A further invariant, the guard it holds under, and what each thread tolerates from the others
while that guard holds. -/
structure Layer (Λ ι ρ σ : Type) where
  inv : σ → Prop
  guard : System.Guard Λ ι ρ σ
  rely : Nat → σ → σ → Prop := fun _ _ _ => True
  rely_refl : ∀ t s, rely t s s := by intros; trivial
  rely_trans : ∀ {t s₁ s₂ s₃}, rely t s₁ s₂ → rely t s₂ s₃ → rely t s₁ s₃ := by intros; trivial

def Layer.Guarantee (L : Layer Λ ι ρ σ) (t : Nat) (s s' : σ) : Prop :=
  ∀ other, other ≠ t → L.rely other s s'

def Layer.Step (L : Layer Λ ι ρ σ) (t : Nat) (s s' : σ) : Prop := L.inv s' ∧ L.Guarantee t s s'

theorem Layer.Step.refl {L : Layer Λ ι ρ σ} {s : σ} (inv : L.inv s) (t : Nat) : L.Step t s s :=
  ⟨inv, fun other _ => L.rely_refl other s⟩

theorem Layer.Step.trans {L : Layer Λ ι ρ σ} {t : Nat} {s s' s'' : σ} (first : L.Step t s s')
    (second : L.Step t s' s'') : L.Step t s s'' :=
  ⟨second.1, fun other different =>
    L.rely_trans (first.2 other different) (second.2 other different)⟩

/-- The obligation of a program of thread `t` for a layer over the base. -/
def Along (R : Rules σ) (L : Layer Λ ι ρ σ) (t : Nat) :
    Prog Λ ι σ α → (α → σ → Prop) → σ → Prop
  | .done value, Q, s => Q value s
  | .act label run next, Q, s =>
      ∀ s₁, R.rely t s s₁ → L.rely t s s₁ → R.inv s₁ → L.inv s₁ → ∀ input answer s₂,
        L.guard.action label input s₁ → run input s₁ = some (answer, s₂) → R.Step t s₁ s₂ →
          L.Step t s₁ s₂ ∧ Along R L t (next answer) Q s₂

/-- The obligation of a program of which nothing is known when it returns. -/
abbrev Runs (R : Rules σ) (L : Layer Λ ι ρ σ) (t : Nat) (p : Prog Λ ι σ α) (s : σ) : Prop :=
  Along R L t p (fun _ _ => True) s

/-- An action of thread `t` that keeps the layer and the assertion `K`. -/
def Keeps (R : Rules σ) (L : Layer Λ ι ρ σ) (t : Nat) (K : σ → Prop) (γ : Type) (label : Λ)
    (run : ι → σ → Option (γ × σ)) : Prop :=
  ∀ {input s answer s'}, R.inv s → L.inv s → K s → L.guard.action label input s →
    run input s = some (answer, s') → R.Step t s s' → L.Step t s s' ∧ K s'

namespace Along

variable {R : Rules σ} {L : Layer Λ ι ρ σ} {t : Nat} {p : Prog Λ ι σ α} {f : α → Prog Λ ι σ β} {s s' : σ}
  {Q Q₁ : α → σ → Prop} {Q' : β → σ → Prop} {label : Λ} {run : ι → σ → Option (α × σ)} {K : σ → Prop}

theorem bind (holds : Along R L t p (fun value s => Along R L t (f value) Q' s) s) :
    Along R L t (p >>= f) Q' s := by
  induction p generalizing s with
  | done value => exact holds
  | act label run next ih =>
    intro s₁ moved moved' base inv input answer s₂ admitted ran did
    obtain ⟨step, rest⟩ := holds s₁ moved moved' base inv input answer s₂ admitted ran did
    exact ⟨step, ih _ rest⟩

theorem mono (weaker : ∀ value s, Q value s → Q₁ value s) (holds : Along R L t p Q s) :
    Along R L t p Q₁ s := by
  induction p generalizing s with
  | done value => exact weaker _ _ holds
  | act label run next ih =>
    intro s₁ moved moved' base inv input answer s₂ admitted ran did
    obtain ⟨step, rest⟩ := holds s₁ moved moved' base inv input answer s₂ admitted ran did
    exact ⟨step, ih _ rest⟩

theorem andThen (first : Along R L t p Q s) (rest : ∀ value s, Q value s → Along R L t (f value) Q' s) :
    Along R L t (p >>= f) Q' s :=
  bind (first.mono rest)

theorem seq (first : Runs R L t p s) (rest : ∀ value s, Along R L t (f value) Q' s) :
    Along R L t (p >>= f) Q' s :=
  first.andThen fun value s _ => rest value s

/-- **The frame rule**: what survives the others and the thread's own actions survives a program. -/
theorem frame (stable : ∀ {s s'}, R.rely t s s' → L.rely t s s' → K s → K s')
    (kept : ∀ {s s'}, L.Step t s s' → K s → K s') (start : K s) (holds : Along R L t p Q s) :
    Along R L t p (fun value s => Q value s ∧ K s) s := by
  induction p generalizing s with
  | done value => exact ⟨holds, start⟩
  | act label run next ih =>
    intro s₁ moved moved' base inv input answer s₂ admitted ran did
    obtain ⟨step, rest⟩ := holds s₁ moved moved' base inv input answer s₂ admitted ran did
    exact ⟨step, ih answer (kept step (stable moved moved' start)) rest⟩

theorem step (holds : ∀ s₁, R.rely t s s₁ → L.rely t s s₁ → R.inv s₁ → L.inv s₁ → ∀ input answer s₂,
      L.guard.action label input s₁ → run input s₁ = some (answer, s₂) → R.Step t s₁ s₂ →
        L.Step t s₁ s₂ ∧ Q answer s₂) :
    Along R L t (Prog.atomic label run) Q s := holds

/-- The rule of one action, where what the others tolerate of the base does not matter. -/
theorem action (holds : ∀ s₁, R.rely t s s₁ → L.rely t s s₁ → R.inv s₁ → L.inv s₁ → ∀ input answer s₂,
      L.guard.action label input s₁ → run input s₁ = some (answer, s₂) → R.inv s₂ →
        R.moves s₁ s₂ → L.Step t s₁ s₂ ∧ Q answer s₂) :
    Along R L t (Prog.atomic label run) Q s :=
  step fun s₁ moved moved' base inv input answer s₂ admitted ran ⟨base', moves, _⟩ =>
    holds s₁ moved moved' base inv input answer s₂ admitted ran base' moves

theorem atomic (holds : ∀ s₁, R.rely t s s₁ → R.inv s₁ → L.inv s₁ → ∀ input answer s₂,
      L.guard.action label input s₁ → run input s₁ = some (answer, s₂) → R.inv s₂ →
        R.moves s₁ s₂ → L.inv s₂ ∧ Q answer s₂)
    (free : ∀ t s s', L.rely t s s' := by intros; trivial) :
    Along R L t (Prog.atomic label run) Q s := by
  refine action fun s₁ moved _ base inv input answer s₂ admitted ran base' moves => ?_
  obtain ⟨inv', rest⟩ := holds s₁ moved base inv input answer s₂ admitted ran base' moves
  exact ⟨⟨inv', fun other _ => free other s₁ s₂⟩, rest⟩

theorem stable {p : Prog Λ ι σ Unit} (moved : R.rely t s s') (moved' : L.rely t s s')
    (holds : Runs R L t p s) : Runs R L t p s' := by
  cases p with
  | done value => exact trivial
  | act label run next =>
    exact fun s₁ further further' => holds s₁ (R.rely_trans moved further)
      (L.rely_trans moved' further')

/-- **A program whose every action keeps the layer under an assertion keeps the assertion.** -/
theorem of_all (stable : ∀ {s s'}, R.rely t s s' → L.rely t s s' → K s → K s') (start : K s)
    (all : p.All (Keeps R L t K)) : Along R L t p (fun _ s => K s) s := by
  induction p generalizing s with
  | done value => exact start
  | act label run next ih =>
    intro s₁ moved moved' base inv input answer s₂ admitted ran did
    obtain ⟨step, kept⟩ := all.1 base inv (stable moved moved' start) admitted ran did
    exact ⟨step, ih answer kept (all.2 answer)⟩

theorem of_moves {guard : System.Guard Λ ι ρ σ} (kept : ∀ {s s'}, K s → R.moves s s' → K s')
    (p : Prog Λ ι σ α) {s : σ} : Runs R { inv := K, guard := guard } t p s := by
  induction p generalizing s with
  | done value => trivial
  | act label run next ih =>
    intro s₁ _ _ _ inv input answer s₂ _ _ did
    exact ⟨⟨kept inv did.2.1, fun _ _ => trivial⟩, ih answer⟩

end Along

/-! ### Soundness -/

namespace System

/-- What requests and restarts must establish for the base layer. -/
structure Sound (sys : System Λ ι ρ σ) (R : Rules σ) : Prop where
  start : ∀ {request t s s' p}, R.inv s → sys.start request t s = some (s', p) →
    R.Step t s s' ∧ Follows R t p s'
  restart : ∀ {s}, R.inv s → R.inv (sys.restart s)

theorem Sound.free (sys : System Λ ι ρ σ) : sys.Sound Rules.free where
  start := fun _ _ => ⟨⟨trivial, trivial, fun _ _ => trivial⟩, .free _ _ _⟩
  restart := fun _ => trivial

/-- What requests and restarts must establish for a further layer. -/
structure Layered (sys : System Λ ι ρ σ) (R : Rules σ) (L : Layer Λ ι ρ σ) : Prop where
  start : ∀ {request t s s' p}, R.inv s → L.inv s → L.guard.request request s →
    sys.start request t s = some (s', p) → R.Step t s s' →
      L.Step t s s' ∧ Runs R L t p s'
  restart : ∀ {s}, R.inv s → L.inv s → L.guard.restart s → R.inv (sys.restart s) →
    L.inv (sys.restart s)

/-- A layer over a base layer that is sound. -/
structure Proved (sys : System Λ ι ρ σ) (R : Rules σ) (L : Layer Λ ι ρ σ) : Prop
    extends sys.Layered R L where
  sound : sys.Sound R

/-- The invariants hold and every thread can go on. -/
structure Going (R : Rules σ) (L : Layer Λ ι ρ σ) (c : Config Λ ι σ) : Prop where
  base : R.inv c.shared
  layer : L.inv c.shared
  threads : ∀ (t : Nat) (p : Prog Λ ι σ Unit), c.threads[t]? = some p →
    Follows R t p c.shared ∧ Runs R L t p c.shared

variable {sys : System Λ ι ρ σ} {R : Rules σ} {L : Layer Λ ι ρ σ} {c c' : Config Λ ι σ}

theorem Going.others {t t' : Nat} {p : Prog Λ ι σ Unit} {s : σ} (going : Going R L c)
    (guarantee : R.Guarantee t c.shared s) (guarantee' : L.Guarantee t c.shared s) (other : t' ≠ t)
    (present : c.threads[t']? = some p) :
    Follows R t' p s ∧ Runs R L t' p s := by
  obtain ⟨base, layer⟩ := going.threads t' p present
  exact ⟨base.stable (guarantee t' other),
    layer.stable (guarantee t' other) (guarantee' t' other)⟩

theorem Going.run {t : Nat} {input : ι} (going : Going R L c)
    (admitted : L.guard.Admits c (.run t input)) (moved : sys.next c (.run t input) = some c') :
    Going R L c' ∧ R.Step t c.shared c'.shared ∧ L.Guarantee t c.shared c'.shared := by
  simp only [next] at moved
  split at moved
  · rename_i β label run next present
    simp only [Guard.Admits, present] at admitted
    obtain ⟨⟨answer, s₂⟩, ran, rfl⟩ := Option.map_eq_some_iff.mp moved
    obtain ⟨base, layer⟩ := going.threads t _ present
    obtain ⟨did, rest⟩ := base c.shared (R.rely_refl t _) going.base input answer s₂ ran
    obtain ⟨⟨inv', guarantee'⟩, rest'⟩ := layer c.shared (R.rely_refl t _) (L.rely_refl t _) going.base
      going.layer input answer s₂ admitted ran did
    refine ⟨⟨did.1, inv', fun t' p' present' => ?_⟩, did, guarantee'⟩
    rw [List.getElem?_set] at present'
    split at present'
    · rename_i same
      subst same
      split at present'
      · cases present'
        exact ⟨rest, rest'⟩
      · cases present'
    · rename_i other
      exact going.others did.2.2 guarantee' (Ne.symm other) present'
  · cases moved

section Proved

variable (proved : sys.Proved R L)

include proved

theorem Going.start {request : ρ} (going : Going R L c)
    (admitted : L.guard.Admits c (.start request)) (moved : sys.next c (.start request) = some c') :
    Going R L c' ∧ R.Step c.threads.length c.shared c'.shared ∧
      L.Guarantee c.threads.length c.shared c'.shared := by
  obtain ⟨⟨s', p⟩, started, rfl⟩ := Option.map_eq_some_iff.mp moved
  obtain ⟨did, fresh⟩ := proved.sound.start going.base started
  obtain ⟨⟨inv', guarantee'⟩, fresh'⟩ := proved.start going.base going.layer admitted started did
  refine ⟨⟨did.1, inv', fun t' p' present' => ?_⟩, did, guarantee'⟩
  rcases getElem?_concat_cases present' with old | ⟨rfl, rfl⟩
  · exact going.others did.2.2 guarantee' (Nat.ne_of_lt (List.getElem?_eq_some_iff.mp old).1) old
  · exact ⟨fresh, fresh'⟩

theorem Going.restart (going : Going R L c) (admitted : L.guard.Admits c .restart)
    (moved : sys.next c .restart = some c') : Going R L c' := by
  simp only [next, Option.some.injEq] at moved
  subst moved
  have inv := proved.sound.restart going.base
  refine ⟨inv, proved.restart going.base going.layer admitted inv, fun t p present => ?_⟩
  rw [List.getElem?_map, Option.map_eq_some_iff] at present
  obtain ⟨_, _, rfl⟩ := present
  exact ⟨trivial, trivial⟩

theorem Going.reach (going : Going R L c) (further : Reach sys.next L.guard.Admits c c') :
    Going R L c' := by
  refine Reach.invariant further going fun c m c' going admitted moved => ?_
  cases m with
  | run t input => exact (going.run admitted moved).1
  | start request => exact (going.start proved admitted moved).1
  | restart => exact going.restart proved admitted moved

theorem Proved.going {s₀ : σ} (base : R.inv s₀) (layer : L.inv s₀)
    (reached : sys.Reaches L.guard s₀ c) : Going R L c :=
  Going.reach proved ⟨base, layer, fun _ _ present => by cases present⟩ reached

/-- **Soundness of a layer: both invariants hold wherever a guarded run leads.** -/
theorem Proved.invariant {s₀ : σ} (base : R.inv s₀) (layer : L.inv s₀)
    (reached : sys.Reaches L.guard s₀ c) : R.inv c.shared ∧ L.inv c.shared :=
  have going := proved.going base layer reached
  ⟨going.base, going.layer⟩

end Proved

/-- A layer that asks only for what every action and every restart keeps. -/
theorem Sound.proved {guard : Guard Λ ι ρ σ} {I : σ → Prop} (sound : sys.Sound R)
    (moves : ∀ {s s'}, I s → R.moves s s' → I s')
    (restart : ∀ {s}, R.inv s → I s → I (sys.restart s)) :
    sys.Proved R { inv := I, guard := guard } where
  sound := sound
  start := fun _ inv _ _ did => ⟨⟨moves inv did.2.1, fun _ _ => trivial⟩, Along.of_moves moves _⟩
  restart := fun base inv _ _ => restart base inv

/-- **Soundness of the base layer**, under any guard. -/
theorem Sound.invariant {s₀ : σ} {guard : Guard Λ ι ρ σ} (sound : sys.Sound R) (base : R.inv s₀)
    (reached : sys.Reaches guard s₀ c) : R.inv c.shared := by
  have proved : sys.Proved R { inv := fun _ => True, guard := guard } :=
    sound.proved (fun _ _ => trivial) fun _ _ => trivial
  exact (proved.invariant base trivial reached).1

/-- **What every action and every restart keeps relates two configurations of one run.** -/
theorem Sound.since {s₀ : σ} {guard : Guard Λ ι ρ σ} {D : σ → σ → Prop} (sound : sys.Sound R)
    (refl : ∀ s, D s s) (moves : ∀ {s₁ s₂ s₃}, D s₁ s₂ → R.moves s₂ s₃ → D s₁ s₃)
    (restart : ∀ {s₁ s₂}, R.inv s₂ → D s₁ s₂ → D s₁ (sys.restart s₂)) (base : R.inv s₀)
    (reached : sys.Reaches guard s₀ c) (further : Reach sys.next guard.Admits c c') :
    D c.shared c'.shared := by
  have whole : sys.Proved R { inv := fun _ => True, guard := guard } :=
    sound.proved (fun _ _ => trivial) fun _ _ => trivial
  have since : sys.Proved R { inv := D c.shared, guard := guard } := sound.proved moves restart
  have going := whole.going base trivial reached
  have here : Going R { inv := D c.shared, guard := guard } c :=
    ⟨going.base, refl _, fun t p present => ⟨(going.threads t p present).1, Along.of_moves moves p⟩⟩
  exact (here.reach since further).layer

end System

end Iterabase.Conc
