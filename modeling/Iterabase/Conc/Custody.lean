/-
**Debts and who owes them.**

A server that writes a decision in one place and publishes it in another is inconsistent in between,
and someone is always about to mend it. A debt is such an inconsistency of the shared state: it is
harmless as long as some thread owes it, and nothing is wrong once every thread is done.

* `Solvent.bind`, `Solvent.of_all` — sequencing, and programs that make no debt.
* `System.Custody.someone_owes` — **soundness**: every debt is owed by a thread that is not done.
-/

import Iterabase.Conc.Logic
import Mathlib

namespace Iterabase.Conc

open List Option Function

variable {Λ ι ρ σ κ α β : Type}

/-- The obligation of a program of thread `t` that owes the debts in `owed`. `Q` says what is owed at
its end. -/
def Solvent (R : Rules σ) (L : Layer Λ ι ρ σ) (debt : κ → σ → Prop) (t : Nat) :
    Prog Λ ι σ α → Set κ → (α → Set κ → σ → Prop) → σ → Prop
  | .done value, owed, Q, s => Q value owed s
  | .act label run next, owed, Q, s =>
      ∀ s₁, R.rely t s s₁ → L.rely t s s₁ → R.inv s₁ → L.inv s₁ → ∀ input answer s₂,
        L.guard.action label input s₁ → run input s₁ = some (answer, s₂) → R.inv s₂ → L.inv s₂ →
          R.moves s₁ s₂ → ∃ owed', (∀ k, debt k s₂ → k ∈ owed' ∨ debt k s₁ ∧ k ∉ owed) ∧
            Solvent R L debt t (next answer) owed' Q s₂

def Clear (_ : α) (owed : Set κ) (_ : σ) : Prop := owed = ∅

namespace Solvent

variable {R : Rules σ} {L : Layer Λ ι ρ σ} {debt : κ → σ → Prop} {t : Nat} {owed : Set κ} {s : σ}
  {p : Prog Λ ι σ α}

theorem bind {f : α → Prog Λ ι σ β} {Q : β → Set κ → σ → Prop}
    (holds : Solvent R L debt t p owed (fun value owed s => Solvent R L debt t (f value) owed Q s) s) :
    Solvent R L debt t (p >>= f) owed Q s := by
  induction p generalizing s owed with
  | done value => exact holds
  | act label run next ih =>
    intro s₁ moved moved' base inv input answer s₂ admitted ran base' inv' moves
    obtain ⟨owed', left, rest⟩ :=
      holds s₁ moved moved' base inv input answer s₂ admitted ran base' inv' moves
    exact ⟨owed', left, ih answer rest⟩

theorem mono {Q Q' : α → Set κ → σ → Prop} (weaker : ∀ value owed s, Q value owed s → Q' value owed s)
    (holds : Solvent R L debt t p owed Q s) : Solvent R L debt t p owed Q' s := by
  induction p generalizing s owed with
  | done value => exact weaker _ _ _ holds
  | act label run next ih =>
    intro s₁ moved moved' base inv input answer s₂ admitted ran base' inv' moves
    obtain ⟨owed', left, rest⟩ :=
      holds s₁ moved moved' base inv input answer s₂ admitted ran base' inv' moves
    exact ⟨owed', left, ih answer rest⟩

theorem atomic {label : Λ} {run : ι → σ → Option (α × σ)} {Q : α → Set κ → σ → Prop}
    (holds : ∀ s₁, R.rely t s s₁ → L.rely t s s₁ → R.inv s₁ → L.inv s₁ → ∀ input answer s₂,
      L.guard.action label input s₁ → run input s₁ = some (answer, s₂) → R.inv s₂ → L.inv s₂ →
        R.moves s₁ s₂ → ∃ owed', (∀ k, debt k s₂ → k ∈ owed' ∨ debt k s₁ ∧ k ∉ owed) ∧
          Q answer owed' s₂) :
    Solvent R L debt t (Prog.atomic label run) owed Q s := holds

theorem stable {p : Prog Λ ι σ Unit} {s' : σ} (moved : R.rely t s s') (moved' : L.rely t s s')
    (holds : Solvent R L debt t p owed Clear s) : Solvent R L debt t p owed Clear s' := by
  cases p with
  | done value => exact holds
  | act label run next =>
    exact fun s₁ further further' => holds s₁ (R.rely_trans moved further)
      (L.rely_trans moved' further')

def Debtless (R : Rules σ) (L : Layer Λ ι ρ σ) (debt : κ → σ → Prop) (γ : Type) (label : Λ)
    (run : ι → σ → Option (γ × σ)) : Prop :=
  ∀ {input s answer s'}, R.inv s → L.inv s → L.guard.action label input s →
    run input s = some (answer, s') → R.inv s' → R.moves s s' → ∀ k, debt k s' → debt k s

/-- **A program that makes no debt** owes at its end what it owed at its start. -/
theorem of_all (all : p.All (Debtless R L debt)) :
    Solvent R L debt t p owed (fun _ owed' _ => owed' = owed) s := by
  induction p generalizing s with
  | done value => rfl
  | act label run next ih =>
    intro s₁ _ _ base inv input answer s₂ admitted ran base' _ moves
    refine ⟨owed, fun k left => ?_, ih answer (all.2 answer)⟩
    by_cases mine : k ∈ owed
    · exact .inl mine
    · exact .inr ⟨all.1 base inv admitted ran base' moves k left, mine⟩

theorem of_debtless {p : Prog Λ ι σ Unit} (all : p.All (Debtless R L debt)) :
    Solvent R L debt t p ∅ Clear s :=
  (of_all all).mono fun _ _ _ same => same

end Solvent

/-! ### Soundness -/

namespace System

structure Custody (sys : System Λ ι ρ σ) (R : Rules σ) (L : Layer Λ ι ρ σ) (debt : κ → σ → Prop) :
    Prop where
  proved : sys.Proved R L
  start : ∀ {request t s s' p}, R.inv s → L.inv s → L.guard.request request s →
    sys.start request t s = some (s', p) → R.inv s' → L.inv s' → R.moves s s' →
      (∀ k, debt k s' → debt k s) ∧ Solvent R L debt t p ∅ Clear s'
  restart : ∀ {s}, R.inv s → L.inv s → L.guard.restart s → ∀ k, ¬ debt k (sys.restart s)

/-- The debts each thread owes cover all there are. -/
structure Covered (R : Rules σ) (L : Layer Λ ι ρ σ) (debt : κ → σ → Prop) (c : Config Λ ι σ)
    (owed : Nat → Set κ) : Prop where
  threads : ∀ (t : Nat) (p : Prog Λ ι σ Unit), c.threads[t]? = some p →
    Solvent R L debt t p (owed t) Clear c.shared
  covers : ∀ k, debt k c.shared → ∃ (t : Nat) (p : Prog Λ ι σ Unit),
    c.threads[t]? = some p ∧ k ∈ owed t

variable {sys : System Λ ι ρ σ} {R : Rules σ} {L : Layer Λ ι ρ σ} {debt : κ → σ → Prop}
  {c c' : Config Λ ι σ} {owed : Nat → Set κ}

theorem Covered.run {t : Nat} {input : ι} (covered : Covered R L debt c owed) (going : Going R L c)
    (admitted : L.guard.Admits c (.run t input)) (moved : sys.next c (.run t input) = some c') :
    ∃ owed', Covered R L debt c' owed' := by
  obtain ⟨going', ⟨_, moves, guarantee⟩, guarantee'⟩ := going.run admitted moved
  simp only [next] at moved
  split at moved
  · rename_i label run next present
    simp only [Guard.Admits, present] at admitted
    obtain ⟨⟨answer, s₂⟩, ran, rfl⟩ := map_eq_some_iff.mp moved
    obtain ⟨mine, left, rest⟩ := covered.threads t _ present c.shared (R.rely_refl t _)
      (L.rely_refl t _) going.base going.layer input answer s₂ admitted ran going'.base going'.layer
      moves
    have bound : t < c.threads.length := (List.getElem?_eq_some_iff.mp present).1
    refine ⟨update owed t mine, fun t' p' present' => ?_, fun k debts => ?_⟩
    · by_cases here : t' = t
      · subst here
        rw [getElem?_set_self bound] at present'
        cases present'
        rwa [update_self]
      · rw [getElem?_set_ne (Ne.symm here)] at present'
        rw [update_of_ne here]
        exact (covered.threads t' p' present').stable (guarantee t' here) (guarantee' t' here)
    · rcases left k debts with owes | ⟨before, other⟩
      · exact ⟨t, _, getElem?_set_self bound, by rwa [update_self]⟩
      · obtain ⟨t', p', present', owes⟩ := covered.covers k before
        have different : t' ≠ t := by
          rintro rfl
          exact other owes
        refine ⟨t', p', ?_, by rwa [update_of_ne different]⟩
        exact (getElem?_set_ne (Ne.symm different)).trans present'
  · cases moved

theorem Covered.start {request : ρ} (custody : sys.Custody R L debt)
    (covered : Covered R L debt c owed) (going : Going R L c)
    (admitted : L.guard.Admits c (.start request))
    (moved : sys.next c (.start request) = some c') : ∃ owed', Covered R L debt c' owed' := by
  obtain ⟨going', ⟨_, moves, guarantee⟩, guarantee'⟩ := going.start custody.proved admitted moved
  obtain ⟨⟨s', p⟩, started, rfl⟩ := map_eq_some_iff.mp moved
  obtain ⟨left, fresh⟩ := custody.start going.base going.layer admitted started going'.base going'.layer moves
  refine ⟨update owed c.threads.length ∅, fun t' p' present' => ?_, fun k debts => ?_⟩
  · rcases getElem?_concat_cases present' with old | ⟨rfl, rfl⟩
    · have other := Nat.ne_of_lt (List.getElem?_eq_some_iff.mp old).1
      rw [update_of_ne other]
      exact (covered.threads t' p' old).stable (guarantee t' other) (guarantee' t' other)
    · rwa [update_self]
  · obtain ⟨t', p', present', owes⟩ := covered.covers k (left k debts)
    have old : t' < c.threads.length := (List.getElem?_eq_some_iff.mp present').1
    refine ⟨t', p', ?_, by rwa [update_of_ne (Nat.ne_of_lt old)]⟩
    exact (getElem?_append_left old).trans present'

theorem Covered.restart (custody : sys.Custody R L debt) (going : Going R L c)
    (admitted : L.guard.Admits c .restart) (moved : sys.next c .restart = some c') :
    ∃ owed', Covered R L debt c' owed' := by
  simp only [next, some.injEq] at moved
  subst moved
  refine ⟨fun _ => ∅, fun t p present => ?_, fun k debts => ?_⟩
  · rw [getElem?_map, map_eq_some_iff] at present
    obtain ⟨_, _, rfl⟩ := present
    rfl
  · exact absurd debts (custody.restart going.base going.layer admitted k)

/-- **Every debt is owed by a thread that is not done.** -/
theorem Custody.someone_owes {s₀ : σ} (custody : sys.Custody R L debt) (base : R.inv s₀)
    (layer : L.inv s₀) (clear : ∀ k, ¬ debt k s₀) (reached : sys.Reaches L.guard s₀ c) {k : κ}
    (debts : debt k c.shared) : ∃ p ∈ c.threads, p.isDone = false := by
  have kept : Going R L c ∧ ∃ owed, Covered R L debt c owed := by
    refine Reach.invariant (I := fun c => Going R L c ∧ ∃ owed, Covered R L debt c owed) reached
      ⟨⟨base, layer, nofun⟩, fun _ => ∅,
        ⟨nofun, fun k debts => absurd debts (clear k)⟩⟩ ?_
    rintro c m c' ⟨going, owed, covered⟩ admitted moved
    cases m with
    | run t input => exact ⟨(going.run admitted moved).1, covered.run going admitted moved⟩
    | start request =>
      exact ⟨(going.start custody.proved admitted moved).1, covered.start custody going admitted moved⟩
    | restart =>
      exact ⟨going.restart custody.proved admitted moved, Covered.restart custody going admitted moved⟩
  obtain ⟨_, owed, covered⟩ := kept
  obtain ⟨t, p, present, owes⟩ := covered.covers k debts
  refine ⟨p, mem_of_getElem? present, ?_⟩
  cases p with
  | done value =>
    have nothing : owed t = ∅ := covered.threads t _ present
    rw [nothing] at owes
    cases owes
  | act label run next => rfl

/-- **Where every thread is done there is no debt.** -/
theorem Custody.settled {s₀ : σ} (custody : sys.Custody R L debt) (base : R.inv s₀)
    (layer : L.inv s₀) (clear : ∀ k, ¬ debt k s₀) (reached : sys.Reaches L.guard s₀ c)
    (finished : c.Finished) (k : κ) : ¬ debt k c.shared := by
  intro debts
  obtain ⟨p, member, running⟩ := custody.someone_owes base layer clear reached debts
  rw [all_eq_true.mp finished p member] at running
  cases running

end System

end Iterabase.Conc
