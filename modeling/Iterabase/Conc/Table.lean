/-
**Tables with a primary key.**

A table is a list of rows whose keys are distinct, so a key is looked up in at most one way. An
insert that would repeat a key is refused, as a unique index refuses it; an update rewrites the rows
a predicate selects and cannot change a key; a removal drops the rows a predicate selects.

* `find_eq_some` — a lookup finds exactly the row with that key.
* `find_insert`, `find_update`, `find_remove` — lookups after the three writes.
-/

import Mathlib

namespace Iterabase.Conc

open List

/-- What every row of a lookup becomes in the next one, over two of them. -/
theorem carried_trans {κ ρ : Type} {f g h : κ → Option ρ} {P Q R : ρ → ρ → Prop}
    (trans : ∀ {a b c}, P a b → Q b c → R a c) (first : ∀ k a, f k = some a → ∃ b, g k = some b ∧ P a b)
    (second : ∀ k b, g k = some b → ∃ c, h k = some c ∧ Q b c) :
    ∀ k a, f k = some a → ∃ c, h k = some c ∧ R a c := by
  intro k a found
  obtain ⟨b, found', became⟩ := first k a found
  obtain ⟨c, found'', became'⟩ := second k b found'
  exact ⟨c, found'', trans became became'⟩

/-- Rows with distinct keys. -/
structure Table {ρ κ : Type} (key : ρ → κ) where
  rows : List ρ
  distinct : (rows.map key).Nodup

namespace Table

variable {ρ κ : Type} {key : ρ → κ}

def empty : Table key := ⟨[], nodup_nil⟩

variable [DecidableEq κ]

def find (t : Table key) (k : κ) : Option ρ := t.rows.find? fun r => key r = k

def insert (t : Table key) (r : ρ) : Option (Table key) :=
  if taken : key r ∈ t.rows.map key then none
  else some ⟨r :: t.rows, by
    rw [map_cons]
    exact nodup_cons.mpr ⟨taken, t.distinct⟩⟩

def update (t : Table key) (p : ρ → Bool) (f : ρ → ρ) (keeps : ∀ r, key (f r) = key r) :
    Table key where
  rows := t.rows.map fun r => if p r then f r else r
  distinct := by
    have same : (t.rows.map fun r => if p r then f r else r).map key = t.rows.map key := by
      rw [map_map]
      refine map_congr_left fun r _ => ?_
      simp only [Function.comp_apply]
      split
      · exact keeps r
      · rfl
    rw [same]
    exact t.distinct

def remove (t : Table key) (p : ρ → Bool) : Table key where
  rows := t.rows.filter fun r => !p r
  distinct := t.distinct.sublist (filter_sublist.map key)

variable {t : Table key} {k : κ} {r : ρ}

theorem find_key (found : t.find k = some r) : key r = k := by
  have selected := find?_some found
  exact of_decide_eq_true selected

theorem find_mem (found : t.find k = some r) : r ∈ t.rows :=
  mem_of_find?_eq_some found

/-- **A row is found under its key**: no other row has it. -/
theorem find_of_mem (member : r ∈ t.rows) : t.find (key r) = some r := by
  cases found : t.find (key r) with
  | none =>
    have missed := find?_eq_none.mp found r member
    simp at missed
  | some r' =>
    rw [inj_on_of_nodup_map t.distinct (find_mem found) member (find_key found)]

theorem find_unique {k' : κ} {r' : ρ} (found : t.find k = some r) (found' : t.find k' = some r')
    (same : key r' = k) : k' = k ∧ r' = r := by
  have here : k' = k := (find_key found').symm.trans same
  subst here
  exact ⟨rfl, Option.some.inj (found'.symm.trans found)⟩

theorem find_eq_some : t.find k = some r ↔ r ∈ t.rows ∧ key r = k := by
  constructor
  · exact fun found => ⟨find_mem found, find_key found⟩
  · rintro ⟨member, rfl⟩
    exact find_of_mem member

@[simp] theorem find_empty (k : κ) : (empty : Table key).find k = none := rfl

section Insert

variable {t' : Table key} (inserted : t.insert r = some t')

include inserted

theorem find_insert (k : κ) : t'.find k = if key r = k then some r else t.find k := by
  unfold insert at inserted
  split at inserted
  · cases inserted
  cases inserted
  unfold find
  by_cases same : key r = k <;> simp [same]

theorem insert_rows : t'.rows = r :: t.rows := by
  unfold insert at inserted
  split at inserted
  · cases inserted
  · cases inserted
    rfl

theorem insert_fresh : t.find (key r) = none := by
  unfold insert at inserted
  split at inserted
  · cases inserted
  rename_i fresh
  rw [mem_map] at fresh
  by_contra present
  obtain ⟨r', found⟩ := Option.ne_none_iff_exists'.mp present
  exact fresh ⟨r', find_mem found, find_key found⟩

/-- A row that is found stays. -/
theorem find_insert_old {r' : ρ} (found : t.find k = some r') : t'.find k = some r' := by
  rw [find_insert inserted, if_neg, found]
  rintro rfl
  rw [insert_fresh inserted] at found
  cases found

end Insert

theorem insert_of_fresh (fresh : t.find (key r) = none) : ∃ t', t.insert r = some t' := by
  unfold insert
  rw [dif_neg]
  · exact ⟨_, rfl⟩
  · intro taken
    obtain ⟨r', member, same⟩ := mem_map.mp taken
    have found := find_of_mem member
    rw [same, fresh] at found
    cases found

theorem find_update (t : Table key) (p : ρ → Bool) (f : ρ → ρ) (keeps : ∀ r, key (f r) = key r)
    (k : κ) : (t.update p f keeps).find k = (t.find k).map fun r => if p r then f r else r := by
  have kept : ∀ r, key (if p r then f r else r) = key r := by
    intro r
    split
    · exact keeps r
    · rfl
  unfold find update
  simp only [find?_map]
  congr 1
  refine congrArg (List.find? · t.rows) (funext fun r => ?_)
  simp only [Function.comp_apply, kept]

theorem find_update_of_find {p : ρ → Bool} {f : ρ → ρ} (keeps : ∀ r, key (f r) = key r) (found : t.find k = some r) :
    (t.update p f keeps).find k = some (if p r then f r else r) := by
  rw [find_update, found, Option.map_some]

theorem find_update_other {p : ρ → Bool} {f : ρ → ρ} (keeps : ∀ r, key (f r) = key r) {k' : κ}
    (only : ∀ r, p r → key r = k) (other : k' ≠ k) : (t.update p f keeps).find k' = t.find k' := by
  rw [find_update]
  cases found : t.find k' with
  | none => rfl
  | some r => rw [Option.map_some, if_neg fun chosen => other ((find_key found).symm.trans (only r chosen))]

theorem find_remove (t : Table key) (p : ρ → Bool) (k : κ) :
    (t.remove p).find k = (t.find k).filter fun r => !p r := by
  ext r
  rw [find_eq_some, Option.filter_eq_some_iff, find_eq_some]
  simp only [remove, mem_filter]
  exact and_right_comm

end Table

end Iterabase.Conc
