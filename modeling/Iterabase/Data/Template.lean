/-
**Text templates with named placeholders.**

A template is a text in which `{{name}}` stands for a value. It is filled by replacing one placeholder
after the other, everywhere in the text, so a value that carries braces may be read as a placeholder
by a later replacement.

* `tokens` — a template read from the left: literal characters and placeholders.
* `replaceAll` — every occurrence of a text, from the left and without overlaps.
* `fillIn_of_apart` — **filling in values one after the other puts each value where its placeholder
  stands**, unless the result has a pair of braces.
-/

import Mathlib

namespace Iterabase.Data.Template

open List

/-! ### Placeholders -/

def isLetter (c : Char) : Bool := ('A' ≤ c && c ≤ 'Z') || ('a' ≤ c && c ≤ 'z')

/-- What a name continues with. -/
def isWord (c : Char) : Bool := isLetter c || ('0' ≤ c && c ≤ '9') || c = '_'

/-- A piece of a template. -/
inductive Token
  | literal (c : Char)
  | field (name : List Char)

def braced (name : List Char) : List Char := '{' :: '{' :: (name ++ ['}', '}'])

def Token.spell : Token → List Char
  | .literal c => [c]
  | .field name => braced name

def spell (ts : List Token) : List Char := ts.flatMap Token.spell

/-- The name of the placeholder that a text begins with. -/
def placeholder : List Char → Option (List Char)
  | '{' :: '{' :: c :: rest =>
      if isLetter c then
        match rest.dropWhile isWord with
        | '}' :: '}' :: _ => some (c :: rest.takeWhile isWord)
        | _ => none
      else none
  | _ => none

/-- The tokens of a text after a number of characters that are passed over. -/
def tokensFrom : Nat → List Char → List Token
  | _, [] => []
  | 0, c :: rest =>
      match placeholder (c :: rest) with
      | some name => .field name :: tokensFrom (name.length + 3) rest
      | none => .literal c :: tokensFrom 0 rest
  | skip + 1, _ :: rest => tokensFrom skip rest

def tokens (text : List Char) : List Token := tokensFrom 0 text

def fields (ts : List Token) : List (List Char) :=
  ts.filterMap fun
    | .literal _ => none
    | .field name => some name

def strip (ts : List Token) : List Char :=
  ts.filterMap fun
    | .literal c => some c
    | .field _ => none

@[simp] theorem spell_nil : spell [] = [] := rfl

@[simp] theorem spell_cons (t : Token) (ts : List Token) : spell (t :: ts) = t.spell ++ spell ts := rfl

@[simp] theorem spell_append (ts us : List Token) : spell (ts ++ us) = spell ts ++ spell us :=
  flatMap_append

@[simp] theorem spell_map_literal (value : List Char) : spell (value.map .literal) = value := by
  induction value with
  | nil => rfl
  | cons c rest ih => simp [Token.spell, ih]

variable {name : List Char} {ts : List Token}

theorem mem_fields : name ∈ fields ts ↔ .field name ∈ ts := by
  simp only [fields, mem_filterMap]
  constructor
  · rintro ⟨t, member, same⟩
    cases t with
    | literal c => cases same
    | field name' =>
      cases same
      exact member
  · exact fun member => ⟨.field name, member, rfl⟩

/-! ### Names -/

/-- A name: a letter, then letters, digits and underscores. -/
def IsName : List Char → Prop
  | [] => False
  | c :: rest => isLetter c ∧ ∀ d ∈ rest, isWord d

variable {c : Char}

theorem isWord_of_isLetter (letter : isLetter c) : isWord c := by
  simp [isWord, letter]

theorem IsName.isWord (isName : IsName name) (member : c ∈ name) : isWord c := by
  cases name with
  | nil => exact isName.elim
  | cons d rest =>
    rcases mem_cons.mp member with rfl | later
    · exact isWord_of_isLetter isName.1
    · exact isName.2 c later

theorem isWord_ne_brace (word : isWord c) : c ≠ '{' ∧ c ≠ '}' := by
  constructor
  · rintro rfl
    revert word
    decide
  · rintro rfl
    revert word
    decide

variable {text : List Char}

/-- **A placeholder at the head of a text**: its name, and what follows it. -/
theorem placeholder_eq_some (found : placeholder text = some name) :
    IsName name ∧ ∃ rest, text = braced name ++ rest := by
  unfold placeholder at found
  split at found
  · rename_i c rest
    split at found
    · rename_i letter
      split at found
      · rename_i rest' dropped
        cases found
        refine ⟨⟨letter, all_eq_true.mp all_takeWhile⟩, rest', ?_⟩
        have whole : rest.takeWhile isWord ++ '}' :: '}' :: rest' = rest := by
          rw [← dropped]
          exact takeWhile_append_dropWhile
        simp only [braced, cons_append, append_assoc, nil_append, whole]
      · cases found
    · cases found
  · cases found

theorem tokensFrom_drop (skip : Nat) (text : List Char) :
    tokensFrom skip text = tokensFrom 0 (text.drop skip) := by
  induction skip generalizing text with
  | zero => rfl
  | succ skip ih =>
    cases text with
    | nil => rfl
    | cons c rest => exact ih rest

/-- The tokens of a text that begins with a placeholder, and of one that does not. -/
theorem tokens_cons (c : Char) (rest : List Char) :
    (∃ name rest', IsName name ∧ c :: rest = braced name ++ rest' ∧
      tokens (c :: rest) = .field name :: tokens rest') ∨
    tokens (c :: rest) = .literal c :: tokens rest := by
  rcases found : placeholder (c :: rest) with _ | name
  · right
    simp only [tokens, tokensFrom, found]
  left
  obtain ⟨isName, rest', whole⟩ := placeholder_eq_some found
  refine ⟨name, rest', isName, whole, ?_⟩
  have tail : rest = ('{' :: (name ++ ['}', '}'])) ++ rest' := (List.cons.inj whole).2
  have passed : rest.drop (name.length + 3) = rest' := by
    rw [tail]
    exact drop_left' (by simp)
  simp only [tokens, tokensFrom, found]
  rw [tokensFrom_drop, passed]

/-- **A text is the text of its tokens, and its placeholders have names.** -/
theorem tokens_spec (text : List Char) :
    spell (tokens text) = text ∧ ∀ name, .field name ∈ tokens text → IsName name := by
  -- by the length of the text: a placeholder is passed over at once
  induction length : text.length using Nat.strongRecOn generalizing text with
  | ind n ih =>
    cases text with
    | nil => exact ⟨rfl, fun _ member => nomatch member⟩
    | cons c rest =>
      rcases tokens_cons c rest with ⟨name, rest', isName, whole, read⟩ | read
      · have shorter : rest'.length < n := by
          rw [← length, whole]
          simp only [braced, length_append, length_cons]
          omega
        obtain ⟨spelled, names⟩ := ih _ shorter rest' rfl
        rw [read]
        refine ⟨by rw [spell_cons, spelled, whole]; rfl, fun name' member => ?_⟩
        rcases mem_cons.mp member with here | later
        · cases here
          exact isName
        · exact names name' later
      · obtain ⟨spelled, names⟩ := ih _ (by rw [← length]; simp) rest rfl
        rw [read]
        refine ⟨by rw [spell_cons, spelled]; rfl, fun name' member => ?_⟩
        rcases mem_cons.mp member with here | later
        · cases here
        · exact names name' later

/-! ### Replacement -/

/-- Replace the occurrences of a pattern after a number of characters that are passed over. -/
def replaceFrom (pattern value : List Char) : Nat → List Char → List Char
  | _, [] => []
  | 0, c :: rest =>
      if pattern.isPrefixOf (c :: rest) then
        value ++ replaceFrom pattern value (pattern.length - 1) rest
      else c :: replaceFrom pattern value 0 rest
  | skip + 1, _ :: rest => replaceFrom pattern value skip rest

def replaceAll (pattern value text : List Char) : List Char := replaceFrom pattern value 0 text

variable {pattern value : List Char}

theorem replaceFrom_drop (skip : Nat) (text : List Char) :
    replaceFrom pattern value skip text = replaceAll pattern value (text.drop skip) := by
  induction skip generalizing text with
  | zero => rfl
  | succ skip ih =>
    cases text with
    | nil => rfl
    | cons c rest => exact ih rest

theorem replaceAll_append {pattern' : List Char} (rest : List Char)
    (nonempty : pattern = c :: pattern') :
    replaceAll pattern value (pattern ++ rest) = value ++ replaceAll pattern value rest := by
  subst nonempty
  have here : (c :: pattern').isPrefixOf (c :: (pattern' ++ rest)) :=
    isPrefixOf_iff_prefix.mpr ⟨rest, rfl⟩
  have passed : (pattern' ++ rest).drop ((c :: pattern').length - 1) = rest :=
    drop_left' (by simp)
  rw [cons_append, replaceAll, replaceFrom, if_pos here, replaceFrom_drop, passed]

variable {rest : List Char}

theorem replaceAll_cons (other : ¬ pattern <+: c :: rest) :
    replaceAll pattern value (c :: rest) = c :: replaceAll pattern value rest := by
  have none : ¬ pattern.isPrefixOf (c :: rest) := fun here =>
    other ( isPrefixOf_iff_prefix.mp here)
  rw [replaceAll, replaceFrom, if_neg none]
  rfl

theorem replaceAll_skip {stretch : List Char}
    (others : ∀ passed here, stretch = passed ++ here → here ≠ [] → ¬ pattern <+: here ++ rest) :
    replaceAll pattern value (stretch ++ rest) = stretch ++ replaceAll pattern value rest := by
  induction stretch with
  | nil => rfl
  | cons c stretch ih =>
    have first : ¬ pattern <+: c :: (stretch ++ rest) :=
      others [] (c :: stretch) rfl (cons_ne_nil _ _)
    rw [cons_append, replaceAll_cons first, cons_append, ih]
    intro passed here same nonempty
    exact others (c :: passed) here (by rw [same, cons_append]) nonempty

/-! ### Braces -/

/-- No two of these characters stand next to each other. -/
def Pairless (b : Char) (text : List Char) : Prop := ¬ [b, b] <:+: text

instance (b : Char) (text : List Char) : Decidable (Pairless b text) :=
  inferInstanceAs (Decidable (¬ _))

/-- A value that cannot be read as a part of a placeholder. -/
def Plain (value : List Char) : Prop := ∀ c ∈ value, c ≠ '{' ∧ c ≠ '}'

section Pairs

variable {α : Type} {b c : α} {l m : List α}

theorem pair_cons : ¬ [b, b] <:+: c :: l ↔ ¬ (c = b ∧ l.head? = some b) ∧ ¬ [b, b] <:+: l := by
  rw [infix_cons_iff, not_or]
  refine and_congr_left fun _ => not_congr ?_
  cases l with
  | nil => simp
  | cons d rest => simp [cons_prefix_cons, eq_comm]

theorem pair_append (first : ∀ c ∈ l, c ≠ b) (second : ¬ [b, b] <:+: m) : ¬ [b, b] <:+: l ++ m := by
  induction l with
  | nil => exact second
  | cons c l ih =>
    refine pair_cons.mpr ⟨fun ⟨same, _⟩ => first c (.head _ ..) same, ?_⟩
    exact ih fun d member => first d (.tail _ member)

end Pairs

/-! ### One placeholder -/

def fill (name value : List Char) (ts : List Token) : List Token :=
  ts.flatMap fun
    | .field other => if other = name then value.map .literal else [.field other]
    | .literal c => [.literal c]

section Fill

variable {name value : List Char}

theorem fill_literal (c : Char) (ts : List Token) :
    fill name value (.literal c :: ts) = .literal c :: fill name value ts := rfl

theorem fill_same (ts : List Token) :
    fill name value (.field name :: ts) = value.map .literal ++ fill name value ts := by
  simp [fill]

theorem fill_other {other : List Char} (different : other ≠ name) (ts : List Token) :
    fill name value (.field other :: ts) = .field other :: fill name value ts := by
  simp [fill, different]

theorem field_mem_fill {other : List Char} (member : .field other ∈ fill name value ts) :
    .field other ∈ ts := by
  obtain ⟨t, old, new⟩ := mem_flatMap.mp member
  cases t with
  | literal c => simp at new
  | field other =>
    dsimp only at new
    split at new
    · simp at new
    · cases mem_singleton.mp new
      exact old

/-- No two opening braces stand next to each other outside the placeholders. -/
def Apart (ts : List Token) : Prop := ¬ [.literal '{', .literal '{'] <:+: ts

theorem Apart.tail {t : Token} (apart : Apart (t :: ts)) : Apart ts := fun pair =>
  apart (pair.trans (suffix_cons t ts).isInfix)

theorem apart_of_pairless (pairless : Pairless '{' (spell ts)) : Apart ts := by
  rintro ⟨before, after, rfl⟩
  exact pairless ⟨spell before, spell after, by simp [Token.spell]⟩

theorem takeWhile_closed {a : List Char} (open_ : ∀ c ∈ a, c ≠ '}') (rest : List Char) :
    (a ++ '}' :: rest).takeWhile (· ≠ '}') = a := by
  rw [takeWhile_append_of_pos (by simpa using open_)]
  simp

theorem names_eq_of_closed {a b rest' : List Char} (first : ∀ c ∈ a, c ≠ '}')
    (second : ∀ c ∈ b, c ≠ '}') (pre : a ++ '}' :: rest <+: b ++ '}' :: rest') : a = b := by
  obtain ⟨later, same⟩ := pre
  rw [← takeWhile_closed second rest', ← same, append_assoc, cons_append,
    takeWhile_closed first]

theorem literal_not_placeholder (isName : IsName name)
    (apart : Apart (.literal c :: ts)) : ¬ braced name <+: c :: spell ts := by
  intro pre
  obtain ⟨first, pre⟩ := cons_prefix_cons.mp pre
  cases ts with
  | nil => simp at pre
  | cons t ts =>
    cases t with
    | literal d =>
      -- a second brace outside the placeholders
      have second : '{' = d := (cons_prefix_cons.mp pre).1
      subst first second
      exact apart ⟨[], ts, rfl⟩
    | field other =>
      -- the braces of the next placeholder: the name would begin with the second one
      have within : name ++ ['}', '}'] <+: '{' :: (other ++ ['}', '}'] ++ spell ts) :=
        (cons_prefix_cons.mp pre).2
      cases name with
      | nil => exact isName
      | cons d rest =>
        have head := (cons_prefix_cons.mp within).1
        exact (isWord_ne_brace (isWord_of_isLetter isName.1)).1 head

theorem other_not_placeholder (isName : IsName name) {other : List Char} (isName' : IsName other)
    (different : other ≠ name) {passed here : List Char} (split : braced other = passed ++ here)
    (nonempty : here ≠ []) : ¬ braced name <+: here ++ rest := by
  intro pre
  have closing : ∀ {n : List Char}, IsName n → ∀ c ∈ n, c ≠ '}' := fun isName c member =>
    (isWord_ne_brace (isName.isWord member)).2
  match passed, split with
  | [], split =>
    -- the whole of it: the names agree
    subst split
    have names : name ++ ['}', '}'] <+: other ++ ['}', '}'] ++ rest :=
      (cons_prefix_cons.mp (cons_prefix_cons.mp pre).2).2
    rw [append_assoc] at names
    exact different (names_eq_of_closed (closing isName) (closing isName') names).symm
  | [_], split =>
    -- its second brace, and then its name
    obtain rfl : '{' :: (other ++ ['}', '}']) = here := (List.cons.inj split).2
    have names : '{' :: (name ++ ['}', '}']) <+: other ++ ['}', '}'] ++ rest :=
      (cons_prefix_cons.mp pre).2
    cases other with
    | nil => exact isName'
    | cons d tail =>
      have head := (cons_prefix_cons.mp names).1
      exact (isWord_ne_brace (isWord_of_isLetter isName'.1)).1 head.symm
  | _ :: _ :: passed, split =>
    -- a character of the name, or a closing brace
    have split : other ++ ['}', '}'] = passed ++ here := (List.cons.inj (List.cons.inj split).2).2
    cases here with
    | nil => exact nonempty rfl
    | cons c here =>
      have head := (cons_prefix_cons.mp pre).1
      have member : c ∈ other ++ ['}', '}'] := by
        rw [split]
        exact mem_append_right _ (.head _ ..)
      rcases mem_append.mp member with inside | after
      · exact (isWord_ne_brace (isName'.isWord inside)).1 head.symm
      have brace : c = '}' := by simpa using after
      rw [brace] at head
      cases head

/-- **Replacing a placeholder puts the value exactly where the placeholder stands.** -/
theorem replaceAll_spell (isName : IsName name) (names : ∀ name, .field name ∈ ts → IsName name)
    (apart : Apart ts) :
    replaceAll (braced name) value (spell ts) = spell (fill name value ts) := by
  induction ts with
  | nil => rfl
  | cons t ts ih =>
    have rest := ih (fun name member => names name (.tail _ member)) apart.tail
    cases t with
    | literal c =>
      have none := literal_not_placeholder isName apart
      simp only [spell_cons, Token.spell, cons_append, nil_append]
      rw [replaceAll_cons none, rest, fill_literal]
      rfl
    | field other =>
      by_cases same : other = name
      · subst same
        have here : replaceAll (braced other) value (braced other ++ spell ts) =
            value ++ replaceAll (braced other) value (spell ts) := replaceAll_append _ rfl
        simp only [spell_cons, Token.spell]
        rw [here, rest, fill_same, spell_append, spell_map_literal]
      · have isName' := names other (.head _ ..)
        simp only [spell_cons, Token.spell]
        rw [replaceAll_skip fun passed here split nonempty =>
          other_not_placeholder isName isName' same split nonempty, rest, fill_other same]
        rfl

end Fill

/-! ### All placeholders -/

variable (values : List (List Char × List Char))

/-- Replace the placeholders of these names one after the other. -/
def fillIn (text : List Char) : List Char :=
  values.foldl (fun text field => replaceAll (braced field.1) field.2 text) text

def valueOf (name : List Char) : Option (List Char) :=
  (values.find? fun field => field.1 = name).map Prod.snd

def expandToken : Token → List Token
  | .literal c => [.literal c]
  | .field name =>
      match valueOf values name with
      | some value => value.map .literal
      | none => [.field name]

/-- Every placeholder replaced at once. -/
def expand (ts : List Token) : List Token :=
  ts.flatMap (expandToken values)

theorem expand_map_literal (value : List Char) :
    expand values (value.map .literal) = value.map .literal := by
  induction value with
  | nil => rfl
  | cons c rest ih => exact congrArg (Token.literal c :: ·) ih

theorem expand_fill (name value : List Char) (values : List (List Char × List Char))
    (ts : List Token) : expand values (fill name value ts) = expand ((name, value) :: values) ts := by
  unfold expand fill
  rw [flatMap_assoc]
  refine flatMap_congr fun t _ => ?_
  cases t with
  | literal c => rfl
  | field other =>
    by_cases same : other = name
    · subst same
      simpa [expand, expandToken, valueOf] using expand_map_literal values value
    · simp [expandToken, valueOf, same, Ne.symm same]

variable {values : List (List Char × List Char)}

theorem valueOf_cases (fields : ∀ field ∈ values, Plain field.2) (name : List Char) :
    valueOf values name = none ∨ ∃ value, valueOf values name = some value ∧ Plain value := by
  rcases found : valueOf values name with _ | value
  · exact .inl rfl
  · obtain ⟨field, listed, rfl⟩ := Option.map_eq_some_iff.mp found
    exact .inr ⟨field.2, rfl, fields field (mem_of_find?_eq_some listed)⟩

theorem expand_nil (ts : List Token) : expand [] ts = ts := by
  unfold expand
  rw [flatMap_congr fun t _ => show expandToken [] t = [t] by cases t <;> rfl]
  exact flatMap_singleton' ts

/-- What stands outside the placeholders stays as it is. -/
theorem Apart.of_expand (apart : Apart (expand values ts)) : Apart ts := by
  rintro ⟨before, after, rfl⟩
  exact apart ⟨expand values before, expand values after, by simp [expand, expandToken]⟩

/-- **Filling in one name after the other is replacing all of them at once**, where that makes no pair
of opening braces. -/
theorem fillIn_of_apart (named : ∀ field ∈ values, IsName field.1)
    (names : ∀ name, .field name ∈ ts → IsName name) (apart : Apart (expand values ts)) :
    fillIn values (spell ts) = spell (expand values ts) := by
  induction values generalizing ts with
  | nil => rw [expand_nil]; rfl
  | cons field values ih =>
    have replaced : replaceAll (braced field.1) field.2 (spell ts) = spell (fill field.1 field.2 ts) :=
      replaceAll_spell (named field (.head _ ..)) names apart.of_expand
    rw [← expand_fill] at apart ⊢
    rw [← ih (fun f member => named f (.tail _ member))
      (fun name member => names name (field_mem_fill member)) apart, ← replaced]
    rfl

theorem head_expand (fields : ∀ field ∈ values, Plain field.2)
    (first : (expand values ts).head? = some (.literal '{')) : (strip ts).head? = some '{' := by
  induction ts with
  | nil => cases first
  | cons t ts ih =>
    cases t with
    | literal c =>
      cases first
      rfl
    | field name =>
      rcases valueOf_cases fields name with none | ⟨value, found, plain⟩
      · simp [expand, expandToken, none] at first
      cases value with
      | nil => exact ih (by simpa [expand, expandToken, found] using first)
      | cons c rest =>
        simp only [expand, flatMap_cons, expandToken, found] at first
        cases first
        exact absurd rfl (plain '{' (.head _ ..)).1

/-- **Plain values make no pair of opening braces.** -/
theorem apart_expand (fields : ∀ field ∈ values, Plain field.2) (clean : Pairless '{' (strip ts)) :
    Apart (expand values ts) := by
  induction ts with
  | nil => simp [Apart, expand]
  | cons t ts ih =>
    cases t with
    | literal c =>
      obtain ⟨alone, rest⟩ := pair_cons.mp clean
      exact pair_cons.mpr ⟨fun ⟨here, next⟩ => alone ⟨Token.literal.inj here, head_expand fields next⟩,
        ih rest⟩
    | field name =>
      refine pair_append (fun t member => ?_) (ih clean)
      rintro rfl
      rcases valueOf_cases fields name with none | ⟨value, found, plain⟩
      · simp [expandToken, none] at member
      · simp only [expandToken, found, mem_map] at member
        obtain ⟨c, inside, same⟩ := member
        exact (plain c inside).1 (Token.literal.inj same)

/-- Something of the token is left. -/
def Shows (values : List (List Char × List Char)) : Token → Prop
  | .literal _ => True
  | .field name => valueOf values name ≠ some []

theorem spell_ne_nil_iff (ts : List Token) : spell ts ≠ [] ↔ ts ≠ [] := by
  cases ts with
  | nil => simp
  | cons t ts => cases t <;> simp [Token.spell, braced]

/-- **The text is empty only if empty values are all that stood in the template.** -/
theorem expand_ne_nil (values : List (List Char × List Char)) (ts : List Token) :
    spell (expand values ts) ≠ [] ↔ ∃ t ∈ ts, Shows values t := by
  rw [spell_ne_nil_iff, expand, Ne, flatMap_eq_nil_iff]
  push Not
  refine exists_congr fun t => and_congr_right fun _ => ?_
  cases t with
  | literal c => simp [expandToken, Shows]
  | field name =>
    simp only [expandToken, Shows]
    rcases valueOf values name with _ | value
    · simp
    · simp

theorem valueOf_eq_some (distinct : (values.map Prod.fst).Nodup) {value : List Char} :
    valueOf values name = some value ↔ (name, value) ∈ values := by
  unfold valueOf
  rw [Option.map_eq_some_iff]
  constructor
  · rintro ⟨field, found, rfl⟩
    have same : field.1 = name := by simpa using find?_some found
    rw [← same]
    exact mem_of_find?_eq_some found
  · intro member
    rcases found : values.find? fun field => field.1 = name with _ | field
    · have missed := find?_eq_none.mp found _ member
      simp at missed
    have same : field.1 = name := by simpa using find?_some found
    have one := inj_on_of_nodup_map distinct (mem_of_find?_eq_some found) member same
    exact ⟨field, found, by rw [one]⟩

variable {values' : List (List Char × List Char)}

section Perm

variable (perm : values.Perm values') (distinct : (values.map Prod.fst).Nodup)

include perm distinct

/-- The order of the values does not matter where the names are distinct. -/
theorem valueOf_perm (name : List Char) : valueOf values name = valueOf values' name := by
  have distinct' : (values'.map Prod.fst).Nodup := (perm.map Prod.fst).nodup_iff.mp distinct
  refine Option.ext fun value => ?_
  rw [valueOf_eq_some distinct, valueOf_eq_some distinct', perm.mem_iff]

theorem expand_perm (ts : List Token) : expand values ts = expand values' ts := by
  refine flatMap_congr fun t _ => ?_
  cases t with
  | literal c => rfl
  | field name => simp only [expandToken, valueOf_perm perm distinct name]

end Perm

end Iterabase.Data.Template
