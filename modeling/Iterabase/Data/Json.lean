/-
**JSON values, as a Go program writes and reads them and Postgres stores them.**

* `Json.same` — equality of values, which is decided.
* `Json.stringField`, `Json.int64Field` — one field of a struct that `encoding/json` decodes an object
  into: an absent field or a null leaves the zero value, and a value of another type is an error.
-/

import Mathlib

namespace Iterabase.Data

inductive Json
  | null
  | bool (value : Bool)
  | number (value : Rat)
  | string (value : String)
  | array (items : List Json)
  | object (fields : List (String × Json))

mutual

def Json.same : Json → Json → Bool
  | .null, .null => true
  | .bool a, .bool b => a = b
  | .number a, .number b => a = b
  | .string a, .string b => a = b
  | .array as, .array bs => sameItems as bs
  | .object as, .object bs => sameFields as bs
  | _, _ => false

def sameItems : List Json → List Json → Bool
  | [], [] => true
  | a :: as, b :: bs => a.same b && sameItems as bs
  | _, _ => false

def sameFields : List (String × Json) → List (String × Json) → Bool
  | [], [] => true
  | (k, a) :: as, (l, b) :: bs => k = l && a.same b && sameFields as bs
  | _, _ => false

end

mutual

theorem Json.same_iff : ∀ a b : Json, a.same b = true ↔ a = b
  | .null, b => by cases b <;> simp [Json.same]
  | .bool a, b => by cases b <;> simp [Json.same]
  | .number a, b => by cases b <;> simp [Json.same]
  | .string a, b => by cases b <;> simp [Json.same]
  | .array as, b => by
      cases b with
      | array bs => simpa [Json.same] using sameItems_iff as bs
      | _ => simp [Json.same]
  | .object as, b => by
      cases b with
      | object bs => simpa [Json.same] using sameFields_iff as bs
      | _ => simp [Json.same]

theorem sameItems_iff : ∀ as bs : List Json, sameItems as bs = true ↔ as = bs
  | [], bs => by cases bs <;> simp [sameItems]
  | a :: as, bs => by
      cases bs with
      | nil => simp [sameItems]
      | cons b bs => simp [sameItems, Json.same_iff a b, sameItems_iff as bs]

theorem sameFields_iff : ∀ as bs : List (String × Json), sameFields as bs = true ↔ as = bs
  | [], bs => by cases bs <;> simp [sameFields]
  | (k, a) :: as, bs => by
      cases bs with
      | nil => simp [sameFields]
      | cons b bs => simp [sameFields, Json.same_iff a b.2, sameFields_iff as bs, Prod.ext_iff]

end

instance : DecidableEq Json := fun a b => decidable_of_iff _ (Json.same_iff a b)

def storableText (text : String) : Bool := Char.ofNat 0 ∉ text.toList

mutual

/-- The value can be stored in a `jsonb` column. -/
def Json.storable : Json → Bool
  | .string value => storableText value
  | .array items => storableItems items
  | .object fields => storableFields fields
  | _ => true

def storableItems : List Json → Bool
  | [] => true
  | item :: rest => item.storable && storableItems rest

def storableFields : List (String × Json) → Bool
  | [] => true
  | (name, value) :: rest => storableText name && value.storable && storableFields rest

end

/-- A JSON text. Some texts of valid values are no `jsonb` (a lone surrogate, an escaped U+0000, a
number out of range). -/
structure JsonText where
  value : Option Json
  jsonb : Bool
  deriving DecidableEq

def marshalJSON (value : Json) : JsonText := ⟨some value, value.storable⟩

/-- What a `jsonb` column holds after the text is written to it. -/
def JsonText.column (text : JsonText) : Option Json := if text.jsonb then text.value else none

theorem column_marshalJSON {value : Json} (storable : value.storable) :
    (marshalJSON value).column = some value := if_pos storable

namespace Json

def lookup (fields : List (String × Json)) (name : String) : Option Json :=
  (fields.find? fun field => field.1 = name).map Prod.snd

def stringField (fields : List (String × Json)) (name : String) : Option String :=
  match lookup fields name with
  | none | some .null => some ""
  | some (.string value) => some value
  | some _ => none

def int64Field (fields : List (String × Json)) (name : String) : Option Int64 :=
  match lookup fields name with
  | none | some .null => some 0
  | some (.number value) =>
      if value.den = 1 ∧ -2 ^ 63 ≤ value.num ∧ value.num < 2 ^ 63 then some (.ofInt value.num) else none
  | some _ => none

theorem int64Field_toInt {fields : List (String × Json)} {name : String} {size : Int64}
    (present : lookup fields name = some (.number size.toInt)) :
    int64Field fields name = some size := by
  simp only [int64Field, present]
  rw [if_pos]
  · rw [Rat.num_intCast, Int64.ofInt_toInt]
  · exact ⟨Rat.den_intCast _, Int64.le_toInt size, Int64.toInt_lt size⟩

end Json

end Iterabase.Data
