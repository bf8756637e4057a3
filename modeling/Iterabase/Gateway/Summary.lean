/-
**The tool gateway — the consequence summary of a write.**

`consequence.go`: a write tool carries a template for each locale, and the summary that is committed
with an invocation is the template filled in with the arguments of the call. The work graph shows the
summary to a customer who is asked to confirm the effect, and refuses one without a text.

* `summary_displayable_iff` — **which summaries are readable.**
* `rendering_simultaneous_iff` — **which are their template with every placeholder replaced at once.**
-/

import Iterabase.Data.Except
import Iterabase.Data.Template
import Iterabase.Gateway.Types
import Mathlib

namespace Iterabase.Gateway

open Data Template Option Char

/-! ### Argument documents -/

/-- The text of a JSON number, which `json.Number` keeps. -/
structure NumberText where
  text : String
  digits : text ≠ "" ∧ text.toList.all fun c => c.isDigit || c ∈ ['-', '+', '.', 'e', 'E']

/-- A value that a decoder with `UseNumber` returns. -/
inductive Document
  | null
  | bool (value : Bool)
  | number (value : NumberText)
  | string (value : String)
  | array (items : List Document)
  | object (fields : List (String × Document))

inductive PointerError
  | root
  | noSlash
  | escape
  | absent (pointer : String)
  | index (pointer : String)
  | scalar (pointer : String)

def decodePart : List Char → Option (List Char)
  | [] => some []
  | '~' :: '0' :: rest => (decodePart rest).map ('~' :: ·)
  | '~' :: '1' :: rest => (decodePart rest).map ('/' :: ·)
  | '~' :: _ => none
  | c :: rest => (decodePart rest).map (c :: ·)

def parseJSONPointer (pointer : String) : Except PointerError (List String) :=
  match pointer.toList with
  | [] => .error .root
  | '/' :: rest =>
      match (rest.splitOn '/').mapM decodePart with
      | none => .error .escape
      | some parts => .ok (parts.map String.ofList)
  | _ :: _ => .error .noSlash

def digitsValue (digits : List Char) : Option Nat :=
  if digits.isEmpty then none
  else if digits.all isDigit then
    some (digits.foldl (fun n c => 10 * n + (c.toNat - '0'.toNat)) 0)
  else none

/-- `strconv.Atoi`, up to its range: an index beyond it is beyond every array. -/
def atoi (part : String) : Option Int :=
  match part.toList with
  | '-' :: digits => (digitsValue digits).map fun n => -(n : Int)
  | '+' :: digits => (digitsValue digits).map Int.ofNat
  | digits => (digitsValue digits).map Int.ofNat

def Document.walk (pointer : String) : Document → List String → Except PointerError Document
  | value, [] => .ok value
  | .object fields, part :: rest =>
      match fields.find? fun field => field.1 = part with
      | none => .error (.absent pointer)
      | some (_, value) => value.walk pointer rest
  | .array items, part :: rest =>
      match atoi part with
      | none => .error (.index pointer)
      | some index =>
          if index < 0 then .error (.index pointer)
          else
            match items[index.toNat]? with
            | none => .error (.index pointer)
            | some value => value.walk pointer rest
  | _, _ :: _ => .error (.scalar pointer)
termination_by structural _ parts => parts

def resolveJSONPointer (value : Document) (pointer : String) : Except PointerError Document :=
  match parseJSONPointer pointer with
  | .error err => .error err
  | .ok parts => value.walk pointer parts

/-- The text of a customer-safe value. -/
def Document.scalar : Document → Option String
  | .string value => some value
  | .number value => some value.text
  | .bool true => some "true"
  | .bool false => some "false"
  | .null | .array _ | .object _ => none

/-! ### Descriptors -/

structure ConsequenceTemplate where
  localizedTemplates : List (String × String)
  argumentPaths : List (String × String)
  locales : (localizedTemplates.map Prod.fst).Nodup
  paths : (argumentPaths.map Prod.fst).Nodup

/-- The bytes of `consequence_summary_template`, as far as they are read. -/
structure TemplateText where
  blank : Bool
  decoded : Option ConsequenceTemplate

structure Descriptor extends ToolVersion where
  consequenceTemplate : TemplateText
  /-- What `json.Unmarshal` reads as the strategy. -/
  strategy : Option String := none

inductive SummaryError
  | templateInvalid (tool : String)
  | templatesRequired (tool : String)
  | templateTooLong (tool locale : String)
  | placeholderInvalid (tool locale : String)
  | pathRequired (tool field : String)
  | pathInvalid (tool field : String) (err : PointerError)
  | pathUnused (tool field locale : String)
  | proofRequired (tool : String)
  | proofInvalid (tool : String)
  | strategyUnproven (tool strategy : String)
  | argumentsInvalid
  | fieldUnresolved (field : String) (err : PointerError)
  | fieldUnsafe (field : String)
  | localeUnresolved (locale : String)
  | summaryTooLong
  | summaryInvalid
  | textsMissing

def PointerError.text (quote : String → String) : PointerError → String
  | .root => "root pointer is not allowed"
  | .noSlash => "must begin with /"
  | .escape => "contains an invalid ~ escape"
  | .absent pointer => "path " ++ quote pointer ++ " is absent"
  | .index pointer => "path " ++ quote pointer ++ " has an invalid array index"
  | .scalar pointer => "path " ++ quote pointer ++ " traverses a scalar"

/-- What the caller reads, with `strconv.Quote` and up to the texts of `encoding/json`. -/
def SummaryError.text (quote : String → String) : SummaryError → String
  | .templateInvalid tool => s!"tool {tool}: consequence_summary_template is not valid JSON"
  | .templatesRequired tool =>
      s!"tool {tool}: write tools require non-empty en and pt consequence summary templates"
  | .templateTooLong tool locale =>
      s!"tool {tool}: consequence template " ++ quote locale ++ " exceeds 1000 bytes"
  | .placeholderInvalid tool locale =>
      s!"tool {tool}: consequence template " ++ quote locale ++ " contains an invalid placeholder"
  | .pathRequired tool field =>
      s!"tool {tool}: consequence placeholder " ++ quote field ++ " requires an RFC 6901 argument path"
  | .pathInvalid tool field err =>
      s!"tool {tool}: consequence argument path for " ++ quote field ++ ": " ++ err.text quote
  | .pathUnused tool field locale =>
      s!"tool {tool}: consequence argument path " ++ quote field ++ " is not used by locale " ++
        quote locale
  | .proofRequired tool => s!"tool {tool}: idempotent_write requires a non-empty idempotency_proof"
  | .proofInvalid tool => s!"tool {tool}: idempotency_proof is not valid JSON"
  | .strategyUnproven tool strategy =>
      s!"tool {tool}: idempotent_write requires idempotency_proof.strategy=upstream_key in v1 " ++
        "(gateway-derived stable key); " ++ quote strategy ++
        " is not gateway-provable (ARCH-014 fail-closed)"
  | .argumentsInvalid => "decode consequence arguments"
  | .fieldUnresolved field err => "render consequence field " ++ quote field ++ ": " ++ err.text quote
  | .fieldUnsafe field =>
      "render consequence field " ++ quote field ++
        ": only string, number, or boolean values are customer-safe"
  | .localeUnresolved locale =>
      "render consequence locale " ++ quote locale ++ " left an unresolved placeholder"
  | .summaryTooLong => "rendered consequence summary exceeds 2000 bytes"
  | .summaryInvalid => "invalid customer-safe consequence summary"
  | .textsMissing => "customer-safe consequence summary requires en and pt text"

/-! ### Templates -/

def mapGet (entries : List (String × String)) (key : String) : Option String :=
  (entries.find? fun entry => entry.1 = key).map Prod.snd

def isSpace (c : Char) : Bool :=
  c ∈ ['\t', '\n', ofNat 0x0B, ofNat 0x0C, '\r', ' ', ofNat 0x85, ofNat 0xA0,
      ofNat 0x1680, ofNat 0x2028, ofNat 0x2029, ofNat 0x202F, ofNat 0x205F,
      ofNat 0x3000] ||
    (0x2000 ≤ c.toNat && c.toNat ≤ 0x200A)

def blankText (text : String) : Bool := text.toList.all isSpace

def checkPlaceholder (tool : String) (paths : List (String × String)) (name : List Char) :
    Except SummaryError Unit :=
  match mapGet paths (.ofList name) with
  | none => .error (.pathRequired tool (.ofList name))
  | some path =>
      if path.toList.head? ≠ some '/' then .error (.pathRequired tool (.ofList name))
      else
        match parseJSONPointer path with
        | .error err => .error (.pathInvalid tool (.ofList name) err)
        | .ok _ => .ok ()

def checkLocale (tool : String) (paths : List (String × String)) (entry : String × String) :
    Except SummaryError Unit := do
  let ts := tokens entry.2.toList
  if 1000 < entry.2.utf8ByteSize then throw (.templateTooLong tool entry.1)
  if ¬ (Pairless '{' (strip ts) ∧ Pairless '}' (strip ts)) then
    throw (.placeholderInvalid tool entry.1)
  (fields ts).forM (checkPlaceholder tool paths)
  paths.forM fun path =>
    if path.1.toList ∈ fields ts then .ok () else .error (.pathUnused tool path.1 entry.1)

/-- `validateConsequenceTemplate`. The paths are gone through in the order of the map. -/
def validateConsequenceTemplate (d : Descriptor) : Except SummaryError Unit := do
  if d.effectClass = .readOnly ∧ d.consequenceTemplate.blank then return ()
  match d.consequenceTemplate.decoded with
  | none => throw (.templateInvalid d.name)
  | some template =>
      if d.effectClass ≠ .readOnly ∧
          (blankText ((mapGet template.localizedTemplates "en").getD "") ∨
            blankText ((mapGet template.localizedTemplates "pt").getD "")) then
        throw (.templatesRequired d.name)
      (template.localizedTemplates.insertionSort fun a b => a.1 ≤ b.1).forM
        (checkLocale d.name template.argumentPaths)

/-- `validateToolVersion`. Every effect class of the model is a concrete one. -/
def validateToolVersion (d : Descriptor) : Except SummaryError Unit := do
  validateConsequenceTemplate d
  if d.effectClass = .idempotentWrite then
    if d.idempotencyProof = "" ∨ d.idempotencyProof = "null" then throw (.proofRequired d.name)
    match d.strategy with
    | none => throw (.proofInvalid d.name)
    | some strategy =>
        if strategy ≠ "upstream_key" then throw (.strategyUnproven d.name strategy)

/-! ### Rendering -/

/-- The orders in which the fields of a map are handed out, one for each locale. -/
structure MapOrder where
  order : String → List (String × String) → List (String × String)
  perm : ∀ locale fields, (order locale fields).Perm fields

def resolveField (value : Document) (path : String × String) : Except SummaryError (String × String) :=
  match resolveJSONPointer value path.2 with
  | .error err => .error (.fieldUnresolved path.1 err)
  | .ok resolved =>
      match resolved.scalar with
      | none => .error (.fieldUnsafe path.1)
      | some text => .ok (path.1, text)

def charFields (fields : List (String × String)) : List (List Char × List Char) :=
  fields.map fun field => (field.1.toList, field.2.toList)

def renderLocale (iteration : MapOrder) (fields : List (String × String)) (entry : String × String) :
    Except SummaryError (String × String) :=
  let text := fillIn (charFields (iteration.order entry.1 fields)) entry.2.toList
  if Pairless '{' text ∧ Pairless '}' text then .ok (entry.1, .ofList text)
  else .error (.localeUnresolved entry.1)

/-- The bytes `encoding/json` writes for a character of a string. -/
def quotedSize (c : Char) : Nat :=
  if c ∈ ['"', '\\', '\n', '\r', '\t', Char.ofNat 8, Char.ofNat 12] then 2
  else if c.toNat < 0x20 ∨ c ∈ ['<', '>', '&', Char.ofNat 0x2028, Char.ofNat 0x2029] then 6
  else c.utf8Size

def quotedStringSize (text : String) : Nat := 2 + (text.toList.map quotedSize).sum

def marshalledSize (entries : List (String × String)) : Nat :=
  2 + (entries.map fun entry => quotedStringSize entry.1 + 1 + quotedStringSize entry.2).sum +
    (entries.length - 1)

/-- `renderConsequenceSummary`: the map it encodes, or none for a read-only tool. No document is one
that does not decode. -/
def renderConsequenceSummary (iteration : MapOrder) (d : Descriptor) (arguments : Option Document) :
    Except SummaryError (Option (List (String × String))) := do
  if d.effectClass = .readOnly then return none
  validateConsequenceTemplate d
  match d.consequenceTemplate.decoded, arguments with
  | none, _ => throw (.templateInvalid d.name)
  | some _, none => throw .argumentsInvalid
  | some template, some value =>
      let fields ← template.argumentPaths.mapM (resolveField value)
      let out ← template.localizedTemplates.mapM (renderLocale iteration fields)
      if 2000 < marshalledSize out then throw .summaryTooLong
      return some out

/-- The object that is committed. -/
def summaryJSON (entries : List (String × String)) : Json :=
  .object (entries.map fun entry => (entry.1, .string entry.2))

/-! ### The reader -/

/-- `json.Unmarshal` into a map of strings: a null leaves an entry empty. -/
def decodeEntries : List (String × Json) → Option (List (String × String))
  | [] => some []
  | (key, .string value) :: rest => (decodeEntries rest).map ((key, value) :: ·)
  | (key, .null) :: rest => (decodeEntries rest).map ((key, "") :: ·)
  | _ :: _ => none

def decodeMap : Json → Option (List (String × String))
  | .null => some []
  | .object entries => decodeEntries entries
  | _ => none

def validateConsequenceSummary (summary : Json) : Except SummaryError Unit :=
  match decodeMap summary with
  | none => .error .summaryInvalid
  | some localized =>
      if (mapGet localized "en").getD "" = "" ∨ (mapGet localized "pt").getD "" = "" then
        .error .textsMissing
      else .ok ()

theorem decodeMap_summaryJSON (entries : List (String × String)) :
    decodeMap (summaryJSON entries) = some entries := by
  unfold decodeMap summaryJSON
  induction entries with
  | nil => rfl
  | cons entry rest ih =>
    simp only [List.map_cons, decodeEntries] at ih ⊢
    rw [ih]
    rfl

theorem validateConsequenceSummary_summaryJSON (entries : List (String × String)) :
    validateConsequenceSummary (summaryJSON entries) = .ok () ↔ (mapGet entries "en").getD "" ≠ "" ∧
    (mapGet entries "pt").getD "" ≠ "" := by
  unfold validateConsequenceSummary
  rw [decodeMap_summaryJSON]
  dsimp only
  split
  · rename_i missing
    rw [← not_or]
    exact ⟨nofun, fun present => absurd missing present⟩
  · rename_i present
    rw [← not_or]
    exact ⟨fun _ => present, fun _ => rfl⟩

/-! ### Valid templates -/

/-- What is used of a valid template of a write. -/
structure ConsequenceTemplate.Valid (template : ConsequenceTemplate) : Prop where
  english : ∃ text, mapGet template.localizedTemplates "en" = some text
  portuguese : ∃ text, mapGet template.localizedTemplates "pt" = some text
  clean : ∀ entry ∈ template.localizedTemplates, Pairless '{' (strip (tokens entry.2.toList))
  used : ∀ entry ∈ template.localizedTemplates, ∀ path ∈ template.argumentPaths,
    path.1.toList ∈ fields (tokens entry.2.toList)

variable {entries out paths : List (String × String)} {entry : String × String}

theorem checkLocale_ok {tool : String} (checked : checkLocale tool paths entry = .ok ()) :
    Pairless '{' (strip (tokens entry.2.toList)) ∧
    ∀ path ∈ paths, path.1.toList ∈ fields (tokens entry.2.toList) := by
  simp only [checkLocale, guard_ok, bind_ok, not_not] at checked
  obtain ⟨_, pairs, _, _, checked⟩ := checked
  refine ⟨pairs.1, fun path member => ?_⟩
  have used := forM_eq_ok.mp checked path member
  by_contra missing
  rw [if_neg missing] at used
  cases used

theorem mapGet_of_not_blank {key : String} (present : ¬ blankText ((mapGet entries key).getD "")) :
    ∃ text, mapGet entries key = some text := by
  rcases found : mapGet entries key with _ | text
  · rw [found] at present
    exact absurd rfl present
  · exact ⟨text, rfl⟩

variable {d : Descriptor} {template : ConsequenceTemplate}

theorem validateConsequenceTemplate_ok
    (write : d.effectClass ≠ .readOnly) (decoded : d.consequenceTemplate.decoded = some template)
    (valid : validateConsequenceTemplate d = .ok ()) : template.Valid := by
  simp only [validateConsequenceTemplate, write, false_and, if_false, decoded, ne_eq,
    not_false_eq_true, true_and, guard_ok, not_or] at valid
  obtain ⟨⟨english, portuguese⟩, valid⟩ := valid
  have checked : ∀ entry ∈ template.localizedTemplates,
      checkLocale d.name template.argumentPaths entry = .ok () := fun entry member =>
    forM_eq_ok.mp valid entry ((List.mem_insertionSort _).mpr member)
  exact ⟨mapGet_of_not_blank english, mapGet_of_not_blank portuguese,
    fun entry member => (checkLocale_ok (checked entry member)).1,
    fun entry member => (checkLocale_ok (checked entry member)).2⟩

/-! ### What is rendered -/

def resolveFields (d : Descriptor) (arguments : Option Document) :
    Option (ConsequenceTemplate × List (String × String)) :=
  match d.consequenceTemplate.decoded, arguments with
  | some template, some value =>
      match template.argumentPaths.mapM (resolveField value) with
      | .ok fields => some (template, fields)
      | .error _ => none
  | _, _ => none

variable {iteration : MapOrder} {arguments : Option Document}

theorem renderConsequenceSummary_eq_some
    (rendered : renderConsequenceSummary iteration d arguments = .ok (some out)) :
    ∃ template value fields, resolveFields d arguments = some (template, fields) ∧ template.Valid ∧
    template.argumentPaths.mapM (resolveField value) = .ok fields ∧
    template.localizedTemplates.mapM (renderLocale iteration fields) = .ok out := by
  unfold renderConsequenceSummary at rendered
  split at rendered
  · cases rendered
  rename_i write
  replace ⟨_, valid, rendered⟩ := bind_ok.mp rendered
  split at rendered
  · cases rendered
  · cases rendered
  rename_i template value decoded
  simp only [bind_ok, guard_ok, return_ok, some.injEq] at rendered
  obtain ⟨fields, resolved, _, filled, _, rfl⟩ := rendered
  refine ⟨template, value, fields, ?_, validateConsequenceTemplate_ok write decoded valid,
    resolved, filled⟩
  simp only [resolveFields, decoded, resolved]

/-- The text of a locale, filled in one field after the other. -/
def filledText (iteration : MapOrder) (d : Descriptor) (arguments : Option Document)
    (locale : String) : List Char :=
  match resolveFields d arguments with
  | none => []
  | some (template, fields) =>
      fillIn (charFields (iteration.order locale fields))
        ((mapGet template.localizedTemplates locale).getD "").toList

/-- The template of a locale has a literal character, or shows an argument that is not empty. -/
def ShowsText (d : Descriptor) (arguments : Option Document) (locale : String) : Prop :=
  ∃ template fields, resolveFields d arguments = some (template, fields) ∧
    ∃ t ∈ tokens ((mapGet template.localizedTemplates locale).getD "").toList,
      Shows (charFields fields) t

/-- No argument that the template shows carries a brace. -/
def PlainArguments (d : Descriptor) (arguments : Option Document) : Prop :=
  ∀ template fields, resolveFields d arguments = some (template, fields) →
    ∀ field ∈ fields, Plain field.2.toList

variable {fields : List (String × String)}

theorem mapGet_map (f : String → String → String) (entries : List (String × String)) (key : String) :
    mapGet (entries.map fun entry => (entry.1, f entry.1 entry.2)) key = (mapGet entries key).map (f key) := by
  induction entries with
  | nil => rfl
  | cons entry entries ih =>
    unfold mapGet at ih ⊢
    by_cases same : entry.1 = key
    · subst same
      simp
    · simpa [same] using ih

theorem ofList_ne_empty {text : List Char} : String.ofList text ≠ "" ↔ text ≠ [] := by
  rw [Ne, Ne, ← String.toList_inj, String.toList_ofList]
  rfl

variable {value : Document}

theorem resolveField_names
    (resolved : List.Forall₂ (fun path field => resolveField value path = .ok field) paths fields) :
    fields.map Prod.fst = paths.map Prod.fst := by
  induction resolved with
  | nil => rfl
  | @cons path field paths fields here _ ih =>
    have same : field.1 = path.1 := by
      unfold resolveField at here
      split at here
      · cases here
      split at here
      · cases here
      · cases here
        rfl
    rw [List.map_cons, List.map_cons, same, ih]

theorem charFields_names (fields : List (String × String)) :
    (charFields fields).map Prod.fst = (fields.map Prod.fst).map String.toList := by
  simp [charFields]

/-- The fields of a valid template have names of their own. -/
theorem ConsequenceTemplate.Valid.named (valid : template.Valid)
    (resolved : template.argumentPaths.mapM (resolveField value) = .ok fields) :
    (∀ field ∈ charFields fields, IsName field.1) ∧ ((charFields fields).map Prod.fst).Nodup := by
  have names := resolveField_names (mapM_eq_ok.mp resolved)
  obtain ⟨text, english⟩ := valid.english
  obtain ⟨entry, listed, _⟩ := map_eq_some_iff.mp english
  have member := List.mem_of_find?_eq_some listed
  refine ⟨fun field inside => ?_, ?_⟩
  · obtain ⟨field', here, rfl⟩ := List.mem_map.mp inside
    have key : field'.1 ∈ template.argumentPaths.map Prod.fst := by
      rw [← names]
      exact List.mem_map_of_mem here
    obtain ⟨path, bound, same⟩ := List.mem_map.mp key
    rw [← same]
    exact (tokens_spec _).2 _ (mem_fields.mp (valid.used entry member path bound))
  · rw [charFields_names, names]
    exact template.paths.map fun _ _ => String.toList_inj.mp

/-! ### Simultaneous substitution -/

/-- A template with every placeholder replaced in one pass. -/
def substitute (fields : List (String × String)) (entry : String × String) : String × String :=
  (entry.1, .ofList (spell (expand (charFields fields) (tokens entry.2.toList))))

def simultaneous (d : Descriptor) (arguments : Option Document) : Option (List (String × String)) :=
  (resolveFields d arguments).map fun (template, fields) =>
    template.localizedTemplates.map (substitute fields)

/-- No argument makes a pair of opening braces, alone or with what it stands next to. -/
def Unpaired (d : Descriptor) (arguments : Option Document) : Prop :=
  ∀ texts, simultaneous d arguments = some texts → ∀ entry ∈ texts, Pairless '{' entry.2.toList

theorem simultaneous_eq (resolved : resolveFields d arguments = some (template, fields)) :
    simultaneous d arguments = some (template.localizedTemplates.map (substitute fields)) := by
  rw [simultaneous, resolved]
  rfl

theorem renderLocale_ok {result : String × String} (rendered : renderLocale iteration fields entry = .ok result) :
    result = (entry.1, .ofList (fillIn (charFields (iteration.order entry.1 fields)) entry.2.toList)) ∧
      Pairless '{' result.2.toList := by
  unfold renderLocale at rendered
  dsimp only at rendered
  split at rendered
  · rename_i pairless
    cases rendered
    exact ⟨rfl, by rw [String.toList_ofList]; exact pairless.1⟩
  · cases rendered

section Rendered

variable (named : ∀ field ∈ charFields fields, IsName field.1)
  (distinct : ((charFields fields).map Prod.fst).Nodup)

include named distinct

theorem renderLocale_apart {result : String × String} (rendered : renderLocale iteration fields entry = .ok result)
    (apart : Apart (expand (charFields fields) (tokens entry.2.toList))) : result = substitute fields entry := by
  have perm : (charFields fields).Perm (charFields (iteration.order entry.1 fields)) :=
    ((iteration.perm entry.1 fields).map _).symm
  obtain ⟨spelled, names⟩ := tokens_spec entry.2.toList
  rw [expand_perm perm distinct] at apart
  have filled := fillIn_of_apart (fun field member => named field (perm.mem_iff.mpr member)) names apart
  rw [(renderLocale_ok rendered).1, substitute, expand_perm perm distinct, ← filled, spelled]

theorem renderLocale_substitute {result : String × String}
    (rendered : renderLocale iteration fields entry = .ok result) :
    result = substitute fields entry ↔ Pairless '{' (substitute fields entry).2.toList := by
  constructor
  · intro same
    rw [← same]
    exact (renderLocale_ok rendered).2
  · intro alone
    unfold substitute at alone
    rw [String.toList_ofList] at alone
    exact renderLocale_apart named distinct rendered (apart_of_pairless alone)

variable (rendered : List.Forall₂ (fun entry result => renderLocale iteration fields entry = .ok result) entries out)

include rendered

/-- **Every text is its substituted template** exactly where that makes no pair of braces. -/
theorem rendered_substitute : out = entries.map (substitute fields) ↔
    ∀ entry ∈ entries.map (substitute fields), Pairless '{' entry.2.toList := by
  induction rendered with
  | nil => simp
  | cons here _ ih =>
    rw [List.map_cons, List.cons.injEq, List.forall_mem_cons]
    exact and_congr (renderLocale_substitute named distinct here) ih

theorem rendered_pairless
    (apart : ∀ entry ∈ entries, Apart (expand (charFields fields) (tokens entry.2.toList))) :
    ∀ entry ∈ entries.map (substitute fields), Pairless '{' entry.2.toList := by
  induction rendered with
  | nil => simp
  | cons here _ ih =>
    rw [List.map_cons, List.forall_mem_cons]
    have first := renderLocale_apart named distinct here (apart _ (.head _))
    exact ⟨(renderLocale_substitute named distinct here).mp first, ih fun entry member => apart entry (.tail _ member)⟩

end Rendered

theorem rendered_eq
    (rendered : List.Forall₂ (fun entry result => renderLocale iteration fields entry = .ok result) entries out) :
    out = entries.map fun entry =>
      (entry.1, .ofList (fillIn (charFields (iteration.order entry.1 fields)) entry.2.toList)) := by
  induction rendered with
  | nil => rfl
  | cons here _ ih => rw [List.map_cons, ← ih, (renderLocale_ok here).1]

theorem showsText_iff {locale text : String} (resolved : resolveFields d arguments = some (template, fields))
    (found : mapGet template.localizedTemplates locale = some text) : ShowsText d arguments locale ↔
    ∃ t ∈ tokens text.toList, Shows (charFields fields) t := by
  unfold ShowsText
  constructor
  · rintro ⟨template', fields', resolved', shows⟩
    rw [resolved] at resolved'
    cases resolved'
    rwa [found] at shows
  · exact fun shows => ⟨template, fields, resolved, by rwa [found]⟩

/-- **A committed summary is readable exactly where both texts are left with a character**: the work graph
accepts it iff neither the English nor the Portuguese text is filled in to nothing. Where the substituted
texts have no pair of opening braces, as where no argument carries a brace, these are the templates that
have a literal character or show an argument that is not empty. -/
theorem summary_displayable_iff (iteration : MapOrder) (d : Descriptor) (arguments : Option Document)
    {out : List (String × String)} {summary : Json}
    (rendered : renderConsequenceSummary iteration d arguments = .ok (some out))
    (stored : (marshalJSON (summaryJSON out)).column = some summary) :
    (validateConsequenceSummary summary = .ok () ↔
      filledText iteration d arguments "en" ≠ [] ∧ filledText iteration d arguments "pt" ≠ []) ∧
    (Unpaired d arguments → (validateConsequenceSummary summary = .ok () ↔
      ShowsText d arguments "en" ∧ ShowsText d arguments "pt")) ∧
    (PlainArguments d arguments → Unpaired d arguments) := by
  have same : summaryJSON out = summary := by
    unfold JsonText.column at stored
    split at stored
    · exact some.inj stored
    · cases stored
  subst same
  obtain ⟨template, value, fields, resolved, valid, each, filled⟩ :=
    renderConsequenceSummary_eq_some rendered
  obtain ⟨named, distinct⟩ := valid.named each
  have entries := mapM_eq_ok.mp filled
  obtain ⟨english, foundEnglish⟩ := valid.english
  obtain ⟨portuguese, foundPortuguese⟩ := valid.portuguese
  rw [validateConsequenceSummary_summaryJSON]
  refine ⟨?_, fun unpaired => ?_, fun plain texts made => ?_⟩
  · have read : ∀ locale text, mapGet template.localizedTemplates locale = some text →
        ((mapGet out locale).getD "" ≠ "" ↔ filledText iteration d arguments locale ≠ []) := by
      intro locale text found
      rw [rendered_eq entries, mapGet_map fun locale text =>
        .ofList (fillIn (charFields (iteration.order locale fields)) text.toList)]
      simp only [filledText, resolved, found, map_some, getD_some, ofList_ne_empty]
    rw [read "en" english foundEnglish, read "pt" portuguese foundPortuguese]
  · have substituted := (rendered_substitute named distinct entries).mpr (unpaired _ (simultaneous_eq resolved))
    have read : ∀ locale text, mapGet template.localizedTemplates locale = some text →
        ((mapGet out locale).getD "" ≠ "" ↔ ShowsText d arguments locale) := by
      intro locale text found
      rw [substituted, showsText_iff resolved found, ← expand_ne_nil]
      unfold substitute
      rw [mapGet_map fun _ text => .ofList (spell (expand (charFields fields) (tokens text.toList))), found]
      exact ofList_ne_empty
    rw [read "en" english foundEnglish, read "pt" portuguese foundPortuguese]
  · rw [simultaneous_eq resolved] at made
    cases made
    exact rendered_pairless named distinct entries fun entry member =>
      apart_expand (List.forall_mem_map.mpr (plain template fields resolved)) (valid.clean entry member)

/-- **Rendering is simultaneous substitution** exactly where the substituted texts have no pair of opening
braces: where no argument makes one, alone or with what it stands next to. -/
theorem rendering_simultaneous_iff (iteration : MapOrder) (d : Descriptor) (arguments : Option Document)
    {out : List (String × String)}
    (rendered : renderConsequenceSummary iteration d arguments = .ok (some out)) :
    ∃ texts, simultaneous d arguments = some texts ∧
      (out = texts ↔ ∀ entry ∈ texts, Pairless '{' entry.2.toList) := by
  obtain ⟨template, value, fields, resolved, valid, each, filled⟩ :=
    renderConsequenceSummary_eq_some rendered
  obtain ⟨named, distinct⟩ := valid.named each
  exact ⟨_, simultaneous_eq resolved, rendered_substitute named distinct (mapM_eq_ok.mp filled)⟩

def MapOrder.listed : MapOrder := ⟨fun _ fields => fields, fun _ _ => .refl _⟩

/-- A write whose summary is its subject, after this text. -/
def sendMail (text : String) : Descriptor where
  name := "mail.send"
  digest := "d"
  effectClass := .nonIdempotentWrite
  consequenceTemplate := ⟨false, some
    { localizedTemplates := [("en", text ++ "\x7b\x7bsubject\x7d\x7d"),
        ("pt", text ++ "\x7b\x7bsubject\x7d\x7d")]
      argumentPaths := [("subject", "/subject")]
      locales := by simp
      paths := by simp }⟩

def subject (text : String) : Document := .object [("subject", .string text)]

/-- A literal text stands before an argument that is empty. -/
theorem summary_displayable_literal :
    renderConsequenceSummary .listed (sendMail "Mail: ") (some (subject "")) =
      .ok (some [("en", "Mail: "), ("pt", "Mail: ")]) ∧
    validateConsequenceSummary (summaryJSON [("en", "Mail: "), ("pt", "Mail: ")]) = .ok () := by
  have rendered : renderConsequenceSummary .listed (sendMail "Mail: ") (some (subject "")) =
      .ok (some [("en", "Mail: "), ("pt", "Mail: ")]) := by rfl
  have left := (summary_displayable_iff .listed (sendMail "Mail: ") (some (subject "")) rendered
    (column_marshalJSON (by decide))).1
  exact ⟨rendered, left.mpr ⟨by decide, by decide⟩⟩

/-- **A write whose summary nobody can read.** The template of each locale is the placeholder alone,
which is no blank text, and the argument is an empty string. -/
theorem summary_of_empty_argument : ¬ ∀ (iteration : MapOrder) (d : Descriptor)
    (arguments : Option Document) (out : List (String × String)) (summary : Json),
    validateToolVersion d = .ok () → d.effectClass ≠ .readOnly →
    renderConsequenceSummary iteration d arguments = .ok (some out) →
    (marshalJSON (summaryJSON out)).column = some summary →
    validateConsequenceSummary summary = .ok () := by
  intro claim
  have accepted := claim .listed (sendMail "") (some (subject "")) [("en", ""), ("pt", "")] _ (by rfl)
    (by decide) (by rfl) (column_marshalJSON (by decide))
  have refused : validateConsequenceSummary (summaryJSON [("en", ""), ("pt", "")]) =
      .error .textsMissing := by rfl
  cases accepted

/-- A transfer whose summary names its two accounts. -/
def transfer : Descriptor where
  name := "bank.transfer"
  digest := "d"
  effectClass := .nonIdempotentWrite
  consequenceTemplate := ⟨false, some
    { localizedTemplates := [("en", "\x7b\x7bsource\x7d\x7d to \x7b\x7btarget\x7d\x7d"),
        ("pt", "\x7b\x7bsource\x7d\x7d para \x7b\x7btarget\x7d\x7d")]
      argumentPaths := [("source", "/source"), ("target", "/target")]
      locales := by simp
      paths := by simp }⟩

def accounts (source target : String) : Document :=
  .object [("source", .string source), ("target", .string target)]

/-- A single brace in an argument stays where it is. -/
theorem rendering_simultaneous_brace :
    renderConsequenceSummary .listed transfer (some (accounts "\x7ba\x7d" "b")) =
      .ok (some [("en", "\x7ba\x7d to b"), ("pt", "\x7ba\x7d para b")]) ∧
    simultaneous transfer (some (accounts "\x7ba\x7d" "b")) =
      some [("en", "\x7ba\x7d to b"), ("pt", "\x7ba\x7d para b")] := by
  have rendered : renderConsequenceSummary .listed transfer (some (accounts "\x7ba\x7d" "b")) =
      .ok (some [("en", "\x7ba\x7d to b"), ("pt", "\x7ba\x7d para b")]) := by rfl
  obtain ⟨texts, made, same⟩ := rendering_simultaneous_iff .listed transfer _ rendered
  cases made
  exact ⟨rendered, congrArg some (same.mpr (by decide)).symm⟩

/-- **An argument that is read as a placeholder**: the customer is shown a transfer from the target. -/
theorem rendering_not_simultaneous : ¬ ∀ (iteration : MapOrder) (d : Descriptor)
    (arguments : Option Document) (out : List (String × String)), validateConsequenceTemplate d = .ok () →
    renderConsequenceSummary iteration d arguments = .ok (some out) →
    simultaneous d arguments = some out := by
  intro claim
  have same := claim .listed transfer (some (accounts "\x7b\x7btarget\x7d\x7d" "b"))
    [("en", "b to b"), ("pt", "b para b")] (by rfl) (by rfl)
  revert same
  decide

end Iterabase.Gateway
