/-
**The value of an item is counted once.**

A first attempt that completes earns its item a credit, in the transaction that completes it, from the
snapshot of a value model that it was created with. Feedback takes the credit back. The two are inserted
by different commands, each unless the item has one already.

* `ValueModel.amount_exact`, `ValueModel.amount_near` — **what a credit amounts to**: the quotient of two
  decimals, which Postgres rounds once or twice.
* `model_creditable_iff` — **which accepted value models can be credited.**
* `value_accounted` — **the ledger adds up for every item, in every state the engine reaches.**
-/

import Iterabase.Gateway.Summary
import Iterabase.Work.Commands
import Iterabase.Work.Coherence

namespace Iterabase.Work

open Conc Data Workflow List State Table Numeric Nat
open Gateway (digitsValue)

/-! ### Amounts -/

namespace ValueModel

variable (model : ValueModel)

/-- `baselineSeconds * loadedHourlyCost`, in millionths. -/
def labor : Nat := model.baselineSeconds * model.loadedHourlyCost

/-- The decimals of the quotient beyond the sixth. -/
def surplus : Nat := Numeric.divScale ⟨model.labor, 6⟩ ⟨3600, 0⟩ - 6

theorem amount_twice :
    model.amount = roundDiv (roundDiv (model.labor * 10 ^ model.surplus) 3600) (10 ^ model.surplus) :=
  Numeric.rescale_div (x := ⟨model.labor, 6⟩) (y := ⟨3600, 0⟩) (le_of_ble_eq_true rfl) rfl

/-- The quotient has twelve decimals or more while it is below 10⁸. -/
theorem surplus_of_small (small : model.labor < 3601 * 10 ^ 14) : 6 ≤ model.surplus := by
  have divisor : Numeric.weight ⟨3600, 0⟩ = 0 ∧ Numeric.firstDigit ⟨3600, 0⟩ = 3600 := by decide +kernel
  have aligned : Numeric.aligned ⟨model.labor, 6⟩ = model.labor * 100 := by norm_num [Numeric.aligned]
  have light : Numeric.divWeight ⟨model.labor, 6⟩ ⟨3600, 0⟩ ≤ 1 := by
    unfold divWeight
    rw [divisor.1, divisor.2]
    by_cases zero : model.labor = 0
    · unfold weight
      split <;> omega
    have weight : Numeric.weight ⟨model.labor, 6⟩ = (log 10000 (model.labor * 100) : Int) - 2 := by
      unfold weight
      rw [if_neg zero, aligned]
      norm_num
    have groups : log 10000 (model.labor * 100) < 5 :=
      (log_lt_iff_lt_pow (by decide) (by omega)).mpr (by norm_num; omega)
    by_cases four : log 10000 (model.labor * 100) = 4
    · -- the first digit is at most that of the divisor
      have digit : Numeric.firstDigit ⟨model.labor, 6⟩ ≤ 3600 := by
        unfold firstDigit
        rw [aligned, four]
        omega
      omega
    · split <;> omega
  unfold surplus divScale
  omega

/-- **A credit of at most 10⁸ is the quotient, rounded to six decimals.** -/
theorem amount_exact (small : model.labor < 3601 * 10 ^ 14) :
    model.amount = roundDiv model.labor 3600 := by
  have fine := model.surplus_of_small small
  rw [amount_twice]
  refine roundDiv_twice (by decide) (dvd_pow (by decide) (by omega)) ?_
  calc 3600 < 10 ^ 6 := by decide
    _ ≤ 10 ^ model.surplus := Nat.pow_le_pow_right (by decide) fine

/-- **Every credit is within a millionth of it.** -/
theorem amount_near :
    roundDiv model.labor 3600 ≤ model.amount ∧ model.amount ≤ roundDiv model.labor 3600 + 1 := by
  rw [amount_twice]
  cases decimals : model.surplus with
  | zero =>
    rw [pow_zero, roundDiv_one, mul_one]
    exact ⟨le_rfl, le_succ _⟩
  | succ n =>
    have even : 2 ∣ 10 ^ (n + 1) := dvd_pow (by decide) (by omega)
    have some : 0 < 10 ^ (n + 1) := Nat.pow_pos (by decide)
    exact ⟨roundDiv_le_twice (by decide) some even, roundDiv_twice_le_succ (by decide) some even⟩

/-- A quotient of 10¹² or more has the six decimals of the column. -/
theorem surplus_of_large (large : 10 ^ 22 ≤ model.labor) : model.surplus = 0 := by
  have divisor : Numeric.weight ⟨3600, 0⟩ = 0 := by decide +kernel
  have some : model.labor ≠ 0 := by omega
  have weight : Numeric.weight ⟨model.labor, 6⟩ = (log 10000 (model.labor * 100) : Int) - 2 := by
    unfold weight aligned
    rw [if_neg some]
    norm_num
  have groups : 6 ≤ log 10000 (model.labor * 100) :=
    le_log_of_pow_le (by decide) (by norm_num; omega)
  unfold surplus divScale divWeight
  rw [divisor, weight]
  dsimp only
  split <;> omega

theorem amount_pos_iff : 0 < model.amount ↔ 1800 ≤ model.labor := by
  by_cases small : model.labor < 3601 * 10 ^ 14
  · rw [amount_exact model small, lt_iff_add_one_le, le_roundDiv (by decide)]
    omega
  · have least := model.amount_near.1
    have some : 1 ≤ roundDiv model.labor 3600 := (le_roundDiv (by decide)).mpr (by omega)
    omega

variable {A attemptID : ID} {kind : ValueKind}

theorem amount_fits_iff : model.amount < 10 ^ 20 ↔ model.labor + 1800 < 3600 * 10 ^ 20 := by
  by_cases large : 10 ^ 22 ≤ model.labor
  · rw [amount_twice, surplus_of_large model large, pow_zero, roundDiv_one, mul_one, ← not_le,
      le_roundDiv (by decide)]
    omega
  · have most := model.amount_near.2
    have below : ¬ 10 ^ 19 ≤ roundDiv model.labor 3600 := by
      rw [le_roundDiv (by decide)]
      omega
    omega

end ValueModel

/-! ### Models -/

structure ValueModelInput where
  ref : String
  version : String
  currency : String
  baselineSeconds : Int64
  loadedHourlyCost : String
  assumptions : RawMessage := .blank
  explanation : RawMessage := .blank

/-- `exactMoneyPattern`, and the millionths of an amount that matches it. -/
def exactMoney (text : String) : Option Nat :=
  match text.toList.splitOn '.' with
  | [whole] => (digitsValue whole).map (· * 10 ^ 6)
  | [whole, decimals] =>
      if 6 < decimals.length then none
      else do return (← digitsValue whole) * 10 ^ 6 + (← digitsValue decimals) * 10 ^ (6 - decimals.length)
  | _ => none

def currencyPattern (text : String) : Bool := text.length = 3 && text.toList.all Char.isUpper

/-- `validateValueModelInput`, with the cost it has read. -/
def validateValueModelInput (input : ValueModelInput) : Except Err Nat :=
  if input.ref = "" ∨ input.version = "" ∨ input.currency = "" ∨ input.baselineSeconds ≤ 0 ∨
      input.loadedHourlyCost = "" then
    .error (.invalidInput "ref, version, currency, baselineSeconds, and loadedHourlyCost are required")
  else
    match exactMoney input.loadedHourlyCost, currencyPattern input.currency with
    | some (cost + 1), true =>
        if input.assumptions = .text none ∨ input.explanation = .text none then
          .error (.invalidInput "assumptions and explanation must be valid JSON")
        else .ok (cost + 1)
    | _, _ =>
        .error (.invalidInput ("currency must be ISO-4217 and loadedHourlyCost must be a positive " ++
          "decimal with at most six fractional digits"))

local instance referenceLawful : LawfulBEq (String × String) := inferInstance

/-- `CreateValueModel`, where `known` has the references and versions that are stored. -/
def createValueModel (known : List (String × String)) (id : ID) (input : ValueModelInput) :
    Except Err ValueModel := do
  let cost ← validateValueModelInput input
  if 10 ^ 20 ≤ cost then throw (.infrastructure "numeric field overflow")
  if (input.ref, input.version) ∈ known then throw (.conflict "value model ref/version already exists")
  return { id, currency := input.currency, baselineSeconds := input.baselineSeconds.toInt.toNat
           loadedHourlyCost := cost }

theorem State.creditValue_of_amount {s : State} {a : Attempt} {itemID : ID} {model : ValueModel}
    (found : s.attempts.find attemptID = some a) (valued : a.valueModel = some model)
    (positive : 0 < model.amount) (fits : model.amount < 10 ^ 20) :
    ∃ s', s.creditValue itemID attemptID = .ok s' := by
  simp only [creditValue, found, valued]
  split
  · unfold insertValue
    rw [if_neg (by rw [Int.natAbs_natCast]; omega), dif_pos (by simpa [ValueKind.allows] using positive)]
    split
    · exact ⟨_, rfl⟩
    · exact ⟨_, rfl⟩
  · exact ⟨_, rfl⟩

variable {known : List (String × String)} {id : ID} {input : ValueModelInput} {model : ValueModel} {cost : Nat}

theorem createValueModel_labor (accepted : validateValueModelInput input = .ok cost)
    (created : createValueModel known id input = .ok model) :
    model.labor = input.baselineSeconds.toInt.toNat * cost := by
  obtain ⟨_, same, made⟩ := bind_ok.mp created
  rw [accepted] at same
  cases same
  simp only [guard_ok, return_ok] at made
  obtain ⟨_, _, rfl⟩ := made
  rfl

/-- **A value model blocks no completion** exactly where its labor is worth half a millionth, and its
amount has fourteen digits before the decimals. -/
theorem model_creditable_iff (accepted : validateValueModelInput input = .ok cost)
    (created : createValueModel known id input = .ok model) :
    ((0 < model.amount ∧ model.amount < 10 ^ 20) ∧
      ∀ (s : State) (itemID attemptID : ID) (a : Attempt), s.attempts.find attemptID = some a →
        a.valueModel = some model → ∃ s', s.creditValue itemID attemptID = .ok s') ↔
    1800 ≤ input.baselineSeconds.toInt.toNat * cost ∧
      input.baselineSeconds.toInt.toNat * cost + 1800 < 3600 * 10 ^ 20 := by
  rw [← createValueModel_labor accepted created, ← model.amount_pos_iff, ← model.amount_fits_iff]
  refine ⟨And.left, fun stored => ⟨stored, fun s itemID attemptID a found valued => ?_⟩⟩
  exact creditValue_of_amount found valued stored.1 stored.2

/-- An hour at 40.50 is credited in full. -/
theorem model_creditable_iff_hour :
    ∃ model, createValueModel [] "m"
        { ref := "r", version := "1", currency := "EUR", baselineSeconds := 3600, loadedHourlyCost := "40.50" } =
      .ok model ∧ 0 < model.amount ∧ model.amount < 10 ^ 20 :=
  ⟨⟨"m", "EUR", 3600, 40500000⟩, by decide +kernel,
    ((@model_creditable_iff [] "m" ⟨"r", "1", "EUR", 3600, "40.50", .blank, .blank⟩ _ 40500000
      (by decide +kernel) (by decide +kernel)).mpr (by decide +kernel)).1⟩

/-! ### The invariant -/

/-- The entry is the credit of an attempt. -/
structure ValueEntry.Credits (e : ValueEntry) (a : Attempt) : Prop where
  item : a.workItemID = e.workItemID
  first : a.number = 1
  done : a.run = .succeeded
  worth : a.valueModel = some e.model ∧ e.currency = e.model.currency ∧ e.amount = e.model.amount

/-- The ledger agrees with the attempts, but for what is owed to some of them. -/
structure Accounted (owed : ID → Prop) (s : State) : Prop where
  unique : (s.value.map fun e => (e.workItemID, e.kind)).Nodup
  credited : ∀ e ∈ s.value, e.kind = .completionCredit → ∃ a, s.attempts.find e.attemptID = some a ∧ e.Credits a
  paid : ∀ a ∈ s.attempts.rows, ¬ owed a.id → a.number = 1 → a.run = .succeeded → a.valueModel.isSome →
    ∃ e ∈ s.value, e.workItemID = a.workItemID ∧ e.kind = .completionCredit
  deducted : ∀ d ∈ s.value, d.kind = .feedbackDeduction → ∃ e ∈ s.value, e.kind = .completionCredit ∧
    e.workItemID = d.workItemID ∧ d.amount = -e.amount ∧ d.currency = e.currency ∧ d.model = e.model

abbrev Balanced : State → Prop := Accounted fun _ => False

variable {itemID : ID} {e : ValueEntry}

theorem State.entryOf_some {s : State} (found : s.entryOf itemID kind = some e) :
    e ∈ s.value ∧ e.workItemID = itemID ∧ e.kind = kind :=
  have selected := find?_some found
  ⟨mem_of_find?_eq_some found, of_decide_eq_true selected⟩

theorem State.entryOf_none {s : State} (missing : s.entryOf itemID kind = none) :
    ∀ e ∈ s.value, ¬ (e.workItemID = itemID ∧ e.kind = kind) := by
  intro e member same
  exact find?_eq_none.mp missing e member (decide_eq_true same)

theorem State.find_setRun (s : State) (A : ID) (allowed : RunState → Bool) (state : RunState) (B : ID)
    : (s.setRun A allowed state).attempts.find B = (s.attempts.find B).map fun a => if a.id =
    A && allowed a.run then { a with run := state } else a := by
  unfold setRun
  rw [find_update]

variable {a : Attempt}

namespace Accounted

variable {owed : ID → Prop} {s s' : State}

section Accounted

variable (kept : Accounted owed s)

include kept

theorem of_same (value : s'.value = s.value) (attempts : s'.attempts = s.attempts) :
    Accounted owed s' := by
  obtain ⟨unique, credited, paid, deducted⟩ := kept
  constructor
  · rwa [value]
  · rwa [value, attempts]
  · rwa [value, attempts]
  · rwa [value]

theorem log {nodeID : Option ID} {event : Event} :
    Accounted owed (s.log itemID attemptID nodeID event) :=
  kept.of_same rfl rfl

/-- The rows of the attempts are rewritten, none of them is taken back, and one that succeeds is owed its
credit. -/
theorem update {owed' : ID → Prop} {p : Attempt → Bool} {f : Attempt → Attempt} {keeps : ∀ a, (f a).id = a.id}
    (more : ∀ id, owed id → owed' id)
    (fixed : ∀ a, p a → (f a).workItemID = a.workItemID ∧ (f a).number = a.number ∧
      (f a).valueModel = a.valueModel)
    (runs : ∀ a ∈ s.attempts.rows, p a → (a.run = .succeeded → (f a).run = .succeeded) ∧
      ((f a).run = .succeeded → ¬ owed' a.id → a.run = .succeeded)) :
    Accounted owed' { s with attempts := s.attempts.update p f keeps } := by
  refine ⟨kept.unique, fun e member kind => ?_, fun a member free first done valued => ?_, kept.deducted⟩
  · obtain ⟨a, found, item, first, done, worth⟩ := kept.credited e member kind
    refine ⟨_, find_update_of_find keeps found, ?_⟩
    by_cases chosen : p a
    · obtain ⟨sameItem, sameNumber, sameModel⟩ := fixed a chosen
      rw [if_pos chosen]
      exact ⟨sameItem.trans item, sameNumber.trans first, (runs a (find_mem found) chosen).1 done,
        by rwa [sameModel]⟩
    · rw [if_neg chosen]
      exact ⟨item, first, done, worth⟩
  · obtain ⟨b, present, rfl⟩ := mem_map.mp member
    by_cases chosen : p b
    · obtain ⟨sameItem, sameNumber, sameModel⟩ := fixed b chosen
      rw [if_pos chosen] at free first done valued ⊢
      rw [keeps] at free
      rw [sameItem]
      exact kept.paid b present (fun owes => free (more _ owes)) (sameNumber ▸ first)
        ((runs b present chosen).2 done free) (by rwa [sameModel] at valued)
    · rw [if_neg chosen] at free first done valued ⊢
      exact kept.paid b present (fun owes => free (more _ owes)) first done valued

theorem setRun (A : ID) (allowed : RunState → Bool) (state : RunState)
    (going : state ≠ .succeeded)
    (unsettled : ∀ a ∈ s.attempts.rows, a.id = A → allowed a.run → a.run ≠ .succeeded) :
    Accounted owed (s.setRun A allowed state) := by
  refine kept.update (fun _ => id) (fun _ _ => ⟨rfl, rfl, rfl⟩) fun a member chosen => ?_
  obtain ⟨own, allows⟩ := Bool.and_eq_true_iff.mp chosen
  have open_ := unsettled a member (of_decide_eq_true own) allows
  exact ⟨fun done => absurd done open_, fun done => absurd done going⟩

/-- A run that may only move from states before its end. -/
theorem setRun_of_barred (A : ID) {allowed : RunState → Bool} {state : RunState}
    (going : state ≠ .succeeded) (barred : allowed .succeeded = false) :
    Accounted owed (s.setRun A allowed state) := by
  refine kept.setRun A allowed state going fun a _ _ allows done => ?_
  rw [done, barred] at allows
  cases allows

theorem finishAttempt (A : ID) (failure : Option Failure) :
    Accounted owed (s.finishAttempt A failure) :=
  kept.update (fun _ => id) (fun _ _ => ⟨rfl, rfl, rfl⟩) fun _ _ _ => ⟨id, fun done _ => done⟩

end Accounted

/-- **A run that succeeds is owed its credit.** -/
theorem succeed (kept : Balanced s) (A : ID) :
    Accounted (· = A) (s.setRun A (fun _ => true) .succeeded) := by
  refine kept.update (fun _ => False.elim) (fun _ _ => ⟨rfl, rfl, rfl⟩) fun a _ chosen => ⟨fun _ => rfl, ?_⟩
  exact fun _ other => absurd (of_decide_eq_true (Bool.and_eq_true_iff.mp chosen).1) other

theorem insert (kept : Accounted owed s) (timeline : List TimelineEvent)
    (fresh : s.entryOf e.workItemID e.kind = none)
    (credited : e.kind = .completionCredit → ∃ a, s.attempts.find e.attemptID = some a ∧ e.Credits a)
    (deducted : e.kind = .feedbackDeduction → ∃ c ∈ s.value, c.kind = .completionCredit ∧
      c.workItemID = e.workItemID ∧ e.amount = -c.amount ∧ e.currency = c.currency ∧ e.model = c.model) :
    Accounted owed { s with value := e :: s.value, timeline := timeline } := by
  refine ⟨?_, fun e' member kind => ?_, fun a member free first done valued => ?_, fun d member kind => ?_⟩
  · refine nodup_cons.mpr ⟨fun known => ?_, kept.unique⟩
    obtain ⟨e', member, same⟩ := mem_map.mp known
    obtain ⟨item, kind⟩ := Prod.mk.inj same
    exact entryOf_none fresh e' member ⟨item, kind⟩
  · rcases mem_cons.mp member with rfl | member
    · exact credited kind
    · exact kept.credited e' member kind
  · obtain ⟨c, present, own⟩ := kept.paid a member free first done valued
    exact ⟨c, .tail _ present, own⟩
  · rcases mem_cons.mp member with rfl | member
    · obtain ⟨c, present, own⟩ := deducted kind
      exact ⟨c, .tail _ present, own⟩
    · obtain ⟨c, present, own⟩ := kept.deducted d member kind
      exact ⟨c, .tail _ present, own⟩

/-- What is owed to one attempt alone is settled where that attempt has its credit, or earns none. -/
theorem settle (kept : Accounted (· = A) s) (found : s.attempts.find A = some a)
    (credit : a.number = 1 → a.valueModel.isSome →
      ∃ e ∈ s.value, e.workItemID = a.workItemID ∧ e.kind = .completionCredit) : Balanced s := by
  refine { kept with paid := fun b member _ first done valued => ?_ }
  by_cases own : b.id = A
  · have same := find_of_mem member
    rw [own, found] at same
    cases same
    exact credit first valued
  · exact kept.paid b member own first done valued

theorem creditValue (kept : Accounted (· = A) s) (found : s.attempts.find A = some a)
    (done : a.run = .succeeded) (item : a.workItemID = itemID)
    (credited : s.creditValue itemID A = .ok s') : Balanced s' := by
  simp only [State.creditValue, found] at credited
  cases valued : a.valueModel with
  | none =>
    rw [valued] at credited
    cases credited
    exact kept.settle found fun _ some => by rw [valued] at some; cases some
  | some model =>
    rw [valued] at credited
    dsimp only at credited
    split at credited
    · rename_i first
      rcases insertValue_ok credited with
        ⟨e, known, rfl⟩ | ⟨e, unknown, own, attempt, kind, amount, currency, same, rfl⟩
      · obtain ⟨member, own, kind⟩ := entryOf_some known
        exact kept.settle found fun _ _ => ⟨e, member, own.trans item.symm, kind⟩
      have entered : Accounted (· = A) (State.log { s with value := e :: s.value } itemID A none
          (ValueKind.event .completionCredit model.currency)) := by
        refine kept.insert _ (by rw [own, kind]; exact unknown) (fun _ => ?_) fun other => ?_
        · refine ⟨a, by rw [attempt]; exact found, item.trans own.symm, first, done, ?_, ?_, ?_⟩
          · rw [valued, same]
          · rw [currency, same]
          · rw [amount, same]
        · rw [kind] at other
          cases other
      refine entered.settle found fun _ _ => ⟨e, .head _, own.trans item.symm, kind⟩
    · rename_i later
      cases credited
      exact kept.settle found fun first _ => absurd first later

theorem deductValue (kept : Accounted owed s) {feedbackID : ID}
    (deducted : s.deductValue itemID attemptID feedbackID = .ok s') : Accounted owed s' := by
  unfold State.deductValue at deducted
  split at deducted
  · cases deducted
    exact kept
  rename_i credit known
  obtain ⟨member, item, kind⟩ := entryOf_some known
  rcases insertValue_ok deducted with
    ⟨_, _, rfl⟩ | ⟨e, unknown, own, _, kind', amount, currency, same, rfl⟩
  · exact kept
  refine kept.insert _ (by rw [own, kind']; exact unknown) (fun other => ?_) fun _ => ?_
  · rw [kind'] at other
    cases other
  · exact ⟨credit, member, kind, item.trans own.symm, amount, currency, same⟩

theorem insertAttempt (kept : Accounted owed s) (going : a.run ≠ .succeeded)
    (inserted : s.insertAttempt a = .ok s') : Accounted owed s' := by
  obtain ⟨attempts, unique, rfl⟩ := insertAttempt_ok inserted
  refine ⟨kept.unique, fun e member kind => ?_, fun b member free first done valued => ?_, kept.deducted⟩
  · obtain ⟨b, found, rest⟩ := kept.credited e member kind
    refine ⟨b, ?_, rest⟩
    rw [find_insert unique, if_neg]
    · exact found
    · intro same
      have fresh := insert_fresh unique
      rw [same, found] at fresh
      cases fresh
  · rw [insert_rows unique] at member
    rcases mem_cons.mp member with rfl | member
    · exact absurd done going
    · exact kept.paid b member free first done valued

end Accounted

/-! ### Commands -/

section Commands

variable {lib : Library} {input : Input} {s s' : State}

theorem Prepares.balanced {answer : Prepared} (prepares : Prepares s A answer s') (kept : Balanced s) :
    Balanced s' := by
  cases prepares with
  | nothing => exact kept
  | blocks _ _ _ _ _ _ _ _ inserted =>
    obtain ⟨_, _, rfl⟩ := insertBlocker_ok inserted
    refine Accounted.log (Accounted.setRun_of_barred ?_ A (by simp) rfl)
    exact kept.of_same rfl rfl
  | starts _ _ _ _ _ _ _ _ inserted =>
    obtain ⟨_, _, rfl⟩ := insertTurn_ok inserted
    refine Accounted.log (Accounted.setRun_of_barred ?_ A (by simp) rfl)
    exact kept.of_same rfl rfl

/-- **A completion is credited** in the transaction that completes it; the run had not ended. -/
theorem Advances.balanced {node : NodeExecution} {outcome : String}
    (advances : Advances lib input itemID A a node outcome s s') (kept : Balanced s)
    (found : s.attempts.find A = some a) (item : a.workItemID = itemID)
    (going : a.run ≠ .succeeded) : Balanced s' := by
  cases advances with
  | @completes s₁ s₂ _ inserted credited =>
    obtain ⟨transitions, _, same⟩ := insertTransition_ok inserted
    have owing : Accounted (· = A) s₁ := by
      rw [same]
      exact ((kept.succeed A).finishAttempt A none).of_same rfl rfl
    have lookup : s₁.attempts.find A = some { a with run := .succeeded, finished := true } := by
      rw [same]
      simp only [finishAttempt, find_update, find_setRun, found, Option.map_some]
      simp [find_key found]
    exact (owing.creditValue lookup rfl item credited).of_same rfl rfl
  | exhausts =>
    have failed := kept.setRun A (fun _ => true) .failed (by simp) fun b member own _ => by
      have same := find_of_mem member
      rw [own, found] at same
      cases same
      exact going
    exact { failed.finishAttempt A (some .transitionLimit) with }
  | proceeds _ _ _ _ placed moved =>
    obtain ⟨_, _, _, rfl⟩ := insertNode_ok placed
    obtain ⟨_, _, rfl⟩ := insertTransition_ok moved
    obtain ⟨links, handed⟩ := handOver_eq _ node input.nodeID
    refine Accounted.setRun_of_barred (kept.of_same ?_ ?_) A (by simp) rfl <;> rw [handed]

theorem EndsTurn.balanced (completes : EndsTurn lib input s s') (kept : Balanced s) : Balanced s' := by
  cases completes with
  | @fails v n rest t turnTo runTo failure last run _ _ ended _ =>
    have other : runTo ≠ .succeeded := by rcases ended with rfl | rfl <;> simp
    have failed := kept.setRun t.runID (fun _ => true) runTo other fun b member own _ done => by
      rw [(last.attempt member own).1, run] at done
      cases done
    exact { failed.finishAttempt t.runID failure with }
  | settles last run _ _ found advances =>
    obtain ⟨run', item⟩ := last.attempt (find_mem found) (find_key found)
    exact advances.balanced (kept.of_same rfl rfl) found item (by rw [run', run]; simp)

theorem Responds.balanced {response : BlockerResponseInput} {answer : Responded}
    (responds : Responds lib input response s answer s') (kept : Balanced s) : Balanced s' := by
  cases responds with
  | discloses => exact { kept with }
  | confirms =>
    refine Accounted.log (Accounted.setRun_of_barred ?_ _ (by simp) rfl)
    exact kept.of_same rfl rfl
  | answers _ _ _ last _ run found _ linked advances =>
    obtain ⟨links, rfl⟩ := linkAll_eq linked
    obtain ⟨run', item⟩ := last.attempt (find_mem found) (find_key found)
    exact advances.balanced (kept.of_same rfl rfl) found item (by rw [run', run]; simp)

theorem createAttempt_balanced {create : CreateAttemptInput} {u : Unit}
    (ran : createAttempt lib input create s = .ok (u, s')) (kept : Balanced s) : Balanced s' := by
  obtain ⟨models, valueModel, s₁, d, row, s₂, s₃, _, inserted, _, _, placed, linked, rfl⟩ :=
    createAttempt_ok ran
  have created := kept.insertAttempt (by simp [newAttempt]) inserted
  obtain ⟨_, _, _, rfl⟩ := insertNode_ok placed
  obtain ⟨_, rfl⟩ := linkSources_eq linked
  exact { created with }

end Commands

theorem balanced_kept (lib : Library) : Kept lib Balanced where
  start input request s answer s' inv kept ran := by
    rcases start_starts ran with ⟨_, rfl⟩ | ⟨spec, s₁, s₂, _, _, inserted, created, rfl⟩
    · exact kept
    obtain ⟨_, _, rfl⟩ := insertItem_ok inserted
    refine (createAttempt_balanced created ?_).of_same rfl rfl
    exact kept.of_same rfl rfl
  prepareNode _ _ _ _ _ inv kept ran := (prepareNode_prepares inv ran).balanced kept
  recordCompletionReport _ _ _ _ _ _ inv kept ran := by
    obtain ⟨_, _, _, _, reports⟩ := recordCompletionReport_reports inv ran
    obtain ⟨_, rfl⟩ := linkAll_eq reports.linked
    exact { kept with }
  completeTurn _ _ _ _ _ _ _ inv kept ran := (completeTurn_ends inv ran).balanced kept
  respondBlocker _ _ _ _ _ inv kept ran := (respondBlocker_responds inv ran).balanced kept
  saveFeedback _ _ _ _ _ _ kept ran := by
    obtain ⟨_, _, s₁, inserted, deducted, rfl⟩ := saveFeedback_saves ran
    obtain ⟨_, _, rfl⟩ := insertFeedback_ok inserted
    refine Accounted.log (Accounted.deductValue ?_ deducted)
    exact kept.of_same rfl rfl
  revise _ _ _ _ _ _ _ _ kept ran := by
    obtain ⟨_, _, _, _, _, _, _, _, _, _, _, created, rfl⟩ := revise_revises ran
    exact (createAttempt_balanced created kept).of_same rfl rfl
  publish _ _ _ _ _ _ kept ran := by
    obtain ⟨_, rfl⟩ := publish_ok ran
    exact { kept with }
  ledger _ _ kept := { kept with }

theorem Accounted.initial : Balanced State.empty where
  unique := nodup_nil
  credited e member := by cases member
  paid a member := by cases member
  deducted d member := by cases member

/-! ### Items -/

def State.entries (s : State)
    (itemID : ID) : List ValueEntry := s.value.filter fun e => e.workItemID = itemID

structure ItemAccount (s : State) (itemID : ID) : Prop where
  /-- At most one entry of either kind. -/
  once : ∀ kind, ((s.entries itemID).map ValueEntry.kind).count kind ≤ 1
  /-- A credit, iff the first attempt has succeeded and has a value model. -/
  earned : (∃ e ∈ s.entries itemID, e.kind = .completionCredit) ↔
    ∃ a ∈ s.attempts.rows, a.workItemID = itemID ∧ a.number = 1 ∧ a.run = .succeeded ∧ a.valueModel.isSome
  /-- It is the one of that attempt. -/
  credit : ∀ e ∈ s.entries itemID, e.kind = .completionCredit → ∃ a ∈ s.attempts.rows, a.id = e.attemptID ∧
    a.workItemID = itemID ∧ a.number = 1 ∧ a.valueModel = some e.model ∧ e.currency = e.model.currency ∧
    e.amount = e.model.amount
  /-- A deduction takes the credit back. -/
  deduction : ∀ d ∈ s.entries itemID, d.kind = .feedbackDeduction → ∃ e ∈ s.entries itemID,
    e.kind = .completionCredit ∧ d.amount = -e.amount ∧ d.currency = e.currency ∧ d.model = e.model
  balance : ((s.entries itemID).map ValueEntry.amount).sum = 0 ∨ ∃ e ∈ s.entries itemID,
    e.kind = .completionCredit ∧ ((s.entries itemID).map ValueEntry.amount).sum = e.amount

namespace Accounted

variable {s : State} {itemID : ID}

theorem mem_entries : e ∈ s.entries itemID ↔ e ∈ s.value ∧ e.workItemID = itemID := by
  simp [entries]

theorem kinds (kept : Balanced s) (itemID : ID) : ((s.entries itemID).map ValueEntry.kind).Nodup := by
  have distinct := kept.unique.sublist (filter_sublist.map _ : ((s.entries itemID).map fun e =>
    (e.workItemID, e.kind)).Sublist _)
  refine List.Nodup.of_map (fun kind => (itemID, kind)) ?_
  rw [map_map]
  refine (map_congr_left fun e member => ?_) ▸ distinct
  exact congrArg (·, e.kind) (mem_entries.mp member).2

/-- Entries of different kinds, of which each deduction takes back a credit, add up to the credit or to
nothing. -/
theorem sum_of_kinds {entries : List ValueEntry} (kinds : (entries.map ValueEntry.kind).Nodup)
    (taken : ∀ d ∈ entries, d.kind = .feedbackDeduction → ∃ e ∈ entries, e.kind = .completionCredit ∧
      d.amount = -e.amount) :
    (entries.map ValueEntry.amount).sum = 0 ∨ ∃ e ∈ entries, e.kind = .completionCredit ∧
      (entries.map ValueEntry.amount).sum = e.amount := by
  match entries with
  | [] => exact .inl rfl
  | [e] =>
    refine .inr ⟨e, .head _, ?_, by simp⟩
    cases kind : e.kind with
    | completionCredit => rfl
    | feedbackDeduction =>
      obtain ⟨c, member, credit, _⟩ := taken e (.head _) kind
      rw [mem_singleton.mp member, kind] at credit
      cases credit
  | [e, e'] =>
    have other : e.kind ≠ e'.kind := by simpa using kinds
    left
    cases kind : e.kind with
    | completionCredit =>
      have kind' : e'.kind = .feedbackDeduction := by
        cases kind' : e'.kind with
        | completionCredit => exact absurd (kind.trans kind'.symm) other
        | feedbackDeduction => rfl
      obtain ⟨c, member, credit, amount⟩ := taken e' (by simp) kind'
      have same : c = e := by
        rcases mem_cons.mp member with same | member
        · exact same
        · rw [mem_singleton.mp member, kind'] at credit
          cases credit
      simp [amount, same]
    | feedbackDeduction =>
      obtain ⟨c, member, credit, amount⟩ := taken e (.head _) kind
      have same : c = e' := by
        rcases mem_cons.mp member with same | member
        · rw [same, kind] at credit
          cases credit
        · exact mem_singleton.mp member
      simp [amount, same]
  | e :: e' :: e'' :: rest =>
    -- there are two kinds only
    cases one : e.kind <;> cases two : e'.kind <;> cases three : e''.kind <;> simp_all

theorem account (kept : Balanced s) (itemID : ID) : ItemAccount s itemID := by
  have deduction : ∀ d ∈ s.entries itemID, d.kind = .feedbackDeduction → ∃ e ∈ s.entries itemID,
      e.kind = .completionCredit ∧ d.amount = -e.amount ∧ d.currency = e.currency ∧ d.model = e.model := by
    intro d member kind
    obtain ⟨present, own⟩ := mem_entries.mp member
    obtain ⟨e, credit, kind, item, rest⟩ := kept.deducted d present kind
    exact ⟨e, mem_entries.mpr ⟨credit, item.trans own⟩, kind, rest⟩
  refine ⟨fun kind => ?_, ⟨?_, ?_⟩, fun e member kind => ?_, deduction, ?_⟩
  · exact nodup_iff_count_le_one.mp (kept.kinds itemID) kind
  · rintro ⟨e, member, kind⟩
    obtain ⟨present, own⟩ := mem_entries.mp member
    obtain ⟨a, found, item, first, done, valued, _⟩ := kept.credited e present kind
    exact ⟨a, find_mem found, item.trans own, first, done, by rw [valued]; rfl⟩
  · rintro ⟨a, member, own, first, done, valued⟩
    obtain ⟨e, present, item, kind⟩ := kept.paid a member id first done valued
    exact ⟨e, mem_entries.mpr ⟨present, item.trans own⟩, kind⟩
  · obtain ⟨present, own⟩ := mem_entries.mp member
    obtain ⟨a, found, item, first, _, rest⟩ := kept.credited e present kind
    exact ⟨a, find_mem found, find_key found, item.trans own, first, rest⟩
  · exact sum_of_kinds (kept.kinds itemID) fun d member kind => by
      obtain ⟨e, credit, kind, amount, _⟩ := deduction d member kind
      exact ⟨e, credit, kind, amount⟩

end Accounted

/-- **The ledger adds up for every item**: it has at most a credit and a deduction, the credit iff its first
attempt has succeeded and has a value model. Up to 100 000 000 the amount is `baselineSeconds *
loadedHourlyCost / 3600` rounded to six decimals, and beyond at most a millionth above it. -/
theorem value_accounted (lib : Library) {c : Config Unit Input State}
    (reached : (engine lib).Reaches .free State.empty c) (itemID : ID) :
    ItemAccount c.shared itemID ∧ ∀ e ∈ c.shared.entries itemID, e.kind = .completionCredit →
      (e.amount ≤ 100000000 * 1000000 →
        e.amount = roundDiv (e.model.baselineSeconds * e.model.loadedHourlyCost) 3600) ∧
      ((e.amount = roundDiv (e.model.baselineSeconds * e.model.loadedHourlyCost) 3600) ∨
        e.amount = roundDiv (e.model.baselineSeconds * e.model.loadedHourlyCost) 3600 + 1) := by
  have account := ((balanced_kept lib).invariant .initial reached).account itemID
  refine ⟨account, fun e member kind => ?_⟩
  obtain ⟨_, _, _, _, _, _, _, amount⟩ := account.credit e member kind
  obtain ⟨least, most⟩ := e.model.amount_near
  change roundDiv (e.model.baselineSeconds * e.model.loadedHourlyCost) 3600 ≤ _ at least
  change _ ≤ roundDiv (e.model.baselineSeconds * e.model.loadedHourlyCost) 3600 + 1 at most
  rw [amount]
  refine ⟨fun small => ?_, by omega⟩
  refine congrArg Nat.cast (e.model.amount_exact ?_)
  have below : roundDiv e.model.labor 3600 ≤ 100000000 * 1000000 := by
    have least : roundDiv e.model.labor 3600 ≤ e.model.amount := least
    omega
  have limit := lt_succ_roundDiv (a := e.model.labor) (b := 3600) (by decide)
  omega

/-! ### Runs -/

/-- An approval that is worth something. -/
def valuable : CanonicalSpec := { approval with valueModelRef := "v" }

/-- The approval is given, under this value model. -/
def approved (model : ValueModel) : List (Move Input Request) :=
  opening valuable { valueModels := [("v", model)] } ++ [
  .run 1 { blockerID := "b" },
  .start (.respondBlocker { blockerID := "b", actorIdentityID := "u", outcome := "approve" }),
  .run 2 {}]

/-- Half an hour at 40.00 an hour. -/
def halfAnHour : ValueModel := { id := "m", currency := "EUR", baselineSeconds := 1800, loadedHourlyCost := 40000000 }

/-- Twenty euros are credited, and two feedbacks take them back once. -/
theorem value_accounted_returned :
    ∃ c, (engine lenient).Reaches .free State.empty c ∧
      (c.shared.entries "i").map ValueEntry.amount = [-20000000, 20000000] ∧ ItemAccount c.shared "i" := by
  exact reach_of_replay_and (approved halfAnHour ++ [
      .start (.saveFeedback {
        workItemID := "i", attemptID := "a", actorIdentityID := "u", category := "wrong" }),
      .run 3 { feedbackID := "f" },
      .start (.saveFeedback {
        workItemID := "i", attemptID := "a", actorIdentityID := "u", category := "late" }),
      .run 4 { feedbackID := "g" }])
    (by decide +kernel) fun reached _ => (value_accounted lenient reached "i").1

/-- **A second at a millionth an hour** is accepted and stored, is worth nothing, and the approval under
it completes no attempt. -/
theorem model_not_creditable :
    ∃ model, createValueModel [] "m"
        { ref := "r", version := "1", currency := "EUR", baselineSeconds := 1, loadedHourlyCost := "0.000001" } =
      .ok model ∧ model.amount = 0 ∧
      (∀ s : State, s.insertValue "i" "a" none .completionCredit model.amount "EUR" model =
        .error (.constraint "value_ledger_check")) ∧
      ∃ c, (engine lenient).Reaches .free State.empty c ∧ c.shared.value = [] ∧
        (c.shared.attempts.find "a").map Attempt.run = some .awaitingApproval := by
  have nothing : ValueModel.amount ⟨"m", "EUR", 1, 1⟩ = 0 := by decide +kernel
  refine ⟨⟨"m", "EUR", 1, 1⟩, by decide +kernel, nothing, fun s => ?_, ?_⟩
  · simp [insertValue, nothing, ValueKind.allows]
  · exact reach_of_replay _ _ _ (approved ⟨"m", "EUR", 1, 1⟩) _ (by decide +kernel)

/-- One second at 400 000 000 000.001399 an hour. -/
def dearSecond : ValueModel := {
  id := "m", currency := "EUR", baselineSeconds := 1, loadedHourlyCost := 400000000000001399 }

/-- **A credit that is rounded twice**: 111111111.1111114997… has eight decimals after the division,
111111111.11111150, and six in the ledger, 111111111.111112. -/
theorem credit_rounded_twice :
    ¬ ∀ c, (engine lenient).Reaches .free State.empty c → ∀ e ∈ c.shared.entries "i",
      e.kind = .completionCredit →
        e.amount = roundDiv (e.model.baselineSeconds * e.model.loadedHourlyCost) 3600 := by
  intro rounded
  obtain ⟨c, reached, e, member, credit, amount, exact_⟩ := (engine lenient).reaches_of_replay .free
    State.empty (approved dearSecond) (fun s => ∃ e ∈ s.entries "i", e.kind = .completionCredit ∧
      e.amount = 111111111111112 ∧
      roundDiv (e.model.baselineSeconds * e.model.loadedHourlyCost) 3600 = 111111111111111)
    (by decide +kernel)
  have same := rounded c reached e member credit
  rw [amount, exact_] at same
  exact absurd same (by decide)

end Iterabase.Work
