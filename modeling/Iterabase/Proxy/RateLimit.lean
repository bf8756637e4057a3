/-
**The inference gateway — the request-rate window.**

`CheckRPM` runs one Lua script on a sorted set in Redis: it drops what has left the window, sums the
counts in the names of the members that are left, and adds a member if the limit allows it. A member is
named after its count, the time and a random number. Lua writes a number with 14 digits, and to add a
name that is there already only moves it.

* `luaNumber`, `memberName`, `memberCount` — the names, and the count that is read off one.
* `rate_window_bounded` — **in orderly sequences no window has more requests than the limit.**
-/

import Mathlib

namespace Iterabase.RateLimit

open List Nat

/-! ### The script -/

def windowSize : Nat := 60000000

/-- A number divided by a power of ten, to the nearest, and to the even one of two. -/
def rounded (n unit : Nat) : Nat :=
  if 2 * (n % unit) < unit ∨ (2 * (n % unit) = unit ∧ n / unit % 2 = 0) then n / unit else n / unit + 1

/-- What `%.14g` writes for a number of more than 14 digits. -/
def scientific (mantissa exponent : Nat) : List Char :=
  match toDigits 10 mantissa with
  | [] => []
  | first :: rest =>
      let fraction := (rest.reverse.dropWhile (· = '0')).reverse
      first :: (if fraction = [] then [] else '.' :: fraction) ++ 'e' :: '+' :: toDigits 10 exponent

def luaNumber (n : Nat) : List Char :=
  if n < 10 ^ 14 then toDigits 10 n
  else
    let exponent := (toDigits 10 n).length - 1
    let mantissa := rounded n (10 ^ (exponent - 13))
    if mantissa = 10 ^ 14 then scientific (10 ^ 13) (exponent + 1) else scientific mantissa exponent

/-- One execution: its timestamp, what `math.random` returns, and the clock of the server. -/
structure Execution where
  now : Nat
  random : Nat
  clock : Nat

def memberName (count : Nat) (e : Execution) : List Char :=
  luaNumber count ++ ':' :: luaNumber e.now ++ ':' :: luaNumber e.random

/-- The digits before the first colon, as a number; a name without them counts once. -/
def memberCount (name : List Char) : Nat :=
  match name.takeWhile Char.isDigit, name.dropWhile Char.isDigit with
  | [], _ => 1
  | ds, ':' :: _ => ofDigitChars 10 ds 0
  | _, _ => 1

/-- The key: its members with their scores, and when it expires. -/
structure Key where
  members : List (List Char × Nat) := []
  expiresAt : Option Nat := none

def zadd (members : List (List Char × Nat)) (name : List Char) (score : Nat) : List (List Char × Nat) :=
  if members.any (·.1 = name) then members.map fun m => if m.1 = name then (name, score) else m
  else (name, score) :: members

/-- The members an execution finds after it has dropped the expired ones. -/
def Key.current (key : Key) (e : Execution) : List (List Char × Nat) :=
  if key.expiresAt.any (· ≤ e.clock) then [] else key.members.filter fun m => e.now < m.2 + windowSize

def stored (members : List (List Char × Nat)) : Nat := (members.map fun m => memberCount m.1).sum

/-- `slidingWindowScript`: whether the request is allowed. -/
def slidingWindow (limit count : Nat) (e : Execution) (key : Key) : Bool × Key :=
  if 0 < limit ∧ limit < stored (key.current e) + count then (false, { key with members := key.current e })
  else (true, ⟨zadd (key.current e) (memberName count e) e.now, some (e.clock + windowSize + 1000000)⟩)

/-- Executions of `CheckRPM` on one key, the newest first: the key, and when requests were allowed. -/
def run (limit : Nat) : List Execution → Key × List Nat
  | [] => ({}, [])
  | e :: earlier =>
      let before := run limit earlier
      let after := slidingWindow limit 1 e before.1
      (after.2, if after.1 then e.now :: before.2 else before.2)

/-! ### Orderly sequences -/

/-- Timestamps do not decrease, names in one window differ, and the server's clock keeps step. -/
structure Orderly (es : List Execution) : Prop where
  times : es.Pairwise fun e earlier => earlier.now ≤ e.now
  names : es.Pairwise fun e earlier =>
    e.now < earlier.now + windowSize → memberName 1 e ≠ memberName 1 earlier
  clocks : es.Pairwise fun e earlier => e.clock + earlier.now < earlier.clock + e.now + 1000000

/-- The requests among some times that are in the window at a time. -/
def inWindow (now : Nat) (times : List Nat) : List Nat := times.filter fun t => now < t + windowSize

theorem memberCount_one (e : Execution) : memberCount (memberName 1 e) = 1 := by
  show memberCount ('1' :: ':' :: (luaNumber e.now ++ ':' :: luaNumber e.random)) = 1
  unfold memberCount
  rw [takeWhile_cons_of_pos (by decide), takeWhile_cons_of_neg (by decide),
    dropWhile_cons_of_pos (by decide), dropWhile_cons_of_neg (by decide)]
  rfl

structure Records (es : List Execution) (key : Key) (allowed : List Nat) : Prop where
  members : ∀ m ∈ key.members, ∃ e ∈ es, m = (memberName 1 e, e.now)
  expires : ∀ time ∈ key.expiresAt, ∃ e ∈ es, time = e.clock + windowSize + 1000000 ∧
    ∀ m ∈ key.members, m.2 ≤ e.now
  times : ∀ now, (∀ e ∈ es, e.now ≤ now) →
    inWindow now (key.members.map Prod.snd) = inWindow now allowed
  past : ∀ t ∈ allowed, ∃ e ∈ es, t = e.now

section Step

variable {e : Execution} {es : List Execution} {key : Key} {allowed : List Nat} {limit : Nat}

section Records

variable (records : Records es key allowed) (orderly : Orderly (e :: es))

include records orderly

/-- **An execution finds the allowed requests of its window**, also where the key has expired. -/
theorem Records.current :
    (key.current e).map Prod.snd = inWindow e.now allowed ∧ ∀ m ∈ key.current e, m ∈ key.members := by
  have times := records.times e.now fun e' member => rel_of_pairwise_cons orderly.times member
  rw [inWindow, filter_map, Function.comp_def] at times
  unfold Key.current
  split
  · rename_i expired
    refine ⟨?_, fun _ member => nomatch member⟩
    obtain ⟨time, is, due⟩ := (Option.any_eq_true _ _).mp expired
    obtain ⟨e', member, rfl, last⟩ := records.expires time is
    have step := rel_of_pairwise_cons orderly.clocks member
    have due := of_decide_eq_true due
    rw [← times, filter_eq_nil_iff.mpr]
    intro m inside recent
    have before := last m inside
    have recent : e.now < m.2 + windowSize := of_decide_eq_true recent
    omega
  · exact ⟨times, fun m member => (mem_filter.mp member).1⟩

theorem Records.stored : RateLimit.stored (key.current e) = (inWindow e.now allowed).length := by
  obtain ⟨same, kept⟩ := records.current orderly
  rw [← same, length_map, RateLimit.stored, map_congr_left (g := fun _ => 1)]
  · simp
  intro m member
  obtain ⟨e', _, rfl⟩ := records.members m (kept m member)
  exact memberCount_one e'

theorem Records.zadd :
    RateLimit.zadd (key.current e) (memberName 1 e) e.now = (memberName 1 e, e.now) :: key.current e := by
  refine if_neg fun taken => ?_
  obtain ⟨m, member, same⟩ := any_eq_true.mp taken
  obtain ⟨times, kept⟩ := records.current orderly
  obtain ⟨e', inside, rfl⟩ := records.members m (kept m member)
  have recent : e'.now ∈ inWindow e.now allowed := times ▸ mem_map_of_mem member
  exact rel_of_pairwise_cons orderly.names inside (of_decide_eq_true (mem_filter.mp recent).2)
    (of_decide_eq_true same).symm

end Records

theorem inWindow_inWindow {now later : Nat} (le : now ≤ later) (times : List Nat) :
    inWindow later (inWindow now times) = inWindow later times := by
  unfold inWindow
  rw [filter_filter]
  refine filter_congr fun t _ => ?_
  by_cases still : later < t + windowSize
  · simp [still, lt_of_le_of_lt le still]
  · simp [still]

/-- **What one execution does**: it allows a request iff the window has room, and records it. -/
theorem Records.step (records : Records es key allowed) (orderly : Orderly (e :: es))
    (positive : 0 < limit) :
    ((slidingWindow limit 1 e key).1 ↔ (inWindow e.now allowed).length < limit) ∧
    Records (e :: es) (slidingWindow limit 1 e key).2
    (if (slidingWindow limit 1 e key).1 then e.now :: allowed else allowed) ∧
    RateLimit.stored (slidingWindow limit 1 e key).2.members =
    (inWindow e.now (if (slidingWindow limit 1 e key).1 then e.now :: allowed else allowed)).length := by
  obtain ⟨same, kept⟩ := records.current orderly
  have sum := records.stored orderly
  have old : ∀ m ∈ key.current e, ∃ e' ∈ e :: es, m = (memberName 1 e', e'.now) := fun m member =>
    have ⟨e', inside, is⟩ := records.members m (kept m member)
    ⟨e', .tail _ inside, is⟩
  have past : ∀ t ∈ allowed, ∃ e' ∈ e :: es, t = e'.now := fun t member =>
    have ⟨e', inside, is⟩ := records.past t member
    ⟨e', .tail _ inside, is⟩
  have times : ∀ now, (∀ e' ∈ e :: es, e'.now ≤ now) →
      inWindow now ((key.current e).map Prod.snd) = inWindow now allowed := fun now last => by
    rw [same, inWindow_inWindow (last e (.head _))]
  unfold slidingWindow
  split
  · rename_i full
    refine ⟨by simp; omega, ⟨old, fun time is => ?_, times, past⟩, sum⟩
    obtain ⟨e', inside, due, last⟩ := records.expires time is
    exact ⟨e', .tail _ inside, due, fun m member => last m (kept m member)⟩
  · rename_i room
    rw [records.zadd orderly]
    have here : ∀ now, e.now ≤ now → now < e.now + windowSize → inWindow now (e.now :: allowed) =
        e.now :: inWindow now allowed := fun now _ recent => filter_cons_of_pos (by simpa using recent)
    refine ⟨by simp; omega, ⟨?_, ?_, ?_, ?_⟩, ?_⟩
    · rintro m (_ | ⟨_, member⟩)
      · exact ⟨e, .head _, rfl⟩
      · exact old m member
    · rintro time ⟨⟩
      refine ⟨e, .head _, rfl, ?_⟩
      rintro m (_ | ⟨_, member⟩)
      · exact le_refl _
      · obtain ⟨e', inside, rfl⟩ := records.members m (kept m member)
        exact rel_of_pairwise_cons orderly.times inside
    · intro now last
      simp only [inWindow, map_cons, if_true, filter_cons]
      rw [← inWindow, ← inWindow, times now last]
    · rintro t (_ | ⟨_, member⟩)
      · exact ⟨e, .head _, rfl⟩
      · exact past t member
    · rw [if_pos rfl, here e.now (le_refl _) (by simp [windowSize]), length_cons, ← sum, RateLimit.stored,
        map_cons, sum_cons, memberCount_one, RateLimit.stored, add_comm]

end Step

variable {es : List Execution}

/-! ### The window -/

theorem Orderly.tail {e : Execution} (orderly : Orderly (e :: es)) : Orderly es :=
  ⟨orderly.times.of_cons, orderly.names.of_cons, orderly.clocks.of_cons⟩

variable {limit : Nat}

theorem run_records (positive : 0 < limit) (orderly : Orderly es) :
    Records es (run limit es).1 (run limit es).2 := by
  induction es with
  | nil => exact ⟨nofun, nofun, fun _ _ => rfl, nofun⟩
  | cons e es ih => exact ((ih orderly.tail).step orderly positive).2.1

/-- Of times that are pairwise less than a window apart at most `limit` are allowed. -/
theorem run_bounded (positive : 0 < limit) (orderly : Orderly es)
    {p : Nat → Bool} (close : ∀ t t', p t → p t' → t' < t + windowSize) :
    ((run limit es).2.filter p).length ≤ limit := by
  induction es with
  | nil => exact zero_le _
  | cons e es ih =>
    have before := ih orderly.tail
    have step := ((run_records positive orderly.tail).step orderly positive).1
    show ((if _ then _ else _ : List Nat).filter p).length ≤ limit
    split
    · rename_i allowed
      by_cases here : p e.now
      · -- the requests of the interval were all in the window of the newest one
        have room := step.mp allowed
        have fewer : ((run limit es).2.filter p).length ≤ (inWindow e.now (run limit es).2).length := by
          refine (monotone_filter_right _ fun t inside => ?_).length_le
          exact decide_eq_true (close t e.now inside here)
        rw [filter_cons_of_pos here, length_cons]
        omega
      · rw [filter_cons_of_neg here]
        exact before
    · exact before

/-- **The request-rate window is bounded.** In every orderly sequence of executions at most `limit` requests
are allowed in any 60 seconds, and after each execution the stored counts add up to the allowed requests of
its window. -/
theorem rate_window_bounded (positive : 1 ≤ limit)
    (orderly : Orderly es) :
    (∀ from_, ((run limit es).2.filter fun t => from_ ≤ t ∧ t < from_ + windowSize).length ≤ limit ∧
      ((run limit es).2.filter fun t => from_ < t ∧ t ≤ from_ + windowSize).length ≤ limit) ∧
    ∀ e earlier, e :: earlier <:+ es → stored (run limit (e :: earlier)).1.members =
      (inWindow e.now (run limit (e :: earlier)).2).length := by
  refine ⟨fun from_ => ⟨run_bounded positive orderly fun t t' => ?_,
    run_bounded positive orderly fun t t' => ?_⟩, fun e earlier part => ?_⟩
  · simp only [decide_eq_true_eq]
    omega
  · simp only [decide_eq_true_eq]
    omega
  · have orderly' : Orderly (e :: earlier) :=
      ⟨orderly.times.sublist part.sublist, orderly.names.sublist part.sublist,
        orderly.clocks.sublist part.sublist⟩
    exact ((run_records positive orderly'.tail).step orderly' positive).2.2

def burst (random : Nat → Nat) : List Execution :=
  [2, 1, 0].map fun k => ⟨1700000000000000 + k, random k, 0⟩

theorem rate_window_bounded_burst : Orderly (burst id) ∧ (run 2 (burst id)).2.length = 2 ∧
    stored (run 2 (burst id)).1.members = 2 := by
  have orderly : Orderly (burst id) := by
    constructor <;> decide
  exact ⟨orderly, by decide, (rate_window_bounded (by decide) orderly).2 _ _ suffix_rfl⟩

/-- **The limit is exceeded** by requests with one random number: their names are the same, although
their timestamps are not, and the set counts them once. -/
theorem rate_limit_exceeded : ¬ ∀ (limit : Nat) (es : List Execution), 1 ≤ limit →
    es.Pairwise (fun e earlier => earlier.now ≤ e.now) →
    ∀ from_, ((run limit es).2.filter fun t => from_ ≤ t ∧ t < from_ + windowSize).length ≤ limit := by
  intro claim
  exact absurd (claim 2 (burst fun _ => 7) (by decide) (by decide) 1700000000000000) (by decide)

end Iterabase.RateLimit
