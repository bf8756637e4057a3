/-
**Browser authentication — the throttles.**

An endpoint checks the counters of the address and of the account a request names, does its work, and
records the attempt: three steps, between which other requests run. Sign-in records failures only and
clears both counters on a success; the endpoints that take a token record nothing.

* `Counter.record`, `throttleStatus` — the counter of one subject: `limit` attempts in a window, then a
  block.
* `next` — requests in flight, each checked, then executed, then settled.
* `throttle_budget_kept`, `address_budget_kept` — **the budget of a subject, and of an address across
  accounts.**
* `throttle_counter_law` — the counter of one subject over any sequence of attempts.
-/

import Iterabase.Conc.Run
import Mathlib

namespace Iterabase.Auth

open Conc List Option Nat Bool

/-! ### Counters -/

/-- Times and durations are in microseconds. -/
def second : Nat := 1000000

def minute : Nat := 60 * second

def hour : Nat := 60 * minute

structure ThrottleRule where
  limit : Nat
  window : Nat
  block : Nat

inductive Scope
  | requestAccessIP
  | requestAccessEmail
  | verifyIP
  | setupIP
  | signInIP
  | signInAccount
  | forgotIP
  | forgotAccount
  | resetIP
  deriving DecidableEq

open Scope

def Scope.rule : Scope → ThrottleRule
  | .requestAccessIP => ⟨10, hour, hour⟩
  | .requestAccessEmail => ⟨3, hour, hour⟩
  | .verifyIP => ⟨60, hour, hour⟩
  | .setupIP => ⟨30, hour, hour⟩
  | .signInIP => ⟨30, 15 * minute, 15 * minute⟩
  | .signInAccount => ⟨8, 15 * minute, 15 * minute⟩
  | .forgotIP => ⟨10, hour, hour⟩
  | .forgotAccount => ⟨3, hour, hour⟩
  | .resetIP => ⟨30, hour, hour⟩

/-- The scope's name ends in `_email` or `_account`. -/
def Scope.ofAccount : Scope → Bool
  | .requestAccessEmail | .signInAccount | .forgotAccount => true
  | _ => false

/-- What `HashSubject` is given. -/
inductive Subject
  | email (normalized : String)
  | ip (address : String)
  deriving DecidableEq

/-- A rule and whom it counts: the key of a counter. -/
abbrev Entry := Scope × Subject

structure Counter where
  windowStartedAt : Nat
  attempts : Nat
  blockedUntil : Option Nat
  deriving DecidableEq

abbrev Counters := Entry → Option Counter

structure ThrottleState where
  blocked : Bool := false
  retryAfter : Nat := 0

def throttleState (blockedUntil : Option Nat) (now : Nat) : ThrottleState :=
  match blockedUntil with
  | none => {}
  | some time => if now < time then ⟨true, time - now⟩ else {}

def throttleStatus (counters : Counters) (now : Nat) (entry : Entry) : ThrottleState :=
  throttleState ((counters entry).bind Counter.blockedUntil) now

def Counter.record (rule : ThrottleRule) (now : Nat) (c : Counter) : Counter :=
  if c.blockedUntil.any (now < ·) then c
  else if c.windowStartedAt + rule.window ≤ now then ⟨now, 1, none⟩
  else ⟨c.windowStartedAt, c.attempts + 1,
    if rule.limit ≤ c.attempts + 1 then some (now + rule.block) else none⟩

def attempted (rule : ThrottleRule) (now : Nat) : Option Counter → Counter
  | none => ⟨now, 1, none⟩
  | some c => c.record rule now

def recordAuthAttempt (now : Nat) (counters : Counters) (entry : Entry) : Counters :=
  Function.update counters entry (some (attempted entry.1.rule now (counters entry)))

def clearAuthThrottle (counters : Counters) (entry : Entry) : Counters :=
  Function.update counters entry none

/-! ### Endpoints -/

inductive Endpoint
  | requestAccess
  | verifyAccessRequest
  | completeSetup
  | resendSetup
  | signIn
  | forgotPassword
  | resetPassword
  deriving DecidableEq

def Endpoint.scopes : Endpoint → List Scope
  | .requestAccess => [.requestAccessIP, .requestAccessEmail]
  | .verifyAccessRequest => [.verifyIP]
  | .completeSetup => [.setupIP]
  | .resendSetup => [.setupIP]
  | .signIn => [.signInIP, .signInAccount]
  | .forgotPassword => [.forgotIP, .forgotAccount]
  | .resetPassword => [.resetIP]

def Endpoint.records : Endpoint → Bool
  | .requestAccess | .signIn | .forgotPassword => true
  | _ => false

/-- A request: the address of its client, if known, and the normalized email, empty where the body has
none. -/
structure Request where
  endpoint : Endpoint
  address : Option String
  email : String := ""

open Request

/-- Whom a rule counts, if the request has it. -/
def Request.subject (r : Request) (scope : Scope) : Option Subject :=
  if scope.ofAccount then if r.email = "" then none else some (.email r.email) else r.address.map .ip

def Request.entries (r : Request) : List Entry :=
  r.endpoint.scopes.filterMap fun scope => (r.subject scope).map (scope, ·)

def longest (states : List ThrottleState) : ThrottleState :=
  states.foldl (fun most state =>
    if state.blocked ∧ most.retryAfter < state.retryAfter then state else most) {}

def blocked (counters : Counters) (r : Request) (now : Nat) : ThrottleState :=
  longest (r.entries.map (throttleStatus counters now))

def record (now : Nat) (entries : List Entry) (counters : Counters) : Counters :=
  entries.foldl (recordAuthAttempt now) counters

def clearThrottle (entries : List Entry) (counters : Counters) : Counters :=
  entries.foldl clearAuthThrottle counters

/-- What the handler does to the counters after its operation. -/
def Request.settle (r : Request) (succeeded : Bool) (now : Nat) (counters : Counters) : Counters :=
  if r.endpoint = .signIn ∧ succeeded then clearThrottle r.entries counters
  else if r.endpoint.records then record now r.entries counters
  else counters

/-! ### Requests in flight -/

/-- A request that passed the check, and the outcome of its operation once that was executed. -/
structure Flight where
  request : Request
  outcome : Option Bool := none

structure State where
  counters : Counters := fun _ => none
  flights : List Flight := []
  log : List (Request × Bool) := []

inductive Move
  | arrive (r : Request) (now : Nat)
  | execute (i : Nat) (succeeded : Bool)
  | finish (i : Nat) (now : Nat)

def next (s : State) : Move → Option State
  | .arrive r now =>
      if (blocked s.counters r now).blocked then some s
      else some { s with flights := s.flights ++ [⟨r, none⟩] }
  | .execute i succeeded =>
      match s.flights[i]? with
      | some ⟨r, none⟩ => some { s with
          flights := s.flights.set i ⟨r, some succeeded⟩
          log := (r, succeeded) :: s.log }
      | _ => none
  | .finish i now =>
      match s.flights[i]? with
      | some ⟨r, some succeeded⟩ => some { s with
          flights := s.flights.eraseIdx i
          counters := r.settle succeeded now s.counters }
      | _ => none

/-- The executed operations of a throttle subject, successful sign-ins apart. -/
def spent (entry : Entry) (log : List (Request × Bool)) : Nat :=
  log.countP fun op => entry ∈ op.1.entries ∧ ¬ (op.1.endpoint = .signIn ∧ op.2)

/-! ### One window of a counter -/

/-- Nothing is left of earlier windows. -/
def Fresh (entry : Entry) (start : Nat) (counters : Counters) : Prop :=
  ∀ c ∈ counters entry,
    c.windowStartedAt + entry.1.rule.window ≤ start ∧ ∀ time ∈ c.blockedUntil, time ≤ start

theorem fresh_empty (entry : Entry) (start : Nat) : Fresh entry start fun _ => none := by
  intro c found
  cases found

/-- What the counter says after `n` attempts in the window that starts at `start`: it blocks from the
last one of the budget on. -/
def Spent (entry : Entry) (start n : Nat) (counters : Counters) : Prop :=
  (n = 0 ∧ Fresh entry start counters) ∨ ∃ c, counters entry = some c ∧ start ≤ c.windowStartedAt ∧
    c.attempts = n ∧ if n < entry.1.rule.limit then c.blockedUntil = none
      else n = entry.1.rule.limit ∧ ∃ time, c.blockedUntil = some time ∧ start + entry.1.rule.window ≤ time

/-- Every rule admits two attempts, and blocks for a window at least. -/
theorem Scope.rule_sound (scope : Scope) :
    2 ≤ scope.rule.limit ∧ scope.rule.window ≤ scope.rule.block := by
  cases scope <;> decide

theorem longest_open {states : List ThrottleState}
    (positive : ∀ state ∈ states, state.blocked → 0 < state.retryAfter) :
    (longest states).blocked = true ∨ longest states = {} ∧ ∀ state ∈ states, state.blocked = false := by
  induction states using List.reverseRecOn with
  | nil => exact .inr ⟨rfl, nofun⟩
  | append_singleton states state ih =>
    have last : longest (states ++ [state]) = if state.blocked ∧
        (longest states).retryAfter < state.retryAfter then state else longest states := by
      rw [longest, foldl_append]
      rfl
    rw [last]
    split
    · next wins => exact .inl wins.1
    · next kept =>
      refine (ih fun other member => positive other (mem_append_left _ member)).imp_right ?_
      rintro ⟨none_, open_⟩
      refine ⟨none_, fun other member => ?_⟩
      rcases mem_append.mp member with old | new
      · exact open_ other old
      · cases mem_singleton.mp new
        rw [none_] at kept
        refine eq_false_iff.mpr fun is => kept ⟨is, positive _ member is⟩

variable {now : Nat} {entry : Entry} {counters : Counters} {succeeded : Bool}

theorem status_positive (is : (throttleStatus counters now entry).blocked) :
    0 < (throttleStatus counters now entry).retryAfter := by
  unfold throttleStatus throttleState at is ⊢
  split at is
  · cases is
  split at is
  · next before =>
    rw [if_pos before]
    exact Nat.sub_pos_of_lt before
  · cases is

variable {r : Request}

theorem unblocked (passed : (blocked counters r now).blocked = false) (member : entry ∈ r.entries) :
    (throttleStatus counters now entry).blocked = false := by
  have positive : ∀ state ∈ r.entries.map (throttleStatus counters now), state.blocked → 0 < state.retryAfter := by
    intro state among is
    obtain ⟨other, _, rfl⟩ := mem_map.mp among
    exact status_positive is
  rcases longest_open positive with won | ⟨_, open_⟩
  · exact absurd (passed.symm.trans won) (by decide)
  · exact open_ _ (mem_map_of_mem member)

section Counter

variable {entry : Entry} {start now n : Nat} {counters counters' : Counters}

theorem Spent.le (spent : Spent entry start n counters) : n ≤ entry.1.rule.limit := by
  rcases spent with ⟨rfl, _⟩ | ⟨c, _, _, _, state⟩
  · exact zero_le _
  split at state
  · omega
  · exact le_of_eq state.1

theorem Spent.of_eq (same : counters' entry = counters entry) (spent : Spent entry start n counters) :
    Spent entry start n counters' := by
  unfold Spent Fresh at spent ⊢
  rwa [same]

/-- A spent budget blocks for the rest of the window. -/
theorem Spent.room (spent : Spent entry start n counters) (inside : now < start + entry.1.rule.window)
    (open_ : (throttleStatus counters now entry).blocked = false) : n < entry.1.rule.limit := by
  rcases spent with ⟨rfl, _⟩ | ⟨c, found, _, _, state⟩
  · have sound := entry.1.rule_sound
    omega
  split at state
  · assumption
  obtain ⟨_, time, until_, late⟩ := state
  have before : now < time := by omega
  simp [throttleStatus, found, until_, throttleState, before] at open_

theorem Fresh.attempted (fresh : Fresh entry start counters) (later : start ≤ now) :
    attempted entry.1.rule now (counters entry) = ⟨now, 1, none⟩ := by
  cases found : counters entry with
  | none => rfl
  | some c =>
    obtain ⟨elapsed, ends⟩ := fresh c found
    have open_ : c.blockedUntil.any (now < ·) = false := by
      cases until_ : c.blockedUntil with
      | none => rfl
      | some time =>
        have past := ends time until_
        simpa using by omega
    simp only [Auth.attempted, Counter.record, open_, false_eq_true, if_false]
    rw [if_pos (by omega)]

/-- **An attempt is counted**, and the last one of the budget blocks. -/
theorem Spent.record (spent : Spent entry start n counters) (later : start ≤ now)
    (inside : now < start + entry.1.rule.window) (room : n < entry.1.rule.limit)
    (written : counters' entry = some (attempted entry.1.rule now (counters entry))) :
    Spent entry start (n + 1) counters' := by
  obtain ⟨two, long⟩ := entry.1.rule_sound
  refine .inr ⟨_, written, ?_⟩
  rcases spent with ⟨rfl, fresh⟩ | ⟨c, found, started, attempts, state⟩
  · rw [fresh.attempted later, if_pos (by omega)]
    exact ⟨later, rfl, rfl⟩
  rw [if_pos room] at state
  simp only [found, attempted, Counter.record, state, any_none, false_eq_true, if_false]
  rw [if_neg (by omega), attempts]
  refine ⟨started, rfl, ?_⟩
  split
  · rw [if_neg (by omega)]
  · rw [if_pos (by omega)]
    exact ⟨by omega, _, rfl, by omega⟩

end Counter

/-! ### Settling -/

section Settle

variable {entry : Entry} {now : Nat} {counters : Counters}

theorem Request.entries_nodup (r : Request) : r.entries.Nodup := by
  have scopes : r.endpoint.scopes.Nodup := by cases r.endpoint <;> decide
  refine scopes.filterMap fun scope scope' entry here there => ?_
  obtain ⟨_, _, rfl⟩ := map_eq_some_iff.mp here
  obtain ⟨_, _, same⟩ := map_eq_some_iff.mp there
  exact (congrArg Prod.fst same).symm

variable {entries : List Entry}

theorem record_apply (nodup : entries.Nodup) :
    record now entries counters entry =
    if entry ∈ entries then some (attempted entry.1.rule now (counters entry)) else counters
    entry := by
  induction entries generalizing counters with
  | nil => rfl
  | cons first rest ih =>
    obtain ⟨fresh, nodup⟩ := nodup_cons.mp nodup
    refine (ih nodup).trans ?_
    by_cases here : entry = first
    · subst here
      simp [fresh, recordAuthAttempt]
    · simp [here, recordAuthAttempt]

theorem clearThrottle_apply :
    clearThrottle entries counters entry = if entry ∈ entries then none else counters entry := by
  induction entries generalizing counters with
  | nil => rfl
  | cons first rest ih =>
    refine ih.trans ?_
    by_cases here : entry = first
    · subst here
      simp [clearAuthThrottle]
    · simp [clearAuthThrottle, here]

theorem Request.settle_other (other : entry ∉ r.entries) :
    r.settle succeeded now counters entry = counters entry := by
  unfold settle
  split
  · rw [clearThrottle_apply, if_neg other]
  split
  · rw [record_apply r.entries_nodup, if_neg other]
  · rfl

/-- A counter it names has one attempt more, unless a sign-in succeeds. -/
theorem Request.settle_named (named : entry ∈ r.entries) (records : r.endpoint.records = true)
    (failed : ¬ (r.endpoint = .signIn ∧ succeeded = true)) :
    r.settle succeeded now counters entry = some (attempted entry.1.rule now (counters entry)) := by
  unfold settle
  rw [if_neg failed, if_pos records, record_apply r.entries_nodup, if_pos named]

end Settle

variable {s : State}

/-! ### Runs -/

section Runs

variable (entry : Entry) (start : Nat)

/-- One request of the subject at a time, inside one window, and no sign-in of the subject succeeds. -/
def Alone (s : State) : Move → Prop
  | .arrive r now => entry ∈ r.entries →
      (∀ flight ∈ s.flights, entry ∉ flight.request.entries) ∧ now < start + entry.1.rule.window
  | .execute i succeeded => succeeded = true →
      ∀ flight ∈ s.flights[i]?, flight.request.endpoint = .signIn → entry ∉ flight.request.entries
  | .finish i now => ∀ flight ∈ s.flights[i]?, entry ∈ flight.request.entries →
      start ≤ now ∧ now < start + entry.1.rule.window

instance (s : State) (m : Move) : Decidable (Alone entry start s m) := by
  cases m <;> unfold Alone <;> infer_instance

/-- The flights of the subject. -/
def own (flights : List Flight) : List Flight := flights.filter fun flight => entry ∈ flight.request.entries

/-- What the counter says in these flights of the subject, after `n` attempts of it: one that is executed
and not yet settled is ahead of the counter. -/
inductive Counted : List Flight → Nat → Counters → Prop
  | idle {n counters} (is : Spent entry start n counters) : Counted [] n counters
  | checked {r n counters} (is : Spent entry start n counters) (room : n < entry.1.rule.limit) :
      Counted [⟨r, none⟩] n counters
  | executed {r succeeded n counters} (is : Spent entry start n counters) (room : n < entry.1.rule.limit)
      (failed : ¬ (r.endpoint = .signIn ∧ succeeded = true)) : Counted [⟨r, some succeeded⟩] (n + 1) counters

variable {entry start} {flights before after : List Flight} {f : Flight} {n : Nat}

theorem Counted.le (counted : Counted entry start flights n counters) : n ≤ entry.1.rule.limit := by
  cases counted with
  | idle is | checked is => exact is.le
  | executed _ room => exact room

theorem Counted.of_eq {counters' : Counters} (row : counters' entry = counters entry)
    (counted : Counted entry start flights n counters) : Counted entry start flights n counters' := by
  cases counted with
  | idle is => exact .idle (is.of_eq row)
  | checked is room => exact .checked (is.of_eq row) room
  | executed is room failed => exact .executed (is.of_eq row) room failed

theorem own_other (other : entry ∉ f.request.entries) :
    own entry (before ++ f :: after) = own entry (before ++ after) := by
  simp [own, other]

theorem own_only (named : entry ∈ f.request.entries) (none_ : own entry (before ++ after) = []) :
    own entry (before ++ f :: after) = [f] := by
  rw [own, filter_append, append_eq_nil_iff] at none_
  rw [own, filter_append, filter_cons_of_pos (by simpa using named), none_.1, none_.2]
  rfl

theorem Counted.length (counted : Counted entry start flights n counters) : flights.length ≤ 1 := by
  cases counted <;> simp

/-- A flight of the subject is its only one. -/
theorem Counted.only (named : entry ∈ f.request.entries)
    (counted : Counted entry start (own entry (before ++ f :: after)) n counters) :
    own entry (before ++ after) = [] ∧ Counted entry start [f] n counters := by
  have one := counted.length
  have more : (own entry (before ++ f :: after)).length = (own entry (before ++ after)).length + 1 := by
    simp [own, named, Nat.add_assoc]
  have none_ : own entry (before ++ after) = [] := length_eq_zero_iff.mp (by omega)
  exact ⟨none_, own_only named none_ ▸ counted⟩

theorem mem_scopes (named : entry ∈ r.entries) : entry.1 ∈ r.endpoint.scopes := by
  obtain ⟨scope, member, is⟩ := mem_filterMap.mp named
  obtain ⟨_, _, rfl⟩ := map_eq_some_iff.mp is
  exact member

theorem spent_cons {op : Request × Bool} {log : List (Request × Bool)} :
    spent entry (op :: log) = spent entry log + if entry ∈ op.1.entries ∧
    ¬ (op.1.endpoint = .signIn ∧ op.2 = true) then 1 else 0 := by
  simp only [spent, countP_cons, decide_eq_true_eq]

theorem Counted.arrive (counted : Counted entry start (own entry s.flights) n s.counters)
    (passed : (blocked s.counters r now).blocked = false) (alone : Alone entry start s (.arrive r now)) :
    Counted entry start (own entry (s.flights ++ [⟨r, none⟩])) n s.counters := by
  by_cases named : entry ∈ r.entries
  · obtain ⟨others, inside⟩ := alone named
    have none_ : own entry s.flights = [] := filter_eq_nil_iff.mpr fun flight member => by
      simpa using others flight member
    rw [own_only named (by rwa [append_nil])]
    rw [none_] at counted
    cases counted with
    | idle is => exact .checked is (is.room inside (unblocked passed named))
  · rwa [own_other named, append_nil]

theorem Counted.execute {log : List (Request × Bool)}
    (counted : Counted entry start (own entry (before ++ ⟨r, none⟩ :: after)) (spent entry log) counters)
    (fails : succeeded = true → r.endpoint = .signIn → entry ∉ r.entries) :
    Counted entry start (own entry (before ++ ⟨r, some succeeded⟩ :: after))
      (spent entry ((r, succeeded) :: log)) counters := by
  rw [spent_cons]
  by_cases named : entry ∈ r.entries
  · obtain ⟨none_, counted⟩ := counted.only named
    have failed : ¬ (r.endpoint = .signIn ∧ succeeded = true) := fun ⟨signIn, ok⟩ => fails ok signIn named
    rw [own_only named none_, if_pos ⟨named, failed⟩]
    cases counted with
    | checked is room => exact .executed is room failed
  · rw [own_other named] at counted
    rwa [own_other named, if_neg fun ⟨is, _⟩ => named is]

theorem Counted.finish
    (counted : Counted entry start (own entry (before ++ ⟨r, some succeeded⟩ :: after)) n counters)
    (records : ∀ e : Endpoint, entry.1 ∈ e.scopes → e.records = true)
    (inside : entry ∈ r.entries → start ≤ now ∧ now < start + entry.1.rule.window) :
    Counted entry start (own entry (before ++ after)) n (r.settle succeeded now counters) := by
  by_cases named : entry ∈ r.entries
  · obtain ⟨none_, counted⟩ := counted.only named
    obtain ⟨later, inside⟩ := inside named
    rw [none_]
    cases counted with
    | executed is room failed =>
      exact .idle (is.record later inside room (settle_named named (records _ (mem_scopes named)) failed))
  · rw [own_other named] at counted
    exact counted.of_eq (settle_other named)

theorem flights_split {i : Nat} (at_ : flights[i]? = some f) :
    ∃ before after, flights = before ++ f :: after ∧ i = before.length := by
  obtain ⟨inside, rfl⟩ := List.getElem?_eq_some_iff.mp at_
  refine ⟨flights.take i, flights.drop (i + 1), ?_, by simp [le_of_lt inside]⟩
  rw [getElem_cons_drop, take_append_drop]

theorem next_counted {t : State} {m : Move} (records : ∀ e : Endpoint, entry.1 ∈ e.scopes → e.records = true)
    (counted : Counted entry start (own entry s.flights) (spent entry s.log) s.counters)
    (alone : Alone entry start s m) (moved : next s m = some t) :
    Counted entry start (own entry t.flights) (spent entry t.log) t.counters := by
  cases m with
  | arrive r now =>
    simp only [next] at moved
    split at moved
    · cases moved
      exact counted
    · next passed =>
      cases moved
      exact counted.arrive (eq_false_iff.mpr passed) alone
  | execute i succeeded =>
    simp only [next] at moved
    split at moved
    · next r at_ =>
      cases moved
      obtain ⟨before, after, split_, rfl⟩ := flights_split at_
      rw [split_] at counted ⊢
      simpa using counted.execute fun ok signIn => alone ok ⟨r, none⟩ at_ signIn
    · cases moved
  | finish i now =>
    simp only [next] at moved
    split at moved
    · next r ok at_ =>
      cases moved
      obtain ⟨before, after, split_, rfl⟩ := flights_split at_
      rw [split_] at counted ⊢
      rw [eraseIdx_append_of_length_le (le_refl _)]
      simpa using counted.finish records (alone ⟨r, some ok⟩ at_)
    · cases moved

/-- **The budget of a window**, where the endpoints record what they execute, requests of the subject are
handled one at a time and no sign-in of it succeeds. -/
theorem throttle_budget_kept {t : State}
    (records : ∀ e : Endpoint, entry.1 ∈ e.scopes → e.records = true)
    (fresh : Fresh entry start s.counters) (idle : s.flights = []) (none_ : s.log = [])
    (reached : Reach next (Alone entry start) s t) : spent entry t.log ≤ entry.1.rule.limit := by
  have initial : Counted entry start (own entry s.flights) (spent entry s.log) s.counters := by
    rw [idle, none_]
    exact .idle (.inl ⟨rfl, fresh⟩)
  exact Counted.le (reached.invariant initial fun _ _ _ => next_counted records)

/-- A request of another address is in flight all the time. -/
theorem throttle_budget_kept_twice : ∃ t : State, spent (.signInIP, .ip "a") t.log = 2 ∧
    spent (.signInIP, .ip "a") t.log ≤ 30 := by
  obtain ⟨t, reached, two⟩ := reach_of_replay next (Alone (.signInIP, .ip "a") 0) {}
    [.arrive ⟨.signIn, some "b", "x"⟩ 0, .arrive ⟨.signIn, some "a", "x"⟩ 0, .execute 1 false,
      .finish 1 1, .arrive ⟨.signIn, some "a", "y"⟩ 2, .execute 0 true, .execute 1 false, .finish 1 2]
    (fun t => spent (.signInIP, .ip "a") t.log = 2) (by decide +kernel)
  have records (e : Endpoint) (has : signInIP ∈ e.scopes) : e.records = true := by
    cases e <;> simp_all [Endpoint.scopes, Endpoint.records]
  exact ⟨t, two, throttle_budget_kept records (fresh_empty _ _) rfl rfl reached⟩

/-- A client that tries tokens at the verification endpoint, one after another. -/
def guesses (n : Nat) : List Move :=
  (List.replicate n [.arrive ⟨.verifyAccessRequest, some "a", ""⟩ 0, .execute 0 false, .finish 0 0]).flatten

/-- **Verification is not throttled**: 61 tokens of one address are tried in a window of 60. -/
theorem throttle_budget_exceeded : ∃ t, Reach next (Alone (.verifyIP, .ip "a") 0) {} t ∧
    verifyIP.rule.limit < spent (.verifyIP, .ip "a") t.log :=
  reach_of_replay next _ {} (guesses 61) _ (by decide +kernel)

end Runs

/-! ### The counter of one subject -/

/-- The row of a subject, and the attempts that were recorded while it was not blocked. -/
structure Journal where
  counter : Option Counter := none
  counted : List Nat := []

def Journal.status (j : Journal) (now : Nat) : ThrottleState :=
  throttleState (j.counter.bind Counter.blockedUntil) now

section Journal

variable (rule : ThrottleRule)

/-- `RecordAuthAttempt`. -/
def Journal.record (j : Journal) (now : Nat) : Journal where
  counter := some (attempted rule now j.counter)
  counted := if (j.status now).blocked then j.counted else now :: j.counted

def journal (times : List Nat) : Journal := times.foldl (Journal.record rule) {}

/-- The attempts in the half-open interval of a window's length from `start` on. -/
def within (start : Nat) (times : List Nat) : Nat :=
  times.countP fun t => start ≤ t ∧ t < start + rule.window

/-- **What the row says of the attempts.** It blocks when the budget is spent; an interval that begins
after its window did has not the first attempt of it, and one that the window begins in has less than a
budget of earlier ones. -/
structure Counts (counted : List Nat) (startedAt attempts : Nat) (until_ : Option Nat) : Prop where
  first : startedAt ∈ counted
  most : attempts ≤ rule.limit
  spent : until_ = none → attempts < rule.limit
  block : ∀ time ∈ until_, startedAt + rule.window ≤ time
  after : ∀ start, startedAt < start → within rule start counted < attempts
  around : ∀ start ≤ startedAt, startedAt < start + rule.window →
    within rule start counted < attempts + rule.limit
  spread : ∀ start, within rule start counted < 2 * rule.limit

structure Journal.Kept (j : Journal) : Prop where
  none_ : j.counter = none → j.counted = []
  row : ∀ c ∈ j.counter, Counts rule j.counted c.windowStartedAt c.attempts c.blockedUntil

/-- An attempt finds the subject blocked, opens a window, or is counted in the current one. -/
inductive Journal.Records (j : Journal) (now : Nat) : Journal → Prop
  | blocked (is : (j.status now).blocked) : Records j now j
  | opens (is : ¬ (j.status now).blocked) (ends : ∀ c ∈ j.counter, c.windowStartedAt + rule.window ≤ now) :
      Records j now ⟨some ⟨now, 1, none⟩, now :: j.counted⟩
  | counts {c : Counter} (is : ¬ (j.status now).blocked) (row : j.counter = some c) (free : c.blockedUntil = none)
      (inside : now < c.windowStartedAt + rule.window) :
      Records j now ⟨some ⟨c.windowStartedAt, c.attempts + 1,
        if rule.limit ≤ c.attempts + 1 then some (now + rule.block) else none⟩, now :: j.counted⟩

end Journal

section Law

variable {rule : ThrottleRule} {j : Journal} {times : List Nat}

theorem Journal.blocked_eq (j : Journal) (now : Nat) :
    (j.status now).blocked = (j.counter.bind Counter.blockedUntil).any (now < ·) := by
  unfold status throttleState
  split
  · next none_ => rw [none_]; rfl
  · next time until_ => split <;> simp_all

theorem Journal.Kept.records (kept : j.Kept rule) (now : Nat) : j.Records rule now (j.record rule now) := by
  obtain ⟨_ | ⟨startedAt, attempts, until_⟩, counted⟩ := j
  · exact .opens (by simp [blocked_eq]) nofun
  have status := blocked_eq ⟨some ⟨startedAt, attempts, until_⟩, counted⟩ now
  have late := (kept.row _ rfl).block
  dsimp only [bind_some] at status late
  cases blocked : until_.any (now < ·)
  · have is := eq_false_iff.mp (status.trans blocked)
    simp only [record, is, blocked, attempted, Counter.record, false_eq_true, if_false]
    split
    · next ends => exact .opens is fun _ row => by cases row; exact ends
    · next inside =>
      have free : until_ = none := by
        cases until_ with
        | none => rfl
        | some time =>
          have := late time rfl
          simp only [any_some, decide_eq_false_iff_not] at blocked
          omega
      exact Records.counts (c := ⟨startedAt, attempts, until_⟩) is rfl free (Nat.lt_of_not_le inside)
  · simp only [record, status, blocked, attempted, Counter.record, if_true]
    exact .blocked (status.trans blocked)

theorem within_cons (start : Nat) : within rule start (now :: times) =
    within rule start times + if start ≤ now ∧ now < start + rule.window then 1 else 0 := by
  simp [within, countP_cons]

theorem within_past {start : Nat} (past : ∀ t ∈ times, t < start) : within rule start times = 0 := by
  refine countP_eq_zero.mpr fun t member => ?_
  simp [not_le.mpr (past t member)]

theorem Journal.Kept.record (two : 2 ≤ rule.limit) (long : rule.window ≤ rule.block) (kept : j.Kept rule)
    (past : ∀ t ∈ j.counted, t ≤ now) : (j.record rule now).Kept rule := by
  generalize j.record rule now = j', kept.records now = records
  cases records with
  | blocked => exact kept
  | opens _ ends =>
    have old (start : Nat) : within rule start j.counted < 2 * rule.limit ∧
        (now < start + rule.window → within rule start j.counted < rule.limit) := by
      cases row : j.counter with
      | none =>
        rw [kept.none_ row]
        simp only [within, countP_nil]
        omega
      | some c =>
        obtain ⟨_, most, _, _, after, _, spread⟩ := kept.row c row
        have := ends c row
        have := after start
        exact ⟨spread start, by omega⟩
    refine ⟨nofun, ?_⟩
    rintro _ ⟨⟩
    dsimp only
    refine ⟨.head _, le_of_succ_le two, fun _ => two, nofun, fun start before => ?_,
      fun start from_ until_ => ?_, fun start => ?_⟩ <;> rw [within_cons]
    · rw [within_past fun t member => lt_of_le_of_lt (past t member) before,
        if_neg fun reached => not_le.mpr before reached.1]
      exact one_pos
    · have := (old start).2 until_
      split <;> omega
    · have := old start
      split <;> omega
  | @counts c _ row free inside =>
    obtain ⟨first, most, spent, _, after, around, spread⟩ := kept.row c row
    have started := past _ first
    have room := spent free
    refine ⟨nofun, ?_⟩
    rintro _ ⟨⟩
    dsimp only
    refine ⟨.tail _ first, room, fun open_ => ?_, fun time until_ => ?_, fun start before => ?_,
      fun start from_ until_ => ?_, fun start => ?_⟩
    · split at open_
      · cases open_
      · next spare => exact not_le.mp spare
    · split at until_ <;> cases until_
      exact Nat.add_le_add started long
    all_goals
      have := after start
      have := around start
      have := spread start
      rw [within_cons]
      split <;> omega

theorem journal_concat (times : List Nat) (now : Nat) :
    journal rule (times ++ [now]) = (journal rule times).record rule now := foldl_concat ..

theorem journal_kept (two : 2 ≤ rule.limit) (long : rule.window ≤ rule.block) (sorted : times.Pairwise (· ≤ ·)) :
    (journal rule times).Kept rule ∧ ∀ t ∈ (journal rule times).counted, t ∈ times := by
  induction times using List.reverseRecOn with
  | nil => exact ⟨⟨fun _ => rfl, nofun⟩, nofun⟩
  | append_singleton times now ih =>
    obtain ⟨before, _, last⟩ := pairwise_append.mp sorted
    obtain ⟨kept, known⟩ := ih before
    rw [journal_concat]
    refine ⟨kept.record two long fun t member => last t (known t member) now (.head _), fun t member => ?_⟩
    simp only [Journal.record] at member
    split at member
    · exact mem_append_left _ (known t member)
    · rcases mem_cons.mp member with rfl | old
      · exact mem_append_right _ (.head _)
      · exact mem_append_left _ (known t old)

/-- **The law of a counter.** An attempt on a blocked subject changes nothing. Any other is the first of a
window or one more of the current one, and blocks if it spends the budget. After a block a window begins. No
interval of a window's length has two budgets of attempts. -/
theorem throttle_counter_law (two : 2 ≤ rule.limit) (long : rule.window ≤ rule.block)
    (sorted : (times ++ [now]).Pairwise (· ≤ ·)) :
    let before := journal rule times
    let after := journal rule (times ++ [now])
    ((before.status now).blocked → after = before) ∧
    (¬ (before.status now).blocked → ∃ c, after.counter = some c ∧
      (c.windowStartedAt = now ∧ c.attempts = 1 ∨ ∃ b, before.counter = some b ∧
        now < b.windowStartedAt + rule.window ∧ c.windowStartedAt = b.windowStartedAt ∧
        c.attempts = b.attempts + 1) ∧
      ∀ later ≥ now, (after.status later).blocked ↔ c.attempts = rule.limit ∧ later < now + rule.block) ∧
    (∀ time, before.counter.bind Counter.blockedUntil = some time → time ≤ now →
      after.counter = some ⟨now, 1, none⟩) ∧
    ∀ start, within rule start after.counted ≤ 2 * rule.limit - 1 := by
  intro before after
  have kept : before.Kept rule := (journal_kept two long (pairwise_append.mp sorted).1).1
  have again : after.Kept rule := (journal_kept two long sorted).1
  have records : before.Records rule now after := by
    have := kept.records now
    rwa [← journal_concat] at this
  clear_value before after
  refine ⟨fun is => ?_, fun is => ?_, fun time until_ past => ?_, fun start => ?_⟩
  · cases records with
    | blocked => rfl
    | opens not | counts not => exact absurd is not
  · cases records with
    | blocked blocked => exact absurd blocked is
    | opens =>
      refine ⟨_, rfl, .inl ⟨rfl, rfl⟩, fun later _ => ?_⟩
      simp [Journal.blocked_eq]
      omega
    | @counts c _ row free inside =>
      refine ⟨_, rfl, .inr ⟨c, row, inside, rfl, rfl⟩, fun later _ => ?_⟩
      have := (kept.row c row).spent free
      simp [Journal.blocked_eq]
      split <;> simp <;> omega
  · cases records with
    | blocked blocked =>
      simp [Journal.blocked_eq, until_] at blocked
      omega
    | opens => rfl
    | counts _ row free => simp [row, free] at until_
  · cases row : after.counter with
    | none =>
      rw [again.none_ row]
      exact zero_le _
    | some c => exact le_sub_one_of_lt ((again.row c row).spread start)

theorem throttle_counter_law_blocks : (journal ⟨2, 10, 20⟩ [0, 3]).counter = some ⟨0, 2, some 23⟩ ∧
    ∀ start, within ⟨2, 10, 20⟩ start (journal ⟨2, 10, 20⟩ [0, 3]).counted ≤ 3 :=
  ⟨rfl, (@throttle_counter_law 3 ⟨2, 10, 20⟩ [0] (by decide) (by decide) (by decide)).2.2.2⟩

end Law

/-! ### Sign-ins from one address -/

/-- An attempt to sign in to an account, and whether the account is active and the password its own. -/
structure Attempt where
  email : String
  succeeds : Bool
  now : Nat

def signIn (address : String) (s : State) (a : Attempt) : State :=
  let r : Request := ⟨.signIn, some address, a.email⟩
  if (blocked s.counters r a.now).blocked then s
  else { s with
    counters := r.settle a.succeeds a.now s.counters
    log := (r, a.succeeds) :: s.log }

/-- The failed sign-ins against accounts that were not signed in to. -/
def failures (log : List (Request × Bool)) : Nat :=
  log.countP fun op => ¬ op.2 ∧ ¬ log.any fun other => other.2 ∧ other.1.email = op.1.email

/-- The failed sign-ins since the last success. -/
def held (log : List (Request × Bool)) : List (Request × Bool) := log.takeWhile fun op => ¬ op.2

/-- The failures against other accounts that are held. -/
def against (email : String) (log : List (Request × Bool)) : Nat :=
  (held log).countP fun op => op.1.email ≠ email

/-- The count of the address, unless it is of a window before `start`. -/
def recorded (address : String) (start : Nat) (counters : Counters) : Nat :=
  match counters (.signInIP, .ip address) with
  | none => 0
  | some c => if start ≤ c.windowStartedAt then c.attempts else 0

theorem signIn_named (address email : String) :
    (.signInIP, .ip address) ∈ (⟨.signIn, some address, email⟩ : Request).entries := by
  simp [entries, Endpoint.scopes, subject, ofAccount]

section Address

variable {address : String} {start n : Nat} {counters : Counters} {a : Attempt} {s t : State}

variable (address start) in
/-- The attempt is made in the window, and it does not succeed while failures against other accounts are
held. -/
def Sparing (s : State) (a : Attempt) : Prop :=
  start ≤ a.now ∧ a.now < start + signInIP.rule.window ∧
    (a.succeeds = true → (blocked s.counters ⟨.signIn, some address, a.email⟩ a.now).blocked = false →
      ∀ op ∈ held s.log, op.1.email = a.email)

instance (s : State) (a : Attempt) : Decidable (Sparing address start s a) := by
  unfold Sparing
  infer_instance

variable (address start) in
/-- The counter has the failures that are held, and the earlier ones are against accounts that were signed
in to. -/
structure Holds (s : State) : Prop where
  counter : Spent (.signInIP, .ip address) start (held s.log).length s.counters
  cleared : ∀ op ∈ s.log.dropWhile fun op => ¬ op.2, op.2 = false →
    ∃ other ∈ s.log, other.2 = true ∧ other.1.email = op.1.email

theorem Spent.recorded (is : Spent (.signInIP, .ip address) start n counters) :
    recorded address start counters = n := by
  unfold Auth.recorded
  rcases is with ⟨rfl, fresh⟩ | ⟨c, found, started, attempts, _⟩
  · cases found : counters (.signInIP, .ip address) with
    | none => rfl
    | some c =>
      have elapsed : c.windowStartedAt + signInIP.rule.window ≤ start := (fresh c found).1
      have long : 0 < signInIP.rule.window := by decide
      exact if_neg fun started => by omega
  · rw [found]
    exact (if_pos started).trans attempts

theorem countP_le_takeWhile {α : Type} {p q : α → Bool} {l : List α} (none_ : ∀ x ∈ l.dropWhile q, ¬ p x) :
    l.countP p ≤ (l.takeWhile q).length := by
  calc l.countP p = (l.takeWhile q ++ l.dropWhile q).countP p := by rw [takeWhile_append_dropWhile]
    _ = (l.takeWhile q).countP p := by rw [countP_append, countP_eq_zero.mpr none_, add_zero]
    _ ≤ (l.takeWhile q).length := countP_le_length

theorem Holds.bound (holds : Holds address start s) : failures s.log ≤ signInIP.rule.limit := by
  refine le_trans (countP_le_takeWhile fun op member counted => ?_) holds.counter.le
  simp only [decide_eq_true_eq] at counted
  obtain ⟨other, present, ok, same⟩ := holds.cleared op member (eq_false_iff.mpr counted.1)
  exact counted.2 (any_eq_true.mpr ⟨other, present, by simp [ok, same]⟩)

/-- A sign-in is refused, fails and is held, or succeeds and clears. -/
theorem signIn_cases (address : String) (s : State) (a : Attempt) :
    let r : Request := ⟨.signIn, some address, a.email⟩
    let t := signIn address s a
    t = s ∨ (blocked s.counters r a.now).blocked = false ∧ t.log = (r, a.succeeds) :: s.log ∧
      t.counters = r.settle a.succeeds a.now s.counters := by
  dsimp only [signIn]
  split
  · exact .inl rfl
  · next passed => exact .inr ⟨eq_false_iff.mpr passed, rfl, rfl⟩

theorem Holds.signIn (holds : Holds address start s) (sparing : Sparing address start s a) :
    Holds address start (signIn address s a) := by
  obtain ⟨later, inside, spares⟩ := sparing
  have named := signIn_named address a.email
  rcases signIn_cases address s a with same | ⟨passed, log, counters⟩
  · rwa [same]
  cases ok : a.succeeds with
  | false =>
    rw [ok] at log counters
    have room := holds.counter.room inside (unblocked passed named)
    constructor
    · rw [log, held, takeWhile_cons_of_pos (by simp)]
      exact holds.counter.record later inside room
        (counters ▸ settle_named named rfl (by simp))
    · rw [log, dropWhile_cons_of_pos (by simp)]
      intro op member failed
      obtain ⟨other, present, same⟩ := holds.cleared op member failed
      exact ⟨other, .tail _ present, same⟩
  | true =>
    rw [ok] at log counters
    constructor
    · rw [log, held, takeWhile_cons_of_neg (by simp), counters, settle, if_pos ⟨rfl, rfl⟩]
      refine .inl ⟨rfl, fun c found => ?_⟩
      rw [clearThrottle_apply, if_pos named] at found
      cases found
    · rw [log, dropWhile_cons_of_neg (by simp)]
      intro op member failed
      rcases mem_cons.mp member with rfl | member
      · cases failed
      rw [← takeWhile_append_dropWhile (p := fun op => ¬ op.2) (l := s.log)] at member
      rcases mem_append.mp member with recent | old
      · exact ⟨_, .head _, rfl, (spares ok passed op recent).symm⟩
      · obtain ⟨other, present, same⟩ := holds.cleared op old failed
        exact ⟨other, .tail _ present, same⟩

end Address

end Iterabase.Auth
