/-
**The tool gateway — each kind of action keeps the rules.**

* `Orderly.append`, `Orderly.begun`, `Orderly.invoked` — the trace grows in order.
-/

import Iterabase.Gateway.Base

namespace Iterabase.Gateway

open Conc Data List Option State Obs Ledger

variable {cfg : Config} {t : Nat} {call : Call} {id : InvocationID} {s s' : State}

/-! ### The trace -/

variable {α : Type} {new : List Obs} {ch i : Nat}

theorem split_old {new trace newer older : List α} {x : α}
    (split : new ++ trace = newer ++ x :: older) (old : x ∉ new) :
    ∃ newer', newer = new ++ newer' ∧ trace = newer' ++ x :: older := by
  rcases append_eq_append_iff.mp split with ⟨rest, rfl, same⟩ | ⟨rest, rfl, same⟩
  · exact ⟨rest, rfl, same⟩
  cases rest with
  | nil => exact ⟨[], (append_nil _).symm ▸ (append_nil _).symm, same.symm⟩
  | cons y rest =>
    obtain ⟨rfl, _⟩ := List.cons.inj same
    exact absurd (mem_append_right _ (.head _)) old

theorem eq_of_countP_le_one {p : α → Bool} {l : List α} {a b : α} (once : l.countP p ≤ 1)
    (here : a ∈ l) (there : b ∈ l) (selects : p a) (selects' : p b) : a = b := by
  rw [countP_eq_length_filter] at once
  have first := mem_filter.mpr ⟨here, selects⟩
  have second := mem_filter.mpr ⟨there, selects'⟩
  generalize l.filter p = found at once first second
  match found, once with
  | [x], _ => rw [mem_singleton.mp first, mem_singleton.mp second]

variable {trace : List Obs}

theorem countP_append_quiet {p : Obs → Bool} (quiet : ∀ o ∈ new, p o = false) :
    (new ++ trace).countP p = trace.countP p := by
  rw [countP_append, countP_eq_zero.mpr fun o member => by simp [quiet o member], Nat.zero_add]

variable {o : Obs}

theorem silent_parts (silent : o.acts id = false) :
    o.begins id = false ∧ o.invokes id = false ∧ o.renews id = false := by
  simpa [acts, and_assoc] using silent

theorem acts_row (sound : o.Sound s) (acts : o.acts id) : ∃ inv, s.ledger.find id = some inv := by
  cases o with
  | begun thread call id' inserted =>
    cases inserted with
    | true =>
      obtain rfl : id' = id := by simpa [Obs.acts, Obs.begins, Obs.invokes, Obs.renews] using acts
      obtain ⟨inv, row⟩ := sound
      exact ⟨inv, row.found⟩
    | false => simp [Obs.acts, Obs.begins, Obs.invokes, Obs.renews] at acts
  | invoked thread call conn invoke =>
    obtain rfl : invoke.invocationID = id := by
      simpa [Obs.acts, Obs.begins, Obs.invokes, Obs.renews] using acts
    obtain ⟨⟨inv, row⟩, _⟩ := sound
    exact ⟨inv, row.found⟩
  | renewed thread id' =>
    obtain rfl : id' = id := by simpa [Obs.acts, Obs.begins, Obs.invokes, Obs.renews] using acts
    obtain ⟨inv, found, _⟩ := sound
    exact ⟨inv, found⟩
  | finished | runner | responded => simp [Obs.acts, Obs.begins, Obs.invokes, Obs.renews] at acts

/-- Observations that begin no row and send nothing leave the order alone. -/
theorem Orderly.append (orderly : Orderly cfg trace)
    (calm : ∀ o ∈ new, ∀ id, o.begins id = false ∧ o.invokes id = false) :
    Orderly cfg (new ++ trace) where
  begunOnce := by
    intro id
    rw [countP_append_quiet fun o member => (calm o member id).1]
    exact orderly.begunOnce id
  renewed := by
    intro newer thread call conn invoke older split
    have old : Obs.invoked thread call conn invoke ∉ new := by
      intro member
      have silent := (calm _ member invoke.invocationID).2
      simp [invokes] at silent
    obtain ⟨newer', _, before⟩ := split_old split old
    exact orderly.renewed newer' thread call conn invoke older before
  bounded := by
    intro thread call id member
    rw [countP_append_quiet fun o member => (calm o member id).2]
    rcases mem_append.mp member with here | there
    · have silent := (calm _ here id).1
      simp [begins] at silent
    · exact orderly.bounded thread call id there

theorem Orderly.begun (orderly : Orderly cfg trace) (fresh : ∀ o ∈ trace, o.acts id = false) : Orderly
    cfg (.begun t call id true :: trace) where
  begunOnce := by
    intro id'
    rw [countP_cons]
    by_cases same : id = id'
    · subst same
      rw [countP_eq_zero.mpr fun o member => by simp [(silent_parts (fresh o member)).1]]
      simp [begins]
    · simpa [begins, same] using orderly.begunOnce id'
  renewed := by
    intro newer thread call' conn invoke older split
    cases newer with
    | nil => cases split
    | cons o newer =>
      obtain ⟨_, split⟩ := List.cons.inj split
      exact orderly.renewed newer thread call' conn invoke older split
  bounded := by
    intro thread call' id' member
    rw [countP_cons_of_neg (by simp [invokes])]
    rcases mem_cons.mp member with same | there
    · cases same
      rw [countP_eq_zero.mpr fun o member => by simp [(silent_parts (fresh o member)).2.1]]
      exact Nat.zero_le _
    · exact orderly.bounded thread call' id' there

/-- An Invoke is sent under a lease of its own, within the attempts. -/
theorem Orderly.invoked {conn : Nat} {invoke : Invoke} (orderly : Orderly cfg trace)
    (begun : .begun t call invoke.invocationID true ∈ trace)
    (renewed : Renewed invoke.invocationID trace)
    (budget : trace.countP (Obs.invokes invoke.invocationID) + 1 ≤
      attempts cfg call.tv invoke.invocationID) :
    Orderly cfg (.invoked t call conn invoke :: trace) where
  begunOnce := by
    intro id
    exact orderly.begunOnce id
  renewed := by
    intro newer thread call' conn' invoke' older split
    cases newer with
    | nil =>
      obtain ⟨same, rfl⟩ := List.cons.inj split
      cases same
      exact renewed
    | cons o newer =>
      obtain ⟨_, split⟩ := List.cons.inj split
      exact orderly.renewed newer thread call' conn' invoke' older split
  bounded := by
    intro thread call' id member
    have old : .begun thread call' id true ∈ trace := by
      rcases mem_cons.mp member with same | there
      · cases same
      · exact there
    by_cases here : invoke.invocationID = id
    · subst here
      have same := eq_of_countP_le_one (orderly.begunOnce invoke.invocationID) begun old
        (by simp [begins]) (by simp [begins])
      cases same
      simpa [invokes] using budget
    · simpa [invokes, here] using orderly.bounded thread call' id old

/-! ### The runners -/

/-- **A critical section of the runners** leaves the ledger and the trace alone. -/
theorem pool_step (base : Base cfg s) (ledger : s'.ledger = s.ledger) (trace : s'.trace = s.trace)
    (channels : ∀ (ch : Nat) (c : Channel), s.channels[ch]? = some c →
      ∃ c' : Channel, s'.channels[ch]? = some c' ∧ c'.invocationID = c.invocationID)
    (results : ∀ (ch : Nat) (c : Channel) report, s'.channels[ch]? = some c →
      c.result = some (.reported report) → Reports c.invocationID report s')
    (pending : ∀ (i : Nat) (rc : RunnerConn) entry, s'.conns[i]? = some rc → entry ∈ rc.pending →
      ∃ c : Channel, s'.channels[entry.2]? = some c ∧ c.invocationID = entry.1) :
    (baseRules cfg).Step t s s' := by
  have moves : Moves s s' := by
    refine ⟨trace ▸ suffix_refl _, fun id inv found => ⟨inv, ?_, .refl inv⟩, channels⟩
    rw [ledger]
    exact found
  refine ⟨⟨?_, trace ▸ base.orderly, ?_, results, pending⟩, moves, fun other _ => ⟨moves, fun id _ =>
    .of_eq trace (by rw [ledger])⟩⟩
  · intro o member
    rw [trace] at member
    exact (base.sound o member).moves moves
  · intro id inv found failed
    rw [ledger] at found
    rcases base.failed id inv found failed with unsent | ⟨report, reports, state⟩
    · left
      intro o member
      rw [trace] at member
      exact unsent o member
    · exact .inr ⟨report, reports.moves moves, state⟩

theorem modifyConn_step {f : RunnerConn → RunnerConn} (base : Base cfg s)
    (keeps : ∀ rc, (f rc).pending ⊆ rc.pending) : (baseRules cfg).Step t s (s.modifyConn i f) := by
  refine pool_step base rfl rfl (fun _ c found => ⟨c, found, rfl⟩) base.results ?_
  intro i' rc entry found member
  simp only [modifyConn, getElem?_modify] at found
  obtain ⟨rc₀, found₀, rfl⟩ := map_eq_some_iff.mp found
  have old : entry ∈ rc₀.pending := by
    split at member
    · exact keeps rc₀ member
    · exact member
  exact base.pending i' rc₀ entry found₀ old

theorem offer_step {result : DispatchResult} (base : Base cfg s)
    (evidence : ∀ (c : Channel) report, s.channels[ch]? = some c → result = .reported report →
      Reports c.invocationID report s) : (baseRules cfg).Step t s (s.offer ch result) := by
  have kept : ∀ (k : Nat) (c : Channel), s.channels[k]? = some c →
      ∃ c' : Channel, (s.offer ch result).channels[k]? = some c' ∧ c'.invocationID = c.invocationID := by
    intro k c found
    simp only [offer, getElem?_modify, found]
    refine ⟨_, rfl, ?_⟩
    split <;> rfl
  refine pool_step base rfl rfl kept ?_ ?_
  · intro k c report found held
    simp only [offer, getElem?_modify] at found
    obtain ⟨c₀, found₀, rfl⟩ := map_eq_some_iff.mp found
    split at held
    · rename_i here
      subst here
      rw [if_pos rfl]
      rcases was : c₀.result with _ | old
      · rw [was] at held
        exact evidence c₀ report found₀ (Option.some.inj held)
      rw [was] at held
      cases held
      exact base.results ch c₀ report found₀ was
    · rename_i other
      rw [if_neg other]
      exact base.results k c₀ report found₀ held
  · intro i rc entry found member
    obtain ⟨c, present, same⟩ := base.pending i rc entry found member
    obtain ⟨c', present', same'⟩ := kept entry.2 c present
    exact ⟨c', present', same'.trans same⟩

/-- The channel waits for a result of the invocation. -/
def Awaits (ch : Nat) (id : InvocationID) (s : State) : Prop :=
  ∃ c : Channel, s.channels[ch]? = some c ∧ c.invocationID = id

theorem Awaits.moves (awaits : Awaits ch id s) (moves : Moves s s') : Awaits ch id s' := by
  obtain ⟨c, found, same⟩ := awaits
  obtain ⟨c', found', same'⟩ := moves.channels ch c found
  exact ⟨c', found', same'.trans same⟩

theorem enter_step (base : Base cfg s) : (baseRules cfg).Step t s (s.enter i id).2 ∧
    ∀ ch, (s.enter i id).1 = some ch → Awaits ch id (s.enter i id).2 := by
  unfold enter
  split
  · exact ⟨pool_step base rfl rfl (fun _ c found => ⟨c, found, rfl⟩) base.results base.pending,
      nofun⟩
  have last : (s.channels ++ [{ invocationID := id : Channel }])[s.channels.length]? =
      some { invocationID := id } := getElem?_concat_length
  have kept : ∀ (ch : Nat) (c : Channel), s.channels[ch]? = some c →
      (s.channels ++ [{ invocationID := id : Channel }])[ch]? = some c := by
    intro ch c found
    obtain ⟨inside, _⟩ := List.getElem?_eq_some_iff.mp found
    rw [getElem?_append_left inside]
    exact found
  refine ⟨pool_step base rfl rfl (fun ch c found => ⟨c, kept ch c found, rfl⟩) ?_ ?_, ?_⟩
  · intro ch c report found held
    simp only [modifyConn, makeChannel] at found
    rcases getElem?_concat_cases found with old | ⟨_, rfl⟩
    · exact base.results ch c report old held
    · cases held
  · intro i' rc entry found member
    simp only [modifyConn, makeChannel, getElem?_modify] at found ⊢
    obtain ⟨rc₀, found₀, rfl⟩ := map_eq_some_iff.mp found
    have known : entry ∈ rc₀.pending → ∃ c : Channel,
        (s.channels ++ [{ invocationID := id : Channel }])[entry.2]? = some c ∧
          c.invocationID = entry.1 := by
      intro old
      obtain ⟨c, present, same⟩ := base.pending i' rc₀ entry found₀ old
      exact ⟨c, kept _ c present, same⟩
    split at member
    · rcases mem_cons.mp member with rfl | old
      · exact ⟨_, last, rfl⟩
      · exact known (mem_of_mem_filter old)
    · exact known member
  · intro ch same
    cases same
    exact ⟨_, last, rfl⟩

/-! ### The ledger and the trace -/

theorem step_trans {s'' : State} (first : (baseRules cfg).Step t s s')
    (second : (baseRules cfg).Step t s' s'') : (baseRules cfg).Step t s s'' :=
  ⟨second.1, first.2.1.trans second.2.1, fun other different =>
    (first.2.2 other different).trans (second.2.2 other different)⟩

theorem step_refl (base : Base cfg s) : (baseRules cfg).Step t s s :=
  ⟨base, .refl s, fun other _ => .refl other s⟩

/-- **An action on the ledger or the trace.** -/
theorem ledger_step (base : Base cfg s) (moves : Moves s s') (conns : s'.conns = s.conns)
    (channels : s'.channels = s.channels) (sound : ∀ o ∈ s'.trace, o ∉ s.trace → o.Sound s')
    (orderly : Orderly cfg s'.trace)
    (failed : ∀ id inv, s'.ledger.find id = some inv → inv.FailedWrite → Unsent id s' ∨
      ∃ report, Reports id report s' ∧ report.state = .failed)
    (others : ∀ id inv, s.ledger.find id = some inv → inv.owner ≠ t → Untouched id s s') :
    (baseRules cfg).Step t s s' := by
  refine ⟨⟨fun o member => ?_, orderly, failed, ?_, ?_⟩, moves, fun other different => ⟨moves, ?_⟩⟩
  · by_cases old : o ∈ s.trace
    · exact (base.sound o old).moves moves
    · exact sound o member old
  · intro ch c report found held
    rw [channels] at found
    exact (base.results ch c report found held).moves moves
  · intro i rc entry found member
    rw [conns] at found
    rw [channels]
    exact base.pending i rc entry found member
  · rintro id ⟨inv, found, own⟩
    exact others id inv found (own ▸ different)

variable {inv : Invocation}

/-- A failed write stays excused while no Invoke of its row is added. -/
theorem excused_moves (base : Base cfg s) (moves : Moves s s')
    (silent : ∀ o ∈ s'.trace, o ∉ s.trace → o.invokes id = false)
    (found : s.ledger.find id = some inv) (failed : inv.FailedWrite) : Unsent id s' ∨ ∃ report,
    Reports id report s' ∧ report.state = .failed := by
  rcases base.failed id inv found failed with unsent | ⟨report, reports, state⟩
  · left
    intro o member
    by_cases old : o ∈ s.trace
    · exact unsent o old
    · exact silent o member old
  · exact .inr ⟨report, reports.moves moves, state⟩

theorem observe_moves (s : State) (o : Obs) : Moves s (s.observe o) :=
  { trace := suffix_cons _ _ }

theorem observe_new {o' : Obs} (member : o' ∈ (s.observe o).trace) (new : o' ∉ s.trace) : o' = o :=
  (mem_cons.mp member).resolve_right new

theorem observe_untouched (silent : o.acts id = false) : Untouched id s (s.observe o) where
  silent := by
    intro new same o' member
    have one : new ++ s.trace = [o] ++ s.trace := same.symm
    obtain rfl := append_cancel_right one
    rw [mem_singleton.mp member]
    exact silent
  quiet := fun inv inv' found found' => by
    cases found.symm.trans found'
    exact .inl rfl

/-- **An observation is added.** -/
theorem observed_step (base : Base cfg s) (sound : o.Sound (s.observe o))
    (orderly : Orderly cfg (o :: s.trace))
    (alive : ∀ id inv, s.ledger.find id = some inv → inv.FailedWrite → o.invokes id = false)
    (others : ∀ id inv, s.ledger.find id = some inv → inv.owner ≠ t → o.acts id = false) :
    (baseRules cfg).Step t s (s.observe o) := by
  have moves := observe_moves s o
  refine ledger_step base moves rfl rfl (fun o' member new => ?_) orderly (fun id inv found failed => ?_)
    fun id inv found foreign => observe_untouched (others id inv found foreign)
  · rw [observe_new member new]
    exact sound
  · refine excused_moves base moves (fun o' member new => ?_) found failed
    rw [observe_new member new]
    exact alive id inv found failed

theorem Orderly.calm (orderly : Orderly cfg trace)
    (calm : ∀ id, o.begins id = false ∧ o.invokes id = false) : Orderly cfg (o :: trace) :=
  orderly.append (forall_mem_singleton.mpr calm)

theorem observe_step (base : Base cfg s) (silent : ∀ id, o.acts id = false)
    (sound : o.Sound (s.observe o)) : (baseRules cfg).Step t s (s.observe o) :=
  observed_step base sound
    (base.orderly.calm fun id => ⟨(silent_parts (silent id)).1, (silent_parts (silent id)).2.1⟩)
    (fun id _ _ _ => (silent_parts (silent id)).2.1) fun id _ _ _ => silent id

theorem RowOf.others (row : RowOf t call id s inv) (about : ∀ id', o.acts id' → id' = id) :
    ∀ id' inv, s.ledger.find id' = some inv → inv.owner ≠ t → o.acts id' = false := by
  intro id' inv' found foreign
  by_contra acts
  obtain rfl := about id' (by simpa using acts)
  cases found.symm.trans row.found
  exact foreign row.owner

theorem begun_step (base : Base cfg s) (row : RowOf t call id s inv)
    (fresh : ∀ o ∈ s.trace, o.acts id = false) :
    (baseRules cfg).Step t s (s.observe (.begun t call id true)) := by
  refine observed_step base ⟨inv, { row with }⟩ (base.orderly.begun fresh) (fun _ _ _ _ => rfl)
    (row.others fun id' acts => ?_)
  simpa [Obs.acts, Obs.begins, Obs.invokes, Obs.renews, eq_comm] using acts

theorem invoked_step (conn : Nat) (base : Base cfg s) (row : RowOf t call id s inv)
    (begun : .begun t call id true ∈ s.trace) (renewed : Renewed id s.trace)
    (budget : s.trace.countP (Obs.invokes id) + 1 ≤ attempts cfg call.tv id)
    (alive : ¬ inv.FailedWrite) :
    (baseRules cfg).Step t s (s.observe (.invoked t call conn ⟨id, upstreamKey call id⟩)) := by
  refine observed_step base ⟨⟨inv, { row with }⟩, .tail _ begun, rfl⟩
    (base.orderly.invoked begun renewed budget) (fun id' inv' found failed => ?_)
    (row.others fun id' acts => ?_)
  · refine decide_eq_false fun same => alive ?_
    subst same
    cases row.found.symm.trans found
    exact failed
  · simpa [Obs.acts, Obs.begins, Obs.invokes, Obs.renews, eq_comm] using acts

/-- **A row is inserted.** Nothing was observed of it. -/
theorem insert_step {uuid : InvocationID} {lease : Int} (base : Base cfg s) :
    (baseRules cfg).Step t s (s.insertInvocation t call uuid lease).2 ∧ ∀ id,
    (s.insertInvocation t call uuid lease).1 = .ok (some id) →
    (∃ inv, RowOf t call id (s.insertInvocation t call uuid lease).2 inv ∧ ¬ inv.FailedWrite) ∧
    ∀ o ∈ (s.insertInvocation t call uuid lease).2.trace, o.acts id = false := by
  rcases State.insertInvocation_cases s t call uuid lease with
    ⟨same, none⟩ | ⟨arguments, refs, ledger, _, _, inserted, same⟩
  · rw [same]
    exact ⟨step_refl base, fun id found => absurd found (none id)⟩
  rw [same]
  obtain ⟨free, after⟩ : s.ledger.find uuid = none ∧ ∀ id, ledger.find id =
      if uuid = id then some (call.row t uuid lease arguments refs) else s.ledger.find id :=
    Ledger.insert_cases inserted
  have kept : ∀ id inv, s.ledger.find id = some inv → ledger.find id = some inv := by
    intro id inv found
    rw [after, if_neg, found]
    rintro rfl
    rw [free] at found
    cases found
  have moves : Moves s { s with ledger := ledger } :=
    { rows := fun id inv found => ⟨inv, kept id inv found, .refl inv⟩ }
  refine ⟨ledger_step base moves rfl rfl (fun o member new => absurd member new) base.orderly ?_ ?_,
    ?_⟩
  · intro id inv found failed
    rw [after] at found
    split at found
    · cases found
      cases failed.2
    · exact excused_moves base moves (fun o member new => absurd member new) found failed
  · exact fun id inv found _ => .of_eq rfl ((kept id inv found).trans found.symm)
  · intro id same
    cases same
    refine ⟨⟨_, ⟨(after uuid).trans (if_pos rfl), rfl, rfl, rfl⟩, fun failed => by cases failed.2⟩, ?_⟩
    intro o member
    -- an observation of the row would have found it
    by_contra acts
    obtain ⟨inv, found⟩ := acts_row (base.sound o member) (by simpa using acts)
    rw [free] at found
    cases found

theorem updateInvocation_cases (s : State) (id : InvocationID) (allowed : InvocationState → Bool)
    (f : Invocation → Invocation) (keeps : ∀ inv, (f inv).id = inv.id ∧ (f inv).key = inv.key) :
    s.updateInvocation id allowed f keeps = (.error .invalidTransition, s) ∨ ∃ inv ledger,
    s.ledger.find id = some inv ∧ allowed inv.state ∧ s.updateInvocation id allowed f keeps =
    (.ok (), { s with ledger := ledger }) ∧ ∀ id', ledger.find id' = if id' = id then some (f inv)
    else s.ledger.find id' := by
  unfold updateInvocation
  split
  · exact .inl rfl
  rename_i inv found
  split
  · rename_i allows
    refine .inr ⟨inv, _, found, allows, rfl, fun id' => ?_⟩
    rw [find_update]
    split
    · rename_i here
      subst here
      rw [found, map_some, if_pos (decide_eq_true (find_id found))]
    · rename_i other
      rcases looked : s.ledger.find id' with _ | inv'
      · rfl
      · have foreign : ¬ inv'.id = id := fun same => other ((Ledger.find_id looked).symm.trans same)
        simp [foreign]
  · exact .inl rfl

/-- **The owner rewrites its open row.** -/
theorem update_step {inv' : Invocation} {ledger : Ledger} (base : Base cfg s)
    (row : RowOf t call id s inv) (open_ : inv.state.isTerminal = false) (key : inv'.key = inv.key)
    (effectClass : inv'.effectClass = inv.effectClass) (owner : inv'.owner = inv.owner)
    (after : ∀ id', ledger.find id' = if id' = id then some inv' else s.ledger.find id')
    (excused : inv'.FailedWrite → Unsent id s ∨ ∃ report, Reports id report s ∧ report.state = .failed)
    : (baseRules cfg).Step t s { s with ledger := ledger } ∧
    RowOf t call id { s with ledger := ledger } inv' := by
  have found' : ledger.find id = some inv' := (after id).trans (if_pos rfl)
  have moves : Moves s { s with ledger := ledger } := by
    refine { rows := fun id' a found => ?_ }
    by_cases here : id' = id
    · subst here
      cases found.symm.trans row.found
      exact ⟨inv', found', key, effectClass, owner, fun terminal => by rw [open_] at terminal; cases terminal⟩
    · exact ⟨a, (after id').trans ((if_neg here).trans found), .refl a⟩
  refine ⟨ledger_step base moves rfl rfl (fun o member new => absurd member new) base.orderly ?_ ?_,
    found', owner.trans row.owner, key.trans row.key, effectClass.trans row.effectClass⟩
  · intro id' a found failed
    by_cases here : id' = id
    · subst here
      cases found.symm.trans found'
      exact excused failed
    · rw [after, if_neg here] at found
      exact excused_moves base moves (fun o member new => absurd member new) found failed
  · refine fun id' a found foreign => .of_eq rfl ((after id').trans (if_neg ?_))
    rintro rfl
    cases found.symm.trans row.found
    exact foreign row.owner

theorem unfinished (base : Base cfg s) (found : s.ledger.find id = some inv)
    (open_ : inv.state.isTerminal = false) : ∀ o ∈ s.trace, o.finishes id = false := by
  intro o member
  by_contra finishes
  cases o with
  | finished id' =>
    obtain rfl : id' = id := by simpa [Obs.finishes] using finishes
    obtain ⟨inv', found', terminal⟩ := base.sound _ member
    cases found.symm.trans found'
    rw [open_] at terminal
    cases terminal
  | _ => simp [Obs.finishes] at finishes

theorem renewed_step (base : Base cfg s) (row : RowOf t call id s inv)
    (open_ : inv.state.isTerminal = false) : (baseRules cfg).Step t s (s.observe (.renewed t id)) ∧
    Renewed id (s.observe (.renewed t id)).trace := by
  refine ⟨observed_step base ⟨inv, row.found, row.owner⟩ (base.orderly.calm fun _ => ⟨rfl, rfl⟩)
    (fun _ _ _ _ => rfl) (row.others fun id' acts => ?_), [], .renewed t id, s.trace, rfl,
    decide_eq_true rfl, fun _ member => (by cases member), unfinished base row.found open_⟩
  simpa [Obs.acts, Obs.begins, Obs.invokes, Obs.renews, eq_comm] using acts

variable {after : Except Err Unit × State}

/-- A statement that establishes a lease: it fails without effect, or the row is open and renewed. -/
theorem renewing_step {allowed : InvocationState → Bool} {f : Invocation → Invocation}
    {keeps : ∀ inv, (f inv).id = inv.id ∧ (f inv).key = inv.key} (base : Base cfg s)
    (row : RowOf t call id s inv) (alive : ¬ inv.FailedWrite)
    (opens : ∀ state, allowed state → state.isTerminal = false)
    (stays : ∀ inv, allowed inv.state → (f inv).state.isTerminal = false)
    (same : ∀ inv, (f inv).effectClass = inv.effectClass ∧ (f inv).owner = inv.owner)
    (made : after = renewing t id (s.updateInvocation id allowed f keeps)) :
    (baseRules cfg).Step t s after.2 ∧ (∃ inv', RowOf t call id after.2 inv' ∧ ¬ inv'.FailedWrite) ∧
    after.2.trace.countP (Obs.invokes id) = s.trace.countP (Obs.invokes id) ∧
    (after.1 = .ok () → Renewed id after.2.trace) := by
  rcases updateInvocation_cases s id allowed f keeps with failed | ⟨inv₀, ledger, found, allows, ran, lookups⟩
  · rw [failed] at made
    subst made
    exact ⟨step_refl base, ⟨inv, row, alive⟩, rfl, nofun⟩
  cases found.symm.trans row.found
  rw [ran] at made
  subst made
  have running := stays inv allows
  have dead : ¬ (f inv).FailedWrite := by
    rintro ⟨_, failed⟩
    rw [failed] at running
    cases running
  obtain ⟨step, row'⟩ := update_step base row (opens _ allows) (keeps inv).2 (same inv).1 (same inv).2
    lookups fun failed => absurd failed dead
  obtain ⟨step', renewed⟩ := renewed_step step.1 row' running
  exact ⟨step_trans step step', ⟨_, { row' with }, dead⟩, countP_cons_of_neg (by simp [invokes]),
    fun _ => renewed⟩

variable {state : InvocationState}

/-- **The owner finishes its row**: either nothing happened, or the row holds the columns. -/
theorem finish_step {result refs error : Option JsonText} (base : Base cfg s) (row : RowOf t call id s inv)
    (terminal : state.isTerminal)
    (excused : state = .failed → call.tv.effectClass ≠ .readOnly →
      Unsent id s ∨ ∃ report, Reports id report s ∧ report.state = .failed)
    (made : after = s.finishInvocation id state result refs error) :
    (baseRules cfg).Step t s after.2 ∧
      (after.1 = .ok () → ∃ inv', after.2.ledger.find id = some inv' ∧ inv'.state.isTerminal ∧
        State.columns state result refs error = .ok inv'.columns) := by
  unfold finishInvocation at made
  rcases wrote : State.columns state result refs error with err | c
  · rw [wrote] at made
    subst made
    exact ⟨step_refl base, nofun⟩
  rw [wrote] at made
  dsimp only at made
  have kept := (State.columns_eq_ok.mp wrote).2.2.2
  rcases updateInvocation_cases s id (fun state => !state.isTerminal) c.write (fun _ => ⟨rfl, rfl⟩)
    with failed | ⟨inv₀, ledger, found, allows, ran, lookups⟩
  · rw [failed] at made
    subst made
    exact ⟨step_refl base, nofun⟩
  cases found.symm.trans row.found
  rw [ran] at made
  subst made
  obtain ⟨step, row'⟩ := update_step base row (by simpa using allows) (by rfl) (by rfl) (by rfl) lookups
    fun failed => excused (kept.symm.trans failed.2) (row.effectClass ▸ failed.1)
  have ends : (c.write inv).state.isTerminal := by
    rw [← kept] at terminal
    exact terminal
  have step' : (baseRules cfg).Step t _ (State.observe { s with ledger := ledger } (.finished id)) :=
    observe_step step.1 (fun _ => rfl) ⟨_, row'.found, ends⟩
  exact ⟨step_trans step step', fun _ => ⟨_, row'.found, ends, rfl⟩⟩

/-- **The sweep** closes open rows, and fails no write. -/
theorem recover_step {now : Int} {classes : EffectClass → Bool} {error : Json}
    (base : Base cfg s) (terminal : state.isTerminal)
    (spares : ∀ effectClass, classes effectClass → effectClass ≠ .readOnly → state ≠ .failed) :
    (baseRules cfg).Step t s (s.recover now classes state error) := by
  have lookups : ∀ id inv', (s.recover now classes state error).ledger.find id = some inv' →
      ∃ inv, s.ledger.find id = some inv ∧ (inv' = inv ∨ State.orphaned now classes inv ∧
        inv' = { inv with state := state, error := some error, finished := true,
                          dispatchLeaseExpiresAt := none }) := by
    intro id inv' found
    simp only [recover, find_update] at found
    obtain ⟨inv, found₀, same⟩ := map_eq_some_iff.mp found
    refine ⟨inv, found₀, ?_⟩
    split at same
    · rename_i orphan
      exact .inr ⟨orphan, same.symm⟩
    · exact .inl same.symm
  have forward : ∀ id inv, s.ledger.find id = some inv →
      (s.recover now classes state error).ledger.find id = some (if State.orphaned now classes inv then
        { inv with state := state, error := some error, finished := true,
                   dispatchLeaseExpiresAt := none } else inv) := by
    intro id inv found
    simp only [recover, find_update, found, map_some]
  have opens : ∀ inv, State.orphaned now classes inv → inv.state.isTerminal = false ∧
      classes inv.effectClass := by
    intro inv orphan
    simp only [orphaned, Bool.and_eq_true, Bool.not_eq_true'] at orphan
    exact ⟨orphan.1.1.1, orphan.2⟩
  have fresh : ∀ o ∈ (s.ledger.rows.rows.filter (State.orphaned now classes)).map
      (fun inv => Obs.finished inv.id), ∃ inv, s.ledger.find inv.id = some inv ∧
        State.orphaned now classes inv ∧ o = .finished inv.id := by
    intro o member
    obtain ⟨inv, selected, rfl⟩ := mem_map.mp member
    obtain ⟨present, orphan⟩ := mem_filter.mp selected
    exact ⟨inv, Table.find_of_mem present, orphan, rfl⟩
  have moves : Moves s (s.recover now classes state error) := by
    refine { trace := suffix_append _ _, rows := fun id inv found => ⟨_, forward id inv found, ?_⟩ }
    split
    · rename_i orphan
      exact ⟨rfl, rfl, rfl, fun closed => by rw [(opens inv orphan).1] at closed; cases closed⟩
    · exact .refl inv
  have new : ∀ o ∈ (s.recover now classes state error).trace, o ∉ s.trace →
      ∃ inv, s.ledger.find inv.id = some inv ∧ State.orphaned now classes inv ∧
        o = .finished inv.id := by
    intro o member old
    rcases mem_append.mp member with here | there
    · exact fresh o here
    · exact absurd there old
  refine ledger_step base moves rfl rfl ?_ ?_ ?_ ?_
  · intro o member old
    obtain ⟨inv, found, orphan, rfl⟩ := new o member old
    exact ⟨_, forward inv.id inv found, by rw [if_pos orphan]; exact terminal⟩
  · exact base.orderly.append fun o member id => by
      obtain ⟨inv, _, _, rfl⟩ := fresh o member
      exact ⟨rfl, rfl⟩
  · intro id inv' found failed
    obtain ⟨inv, found₀, rfl | ⟨orphan, rfl⟩⟩ := lookups id inv' found
    · refine excused_moves base moves (fun o member old => ?_) found₀ failed
      obtain ⟨_, _, _, rfl⟩ := new o member old
      rfl
    · exact absurd failed.2 (spares _ (opens inv orphan).2 failed.1)
  · refine fun id inv found _ => ⟨fun added same o member => ?_, fun a b here there => ?_⟩
    · obtain rfl := append_cancel_right same
      obtain ⟨_, _, _, rfl⟩ := fresh o member
      rfl
    · rw [forward id a here] at there
      cases there
      split
      · rename_i orphan
        exact .inr ⟨(opens a orphan).1, terminal, spares _ (opens a orphan).2⟩
      · exact .inl rfl

end Iterabase.Gateway
