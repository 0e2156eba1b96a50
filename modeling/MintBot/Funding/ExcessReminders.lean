import Mathlib.Data.List.Count
import Mathlib.Data.List.Induction
import MintBot.Funding.Plan
import MintBot.Library.IntegerText
import MintBot.Watcher.Judge

/-!
# Reminders of left-over balances

`stepExcessTracker` keeps a clock for each wallet that holds more than the idle
limit while no run is armed or active.  A change of the transaction count starts
the clock again, and a call that sees the wallet within its limit, or a run,
drops it.  The owner is reminded when the clock has run for `afterMs`, and again
each time that `afterMs` has passed since the last reminder.
-/

namespace MintBot

/-- `EXCESS_REMINDER_AFTER_MS`: 24 hours. -/
def excessReminderAfterMs : Time := 24 * 60 * 60 * 1000

structure ExcessObservation where
  address : String
  balanceWei : Wei
  nonce : Int
  deriving DecidableEq, Repr

structure ExcessReminder where
  wallet : String
  balanceWei : String
  excessWei : String
  idleMs : Int
  deriving DecidableEq, Repr

/-- The clocks by address. -/
abbrev ExcessStates := String → Option ExcessState

/-- What a call of the tracker is given besides the clocks of the call before it. -/
structure ExcessCall where
  observations : List ExcessObservation
  walletMaxWei : Wei
  runActive : Bool
  now : Time
  deriving DecidableEq, Repr

/-- The clock of a wallet above its limit before the reminder is decided: the one it has, unless
it has none or the wallet was active since. -/
def runningClock (previous : Option ExcessState) (nonce : Int) (now : Time) : ExcessState :=
  let started : ExcessState :=
    { firstAboveAt := some now, activityKey := some (toString nonce), lastReminderAt := none }
  match previous with
  | none => started
  | some state =>
      if state.firstAboveAt = none ∨ state.activityKey ≠ some (toString nonce) then started
      else state

/-- The clock has run long enough, and the last reminder is long enough ago. -/
def ExcessState.Due (afterMs now : Time) (state : ExcessState) : Prop :=
  ∃ first ∈ state.firstAboveAt, afterMs ≤ now - first ∧
    ∀ last ∈ state.lastReminderAt, afterMs ≤ now - last

instance ExcessState.decidableDue (afterMs now : Time) (state : ExcessState) :
    Decidable (state.Due afterMs now) := by
  unfold ExcessState.Due
  infer_instance

/-- The turn of one observation in the loop of `stepExcessTracker`. -/
def trackObservation (afterMs : Time) (previous : ExcessStates) (call : ExcessCall)
    (progress : ExcessStates × List ExcessReminder) (observation : ExcessObservation) :
    ExcessStates × List ExcessReminder :=
  let address := toLowerCase observation.address
  if ¬ IsAddress address then progress
  else if call.runActive = true ∨ observation.balanceWei ≤ call.walletMaxWei then progress
  else
    let state := runningClock (previous address) observation.nonce call.now
    if state.Due afterMs call.now then
      (Function.update progress.1 address (some { state with lastReminderAt := some call.now }),
        progress.2 ++ [{
          wallet := address
          balanceWei := toString observation.balanceWei
          excessWei := toString (observation.balanceWei - call.walletMaxWei)
          idleMs := call.now - state.firstAboveAt.getD call.now }])
    else (Function.update progress.1 address (some state), progress.2)

/-- `stepExcessTracker`: the clocks after the call, and its reminders. -/
def stepExcessTracker (previous : ExcessStates) (call : ExcessCall)
    (afterMs : Time := excessReminderAfterMs) : ExcessStates × List ExcessReminder :=
  call.observations.foldl (trackObservation afterMs previous call) (fun _ => none, [])

/-! ## One wallet in a call -/

section Wallet

variable (wallet : String)

/-- The call observes the wallet exactly once. -/
def ExcessCall.ObservesOnce (call : ExcessCall) : Prop :=
  (call.observations.map fun observation => toLowerCase observation.address).count wallet = 1

instance (call : ExcessCall) : Decidable (call.ObservesOnce wallet) := by
  unfold ExcessCall.ObservesOnce
  infer_instance

/-- The transaction count at which the call sees the wallet above its limit while no run is
active. -/
def ExcessCall.aboveAt (call : ExcessCall) : Option Int :=
  (call.observations.find? fun observation => toLowerCase observation.address = wallet).bind
    fun observation =>
      if call.runActive = true ∨ observation.balanceWei ≤ call.walletMaxWei then none
      else some observation.nonce

/-- The call reminds the owner of the wallet. -/
def Reminds (afterMs : Time) (previous : ExcessStates) (call : ExcessCall) : Prop :=
  ∃ reminder ∈ (stepExcessTracker previous call afterMs).2, reminder.wallet = wallet

instance (afterMs : Time) (previous : ExcessStates) (call : ExcessCall) :
    Decidable (Reminds wallet afterMs previous call) := by
  unfold Reminds
  infer_instance

/-- What one call does to the clock of one wallet. -/
def stepClock (afterMs now : Time) (previous : Option ExcessState) (nonce : Int) : ExcessState :=
  if (runningClock previous nonce now).Due afterMs now then
    { runningClock previous nonce now with lastReminderAt := some now }
  else runningClock previous nonce now

end Wallet

section Once

variable {wallet : String} (afterMs : Time) (previous : ExcessStates) {call : ExcessCall}

variable (call) in
/-- The observation of another wallet leaves the clock and the reminders of this one. -/
theorem trackObservation_other (observation : ExcessObservation)
    (other : toLowerCase observation.address ≠ wallet)
    (progress : ExcessStates × List ExcessReminder) :
    (trackObservation afterMs previous call progress observation).1 wallet = progress.1 wallet ∧
      ((∃ reminder ∈ (trackObservation afterMs previous call progress observation).2,
          reminder.wallet = wallet) ↔
        ∃ reminder ∈ progress.2, reminder.wallet = wallet) := by
  unfold trackObservation
  by_cases invalid : ¬ IsAddress (toLowerCase observation.address)
  · rw [if_pos invalid]
    exact ⟨rfl, Iff.rfl⟩
  · rw [if_neg invalid]
    by_cases idle : call.runActive = true ∨ observation.balanceWei ≤ call.walletMaxWei
    · rw [if_pos idle]
      exact ⟨rfl, Iff.rfl⟩
    · rw [if_neg idle]
      by_cases due : (runningClock (previous (toLowerCase observation.address)) observation.nonce
          call.now).Due afterMs call.now
      · rw [if_pos due]
        refine ⟨Function.update_of_ne (Ne.symm other) _ _, ?_⟩
        simp only [List.mem_append, List.mem_singleton, or_and_right, exists_or,
          exists_eq_left, other, or_false]
      · rw [if_neg due]
        exact ⟨Function.update_of_ne (Ne.symm other) _ _, Iff.rfl⟩

/-- The observation of a wallet itself. -/
theorem trackObservation_own (address : IsAddress wallet) (observation : ExcessObservation)
    (own : toLowerCase observation.address = wallet)
    (progress : ExcessStates × List ExcessReminder)
    (above : ¬ (call.runActive = true ∨ observation.balanceWei ≤ call.walletMaxWei)) :
    (trackObservation afterMs previous call progress observation).1 wallet =
        some (stepClock afterMs call.now (previous wallet) observation.nonce) ∧
      ((∃ reminder ∈ (trackObservation afterMs previous call progress observation).2,
          reminder.wallet = wallet) ↔
        (∃ reminder ∈ progress.2, reminder.wallet = wallet) ∨
          (runningClock (previous wallet) observation.nonce call.now).Due afterMs call.now) := by
  unfold trackObservation stepClock
  rw [own, if_neg (not_not.mpr address), if_neg above]
  by_cases due : (runningClock (previous wallet) observation.nonce call.now).Due afterMs call.now
  · rw [if_pos due, if_pos due]
    refine ⟨Function.update_self _ _ _, ?_⟩
    simp only [List.mem_append, List.mem_singleton, or_and_right, exists_or, exists_eq_left,
      due]
  · rw [if_neg due, if_neg due]
    refine ⟨Function.update_self _ _ _, ?_⟩
    simp only [due, or_false]

variable (call) in
/-- Observations of other wallets leave the clock and the reminders of this one. -/
theorem track_others (observations : List ExcessObservation)
    (others : ∀ observation ∈ observations, toLowerCase observation.address ≠ wallet)
    (progress : ExcessStates × List ExcessReminder) :
    (observations.foldl (trackObservation afterMs previous call) progress).1 wallet =
        progress.1 wallet ∧
      ((∃ reminder ∈ (observations.foldl (trackObservation afterMs previous call) progress).2,
          reminder.wallet = wallet) ↔
        ∃ reminder ∈ progress.2, reminder.wallet = wallet) := by
  induction observations generalizing progress with
  | nil => exact ⟨rfl, Iff.rfl⟩
  | cons observation rest inductionHypothesis =>
      obtain ⟨clock, reminders⟩ := inductionHypothesis
        (fun later member => others later (List.mem_cons_of_mem _ member))
        (trackObservation afterMs previous call progress observation)
      obtain ⟨clockHere, remindersHere⟩ := trackObservation_other afterMs previous call observation (others observation (by simp)) progress
      rw [List.foldl_cons]
      exact ⟨clock.trans clockHere, reminders.trans remindersHere⟩

/-- The observation of a wallet that a call observes once. -/
theorem ExcessCall.ObservesOnce.split (once : call.ObservesOnce wallet) :
    ∃ before observation after, call.observations = before ++ observation :: after ∧
      toLowerCase observation.address = wallet ∧
      (∀ other ∈ before, toLowerCase other.address ≠ wallet) ∧
      ∀ other ∈ after, toLowerCase other.address ≠ wallet := by
  have member : wallet ∈ call.observations.map fun observation =>
      toLowerCase observation.address :=
    List.count_pos_iff.mp (by rw [once]; exact Nat.one_pos)
  obtain ⟨observation, found, own⟩ := List.mem_map.mp member
  obtain ⟨before, after, same⟩ := List.append_of_mem found
  have total := once
  unfold ExcessCall.ObservesOnce at total
  rw [same, List.map_append, List.map_cons, List.count_append, List.count_cons, own] at total
  simp only [beq_self_eq_true, if_true] at total
  refine ⟨before, observation, after, same, own, ?_, ?_⟩
  · have none : (before.map fun other => toLowerCase other.address).count wallet = 0 := by omega
    intro other inside reached
    exact List.count_eq_zero.mp none (List.mem_map.mpr ⟨other, inside, reached⟩)
  · have none : (after.map fun other => toLowerCase other.address).count wallet = 0 := by omega
    intro other inside reached
    exact List.count_eq_zero.mp none (List.mem_map.mpr ⟨other, inside, reached⟩)

/-- What a call does for a wallet that it observes once. -/
theorem stepExcessTracker_wallet (address : IsAddress wallet) (once : call.ObservesOnce wallet) :
    (stepExcessTracker previous call afterMs).1 wallet =
        (call.aboveAt wallet).map (stepClock afterMs call.now (previous wallet)) ∧
      (Reminds wallet afterMs previous call ↔
        ∃ nonce ∈ call.aboveAt wallet,
          (runningClock (previous wallet) nonce call.now).Due afterMs call.now) := by
  obtain ⟨before, observation, after, same, own, earlier, later⟩ := once.split
  have found : (call.observations.find? fun seen => toLowerCase seen.address = wallet) =
      some observation := by
    rw [same, List.find?_append, List.find?_eq_none.mpr (by simpa using earlier)]
    simp [own]
  have above : call.aboveAt wallet =
      if call.runActive = true ∨ observation.balanceWei ≤ call.walletMaxWei then none
      else some observation.nonce := by
    rw [ExcessCall.aboveAt, found]
    rfl
  unfold Reminds stepExcessTracker
  rw [same, List.foldl_append, List.foldl_cons]
  obtain ⟨clockBefore, remindersBefore⟩ :=
    track_others afterMs previous call before earlier
      (fun _ => none, [])
  generalize (before.foldl (trackObservation afterMs previous call) (fun _ => none, [])) =
    reached at clockBefore remindersBefore ⊢
  have quiet : ¬ ∃ reminder ∈ reached.2, reminder.wallet = wallet := by
    rw [remindersBefore]
    rintro ⟨reminder, member, -⟩
    cases member
  obtain ⟨clockAfter, remindersAfter⟩ :=
    track_others afterMs previous call after later
      (trackObservation afterMs previous call reached observation)
  rw [clockAfter, remindersAfter, above]
  by_cases idle : call.runActive = true ∨ observation.balanceWei ≤ call.walletMaxWei
  · have unchanged : trackObservation afterMs previous call reached observation = reached := by
      unfold trackObservation
      rw [own, if_neg (not_not.mpr address), if_pos idle]
    rw [unchanged, if_pos idle]
    refine ⟨clockBefore, iff_of_false quiet ?_⟩
    rintro ⟨nonce, none, -⟩
    cases none
  · obtain ⟨clock, reminders⟩ := trackObservation_own afterMs previous address observation own reached idle
    rw [clock, reminders, if_neg idle]
    refine ⟨rfl, ?_⟩
    simp only [quiet, false_or, Option.mem_def, Option.some.injEq, exists_eq_left']

end Once

/-! ## Runs of the tracker -/

/-- The clocks after a run of calls, each given the clocks of the one before. -/
def clocksAfter (afterMs : Time) (start : ExcessStates) (calls : List ExcessCall) : ExcessStates :=
  calls.foldl (fun previous call => (stepExcessTracker previous call afterMs).1) start

theorem clocksAfter_concat (afterMs : Time) (start : ExcessStates) (calls : List ExcessCall)
    (call : ExcessCall) :
    clocksAfter afterMs start (calls ++ [call]) =
      (stepExcessTracker (clocksAfter afterMs start calls) call afterMs).1 := by
  simp [clocksAfter]

/-- Every call sees the wallet above its limit with one transaction count, and no run is active. -/
def Unbroken (wallet : String) (nonce : Int) (stretch : List ExcessCall) : Prop :=
  ∀ call ∈ stretch, call.aboveAt wallet = some nonce

/-- A stretch with this transaction count begins behind the calls. -/
def Begins (wallet : String) (nonce : Int) (older : List ExcessCall) : Prop :=
  ∀ last ∈ older.getLast?, last.aboveAt wallet ≠ some nonce

/-- The reminders of a wallet in a run of calls. -/
structure Cadence (wallet : String) (afterMs : Time) (start : ExcessStates)
    (calls : List ExcessCall) : Prop where
  /-- Two reminders are `afterMs` apart. -/
  spaced : ∀ before earlier between later after,
    calls = before ++ earlier :: (between ++ later :: after) →
    Reminds wallet afterMs (clocksAfter afterMs start before) earlier →
    Reminds wallet afterMs (clocksAfter afterMs start (before ++ earlier :: between)) later →
      afterMs ≤ later.now - earlier.now
  /-- A reminder closes an unbroken stretch that began `afterMs` ago. -/
  earned : ∀ before call after, calls = before ++ call :: after →
    Reminds wallet afterMs (clocksAfter afterMs start before) call →
      ∃ older first stretch nonce, before ++ [call] = older ++ first :: stretch ∧
        Unbroken wallet nonce (first :: stretch) ∧ first.now ≤ call.now - afterMs
  /-- The first call that is `afterMs` after the beginning of a stretch reminds. -/
  due : ∀ older opening call after nonce first,
    calls = older ++ (opening ++ call :: after) → Begins wallet nonce older →
    Unbroken wallet nonce (opening ++ [call]) → (opening ++ [call]).head? = some first →
    (∀ early ∈ opening, early.now < first.now + afterMs) → first.now + afterMs ≤ call.now →
      Reminds wallet afterMs (clocksAfter afterMs start (older ++ opening)) call
  /-- The first call that is `afterMs` after a reminder of the stretch reminds again. -/
  again : ∀ before earlier between call after nonce,
    calls = before ++ earlier :: (between ++ call :: after) →
    Unbroken wallet nonce (earlier :: between ++ [call]) →
    Reminds wallet afterMs (clocksAfter afterMs start before) earlier →
    (∀ early ∈ between, early.now < earlier.now + afterMs) → earlier.now + afterMs ≤ call.now →
      Reminds wallet afterMs (clocksAfter afterMs start (before ++ earlier :: between)) call

/-- What the clock of a wallet says about the calls before it. -/
structure ClockTrue (wallet : String) (afterMs : Time) (start : ExcessStates)
    (calls : List ExcessCall) (state : ExcessState) : Prop where
  begun : ∃ older first stretch nonce, calls = older ++ first :: stretch ∧
    Unbroken wallet nonce (first :: stretch) ∧ state.firstAboveAt = some first.now ∧
      state.activityKey = some (toString nonce)
  reminded : ∀ before earlier later, calls = before ++ earlier :: later →
    Reminds wallet afterMs (clocksAfter afterMs start before) earlier →
      (∃ last ∈ state.lastReminderAt, earlier.now ≤ last) ∨
        ∃ first ∈ state.firstAboveAt, earlier.now ≤ first

theorem runningClock_cases (previous : Option ExcessState) (nonce : Int) (now : Time) :
    runningClock previous nonce now = ⟨some now, some (toString nonce), none⟩ ∨
      (previous = some (runningClock previous nonce now) ∧
        (runningClock previous nonce now).activityKey = some (toString nonce)) := by
  unfold runningClock
  cases previous with
  | none => exact .inl rfl
  | some state =>
      by_cases stopped : state.firstAboveAt = none ∨ state.activityKey ≠ some (toString nonce)
      · exact .inl (if_pos stopped)
      · dsimp only
        rw [if_neg stopped]
        exact .inr ⟨rfl, not_not.mp fun other => stopped (.inr other)⟩

@[simp]
theorem stepClock_firstAboveAt (afterMs now : Time) (previous : Option ExcessState) (nonce : Int) :
    (stepClock afterMs now previous nonce).firstAboveAt =
      (runningClock previous nonce now).firstAboveAt := by
  unfold stepClock
  split <;> rfl

@[simp]
theorem stepClock_activityKey (afterMs now : Time) (previous : Option ExcessState) (nonce : Int) :
    (stepClock afterMs now previous nonce).activityKey =
      (runningClock previous nonce now).activityKey := by
  unfold stepClock
  split <;> rfl

theorem activityKey_inj {nonce other : Int}
    (same : some (toString nonce) = some (toString other)) : nonce = other := by
  have read := congrArg IntegerText.readInteger (Option.some.inj same)
  rw [IntegerText.readInteger_toString, IntegerText.readInteger_toString] at read
  exact Option.some.inj read

section Run

variable {wallet : String} {afterMs : Time} {start : ExcessStates} {calls : List ExcessCall}

variable (afterMs) in
/-- A stretch that the clock runs in is as old as the clock says. -/
theorem begun_concat {call : ExcessCall} {nonce : Int} (above : call.aboveAt wallet = some nonce)
    {previous : Option ExcessState}
    (begun : ∀ state, previous = some state → ∃ older first stretch nonce,
      calls = older ++ first :: stretch ∧ Unbroken wallet nonce (first :: stretch) ∧
        state.firstAboveAt = some first.now ∧ state.activityKey = some (toString nonce)) :
    ∃ older first stretch nonce', calls ++ [call] = older ++ first :: stretch ∧
      Unbroken wallet nonce' (first :: stretch) ∧
        (stepClock afterMs call.now previous nonce).firstAboveAt = some first.now ∧
        (stepClock afterMs call.now previous nonce).activityKey = some (toString nonce') := by
  rw [stepClock_firstAboveAt, stepClock_activityKey]
  rcases runningClock_cases previous nonce call.now with fresh | ⟨running, key⟩
  · rw [fresh]
    refine ⟨calls, call, [], nonce, rfl, ?_, rfl, rfl⟩
    intro only member
    rwa [List.mem_singleton.mp member]
  · obtain ⟨older, first, stretch, same, split, unbroken, begin_, own⟩ := begun _ running
    obtain rfl := activityKey_inj (own.symm.trans key)
    refine ⟨older, first, stretch ++ [call], same, by rw [split]; simp, ?_, begin_, key⟩
    intro seen member
    rcases List.mem_append.mp (by simpa using member : seen ∈ (first :: stretch) ++ [call]) with
      inside | last
    · exact unbroken seen inside
    · rwa [List.mem_singleton.mp last]

/-- The clock of a wallet is true of every run that starts without one. -/
theorem clockTrue (address : IsAddress wallet) (unknown : start wallet = none)
    (once : ∀ call ∈ calls, call.ObservesOnce wallet)
    (ordered : calls.Pairwise fun earlier later => earlier.now ≤ later.now)
    {state : ExcessState} (kept : clocksAfter afterMs start calls wallet = some state) :
    ClockTrue wallet afterMs start calls state := by
  induction calls using List.reverseRec generalizing state with
  | nil => exact absurd (unknown.symm.trans kept) (by simp)
  | append_singleton calls call inductionHypothesis =>
      obtain ⟨clock, reminds⟩ := stepExcessTracker_wallet afterMs (clocksAfter afterMs start calls) address (once call (by simp))
      rw [clocksAfter_concat, clock] at kept
      obtain ⟨nonce, above, rfl⟩ := Option.map_eq_some_iff.mp kept
      have onceBefore : ∀ earlier ∈ calls, earlier.ObservesOnce wallet := fun earlier member =>
        once earlier (List.mem_append_left _ member)
      obtain ⟨orderedBefore, -, latest⟩ := List.pairwise_append.mp ordered
      have before (state : ExcessState)
          (running : clocksAfter afterMs start calls wallet = some state) :
          ClockTrue wallet afterMs start calls state :=
        inductionHypothesis onceBefore orderedBefore running
      constructor
      · exact begun_concat afterMs above fun state running => (before state running).begun
      · intro early earlier later same reminded
        by_cases due : (runningClock (clocksAfter afterMs start calls wallet) nonce call.now).Due
            afterMs call.now
        · left
          refine ⟨call.now, by simp [stepClock, due], ?_⟩
          have member : earlier ∈ calls ++ [call] := by simp [same]
          rcases List.mem_append.mp member with inside | last
          · exact latest earlier inside call (by simp)
          · exact (congrArg ExcessCall.now (List.mem_singleton.mp last)).le
        · -- The last call reminds of nothing, so the reminder is of a call before it.
          rcases List.eq_nil_or_concat later with rfl | ⟨init, last, rfl⟩
          · obtain ⟨rfl, lastCall⟩ := List.append_inj' same rfl
            obtain rfl := List.singleton_inj.mp lastCall
            obtain ⟨seen, found, isDue⟩ := reminds.mp reminded
            obtain rfl := Option.some.inj (above.symm.trans found)
            exact absurd isDue due
          · rw [List.concat_eq_append, ← List.cons_append, ← List.append_assoc] at same
            obtain ⟨rfl, -⟩ := List.append_inj' same rfl
            rw [stepClock, if_neg due]
            rcases runningClock_cases (clocksAfter afterMs start (early ++ earlier :: init) wallet)
              nonce call.now with fresh | ⟨running, -⟩
            · right
              rw [fresh]
              exact ⟨call.now, rfl, latest earlier (by simp) call (by simp)⟩
            · exact (before _ running).reminded early earlier init rfl reminded

/-- The clock goes on where the last call began it, or goes on with it. -/
theorem runningClock_eq {state : ExcessState} {nonce : Int} (now : Time)
    (begun : state.firstAboveAt ≠ none) (key : state.activityKey = some (toString nonce)) :
    runningClock (some state) nonce now = state := by
  unfold runningClock
  dsimp only
  rw [if_neg]
  rintro (none | other)
  · exact begun none
  · exact other key

/-- While the stretch goes on and nothing is due, the clock stays as it is. -/
theorem clock_keeps (address : IsAddress wallet) {state : ExcessState} {nonce : Int}
    (kept : clocksAfter afterMs start calls wallet = some state)
    (begun : state.firstAboveAt ≠ none) (key : state.activityKey = some (toString nonce))
    (more : List ExcessCall) (once : ∀ call ∈ more, call.ObservesOnce wallet)
    (unbroken : Unbroken wallet nonce more) (early : ∀ call ∈ more, ¬ state.Due afterMs call.now) :
    clocksAfter afterMs start (calls ++ more) wallet = some state := by
  induction more using List.reverseRec with
  | nil => rwa [List.append_nil]
  | append_singleton more call inductionHypothesis =>
      have before := inductionHypothesis (fun seen member => once seen (by simp [member]))
        (fun seen member => unbroken seen (by simp [member]))
        (fun seen member => early seen (by simp [member]))
      have clock := (stepExcessTracker_wallet afterMs (clocksAfter afterMs start (calls ++ more)) address (once call (by simp))).1
      rw [← List.append_assoc, clocksAfter_concat, clock, unbroken call (by simp), before,
        Option.map_some, stepClock, runningClock_eq call.now begun key,
        if_neg (early call (by simp))]

variable (afterMs) in
/-- Where a stretch begins, the clock starts anew. -/
theorem runningClock_of_begins (address : IsAddress wallet) (unknown : start wallet = none)
    (once : ∀ call ∈ calls, call.ObservesOnce wallet) {nonce : Int}
    (begins : Begins wallet nonce calls) (now : Time) :
    runningClock (clocksAfter afterMs start calls wallet) nonce now =
      ⟨some now, some (toString nonce), none⟩ := by
  rcases runningClock_cases (clocksAfter afterMs start calls wallet) nonce now with
    fresh | ⟨running, key⟩
  · exact fresh
  · rcases List.eq_nil_or_concat calls with rfl | ⟨init, last, rfl⟩
    · exact absurd (unknown.symm.trans running) (by simp)
    · rw [List.concat_eq_append] at running once begins key
      have clock := (stepExcessTracker_wallet afterMs (clocksAfter afterMs start init) address (once last (by simp))).1
      rw [clocksAfter_concat, clock] at running key
      obtain ⟨other, above, same⟩ := Option.map_eq_some_iff.mp running
      refine absurd above ?_
      have own : (stepClock afterMs last.now (clocksAfter afterMs start init wallet) other).activityKey =
          some (toString other) := by
        rw [stepClock_activityKey]
        rcases runningClock_cases (clocksAfter afterMs start init wallet) other last.now with
          fresh | ⟨-, key⟩
        · rw [fresh]
        · exact key
      rw [← same, own] at key
      obtain rfl := activityKey_inj key
      exact begins last (by simp)

theorem reminds_iff (address : IsAddress wallet) {call : ExcessCall}
    (once : call.ObservesOnce wallet) {nonce : Int} (above : call.aboveAt wallet = some nonce)
    (previous : ExcessStates) :
    Reminds wallet afterMs previous call ↔
      (runningClock (previous wallet) nonce call.now).Due afterMs call.now := by
  rw [(stepExcessTracker_wallet afterMs previous address once).2, above]
  simp

/-! ## The cadence -/

section Kept

variable (address : IsAddress wallet) (unknown : start wallet = none)
  (once : ∀ call ∈ calls, call.ObservesOnce wallet)
  (ordered : calls.Pairwise fun earlier later => earlier.now ≤ later.now)

include address unknown once ordered

theorem reminders_spaced {before between after : List ExcessCall} {earlier later : ExcessCall}
    (same : calls = before ++ earlier :: (between ++ later :: after))
    (reminded : Reminds wallet afterMs (clocksAfter afterMs start before) earlier)
    (again : Reminds wallet afterMs
      (clocksAfter afterMs start (before ++ earlier :: between)) later) :
    afterMs ≤ later.now - earlier.now := by
  have parts : calls = (before ++ earlier :: between) ++ later :: after := by simp [same]
  rw [parts] at once ordered
  obtain ⟨orderedBefore, -, latest⟩ := List.pairwise_append.mp ordered
  have inOrder : earlier.now ≤ later.now := latest earlier (by simp) later (by simp)
  obtain ⟨-, reminds⟩ := stepExcessTracker_wallet afterMs (clocksAfter afterMs start (before ++ earlier :: between)) address
    (once later (by simp))
  obtain ⟨nonce, -, first, begun, idle, spaced⟩ := reminds.mp again
  rcases runningClock_cases (clocksAfter afterMs start (before ++ earlier :: between) wallet)
    nonce later.now with fresh | ⟨running, -⟩
  · rw [fresh] at begun
    obtain rfl := Option.some.inj begun
    linarith
  · have kept := clockTrue address unknown
      (fun call member => once call (List.mem_append_left _ member)) orderedBefore running
    rcases kept.reminded before earlier between rfl reminded with
      ⟨last, known, notAfter⟩ | ⟨begin_, known, notAfter⟩
    · have := spaced last known
      linarith
    · obtain rfl := Option.some.inj (known.symm.trans begun)
      linarith

theorem reminders_earned {before after : List ExcessCall} {call : ExcessCall}
    (same : calls = before ++ call :: after)
    (reminded : Reminds wallet afterMs (clocksAfter afterMs start before) call) :
    ∃ older first stretch nonce, before ++ [call] = older ++ first :: stretch ∧
      Unbroken wallet nonce (first :: stretch) ∧ first.now ≤ call.now - afterMs := by
  rw [same] at once ordered
  obtain ⟨orderedBefore, -, -⟩ := List.pairwise_append.mp ordered
  obtain ⟨-, reminds⟩ := stepExcessTracker_wallet afterMs (clocksAfter afterMs start before) address (once call (by simp))
  obtain ⟨nonce, above, begin_, known, idle, -⟩ := reminds.mp reminded
  obtain ⟨older, first, stretch, sameNonce, split, unbroken, begun, -⟩ :=
    begun_concat afterMs above fun state running =>
      (clockTrue address unknown (fun call member => once call (List.mem_append_left _ member))
        orderedBefore running).begun
  rw [stepClock_firstAboveAt] at begun
  obtain rfl := Option.some.inj (begun.symm.trans known)
  exact ⟨older, first, stretch, sameNonce, split, unbroken, by linarith⟩

omit ordered in
theorem reminder_due {older opening after : List ExcessCall} {call first : ExcessCall}
    {nonce : Int} (same : calls = older ++ (opening ++ call :: after))
    (begins : Begins wallet nonce older) (unbroken : Unbroken wallet nonce (opening ++ [call]))
    (head : (opening ++ [call]).head? = some first)
    (early : ∀ seen ∈ opening, seen.now < first.now + afterMs)
    (late : first.now + afterMs ≤ call.now) :
    Reminds wallet afterMs (clocksAfter afterMs start (older ++ opening)) call := by
  rw [same] at once
  have fresh := runningClock_of_begins afterMs address unknown
    (fun call member => once call (List.mem_append_left _ member)) begins
  rw [reminds_iff address (once call (by simp)) (unbroken call (by simp))]
  cases opening with
  | nil =>
      obtain rfl := Option.some.inj head
      rw [List.append_nil, fresh]
      exact ⟨call.now, rfl, by linarith, by simp⟩
  | cons begin_ opening =>
      obtain rfl := Option.some.inj head
      -- The clock that the first call of the stretch starts is not due before `call`.
      have started : clocksAfter afterMs start (older ++ [begin_]) wallet =
          some ⟨some begin_.now, some (toString nonce), none⟩ := by
        have clock := (stepExcessTracker_wallet afterMs (clocksAfter afterMs start older) address (once begin_ (by simp))).1
        have soon := early begin_ (by simp)
        rw [clocksAfter_concat, clock, unbroken begin_ (by simp), Option.map_some, stepClock,
          fresh, if_neg]
        rintro ⟨at_, begun, idle, -⟩
        obtain rfl := Option.some.inj begun
        linarith
      have kept := clock_keeps address started (by simp) rfl opening
        (fun seen member => once seen (by simp [member]))
        (fun seen member => unbroken seen (by simp [member])) (by
          rintro seen member ⟨at_, begun, idle, -⟩
          obtain rfl := Option.some.inj begun
          have soon := early seen (by simp [member])
          linarith)
      rw [List.append_assoc, List.singleton_append] at kept
      rw [kept, runningClock_eq call.now (by simp) rfl]
      exact ⟨begin_.now, rfl, by linarith, by simp⟩

omit unknown in
theorem reminder_again {before between after : List ExcessCall} {earlier call : ExcessCall}
    {nonce : Int} (same : calls = before ++ earlier :: (between ++ call :: after))
    (unbroken : Unbroken wallet nonce (earlier :: between ++ [call]))
    (reminded : Reminds wallet afterMs (clocksAfter afterMs start before) earlier)
    (early : ∀ seen ∈ between, seen.now < earlier.now + afterMs)
    (late : earlier.now + afterMs ≤ call.now) :
    Reminds wallet afterMs (clocksAfter afterMs start (before ++ earlier :: between)) call := by
  have parts : calls = (before ++ earlier :: between) ++ call :: after := by simp [same]
  rw [parts] at once ordered
  obtain ⟨-, -, latest⟩ := List.pairwise_append.mp ordered
  have inOrder : earlier.now ≤ call.now := latest earlier (by simp) call (by simp)
  have above : earlier.aboveAt wallet = some nonce := unbroken earlier (by simp)
  have due := (reminds_iff address (once earlier (by simp)) above _).mp reminded
  -- The reminder leaves its own time in the clock, which is otherwise as it was.
  obtain ⟨state, restarted, ⟨first, begun, idle⟩, key, last⟩ : ∃ state,
      clocksAfter afterMs start (before ++ [earlier]) wallet = some state ∧
        (∃ first, state.firstAboveAt = some first ∧ afterMs ≤ earlier.now - first) ∧
        state.activityKey = some (toString nonce) ∧ state.lastReminderAt = some earlier.now := by
    have clock := (stepExcessTracker_wallet afterMs (clocksAfter afterMs start before) address (once earlier (by simp))).1
    rw [clocksAfter_concat, clock, above, Option.map_some]
    refine ⟨_, rfl, ?_, ?_, ?_⟩
    · obtain ⟨first, begun, idle, -⟩ := due
      exact ⟨first, (stepClock_firstAboveAt _ _ _ _).trans begun, idle⟩
    · rw [stepClock_activityKey]
      rcases runningClock_cases (clocksAfter afterMs start before wallet) nonce earlier.now with
        fresh | ⟨-, key⟩
      · rw [fresh]
      · exact key
    · rw [stepClock, if_pos due]
  have running : state.firstAboveAt ≠ none := by
    rw [begun]
    simp
  have kept := clock_keeps address restarted running key between
    (fun seen member => once seen (by simp [member]))
    (fun seen member => unbroken seen (by simp [member])) (by
      rintro seen member ⟨-, -, -, spaced⟩
      have soon := early seen member
      have gap := spaced earlier.now last
      linarith)
  rw [List.append_assoc, List.singleton_append] at kept
  rw [reminds_iff address (once call (by simp)) (unbroken call (by simp)), kept,
    runningClock_eq call.now running key]
  refine ⟨first, begun, by linarith, ?_⟩
  intro known same
  obtain rfl := Option.some.inj (last.symm.trans same)
  linarith

/-- Reminders of a wallet that each call observes once, in calls at nondecreasing times, keep
their cadence. -/
theorem reminders_keep_cadence : Cadence wallet afterMs start calls where
  spaced := fun _ _ _ _ _ same reminded again =>
    reminders_spaced address unknown once ordered same reminded again
  earned := fun _ _ _ same reminded => reminders_earned address unknown once ordered same reminded
  due := fun _ _ _ _ _ _ same begins unbroken head early late =>
    reminder_due address unknown once same begins unbroken head early late
  again := fun _ _ _ _ _ _ same unbroken reminded early late =>
    reminder_again address once ordered same unbroken reminded early late

end Kept

end Run

/-- A fleet of one wallet, looked at three times within the hour after it went above its limit. -/
def excessSample : List ExcessCall :=
  [0, 1800000, 3600000].map fun now =>
    { observations := [⟨"0x1111111111111111111111111111111111111111", 500, 7⟩]
      walletMaxWei := 400
      runActive := false
      now := now }

/-- The reminders of the sample keep their cadence. -/
theorem excessSample_cadence :
    Cadence "0x1111111111111111111111111111111111111111" 1800000 (fun _ => none) excessSample :=
  reminders_keep_cadence (by decide +kernel) rfl (by decide +kernel) (by decide)

end MintBot
