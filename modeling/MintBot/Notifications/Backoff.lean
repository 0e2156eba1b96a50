import MintBot.Notifications.OneAtATime

/-!
# No attempt before its time

A row that was put back is only left by a lease, and a lease asks that its time has come.  A
refusal for too many requests holds up every row as long as its own.
-/

namespace MintBot.Notifications

open Fallible Machine

variable {wording : MessageWording} {options : Nat → DispatcherOptions} {world world' : World}

/-- The row of an event was put back after an error, until a time at least. -/
structure Waits (until_ : Time) (error : Option String) (sourceEventId : String) (world : World) :
    Prop where
  intro ::
  row : ∃ record next, world.row sourceEventId = some record ∧ record.state = .failed ∧
    record.lastError = error ∧ record.nextAttemptAt = some next ∧ until_ ≤ next

/-- A row that waits is left alone, or its time has come. -/
theorem Waits.step {until_ : Time} {error : Option String} {sourceEventId : String}
    (waits : Waits until_ error sourceEventId world) (orderly : world.Orderly) {command : Command}
    (done : step wording options command world = .ok world') :
    Waits until_ error sourceEventId world' ∨ until_ ≤ world.clock := by
  obtain ⟨record, next, found, failed, sameError, nextAttempt, later⟩ := waits.row
  have other (touched : String) (change) (rows : RowTouched world world' touched change)
      (differ : sourceEventId ≠ touched) :
      Waits until_ error sourceEventId world' ∨ until_ ≤ world.clock :=
    .inl ⟨record, next, (rows.others _ differ).trans found, failed, sameError, nextAttempt, later⟩
  have recorded {given : NotificationOutboxRecord}
      (present : world.row sourceEventId = some given) (pending : given.state = .pending) :
      Waits until_ error sourceEventId world' ∨ until_ ≤ world.clock := by
    rw [found] at present
    cases present
    rw [failed] at pending
    cases pending
  cases (step_rows orderly done).1 with
  | same rows =>
      exact .inl
        ⟨record, next, (row_congr rows _).trans found, failed, sameError, nextAttempt, later⟩
  | queued touched rows =>
      by_cases own : sourceEventId = touched
      · subst own
        have queued := rows.own
        rw [found] at queued
        generalize written : world'.row sourceEventId = after at queued
        cases queued with
        | same =>
            exact .inl ⟨record, next, written, failed, sameError, nextAttempt, later⟩
        | deferred _ _ _ moved putOff =>
            rw [nextAttempt] at putOff
            exact .inl ⟨_, moved, written, failed, sameError, rfl, later.trans putOff⟩
      · exact other _ _ rows own
  | leased call value item _ _ _ _ _ rows =>
      by_cases own : sourceEventId = value.sourceEventId
      · subst own
        obtain ⟨before, origin, -, -, due, -⟩ := rows.own.held
        rcases origin with present | ⟨absent, -⟩
        · rw [found] at present
          cases present
          refine .inr (later.trans (not_lt.mp fun ahead => due ⟨next, nextAttempt, ahead⟩))
        · rw [found] at absent
          cases absent
      · exact other _ _ rows own
  | delivered call uuid value item _ _ _ _ given _ rows =>
      by_cases own : sourceEventId = value.sourceEventId
      · subst own
        obtain ⟨present, pending, -⟩ := rows.own
        exact recorded present pending
      · exact other _ _ rows own
  | failed call uuid value item failure _ _ _ _ rows =>
      by_cases own : sourceEventId = value.sourceEventId
      · subst own
        obtain ⟨given, present, pending, -⟩ := rows.own
        exact recorded present pending
      · exact other _ _ rows own
  | pruned retentionDays _ outbox =>
      rcases row_pruned orderly.sound outbox found with kept | ⟨-, delivered, -⟩
      · exact .inl ⟨record, next, kept, failed, sameError, nextAttempt, later⟩
      · rw [failed] at delivered
        cases delivered

theorem clock_le (orderly : world.Orderly) {command : Command}
    (done : step wording options command world = .ok world') : world.clock ≤ world'.clock := by
  rw [step_clock orderly done]
  exact Int.le_add_of_nonneg_right (Int.natCast_nonneg _)

/-- Along a run a row waits until its time has come. -/
theorem Waits.run {until_ : Time} {error : Option String} {sourceEventId : String}
    (waits : Waits until_ error sourceEventId world) (orderly : world.Orderly)
    {guard : World → Command → Prop} {later : World}
    (rest : Reaches (Notifications.step wording options) guard world later) :
    later.Orderly ∧ (Waits until_ error sourceEventId later ∨ until_ ≤ later.clock) := by
  apply rest.invariant (And.intro orderly (Or.inl waits))
  intro state command next invariant _ done
  refine ⟨invariant.1.step done, ?_⟩
  have forward := clock_le invariant.1 done
  rcases invariant.2 with still | past
  · rcases still.step invariant.1 done with kept | past
    · exact .inl kept
    · exact .inr (past.trans forward)
  · exact .inr (past.trans forward)

/-- A call that starts sending was given its row, which nothing held up. -/
theorem lease_given (orderly : world.Orderly) {call : Nat} {value after : DispatchCall}
    {item : NotificationOutboxRecord}
    (done : step wording options (.lease call) world = .ok world')
    (found : world.calls call = some value) (free : value.stage.item = none)
    (under : world'.calls call = some after) (sending : after.stage = .sending item) :
    after.sourceEventId = value.sourceEventId ∧
      sharedBackoff world.outbox world.clock ≤ world.clock ∧
      ∃ own, Leased own world.clock item (world.row value.sourceEventId)
        (world'.row value.sourceEventId) := by
  have item_ : after.stage.item = some item := by
    rw [sending]
    rfl
  cases step_calls orderly done under with
  | kept same =>
      rw [found] at same
      cases same
      rw [free] at item_
      cases item_
  | begun none =>
      rw [none] at item_
      cases item_
  | leased old given _ present same _ past rows =>
      subst same
      rw [found] at present
      cases present
      cases sending
      exact ⟨rfl, past, _, rows.own⟩
  | moved old present _ same _ =>
      rw [found] at present
      cases present
      rw [same, free] at item_
      cases item_

/-- An attempt that failed is recorded with the time before which its row is not tried again. -/
theorem failure_waits (orderly : world.Orderly) {call : Nat} {uuid : String} {value : DispatchCall}
    {item record : NotificationOutboxRecord} {error : SendError}
    (found : world.calls call = some value) (stage : value.stage = .failing item error)
    (present : world.row value.sourceEventId = some record) (pending : record.state = .pending)
    (done : step wording options (.record call uuid) world = .ok world') :
    Waits (world.clock + backoff (options value.dispatcher) error record.attempts)
      (truthy (some error.message)) value.sourceEventId world' := by
  obtain ⟨value', found', rest⟩ := bind_eq_ok.mp done
  obtain rfl : value = value' := Option.some.inj (found.symm.trans (require_eq_ok.mp found'))
  rw [stage] at rest
  dsimp only at rest
  obtain ⟨committed, commits, result⟩ := bind_eq_ok.mp rest
  obtain rfl := pure_eq_ok.mp result
  have named := orderly.items call value item found (by rw [stage]; rfl)
  obtain ⟨-, -, -, -, -, id⟩ := orderly.sound.row_spec present
  unfold failing at commits
  rw [named, orderly.sound.lookup_id, present] at commits
  dsimp only at commits
  rw [if_pos (.inr pending)] at commits
  obtain ⟨expected, commits', touches⟩ := orderly.sound.commit_failed present
    (named.trans id.symm) pending (options value.dispatcher) error world.clock
  obtain rfl : expected = committed := Except.ok.inj (commits'.symm.trans commits)
  exact ⟨_, _, touches.own, rfl, rfl, rfl, le_refl _⟩

/-- After an attempt failed and was recorded, no dispatcher sends the message of its event before
the delay that the attempt earned is over, and after a refusal for too many requests none sends
any message before. -/
theorem no_attempt_before_its_time {start : World} (starts : start.Starts)
    {guard : World → Command → Prop} (run : Reaches (step wording options) guard start world)
    {call : Nat} {uuid : String} {value : DispatchCall} {item record : NotificationOutboxRecord}
    {error : SendError} (found : world.calls call = some value)
    (stage : value.stage = .failing item error)
    (present : world.row value.sourceEventId = some record) (pending : record.state = .pending)
    (recorded : step wording options (.record call uuid) world = .ok world') {later next : World}
    (rest : Reaches (step wording options) guard world' later) {other : Nat}
    {before after : DispatchCall} {given : NotificationOutboxRecord}
    (waiting : later.calls other = some before) (free : before.stage.item = none)
    (leases : step wording options (.lease other) later = .ok next)
    (under : next.calls other = some after) (sending : after.stage = .sending given)
    (concerned : after.sourceEventId = value.sourceEventId ∨ error.message = rateLimited) :
    world.clock + backoff (options value.dispatcher) error record.attempts ≤ later.clock := by
  have orderly := orderly_of_reaches starts run
  have waits := failure_waits orderly found stage present pending recorded
  obtain ⟨laterOrderly, reached⟩ := waits.run (orderly.step recorded) rest
  rcases reached with still | past
  · obtain ⟨source, past, own, leased⟩ :=
      lease_given laterOrderly leases waiting free under sending
    obtain ⟨row, nextAttempt, inRow, failed, sameError, isNext, reach⟩ := still.row
    refine reach.trans (not_lt.mp fun ahead => ?_)
    rcases concerned with same | refused
    · obtain ⟨held, origin, -, -, due, -⟩ := leased.held
      rw [← source, same, inRow] at origin
      rcases origin with isHeld | ⟨absent, -⟩
      · cases isHeld
        exact due ⟨nextAttempt, isNext, ahead⟩
      · cases absent
    · have member := (Table.lookup_eq_some inRow).1
      rw [refused] at sameError
      have holds : HoldsUp later.clock row :=
        ⟨sameError, by rw [failed]; decide, nextAttempt, isNext, ahead⟩
      exact absurd (lt_sharedBackoff member holds) (not_lt.mpr past)
  · exact past

/-! ## A refusal for five seconds -/

theorem apply_of_succeeds {state : World} {command : Command}
    (succeeds : (step wording options command state).toOption.isSome = true) :
    step wording options command state = .ok (apply (step wording options) state command) := by
  cases outcome : step wording options command state with
  | error failure =>
      rw [outcome] at succeeds
      cases succeeds
  | ok next => rw [apply_ok outcome]

def sampleRefusal : SendError where
  message := rateLimited
  retryAfterMs := some 5000

/-- The message is sent, and the provider refuses it. -/
def sampleRefused : World :=
  applyAll (step sampleWording sampleOptions) sampleStart
    [.dispatch 0 0 "alert_kill_1" none, .queue 0, .lease 0, .answer 0 (some sampleRefusal)]

def sampleRecorded : World :=
  apply (step sampleWording sampleOptions) sampleRefused (.record 0 "1")

/-- Five seconds later another dispatcher takes the event. -/
def sampleLater : World :=
  applyAll (step sampleWording sampleOptions) sampleRecorded
    [.wait 5000, .dispatch 1 1 "alert_kill_1" none, .queue 1]

theorem no_attempt_before_its_time_sample :
    sampleRefused.clock + backoff (sampleOptions 0) sampleRefusal 1 ≤ sampleLater.clock := by
  have recorded : step sampleWording sampleOptions (.record 0 "1") sampleRefused =
      .ok sampleRecorded := apply_of_succeeds (by decide +kernel)
  have leases : step sampleWording sampleOptions (.lease 1) sampleLater =
      .ok (apply (step sampleWording sampleOptions) sampleLater (.lease 1)) :=
    apply_of_succeeds (by decide +kernel)
  have run : Reaches (step sampleWording sampleOptions) (fun _ _ => True) sampleStart
      sampleRefused := (Reaches.refl sampleStart).applyAll (allowed_true _ _ _)
  have rest : Reaches (step sampleWording sampleOptions) (fun _ _ => True) sampleRecorded
      sampleLater := (Reaches.refl sampleRecorded).applyAll (allowed_true _ _ _)
  have row : sampleRefused.row "alert_kill_1" = some { sampleItem with state := .pending } := by
    decide +kernel
  have again : (apply (step sampleWording sampleOptions) sampleLater (.lease 1)).calls 1 =
      some ⟨1, "alert_kill_1", none, .sending { sampleItem with
        attempts := 2
        deliveryLeaseUntil := some 1035000 }⟩ := by decide +kernel
  have failing : sampleRefused.calls 0 =
      some ⟨0, "alert_kill_1", none, .failing sampleItem sampleRefusal⟩ := by decide +kernel
  have waiting : sampleLater.calls 1 = some ⟨1, "alert_kill_1", none, .pacing 1005000⟩ := by
    decide +kernel
  exact no_attempt_before_its_time sampleStart_starts run failing rfl row rfl recorded rest waiting
    rfl leases again rfl (.inl rfl)

end MintBot.Notifications
