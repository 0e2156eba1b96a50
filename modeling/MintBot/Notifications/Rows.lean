import MintBot.Notifications.Dispatch

/-!
# What the rows keep of a transaction

A transaction changes the records that were read from the rows, and its end writes those that
changed.  A record is read back as it was written, but for a state that the rows do not hold and
for texts that are empty.
-/

namespace MintBot.Notifications

open Fallible

theorem truthy_truthy (text : Option String) : truthy (truthy text) = truthy text := by
  rw [truthy, truthy, Option.filter_filter]
  simp

@[simp]
theorem truthy_none : truthy none = none := rfl

/-- A record as it is read back. -/
def stored (record : NotificationOutboxRecord) : NotificationOutboxRecord :=
  { record with
    runId := truthy record.runId
    state := if record.state = .delivering then .pending else record.state
    lastError := truthy record.lastError
    canonicalLink := truthy record.canonicalLink }

/-- A row as the dispatchers leave it. -/
structure NotificationRow.Proper (row : NotificationRow) : Prop where
  named : row.id = "notify_" ++ row.payload.sourceEventId
  known : row.deliveryState ≠ .sent ∧ row.deliveryState ≠ .deadLetter
  undelivered : row.deliveryState ≠ .delivered → row.deliveredAt = none
  quiet : row.deliveryState ≠ .failed → truthy row.payload.lastError = none

namespace NotificationRow.Proper

variable {row : NotificationRow}

theorem state_cases (proper : row.Proper) :
    row.deliveryState = .pending ∨ row.deliveryState = .queued ∨ row.deliveryState = .failed ∨
      row.deliveryState = .delivered := by
  obtain ⟨notSent, notDead⟩ := proper.known
  cases state : row.deliveryState with
  | sent => exact absurd state notSent
  | deadLetter => exact absurd state notDead
  | pending | queued | failed | delivered => simp

theorem read_delivered (proper : row.Proper) :
    (readNotification row).state = .delivered ↔ row.deliveryState = .delivered := by
  rcases proper.state_cases with state | state | state | state
  all_goals
    have quiet := proper.quiet
    simp [readNotification, state] at quiet ⊢
  · simp [quiet]
  · simp [quiet]

theorem read_failed (proper : row.Proper) :
    (readNotification row).state = .failed ↔ row.deliveryState = .failed := by
  rcases proper.state_cases with state | state | state | state
  all_goals
    have quiet := proper.quiet
    simp [readNotification, state] at quiet ⊢
  · simp [quiet]
  · simp [quiet]

theorem read_not_delivering : (readNotification row).state ≠ .delivering := by
  unfold readNotification
  dsimp only
  split
  · simp
  · split <;> simp

theorem read_stored (row : NotificationRow) :
    stored (readNotification row) = readNotification row := by
  unfold stored
  rw [if_neg read_not_delivering]
  simp only [readNotification, truthy_truthy]

end NotificationRow.Proper

/-! ## Writing one record -/

/-- A record that is a change of the one that a row holds. -/
structure Changes (row : NotificationRow) (record : NotificationOutboxRecord) : Prop where
  id : record.id = row.id
  source : record.sourceEventId = row.payload.sourceEventId
  created : record.createdAt = row.createdAt

variable {row : NotificationRow} {record : NotificationOutboxRecord}

/-- The row of a record, in a state. -/
def rowOf (row : NotificationRow) (record : NotificationOutboxRecord) (state : DeliveryState)
    (deliveredAt : Option Time) : NotificationRow :=
  { row with deliveryState := state, payload := payloadOf record, deliveredAt := deliveredAt }

/-- A row that a record was written to is read back as the record. -/
theorem readNotification_rowOf (changes : Changes row record) {state : DeliveryState}
    {deliveredAt : Option Time} (sameInstant : deliveredAt = record.deliveredAt)
    (sameState : (readNotification (rowOf row record state deliveredAt)).state =
      (stored record).state) :
    readNotification (rowOf row record state deliveredAt) = stored record := by
  unfold stored at sameState ⊢
  unfold readNotification at sameState ⊢
  dsimp only [rowOf, payloadOf] at sameState ⊢
  rw [sameState, ← changes.id, ← changes.created, sameInstant, truthy_truthy, truthy_truthy,
    truthy_truthy]

theorem proper_rowOf (proper : row.Proper) (changes : Changes row record) {state : DeliveryState}
    {deliveredAt : Option Time} (known : state ≠ .sent ∧ state ≠ .deadLetter)
    (undelivered : state ≠ .delivered → deliveredAt = none)
    (quiet : state ≠ .failed → truthy record.lastError = none) :
    (rowOf row record state deliveredAt).Proper where
  named := by rw [rowOf, payloadOf, changes.source, proper.named]
  known := known
  undelivered := undelivered
  quiet := by
    intro notFailed
    rw [rowOf, payloadOf, truthy_truthy]
    exact quiet notFailed

/-- A row that waits is read as pending. -/
theorem read_waiting {state : DeliveryState} {deliveredAt : Option Time}
    (waits : state = .pending ∨ state = .queued) (quiet : truthy record.lastError = none) :
    (readNotification (rowOf row record state deliveredAt)).state = .pending := by
  rcases waits with rfl | rfl
  all_goals simp [readNotification, rowOf, payloadOf, quiet]

/-- An undelivered row keeps a record that waits or is under way. -/
theorem update_waiting (proper : row.Proper) (changes : Changes row record)
    (undelivered : row.deliveryState ≠ .delivered) (instant : record.deliveredAt = none)
    (quiet : truthy record.lastError = none)
    (waits : record.state = .delivering ∨ (record.state = .pending ∧ row.deliveryState ≠ .failed)) :
    ∃ written, updateNotification record row = .ok written ∧ written.Proper ∧
      written.id = row.id ∧ readNotification written = stored record := by
  have same : row.deliveredAt = none := proper.undelivered undelivered
  have pendingState : (stored record).state = .pending := by
    rcases waits with under | ⟨pending, -⟩
    · rw [stored, if_pos under]
    · simp [stored, pending]
  rcases proper.state_cases with state | state | state | state
  · refine ⟨rowOf row record .pending none, ?_, proper_rowOf proper changes (by simp) (by simp)
      (fun _ => quiet), rfl, readNotification_rowOf changes instant.symm ?_⟩
    · rcases waits with under | ⟨pending, -⟩
      · simp [updateNotification, under, state, rowOf, same, pure, Except.pure]
      · simp [updateNotification, pending, state, rowOf, same, pure, Except.pure]
    · rw [pendingState, read_waiting (.inl rfl) quiet]
  · refine ⟨rowOf row record .queued none, ?_, proper_rowOf proper changes (by simp) (by simp)
      (fun _ => quiet), rfl, readNotification_rowOf changes instant.symm ?_⟩
    · rcases waits with under | ⟨pending, -⟩
      · simp [updateNotification, under, state, rowOf, same, pure, Except.pure]
      · simp [updateNotification, pending, state, rowOf, same, pure, Except.pure]
    · rw [pendingState, read_waiting (.inr rfl) quiet]
  · rcases waits with under | ⟨-, notFailed⟩
    · refine ⟨rowOf row record .queued none, ?_, proper_rowOf proper changes (by simp) (by simp)
        (fun _ => quiet), rfl, readNotification_rowOf changes instant.symm ?_⟩
      · simp [updateNotification, under, state, rowOf, NotificationRow.move, DeliveryState.Allows,
          refuse, bind, Except.bind, pure, Except.pure]
      · rw [pendingState, read_waiting (.inr rfl) quiet]
    · exact absurd state notFailed
  · exact absurd state undelivered

/-- An undelivered row keeps a record that failed. -/
theorem update_failed (proper : row.Proper) (changes : Changes row record)
    (undelivered : row.deliveryState ≠ .delivered) (instant : record.deliveredAt = none)
    (failed : record.state = .failed) :
    ∃ written, updateNotification record row = .ok written ∧ written.Proper ∧
      written.id = row.id ∧ readNotification written = stored record := by
  have same : row.deliveredAt = none := proper.undelivered undelivered
  refine ⟨rowOf row record .failed none, ?_, proper_rowOf proper changes (by simp) (by simp)
    (by simp), rfl, readNotification_rowOf changes instant.symm ?_⟩
  · rcases proper.state_cases with state | state | state | state
    · simp [updateNotification, failed, state, rowOf, NotificationRow.move, DeliveryState.Allows,
        refuse, bind, Except.bind, pure, Except.pure]
    · simp [updateNotification, failed, state, rowOf, NotificationRow.move, DeliveryState.Allows,
        refuse, bind, Except.bind, pure, Except.pure]
    · simp [updateNotification, failed, state, rowOf, same, pure, Except.pure]
    · exact absurd state undelivered
  · simp [readNotification, rowOf, stored, failed]

/-- An undelivered row keeps a record whose state is the one it had. -/
theorem update_rewritten (proper : row.Proper) (changes : Changes row record)
    (instant : record.deliveredAt = (readNotification row).deliveredAt)
    (error : record.lastError = (readNotification row).lastError)
    (state : record.state = (readNotification row).state)
    (undelivered : (readNotification row).state ≠ .delivered) :
    ∃ written, updateNotification record row = .ok written ∧ written.Proper ∧
      written.id = row.id ∧ readNotification written = stored record := by
  have notDelivered : row.deliveryState ≠ .delivered := mt proper.read_delivered.mpr undelivered
  have noInstant : record.deliveredAt = none := instant.trans (proper.undelivered notDelivered)
  by_cases failed : (readNotification row).state = .failed
  · exact update_failed proper changes notDelivered noInstant (state.trans failed)
  · have notFailed : row.deliveryState ≠ .failed := mt proper.read_failed.mpr failed
    have pending : record.state = .pending := by
      rw [state]
      cases read : (readNotification row).state with
      | pending => rfl
      | delivering => exact absurd read NotificationRow.Proper.read_not_delivering
      | delivered => exact absurd read undelivered
      | failed => exact absurd read failed
    refine update_waiting proper changes notDelivered noInstant ?_ (.inr ⟨pending, notFailed⟩)
    rw [error]
    exact (truthy_truthy _).trans (proper.quiet notFailed)

/-- A row that waits becomes delivered. -/
theorem update_delivered (proper : row.Proper) (changes : Changes row record)
    (waits : row.deliveryState = .pending ∨ row.deliveryState = .queued)
    (quiet : truthy record.lastError = none) (delivered : record.state = .delivered) :
    ∃ written, updateNotification record row = .ok written ∧ written.Proper ∧
      written.id = row.id ∧ readNotification written = stored record := by
  refine ⟨rowOf row record .delivered record.deliveredAt, ?_, proper_rowOf proper changes
    (by simp) (by simp) (fun _ => quiet), rfl, readNotification_rowOf changes rfl ?_⟩
  · rcases waits with state | state
    all_goals
      simp [updateNotification, delivered, NotificationRow.deliver, state, rowOf,
        NotificationRow.move, DeliveryState.Allows, refuse, bind, Except.bind, pure, Except.pure]
  · simp [readNotification, rowOf, stored, delivered]

/-- A delivered row stays as it is. -/
theorem update_delivered_again (delivered : record.state = .delivered)
    (state : row.deliveryState = .delivered) : updateNotification record row = .ok row := by
  simp [updateNotification, delivered, NotificationRow.deliver, state, bind, Except.bind, pure,
    Except.pure]

/-- A row that was put back cannot become delivered. -/
theorem update_delivered_refused (delivered : record.state = .delivered)
    (state : row.deliveryState = .failed) :
    updateNotification record row = .error "invalid notification delivery transition" := by
  simp [updateNotification, delivered, NotificationRow.deliver, state, NotificationRow.move,
    DeliveryState.Allows, refuse, bind, Except.bind, pure, Except.pure]

/-- A new record that is not delivered is inserted and read back. -/
theorem insert_waiting (record : NotificationOutboxRecord)
    (waits : record.state = .pending ∨ record.state = .delivering)
    (named : record.id = "notify_" ++ record.sourceEventId) (instant : record.deliveredAt = none)
    (quiet : truthy record.lastError = none) :
    ∃ written, insertNotification record = .ok written ∧ written.Proper ∧
      written.id = record.id ∧ readNotification written = stored record := by
  let row : NotificationRow :=
    { id := record.id
      eventKey := record.sourceEventId
      deliveryState := .pending
      payload := payloadOf record
      createdAt := record.createdAt
      deliveredAt := none }
  have proper : row.Proper := ⟨named, by simp [row], fun _ => rfl, fun _ => by
    rwa [show row.payload.lastError = truthy record.lastError from rfl, truthy_truthy]⟩
  refine ⟨row, ?_, proper, rfl, ?_⟩
  · rcases waits with state | state <;> simp [insertNotification, state, row, pure, Except.pure]
  · have changes : Changes row record := ⟨rfl, rfl, rfl⟩
    refine readNotification_rowOf changes instant.symm ?_
    rw [read_waiting (.inl rfl) quiet]
    rcases waits with state | state <;> simp [stored, state]

end MintBot.Notifications
