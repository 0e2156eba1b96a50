import MintBot.Notifications.Effects

/-!
# How a row is handled

The transactions of a dispatch, each with the way in which it may change the row of its event: a
row is queued, put off, leased, delivered or put back.
-/

namespace MintBot.Notifications

open Fallible Machine

/-- The columns of a row that no dispatch changes. -/
structure SameMessage (before after : NotificationOutboxRecord) : Prop where
  id : after.id = before.id
  sourceEventId : after.sourceEventId = before.sourceEventId
  runId : after.runId = before.runId
  type : after.type = before.type
  text : after.text = before.text
  createdAt : after.createdAt = before.createdAt
  retentionUntil : after.retentionUntil = before.retentionUntil
  canonicalLink : after.canonicalLink = before.canonicalLink

/-- A row that has not been tried. -/
structure Fresh (record : NotificationOutboxRecord) : Prop where
  state : record.state = .pending
  attempts : record.attempts = 0
  lease : record.deliveryLeaseUntil = none
  error : record.lastError = none
  undelivered : record.deliveredAt = none

/-- A row is queued, unless there is one, and may be put off. -/
inductive Queued (now : Time) :
    Option NotificationOutboxRecord → Option NotificationOutboxRecord → Prop
  | same (record : Option NotificationOutboxRecord) : Queued now record record
  | added {record : NotificationOutboxRecord} (fresh : Fresh record) : Queued now none (some record)
  | deferred (record : NotificationOutboxRecord) (undelivered : record.state ≠ .delivered)
      (free : ¬ Ahead record.deliveryLeaseUntil now) (until_ : Time)
      (later : record.nextAttemptAt.getD 0 ≤ until_) :
      Queued now (some record) (some { record with nextAttemptAt := some until_ })

/-- A row is leased: what it was, new or not, and the record of the attempt. -/
structure Leased (options : DispatcherOptions) (now : Time) (item : NotificationOutboxRecord)
    (before after : Option NotificationOutboxRecord) : Prop where
  intro ::
  held : ∃ record, (before = some record ∨ before = none ∧ Fresh record) ∧
    item = leased options now record ∧ record.state ≠ .delivered ∧
    ¬ Ahead record.nextAttemptAt now ∧ ¬ Ahead record.deliveryLeaseUntil now
  stored : after = some (stored item)

theorem with_nextAttempt {record : NotificationOutboxRecord} {next : Option Time}
    (same : record.nextAttemptAt = next) : { record with nextAttemptAt := next } = record := by
  subst same
  rfl

/-- The rows that hold up the channel. -/
def HoldsUp (now : Time) (record : NotificationOutboxRecord) : Prop :=
  record.lastError = some rateLimited ∧ record.state ≠ .delivered ∧ Ahead record.nextAttemptAt now

theorem sharedBackoff_mono (outbox : List NotificationOutboxRecord) (now until_ : Time) :
    until_ ≤ outbox.foldl (fun until_ item =>
      if item.lastError = some rateLimited ∧ item.state ≠ .delivered ∧ Ahead item.nextAttemptAt now
      then max until_ (item.nextAttemptAt.getD 0) else until_) until_ := by
  induction outbox generalizing until_ with
  | nil => exact le_refl until_
  | cons first rest inductionHypothesis =>
      rw [List.foldl_cons]
      refine le_trans ?_ (inductionHypothesis _)
      split
      · exact le_max_left _ _
      · exact le_refl until_

/-- While a row holds up the channel, the channel is held up. -/
theorem lt_sharedBackoff {outbox : List NotificationOutboxRecord} {now : Time}
    {record : NotificationOutboxRecord} (member : record ∈ outbox) (holds : HoldsUp now record) :
    now < sharedBackoff outbox now := by
  obtain ⟨first, last, rfl⟩ := List.append_of_mem member
  obtain ⟨error, undelivered, next, isNext, later⟩ := holds
  unfold sharedBackoff
  rw [List.foldl_append, List.foldl_cons, if_pos ⟨error, undelivered, next, isNext, later⟩]
  refine lt_of_lt_of_le ?_ (sharedBackoff_mono last now _)
  rw [Option.mem_def.mp isNext]
  exact lt_of_lt_of_le later (le_max_right _ _)

namespace World.Sound

variable {world : World} (sound : world.Sound) {wording : MessageWording}

include sound

theorem quiet_of_pending {sourceEventId : String} {record : NotificationOutboxRecord}
    (found : world.row sourceEventId = some record) (undelivered : record.state ≠ .delivered) :
    record.deliveredAt = none := by
  obtain ⟨row, -, proper, rfl, -⟩ := sound.row_spec found
  exact proper.undelivered fun delivered => undelivered (proper.read_delivered.mpr delivered)

theorem not_delivering {sourceEventId : String} {record : NotificationOutboxRecord}
    (found : world.row sourceEventId = some record) : record.state ≠ .delivering := by
  obtain ⟨row, -, -, rfl, -⟩ := sound.row_spec found
  exact NotificationRow.Proper.read_not_delivering

/-- What is read is as it is stored. -/
theorem stored_row {sourceEventId : String} {record : NotificationOutboxRecord}
    (found : world.row sourceEventId = some record) : stored record = record := by
  obtain ⟨row, -, -, rfl, -⟩ := sound.row_spec found
  exact NotificationRow.Proper.read_stored row

/-- Nothing is changed. -/
theorem touches_self (sourceEventId : String) {now : Time} :
    Touches world world sourceEventId (Queued now) :=
  ⟨sound, rfl, fun _ _ => rfl, .same _⟩

omit sound in
theorem fresh_newRecord (source : EventRecord) (text : Option String) (now : Time)
    (retentionDays : Int) : Fresh (stored (newRecord wording source text now retentionDays)) :=
  ⟨rfl, rfl, rfl, rfl, rfl⟩

variable (wording) in
/-- The outbox with the row of an event. -/
theorem commit_enqueue (source : EventRecord) (text : Option String) (now : Time)
    (retentionDays : Int) :
    ∃ world', world.commit
        (enqueueNotification wording world.outbox source text now retentionDays).2 = .ok world' ∧
      Touches world world' source.id (Queued now) ∧ (world'.row source.id).isSome := by
  unfold enqueueNotification
  cases found : Table.lookup NotificationOutboxRecord.sourceEventId source.id world.outbox with
  | some existing =>
      refine ⟨world, sound.commit_same, sound.touches_self source.id, ?_⟩
      rw [show world.row source.id = some existing from found]
      rfl
  | none =>
      have absent : world.row source.id = none := found
      obtain ⟨world', committed, touches⟩ := sound.commit_append
        (newRecord wording source text now retentionDays) absent rfl rfl rfl (.inl rfl) rfl
      refine ⟨world', committed, ⟨touches.sound, touches.frame, touches.others, ?_⟩, ?_⟩
      · rw [absent, touches.own]
        exact .added (fresh_newRecord source text now retentionDays)
      · rw [touches.own]
        rfl

/-- A row that is put off. -/
theorem commit_deferred {sourceEventId : String} {record : NotificationOutboxRecord}
    (found : world.row sourceEventId = some record) (undelivered : record.state ≠ .delivered)
    (until_ now : Time) :
    ∃ world', world.commit (rewrite record world.outbox fun item => deferred item until_ now) =
        .ok world' ∧ Touches world world' sourceEventId (Queued now) := by
  have keeps (item : NotificationOutboxRecord) :
      (deferred item until_ now).id = item.id ∧
        (deferred item until_ now).sourceEventId = item.sourceEventId := by
    unfold deferred
    split <;> exact ⟨rfl, rfl⟩
  have result : Queued now (some record) (some (deferred record until_ now)) := by
    unfold deferred
    split
    · rename_i free
      exact .deferred record free.1 free.2 _ (le_max_right _ _)
    · exact .same _
  have settled : stored (deferred record until_ now) = deferred record until_ now := by
    have own := sound.stored_row found
    unfold deferred
    split
    · exact congrArg (fun record : NotificationOutboxRecord =>
        { record with nextAttemptAt := some (max until_ (record.nextAttemptAt.getD 0)) }) own
    · exact own
  obtain ⟨world', committed, touches⟩ := sound.commit_rewrite found rfl
    (fun item => deferred item until_ now)
    (fun item => (keeps item).1) (fun item => (keeps item).2)
    (fun same => by
      obtain ⟨-, -, -, -, -, next, -⟩ := same
      unfold deferred at next ⊢
      split
      · rename_i free
        rw [if_pos free] at next
        exact with_nextAttempt next
      · rfl)
    (fun row proper read => by
      subst read
      unfold deferred
      split
      · exact update_rewritten proper ⟨rfl, rfl, rfl⟩ rfl rfl rfl undelivered
      · exact update_rewritten proper ⟨rfl, rfl, rfl⟩ rfl rfl rfl undelivered)
  refine ⟨world', committed, touches.sound, touches.frame, touches.others, ?_⟩
  rw [found, touches.own, settled]
  exact result

/-- The row that was just added is rewritten. -/
theorem rewrite_added (item : NotificationOutboxRecord)
    (absent : world.row item.sourceEventId = none)
    (named : item.id = "notify_" ++ item.sourceEventId)
    (change : NotificationOutboxRecord → NotificationOutboxRecord) :
    rewrite item (world.outbox ++ [item]) change = world.outbox ++ [change item] := by
  have others : ∀ record ∈ world.outbox, record.id ≠ item.id := by
    intro record member same
    refine Table.lookup_eq_none.mp absent record member (notify_injective ?_)
    rw [← sound.named member, same, named]
  have unchanged := Table.update_of_absent others change
  unfold rewrite
  unfold Table.update at unchanged ⊢
  rw [List.map_append, unchanged, List.map_singleton, if_pos rfl]

/-- The row of an event, put off while the channel is held up. -/
theorem commit_queued (source : EventRecord) (text : Option String) (now : Time)
    (retentionDays : Int)
    (undelivered :
      (enqueueNotification wording world.outbox source text now retentionDays).1.state ≠
        .delivered) :
    ∃ world', world.commit (deferForProvider
        (enqueueNotification wording world.outbox source text now retentionDays).2
        (enqueueNotification wording world.outbox source text now retentionDays).1 now).2 =
          .ok world' ∧
      Touches world world' source.id (Queued now) := by
  unfold enqueueNotification at undelivered ⊢
  cases found : Table.lookup NotificationOutboxRecord.sourceEventId source.id world.outbox with
  | some existing =>
      rw [found] at undelivered
      unfold deferForProvider
      dsimp only
      split
      · exact ⟨world, sound.commit_same, sound.touches_self source.id⟩
      · exact sound.commit_deferred found undelivered _ now
  | none =>
      have absent : world.row source.id = none := found
      dsimp only
      unfold deferForProvider
      dsimp only
      split
      · obtain ⟨world', committed, touches⟩ := sound.commit_append
          (newRecord wording source text now retentionDays) absent rfl rfl rfl (.inl rfl) rfl
        refine ⟨world', committed, touches.sound, touches.frame, touches.others, ?_⟩
        rw [absent, touches.own]
        exact .added (fresh_newRecord source text now retentionDays)
      · rw [sound.rewrite_added (newRecord wording source text now retentionDays) absent rfl]
        obtain ⟨world', committed, touches⟩ := sound.commit_append
          (deferred (newRecord wording source text now retentionDays) _ now) absent rfl rfl rfl
          (.inl rfl) rfl
        refine ⟨world', committed, touches.sound, touches.frame, touches.others, ?_⟩
        rw [absent, touches.own]
        exact .added ⟨rfl, rfl, rfl, rfl, rfl⟩

omit sound in
theorem findSource_id {events : List EventRecord} {sourceEventId : String} {source : EventRecord}
    (found : findSource events sourceEventId = .ok source) : source.id = sourceEventId :=
  (Table.lookup_eq_some (require_eq_ok.mp found)).2

omit sound in
theorem deferForProvider_free {outbox : List NotificationOutboxRecord}
    {item : NotificationOutboxRecord} {now : Time}
    (free : ¬ (deferForProvider outbox item now).1 = true) :
    sharedBackoff outbox now ≤ now ∧ (deferForProvider outbox item now).2 = outbox := by
  unfold deferForProvider at free ⊢
  dsimp only at free ⊢
  split at free
  · rename_i past
    exact ⟨past, by rw [if_pos past]⟩
  · exact absurd rfl free

omit sound in
/-- A row without an error does not hold up the channel. -/
theorem sharedBackoff_append {outbox : List NotificationOutboxRecord}
    {item : NotificationOutboxRecord} {now : Time} (quiet : item.lastError = none) :
    sharedBackoff (outbox ++ [item]) now = sharedBackoff outbox now := by
  unfold sharedBackoff
  rw [List.foldl_append, List.foldl_cons, List.foldl_nil, if_neg]
  rintro ⟨error, -⟩
  rw [quiet] at error
  cases error

/-- The row of an event is leased. -/
theorem commit_leased {options : DispatcherOptions} (source : EventRecord) (text : Option String)
    (now : Time) :
    let queued := enqueueNotification wording world.outbox source text now options.retentionDays
    queued.1.state ≠ .delivered → ¬ (deferForProvider queued.2 queued.1 now).1 = true →
      ¬ Ahead queued.1.nextAttemptAt now → ¬ Ahead queued.1.deliveryLeaseUntil now →
      ∃ world', world.commit (rewrite queued.1 (deferForProvider queued.2 queued.1 now).2
          (leased options now)) = .ok world' ∧
        Touches world world' source.id (Leased options now (leased options now queued.1)) ∧
        sharedBackoff world.outbox now ≤ now ∧
        (leased options now queued.1).sourceEventId = source.id ∧
        (leased options now queued.1).id = "notify_" ++ source.id := by
  intro queued undelivered notHeld due free
  obtain ⟨past, sameOutbox⟩ := deferForProvider_free notHeld
  rw [sameOutbox]
  cases found : Table.lookup NotificationOutboxRecord.sourceEventId source.id world.outbox with
  | some existing =>
      have result : queued = (existing, world.outbox) := by
        rw [show queued = enqueueNotification wording world.outbox source text now
          options.retentionDays from rfl, enqueueNotification, found]
      rw [result] at undelivered due free past ⊢
      obtain ⟨world', committed, touches⟩ := sound.commit_rewrite found rfl
        (leased options now) (fun _ => rfl) (fun _ => rfl)
        (fun same => absurd same.2.1 (Nat.ne_of_lt (Nat.lt_succ_self _)))
        (fun row proper read => by
          subst read
          have notDelivered := mt proper.read_delivered.mpr undelivered
          exact update_waiting proper ⟨rfl, rfl, rfl⟩ notDelivered (proper.undelivered notDelivered)
            rfl (.inl rfl))
      obtain ⟨-, -, -, -, sourceId, id⟩ := sound.row_spec found
      refine ⟨world', committed, ⟨touches.sound, touches.frame, touches.others, ?_⟩, past, sourceId,
        id⟩
      exact ⟨⟨existing, .inl found, rfl, undelivered, due, free⟩, touches.own⟩
  | none =>
      have absent : world.row source.id = none := found
      let item := newRecord wording source text now options.retentionDays
      have result : queued = (item, world.outbox ++ [item]) := by
        rw [show queued = enqueueNotification wording world.outbox source text now
          options.retentionDays from rfl, enqueueNotification, found]
      rw [result] at undelivered due free past ⊢
      rw [sharedBackoff_append rfl] at past
      rw [sound.rewrite_added item absent rfl]
      obtain ⟨world', committed, touches⟩ :=
        sound.commit_append (leased options now item) absent rfl rfl rfl (.inr rfl) rfl
      refine ⟨world', committed, ⟨touches.sound, touches.frame, touches.others, ?_⟩, past, rfl, rfl⟩
      exact ⟨⟨item, .inr ⟨absent, rfl, rfl, rfl, rfl, rfl⟩, rfl, undelivered, due, free⟩,
        touches.own⟩

/-- The transaction of a queueing call. -/
theorem commit_queueing {options : DispatcherOptions} {events : List EventRecord}
    {sourceEventId : String} {text : Option String} {now : Time} {eligible : Bool}
    {outbox : List NotificationOutboxRecord}
    (computed : queueing wording options events sourceEventId text now world.outbox =
      .ok (eligible, outbox)) :
    ∃ world', world.commit outbox = .ok world' ∧
      Touches world world' sourceEventId (Queued now) := by
  obtain ⟨source, found, rest⟩ := bind_eq_ok.mp computed
  obtain rfl := findSource_id found
  dsimp only at rest
  split at rest
  · cases pure_eq_ok.mp rest
    obtain ⟨world', commits, touches, -⟩ :=
      sound.commit_enqueue wording source text now options.retentionDays
    exact ⟨world', commits, touches⟩
  · rename_i undelivered
    cases pure_eq_ok.mp rest
    exact sound.commit_queued source text now options.retentionDays undelivered

/-- The transaction of a call whose turn has come: it leases the row, when nothing holds up the
channel, or leaves it as queueing does. -/
theorem commit_leasing {options : DispatcherOptions} {events : List EventRecord}
    {sourceEventId : String} {text : Option String} {now : Time}
    {result : Option NotificationOutboxRecord} {outbox : List NotificationOutboxRecord}
    (computed : leasing wording options events sourceEventId text now world.outbox =
      .ok (result, outbox)) :
    ∃ world', world.commit outbox = .ok world' ∧
      match result with
      | none => Touches world world' sourceEventId (Queued now)
      | some item => Touches world world' sourceEventId (Leased options now item) ∧
          sharedBackoff world.outbox now ≤ now ∧ item.sourceEventId = sourceEventId ∧
          item.id = "notify_" ++ sourceEventId := by
  obtain ⟨source, found, rest⟩ := bind_eq_ok.mp computed
  obtain rfl := findSource_id found
  dsimp only at rest
  split at rest
  · cases pure_eq_ok.mp rest
    obtain ⟨world', commits, touches, -⟩ :=
      sound.commit_enqueue wording source text now options.retentionDays
    exact ⟨world', commits, touches⟩
  · rename_i undelivered
    split at rest
    · cases pure_eq_ok.mp rest
      exact sound.commit_queued source text now options.retentionDays undelivered
    · rename_i notHeld
      split at rest
      · cases pure_eq_ok.mp rest
        exact sound.commit_queued source text now options.retentionDays undelivered
      · rename_i due
        split at rest
        · cases pure_eq_ok.mp rest
          exact sound.commit_queued source text now options.retentionDays undelivered
        · rename_i free
          cases pure_eq_ok.mp rest
          exact sound.commit_leased source text now undelivered notHeld due free

/-! ## What comes of an attempt -/

/-- The delivery of a row that waits. -/
theorem commit_delivered {sourceEventId : String} {record item : NotificationOutboxRecord}
    (found : world.row sourceEventId = some record) (named : item.id = record.id)
    (pending : record.state = .pending) (now : Time) :
    ∃ world', world.commit (rewrite item world.outbox (deliveredRecord now)) = .ok world' ∧
      Touches world world' sourceEventId fun _ after =>
        after = some (stored (deliveredRecord now record)) := by
  refine sound.commit_rewrite found named (deliveredRecord now) (fun _ => rfl) (fun _ => rfl)
    (fun same => ?_) fun row proper read => ?_
  · have state := same.1
    rw [pending] at state
    cases state
  · subst read
    have waits : row.deliveryState = .pending ∨ row.deliveryState = .queued := by
      rcases proper.state_cases with state | state | state | state
      · exact .inl state
      · exact .inr state
      · rw [proper.read_failed.mpr state] at pending
        cases pending
      · rw [proper.read_delivered.mpr state] at pending
        cases pending
    exact update_delivered proper ⟨rfl, rfl, rfl⟩ waits rfl rfl

/-- A second delivery of a row changes nothing. -/
theorem commit_delivered_again {sourceEventId : String} {record item : NotificationOutboxRecord}
    (found : world.row sourceEventId = some record) (named : item.id = record.id)
    (delivered : record.state = .delivered) (now : Time) :
    world.commit (rewrite item world.outbox (deliveredRecord now)) = .ok world := by
  obtain ⟨row, member, proper, rfl, -⟩ := sound.row_spec found
  have outcome := persist_rewrite sound.distinct member named fun record =>
    show (deliveredRecord now record).id = record.id from rfl
  have again : Table.update NotificationRow.id row.id (fun _ => row) world.rows = world.rows := by
    unfold Table.update
    refine (List.map_congr_left fun old known => ?_).trans (List.map_id' _)
    split
    · rename_i same
      exact (List.inj_on_of_nodup_map sound.distinct known member same).symm
    · rfl
  rw [update_delivered_again rfl (proper.read_delivered.mp delivered), ok_bind, again] at outcome
  rw [commit, outbox, outcome]
  split <;> rfl

/-- The delivery of a row that was put back meanwhile fails. -/
theorem commit_delivered_refused {sourceEventId : String} {record item : NotificationOutboxRecord}
    (found : world.row sourceEventId = some record) (named : item.id = record.id)
    (failed : record.state = .failed) (now : Time) :
    world.commit (rewrite item world.outbox (deliveredRecord now)) =
      .error "invalid notification delivery transition" := by
  obtain ⟨row, member, proper, rfl, -⟩ := sound.row_spec found
  have outcome := persist_rewrite sound.distinct member named fun record =>
    show (deliveredRecord now record).id = record.id from rfl
  have changed :
      ¬ SameDelivery (readNotification row) (deliveredRecord now (readNotification row)) := by
    rintro ⟨same, -⟩
    rw [failed] at same
    cases same
  rw [if_neg changed, update_delivered_refused rfl (proper.read_failed.mp failed)] at outcome
  rw [commit, outbox, outcome]
  rfl

/-- An attempt that failed is put back. -/
theorem commit_failed {sourceEventId : String} {record item : NotificationOutboxRecord}
    (found : world.row sourceEventId = some record) (named : item.id = record.id)
    (pending : record.state = .pending) (options : DispatcherOptions) (error : SendError)
    (now : Time) :
    ∃ world', world.commit (rewrite item world.outbox (failedRecord options error now)) =
        .ok world' ∧
      Touches world world' sourceEventId fun _ after =>
        after = some (stored (failedRecord options error now record)) := by
  refine sound.commit_rewrite found named (failedRecord options error now) (fun _ => rfl)
    (fun _ => rfl) (fun same => ?_) fun row proper read => ?_
  · have state := same.1
    rw [pending] at state
    cases state
  · subst read
    have notDelivered : row.deliveryState ≠ .delivered := by
      intro delivered
      rw [proper.read_delivered.mpr delivered] at pending
      cases pending
    exact update_failed proper ⟨rfl, rfl, rfl⟩ notDelivered (proper.undelivered notDelivered) rfl

/-- Delivered rows are dropped. -/
theorem commit_pruned (now : Time) (retentionDays : Int) :
    ∃ world', world.commit (pruned now retentionDays world.outbox) = .ok world' ∧
      world'.Sound ∧ world' = { world with rows := world'.rows } ∧
      world'.outbox = pruned now retentionDays world.outbox := by
  let kept (item : NotificationOutboxRecord) : Bool :=
    item.state ≠ .delivered ∨ now - retentionDays * 86400000 ≤ item.deliveredAt.getD item.createdAt
  have written := persist_filter sound.distinct kept
  let rows := world.rows.filter fun row => kept (readNotification row)
  refine ⟨{ world with rows := rows }, ?_, ⟨?_, ?_⟩, rfl, ?_⟩
  · rw [commit, outbox, pruned, written]
    rfl
  · exact fun row member => sound.proper row (List.mem_filter.mp member).1
  · exact sound.distinct.sublist (List.filter_sublist.map NotificationRow.id)
  · rw [outbox, readNotifications, pruned, outbox, readNotifications, List.filter_map]
    rfl

end World.Sound

end MintBot.Notifications
