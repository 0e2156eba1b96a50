import MintBot.Notifications.OneAtATime

/-!
# No message is lost

A row that is not delivered stays until its delivery is recorded, and a delivery is recorded only
after the sink took the message.  This holds of all runs: with attempts that outlast their
leases, with processes that end at any step and with transactions that fail.
-/

namespace MintBot.Notifications

open Fallible Machine

variable {wording : MessageWording} {options : Nat → DispatcherOptions} {world world' : World}

/-- The delivery of an event is recorded. -/
def World.Delivered (world : World) (sourceEventId : String) : Prop :=
  ∃ event ∈ world.events, event.type = "notification_delivered" ∧
    event.data.sourceEventId = some sourceEventId

/-- Only the dispatchers record deliveries. -/
def World.Honest (_ : World) : Command → Prop
  | .store event | .publish event _ _ => event.type ≠ "notification_delivered"
  | _ => True

/-- Nothing is recorded as delivered that the sink did not take. -/
structure World.Truthful (world : World) : Prop where
  taken : ∀ call value item, world.calls call = some value → value.stage = .delivering item →
    value.sourceEventId ∈ world.accepted
  told : ∀ sourceEventId, world.Delivered sourceEventId → sourceEventId ∈ world.accepted
  rows : ∀ sourceEventId record, world.row sourceEventId = some record →
    record.state = .delivered → world.Delivered sourceEventId

/-- What the sink took and what was recorded is never taken back. -/
structure Extends (world world' : World) : Prop where
  events : ∀ event ∈ world.events, event ∈ world'.events
  accepted : ∀ sourceEventId ∈ world.accepted, sourceEventId ∈ world'.accepted

theorem Extends.delivered (grows : Extends world world') {sourceEventId : String}
    (delivered : world.Delivered sourceEventId) : world'.Delivered sourceEventId := by
  obtain ⟨event, member, type, source⟩ := delivered
  exact ⟨event, grows.events event member, type, source⟩

theorem past_fields {past : Past} (same : world'.past = past) :
    world'.events = past.events ∧ world'.accepted = past.accepted ∧
      world'.dropped = past.dropped := by
  subst same
  exact ⟨rfl, rfl, rfl⟩

theorem step_extends (orderly : world.Orderly) {command : Command}
    (done : step wording options command world = .ok world') : Extends world world' := by
  have change := step_past orderly done
  generalize result : world'.past = past at change
  obtain ⟨events, accepted, -⟩ := past_fields result
  constructor
  · rw [events]
    cases change with
    | stored | delivered => exact fun event member => List.mem_append_left _ member
    | _ => exact fun event member => member
  · rw [accepted]
    cases change with
    | accepted => exact fun sourceEventId member => List.mem_append_left _ member
    | _ => exact fun sourceEventId member => member

/-- The sink took a message. -/
theorem step_answered {call : Nat}
    (done : step wording options (.answer call none) world = .ok world') :
    ∃ value item, world.calls call = some value ∧ value.stage = .sending item ∧
      world'.accepted = world.accepted ++ [value.sourceEventId] := by
  obtain ⟨value, found, rest⟩ := bind_eq_ok.mp done
  split at rest
  · rename_i item stage
    obtain rfl := pure_eq_ok.mp rest
    exact ⟨value, item, require_eq_ok.mp found, stage, rfl⟩
  · cases rest

/-- The records of the past stay true. -/
theorem World.Truthful.step (truthful : world.Truthful) (orderly : world.Orderly)
    {command : Command} (honest : world.Honest command)
    (done : step wording options command world = .ok world') : world'.Truthful where
  taken := by
    intro call after item under stage
    have grows := step_extends orderly done
    cases step_calls orderly done under with
    | kept found => exact grows.accepted _ (truthful.taken call after item found stage)
    | begun free =>
        rw [stage] at free
        cases free
    | leased value given _ _ same _ _ _ =>
        subst same
        cases stage
    | moved value found source _ took =>
        obtain rfl := took item stage
        obtain ⟨answered, -, found', -, accepted⟩ := step_answered done
        rw [found] at found'
        cases found'
        rw [accepted, source]
        exact List.mem_append_right _ (List.mem_singleton_self _)
  told := by
    intro sourceEventId delivered
    have grows := step_extends orderly done
    obtain ⟨event, member, type, source⟩ := delivered
    have change := step_past orderly done
    generalize result : world'.past = past at change
    obtain ⟨events, -, -⟩ := past_fields result
    rw [events] at member
    have before (old : event ∈ world.events) : sourceEventId ∈ world'.accepted :=
      grows.accepted _ (truthful.told sourceEventId ⟨event, old, type, source⟩)
    cases change with
    | stored new is =>
        rcases List.mem_append.mp member with old | last
        · exact before old
        · obtain rfl := List.mem_singleton.mp last
          rcases is with rfl | ⟨text, retentionDays, rfl⟩
          · exact absurd type honest
          · exact absurd type honest
    | delivered call uuid value item record _ found stage present =>
        rcases List.mem_append.mp member with old | last
        · exact before old
        · obtain rfl := List.mem_singleton.mp last
          obtain ⟨-, -, -, -, own, -⟩ := orderly.sound.row_spec present
          obtain rfl := Option.some.inj source
          rw [own]
          exact grows.accepted _ (truthful.taken call value item found stage)
    | same => exact before member
    | waited => exact before member
    | accepted => exact before member
    | dropped => exact before member
  rows := by
    intro sourceEventId record found delivered
    have grows := step_extends orderly done
    have before (old : world.row sourceEventId = some record) : world'.Delivered sourceEventId :=
      grows.delivered (truthful.rows sourceEventId record old delivered)
    have other (touched : String) (change) (rows : RowTouched world world' touched change)
        (differ : sourceEventId ≠ touched) : world'.Delivered sourceEventId :=
      before ((rows.others _ differ).symm.trans found)
    cases (step_rows orderly done).1 with
    | same rows => exact before ((row_congr rows sourceEventId).symm.trans found)
    | queued touched rows =>
        by_cases own : sourceEventId = touched
        · subst own
          have queued := rows.own
          rw [found] at queued
          generalize old : world.row sourceEventId = old at queued
          cases queued with
          | same => exact before old
          | added fresh =>
              rw [fresh.state] at delivered
              cases delivered
          | deferred _ undelivered => exact absurd delivered undelivered
        · exact other _ _ rows own
    | leased call value item _ _ _ _ _ rows =>
        by_cases own : sourceEventId = value.sourceEventId
        · subst own
          have after := rows.own.stored
          obtain ⟨given, -, rfl, -⟩ := rows.own.held
          rw [found] at after
          cases after
          cases delivered
        · exact other _ _ rows own
    | delivered call uuid value item _ _ _ _ given events rows =>
        by_cases own : sourceEventId = value.sourceEventId
        · obtain ⟨-, -, -, -, source, -⟩ := orderly.sound.row_spec rows.own.1
          refine ⟨deliveredEvent uuid world.clock given, ?_, rfl, ?_⟩
          · rw [events]
            exact List.mem_append_right _ (List.mem_singleton_self _)
          · rw [own]
            exact congrArg some source
        · exact other _ _ rows own
    | failed call uuid value item error _ _ _ _ rows =>
        by_cases own : sourceEventId = value.sourceEventId
        · subst own
          obtain ⟨given, -, -, after⟩ := rows.own
          rw [found] at after
          cases after
          cases delivered
        · exact other _ _ rows own
    | pruned retentionDays _ outbox => exact before (row_of_pruned orderly.sound outbox found)

theorem truthful_of_reaches {start : World} (starts : start.Starts) (truthful : start.Truthful)
    (run : Reaches (step wording options) World.Honest start world) :
    world.Orderly ∧ world.Truthful := by
  apply run.invariant (And.intro starts.orderly truthful)
  intro state command next invariant honest done
  exact ⟨invariant.1.step done, invariant.2.step invariant.1 honest done⟩

/-! ## Messages -/

theorem SameMessage.refl (record : NotificationOutboxRecord) : SameMessage record record :=
  ⟨rfl, rfl, rfl, rfl, rfl, rfl, rfl, rfl⟩

theorem SameMessage.trans {first second third : NotificationOutboxRecord}
    (earlier : SameMessage first second) (later : SameMessage second third) :
    SameMessage first third where
  id := later.id.trans earlier.id
  sourceEventId := later.sourceEventId.trans earlier.sourceEventId
  runId := later.runId.trans earlier.runId
  type := later.type.trans earlier.type
  text := later.text.trans earlier.text
  createdAt := later.createdAt.trans earlier.createdAt
  retentionUntil := later.retentionUntil.trans earlier.retentionUntil
  canonicalLink := later.canonicalLink.trans earlier.canonicalLink

/-- A record that was read keeps its message when what was made of it is stored. -/
theorem SameMessage.stored {before after : NotificationOutboxRecord}
    (asRead : stored before = before) (same : SameMessage before after) :
    SameMessage before (stored after) where
  id := same.id
  sourceEventId := same.sourceEventId
  runId := by
    rw [show (Notifications.stored after).runId = truthy after.runId from rfl, same.runId]
    exact congrArg NotificationOutboxRecord.runId asRead
  type := same.type
  text := same.text
  createdAt := same.createdAt
  retentionUntil := same.retentionUntil
  canonicalLink := by
    rw [show (Notifications.stored after).canonicalLink = truthy after.canonicalLink from rfl,
      same.canonicalLink]
    exact congrArg NotificationOutboxRecord.canonicalLink asRead

/-- The message of an event waits in its row, or its delivery is recorded. -/
def Safe (message : NotificationOutboxRecord) (sourceEventId : String) (world : World) : Prop :=
  (∃ record, world.row sourceEventId = some record ∧ SameMessage message record) ∨
    world.Delivered sourceEventId

theorem Safe.step {message : NotificationOutboxRecord} {sourceEventId : String}
    (safe : Safe message sourceEventId world) (orderly : world.Orderly)
    (truthful : world.Truthful) {command : Command}
    (done : step wording options command world = .ok world') :
    Safe message sourceEventId world' := by
  rcases safe with ⟨record, found, same⟩ | delivered
  · have asRead := orderly.sound.stored_row found
    have other (touched : String) (change) (rows : RowTouched world world' touched change)
        (differ : sourceEventId ≠ touched) : Safe message sourceEventId world' :=
      .inl ⟨record, (rows.others _ differ).trans found, same⟩
    have stays {after : NotificationOutboxRecord} (written : world'.row sourceEventId = some after)
        (kept : SameMessage record after) : Safe message sourceEventId world' :=
      .inl ⟨after, written, same.trans kept⟩
    cases (step_rows orderly done).1 with
    | same rows => exact stays ((row_congr rows _).trans found) (.refl record)
    | queued touched rows =>
        by_cases own : sourceEventId = touched
        · subst own
          have queued := rows.own
          rw [found] at queued
          generalize written : world'.row sourceEventId = after at queued
          cases queued with
          | same => exact stays written (.refl record)
          | deferred => exact stays written ⟨rfl, rfl, rfl, rfl, rfl, rfl, rfl, rfl⟩
        · exact other _ _ rows own
    | leased call value item _ _ _ _ _ rows =>
        by_cases own : sourceEventId = value.sourceEventId
        · subst own
          obtain ⟨before, origin, rfl, -⟩ := rows.own.held
          rcases origin with present | ⟨absent, -⟩
          · rw [found] at present
            cases present
            exact stays rows.own.stored
              (SameMessage.stored asRead ⟨rfl, rfl, rfl, rfl, rfl, rfl, rfl, rfl⟩)
          · rw [found] at absent
            cases absent
        · exact other _ _ rows own
    | delivered call uuid value item _ _ _ _ given _ rows =>
        by_cases own : sourceEventId = value.sourceEventId
        · subst own
          obtain ⟨present, -, written⟩ := rows.own
          rw [found] at present
          cases present
          exact stays written (SameMessage.stored asRead ⟨rfl, rfl, rfl, rfl, rfl, rfl, rfl, rfl⟩)
        · exact other _ _ rows own
    | failed call uuid value item error _ _ _ _ rows =>
        by_cases own : sourceEventId = value.sourceEventId
        · subst own
          obtain ⟨given, present, -, written⟩ := rows.own
          rw [found] at present
          cases present
          exact stays written (SameMessage.stored asRead ⟨rfl, rfl, rfl, rfl, rfl, rfl, rfl, rfl⟩)
        · exact other _ _ rows own
    | pruned retentionDays _ outbox =>
        rcases row_pruned orderly.sound outbox found with kept | ⟨-, delivered, -⟩
        · exact stays kept (.refl record)
        · exact .inr ((step_extends orderly done).delivered
            (truthful.rows sourceEventId record found delivered))
  · exact .inr ((step_extends orderly done).delivered delivered)

/-- Publishing gives an event its row. -/
theorem publish_queues (orderly : world.Orderly) {event : EventRecord} {text : Option String}
    {retentionDays : Int}
    (done : step wording options (.publish event text retentionDays) world = .ok world') :
    ∃ record, world'.row event.id = some record := by
  let stored : World := { world with events := world.events ++ [event] }
  have soundStored : stored.Sound := orderly.sound.congr rfl
  obtain ⟨expected, commits, -, queued⟩ :=
    soundStored.commit_enqueue wording event text world.clock retentionDays
  obtain rfl : expected = world' := Except.ok.inj (commits.symm.trans done)
  exact Option.isSome_iff_exists.mp queued

/-- An event that is published with its row is not lost: whatever the dispatchers do afterwards,
and wherever their processes end, its message is in the outbox as it was queued, or the sink took
it and its delivery is recorded. -/
theorem published_message_kept {start : World} (starts : start.Starts)
    (truthful : start.Truthful) (run : Reaches (step wording options) World.Honest start world)
    {event : EventRecord} {text : Option String} {retentionDays : Int}
    (honest : event.type ≠ "notification_delivered")
    (published : step wording options (.publish event text retentionDays) world = .ok world')
    {later : World} (rest : Reaches (step wording options) World.Honest world' later) :
    ∃ message, world'.row event.id = some message ∧
      ((∃ record, later.row event.id = some record ∧ SameMessage message record ∧
          (record.state = .delivered → event.id ∈ later.accepted)) ∨
        (later.Delivered event.id ∧ event.id ∈ later.accepted)) := by
  obtain ⟨orderly, true_⟩ := truthful_of_reaches starts truthful run
  obtain ⟨message, queued⟩ := publish_queues orderly published
  have allowed : world.Honest (.publish event text retentionDays) := honest
  have kept : (later.Orderly ∧ later.Truthful) ∧ Safe message event.id later := by
    apply rest.invariant (And.intro (And.intro (orderly.step published)
      (true_.step orderly allowed published)) (Or.inl ⟨message, queued, .refl message⟩))
    intro state command next invariant honestly done
    exact ⟨⟨invariant.1.1.step done, invariant.1.2.step invariant.1.1 honestly done⟩,
      invariant.2.step invariant.1.1 invariant.1.2 done⟩
  refine ⟨message, queued, ?_⟩
  rcases kept.2 with ⟨record, found, same⟩ | delivered
  · exact .inl ⟨record, found, same, fun delivered =>
      kept.1.2.told _ (kept.1.2.rows _ _ found delivered)⟩
  · exact .inr ⟨delivered, kept.1.2.told _ delivered⟩

/-! ## A process that ends while the sink has the message -/

def samplePublished : EventRecord where
  id := "alert_cap_1"
  type := "alert_cap"
  at_ := some 1000000

/-- The message is leased and sent, and the process ends before the answer. -/
def sampleCrash : List Command :=
  [.dispatch 0 0 "alert_cap_1" none, .queue 0, .lease 0, .crash 0]

theorem sampleStart_truthful : sampleStart.Truthful where
  taken := by
    intro call value item found
    cases found
  told := by
    rintro sourceEventId ⟨event, member, type, -⟩
    obtain rfl := List.mem_singleton.mp member
    exact absurd type (by decide)
  rows := by
    intro sourceEventId record found
    cases found

/-- The row is still there, with one attempt counted. -/
theorem published_message_kept_sample :
    ∃ published later : World,
      later = applyAll (step sampleWording sampleOptions) published sampleCrash ∧
      (later.row "alert_cap_1").map NotificationOutboxRecord.attempts = some 1 ∧
      ∃ message, published.row "alert_cap_1" = some message ∧
        ((∃ record, later.row "alert_cap_1" = some record ∧ SameMessage message record ∧
            (record.state = .delivered → "alert_cap_1" ∈ later.accepted)) ∨
          (later.Delivered "alert_cap_1" ∧ "alert_cap_1" ∈ later.accepted)) := by
  cases published : step sampleWording sampleOptions (.publish samplePublished none 30)
      sampleStart with
  | error failure =>
      have succeeds : (step sampleWording sampleOptions (.publish samplePublished none 30)
        sampleStart).toOption.isSome = true := by decide +kernel
      rw [published] at succeeds
      cases succeeds
  | ok world =>
      have attempts : ((step sampleWording sampleOptions (.publish samplePublished none 30)
          sampleStart).toOption.bind fun world =>
            ((applyAll (step sampleWording sampleOptions) world sampleCrash).row
              "alert_cap_1").map NotificationOutboxRecord.attempts) = some 1 := by
        decide +kernel
      rw [published] at attempts
      have rest : Reaches (step sampleWording sampleOptions) World.Honest world
          (applyAll (step sampleWording sampleOptions) world sampleCrash) :=
        (Reaches.refl world).applyAll ⟨trivial, trivial, trivial, trivial, trivial⟩
      exact ⟨world, _, rfl, attempts, published_message_kept sampleStart_starts
        sampleStart_truthful (.refl sampleStart) (by decide) published rest⟩

end MintBot.Notifications
