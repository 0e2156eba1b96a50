import Mathlib.Data.List.Count
import MintBot.Notifications.OneAtATime

/-!
# Messages that the sink takes once

While no attempt outlasts its lease, no process ends and no transaction fails between the answer
of the sink and its record, the sink takes the message of an event again only after the delivered
row of the event was dropped.
-/

namespace MintBot.Notifications

open Fallible Machine

variable {wording : MessageWording} {options : Nat → DispatcherOptions} {world world' : World}

/-- No attempt outlasts its lease, and what the sink took is recorded. -/
structure World.Careful (world : World) (command : Command) : Prop where
  prompt : world.Prompt command
  keeps : ∀ call value item, world.calls call = some value → value.stage = .delivering item →
    command ≠ .crash value.dispatcher ∧ ∀ error, command ≠ .refuse call error

/-- The message of an event was taken, which its row or a call still knows. -/
def Known (sourceEventId : String) (world : World) : Prop :=
  (∃ record, world.row sourceEventId = some record ∧ record.state = .delivered) ∨
    ∃ call value item, world.calls call = some value ∧ value.stage = .delivering item ∧
      value.sourceEventId = sourceEventId

/-! ## The calls that a command leaves -/

theorem calls_setCall_other {call other : Nat} (differ : other ≠ call)
    (value : Option DispatchCall) : (world.setCall call value).calls other = world.calls other :=
  Function.update_of_ne differ _ _

theorem calls_commit {outbox : List NotificationOutboxRecord} {committed : World}
    (commits : world.commit outbox = .ok committed) : committed.calls = world.calls := by
  rw [commit_frame commits]

/-- The call that a command is about. -/
def Command.call? : Command → Option Nat
  | .dispatch call _ _ _ | .queue call | .lease call | .answer call _ | .record call _
  | .refuse call _ => some call
  | _ => none

theorem calls_other {command : Command}
    (done : step wording options command world = .ok world') {call : Nat}
    (differ : command.call? ≠ some call) (stays : ∀ dispatcher, command ≠ .crash dispatcher) :
    world'.calls call = world.calls call := by
  cases command with
  | wait | store =>
      cases done
      rfl
  | publish => exact congrFun (calls_commit done) call
  | requeue =>
      obtain ⟨_, -, commits⟩ := bind_eq_ok.mp done
      exact congrFun (calls_commit commits) call
  | dispatch other dispatcher sourceEventId text =>
      have apart : call ≠ other := fun same => differ (congrArg some same.symm)
      obtain ⟨-, -, result⟩ := bind_eq_ok.mp done
      obtain rfl := pure_eq_ok.mp result
      unfold World.startCall
      dsimp only
      split
      · rfl
      · exact calls_setCall_other apart _
  | queue other =>
      have apart : call ≠ other := fun same => differ (congrArg some same.symm)
      obtain ⟨value, -, rest⟩ := bind_eq_ok.mp done
      obtain ⟨-, -, queued⟩ := bind_eq_ok.mp rest
      unfold World.queueCall at queued
      split at queued
      · cases queued
        exact calls_setCall_other apart _
      · obtain ⟨stored, commits, result⟩ := bind_eq_ok.mp queued
        obtain rfl := pure_eq_ok.mp result
        rw [← calls_commit commits]
        split
        · unfold World.pace
          dsimp only
          split <;> exact calls_setCall_other apart _
        · exact calls_setCall_other apart _
  | lease other =>
      have apart : call ≠ other := fun same => differ (congrArg some same.symm)
      obtain ⟨value, -, rest⟩ := bind_eq_ok.mp done
      split at rest
      · obtain ⟨-, -, leased⟩ := bind_eq_ok.mp rest
        unfold World.leaseCall at leased
        split at leased
        · cases leased
          exact calls_setCall_other apart _
        · obtain ⟨stored, commits, result⟩ := bind_eq_ok.mp leased
          obtain rfl := pure_eq_ok.mp result
          rw [← calls_commit commits]
          split <;> exact calls_setCall_other apart _
      · cases rest
  | answer other failure =>
      have apart : call ≠ other := fun same => differ (congrArg some same.symm)
      obtain ⟨value, -, rest⟩ := bind_eq_ok.mp done
      split at rest
      · cases rest
        cases failure <;> exact calls_setCall_other apart _
      · cases rest
  | record other uuid =>
      have apart : call ≠ other := fun same => differ (congrArg some same.symm)
      obtain ⟨value, -, rest⟩ := bind_eq_ok.mp done
      split at rest
      · cases rest
        unfold World.deliverCall
        split
        · exact calls_setCall_other apart _
        · split
          · exact calls_setCall_other apart _
          · rename_i stored commits
            rw [← calls_commit commits]
            exact calls_setCall_other apart _
      · obtain ⟨stored, commits, result⟩ := bind_eq_ok.mp rest
        obtain rfl := pure_eq_ok.mp result
        rw [← calls_commit commits]
        exact calls_setCall_other apart _
      · cases rest
  | refuse other error =>
      have apart : call ≠ other := fun same => differ (congrArg some same.symm)
      obtain ⟨value, -, rest⟩ := bind_eq_ok.mp done
      unfold World.refuseCall at rest
      split at rest
      · cases rest
        exact calls_setCall_other apart _
      · cases rest
        exact calls_setCall_other apart _
      · cases rest
        exact calls_setCall_other apart _
      · cases rest
        exact calls_setCall_other apart _
      · cases rest
  | crash dispatcher => exact absurd rfl (stays dispatcher)
  | prune =>
      obtain ⟨stored, commits, result⟩ := bind_eq_ok.mp done
      obtain rfl := pure_eq_ok.mp result
      exact congrFun (calls_commit commits) call

/-- The record of a delivery makes the row that the call holds delivered. -/
theorem record_delivers (orderly : world.Orderly) {call : Nat} {uuid : String}
    {value : DispatchCall} {item record : NotificationOutboxRecord}
    (found : world.calls call = some value) (stage : value.stage = .delivering item)
    (present : world.row value.sourceEventId = some record) (pending : record.state = .pending)
    (done : step wording options (.record call uuid) world = .ok world') :
    ∃ after, world'.row value.sourceEventId = some after ∧ after.state = .delivered := by
  obtain ⟨value', found', rest⟩ := bind_eq_ok.mp done
  obtain rfl : value = value' := Option.some.inj (found.symm.trans (require_eq_ok.mp found'))
  rw [stage] at rest
  dsimp only at rest
  obtain rfl := pure_eq_ok.mp rest
  have named := orderly.items call value item found (by rw [stage]; rfl)
  have outcome : DeliverOutcome world call value item uuid
      (world.deliverCall call value item uuid) := deliverCall_outcome orderly.sound named uuid
  generalize world.deliverCall call value item uuid = result at outcome
  cases outcome with
  | lost error undelivered =>
      have failed := undelivered record present
      rw [pending] at failed
      cases failed
  | again found' delivered =>
      rw [present] at found'
      cases found'
      rw [pending] at delivered
      cases delivered
  | delivered _ _ touches => exact ⟨_, touches.own, rfl⟩

/-- A call that has a delivery to record still has it after a step, or its row is delivered. -/
theorem delivering_step (exclusive : world.Exclusive) (orderly : world.Orderly) {command : Command}
    (careful : world.Careful command) (done : step wording options command world = .ok world')
    {call : Nat} {value : DispatchCall} {item : NotificationOutboxRecord}
    (found : world.calls call = some value) (stage : value.stage = .delivering item) :
    Known value.sourceEventId world' := by
  obtain ⟨notCrashed, notRefused⟩ := careful.keeps call value item found stage
  by_cases own : command.call? = some call
  · cases command with
    | dispatch other =>
        cases own
        obtain ⟨_, free, _⟩ := bind_eq_ok.mp done
        rw [found] at free
        exact absurd rfl (refuse_eq_ok.mp free)
    | queue other =>
        cases own
        obtain ⟨value', found', rest⟩ := bind_eq_ok.mp done
        obtain rfl : value = value' := Option.some.inj (found.symm.trans (require_eq_ok.mp found'))
        obtain ⟨_, isQueueing, _⟩ := bind_eq_ok.mp rest
        have same := not_not.mp (refuse_eq_ok.mp isQueueing)
        rw [stage] at same
        cases same
    | lease other =>
        cases own
        obtain ⟨value', found', rest⟩ := bind_eq_ok.mp done
        obtain rfl : value = value' := Option.some.inj (found.symm.trans (require_eq_ok.mp found'))
        rw [stage] at rest
        cases rest
    | answer other failure =>
        cases own
        obtain ⟨value', found', rest⟩ := bind_eq_ok.mp done
        obtain rfl : value = value' := Option.some.inj (found.symm.trans (require_eq_ok.mp found'))
        rw [stage] at rest
        cases rest
    | record other uuid =>
        cases own
        obtain ⟨record, present, pending, -⟩ := (exclusive.holds call value item found
          (by rw [stage]; rfl)).row
        exact .inl (record_delivers orderly found stage present pending done)
    | refuse other error =>
        cases own
        exact absurd rfl (notRefused error)
    | wait | store | publish | requeue | crash | prune => cases own
  · refine .inr ⟨call, value, item, ?_, stage, rfl⟩
    by_cases crashes : ∃ dispatcher, command = .crash dispatcher
    · obtain ⟨dispatcher, rfl⟩ := crashes
      cases done
      refine Option.filter_eq_some_iff.mpr ⟨found, decide_eq_true ?_⟩
      rintro rfl
      exact notCrashed rfl
    · rw [calls_other done own fun dispatcher is => crashes ⟨dispatcher, is⟩]
      exact found

/-! ## Counting -/

/-- What is known of a message stays known, or its row was dropped. -/
theorem Known.step (exclusive : world.Exclusive) (orderly : world.Orderly) {command : Command}
    (careful : world.Careful command) (done : step wording options command world = .ok world')
    {sourceEventId : String} (known : Known sourceEventId world) :
    Known sourceEventId world' ∨
      ∃ retentionDays record, command = .prune retentionDays ∧ record ∈ world.outbox ∧
        record.sourceEventId = sourceEventId ∧
        record ∉ pruned world.clock retentionDays world.outbox := by
  rcases known with ⟨record, found, delivered⟩ | ⟨call, value, item, found, stage, rfl⟩
  · have other (touched : String) (change) (rows : RowTouched world world' touched change)
        (differ : sourceEventId ≠ touched) : Known sourceEventId world' :=
      .inl ⟨record, (rows.others _ differ).trans found, delivered⟩
    have notPending {given : NotificationOutboxRecord}
        (present : world.row sourceEventId = some given) (pending : given.state = .pending) :
        Known sourceEventId world' := by
      rw [found] at present
      cases present
      rw [delivered] at pending
      cases pending
    cases (step_rows orderly done).1 with
    | same rows => exact .inl (.inl ⟨record, (row_congr rows _).trans found, delivered⟩)
    | queued touched rows =>
        by_cases own : sourceEventId = touched
        · subst own
          have queued := rows.own
          rw [found] at queued
          generalize written : world'.row sourceEventId = after at queued
          cases queued with
          | same => exact .inl (.inl ⟨record, written, delivered⟩)
          | deferred _ undelivered => exact absurd delivered undelivered
        · exact .inl (other _ _ rows own)
    | leased call value item _ _ _ _ _ rows =>
        by_cases own : sourceEventId = value.sourceEventId
        · subst own
          obtain ⟨before, origin, -, undelivered, -⟩ := rows.own.held
          rcases origin with present | ⟨absent, -⟩
          · rw [found] at present
            cases present
            exact absurd delivered undelivered
          · rw [found] at absent
            cases absent
        · exact .inl (other _ _ rows own)
    | delivered call uuid value item _ _ _ _ given _ rows =>
        by_cases own : sourceEventId = value.sourceEventId
        · subst own
          obtain ⟨present, pending, -⟩ := rows.own
          exact .inl (notPending present pending)
        · exact .inl (other _ _ rows own)
    | failed call uuid value item error _ _ _ _ rows =>
        by_cases own : sourceEventId = value.sourceEventId
        · subst own
          obtain ⟨given, present, pending, -⟩ := rows.own
          exact .inl (notPending present pending)
        · exact .inl (other _ _ rows own)
    | pruned retentionDays is outbox =>
        rcases row_pruned orderly.sound outbox found with kept | ⟨-, -, gone⟩
        · exact .inl (.inl ⟨record, kept, delivered⟩)
        · obtain ⟨member, same⟩ := Table.lookup_eq_some found
          rw [outbox] at gone
          exact .inr ⟨retentionDays, record, is, member, same, gone⟩
  · exact .inl (delivering_step exclusive orderly careful done found stage)

/-- How often the sink took the message of an event, against how often its row was dropped. -/
structure Counted (sourceEventId : String) (world : World) : Prop where
  most : world.accepted.count sourceEventId ≤ world.dropped.count sourceEventId + 1
  unknown : ¬ Known sourceEventId world →
    world.accepted.count sourceEventId ≤ world.dropped.count sourceEventId

/-- The sink takes a message that no row and no call knows of. -/
theorem not_known_of_sending (exclusive : world.Exclusive) {call : Nat} {value : DispatchCall}
    {item : NotificationOutboxRecord} (found : world.calls call = some value)
    (stage : value.stage = .sending item) : ¬ Known value.sourceEventId world := by
  have holds := exclusive.holds call value item found (by rw [stage]; rfl)
  obtain ⟨record, present, pending, -⟩ := holds.row
  rintro (⟨other, found', delivered⟩ | ⟨other, otherValue, otherItem, found', delivering, same⟩)
  · rw [present] at found'
    cases found'
    rw [pending] at delivered
    cases delivered
  · obtain rfl := exclusive.alone call other value otherValue item otherItem found found'
      (by rw [stage]; rfl) (by rw [delivering]; rfl) same.symm
    rw [found] at found'
    cases found'
    rw [stage] at delivering
    cases delivering

/-- After the sink took a message, its call knows of it. -/
theorem known_of_answer {call : Nat} {value : DispatchCall} {item : NotificationOutboxRecord}
    (found : world.calls call = some value) (stage : value.stage = .sending item)
    (done : step wording options (.answer call none) world = .ok world') :
    Known value.sourceEventId world' := by
  obtain ⟨value', found', rest⟩ := bind_eq_ok.mp done
  obtain rfl : value = value' := Option.some.inj (found.symm.trans (require_eq_ok.mp found'))
  rw [stage] at rest
  obtain rfl := pure_eq_ok.mp rest
  exact .inr ⟨call, _, item, Function.update_self _ _ _, rfl, rfl⟩

/-- What is dropped is remembered. -/
theorem step_pruned {retentionDays : Int}
    (done : step wording options (.prune retentionDays) world = .ok world') :
    world'.accepted = world.accepted ∧
      world'.dropped = world.dropped ++ (world.outbox.filter
        (· ∉ pruned world.clock retentionDays world.outbox)).map
          NotificationOutboxRecord.sourceEventId := by
  obtain ⟨stored, commits, result⟩ := bind_eq_ok.mp done
  obtain rfl := pure_eq_ok.mp result
  rw [commit_frame commits]
  exact ⟨rfl, rfl⟩

theorem Counted.step (exclusive : world.Exclusive) (orderly : world.Orderly) {command : Command}
    (careful : world.Careful command) (done : step wording options command world = .ok world')
    {sourceEventId : String} (counted : Counted sourceEventId world) :
    Counted sourceEventId world' := by
  by_cases pruning : ∃ retentionDays, command = .prune retentionDays
  · obtain ⟨retentionDays, rfl⟩ := pruning
    obtain ⟨accepted, dropped⟩ := step_pruned done
    have grows : world.dropped.count sourceEventId ≤ world'.dropped.count sourceEventId := by
      rw [dropped, List.count_append]
      exact Nat.le_add_right _ _
    constructor
    · rw [accepted]
      exact counted.most.trans (Nat.succ_le_succ grows)
    intro unknown
    rw [accepted]
    by_cases known : Known sourceEventId world
    · rcases Known.step exclusive orderly careful done known with
        stays | ⟨days, record, same, member, own, gone⟩
      · exact absurd stays unknown
      · cases same
        refine counted.most.trans ?_
        rw [dropped, List.count_append]
        refine Nat.add_le_add_left (List.one_le_count_iff.mpr (List.mem_map.mpr
          ⟨record, List.mem_filter.mpr ⟨member, decide_eq_true gone⟩, own⟩)) _
    · exact (counted.unknown known).trans grows
  · have keeps (known : Known sourceEventId world) : Known sourceEventId world' := by
      rcases Known.step exclusive orderly careful done known with stays | ⟨days, -, is, -⟩
      · exact stays
      · exact absurd ⟨days, is⟩ pruning
    have change := step_past orderly done
    generalize result : world'.past = past at change
    have accepted : world'.accepted = past.accepted := by rw [← result]; rfl
    have dropped : world'.dropped = past.dropped := by rw [← result]; rfl
    constructor
    · rw [accepted, dropped]
      cases change with
      | accepted call value item _ found stage =>
          by_cases own : value.sourceEventId = sourceEventId
          · subst own
            have before := counted.unknown (not_known_of_sending exclusive found stage)
            rw [List.count_append, List.count_singleton_self]
            exact Nat.succ_le_succ before
          · rw [List.count_append, List.count_singleton, if_neg (by simpa using own)]
            exact counted.most
      | dropped days is => exact absurd ⟨days, is⟩ pruning
      | same | waited | stored | delivered => exact counted.most
    · intro unknown
      have before := counted.unknown (mt keeps unknown)
      rw [accepted, dropped]
      cases change with
      | accepted call value item is found stage =>
          subst is
          by_cases own : value.sourceEventId = sourceEventId
          · subst own
            exact absurd (known_of_answer found stage done) unknown
          · rw [List.count_append, List.count_singleton, if_neg (by simpa using own)]
            exact before
      | dropped days is => exact absurd ⟨days, is⟩ pruning
      | same | waited | stored | delivered => exact before

/-- The sink takes the message of an event at most once more than the delivered row of the event
was dropped. -/
theorem message_taken_once (leaseMs : ∀ dispatcher, 0 < (options dispatcher).leaseMs)
    {start : World} (starts : start.Starts) (noneTaken : start.accepted = [])
    (run : Reaches (step wording options) World.Careful start world) (sourceEventId : String) :
    world.accepted.count sourceEventId ≤ world.dropped.count sourceEventId + 1 := by
  have counted : Counted sourceEventId start := by
    constructor
    · rw [noneTaken]
      exact Nat.zero_le _
    · intro _
      rw [noneTaken]
      exact Nat.zero_le _
  have kept : (world.Orderly ∧ world.Exclusive) ∧ Counted sourceEventId world := by
    apply run.invariant (And.intro (And.intro starts.orderly starts.exclusive) counted)
    intro state command next invariant careful done
    obtain ⟨⟨orderly, exclusive⟩, counted⟩ := invariant
    exact ⟨⟨orderly.step done, exclusive.step orderly leaseMs careful.prompt done⟩,
      counted.step exclusive orderly careful done⟩
  exact kept.2.most

/-- Two dispatchers deliver one event, the second after the first. -/
def sampleTwice : List Command :=
  [.dispatch 0 0 "alert_kill_1" none, .queue 0, .lease 0, .dispatch 1 1 "alert_kill_1" none,
    .queue 1, .lease 1, .answer 0 none, .record 0 "1", .dispatch 2 1 "alert_kill_1" none, .queue 2]

theorem message_taken_once_sample :
    (applyAll (step sampleWording sampleOptions) sampleStart sampleTwice).accepted =
      ["alert_kill_1"] ∧
    (applyAll (step sampleWording sampleOptions) sampleStart sampleTwice).accepted.count
        "alert_kill_1" ≤
      (applyAll (step sampleWording sampleOptions) sampleStart sampleTwice).dropped.count
        "alert_kill_1" + 1 := by
  have careful (state : World) (command : Command) (exclusive : state.Exclusive)
      (ordinary : command.Ordinary) : state.Careful command := by
    refine ⟨exclusive.prompt ordinary, fun call value item _ _ => ⟨?_, fun error => ?_⟩⟩
    · rintro rfl
      exact ordinary
    · rintro rfl
      exact ordinary
  have run : Reaches (step sampleWording sampleOptions) World.Careful sampleStart
      (applyAll (step sampleWording sampleOptions) sampleStart sampleTwice) :=
    (Reaches.refl sampleStart).applyAll (allowed_ordinary careful sampleLeaseMs
      sampleStart_starts.orderly sampleStart_starts.exclusive (by decide))
  exact ⟨by decide +kernel,
    message_taken_once sampleLeaseMs sampleStart_starts rfl run "alert_kill_1"⟩

end MintBot.Notifications
