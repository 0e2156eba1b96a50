import MintBot.Notifications.Handling

/-!
# What a step does to the rows

Every step of the dispatchers changes the row of one event at most, but for the rows that are
dropped.  It leases a row, records an attempt, queues a row or leaves the rows as they are.
-/

namespace MintBot.Notifications

open Fallible Machine

/-- The record that a call holds: the lease of its attempt. -/
def CallStage.item : CallStage → Option NotificationOutboxRecord
  | .sending item | .delivering item | .failing item _ => some item
  | .queueing | .pacing _ => none

/-- The rows are sound, and every call holds the record of its own event. -/
structure World.Orderly (world : World) : Prop where
  sound : world.Sound
  items : ∀ call value item, world.calls call = some value → value.stage.item = some item →
    item.id = "notify_" ++ value.sourceEventId

/-- The row of one event is changed, in a way. -/
structure RowTouched (world world' : World) (sourceEventId : String)
    (change : Option NotificationOutboxRecord → Option NotificationOutboxRecord → Prop) : Prop where
  others : ∀ other, other ≠ sourceEventId → world'.row other = world.row other
  own : change (world.row sourceEventId) (world'.row sourceEventId)

/-- What a step did to the rows. -/
inductive RowsChange (options : Nat → DispatcherOptions) (command : Command)
    (world world' : World) : Prop
  | same (rows : world'.rows = world.rows)
  | queued (sourceEventId : String)
      (touched : RowTouched world world' sourceEventId (Queued world.clock))
  | leased (call : Nat) (value : DispatchCall) (item : NotificationOutboxRecord)
      (is : command = .lease call) (found : world.calls call = some value)
      (calls : world'.calls =
        Function.update world.calls call (some { value with stage := .sending item }))
      (past : sharedBackoff world.outbox world.clock ≤ world.clock)
      (named : item.id = "notify_" ++ value.sourceEventId)
      (touched : RowTouched world world' value.sourceEventId
        (Leased (options value.dispatcher) world.clock item))
  | delivered (call : Nat) (uuid : String) (value : DispatchCall) (item : NotificationOutboxRecord)
      (is : command = .record call uuid) (found : world.calls call = some value)
      (stage : value.stage = .delivering item) (ended : world'.calls call = none)
      (record : NotificationOutboxRecord)
      (events : world'.events = world.events ++ [deliveredEvent uuid world.clock record])
      (touched : RowTouched world world' value.sourceEventId fun before after =>
        before = some record ∧ record.state = .pending ∧
          after = some (stored (deliveredRecord world.clock record)))
  | failed (call : Nat) (uuid : String) (value : DispatchCall) (item : NotificationOutboxRecord)
      (error : SendError) (is : command = .record call uuid) (found : world.calls call = some value)
      (stage : value.stage = .failing item error) (ended : world'.calls call = none)
      (touched : RowTouched world world' value.sourceEventId fun before after =>
        ∃ record, before = some record ∧ record.state = .pending ∧
          after = some (stored (failedRecord (options value.dispatcher) error world.clock record)))
  | pruned (retentionDays : Int) (is : command = .prune retentionDays)
      (outbox : world'.outbox = pruned world.clock retentionDays world.outbox)

variable {wording : MessageWording} {options : Nat → DispatcherOptions} {world world' : World}

theorem row_congr (same : world'.rows = world.rows) (sourceEventId : String) :
    world'.row sourceEventId = world.row sourceEventId := by
  unfold World.row World.outbox
  rw [same]

theorem World.Sound.congr (sound : world.Sound) (same : world'.rows = world.rows) :
    world'.Sound := by
  constructor
  · rw [same]
    exact sound.proper
  · rw [same]
    exact sound.distinct

/-- The rows of a world in which a transaction has ended. -/
theorem Touches.rows {committed : World} {sourceEventId : String}
    {change : Option NotificationOutboxRecord → Option NotificationOutboxRecord → Prop}
    (touches : Touches world committed sourceEventId change) (world' : World)
    (same : world'.rows = committed.rows) :
    world'.Sound ∧ RowTouched world world' sourceEventId change := by
  refine ⟨touches.sound.congr same, ⟨?_, ?_⟩⟩
  · intro other differ
    rw [row_congr same]
    exact touches.others other differ
  · rw [row_congr same]
    exact touches.own

/-- A step that leaves the rows. -/
theorem rows_same (sound : world.Sound) {command : Command} (same : world'.rows = world.rows) :
    RowsChange options command world world' ∧ world'.Sound :=
  ⟨.same same, sound.congr same⟩

/-- A call that ended is not under way. -/
theorem ended_finish {call : Nat} (world : World) (value : DispatchCall) :
    (world.finish call value).calls call = none :=
  Function.update_self _ _ _

/-- A transaction that queues a row. -/
theorem rows_queued {command : Command} {committed : World} {sourceEventId : String}
    (touches : Touches world committed sourceEventId (Queued world.clock))
    (same : world'.rows = committed.rows) :
    RowsChange options command world world' ∧ world'.Sound :=
  ⟨.queued sourceEventId (touches.rows world' same).2, (touches.rows world' same).1⟩

/-! ## The transactions of a call -/

theorem rows_queueCall (sound : world.Sound) {command : Command} {call : Nat}
    {value : DispatchCall} (done : world.queueCall wording options call value = .ok world') :
    RowsChange options command world world' ∧ world'.Sound := by
  unfold World.queueCall at done
  split at done
  · obtain rfl := pure_eq_ok.mp done
    exact rows_same sound rfl
  · rename_i eligible outbox computed
    obtain ⟨committed, commits, result⟩ := bind_eq_ok.mp done
    obtain ⟨expected, commits', touches⟩ := sound.commit_queueing computed
    obtain rfl : expected = committed := Except.ok.inj (commits'.symm.trans commits)
    obtain rfl := pure_eq_ok.mp result
    refine rows_queued touches ?_
    split
    · unfold World.pace
      dsimp only
      split <;> rfl
    · rfl

theorem rows_leaseCall (sound : world.Sound) {call : Nat} {value : DispatchCall}
    (found : world.calls call = some value)
    (done : world.leaseCall wording options call value = .ok world') :
    RowsChange options (.lease call) world world' ∧ world'.Sound := by
  unfold World.leaseCall at done
  split at done
  · obtain rfl := pure_eq_ok.mp done
    exact rows_same sound rfl
  · rename_i result outbox computed
    obtain ⟨committed, commits, outcome⟩ := bind_eq_ok.mp done
    obtain ⟨expected, commits', touches⟩ := sound.commit_leasing computed
    obtain rfl : expected = committed := Except.ok.inj (commits'.symm.trans commits)
    obtain rfl := pure_eq_ok.mp outcome
    cases result with
    | none => exact rows_queued touches rfl
    | some item =>
        obtain ⟨touches, past, -, named⟩ := touches
        obtain ⟨sound', touched⟩ :=
          touches.rows (expected.moveCall call value (.sending item)) rfl
        refine ⟨.leased call value item rfl found ?_ past named touched, sound'⟩
        rw [touches.frame]
        rfl

/-- What recording a delivery does: the row becomes delivered, or was delivered before, or the
attempt counts as failed. -/
inductive DeliverOutcome (world : World) (call : Nat) (value : DispatchCall)
    (item : NotificationOutboxRecord) (uuid : String) : World → Prop
  | lost (error : SendError)
      (undelivered : ∀ record, world.row value.sourceEventId = some record →
        record.state = .failed) :
      DeliverOutcome world call value item uuid (world.failCall call value item error)
  | again {record : NotificationOutboxRecord}
      (found : world.row value.sourceEventId = some record)
      (delivered : record.state = .delivered) :
      DeliverOutcome world call value item uuid
        (({ world with
            events := world.events ++ [deliveredEvent uuid world.clock record] } : World).finish
              call value)
  | delivered {record : NotificationOutboxRecord} {committed : World}
      (found : world.row value.sourceEventId = some record) (pending : record.state = .pending)
      (touches : Touches world committed value.sourceEventId fun _ after =>
        after = some (stored (deliveredRecord world.clock record))) :
      DeliverOutcome world call value item uuid
        (({ committed with
            events := world.events ++ [deliveredEvent uuid world.clock record] } : World).finish
              call value)

theorem deliverCall_outcome (sound : world.Sound) {call : Nat} {value : DispatchCall}
    {item : NotificationOutboxRecord} (named : item.id = "notify_" ++ value.sourceEventId)
    (uuid : String) :
    DeliverOutcome world call value item uuid (world.deliverCall call value item uuid) := by
  unfold World.deliverCall delivering
  rw [named, sound.lookup_id]
  cases found : world.row value.sourceEventId with
  | none =>
      refine .lost _ fun record present => ?_
      rw [found] at present
      cases present
  | some record =>
      obtain ⟨-, -, -, -, -, id⟩ := sound.row_spec found
      have same : item.id = record.id := named.trans id.symm
      simp only [require, ok_bind, pure, Except.pure]
      cases state : record.state with
      | delivering => exact absurd state (sound.not_delivering found)
      | pending =>
          obtain ⟨committed, commits, touches⟩ :=
            sound.commit_delivered found same state world.clock
          rw [commits]
          exact .delivered found state touches
      | delivered =>
          rw [sound.commit_delivered_again found same state world.clock]
          exact .again found state
      | failed =>
          rw [sound.commit_delivered_refused found same state world.clock]
          refine .lost _ fun other present => ?_
          rw [found] at present
          cases present
          exact state

theorem rows_deliverCall (sound : world.Sound) {call : Nat} {value : DispatchCall}
    {item : NotificationOutboxRecord} (found : world.calls call = some value)
    (stage : value.stage = .delivering item)
    (named : item.id = "notify_" ++ value.sourceEventId) (uuid : String) :
    RowsChange options (.record call uuid) world (world.deliverCall call value item uuid) ∧
      (world.deliverCall call value item uuid).Sound := by
  have outcome : DeliverOutcome world call value item uuid
      (world.deliverCall call value item uuid) := deliverCall_outcome sound named uuid
  generalize world.deliverCall call value item uuid = after at outcome ⊢
  cases outcome with
  | lost error _ => exact rows_same sound rfl
  | again _ _ => exact rows_same sound rfl
  | @delivered record committed present pending touches =>
      obtain ⟨sound', touched⟩ := touches.rows (({ committed with
        events := world.events ++ [deliveredEvent uuid world.clock record] } : World).finish
          call value) rfl
      exact ⟨.delivered call uuid value item rfl found stage (ended_finish _ _) record rfl
        ⟨touched.others, present, pending, touched.own⟩, sound'⟩

theorem rows_failureCall (sound : world.Sound) {call : Nat} {value : DispatchCall}
    {item : NotificationOutboxRecord} {error : SendError} (uuid : String)
    (found : world.calls call = some value) (stage : value.stage = .failing item error)
    (named : item.id = "notify_" ++ value.sourceEventId)
    (done : world.failureCall options call value item error = .ok world') :
    RowsChange options (.record call uuid) world world' ∧ world'.Sound := by
  obtain ⟨committed, commits, result⟩ := bind_eq_ok.mp done
  obtain rfl := pure_eq_ok.mp result
  unfold failing at commits
  rw [named, sound.lookup_id] at commits
  cases present : world.row value.sourceEventId with
  | none =>
      rw [present] at commits
      cases sound.commit_same.symm.trans commits
      exact rows_same sound rfl
  | some record =>
      rw [present] at commits
      dsimp only at commits
      split at commits
      · rename_i waits
        have pending := waits.resolve_left (sound.not_delivering present)
        obtain ⟨-, -, -, -, -, id⟩ := sound.row_spec present
        obtain ⟨expected, commits', touches⟩ := sound.commit_failed present (named.trans id.symm)
          pending (options value.dispatcher) error world.clock
        obtain rfl : expected = committed := Except.ok.inj (commits'.symm.trans commits)
        obtain ⟨sound', touched⟩ := touches.rows (expected.finish call value) rfl
        exact ⟨.failed call uuid value item error rfl found stage (ended_finish _ _)
          ⟨touched.others, record, present, pending, touched.own⟩, sound'⟩
      · cases sound.commit_same.symm.trans commits
        exact rows_same sound rfl

/-! ## The calls -/

/-- Where a call comes from that is under way after a step. -/
inductive CallChange (options : Nat → DispatcherOptions) (command : Command) (world world' : World)
    (call : Nat) (after : DispatchCall) : Prop
  | kept (found : world.calls call = some after)
  | begun (free : after.stage.item = none)
  | leased (value : DispatchCall) (item : NotificationOutboxRecord) (is : command = .lease call)
      (found : world.calls call = some value) (same : after = { value with stage := .sending item })
      (named : item.id = "notify_" ++ value.sourceEventId)
      (past : sharedBackoff world.outbox world.clock ≤ world.clock)
      (touched : RowTouched world world' value.sourceEventId
        (Leased (options value.dispatcher) world.clock item))
  | moved (value : DispatchCall) (found : world.calls call = some value)
      (source : after.sourceEventId = value.sourceEventId)
      (item : after.stage.item = value.stage.item)
      (took : ∀ item, after.stage = .delivering item → command = .answer call none)

theorem commit_frame {outbox : List NotificationOutboxRecord} {committed : World}
    (commits : world.commit outbox = .ok committed) :
    committed = { world with rows := committed.rows } := by
  obtain ⟨rows, -, result⟩ := bind_eq_ok.mp commits
  obtain rfl := pure_eq_ok.mp result
  rfl

/-- A call that is under way after another one moved was so before, or is the one that moved. -/
theorem calls_setCall {call other : Nat} {value : Option DispatchCall} {after : DispatchCall}
    (found : (world.setCall call value).calls other = some after) :
    (other = call ∧ value = some after) ∨ world.calls other = some after := by
  have calls : (world.setCall call value).calls = Function.update world.calls call value := rfl
  rw [calls] at found
  by_cases same : other = call
  · subst same
    rw [Function.update_self] at found
    exact .inl ⟨rfl, found⟩
  · rw [Function.update_of_ne same] at found
    exact .inr found

/-- A call that is under way after another one ended was so before. -/
theorem calls_finish {call other : Nat} (value : DispatchCall) {after : DispatchCall}
    (found : (world.finish call value).calls other = some after) :
    world.calls other = some after := by
  rcases calls_setCall found with ⟨-, none⟩ | kept
  · cases none
  · exact kept

theorem calls_queueCall {command : Command} {call other : Nat} {value after : DispatchCall}
    (done : world.queueCall wording options call value = .ok world')
    (under : world'.calls other = some after) :
    CallChange options command world world' other after := by
  unfold World.queueCall at done
  split at done
  · obtain rfl := pure_eq_ok.mp done
    exact .kept (calls_finish value under)
  · obtain ⟨committed, commits, result⟩ := bind_eq_ok.mp done
    obtain rfl := pure_eq_ok.mp result
    rw [commit_frame commits] at under
    split at under
    · unfold World.pace at under
      dsimp only at under
      split at under
      all_goals
        rcases calls_setCall under with ⟨-, moved⟩ | kept
        · cases moved
          exact .begun rfl
        · exact .kept kept
    · exact .kept (calls_finish value under)

theorem calls_leaseCall (sound : world.Sound) {call other : Nat} {value after : DispatchCall}
    (found : world.calls call = some value)
    (done : world.leaseCall wording options call value = .ok world')
    (under : world'.calls other = some after) :
    CallChange options (.lease call) world world' other after := by
  unfold World.leaseCall at done
  split at done
  · obtain rfl := pure_eq_ok.mp done
    exact .kept (calls_finish value under)
  · rename_i result outbox computed
    obtain ⟨committed, commits, outcome⟩ := bind_eq_ok.mp done
    obtain rfl := pure_eq_ok.mp outcome
    rw [commit_frame commits] at under
    cases result with
    | none => exact .kept (calls_finish value under)
    | some item =>
        obtain ⟨expected, commits', touches, past, -, named⟩ := sound.commit_leasing computed
        obtain rfl : expected = committed := Except.ok.inj (commits'.symm.trans commits)
        obtain ⟨-, touched⟩ := touches.rows (expected.moveCall call value (.sending item)) rfl
        rcases calls_setCall under with ⟨rfl, moved⟩ | kept
        · exact .leased value item rfl found (Option.some.inj moved).symm named past touched
        · exact .kept kept

/-- A call whose record is kept while it moves. -/
theorem calls_moveCall {command : Command} {call other : Nat} {value after : DispatchCall}
    (stage : CallStage) (found : world.calls call = some value)
    (item : stage.item = value.stage.item)
    (took : ∀ item, stage = .delivering item → command = .answer call none)
    (under : (world.moveCall call value stage).calls other = some after) :
    CallChange options command world world' other after := by
  rcases calls_setCall under with ⟨rfl, moved⟩ | kept
  · cases moved
    exact .moved value found rfl item took
  · exact .kept kept

theorem calls_deliverCall (sound : world.Sound) {command : Command} {call other : Nat}
    {value after : DispatchCall} {item : NotificationOutboxRecord}
    (found : world.calls call = some value) (stage : value.stage = .delivering item)
    (named : item.id = "notify_" ++ value.sourceEventId) (uuid : String)
    (under : (world.deliverCall call value item uuid).calls other = some after) :
    CallChange options command world world' other after := by
  have outcome : DeliverOutcome world call value item uuid
      (world.deliverCall call value item uuid) := deliverCall_outcome sound named uuid
  generalize world.deliverCall call value item uuid = result at outcome under
  cases outcome with
  | lost error _ =>
      exact calls_moveCall (.failing item error) found (by rw [stage]; rfl)
        (fun _ same => by cases same) under
  | again _ _ => exact .kept (calls_finish value under)
  | @delivered record committed present pending touches =>
      rw [touches.frame] at under
      exact .kept (calls_finish value under)

/-! ## Every step -/

/-- What a step does to the rows. -/
theorem step_rows (orderly : world.Orderly) {command : Command}
    (done : step wording options command world = .ok world') :
    RowsChange options command world world' ∧ world'.Sound := by
  have sound := orderly.sound
  cases command with
  | wait milliseconds =>
      cases done
      exact rows_same sound rfl
  | store event =>
      cases done
      exact rows_same sound rfl
  | publish event text retentionDays =>
      let stored : World := { world with events := world.events ++ [event] }
      have soundStored : stored.Sound := sound.congr rfl
      obtain ⟨expected, commits, touches, -⟩ :=
        soundStored.commit_enqueue wording event text world.clock retentionDays
      obtain rfl : expected = world' := Except.ok.inj (commits.symm.trans done)
      exact ⟨.queued event.id ⟨touches.others, touches.own⟩, touches.sound⟩
  | requeue sourceEventId text retentionDays =>
      obtain ⟨source, -, commits⟩ := bind_eq_ok.mp done
      obtain ⟨expected, commits', touches, -⟩ :=
        sound.commit_enqueue wording source text world.clock retentionDays
      obtain rfl : expected = world' := Except.ok.inj (commits'.symm.trans commits)
      exact rows_queued touches rfl
  | dispatch call dispatcher sourceEventId text =>
      obtain ⟨-, -, result⟩ := bind_eq_ok.mp done
      obtain rfl := pure_eq_ok.mp result
      refine rows_same sound ?_
      unfold World.startCall
      dsimp only
      split <;> rfl
  | queue call =>
      obtain ⟨value, -, rest⟩ := bind_eq_ok.mp done
      obtain ⟨-, -, queued⟩ := bind_eq_ok.mp rest
      exact rows_queueCall sound queued
  | lease call =>
      obtain ⟨value, found, rest⟩ := bind_eq_ok.mp done
      split at rest
      · obtain ⟨-, -, leased⟩ := bind_eq_ok.mp rest
        exact rows_leaseCall sound (require_eq_ok.mp found) leased
      · cases rest
  | answer call failure =>
      obtain ⟨value, -, rest⟩ := bind_eq_ok.mp done
      split at rest
      · obtain rfl := pure_eq_ok.mp rest
        cases failure <;> exact rows_same sound rfl
      · cases rest
  | record call uuid =>
      obtain ⟨value, found, rest⟩ := bind_eq_ok.mp done
      have known := require_eq_ok.mp found
      split at rest
      · rename_i item stage
        obtain rfl := pure_eq_ok.mp rest
        have named := orderly.items call value item known (by rw [stage]; rfl)
        exact rows_deliverCall sound known stage named uuid
      · rename_i item error stage
        have named := orderly.items call value item known (by rw [stage]; rfl)
        exact rows_failureCall sound uuid known stage named rest
      · cases rest
  | refuse call error =>
      obtain ⟨value, -, rest⟩ := bind_eq_ok.mp done
      unfold World.refuseCall at rest
      split at rest
      all_goals first
        | cases rest
          exact rows_same sound rfl
        | cases rest
  | crash dispatcher =>
      cases done
      exact rows_same sound rfl
  | prune retentionDays =>
      obtain ⟨stored, commits, result⟩ := bind_eq_ok.mp done
      obtain rfl := pure_eq_ok.mp result
      obtain ⟨expected, commits', sound', -, outbox⟩ :=
        sound.commit_pruned world.clock retentionDays
      obtain rfl : expected = stored := Except.ok.inj (commits'.symm.trans commits)
      exact ⟨.pruned retentionDays rfl outbox, sound'.congr rfl⟩

/-- Where the calls come from that are under way after a step. -/
theorem step_calls (orderly : world.Orderly) {command : Command}
    (done : step wording options command world = .ok world') {call : Nat} {after : DispatchCall}
    (under : world'.calls call = some after) :
    CallChange options command world world' call after := by
  have sound := orderly.sound
  cases command with
  | wait milliseconds =>
      cases done
      exact .kept under
  | store event =>
      cases done
      exact .kept under
  | publish event text retentionDays =>
      rw [commit_frame done] at under
      exact .kept under
  | requeue sourceEventId text retentionDays =>
      obtain ⟨source, -, commits⟩ := bind_eq_ok.mp done
      rw [commit_frame commits] at under
      exact .kept under
  | dispatch other dispatcher sourceEventId text =>
      obtain ⟨-, -, result⟩ := bind_eq_ok.mp done
      obtain rfl := pure_eq_ok.mp result
      unfold World.startCall at under
      dsimp only at under
      split at under
      · exact .kept under
      · rcases calls_setCall under with ⟨-, begun⟩ | kept
        · cases begun
          exact .begun rfl
        · exact .kept kept
  | queue other =>
      obtain ⟨value, -, rest⟩ := bind_eq_ok.mp done
      obtain ⟨-, -, queued⟩ := bind_eq_ok.mp rest
      exact calls_queueCall queued under
  | lease other =>
      obtain ⟨value, found, rest⟩ := bind_eq_ok.mp done
      split at rest
      · obtain ⟨-, -, leased⟩ := bind_eq_ok.mp rest
        have change := calls_leaseCall sound (require_eq_ok.mp found) leased under
        exact change
      · cases rest
  | answer other failure =>
      obtain ⟨value, found, rest⟩ := bind_eq_ok.mp done
      have known := require_eq_ok.mp found
      split at rest
      · rename_i item stage
        obtain rfl := pure_eq_ok.mp rest
        cases failure with
        | none => exact calls_moveCall _ known (by rw [stage]; rfl) (fun _ _ => rfl) under
        | some error =>
            exact calls_moveCall _ known (by rw [stage]; rfl) (fun _ same => by cases same) under
      · cases rest
  | record other uuid =>
      obtain ⟨value, found, rest⟩ := bind_eq_ok.mp done
      have known := require_eq_ok.mp found
      split at rest
      · rename_i item stage
        obtain rfl := pure_eq_ok.mp rest
        have named := orderly.items other value item known (by rw [stage]; rfl)
        exact calls_deliverCall sound known stage named uuid under
      · rename_i item error stage
        obtain ⟨committed, commits, result⟩ := bind_eq_ok.mp rest
        obtain rfl := pure_eq_ok.mp result
        rw [commit_frame commits] at under
        exact .kept (calls_finish value under)
      · cases rest
  | refuse other error =>
      obtain ⟨value, found, rest⟩ := bind_eq_ok.mp done
      have known := require_eq_ok.mp found
      unfold World.refuseCall at rest
      split at rest
      · cases rest
        exact .kept (calls_finish value under)
      · cases rest
        exact .kept (calls_finish value under)
      · cases rest
        exact .kept (calls_finish value under)
      · rename_i item stage
        cases rest
        exact calls_moveCall _ known (by rw [stage]; rfl) (fun _ same => by cases same) under
      · cases rest
  | crash dispatcher =>
      cases done
      exact .kept (Option.filter_eq_some_iff.mp under).1
  | prune retentionDays =>
      obtain ⟨stored, commits, result⟩ := bind_eq_ok.mp done
      obtain rfl := pure_eq_ok.mp result
      rw [commit_frame commits] at under
      exact .kept under

/-! ## The past -/

/-- What a world remembers besides rows and calls. -/
structure Past where
  clock : Time
  events : List EventRecord
  accepted : List String
  dropped : List String

def World.past (world : World) : Past :=
  ⟨world.clock, world.events, world.accepted, world.dropped⟩

/-- What a step adds to the past. -/
inductive PastChange (command : Command) (world : World) : Past → Prop
  | same : PastChange command world world.past
  | waited (milliseconds : Nat) (is : command = .wait milliseconds) :
      PastChange command world { world.past with clock := world.clock + milliseconds }
  | stored (event : EventRecord)
      (is : command = .store event ∨
        ∃ text retentionDays, command = .publish event text retentionDays) :
      PastChange command world { world.past with events := world.events ++ [event] }
  | accepted (call : Nat) (value : DispatchCall) (item : NotificationOutboxRecord)
      (is : command = .answer call none) (found : world.calls call = some value)
      (stage : value.stage = .sending item) :
      PastChange command world { world.past with
        accepted := world.accepted ++ [value.sourceEventId] }
  | delivered (call : Nat) (uuid : String) (value : DispatchCall)
      (item record : NotificationOutboxRecord) (is : command = .record call uuid)
      (found : world.calls call = some value) (stage : value.stage = .delivering item)
      (present : world.row value.sourceEventId = some record) :
      PastChange command world { world.past with
        events := world.events ++ [deliveredEvent uuid world.clock record] }
  | dropped (retentionDays : Int) (is : command = .prune retentionDays) :
      PastChange command world { world.past with
        dropped := world.dropped ++ (world.outbox.filter
          (· ∉ pruned world.clock retentionDays world.outbox)).map
            NotificationOutboxRecord.sourceEventId }

theorem past_commit {outbox : List NotificationOutboxRecord} {committed : World}
    (commits : world.commit outbox = .ok committed) : committed.past = world.past := by
  rw [commit_frame commits]
  rfl

/-- A call that moves or ends adds nothing. -/
theorem past_moved {outbox : List NotificationOutboxRecord} {committed : World}
    (commits : world.commit outbox = .ok committed) (moved : world'.past = committed.past) :
    world'.past = world.past :=
  moved.trans (past_commit commits)

theorem past_pace (call : Nat) (value : DispatchCall) :
    (world.pace options call value).past = world.past := by
  unfold World.pace
  dsimp only
  split <;> rfl

theorem past_same {command : Command} (same : world'.past = world.past) :
    PastChange command world world'.past := by
  rw [same]
  exact .same

theorem past_queueCall {call : Nat} {value : DispatchCall}
    (done : world.queueCall wording options call value = .ok world') :
    world'.past = world.past := by
  unfold World.queueCall at done
  split at done
  · obtain rfl := pure_eq_ok.mp done
    rfl
  · obtain ⟨stored, commits, result⟩ := bind_eq_ok.mp done
    obtain rfl := pure_eq_ok.mp result
    split
    · exact past_moved commits (past_pace call value)
    · exact past_moved commits rfl

theorem past_leaseCall {call : Nat} {value : DispatchCall}
    (done : world.leaseCall wording options call value = .ok world') :
    world'.past = world.past := by
  unfold World.leaseCall at done
  split at done
  · obtain rfl := pure_eq_ok.mp done
    rfl
  · obtain ⟨stored, commits, result⟩ := bind_eq_ok.mp done
    obtain rfl := pure_eq_ok.mp result
    split <;> exact past_moved commits rfl

theorem past_deliverCall (sound : world.Sound) {call : Nat} {value : DispatchCall}
    {item : NotificationOutboxRecord} (found : world.calls call = some value)
    (stage : value.stage = .delivering item)
    (named : item.id = "notify_" ++ value.sourceEventId) (uuid : String) :
    PastChange (.record call uuid) world (world.deliverCall call value item uuid).past := by
  have outcome : DeliverOutcome world call value item uuid
      (world.deliverCall call value item uuid) := deliverCall_outcome sound named uuid
  generalize world.deliverCall call value item uuid = result at outcome
  cases outcome with
  | lost error _ => exact .same
  | again present _ => exact .delivered call uuid value item _ rfl found stage present
  | @delivered record committed present _ touches =>
      have added := PastChange.delivered call uuid value item record rfl found stage present
      rw [touches.frame]
      exact added

/-- What a step adds to the past. -/
theorem step_past (orderly : world.Orderly) {command : Command}
    (done : step wording options command world = .ok world') :
    PastChange command world world'.past := by
  cases command with
  | wait milliseconds =>
      cases done
      exact .waited milliseconds rfl
  | store event =>
      cases done
      exact .stored event (.inl rfl)
  | publish event text retentionDays =>
      rw [past_commit done]
      exact .stored event (.inr ⟨text, retentionDays, rfl⟩)
  | requeue sourceEventId text retentionDays =>
      obtain ⟨source, -, commits⟩ := bind_eq_ok.mp done
      exact past_same (past_commit commits)
  | dispatch call dispatcher sourceEventId text =>
      obtain ⟨-, -, result⟩ := bind_eq_ok.mp done
      obtain rfl := pure_eq_ok.mp result
      refine past_same ?_
      unfold World.startCall
      dsimp only
      split <;> rfl
  | queue call =>
      obtain ⟨value, -, rest⟩ := bind_eq_ok.mp done
      obtain ⟨-, -, queued⟩ := bind_eq_ok.mp rest
      exact past_same (past_queueCall queued)
  | lease call =>
      obtain ⟨value, -, rest⟩ := bind_eq_ok.mp done
      split at rest
      · obtain ⟨-, -, leased⟩ := bind_eq_ok.mp rest
        exact past_same (past_leaseCall leased)
      · cases rest
  | answer call failure =>
      obtain ⟨value, found, rest⟩ := bind_eq_ok.mp done
      split at rest
      · rename_i item stage
        obtain rfl := pure_eq_ok.mp rest
        cases failure with
        | none => exact .accepted call value item rfl (require_eq_ok.mp found) stage
        | some error => exact past_same rfl
      · cases rest
  | record call uuid =>
      obtain ⟨value, found, rest⟩ := bind_eq_ok.mp done
      have known := require_eq_ok.mp found
      split at rest
      · rename_i item stage
        obtain rfl := pure_eq_ok.mp rest
        have named := orderly.items call value item known (by rw [stage]; rfl)
        exact past_deliverCall orderly.sound known stage named uuid
      · obtain ⟨stored, commits, result⟩ := bind_eq_ok.mp rest
        obtain rfl := pure_eq_ok.mp result
        exact past_same (past_moved commits rfl)
      · cases rest
  | refuse call error =>
      obtain ⟨value, -, rest⟩ := bind_eq_ok.mp done
      unfold World.refuseCall at rest
      split at rest
      · cases rest
        exact past_same rfl
      · cases rest
        exact past_same rfl
      · cases rest
        exact past_same rfl
      · cases rest
        exact past_same rfl
      · cases rest
  | crash dispatcher =>
      cases done
      exact past_same rfl
  | prune retentionDays =>
      obtain ⟨stored, commits, result⟩ := bind_eq_ok.mp done
      obtain rfl := pure_eq_ok.mp result
      rw [commit_frame commits]
      exact .dropped retentionDays rfl

/-- Every step keeps the rows sound and the calls with the records of their events. -/
theorem World.Orderly.step (orderly : world.Orderly) {command : Command}
    (done : step wording options command world = .ok world') : world'.Orderly where
  sound := (step_rows orderly done).2
  items := by
    intro call after item under holds
    cases step_calls orderly done under with
    | kept found => exact orderly.items call after item found holds
    | begun free =>
        rw [free] at holds
        cases holds
    | leased value leasedItem _ found same named _ _ =>
        subst same
        cases holds
        exact named
    | moved value found source sameItem _ =>
        rw [source]
        exact orderly.items call value item found (sameItem.symm.trans holds)

end MintBot.Notifications
