import MintBot.Notifications.Steps

/-!
# One attempt at a time

A call that was given a row holds it until its attempt is recorded.  While no attempt outlasts
its lease, no two calls hold the row of one event, whichever dispatchers they belong to and in
whatever order their steps are taken.
-/

namespace MintBot.Notifications

open Fallible Machine

variable {wording : MessageWording} {options : Nat → DispatcherOptions} {world world' : World}

/-! ## Time and dropped rows -/

/-- The time that a command takes. -/
def Command.elapsed : Command → Nat
  | .wait milliseconds => milliseconds
  | _ => 0

/-- Only waiting takes time. -/
theorem step_clock (orderly : world.Orderly) {command : Command}
    (done : step wording options command world = .ok world') :
    world'.clock = world.clock + command.elapsed := by
  cases command with
  | wait milliseconds =>
      cases done
      rfl
  | _ =>
      have change := step_past orderly done
      generalize result : world'.past = past at change
      have clock : world'.clock = past.clock := by rw [← result]; rfl
      rw [clock]
      cases change with
      | waited _ is => cases is
      | _ => exact (Int.add_zero _).symm

theorem World.Sound.distinctSources (sound : world.Sound) :
    (world.outbox.map NotificationOutboxRecord.sourceEventId).Nodup := by
  have ids : (world.outbox.map NotificationOutboxRecord.id).Nodup := by
    rw [outbox, map_id_readNotifications]
    exact sound.distinct
  have named : world.outbox.map NotificationOutboxRecord.id =
      (world.outbox.map NotificationOutboxRecord.sourceEventId).map ("notify_" ++ ·) := by
    rw [List.map_map]
    exact List.map_congr_left fun record member => sound.named member
  rw [named] at ids
  exact ids.of_map _

/-- What is left of a row when rows are dropped. -/
theorem row_pruned (sound : world.Sound) {retentionDays : Int}
    (outbox : world'.outbox = pruned world.clock retentionDays world.outbox)
    {sourceEventId : String} {record : NotificationOutboxRecord}
    (found : world.row sourceEventId = some record) :
    world'.row sourceEventId = some record ∨
      (world'.row sourceEventId = none ∧ record.state = .delivered ∧ record ∉ world'.outbox) := by
  obtain ⟨member, same⟩ := Table.lookup_eq_some found
  have distinct := sound.distinctSources
  unfold World.row
  by_cases kept : record ∈ world'.outbox
  · have distinct' : (world'.outbox.map NotificationOutboxRecord.sourceEventId).Nodup := by
      rw [outbox]
      exact distinct.sublist (List.filter_sublist.map _)
    exact .inl (same ▸ Table.lookup_of_mem distinct' kept)
  · refine .inr ⟨Table.lookup_eq_none.mpr fun other known equal => kept ?_, ?_, kept⟩
    · rw [outbox] at known
      have before := (List.mem_filter.mp known).1
      rw [← List.inj_on_of_nodup_map distinct before member (equal.trans same.symm), outbox]
      exact known
    · by_contra undelivered
      refine kept ?_
      rw [outbox]
      exact List.mem_filter.mpr ⟨member, decide_eq_true (.inl undelivered)⟩

/-- Nothing is made when rows are dropped. -/
theorem row_of_pruned (sound : world.Sound) {retentionDays : Int}
    (outbox : world'.outbox = pruned world.clock retentionDays world.outbox)
    {sourceEventId : String} {record : NotificationOutboxRecord}
    (found : world'.row sourceEventId = some record) : world.row sourceEventId = some record := by
  obtain ⟨member, same⟩ := Table.lookup_eq_some found
  rw [outbox] at member
  exact same ▸ Table.lookup_of_mem sound.distinctSources (List.mem_filter.mp member).1

/-! ## Leases -/

/-- No attempt outlasts its lease. -/
def World.Prompt (world : World) (command : Command) : Prop :=
  ∀ call value item, world.calls call = some value → value.stage.item = some item →
    Ahead item.deliveryLeaseUntil (world.clock + command.elapsed)

/-- A call holds the record that it was given, whose row is still leased. -/
structure Holds (world : World) (value : DispatchCall) (item : NotificationOutboxRecord) :
    Prop where
  intro ::
  row : ∃ record, world.row value.sourceEventId = some record ∧ record.state = .pending ∧
    record.deliveryLeaseUntil = item.deliveryLeaseUntil
  lease : Ahead item.deliveryLeaseUntil world.clock

/-- Every attempt under way holds its row, and no row is held twice. -/
structure World.Exclusive (world : World) : Prop where
  holds : ∀ call value item, world.calls call = some value → value.stage.item = some item →
    Holds world value item
  alone : ∀ first second value other item otherItem, world.calls first = some value →
    world.calls second = some other → value.stage.item = some item →
    other.stage.item = some otherItem → value.sourceEventId = other.sourceEventId → first = second

theorem ahead_congr {record item : NotificationOutboxRecord} {now : Time}
    (same : record.deliveryLeaseUntil = item.deliveryLeaseUntil)
    (lease : Ahead item.deliveryLeaseUntil now) : Ahead record.deliveryLeaseUntil now := by
  rwa [same]

/-- A held row is not given to another call. -/
theorem Holds.not_leased {value : DispatchCall} {item given : NotificationOutboxRecord}
    (holds : Holds world value item) {own : DispatcherOptions}
    {after : Option NotificationOutboxRecord} :
    ¬ Leased own world.clock given (world.row value.sourceEventId) after := by
  intro leased
  obtain ⟨record, found, -, same⟩ := holds.row
  obtain ⟨before, origin, -, -, -, free⟩ := leased.held
  rcases origin with present | ⟨absent, -⟩
  · rw [found] at present
    cases present
    exact free (ahead_congr same holds.lease)
  · rw [found] at absent
    cases absent

/-- A held row is left alone by what queues rows. -/
theorem Holds.queued {value : DispatchCall} {item : NotificationOutboxRecord}
    (holds : Holds world value item) {after : Option NotificationOutboxRecord}
    (queued : Queued world.clock (world.row value.sourceEventId) after) :
    after = world.row value.sourceEventId := by
  obtain ⟨record, found, -, same⟩ := holds.row
  rw [found] at queued ⊢
  cases queued with
  | same => rfl
  | deferred _ _ free _ _ => exact absurd (ahead_congr same holds.lease) free

/-- A call that held its row and still is under way holds it after a step. -/
theorem Holds.step (exclusive : world.Exclusive) (orderly : world.Orderly) {command : Command}
    (done : step wording options command world = .ok world') {call : Nat}
    {value after : DispatchCall} {item : NotificationOutboxRecord}
    (found : world.calls call = some value) (item_ : value.stage.item = some item)
    (under : world'.calls call = some after) (source : after.sourceEventId = value.sourceEventId)
    (prompt : world.Prompt command) : Holds world' after item := by
  have holds := exclusive.holds call value item found item_
  have lease : Ahead item.deliveryLeaseUntil world'.clock := by
    rw [step_clock orderly done]
    exact prompt call value item found item_
  obtain ⟨record, present, pending, same⟩ := holds.row
  suffices kept : world'.row value.sourceEventId = some record from
    ⟨⟨record, source ▸ kept, pending, same⟩, lease⟩
  have other (touchedSource : String) (change)
      (touched : RowTouched world world' touchedSource change)
      (differ : value.sourceEventId ≠ touchedSource) :
      world'.row value.sourceEventId = some record :=
    (touched.others _ differ).trans present
  cases (step_rows orderly done).1 with
  | same rows => rw [row_congr rows, present]
  | queued sourceEventId touched =>
      by_cases own : value.sourceEventId = sourceEventId
      · subst own
        rw [holds.queued touched.own, present]
      · exact other _ _ touched own
  | leased otherCall otherValue otherItem _ _ _ _ _ touched =>
      by_cases own : value.sourceEventId = otherValue.sourceEventId
      · have leased := touched.own
        rw [← own] at leased
        exact absurd leased holds.not_leased
      · exact other _ _ touched own
  | delivered otherCall _ otherValue otherItem _ otherFound stage ended _ _ touched =>
      by_cases own : value.sourceEventId = otherValue.sourceEventId
      · have sameCall := exclusive.alone call otherCall value otherValue item otherItem found
          otherFound item_ (by rw [stage]; rfl) own
        subst sameCall
        rw [under] at ended
        cases ended
      · exact other _ _ touched own
  | failed otherCall _ otherValue otherItem error _ otherFound stage ended touched =>
      by_cases own : value.sourceEventId = otherValue.sourceEventId
      · have sameCall := exclusive.alone call otherCall value otherValue item otherItem found
          otherFound item_ (by rw [stage]; rfl) own
        subst sameCall
        rw [under] at ended
        cases ended
      · exact other _ _ touched own
  | pruned _ _ outbox =>
      rcases row_pruned orderly.sound outbox present with kept | ⟨-, delivered, -⟩
      · exact kept
      · rw [pending] at delivered
        cases delivered

/-- A call that holds a record after a step held it before, or was given it. -/
theorem CallChange.held {command : Command} {call : Nat} {after : DispatchCall}
    {item : NotificationOutboxRecord}
    (change : CallChange options command world world' call after)
    (item_ : after.stage.item = some item) :
    (∃ value, world.calls call = some value ∧ value.stage.item = some item ∧
        after.sourceEventId = value.sourceEventId) ∨
      ∃ own, command = .lease call ∧ RowTouched world world' after.sourceEventId
        (Leased (options own) world.clock item) := by
  cases change with
  | kept found => exact .inl ⟨after, found, item_, rfl⟩
  | begun free =>
      rw [free] at item_
      cases item_
  | leased value given is _ same _ _ touched =>
      subst same
      cases item_
      exact .inr ⟨value.dispatcher, is, touched⟩
  | moved value found source same _ => exact .inl ⟨value, found, same.symm.trans item_, source⟩

/-- No two calls hold a row, from step to step. -/
theorem World.Exclusive.step (exclusive : world.Exclusive) (orderly : world.Orderly)
    (leaseMs : ∀ dispatcher, 0 < (options dispatcher).leaseMs) {command : Command}
    (prompt : world.Prompt command) (done : step wording options command world = .ok world') :
    world'.Exclusive where
  holds := by
    intro call after item under item_
    rcases (step_calls orderly done under).held item_ with
      ⟨value, found, valueItem, source⟩ | ⟨own, rfl, touched⟩
    · exact Holds.step exclusive orderly done found valueItem under source prompt
    · obtain ⟨record, -, rfl, -⟩ := touched.own.held
      refine ⟨⟨_, touched.own.stored, rfl, rfl⟩, _, rfl, ?_⟩
      rw [step_clock orderly done]
      exact Int.lt_of_le_of_lt (Int.add_zero _).le (Int.lt_add_of_pos_right _ (leaseMs own))
  alone := by
    intro first second value other item otherItem under otherUnder item_ otherItem_ same
    have firstHeld := (step_calls orderly done under).held item_
    have secondHeld := (step_calls orderly done otherUnder).held otherItem_
    rcases firstHeld with ⟨old, found, oldItem, source⟩ | ⟨own, given, touched⟩
    · rcases secondHeld with ⟨oldOther, otherFound, oldOtherItem, otherSource⟩ | ⟨_, _, touched⟩
      · exact exclusive.alone first second old oldOther item otherItem found otherFound oldItem
          oldOtherItem (source.symm.trans (same.trans otherSource))
      · have leased := touched.own
        rw [← same, source] at leased
        exact absurd leased (exclusive.holds first old item found oldItem).not_leased
    · rcases secondHeld with ⟨oldOther, otherFound, oldOtherItem, otherSource⟩ | ⟨_, otherGiven, _⟩
      · have leased := touched.own
        rw [same, otherSource] at leased
        exact absurd leased
          (exclusive.holds second oldOther otherItem otherFound oldOtherItem).not_leased
      · rw [given] at otherGiven
        cases otherGiven
        rfl

/-! ## From a database that the dispatchers left -/

/-- The dispatchers start on rows that they left: no call is under way. -/
structure World.Starts (world : World) : Prop where
  sound : world.Sound
  idle : ∀ call, world.calls call = none

theorem World.Starts.orderly (starts : world.Starts) : world.Orderly where
  sound := starts.sound
  items := by
    intro call value item found
    rw [starts.idle call] at found
    cases found

theorem World.Starts.exclusive (starts : world.Starts) : world.Exclusive where
  holds := by
    intro call value item found
    rw [starts.idle call] at found
    cases found
  alone := by
    intro first second value other item otherItem found
    rw [starts.idle first] at found
    cases found

/-- Whatever the guard, the calls keep the records of their events. -/
theorem orderly_of_reaches {guard : World → Command → Prop} {start : World}
    (starts : start.Starts) (run : Reaches (step wording options) guard start world) :
    world.Orderly :=
  run.invariant starts.orderly fun _ _ _ orderly _ done => orderly.step done

/-- While no attempt outlasts its lease, at most one call of all dispatchers is sending the message
of an event or recording what came of it, and the row is still leased to that call. -/
theorem one_attempt_at_a_time (leaseMs : ∀ dispatcher, 0 < (options dispatcher).leaseMs)
    {start : World} (starts : start.Starts)
    (run : Reaches (step wording options) World.Prompt start world) :
    (∀ first second value other item otherItem, world.calls first = some value →
      world.calls second = some other → value.stage.item = some item →
      other.stage.item = some otherItem → value.sourceEventId = other.sourceEventId →
      first = second) ∧
    ∀ call value item, world.calls call = some value → value.stage.item = some item →
      ∃ record, world.row value.sourceEventId = some record ∧ record.state = .pending ∧
        record.deliveryLeaseUntil = item.deliveryLeaseUntil ∧
        Ahead record.deliveryLeaseUntil world.clock := by
  have kept : world.Orderly ∧ world.Exclusive := by
    apply run.invariant (And.intro starts.orderly starts.exclusive)
    intro state command next invariant prompt done
    exact ⟨invariant.1.step done, invariant.2.step invariant.1 leaseMs prompt done⟩
  refine ⟨kept.2.alone, fun call value item found item_ => ?_⟩
  have holds := kept.2.holds call value item found item_
  obtain ⟨record, present, pending, same⟩ := holds.row
  exact ⟨record, present, pending, same, ahead_congr same holds.lease⟩

/-! ## Two dispatchers and one event -/

/-- A command that takes no time and ends no call before its time. -/
def Command.Ordinary : Command → Prop
  | .wait _ | .crash _ | .refuse _ _ => False
  | _ => True

instance (command : Command) : Decidable command.Ordinary :=
  match command with
  | .wait _ | .crash _ | .refuse _ _ => inferInstanceAs (Decidable False)
  | .store _ | .publish _ _ _ | .requeue _ _ _ | .dispatch _ _ _ _ | .queue _ | .lease _
  | .answer _ _ | .record _ _ | .prune _ => inferInstanceAs (Decidable True)

/-- Attempts that take no time do not outlast their leases. -/
theorem World.Exclusive.prompt (exclusive : world.Exclusive) {command : Command}
    (ordinary : command.Ordinary) : world.Prompt command := by
  intro call value item found item_
  have still : command.elapsed = 0 := by
    cases command with
    | wait milliseconds => exact absurd ordinary id
    | _ => rfl
  rw [still]
  obtain ⟨until_, isUntil, ahead⟩ := (exclusive.holds call value item found item_).lease
  exact ⟨until_, isUntil, (Int.add_zero _).trans_lt ahead⟩

/-- Commands that take no time meet a guard that asks for no more than leases that still run. -/
theorem allowed_ordinary {guard : World → Command → Prop}
    (grants : ∀ state : World, ∀ command : Command, state.Exclusive → command.Ordinary →
      guard state command)
    (leaseMs : ∀ dispatcher, 0 < (options dispatcher).leaseMs) (orderly : world.Orderly)
    (exclusive : world.Exclusive) {commands : List Command}
    (ordinary : ∀ command ∈ commands, command.Ordinary) :
    Allowed (step wording options) guard world commands := by
  induction commands generalizing world with
  | nil => trivial
  | cons command rest inductionHypothesis =>
      have now := ordinary command List.mem_cons_self
      have later := fun next member => ordinary next (List.mem_cons_of_mem _ member)
      refine ⟨grants world command exclusive now, ?_⟩
      cases outcome : step wording options command world with
      | error failure =>
          rw [apply_error outcome]
          exact inductionHypothesis orderly exclusive later
      | ok next =>
          rw [apply_ok outcome]
          exact inductionHypothesis (orderly.step outcome)
            (exclusive.step orderly leaseMs (exclusive.prompt now) outcome) later

def sampleOptions (_ : Nat) : DispatcherOptions :=
  ⟨30, 1000, 60000, 30000, 0⟩

def sampleWording : MessageWording where
  sourceText event text := text.getD event.type
  canonicalRunLink runId := (truthy runId).map ("/api/v1/read-model/runs/" ++ ·)

def sampleEvent : EventRecord where
  id := "alert_kill_1"
  type := "alert_kill"
  at_ := some 1000000

/-- A store in which one event is to be told. -/
def sampleStart : World where
  clock := 1000000
  events := [sampleEvent]
  rows := []
  dispatchers _ := {}
  calls _ := none
  accepted := []
  dropped := []

theorem sampleStart_starts : sampleStart.Starts where
  sound := ⟨fun _ member => absurd member List.not_mem_nil, List.nodup_nil⟩
  idle _ := rfl

/-- Two dispatchers queue the event, and both ask for its row. -/
def sampleRace : List Command :=
  [.dispatch 0 0 "alert_kill_1" none, .dispatch 1 1 "alert_kill_1" none, .queue 0, .queue 1,
    .lease 0, .lease 1]

/-- The row that the first of two calls is given. -/
def sampleItem : NotificationOutboxRecord :=
  leased (sampleOptions 0) 1000000 (newRecord sampleWording sampleEvent none 1000000 30)

theorem sampleLeaseMs (dispatcher : Nat) : 0 < (sampleOptions dispatcher).leaseMs :=
  show (0 : Int) < 30000 by decide

/-- The first call sends the message, and no other one does. -/
theorem one_attempt_at_a_time_sample :
    (applyAll (step sampleWording sampleOptions) sampleStart sampleRace).calls 0 =
      some ⟨0, "alert_kill_1", none, .sending sampleItem⟩ ∧
    ∀ second other item, (applyAll (step sampleWording sampleOptions) sampleStart
        sampleRace).calls second = some other → other.stage.item = some item →
      other.sourceEventId = "alert_kill_1" → second = 0 := by
  have sending : (applyAll (step sampleWording sampleOptions) sampleStart sampleRace).calls 0 =
      some ⟨0, "alert_kill_1", none, .sending sampleItem⟩ := by decide +kernel
  have run : Reaches (step sampleWording sampleOptions) World.Prompt sampleStart
      (applyAll (step sampleWording sampleOptions) sampleStart sampleRace) :=
    (Reaches.refl sampleStart).applyAll (allowed_ordinary
      (fun _ _ exclusive ordinary => exclusive.prompt ordinary) sampleLeaseMs
      sampleStart_starts.orderly sampleStart_starts.exclusive (by decide))
  obtain ⟨alone, -⟩ := one_attempt_at_a_time sampleLeaseMs sampleStart_starts run
  refine ⟨sending, fun second other item found item_ source => ?_⟩
  exact alone second 0 other _ item sampleItem found sending item_ rfl source

end MintBot.Notifications
